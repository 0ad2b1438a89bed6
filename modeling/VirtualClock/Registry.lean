import VirtualClock.Script

/-!
The timers a clock has registered with its event loop: a stable handle for each, its callback,
and the source that is to fire it while it is armed on host time. Handles count up from zero
and are never given twice.
-/

namespace VirtualClock

structure Registration where
  handle : TimerHandle
  callback : Callback
  /-- Number of the source on the loop while the timer is armed on host time. -/
  source : Option Nat := none

structure Registry where
  entries : List Registration := []
  /-- Index of the next handle. -/
  next : Nat := 0

namespace Registry

def size (r : Registry) : Nat := r.entries.length

def handles (r : Registry) : List TimerHandle := r.entries.map (·.handle)

/-- Register a timer under the handle `⟨r.next⟩`. -/
def add (r : Registry) (callback : Callback) : Registry where
  entries := r.entries ++ [⟨⟨r.next⟩, callback, none⟩]
  next := r.next + 1

def find? (r : Registry) (h : TimerHandle) : Option Registration :=
  r.entries.find? (·.handle == h)

def erase (r : Registry) (h : TimerHandle) : Registry :=
  { r with entries := r.entries.eraseP (·.handle == h) }

def modify (r : Registry) (h : TimerHandle) (f : Registration → Registration) : Registry :=
  { r with entries := r.entries.map fun e => if e.handle == h then f e else e }

def setSource (r : Registry) (h : TimerHandle) (source : Option Nat) : Registry :=
  r.modify h ({ · with source })

/-- Count one more firing of a timer. -/
def markFired (r : Registry) (h : TimerHandle) : Registry :=
  r.modify h fun e => { e with callback := e.callback.fired }

end Registry

end VirtualClock

import VirtualClock.World

/-!
Dispatching the event loop: first the sources whose deadline has come, then the queue as it
stood. A task or source of a dropped clock does nothing. Settling dispatches until no clock
has work left; waiting lets host time pass from deadline to deadline.
-/

namespace VirtualClock.World

/-- Run the callback of timer `h` of clock `c`: count the firing, log it, then execute the
operations of this firing. -/
def runCallback (w : World) (c : Nat) (h : TimerHandle) : World :=
  match w.clock? c with
  | none => w
  | some k =>
    match k.registry.bind (·.find? h) with
    | none => w
    | some e =>
      let w := w.setClock c { k with registry := k.registry.map (·.markFired h) }
      (w.record (.fire e.callback.name (w.reading c))).execAll e.callback.ops

/-- Put the queued work of a fake clock behind whatever was queued since. -/
def reschedule (w : World) (c : Nat) : World :=
  match w.clock? c with
  | none => w
  | some k =>
    match k.source with
    | .real => w
    | .fake f =>
      let (f, loop) := f.reschedule c w.loop
      w.accept c (α := Unit) ⟨.ok (), { k with source := .fake f }, loop⟩

/-- The dispatch of a timer on fake time. If the callback drops the clock, `reschedule` has nothing
to queue anew. -/
def runTimer (w : World) (c : Nat) (h : TimerHandle) : World :=
  match w.clock? c with
  | none => w
  | some k =>
    match k.source with
    | .real => w
    | .fake f =>
      let (f, fires) := f.fire h
      let w := w.setClock c { k with source := .fake f }
      if fires then (w.runCallback c h).reschedule c else w

/-- The task that applies an advance. -/
def applyFinal (w : World) (c : Nat) : World :=
  match w.clock? c with
  | none => w
  | some k =>
    match k.source with
    | .real => w
    | .fake f =>
      let (f, loop) := f.applyFinal c w.loop
      w.accept c (α := Unit) ⟨.ok (), { k with source := .fake f }, loop⟩

def runTask (w : World) : Task → World
  | .timer c h => w.runTimer c h
  | .finalTime c => w.applyFinal c
  | .idle name ops => (w.record (.idle name w.readings)).execAll ops

/-- Run the next task of the batch. -/
def step (w : World) : World :=
  match w.loop.next? with
  | none => w
  | some (idle, loop) => runTask { w with loop } idle.task

/-- Run the callback of an expired source, unless an earlier one of the same dispatch removed
the source. -/
def expire (w : World) (s : Source) : World :=
  if s ∈ w.loop.sources then
    let w := { w with loop := w.loop.removeSource s.id }
    match w.clock? s.clock with
    | none => w
    | some k =>
      let k := { k with registry := k.registry.map (·.setSource s.handle none) }
      (w.setClock s.clock k).runCallback s.clock s.handle
  else w

def expireAll (w : World) : World := w.loop.expired.foldl expire w

/-- Run the whole batch; it only gets shorter while it runs. -/
def runBatch (w : World) : World := Nat.repeat step w.loop.batch.length w

/-- One turn of the loop, without waiting. -/
def dispatch (w : World) : World :=
  let w := w.expireAll
  runBatch { w with loop := w.loop.takeQueue }

def dispatchTimes (n : Nat) (w : World) : World := Nat.repeat dispatch n w

/-- Dispatch while any clock has work on the loop, at most `max` times; with the number of
dispatches. -/
def settle : (max : Nat) → World → Nat × World
  | 0, w => (0, w)
  | max + 1, w =>
    if w.anyPending then
      let (n, w) := settle max w.dispatch
      (n + 1, w)
    else (0, w)

/-- Let host time pass to `t`. -/
def passTo (w : World) (t : Nat) : World := { w with loop := { w.loop with now := t } }

/-- Dispatch until the log has `enough` entries or host time reaches `finish`. Work on the loop
runs at once; otherwise time jumps to the next deadline. Each round takes one unit of fuel. -/
def waitRounds (enough finish : Nat) : (fuel : Nat) → World → World
  | 0, w => w
  | fuel + 1, w =>
    if enough ≤ w.log.length || finish ≤ w.loop.now then w
    else if w.loop.queue.isEmpty then
      match w.loop.sources.head? with
      | some s =>
        if s.deadline ≤ finish then
          waitRounds enough finish fuel (w.passTo (max w.loop.now s.deadline)).dispatch
        else w.passTo finish
      | none => w.passTo finish
    else waitRounds enough finish fuel w.dispatch

/-- Let host time pass until `n` more entries are logged, at most for `cap` nanoseconds. Every
round but a few for each entry and source logs something, which bounds the rounds. -/
def wait (n cap : Nat) (w : World) : World :=
  waitRounds (w.log.length + n) (w.loop.now + cap) (4 * (n + w.loop.sources.length + 2)) w

end VirtualClock.World

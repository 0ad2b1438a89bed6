import VirtualClock.Proofs.World.Scripts

/-!
Whose an operation is. With one clock chosen, and what goes with it, an operation either concerns
that clock alone or does not concern it, and the same holds of the scripts it leaves. A clock that
is created belongs to the side whose operation creates it.
-/

namespace VirtualClock

/-- What goes with the chosen clock: the names of its timers, and the idles that act for it. -/
structure Ownership where
  timer : String → Bool
  idle : String → List Op → Bool

namespace Op

/-- The name of a timer that an operation uses or gives. -/
def timerName? : Op → Option String
  | add _ timer .. => some timer
  | update _ timer _ => some timer
  | remove _ timer => some timer
  | _ => none

theorem timerName?_of_timer? {op : Op} {timer : String} (named : op.timer? = some timer) :
    op.timerName? = some timer := by
  cases op with
  | update | remove => exact named
  | _ => cases named

theorem timerName?_of_adds? {op : Op} {timer : String} (named : op.adds? = some timer) :
    op.timerName? = some timer := by
  cases op with
  | add => exact named
  | _ => cases named

def isNew : Op → Bool
  | new .. => true
  | _ => false

/-- An operation on the side of clock `c`, if `mine`, or else on the other side. It is called on a
clock of its side, names timers of its side, and what it leaves is on its side; callbacks create no
clocks, and clock `c` itself is on fake time. -/
inductive Belongs (c : Nat) (own : Ownership) (mine : Bool) : Op → Prop where
  | mk {op : Op} :
    (∀ d, op.clock? = some d → (d = c ↔ mine = true)) →
    (∀ timer, op.timerName? = some timer → own.timer timer = mine) →
    (∀ name ops, op = .idle name ops → own.idle name ops = mine) →
    (∀ hasLoop, op = .new .real hasLoop → mine = false) →
    (∀ ops ∈ op.scripts, ∀ op' ∈ ops, op'.Belongs c own mine) →
    (op.clock?.isSome = true → ∀ ops ∈ op.scripts, ∀ op' ∈ ops, op'.isNew = false) →
    Belongs c own mine op

/-- What callbacks of clock `d` may run. -/
def Calls (c : Nat) (own : Ownership) (d : Nat) (op : Op) : Prop :=
  op.Belongs c own (d == c) ∧ op.isNew = false

/-- What an idle may run. -/
def Serves (c : Nat) (own : Ownership) (name : String) (ops : List Op) : Prop :=
  ∀ op ∈ ops, op.Belongs c own (own.idle name ops)

namespace Belongs

variable {c d : Nat} {own : Ownership} {mine : Bool} {op : Op}

theorem of_call (about : op.clock? = some d) (side : d = c ↔ mine = true)
    (timer : ∀ timer, op.timerName? = some timer → own.timer timer = mine)
    (scripts : ∀ ops ∈ op.scripts, ∀ op' ∈ ops, op'.Belongs c own mine ∧ op'.isNew = false) :
    op.Belongs c own mine := by
  refine .mk ?_ timer ?_ ?_ (fun ops script op' member => (scripts ops script op' member).1)
    fun _ ops script op' member => (scripts ops script op' member).2
  · intro e about'
    cases about.symm.trans about'
    exact side
  · rintro name ops rfl
    cases about
  · rintro hasLoop rfl
    cases about

theorem of_new (hasLoop : Bool) : (new .fake hasLoop).Belongs c own mine :=
  .mk nofun nofun nofun nofun nofun nofun

theorem clock_iff (belongs : op.Belongs c own mine) (about : op.clock? = some d) :
    d = c ↔ mine = true := by
  cases belongs with
  | mk clock => exact clock d about

theorem timer_eq (belongs : op.Belongs c own mine) {timer : String}
    (named : op.timerName? = some timer) : own.timer timer = mine := by
  cases belongs with
  | mk _ timers => exact timers timer named

theorem idle_eq {name : String} {ops : List Op} (belongs : (idle name ops).Belongs c own mine) :
    own.idle name ops = mine := by
  cases belongs with
  | mk _ _ idles => exact idles name ops rfl

theorem ne_real {hasLoop : Bool} (belongs : op.Belongs c own true) : op ≠ .new .real hasLoop := by
  cases belongs with
  | mk _ _ _ fake => exact fun real => nomatch fake hasLoop real

theorem leaves (belongs : op.Belongs c own mine) : op.Leaves (Calls c own) (Serves c own) := by
  cases belongs with
  | mk clock _ idles _ scripts callbacks =>
    constructor
    · intro d about ops script op' member
      have side : (d == c) = mine := by
        rw [Bool.eq_iff_iff, beq_iff_eq]
        exact clock d about
      rw [Calls, side]
      exact ⟨scripts ops script op' member, callbacks (by simp [about]) ops script op' member⟩
    · intro name ops same op' member
      subst same
      rw [idles name ops rfl]
      exact scripts ops (List.mem_singleton_self ops) op' member

end Belongs

end Op

/-- An event on the side of clock `c`: a firing of its timers, or a call of its side. -/
def Event.belongs (c : Nat) (own : Ownership) : Event → Bool
  | call (.new ..) _ _ (.clockNumber n) => n == c
  | call (.idle name ops) .. => own.idle name ops
  | call op .. => op.clock? == some c
  | fire d .. => d == c

namespace World

variable {w w' : World} {c : Nat} {own : Ownership} {mine : Bool} {op : Op} {ops : List Op}

/-- The numbers of the clocks that operations will create. -/
def made (w : World) (ops : List Op) : List Nat :=
  List.range' w.clocks.length (ops.countP (·.isNew))

theorem mem_made_iff {n : Nat} :
    n ∈ w.made ops ↔ w.clocks.length ≤ n ∧ n < w.clocks.length + ops.countP (·.isNew) := by
  rw [made, List.mem_range'_1]

theorem Executed.length_eq (executed : Executed w op w') (old : op.isNew = false) :
    w'.clocks.length = w.clocks.length := by
  cases executed with
  | still | queued => rfl
  | created => cases old
  | dropped | called => exact List.length_set ..

theorem length_exec (w : World) (op : Op) :
    (w.exec op).2.clocks.length = w.clocks.length + if op.isNew then 1 else 0 := by
  cases new : op.isNew with
  | false => exact (executed_exec w op).length_eq new
  | true =>
    cases op with
    | new mode hasLoop => simp [exec, newClock]
    | _ => cases new

/-- Operations that one side runs in a world: `c` is created by its own side only. -/
structure Fits (c : Nat) (own : Ownership) (mine : Bool) (w : World) (ops : List Op) :
    Prop where
  belongs : ∀ op ∈ ops, op.Belongs c own mine
  made : ∀ n ∈ w.made ops, (n = c ↔ mine = true)

namespace Fits

theorem of_length (fits : w.Fits c own mine ops) (same : w'.clocks.length = w.clocks.length) :
    w'.Fits c own mine ops :=
  ⟨fits.belongs, fun n member =>
    fits.made n (by rwa [mem_made_iff, same, ← mem_made_iff] at member)⟩

theorem head (fits : w.Fits c own mine (op :: ops)) : op.Belongs c own mine :=
  fits.belongs op List.mem_cons_self

theorem created (fits : w.Fits c own mine (op :: ops)) (new : op.isNew = true) :
    w.clocks.length = c ↔ mine = true := by
  apply fits.made
  rw [mem_made_iff, List.countP_cons_of_pos new]
  omega

theorem belongs_called (fits : w.Fits c own mine (op :: ops)) :
    (w.called op).belongs c own = mine := by
  have about {d : Nat} (about : op.clock? = some d) : (some d == some c) = mine := by
    rw [Bool.eq_iff_iff, beq_iff_eq, Option.some.injEq]
    exact fits.head.clock_iff about
  cases op with
  | new mode hasLoop =>
    change (w.clocks.length == c) = mine
    rw [Bool.eq_iff_iff, beq_iff_eq]
    exact fits.created rfl
  | idle name ops => exact fits.head.idle_eq
  | _ => exact about rfl

theorem tail (fits : w.Fits c own mine (op :: ops)) : (w.exec op).2.Fits c own mine ops := by
  refine ⟨fun op' member => fits.belongs op' (List.mem_cons_of_mem op member), ?_⟩
  intro n member
  apply fits.made
  rw [mem_made_iff, length_exec] at member
  rw [mem_made_iff, List.countP_cons]
  omega

theorem nil (w : World) : w.Fits c own mine [] := by
  refine ⟨fun _ => nofun, ?_⟩
  intro n member
  rw [mem_made_iff, List.countP_nil] at member
  omega

theorem of_calls {d : Nat} (calls : ∀ op ∈ ops, op.Calls c own d) :
    w.Fits c own (d == c) ops := by
  refine ⟨fun op member => (calls op member).1, ?_⟩
  have none : ops.countP (·.isNew) = 0 :=
    List.countP_eq_zero.mpr fun op member => by simp [(calls op member).2]
  intro n member
  rw [mem_made_iff, none] at member
  omega

end Fits

end World

end VirtualClock

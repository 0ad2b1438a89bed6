import VirtualClock.Proofs.History.Transitions
import VirtualClock.Proofs.Simulation.Operations
import VirtualClock.Proofs.World.Scripts

/-!
Confined clocks. The callbacks of a confined clock stay with the clock, and whatever else may run
on the loop stays away from it; a run keeps it so, whatever the callbacks add.
-/

namespace VirtualClock

namespace Op

/-- An operation that neither is on clock `c` nor gives away a name of its timers, nor leaves one
that does. -/
inductive Avoids (c : Nat) (own : String → Prop) : Op → Prop where
  | mk {op : Op} :
    op.clock? ≠ some c → (∀ timer, op.adds? = some timer → ¬own timer) →
    (∀ ops ∈ op.scripts, ∀ op' ∈ ops, op'.Avoids c own) → Avoids c own op

/-- What callbacks of clock `d` may do when clock `c` is confined. -/
def Allowed (c : Nat) (own : String → Prop) (d : Nat) (op : Op) : Prop :=
  if d = c then op.Within c own else op.Avoids c own

variable {c d : Nat} {own : String → Prop} {op : Op}

theorem Within.clock? (within : op.Within c own) : op.clock? = some c := by
  cases within <;> rfl

theorem Within.scripts (within : op.Within c own) :
    ∀ ops ∈ op.scripts, ∀ op' ∈ ops, op'.Within c own := by
  cases within with
  | add repeats mine fires => exact fires
  | _ => nofun

theorem Avoids.clock? (avoids : op.Avoids c own) : op.clock? ≠ some c := by
  cases avoids
  assumption

theorem Avoids.adds? (avoids : op.Avoids c own) {timer : String} (mine : own timer) :
    op.adds? ≠ some timer := by
  cases avoids with
  | mk _ names _ => exact fun adds => names timer adds mine

theorem Avoids.scripts (avoids : op.Avoids c own) :
    ∀ ops ∈ op.scripts, ∀ op' ∈ ops, op'.Avoids c own := by
  cases avoids
  assumption

theorem allowed_of_ne (other : d ≠ c) : op.Allowed c own d ↔ op.Avoids c own := by
  rw [Allowed, if_neg other]

theorem allowed_self : op.Allowed c own c ↔ op.Within c own := by
  rw [Allowed, if_pos rfl]

theorem Allowed.leaves (fine : op.Within c own ∨ op.Avoids c own) :
    op.Leaves (Allowed c own) fun _ ops => ∀ op' ∈ ops, op'.Avoids c own where
  callbacks d about ops script op' member := by
    rcases fine with within | avoids
    · cases within.clock?.symm.trans about
      exact allowed_self.mpr (within.scripts ops script op' member)
    · have other : d ≠ c := fun same => avoids.clock? (same ▸ about)
      exact (allowed_of_ne other).mpr (avoids.scripts ops script op' member)
  idles name ops same := by
    subst same
    have avoids : (Op.idle name ops).Avoids c own := fine.resolve_left nofun
    exact avoids.scripts ops (List.mem_singleton_self ops)

end Op

namespace World

variable {w w' : World} {c d : Nat} {own : String → Prop} {op : Op} {k k' : Clock}

/-- Callbacks of clock `c` stay with it, under names of its own; the callbacks of other clocks
and the idles on the loop stay away from it. -/
structure Confined (c : Nat) (own : String → Prop) (w : World) : Prop where
  clocks : ∀ d k, w.clock? d = some k → k.Runs (Op.Allowed c own d)
  idles : ∀ i ∈ w.loop.live, ∀ name ops, i.task = .idle name ops → ∀ op ∈ ops, op.Avoids c own

theorem confined_iff :
    w.Confined c own ↔
      w.Scripted (Op.Allowed c own) fun _ ops => ∀ op ∈ ops, op.Avoids c own :=
  ⟨fun confined => ⟨confined.clocks, confined.idles⟩,
    fun scripted => ⟨scripted.clocks, scripted.idles⟩⟩

theorem Confined.executed (confined : w.Confined c own) (h : w.Coherent)
    (executed : Executed w op w') (fine : op.Within c own ∨ op.Avoids c own) :
    w'.Confined c own := by
  rw [confined_iff] at confined ⊢
  exact confined.executed h executed (Op.Allowed.leaves fine)

end World

/-- What the operations of a callback or an idle may do when clock `c` is confined. -/
def Origin.Allows (c : Nat) (own : String → Prop) : Origin → Op → Prop
  | .timer d _ _, op => op.Allowed c own d
  | _, op => op.Avoids c own

theorem Origin.Allows.fine {c : Nat} {own : String → Prop} {origin : Origin} {op : Op}
    (allows : origin.Allows c own op) : op.Within c own ∨ op.Avoids c own := by
  cases origin with
  | source | idle => exact .inr allows
  | timer d h now =>
    by_cases same : d = c
    · subst same
      exact .inl (Op.allowed_self.mp allows)
    · exact .inr ((Op.allowed_of_ne same).mp allows)

namespace Moment

variable {m m' : Moment} {c : Nat} {own : String → Prop} {k : Clock}

structure Confined (c : Nat) (own : String → Prop) (m : Moment) : Prop where
  world : m.world.Confined c own
  ops : ∀ origin ops, m.stage = .running origin ops → ∀ op ∈ ops, origin.Allows c own op

namespace Confined

/-- Outside its callbacks only a task of the clock itself concerns it. -/
theorem elsewhere (confined : m.Confined c own) (outside : m.Outside c)
    (task : m.stage = .draining → ∀ i rest, m.world.loop.batch = i :: rest → i.isOf c = false) :
    m.Elsewhere c where
  task := task
  callback h now := outside h now []
  op origin op ops stage := by
    have allowed := confined.ops origin (op :: ops) stage op List.mem_cons_self
    cases origin with
    | source | idle => exact allowed.clock?
    | timer d h now =>
      have other : d ≠ c := by
        rintro rfl
        exact outside h now _ stage
      exact ((Op.allowed_of_ne other).mp allowed).clock?

/-- Every step of a dispatch keeps a clock on fake time confined. -/
theorem progress (confined : m.Confined c own) (h : m.Coherent)
    (found : m.world.clock? c = some k) (fake : k.mode = .fake) (next : m.Progress m') :
    m'.Confined c own := by
  have scripted := World.confined_iff.mp confined.world
  have world := next.scripted h scripted fun origin op ops stage =>
    Op.Allowed.leaves (confined.ops origin (op :: ops) stage op List.mem_cons_self).fine
  refine ⟨World.confined_iff.mpr world, ?_⟩
  intro origin ops stage
  rcases next.running scripted stage with
    ⟨op, before⟩ | ⟨rfl, avoids⟩ | ⟨d, k', found', allowed, taken⟩
  · intro op' member
    exact confined.ops origin (op :: ops) before op' (List.mem_cons_of_mem op member)
  · exact avoids
  · rcases taken with ⟨sources, rfl, real⟩ | ⟨g, now, rfl⟩
    · have foreign : d ≠ c := by
        rintro rfl
        cases found.symm.trans found'
        cases fake.symm.trans real
      exact fun op member => (Op.allowed_of_ne foreign).mp (allowed op member)
    · exact allowed

end Confined

end Moment

end VirtualClock

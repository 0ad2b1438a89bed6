import VirtualClock.Proofs.Replay.Agenda
import VirtualClock.Proofs.TimerList.Armed
import VirtualClock.Proofs.World.Lone

/-!
A replay under way on fake time. What has fired and what is still armed always make up the agenda
together; a dispatch moves the first timer from one to the other, so settling takes a dispatch for
each timer that is due and one for the advance itself.
-/

namespace VirtualClock

namespace Replay

/-- A timer of the agenda as the clock has it. -/
def alarm (a : TimerSetting × Nat) : TimerHandle × Duration := (⟨a.2⟩, a.1.due)

/-- The firing of a timer of the agenda. -/
def firing (a : TimerSetting × Nat) : Firing := ⟨a.1.due, a.1.name⟩

/-- The name of a timer with its handle. -/
def label (a : TimerSetting × Nat) : String × TimerHandle := (a.1.name, ⟨a.2⟩)

/-- The timers have been added to a clock of their own; `past` has fired and `coming` is armed. -/
structure Plays (timers : List TimerSetting) (past coming : List (TimerSetting × Nat))
    (r : Registry) (f : FakeTime) (w : World) : Prop where
  lone : w.Lone r f
  registered : r.entries.map (fun e => (e.callback.name, e.handle)) = timers.zipIdx.map label
  names : w.names.reverse = timers.zipIdx.map label
  placed : ∀ a ∈ coming, timers[a.2]? = some a.1
  armed : f.timers.armed = coming.map alarm
  firings : firings w = past.map firing

variable {timers : List TimerSetting} {past coming due later : List (TimerSetting × Nat)}
  {r : Registry} {f : FakeTime} {w : World} {a : TimerSetting × Nat} {target : Duration}
  {step : UInt64}

theorem firings_of_log {entry : LogEntry} {fired : Firing} {w' : World}
    (log : w'.log = entry :: w.log) (fires : firing? entry = some fired) :
    firings w' = firings w ++ [fired] := by
  simp [Replay.firings, log, fires]

theorem firing?_due (t : TimerSetting) :
    firing? (.fire t.name (.fake t.due.toTimespec)) = some ⟨t.due, t.name⟩ := by
  have near : t.due.seconds.toNat < 9223372036854775808 := by
    have := t.millis_lt
    rw [Duration.toNat_seconds, t.nanos_due]
    unfold nanosPerMilli nanosPerSecond
    omega
  simp [firing?, Reading.now?, Timespec.toDuration_toTimespec near]

namespace Plays

theorem name_eq (plays : Plays timers past coming r f w) {e : Registration}
    (entry : r.find? ⟨a.2⟩ = some e) (placed : timers[a.2]? = some a.1) :
    e.callback.name = a.1.name := by
  have member : (e.callback.name, e.handle) ∈ timers.zipIdx.map label :=
    plays.registered ▸ List.mem_map_of_mem (List.mem_of_find?_eq_some entry)
  have handle : e.handle = ⟨a.2⟩ := by simpa using List.find?_some entry
  obtain ⟨b, given, same⟩ := List.mem_map.mp member
  rw [List.mem_zipIdx_iff_getElem?] at given
  obtain ⟨name, position⟩ := Prod.mk.inj same
  rw [handle, TimerHandle.mk.injEq] at position
  rw [position, placed] at given
  rw [← name, ← Option.some.inj given]

theorem fires (plays : Plays timers past (a :: coming) r f w)
    (pending : f.final.map (·.target) = some target) (due : a.1.due ≤ target) :
    ∃ r' f', Plays timers (past ++ [a]) coming r' f' w.dispatch ∧
      f'.final.map (·.target) = some target := by
  obtain ⟨x, final, rfl⟩ := Option.map_eq_some_iff.mp pending
  have armed := plays.armed
  cases plays.lone.dispatch final with
  | @fires g d e f' first d_le entry lone now target alarms names log =>
    obtain ⟨coherent, _⟩ := plays.lone.fake
    rw [first.armed_eq coherent.sorted coherent.distinct, List.map_cons, List.cons.injEq] at armed
    obtain ⟨⟨rfl, rfl⟩, rest⟩ : (g = ⟨a.2⟩ ∧ d = a.1.due) ∧ _ := ⟨Prod.mk.inj armed.1, armed.2⟩
    have name := plays.name_eq entry (plays.placed a List.mem_cons_self)
    refine ⟨_, f', ⟨lone, ?_, ?_, ?_, ?_, ?_⟩, target⟩
    · rw [← plays.registered, Registry.markFired, Registry.modify, List.map_map]
      apply List.map_congr_left
      intro e' _
      simp only [Function.comp_apply]
      split <;> rfl
    · rw [names, plays.names]
    · exact fun b member => plays.placed b (List.mem_cons_of_mem a member)
    · rw [TimerList.armed, alarms, ← TimerList.armed, rest]
    · rw [name] at log
      rw [firings_of_log log (firing?_due a.1), plays.firings, List.map_append]
      rfl
  | arrives later =>
    have member : (⟨a.2⟩, a.1.due) ∈ f.timers.armed := armed ▸ List.mem_cons_self
    exact absurd due (Nat.not_le_of_lt (later _ _ (TimerList.mem_armed.mp member)))

theorem arrives (plays : Plays timers past coming r f w)
    (pending : f.final.map (·.target) = some target) (later : ∀ a ∈ coming, target < a.1.due) :
    Plays timers past coming r (f.arrived target) w.dispatch := by
  obtain ⟨x, final, rfl⟩ := Option.map_eq_some_iff.mp pending
  cases plays.lone.dispatch final with
  | @fires g d e f' first d_le =>
    have member : (g, d) ∈ f.timers.armed := TimerList.mem_armed.mpr first.mem
    rw [plays.armed] at member
    obtain ⟨a, coming, same⟩ := List.mem_map.mp member
    cases same
    exact absurd d_le (Nat.not_le_of_lt (later a coming))
  | arrives _ lone names log =>
    refine ⟨lone, plays.registered, names ▸ plays.names, plays.placed, plays.armed, ?_⟩
    rw [Replay.firings, log]
    exact plays.firings

end Plays

section settle

theorem dispatchTimes_dispatch (w : World) (n : Nat) :
    w.dispatch.dispatchTimes n = w.dispatchTimes (n + 1) := by
  induction n with
  | zero => rfl
  | succ n ih => exact congrArg World.dispatch ih

/-- Settling looks before each dispatch and never after the last one that it may make. -/
theorem settle_eq {n max : Nat} (le : n ≤ max)
    (pending : ∀ i < n, (w.dispatchTimes i).anyPending = true)
    (settled : n < max → (w.dispatchTimes n).anyPending = false) :
    w.settle max = (n, w.dispatchTimes n) := by
  induction max generalizing n w with
  | zero =>
    cases Nat.le_zero.mp le
    rfl
  | succ max ih =>
    cases n with
    | zero =>
      have settled : w.anyPending = false := settled (Nat.succ_pos max)
      simp [World.settle, settled, World.dispatchTimes, Nat.repeat]
    | succ n =>
      have first : w.anyPending = true := pending 0 (Nat.succ_pos n)
      have rest := ih (w := w.dispatch) (Nat.le_of_succ_le_succ le)
        (fun i lt => dispatchTimes_dispatch w i ▸ pending (i + 1) (Nat.succ_lt_succ lt))
        (fun lt => dispatchTimes_dispatch w n ▸ settled (Nat.succ_lt_succ lt))
      simp [World.settle, first, rest, dispatchTimes_dispatch]

namespace Plays

theorem anyPending (plays : Plays timers past coming r f w)
    (pending : f.final.map (·.target) = some target) : w.anyPending = true := by
  obtain ⟨x, final, _⟩ := Option.map_eq_some_iff.mp pending
  rw [plays.lone.anyPending, final]
  rfl

theorem firesAll (plays : Plays timers past (due ++ later) r f w)
    (pending : f.final.map (·.target) = some target) (reached : ∀ a ∈ due, a.1.due ≤ target) :
    ∃ r' f', Plays timers (past ++ due) later r' f' (w.dispatchTimes due.length) ∧
      f'.final.map (·.target) = some target := by
  induction due generalizing past r f w with
  | nil => exact ⟨r, f, (List.append_nil past).symm ▸ plays, pending⟩
  | cons a due ih =>
    obtain ⟨r', f', fired, pending'⟩ := plays.fires pending (reached a List.mem_cons_self)
    obtain ⟨r'', f'', plays', pending''⟩ :=
      ih fired pending' fun b member => reached b (List.mem_cons_of_mem a member)
    rw [dispatchTimes_dispatch, List.append_assoc] at plays'
    exact ⟨r'', f'', plays', pending''⟩

variable (plays : Plays timers past (due ++ later) r f w)
  (pending : f.final.map (·.target) = some target) (reached : ∀ a ∈ due, a.1.due ≤ target)

include plays pending reached

theorem pending_dispatchTimes {n : Nat} (le : n ≤ due.length) :
    (w.dispatchTimes n).anyPending = true := by
  rw [← List.take_append_drop n due, List.append_assoc] at plays
  obtain ⟨r', f', plays', pending'⟩ :=
    plays.firesAll pending fun a member => reached a (List.mem_of_mem_take member)
  rw [List.length_take, Nat.min_eq_left le] at plays'
  exact plays'.anyPending pending'

theorem settlesOn (ahead : ∀ a ∈ later, target < a.1.due) :
    ∃ r' f', Plays timers (past ++ due) later r' f' (w.dispatchTimes (due.length + 1)) ∧
      f'.final = none ∧ f'.now = target := by
  obtain ⟨r', f', plays', pending'⟩ := plays.firesAll pending reached
  exact ⟨r', f'.arrived target, plays'.arrives pending' ahead, rfl, rfl⟩

theorem dispatchTimes_of_settled (ahead : ∀ a ∈ later, target < a.1.due) {n : Nat}
    (lt : due.length < n) : w.dispatchTimes n = w.dispatchTimes (due.length + 1) := by
  obtain ⟨r', f', plays', settled, _⟩ := plays.settlesOn pending reached ahead
  induction lt with
  | refl => rfl
  | step _ ih => exact (congrArg World.dispatch ih).trans (plays'.lone.dispatch_of_settled settled)

/-- The clock is pending up to the last timer due. -/
theorem pending_dispatchTimes_iff (ahead : ∀ a ∈ later, target < a.1.due) {n : Nat} :
    (w.dispatchTimes n).anyPending = true ↔ n ≤ due.length := by
  refine ⟨fun awake => Nat.le_of_not_lt fun lt => ?_, plays.pending_dispatchTimes pending reached⟩
  obtain ⟨r', f', plays', settled, _⟩ := plays.settlesOn pending reached ahead
  rw [plays.dispatchTimes_of_settled pending reached ahead lt, plays'.lone.anyPending,
    settled] at awake
  cases awake

theorem settles (ahead : ∀ a ∈ later, target < a.1.due) {max : Nat} (enough : due.length < max) :
    w.settle max = (due.length + 1, w.dispatchTimes (due.length + 1)) := by
  refine settle_eq enough (fun i lt => ?_) fun _ => ?_
  · exact plays.pending_dispatchTimes pending reached (Nat.le_of_lt_succ lt)
  · rw [← Bool.not_eq_true, plays.pending_dispatchTimes_iff pending reached ahead]
    exact Nat.not_succ_le_self _

theorem exhausts {max : Nat} (many : max ≤ due.length) :
    w.settle max = (max, w.dispatchTimes max) := by
  refine settle_eq (Nat.le_refl max) (fun i lt => ?_) fun lt => absurd lt (Nat.lt_irrefl max)
  exact plays.pending_dispatchTimes pending reached (Nat.le_of_lt (Nat.lt_of_lt_of_le lt many))

end Plays

end settle

section advance

theorem advance_of_done {w' : World} (called : w.exec (.advance 0 (.ofMillis step)) = (.done, w')) :
    advance w step =
      if (w'.settle settleLimit).1 < settleLimit then .ok (w'.settle settleLimit).2
      else .error .unsettled := by
  rw [advance, called]
  rfl

theorem Plays.advances (plays : Plays timers past coming r f w)
    (sum : f.now.add? (.ofMillis step) = some target) :
    ∃ w' f', w.exec (.advance 0 (.ofMillis step)) = (.done, w') ∧
      Plays timers past coming r f' w' ∧ f'.final.map (·.target) = some target := by
  obtain ⟨w', f', called, lone, _, pending, alarms, names, log⟩ := plays.lone.advance sum
  refine ⟨w', f', called, ⟨lone, plays.registered, names ▸ plays.names, plays.placed, ?_, ?_⟩,
    pending⟩
  · rw [TimerList.armed, alarms]
    exact plays.armed
  · rw [Replay.firings, log]
    exact plays.firings

theorem Plays.advance_eq {w' : World} (plays : Plays timers past (due ++ later) r f w')
    (pending : f.final.map (·.target) = some target) (reached : ∀ a ∈ due, a.1.due ≤ target)
    (ahead : ∀ a ∈ later, target < a.1.due)
    (called : w.exec (.advance 0 (.ofMillis step)) = (.done, w')) :
    Replay.advance w step =
      if due.length + 1 < settleLimit then .ok (w'.dispatchTimes (due.length + 1))
      else .error .unsettled := by
  rw [advance_of_done called]
  rcases Nat.lt_or_ge due.length settleLimit with enough | many
  · rw [plays.settles pending reached ahead enough]
  · rw [plays.exhausts pending reached many, if_neg (Nat.lt_irrefl _),
      if_neg (Nat.not_lt_of_le (Nat.le_succ_of_le many))]

theorem Plays.advance (plays : Plays timers past (due ++ later) r f w)
    (sum : f.now.add? (.ofMillis step) = some target) (reached : ∀ a ∈ due, a.1.due ≤ target)
    (ahead : ∀ a ∈ later, target < a.1.due) (few : due.length + 1 < settleLimit) :
    ∃ w' r' f', Replay.advance w step = .ok w' ∧ Plays timers (past ++ due) later r' f' w' ∧
      f'.now = target := by
  obtain ⟨w', f', called, plays', pending⟩ := plays.advances sum
  obtain ⟨r'', f'', plays'', _, now⟩ := plays'.settlesOn pending reached ahead
  refine ⟨_, r'', f'', ?_, plays'', now⟩
  rw [plays'.advance_eq pending reached ahead called, if_pos few]

theorem Plays.advance_unsettled (plays : Plays timers past (due ++ later) r f w)
    (sum : f.now.add? (.ofMillis step) = some target) (reached : ∀ a ∈ due, a.1.due ≤ target)
    (ahead : ∀ a ∈ later, target < a.1.due) (many : settleLimit ≤ due.length + 1) :
    Replay.advance w step = .error .unsettled := by
  obtain ⟨w', f', called, plays', pending⟩ := plays.advances sum
  rw [plays'.advance_eq pending reached ahead called, if_neg (Nat.not_lt_of_le many)]

theorem Plays.advance_overflow (plays : Plays timers past coming r f w)
    (overflow : f.now.add? (.ofMillis step) = none) :
    Replay.advance w step = .error (.failed (.refused .timeOverflow)) := by
  have failed := plays.lone.advance_overflow overflow
  cases called : w.exec (.advance 0 (.ofMillis step)) with
  | mk answer w' =>
    rw [called] at failed
    cases failed
    rw [Replay.advance, called]
    rfl

end advance

end Replay

end VirtualClock

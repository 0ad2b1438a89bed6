import VirtualClock.Proofs.History.FiringOrder
import VirtualClock.Proofs.History.Passage

/-!
What a clock on fake time reads in the course of a run. Fake time itself never goes back, and
neither do readings as long as its seconds stay below the largest that a timestamp holds. From
there on the seconds of a timestamp stand still while its nanoseconds go round, and a later reading
can come before an earlier one.
-/

namespace VirtualClock

/-- In the order of seconds, then nanoseconds. -/
def Timespec.NotAfter (s t : Timespec) : Prop :=
  s.seconds < t.seconds ∨ s.seconds = t.seconds ∧ s.nanos ≤ t.nanos

instance (s t : Timespec) : Decidable (s.NotAfter t) :=
  inferInstanceAs (Decidable (s.seconds < t.seconds ∨ s.seconds = t.seconds ∧ s.nanos ≤ t.nanos))

namespace Duration

theorem toInt_seconds_toTimespec (d : Duration) :
    d.toTimespec.seconds.toInt = min d.seconds.toNat 9223372036854775807 := by
  unfold toTimespec
  split
  · next near =>
    rw [Int64.toInt_ofNat_of_lt (by simpa using near)]
    omega
  · next far =>
    rw [Int64.toInt_maxValue]
    omega

theorem toInt_nanos_toTimespec (d : Duration) : d.toTimespec.nanos.toInt = d.subsecond.val := by
  have : d.subsecond.val < 1000000000 := d.subsecond.isLt
  exact Int64.toInt_ofNat_of_lt (by omega)

theorem le_iff_parts {a b : Duration} :
    a ≤ b ↔ a.seconds.toNat < b.seconds.toNat ∨
      a.seconds.toNat = b.seconds.toNat ∧ a.subsecond.val ≤ b.subsecond.val := by
  rw [le_def, toNat_seconds, toNat_seconds, val_subsecond, val_subsecond]
  unfold nanosPerSecond
  omega

/-- Timestamps of durations keep their order, except where the seconds of both come to the largest
there are and only the fractions of a second are left to compare. -/
theorem toTimespec_notAfter_iff {a b : Duration} (le : a ≤ b) :
    a.toTimespec.NotAfter b.toTimespec ↔
      a.seconds.toNat < 9223372036854775807 ∨ a.subsecond ≤ b.subsecond := by
  rw [le_iff_parts] at le
  rw [Timespec.NotAfter, Int64.lt_iff_toInt_lt, Int64.le_iff_toInt_le, ← Int64.toInt_inj,
    toInt_seconds_toTimespec, toInt_seconds_toTimespec, toInt_nanos_toTimespec,
    toInt_nanos_toTimespec, Fin.le_def]
  omega

end Duration

theorem World.fakeTime?_of_gettime {w : World} {c : Nat} {id : ClockId} {t : Timespec}
    (read : (w.exec (.gettime c id)).1 = .time t) :
    ∃ f, w.fakeTime? c = some f ∧ t = f.now.toTimespec := by
  cases found : w.clock? c with
  | none => simp [exec, ask, found] at read
  | some k =>
    have answer : answerTime w.loop id k = .time t := by simpa [exec, ask, found] using read
    cases source : k.source with
    | real => simp [answerTime, Clock.gettime, Clock.mode, source] at answer
    | fake f =>
      refine ⟨f, fakeTime?_eq_some_iff.mpr ⟨k, found, source⟩, ?_⟩
      cases emulated : id.isEmulated with
      | false => simp [answerTime, Clock.gettime, source, emulated] at answer
      | true =>
        simpa [answerTime, Clock.gettime, Clock.mode, source, emulated, eq_comm] using answer

namespace Moment

variable {m m' : Moment} {c : Nat} {id id' : ClockId} {t t' : Timespec}

/-- Two readings of a clock on fake time, whatever clocks of the host they stand for and whatever
happens in between, are timestamps of durations that do not decrease. The timestamps themselves do
not just if the seconds of the first are below the largest there are, or if its fraction of a
second is no more than that of the second. -/
theorem readings_in_order_iff (run : Reachable m) (onward : Relation.ReflTransGen Step m m')
    (first : (m.world.exec (.gettime c id)).1 = .time t)
    (second : (m'.world.exec (.gettime c id')).1 = .time t') :
    ∃ d d' : Duration, m.world.fakeNow? c = some d ∧ m'.world.fakeNow? c = some d' ∧
      t = d.toTimespec ∧ t' = d'.toTimespec ∧ d ≤ d' ∧
      (t.NotAfter t' ↔ d.seconds.toNat < 9223372036854775807 ∨ d.subsecond ≤ d'.subsecond) := by
  obtain ⟨f, found, rfl⟩ := World.fakeTime?_of_gettime first
  obtain ⟨f', found', rfl⟩ := World.fakeTime?_of_gettime second
  have le : f.now ≤ f'.now := now_le_of_steps run.coherent found onward found'
  exact ⟨f.now, f'.now, by simp [World.fakeNow?, found], by simp [World.fakeNow?, found'], rfl, rfl,
    le, Duration.toTimespec_notAfter_iff le⟩

/-- From 3 ms to 5 ms. -/
theorem readings_in_order_iff_near :
    ∃ m m' t t', Reachable m ∧ Relation.ReflTransGen Step m m' ∧
      (m.world.exec (.gettime 0 .realtime)).1 = .time t ∧
      (m'.world.exec (.gettime 0 .boottime)).1 = .time t' ∧ t.NotAfter t' := by
  obtain ⟨m, m', t, t', run, onward, first, second, now⟩ :
      ∃ m m' t t', Reachable m ∧ Relation.ReflTransGen Step m m' ∧
        (m.world.exec (.gettime 0 .realtime)).1 = .time t ∧
        (m'.world.exec (.gettime 0 .boottime)).1 = .time t' ∧
        m.world.fakeNow? 0 = some (.ofMillis 3) :=
    ⟨_, _, _, _, reachable_ofCalls [.new .fake false, .advance 0 (.ofMillis 3)],
      .single (.call (.advance 0 (.ofMillis 2)) (stage_ofCalls _)), rfl, rfl, rfl⟩
  obtain ⟨d, d', now', _, _, _, _, ordered⟩ := readings_in_order_iff run onward first second
  cases now.symm.trans now'
  exact ⟨m, m', t, t', run, onward, first, second, ordered.mpr (.inl (by decide))⟩

/-- One nanosecond after the last one of the largest second that timestamps can tell. -/
theorem readings_go_back :
    ∃ m m' t t', Reachable m ∧ Relation.ReflTransGen Step m m' ∧
      (m.world.exec (.gettime 0 .monotonic)).1 = .time t ∧
      (m'.world.exec (.gettime 0 .monotonic)).1 = .time t' ∧ ¬t.NotAfter t' := by
  obtain ⟨m, m', f, f', run, onward, found, found', now, now'⟩ :
      ∃ m m' f f', Reachable m ∧ Relation.ReflTransGen Step m m' ∧
        m.world.fakeTime? 0 = some f ∧ m'.world.fakeTime? 0 = some f' ∧
        f.now.nanos = 9223372036854775807999999999 ∧
        f'.now.nanos = 9223372036854775808000000000 :=
    ⟨_, _, _, _, reachable_ofCalls [.new .fake false,
        .advance 0 ⟨9223372036854775807999999999, by decide⟩],
      .single (.call (.advance 0 ⟨1, by decide⟩) (stage_ofCalls _)), rfl, rfl, rfl, rfl⟩
  refine ⟨m, m', _, _, run, onward, gettime_of_fakeTime? found rfl,
    gettime_of_fakeTime? found' rfl, ?_⟩
  have le : f.now ≤ f'.now := by
    rw [Duration.le_def, now, now']
    decide
  rw [Duration.toTimespec_notAfter_iff le, Duration.toNat_seconds, Fin.le_def,
    Duration.val_subsecond, Duration.val_subsecond, now, now']
  decide

end Moment

end VirtualClock

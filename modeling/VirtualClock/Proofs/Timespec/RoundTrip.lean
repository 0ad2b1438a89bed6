import VirtualClock.Proofs.History.Readings

/-!
Durations and timestamps as each other's inverses. A duration comes back from its timestamp just if
its seconds are in the signed range, and a timestamp from its duration just if it is in normal form
and not negative. Every timestamp has a duration: its clamped fields make one as they are, without a
carry.
-/

namespace VirtualClock

/-- Seconds, and any number of nanoseconds that fits in 32 bits: full seconds among them carry over,
and there is no such duration if the seconds are too many then. -/
def Duration.ofWords? (seconds : UInt64) (nanos : UInt32) : Option Duration :=
  ofNanos? (seconds.toNat * nanosPerSecond + nanos.toNat)

namespace Timespec

/-- Nanoseconds count up from the second that is told, whatever its sign. -/
structure Normal (t : Timespec) : Prop where
  low : 0 ≤ t.nanos.toInt
  high : t.nanos.toInt < 1000000000

theorem ext_toInt {s t : Timespec} (seconds : s.seconds.toInt = t.seconds.toInt)
    (nanos : s.nanos.toInt = t.nanos.toInt) : s = t := by
  cases s
  cases t
  cases Int64.toInt_inj.mp seconds
  cases Int64.toInt_inj.mp nanos
  rfl

theorem toNat_seconds_toDuration (t : Timespec) :
    t.toDuration.seconds.toNat = t.seconds.toInt.toNat := by
  have bound := t.seconds.toInt_lt
  have fits : t.seconds.toInt.toNat < UInt64.size := by
    change _ < 18446744073709551616
    omega
  rw [toDuration, Duration.seconds_ofParts]
  exact UInt64.toNat_ofNat_of_lt' fits

theorem val_subsecond_toDuration (t : Timespec) :
    t.toDuration.subsecond.val = min t.nanos.toInt.toNat 999999999 := by
  rw [toDuration, Duration.subsecond_ofParts]
  rfl

theorem exists_words (t : Timespec) :
    ∃ (seconds : UInt64) (nanos : UInt32),
      (seconds.toNat : Int) = max 0 t.seconds.toInt ∧
      (nanos.toNat : Int) = max 0 (min t.nanos.toInt 999999999) ∧
      Duration.ofWords? seconds nanos = some t.toDuration ∧
      t.toDuration.seconds = seconds ∧ t.toDuration.subsecond.val = nanos.toNat := by
  have seconds := t.toNat_seconds_toDuration
  have nanos := t.val_subsecond_toDuration
  have word : (UInt32.ofNat t.toDuration.subsecond.val).toNat = t.toDuration.subsecond.val :=
    UInt32.toNat_ofNat_of_lt' (Nat.lt_trans t.toDuration.subsecond.isLt (by decide))
  refine ⟨t.toDuration.seconds, .ofNat t.toDuration.subsecond.val, by omega, by omega, ?_, rfl,
    word.symm⟩
  rw [Duration.ofWords?, word, ← Duration.nanos_ofParts, Duration.ofParts_seconds_subsecond,
    Duration.ofNanos?_nanos]

theorem toDuration_toTimespec_iff {d : Duration} :
    d.toTimespec.toDuration = d ↔ d.seconds.toNat ≤ 9223372036854775807 := by
  constructor
  · intro same
    have seconds := d.toTimespec.toNat_seconds_toDuration
    rw [same, d.toInt_seconds_toTimespec] at seconds
    omega
  · intro near
    exact toDuration_toTimespec (Nat.lt_succ_of_le near)

theorem toTimespec_toDuration_iff {t : Timespec} :
    t.toDuration.toTimespec = t ↔ 0 ≤ t.seconds.toInt ∧ t.Normal := by
  have bound := t.seconds.toInt_lt
  have seconds := t.toDuration.toInt_seconds_toTimespec
  have nanos := t.toDuration.toInt_nanos_toTimespec
  rw [t.toNat_seconds_toDuration] at seconds
  rw [t.val_subsecond_toDuration] at nanos
  constructor
  · intro same
    rw [same] at seconds nanos
    exact ⟨by omega, by omega, by omega⟩
  · rintro ⟨natural, low, high⟩
    apply ext_toInt
    · omega
    · omega

/-- The two conversions are inverses of each other on durations with seconds in the signed range and
on timestamps in normal form that are not negative, and nowhere else. Whatever its fields, a timestamp
has a duration. So a clock on fake time gives a timestamp that converts back to the time it stands
at, just if the seconds of that time are in the signed range. -/
theorem conversions_invert :
    (∀ d : Duration, d.toTimespec.toDuration = d ↔ d.seconds.toNat ≤ 9223372036854775807) ∧
    (∀ t : Timespec, t.toDuration.toTimespec = t ↔ 0 ≤ t.seconds.toInt ∧ t.Normal) ∧
    (∀ t : Timespec, ∃ (seconds : UInt64) (nanos : UInt32),
      (seconds.toNat : Int) = max 0 t.seconds.toInt ∧
      (nanos.toNat : Int) = max 0 (min t.nanos.toInt 999999999) ∧
      Duration.ofWords? seconds nanos = some t.toDuration ∧
      t.toDuration.seconds = seconds ∧ t.toDuration.subsecond.val = nanos.toNat) ∧
    ∀ (k : Clock) (f : FakeTime) (id : ClockId) (l : EventLoop),
      k.source = .fake f → id.isEmulated = true →
        ∃ t, k.gettime id l = .ok t ∧
          (t.toDuration = f.now ↔ f.now.seconds.toNat ≤ 9223372036854775807) := by
  refine ⟨fun _ => toDuration_toTimespec_iff, fun _ => toTimespec_toDuration_iff, exists_words, ?_⟩
  intro k f id l fake emulated
  refine ⟨f.now.toTimespec, ?_, toDuration_toTimespec_iff⟩
  rw [Clock.gettime, fake]
  exact if_pos emulated

/-- The last nanosecond that comes back. -/
theorem conversions_invert_last :
    ∃ (k : Clock) (f : FakeTime) (t : Timespec), k.source = .fake f ∧
      f.now.nanos = 9223372036854775807999999999 ∧ k.gettime .boottime {} = .ok t ∧
      t.toDuration = f.now := by
  let f : FakeTime := { now := ⟨9223372036854775807999999999, by decide⟩ }
  let k : Clock := ⟨none, .fake f⟩
  obtain ⟨t, read, exact_iff⟩ := conversions_invert.2.2.2 k f .boottime {} rfl rfl
  exact ⟨k, f, t, rfl, rfl, read, exact_iff.mpr (by decide)⟩

end Timespec

end VirtualClock

import VirtualClock.Proofs.Timespec.RoundTrip

/-!
What the duration of a timestamp in normal form says about the instant that the timestamp denotes.
The seconds and the nanoseconds are clamped one by one, so an instant before zero is not taken to
zero unless it falls on a full second, and the order of instants is lost among those of them that
come before the first second.
-/

namespace VirtualClock.Timespec

variable {s t : Timespec}

/-- What the timestamp denotes, in nanoseconds. -/
def instant (t : Timespec) : Int := t.seconds.toInt * 1000000000 + t.nanos.toInt

theorem nanos_toDuration (normal : t.Normal) :
    (t.toDuration.nanos : Int) = max 0 t.seconds.toInt * 1000000000 + t.nanos.toInt := by
  obtain ⟨low, high⟩ := normal
  have parts : t.toDuration.seconds.toNat * 1000000000 + t.toDuration.subsecond.val =
      t.toDuration.nanos := by
    rw [Duration.toNat_seconds, Duration.val_subsecond]
    exact Nat.div_add_mod' _ _
  rw [toNat_seconds_toDuration, val_subsecond_toDuration] at parts
  omega

/-- An instant that is not before zero is the duration. An instant before zero becomes zero just if
it falls on a full second. Of two instants in order the durations are in order just if the earlier
instant is not before zero, the later one is not before the first second, or the nanoseconds of their
timestamps are in order. -/
theorem clamped_by_fields (first : s.Normal) (second : t.Normal) :
    (0 ≤ s.instant → (s.toDuration.nanos : Int) = s.instant) ∧
    (s.instant < 0 → (s.toDuration = .zero ↔ s.nanos.toInt = 0)) ∧
    (s.instant ≤ t.instant →
      (s.toDuration ≤ t.toDuration ↔
        0 ≤ s.instant ∨ 1000000000 ≤ t.instant ∨ s.nanos.toInt ≤ t.nanos.toInt)) := by
  have nanos := nanos_toDuration first
  have nanos' := nanos_toDuration second
  obtain ⟨low, high⟩ := first
  obtain ⟨low', high'⟩ := second
  unfold instant
  refine ⟨?_, ?_, ?_⟩
  · intro natural
    omega
  · intro negative
    rw [Duration.ext_iff, Duration.nanos_zero]
    omega
  · intro order
    rw [Duration.le_def]
    omega

/-- A full second before zero, and a quarter past another. -/
theorem clamped_by_fields_quarter :
    (⟨-3, 0⟩ : Timespec).toDuration = .zero ∧
      (⟨-3, 0⟩ : Timespec).toDuration ≤ (⟨-1, 250000000⟩ : Timespec).toDuration := by
  obtain ⟨-, zero_iff, order_iff⟩ :=
    clamped_by_fields (s := ⟨-3, 0⟩) (t := ⟨-1, 250000000⟩) ⟨by decide, by decide⟩
      ⟨by decide, by decide⟩
  exact ⟨(zero_iff (by decide)).mpr (by decide),
    (order_iff (by decide)).mpr (.inr (.inr (by decide)))⟩

/-- Half a second before zero is taken for half a second, which is more than zero. -/
theorem negative_not_clamped :
    ∃ s t : Timespec, s.Normal ∧ t.Normal ∧ s.instant < 0 ∧ s.toDuration ≠ .zero ∧
      s.instant ≤ t.instant ∧ ¬s.toDuration ≤ t.toDuration := by
  refine ⟨⟨-1, 500000000⟩, ⟨0, 0⟩, ⟨by decide, by decide⟩, ⟨by decide, by decide⟩, by decide,
    by decide, by decide, by decide⟩

end VirtualClock.Timespec

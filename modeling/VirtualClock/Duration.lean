/-!
Lengths of time, and fake time itself: a whole number of nanoseconds whose seconds fit in
64 bits. Addition is checked; there is no other way to make a longer duration out of two.
-/

namespace VirtualClock

abbrev nanosPerSecond : Nat := 1000000000

abbrev nanosPerMilli : Nat := 1000000

/-- First number of nanoseconds that is no duration. -/
abbrev Duration.limit : Nat := UInt64.size * nanosPerSecond

structure Duration where
  nanos : Nat
  isLt : nanos < Duration.limit
  deriving DecidableEq

namespace Duration

theorem limit_eq : limit = 18446744073709551616000000000 := rfl

@[ext] theorem ext {a b : Duration} (h : a.nanos = b.nanos) : a = b := by
  cases a; cases b; cases h; rfl

instance : LE Duration := ⟨fun a b => a.nanos ≤ b.nanos⟩

instance : LT Duration := ⟨fun a b => a.nanos < b.nanos⟩

instance (a b : Duration) : Decidable (a ≤ b) := inferInstanceAs (Decidable (a.nanos ≤ b.nanos))

instance (a b : Duration) : Decidable (a < b) := inferInstanceAs (Decidable (a.nanos < b.nanos))

theorem le_def {a b : Duration} : a ≤ b ↔ a.nanos ≤ b.nanos := Iff.rfl

theorem lt_def {a b : Duration} : a < b ↔ a.nanos < b.nanos := Iff.rfl

def zero : Duration := ⟨0, by decide⟩

instance : Inhabited Duration := ⟨zero⟩

@[simp] theorem nanos_zero : zero.nanos = 0 := rfl

def ofNanos? (n : Nat) : Option Duration :=
  if h : n < limit then some ⟨n, h⟩ else none

@[simp] theorem ofNanos?_nanos (d : Duration) : ofNanos? d.nanos = some d := by
  simp [ofNanos?, d.isLt]

theorem ofNanos?_eq_some_iff {n : Nat} {d : Duration} : ofNanos? n = some d ↔ d.nanos = n := by
  constructor
  · intro h
    unfold ofNanos? at h
    split at h
    · cases h; rfl
    · cases h
  · rintro rfl
    exact ofNanos?_nanos d

theorem ofNanos?_eq_none_iff {n : Nat} : ofNanos? n = none ↔ limit ≤ n := by
  unfold ofNanos?
  split <;> simp <;> omega

def ofMillis (ms : UInt64) : Duration :=
  ⟨ms.toNat * nanosPerMilli, by
    have := ms.toNat_lt
    rw [limit_eq]
    unfold nanosPerMilli
    omega⟩

@[simp] theorem nanos_ofMillis (ms : UInt64) : (ofMillis ms).nanos = ms.toNat * nanosPerMilli := rfl

def ofParts (seconds : UInt64) (subsecond : Fin nanosPerSecond) : Duration :=
  ⟨seconds.toNat * nanosPerSecond + subsecond, by
    have := seconds.toNat_lt
    have := subsecond.isLt
    rw [limit_eq]
    unfold nanosPerSecond at *
    omega⟩

@[simp] theorem nanos_ofParts (s : UInt64) (n : Fin nanosPerSecond) :
    (ofParts s n).nanos = s.toNat * nanosPerSecond + n := rfl

/-- Whole seconds. -/
def seconds (d : Duration) : UInt64 :=
  UInt64.ofNatLT (d.nanos / nanosPerSecond) (by
    have := d.isLt
    rw [limit_eq] at this
    unfold nanosPerSecond
    change _ < 18446744073709551616
    omega)

/-- Nanoseconds past the last whole second. -/
def subsecond (d : Duration) : Fin nanosPerSecond :=
  ⟨d.nanos % nanosPerSecond, Nat.mod_lt _ (by decide)⟩

@[simp] theorem toNat_seconds (d : Duration) : d.seconds.toNat = d.nanos / nanosPerSecond := by
  simp [seconds]

@[simp] theorem val_subsecond (d : Duration) : d.subsecond.val = d.nanos % nanosPerSecond := rfl

@[simp] theorem ofParts_seconds_subsecond (d : Duration) : ofParts d.seconds d.subsecond = d := by
  ext
  simp only [nanos_ofParts, toNat_seconds, val_subsecond]
  exact Nat.div_add_mod' _ _

@[simp] theorem seconds_ofParts (s : UInt64) (n : Fin nanosPerSecond) :
    (ofParts s n).seconds = s := by
  apply UInt64.toNat_inj.1
  have := n.isLt
  simp only [toNat_seconds, nanos_ofParts]
  unfold nanosPerSecond at *
  omega

@[simp] theorem subsecond_ofParts (s : UInt64) (n : Fin nanosPerSecond) :
    (ofParts s n).subsecond = n := by
  ext
  have := n.isLt
  simp only [val_subsecond, nanos_ofParts]
  unfold nanosPerSecond at *
  omega

/-- The sum, unless its seconds no longer fit in 64 bits. -/
def add? (a b : Duration) : Option Duration := ofNanos? (a.nanos + b.nanos)

theorem add?_eq_some_iff {a b c : Duration} : a.add? b = some c ↔ c.nanos = a.nanos + b.nanos :=
  ofNanos?_eq_some_iff

theorem add?_eq_none_iff {a b : Duration} : a.add? b = none ↔ limit ≤ a.nanos + b.nanos :=
  ofNanos?_eq_none_iff

theorem le_of_add? {a b c : Duration} (sum : a.add? b = some c) : a ≤ c := by
  rw [le_def, add?_eq_some_iff.mp sum]
  exact Nat.le_add_right _ _

/-- What a sum leads to is reached by way of its first part. -/
theorem exists_add?_of_add? {a b ab start far : Duration} (sum : a.add? b = some ab)
    (ahead : start.add? ab = some far) :
    ∃ near, start.add? a = some near ∧ near.add? b = some far := by
  rw [add?_eq_some_iff] at sum ahead
  have inside := far.isLt
  refine ⟨⟨start.nanos + a.nanos, by omega⟩, add?_eq_some_iff.mpr rfl, add?_eq_some_iff.mpr ?_⟩
  rw [ahead, sum]
  exact (Nat.add_assoc ..).symm

end Duration

end VirtualClock

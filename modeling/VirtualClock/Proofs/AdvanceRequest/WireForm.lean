import VirtualClock.Clock

/-!
The wire form of an advance is exact. Durations and requests with less than a second of nanoseconds
stand for each other, one to one, and every other request is refused. So an advance that comes over
the wire is the advance itself, whatever the clock, and one that cannot be read changes nothing.
-/

namespace VirtualClock

namespace AdvanceRequest

theorem toNat_secondsHigh_ofDuration (d : Duration) :
    (ofDuration d).secondsHigh.toNat = d.seconds.toNat / 4294967296 := by
  have bound := d.seconds.toNat_lt
  have shift : (32 : UInt64).toNat % 64 = 32 := rfl
  simp only [ofDuration, UInt64.toNat_toUInt32, UInt64.toNat_shiftRight, shift,
    Nat.shiftRight_eq_div_pow]
  omega

theorem toNat_secondsLow_ofDuration (d : Duration) :
    (ofDuration d).secondsLow.toNat = d.seconds.toNat % 4294967296 := by
  have mask : (0xFFFFFFFF : UInt64).toNat = 2 ^ 32 - 1 := rfl
  simp only [ofDuration, UInt64.toNat_toUInt32, UInt64.toNat_and, mask,
    Nat.and_two_pow_sub_one_eq_mod]
  omega

theorem toNat_nanos_ofDuration (d : Duration) : (ofDuration d).nanos.toNat = d.subsecond.val := by
  have bound : d.subsecond.val < 1000000000 := d.subsecond.isLt
  exact UInt32.toNat_ofNat_of_lt' (Nat.lt_trans bound (by decide))

/-- The halves do not overlap, so putting them together adds them up. -/
theorem toNat_seconds (r : AdvanceRequest) :
    r.seconds.toNat = r.secondsHigh.toNat * 4294967296 + r.secondsLow.toNat := by
  have high := r.secondsHigh.toNat_lt
  have low := r.secondsLow.toNat_lt
  have shift : (32 : UInt64).toNat % 64 = 32 := rfl
  have apart := Nat.two_pow_add_eq_or_of_lt low r.secondsHigh.toNat
  simp only [seconds, UInt64.toNat_or, UInt64.toNat_shiftLeft, UInt32.toNat_toUInt64, shift,
    Nat.shiftLeft_eq]
  rw [Nat.mod_eq_of_lt (by omega), Nat.mul_comm, ← apart]

theorem seconds_ofDuration (d : Duration) : (ofDuration d).seconds = d.seconds := by
  apply UInt64.toNat_inj.mp
  rw [toNat_seconds, toNat_secondsHigh_ofDuration, toNat_secondsLow_ofDuration]
  exact Nat.div_add_mod' _ _

theorem toDuration_of_lt {r : AdvanceRequest} (readable : r.nanos.toNat < nanosPerSecond) :
    r.toDuration = .ok (.ofParts r.seconds ⟨r.nanos.toNat, readable⟩) :=
  dif_pos readable

theorem toDuration_of_le {r : AdvanceRequest} (unreadable : nanosPerSecond ≤ r.nanos.toNat) :
    r.toDuration = .error (.invalidNanoseconds r.nanos) :=
  dif_neg (Nat.not_lt_of_le unreadable)

theorem toDuration_ofDuration (d : Duration) : (ofDuration d).toDuration = .ok d := by
  have nanos := toNat_nanos_ofDuration d
  have readable : (ofDuration d).nanos.toNat < nanosPerSecond := nanos ▸ d.subsecond.isLt
  have subsecond : (⟨(ofDuration d).nanos.toNat, readable⟩ : Fin nanosPerSecond) = d.subsecond :=
    Fin.ext nanos
  rw [toDuration_of_lt readable, subsecond, seconds_ofDuration, Duration.ofParts_seconds_subsecond]

theorem eq_of_toNat {r r' : AdvanceRequest} (high : r.secondsHigh.toNat = r'.secondsHigh.toNat)
    (low : r.secondsLow.toNat = r'.secondsLow.toNat) (nanos : r.nanos.toNat = r'.nanos.toNat) :
    r = r' := by
  obtain ⟨_, _, _⟩ := r
  cases UInt32.toNat_inj.mp high
  cases UInt32.toNat_inj.mp low
  cases UInt32.toNat_inj.mp nanos
  rfl

theorem ofDuration_of_toDuration {r : AdvanceRequest} {d : Duration} (read : r.toDuration = .ok d) :
    ofDuration d = r := by
  unfold toDuration at read
  split at read
  · next readable =>
    cases read
    have low := r.secondsLow.toNat_lt
    apply eq_of_toNat
    · rw [toNat_secondsHigh_ofDuration, Duration.seconds_ofParts, toNat_seconds]
      omega
    · rw [toNat_secondsLow_ofDuration, Duration.seconds_ofParts, toNat_seconds]
      omega
    · rw [toNat_nanos_ofDuration, Duration.subsecond_ofParts]
  · cases read

end AdvanceRequest

namespace Clock

/-- Every duration is read back from its wire form; every request with less than a second of
nanoseconds is read as the seconds of its two halves and those nanoseconds, and is the wire form of
what it is read as; every other one is refused, with its nanoseconds. So a clock in any state, on
any loop, does with the wire form of a duration what it does with an advance by that duration, and
with a request that is refused it does nothing. -/
theorem wire_form_exact (k : Clock) (owner : Nat) (l : EventLoop) :
    (∀ d, (AdvanceRequest.ofDuration d).toDuration = .ok d) ∧
    (∀ r : AdvanceRequest, r.nanos.toNat < nanosPerSecond →
      ∃ d, r.toDuration = .ok d ∧
        d.seconds.toNat = r.secondsHigh.toNat * 4294967296 + r.secondsLow.toNat ∧
        d.subsecond.val = r.nanos.toNat ∧ AdvanceRequest.ofDuration d = r) ∧
    (∀ r : AdvanceRequest, nanosPerSecond ≤ r.nanos.toNat →
      r.toDuration = .error (.invalidNanoseconds r.nanos)) ∧
    (∀ d, k.handleRequest owner (AdvanceRequest.ofDuration d) l = k.advance owner d l) ∧
    ∀ r : AdvanceRequest, nanosPerSecond ≤ r.nanos.toNat →
      k.handleRequest owner r l = ⟨.error (.refused (.invalidNanoseconds r.nanos)), k, l⟩ := by
  refine ⟨AdvanceRequest.toDuration_ofDuration, ?_, fun _ => AdvanceRequest.toDuration_of_le,
    ?_, ?_⟩
  · intro r readable
    have read := AdvanceRequest.toDuration_of_lt readable
    refine ⟨_, read, ?_, ?_, AdvanceRequest.ofDuration_of_toDuration read⟩
    · rw [Duration.seconds_ofParts, AdvanceRequest.toNat_seconds]
    · rw [Duration.subsecond_ofParts]
  · intro d
    simp only [handleRequest, AdvanceRequest.toDuration_ofDuration]
  · intro r unreadable
    simp only [handleRequest, AdvanceRequest.toDuration_of_le unreadable]
    rfl

/-- A clock on host time, and a request on either side of a second of nanoseconds. -/
theorem wire_form_exact_boundary :
    (∃ d, (⟨1, 2, 999999999⟩ : AdvanceRequest).toDuration = .ok d ∧
      d.seconds.toNat = 4294967298 ∧ d.subsecond.val = 999999999) ∧
    (Clock.new .real true).handleRequest 0 ⟨1, 2, 1000000000⟩ {} =
      ⟨.error (.refused (.invalidNanoseconds 1000000000)), .new .real true, {}⟩ := by
  obtain ⟨_, read, _, _, refused⟩ := wire_form_exact (.new .real true) 0 {}
  obtain ⟨d, asked, seconds, nanos, _⟩ := read ⟨1, 2, 999999999⟩ (by decide)
  exact ⟨⟨d, asked, seconds, nanos⟩, refused ⟨1, 2, 1000000000⟩ (by decide)⟩

end Clock

end VirtualClock

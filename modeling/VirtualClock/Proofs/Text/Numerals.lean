import Mathlib.Data.List.Induction
import Mathlib.Tactic.Common
import VirtualClock.Text.Integer

/-!
Reading whole numbers against the way they are written. A text is read as a number of a range just
if it writes that number: an optional sign and one or more decimal digits. Every other text has a
first fault, and that is what it is refused for.
-/

namespace VirtualClock.Text

namespace IntegerRange

instance : Membership Int IntegerRange := ⟨fun range n => range.low ≤ n ∧ n ≤ range.high⟩

theorem mem_iff {range : IntegerRange} {n : Int} : n ∈ range ↔ range.low ≤ n ∧ n ≤ range.high :=
  Iff.rfl

instance (range : IntegerRange) (n : Int) : Decidable (n ∈ range) :=
  inferInstanceAs (Decidable (range.low ≤ n ∧ n ≤ range.high))

/-- A minus sign is one only where there are negative numbers. -/
def IsSign (range : IntegerRange) (c : Char) : Prop := c = '+' ∨ c = '-' ∧ range.low < 0

end IntegerRange

/-- The number that decimal digits stand for. -/
abbrev magnitude (digits : List Char) : Nat := Nat.ofDigitChars 10 digits 0

abbrev AreDigits (s : List Char) : Prop := ∀ c ∈ s, c.isDigit = true

/-- A text falls into a sign and what follows it; the sign counts as one or minus one, and as one
where there is none. -/
inductive Opens (range : IntegerRange) : List Char → Int → List Char → Prop where
  | plus {body} : Opens range ('+' :: body) 1 body
  | minus {body} : range.low < 0 → Opens range ('-' :: body) (-1) body
  | unsigned {body} : (∀ c ∈ body.head?, ¬range.IsSign c) → Opens range body 1 body

/-- A text is an optional sign and one or more digits, and so writes a number. -/
inductive Writes (range : IntegerRange) : List Char → Int → Prop where
  | digits {s sign digits} : Opens range s sign digits → digits ≠ [] → AreDigits digits →
      Writes range s (sign * magnitude digits)

/-- What is wrong with a character that comes after digits whose number is in the range. -/
inductive Stops (range : IntegerRange) (sign : Int) (digits : List Char) (c : Char) :
    IntegerError → Prop where
  | noDigit : c.isDigit = false → Stops range sign digits c .invalidDigit
  | above : c.isDigit = true → range.high < sign * magnitude (digits ++ [c]) →
      Stops range sign digits c .tooLarge
  | below : c.isDigit = true → sign * magnitude (digits ++ [c]) < range.low →
      Stops range sign digits c .tooSmall

/-- The first thing that is wrong with a text, from left to right. -/
inductive Fault (range : IntegerRange) : List Char → IntegerError → Prop where
  | empty : Fault range [] .empty
  | loneSign {c} : range.IsSign c → Fault range [c] .invalidDigit
  | stopped {s sign digits c rest why} : Opens range s sign (digits ++ c :: rest) →
      AreDigits digits → sign * magnitude digits ∈ range → Stops range sign digits c why →
      Fault range s why

theorem digit?_eq (c : Char) : digit? c = if c.isDigit then some (c.toNat - 48) else none := rfl

theorem magnitude_nil : magnitude [] = 0 := rfl

theorem magnitude_concat (digits : List Char) (c : Char) :
    magnitude (digits ++ [c]) = magnitude digits * 10 + (c.toNat - 48) := by
  rw [magnitude, Nat.ofDigitChars_append, Nat.ofDigitChars_cons, Nat.mul_comm]
  rfl

theorem magnitude_le_append (digits more : List Char) :
    magnitude digits ≤ magnitude (digits ++ more) := by
  induction more generalizing digits with
  | nil => simp
  | cons c more ih =>
    have next := ih (digits ++ [c])
    rw [List.append_assoc, List.singleton_append] at next
    have step := magnitude_concat digits c
    omega

variable {range : IntegerRange} {sign : Int}

theorem mem_of_append (zero : 0 ∈ range) (unit : sign = 1 ∨ sign = -1) {digits more : List Char}
    (inside : sign * magnitude (digits ++ more) ∈ range) : sign * magnitude digits ∈ range := by
  have le := magnitude_le_append digits more
  rw [IntegerRange.mem_iff] at *
  rcases unit with rfl | rfl <;> omega

theorem readDigits_cons {c : Char} {rest digits : List Char} (digit : c.isDigit = true) :
    readDigits range sign (sign * magnitude digits) (c :: rest) =
      if range.high < sign * magnitude (digits ++ [c]) then .error .tooLarge
      else if sign * magnitude (digits ++ [c]) < range.low then .error .tooSmall
      else readDigits range sign (sign * magnitude (digits ++ [c])) rest := by
  have next : sign * magnitude digits * 10 + sign * ((c.toNat - 48 : Nat) : Int) =
      sign * magnitude (digits ++ [c]) := by
    rw [magnitude_concat, Int.natCast_add, Int.natCast_mul, Int.mul_add, Int.mul_assoc]
    rfl
  rw [readDigits, digit?_eq, if_pos digit]
  simp only [next]

theorem readDigits_append (zero : 0 ∈ range) (unit : sign = 1 ∨ sign = -1)
    (read : List Char) {digits : List Char} (all : AreDigits digits)
    (inside : sign * magnitude (read ++ digits) ∈ range) (rest : List Char) :
    readDigits range sign (sign * magnitude read) (digits ++ rest) =
      readDigits range sign (sign * magnitude (read ++ digits)) rest := by
  induction digits generalizing read with
  | nil => simp
  | cons c digits ih =>
    rw [List.append_cons] at inside
    have here : sign * magnitude (read ++ [c]) ∈ range := mem_of_append zero unit inside
    rw [IntegerRange.mem_iff] at here
    rw [List.cons_append, readDigits_cons (all c (by simp)), if_neg (by omega), if_neg (by omega),
      ih _ (fun d member => all d (List.mem_cons_of_mem c member)) inside, ← List.append_cons]

theorem readDigits_of_stops {digits : List Char} {c : Char} {why : IntegerError}
    (low : range.low ≤ range.high) (stops : Stops range sign digits c why) (rest : List Char) :
    readDigits range sign (sign * magnitude digits) (c :: rest) = .error why := by
  cases stops with
  | noDigit other => rw [readDigits, digit?_eq, if_neg (by simp [other])]
  | above digit above => rw [readDigits_cons digit, if_pos above]
  | below digit below => rw [readDigits_cons digit, if_neg (by omega), if_pos below]

/-- Either all of a text are digits with a number in the range, or some character of it stops the
reading. -/
theorem digits_or_stops (zero : 0 ∈ range) (sign : Int) (s : List Char) :
    (AreDigits s ∧ sign * magnitude s ∈ range) ∨
      ∃ digits c rest why, s = digits ++ c :: rest ∧ AreDigits digits ∧
        sign * magnitude digits ∈ range ∧ Stops range sign digits c why := by
  induction s using List.reverseRecOn with
  | nil => exact .inl ⟨List.forall_mem_nil _, by simpa [magnitude_nil] using zero⟩
  | append_singleton s c ih =>
    rcases ih with ⟨all, inside⟩ | ⟨digits, d, rest, why, rfl, all, inside, stops⟩
    · by_cases digit : c.isDigit = true
      · by_cases within : sign * magnitude (s ++ [c]) ∈ range
        · refine .inl ⟨fun d member => ?_, within⟩
          rcases List.mem_append.mp member with old | new
          · exact all d old
          · rwa [List.mem_singleton.mp new]
        · have stops : ∃ why, Stops range sign s c why := by
            rw [IntegerRange.mem_iff, not_and_or, Int.not_le, Int.not_le] at within
            rcases within with below | above
            · exact ⟨_, .below digit below⟩
            · exact ⟨_, .above digit above⟩
          obtain ⟨why, stops⟩ := stops
          exact .inr ⟨s, c, [], why, rfl, all, inside, stops⟩
      · exact .inr ⟨s, c, [], _, rfl, all, inside, .noDigit (by simpa using digit)⟩
    · exact .inr ⟨digits, d, rest ++ [c], why, by simp, all, inside, stops⟩

theorem readDigits_of_mem (zero : 0 ∈ range) (unit : sign = 1 ∨ sign = -1) {digits : List Char}
    (all : AreDigits digits) (inside : sign * magnitude digits ∈ range) (rest : List Char) :
    readDigits range sign 0 (digits ++ rest) =
      readDigits range sign (sign * magnitude digits) rest := by
  have read := readDigits_append zero unit [] all inside rest
  rwa [magnitude_nil, Int.natCast_zero, Int.mul_zero] at read

theorem readDigits_eq_ok_iff (zero : 0 ∈ range) (unit : sign = 1 ∨ sign = -1) {s : List Char}
    {n : Int} :
    readDigits range sign 0 s = .ok n ↔
      AreDigits s ∧ sign * magnitude s ∈ range ∧ n = sign * magnitude s := by
  constructor
  · intro read
    rcases digits_or_stops zero sign s with
      ⟨all, inside⟩ | ⟨digits, c, rest, why, rfl, all, inside, stops⟩
    · rw [← List.append_nil s, readDigits_of_mem zero unit all inside] at read
      cases read
      exact ⟨all, inside, rfl⟩
    · rw [readDigits_of_mem zero unit all inside,
        readDigits_of_stops (Int.le_trans zero.1 zero.2) stops] at read
      cases read
  · rintro ⟨all, inside, rfl⟩
    rw [← List.append_nil s, readDigits_of_mem zero unit all inside, List.append_nil]
    rfl

theorem readDigits_eq_error_iff (zero : 0 ∈ range) (unit : sign = 1 ∨ sign = -1) {s : List Char}
    {why : IntegerError} :
    readDigits range sign 0 s = .error why ↔
      ∃ digits c rest, s = digits ++ c :: rest ∧ AreDigits digits ∧
        sign * magnitude digits ∈ range ∧ Stops range sign digits c why := by
  have low : range.low ≤ range.high := Int.le_trans zero.1 zero.2
  constructor
  · intro read
    rcases digits_or_stops zero sign s with
      ⟨all, inside⟩ | ⟨digits, c, rest, why, rfl, all, inside, stops⟩
    · rw [(readDigits_eq_ok_iff zero unit).mpr ⟨all, inside, rfl⟩] at read
      cases read
    · rw [readDigits_of_mem zero unit all inside, readDigits_of_stops low stops] at read
      cases read
      exact ⟨digits, c, rest, rfl, all, inside, stops⟩
  · rintro ⟨digits, c, rest, rfl, all, inside, stops⟩
    rw [readDigits_of_mem zero unit all inside, readDigits_of_stops low stops]

theorem Opens.unit {s body : List Char} (opens : Opens range s sign body) :
    sign = 1 ∨ sign = -1 := by
  cases opens with
  | plus | unsigned => exact .inl rfl
  | minus => exact .inr rfl

theorem exists_opens (range : IntegerRange) (s : List Char) :
    ∃ sign body, Opens range s sign body := by
  by_cases signed : ∃ c ∈ s.head?, range.IsSign c
  · obtain ⟨c, first, sign⟩ := signed
    obtain ⟨body, rfl⟩ := List.head?_eq_some_iff.mp first
    rcases sign with rfl | ⟨rfl, negative⟩
    · exact ⟨_, _, .plus⟩
    · exact ⟨_, _, .minus negative⟩
  · exact ⟨_, _, .unsigned fun c first sign => signed ⟨c, first, sign⟩⟩

theorem readInteger_loneSign {c : Char} (sign : range.IsSign c) :
    readInteger range [c] = .error .invalidDigit := by
  rcases sign with rfl | ⟨rfl, _⟩ <;> rfl

/-- Behind the sign stand the digits; a minus sign that is none is a character like any other. -/
theorem readInteger_of_opens {s body : List Char} (opens : Opens range s sign body)
    (more : body ≠ []) : readInteger range s = readDigits range sign 0 body := by
  obtain ⟨c, rest, rfl⟩ := List.exists_cons_of_ne_nil more
  cases opens with
  | plus => rfl
  | minus negative => exact if_pos negative
  | unsigned none =>
    have noSign : ¬range.IsSign c := none c rfl
    by_cases minus : c = '-'
    · subst minus
      have natural : ¬range.low < 0 := fun negative => noSign (.inr ⟨rfl, negative⟩)
      cases rest with
      | nil => rfl
      | cons d rest => exact if_neg natural
    · have plus : c ≠ '+' := fun plus => noSign (.inl plus)
      unfold readInteger
      split <;> simp_all

theorem areDigits_toDigits (n : Nat) : AreDigits (Nat.toDigits 10 n) :=
  fun _ member => Nat.isDigit_of_mem_toDigits (by decide) (by decide) member

theorem magnitude_toDigits (n : Nat) : magnitude (Nat.toDigits 10 n) = n :=
  Nat.ofDigitChars_toDigits (by decide) (by decide)

theorem AreDigits.opens {digits : List Char} (all : AreDigits digits) :
    Opens range digits 1 digits := by
  apply Opens.unsigned
  intro c first sign
  have digit : c.isDigit = true := all c (List.mem_of_mem_head? first)
  rcases sign with rfl | ⟨rfl, _⟩ <;> cases digit

theorem writes_toString {n : Int} (inside : n ∈ range) : Writes range (toString n).toList n := by
  change Writes range n.repr.toList n
  rw [Int.repr_eq_if]
  by_cases natural : 0 ≤ n
  · rw [if_pos natural, Nat.toList_repr]
    have all := areDigits_toDigits n.toNat
    have opens : Opens range _ 1 _ := all.opens
    have writes := Writes.digits opens Nat.toDigits_ne_nil all
    rwa [magnitude_toDigits, Int.one_mul, Int.toNat_of_nonneg natural] at writes
  · have negative : range.low < 0 := Int.lt_of_le_of_lt inside.1 (Int.not_le.mp natural)
    rw [if_neg natural, String.toList_append, Nat.toList_repr]
    have writes := Writes.digits (Opens.minus negative) Nat.toDigits_ne_nil
      (areDigits_toDigits (-n).toNat)
    rwa [magnitude_toDigits, Int.toNat_of_nonneg (by omega), Int.neg_mul, Int.one_mul,
      Int.neg_neg] at writes

theorem readInteger_eq_ok_iff (zero : 0 ∈ range) {s : List Char} {n : Int} :
    readInteger range s = .ok n ↔ Writes range s n ∧ n ∈ range := by
  constructor
  · intro read
    obtain ⟨sign, body, opens⟩ := exists_opens range s
    by_cases empty : body = []
    · subst empty
      cases opens <;> cases read
    · rw [readInteger_of_opens opens empty, readDigits_eq_ok_iff zero opens.unit] at read
      obtain ⟨all, inside, rfl⟩ := read
      exact ⟨.digits opens empty all, inside⟩
  · rintro ⟨⟨opens, some, all⟩, inside⟩
    rw [readInteger_of_opens opens some, readDigits_eq_ok_iff zero opens.unit]
    exact ⟨all, inside, rfl⟩

theorem readInteger_eq_error_iff (zero : 0 ∈ range) {s : List Char} {why : IntegerError} :
    readInteger range s = .error why ↔ Fault range s why := by
  constructor
  · intro read
    obtain ⟨sign, body, opens⟩ := exists_opens range s
    by_cases empty : body = []
    · subst empty
      cases opens with
      | plus =>
        cases read
        exact .loneSign (.inl rfl)
      | minus negative =>
        cases read
        exact .loneSign (.inr ⟨rfl, negative⟩)
      | unsigned =>
        cases read
        exact .empty
    · rw [readInteger_of_opens opens empty, readDigits_eq_error_iff zero opens.unit] at read
      obtain ⟨digits, c, rest, rfl, all, inside, stops⟩ := read
      exact .stopped opens all inside stops
  · intro fault
    cases fault with
    | empty => rfl
    | loneSign sign => exact readInteger_loneSign sign
    | stopped opens all inside stops =>
      rw [readInteger_of_opens opens (by simp), readDigits_eq_error_iff zero opens.unit]
      exact ⟨_, _, _, rfl, all, inside, stops⟩

end VirtualClock.Text

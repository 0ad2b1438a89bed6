import VirtualClock.Proofs.Text.Numerals
import VirtualClock.Proofs.Text.Trimming
import VirtualClock.TimerSetting

/-!
The texts that ask for a timer, and why any other text does not. The first equals sign divides a
text; both parts are trimmed, and what is left of the second one has to write a delay.
-/

namespace VirtualClock

open Text

namespace Text

theorem isBlank_of_isDigit {c : Char} (digit : c.isDigit = true) : isBlank c = false := by
  rw [Char.isDigit_iff_toNat] at digit
  obtain ⟨low, high⟩ : 48 ≤ c.toNat ∧ c.toNat ≤ 57 := digit
  exact isBlank_of_visible (by omega) (by omega)

theorem Writes.trimmed {range : IntegerRange} {s : List Char} {n : Int}
    (writes : Writes range s n) : Trimmed s := by
  obtain ⟨opens, -, all⟩ := writes
  apply Trimmed.of_all
  intro c member
  cases opens with
  | plus =>
    rcases List.mem_cons.mp member with rfl | digit
    · rfl
    · exact isBlank_of_isDigit (all c digit)
  | minus =>
    rcases List.mem_cons.mp member with rfl | digit
    · rfl
    · exact isBlank_of_isDigit (all c digit)
  | unsigned => exact isBlank_of_isDigit (all c member)

end Text

/-- A text asks for a timer: name and delay stand on either side of the first equals sign, each
with white space around it. -/
inductive TimerSetting.Asks : List Char → TimerSetting → Prop where
  | named {before after numeral name delay} : '=' ∉ before → Trims before name.toList →
      Trims after numeral → Writes .signed32 numeral delay.toInt →
      Asks (before ++ '=' :: after) ⟨name, delay⟩

/-- What keeps a text from asking for a timer: there is no equals sign, or the first fault of what
follows it, told with all that stands before it. -/
inductive TimerSettingError.Hinders : List Char → TimerSettingError → Prop where
  | undivided {s} : '=' ∉ s → Hinders s (.noDelay (String.ofList s))
  | faulty {before after numeral why} : '=' ∉ before → Trims after numeral →
      Fault .signed32 numeral why →
      Hinders (before ++ '=' :: after) (.badDelay (String.ofList before) why)

namespace TimerSetting

theorem zero_mem_signed32 : 0 ∈ IntegerRange.signed32 := by decide

theorem toInt_mem_signed32 (n : Int32) : n.toInt ∈ IntegerRange.signed32 := by
  have low := n.le_toInt
  have high := n.toInt_lt
  rw [IntegerRange.mem_iff]
  change -2147483648 ≤ n.toInt ∧ n.toInt ≤ 2147483647
  omega

theorem toInt_ofInt {n : Int} (inside : n ∈ IntegerRange.signed32) : (Int32.ofInt n).toInt = n := by
  have low : -2147483648 ≤ n := inside.1
  have high : n ≤ 2147483647 := inside.2
  exact Int32.toInt_ofInt_of_le low (by omega)

variable {s : String} {before after : List Char}

theorem bne_of_mem {s : List Char} (undivided : '=' ∉ s) : ∀ c ∈ s, (c != '=') = true := by
  intro c member
  simpa using ne_of_mem_of_not_mem member undivided

theorem parse_of_not_mem (undivided : '=' ∉ s.toList) : parse s = .error (.noDelay s) := by
  have nothing : s.toList.dropWhile (· != '=') = [] :=
    List.dropWhile_eq_nil_iff.mpr (bne_of_mem undivided)
  rw [parse, nothing]

theorem takeWhile_of_split (first : '=' ∉ before) :
    (before ++ '=' :: after).takeWhile (· != '=') = before := by
  rw [List.takeWhile_append_of_pos (bne_of_mem first), List.takeWhile_cons_of_neg (by simp),
    List.append_nil]

theorem dropWhile_of_split (first : '=' ∉ before) :
    (before ++ '=' :: after).dropWhile (· != '=') = '=' :: after := by
  rw [List.dropWhile_append_of_pos (bne_of_mem first), List.dropWhile_cons_of_neg (by simp)]

theorem parse_of_asks {t : TimerSetting} (asks : Asks s.toList t) : parse s = .ok t := by
  generalize same : s.toList = chars at asks
  cases asks with
  | @named before after numeral name delay first trims trims' writes =>
    have read : readInteger .signed32 numeral = .ok delay.toInt :=
      (readInteger_eq_ok_iff zero_mem_signed32).mpr ⟨writes, toInt_mem_signed32 delay⟩
    simp only [parse, same, takeWhile_of_split first, dropWhile_of_split first, trims'.trim_eq,
      read, trims.trim_eq, String.ofList_toList, Int32.ofInt_toInt]

theorem parse_of_hinders {why : TimerSettingError} (hinders : why.Hinders s.toList) :
    parse s = .error why := by
  generalize same : s.toList = chars at hinders
  cases hinders with
  | undivided undivided =>
    rw [← same, String.ofList_toList]
    exact parse_of_not_mem (same ▸ undivided)
  | faulty first trims fault =>
    have read := (readInteger_eq_error_iff zero_mem_signed32).mpr fault
    simp only [parse, same, takeWhile_of_split first, dropWhile_of_split first, trims.trim_eq, read]

theorem asks_or_hinders (s : List Char) :
    (∃ t, Asks s t) ∨ ∃ why : TimerSettingError, why.Hinders s := by
  by_cases divided : '=' ∈ s
  · obtain ⟨before, after, rfl, first⟩ := List.eq_append_cons_of_mem divided
    cases read : readInteger .signed32 (trim after) with
    | error why =>
      have fault := (readInteger_eq_error_iff zero_mem_signed32).mp read
      exact .inr ⟨_, .faulty first (trims_trim after) fault⟩
    | ok n =>
      obtain ⟨writes, inside⟩ := (readInteger_eq_ok_iff zero_mem_signed32).mp read
      have trims : Trims before (String.ofList (trim before)).toList := by
        rw [String.toList_ofList]
        exact trims_trim before
      rw [← toInt_ofInt inside] at writes
      exact .inl ⟨_, .named first trims (trims_trim after) writes⟩
  · exact .inr ⟨_, .undivided divided⟩

theorem parse_eq_ok_iff {t : TimerSetting} : parse s = .ok t ↔ Asks s.toList t := by
  constructor
  · intro parsed
    rcases asks_or_hinders s.toList with ⟨t', asks⟩ | ⟨why, hinders⟩
    · rw [parse_of_asks asks] at parsed
      cases parsed
      exact asks
    · rw [parse_of_hinders hinders] at parsed
      cases parsed
  · exact parse_of_asks

theorem parse_eq_error_iff {why : TimerSettingError} :
    parse s = .error why ↔ why.Hinders s.toList := by
  constructor
  · intro parsed
    rcases asks_or_hinders s.toList with ⟨t, asks⟩ | ⟨why', hinders⟩
    · rw [parse_of_asks asks] at parsed
      cases parsed
    · rw [parse_of_hinders hinders] at parsed
      cases parsed
      exact hinders
  · exact parse_of_hinders

/-- The texts that are read as timers are those that ask for one, each as the one it asks for; any
other is refused for what hinders it. A name without equals sign and without white space at its
ends, an equals sign and the usual text of a delay ask for the timer of this name and delay. -/
theorem read_by_grammar :
    (∀ s t, parse s = .ok t ↔ Asks s.toList t) ∧
    (∀ s why, parse s = .error why ↔ why.Hinders s.toList) ∧
    ∀ (name : String) (delay : Int32), '=' ∉ name.toList → Trimmed name.toList →
      parse (name ++ "=" ++ toString delay) = .ok ⟨name, delay⟩ := by
  refine ⟨fun _ _ => parse_eq_ok_iff, fun _ _ => parse_eq_error_iff, ?_⟩
  intro name delay first trimmed
  have divided : (name ++ "=" ++ toString delay).toList =
      name.toList ++ '=' :: (toString delay).toList := by simp
  have writes : Writes .signed32 (toString delay).toList delay.toInt :=
    writes_toString (toInt_mem_signed32 delay)
  rw [parse_eq_ok_iff, divided]
  exact .named first trimmed.trims writes.trimmed.trims writes

/-- White space within a name stays, and the least delay there is has its text. -/
theorem read_by_grammar_lowest :
    '=' ∉ "tick tock".toList ∧ Trimmed "tick tock".toList ∧
      parse "tick tock=-2147483648" = .ok ⟨"tick tock", -2147483648⟩ := by
  have first : '=' ∉ "tick tock".toList := by decide
  have trimmed : Trimmed "tick tock".toList := by decide
  exact ⟨first, trimmed, read_by_grammar.2.2 "tick tock" (-2147483648) first trimmed⟩

end TimerSetting

end VirtualClock

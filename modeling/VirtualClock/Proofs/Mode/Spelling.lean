import Mathlib
import VirtualClock.Mode
import VirtualClock.Proofs.Text.Trimming

/-!
The texts that name a mode: its name with any choice of capitals, and white space around it. Case
is that of ASCII letters, so no other character can stand for a letter of a name. All other texts
are refused as they were written.
-/

namespace VirtualClock

namespace Text

/-- One character, or the capital and the small form of one ASCII letter. -/
inductive SameLetter : Char → Char → Prop where
  | same (c) : SameLetter c c
  | lowered {c d} : c.isUpper = true → d.toNat = c.toNat + 32 → SameLetter c d
  | raised {c d} : d.isUpper = true → c.toNat = d.toNat + 32 → SameLetter c d

/-- Two texts that differ in nothing but the case of ASCII letters. -/
def Respelled (s t : List Char) : Prop := List.Forall₂ SameLetter s t

theorem isUpper_iff_toNat {c : Char} : c.isUpper = true ↔ 65 ≤ c.toNat ∧ c.toNat ≤ 90 := by
  simp [Char.isUpper, UInt32.le_iff_toNat_le]

theorem isLower_iff_toNat {c : Char} : c.isLower = true ↔ 97 ≤ c.toNat ∧ c.toNat ≤ 122 := by
  simp [Char.isLower, UInt32.le_iff_toNat_le]

theorem toNat_toLower {c : Char} (capital : c.isUpper = true) :
    c.toLower.toNat = c.toNat + 32 := by
  have range := isUpper_iff_toNat.mp capital
  have valid : (c.toNat + 32).isValidChar := by omega
  rw [Char.toLower_eq_of_isUpper capital, Char.toNat_ofNat, if_pos valid]

theorem toLower_eq_of_toNat {c d : Char} (capital : c.isUpper = true)
    (small : d.toNat = c.toNat + 32) : c.toLower = d := by
  rw [Char.toLower_eq_of_isUpper capital, ← small, Char.ofNat_toNat]

theorem sameLetter_iff {c d : Char} : SameLetter c d ↔ c.toLower = d.toLower := by
  constructor
  · intro letter
    cases letter with
    | same => rfl
    | lowered capital small =>
      rw [← toLower_eq_of_toNat capital small, Char.toLower_toLower_eq_toLower]
    | raised capital small =>
      rw [← toLower_eq_of_toNat capital small, Char.toLower_toLower_eq_toLower]
  · intro lower
    by_cases capital : c.isUpper = true
    · by_cases capital' : d.isUpper = true
      · have equal : c.toNat + 32 = d.toNat + 32 := by
          rw [← toNat_toLower capital, lower, toNat_toLower capital']
        rw [Char.toNat_inj.mp (Nat.add_right_cancel equal)]
        exact .same d
      · apply SameLetter.lowered capital
        rw [← toNat_toLower capital, lower, Char.toLower_eq_of_not_isUpper capital']
    · rw [Char.toLower_eq_of_not_isUpper capital] at lower
      by_cases capital' : d.isUpper = true
      · apply SameLetter.raised capital'
        rw [← toNat_toLower capital', lower]
      · rw [lower, Char.toLower_eq_of_not_isUpper capital']
        exact .same d

theorem respelled_iff {s t : List Char} :
    Respelled s t ↔ s.map Char.toLower = t.map Char.toLower := by
  have letters : SameLetter = fun c d => c.toLower = d.toLower := by
    funext c d
    exact propext sameLetter_iff
  rw [Respelled, letters, ← List.forall₂_eq_eq_eq, List.forall₂_map_left_iff,
    List.forall₂_map_right_iff]

theorem isBlank_of_isAlpha {c : Char} (letter : c.isAlpha = true) : isBlank c = false := by
  rw [Char.isAlpha, Bool.or_eq_true, isUpper_iff_toNat, isLower_iff_toNat] at letter
  exact isBlank_of_visible (by omega) (by omega)

theorem isBlank_toLower (c : Char) : isBlank c.toLower = isBlank c := by
  by_cases capital : c.isUpper = true
  · have letter : c.isAlpha = true := by simp [Char.isAlpha, capital]
    have letter' : c.toLower.isAlpha = true := by rwa [Char.isAlpha_toLower_eq_isAlpha]
    rw [isBlank_of_isAlpha letter, isBlank_of_isAlpha letter']
  · rw [Char.toLower_eq_of_not_isUpper capital]

theorem trim_map_toLower (s : List Char) :
    trim (s.map Char.toLower) = (trim s).map Char.toLower := by
  have blank : isBlank ∘ Char.toLower = isBlank := funext isBlank_toLower
  simp only [trim, List.dropWhile_map, blank, ← List.map_reverse]

theorem Respelled.trim {s t : List Char} (respelled : Respelled s t) :
    Respelled (trim s) (trim t) := by
  rw [respelled_iff] at respelled ⊢
  rw [← trim_map_toLower, respelled, trim_map_toLower]

end Text

open Text

namespace Mode

/-- A text spells the name of a mode, with white space around it. -/
inductive Spells : List Char → Mode → Prop where
  | padded {before core after m} : Blank before → Respelled m.name.toList core → Blank after →
      Spells (before ++ core ++ after) m

variable {s : String} {m : Mode}

theorem isLower_of_mem_name {c : Char} (member : c ∈ m.name.toList) : c.isLower = true := by
  revert c
  cases m <;> simp [name]

theorem map_toLower_name (m : Mode) : m.name.toList.map Char.toLower = m.name.toList := by
  refine (List.map_congr_left fun c member => ?_).trans (List.map_id _)
  have small := Char.not_isUpper_of_isLower (isLower_of_mem_name member)
  exact Char.toLower_eq_of_not_isUpper small

theorem ofName?_eq_some_iff : ofName? s = some m ↔ s = m.name := by
  constructor
  · intro found
    have same := List.find?_some found
    exact (beq_iff_eq.mp same).symm
  · rintro rfl
    exact ofName?_name m

theorem parse_eq_ok_iff_trim :
    parse s = .ok m ↔ Respelled m.name.toList (trim s.toList) := by
  have found : parse s = .ok m ↔
      ofName? (String.ofList ((trim s.toList).map Char.toLower)) = some m := by
    rw [parse]
    cases ofName? (String.ofList ((trim s.toList).map Char.toLower)) <;> simp
  rw [found, ofName?_eq_some_iff, ← String.toList_inj, String.toList_ofList, respelled_iff,
    map_toLower_name, eq_comm]

theorem isAlpha_of_respelled {core : List Char} (spelled : Respelled m.name.toList core) {c : Char}
    (member : c ∈ core) : c.isAlpha = true := by
  rw [respelled_iff, map_toLower_name] at spelled
  have small : c.toLower.isLower = true := by
    apply isLower_of_mem_name (m := m)
    rw [spelled]
    exact List.mem_map_of_mem member
  rwa [Char.isLower_toLower_eq_isAlpha] at small

theorem parse_eq_ok_iff : parse s = .ok m ↔ Spells s.toList m := by
  rw [parse_eq_ok_iff_trim]
  constructor
  · intro spelled
    have trims := trims_trim s.toList
    generalize s.toList = chars, trim s.toList = core at trims spelled
    cases trims with
    | around blank _ blank' => exact .padded blank spelled blank'
  · intro spells
    generalize s.toList = chars at spells
    cases spells with
    | padded blank spelled blank' =>
      -- letters are no white space, so trimming stops at the ends of the spelling
      have solid : Trimmed _ := Trimmed.of_all fun c member =>
        isBlank_of_isAlpha (isAlpha_of_respelled spelled member)
      rwa [(Trims.around blank solid blank').trim_eq]

theorem parse_eq_error_iff {why : UnknownMode} :
    parse s = .error why ↔ why = ⟨s⟩ ∧ ∀ m, ¬Spells s.toList m := by
  have unspelled : (∀ m, ¬Spells s.toList m) ↔ ∀ m, parse s ≠ .ok m :=
    forall_congr' fun m => not_congr parse_eq_ok_iff.symm
  rw [unspelled, parse]
  cases ofName? (String.ofList ((trim s.toList).map Char.toLower)) with
  | none => simp [eq_comm]
  | some m => simp

/-- A text with a character that is neither white space nor a letter names no mode. -/
theorem parse_of_mem {c : Char} (member : c ∈ s.toList) (solid : isBlank c = false)
    (foreign : c.isAlpha = false) : parse s = .error ⟨s⟩ := by
  refine parse_eq_error_iff.mpr ⟨rfl, fun m spells => ?_⟩
  generalize s.toList = chars at member spells
  cases spells with
  | padded blank spelled blank' =>
    rw [List.mem_append, List.mem_append] at member
    rcases member with (before | core) | after
    · simp [blank c before] at solid
    · simp [isAlpha_of_respelled spelled core] at foreign
    · simp [blank' c after] at solid

theorem parse_pad {before after : List Char} (blank : Blank before) (blank' : Blank after) :
    parse (String.ofList (before ++ s.toList ++ after)) = .ok m ↔ parse s = .ok m := by
  rw [parse_eq_ok_iff_trim, parse_eq_ok_iff_trim, String.toList_ofList, trim_pad blank _ blank']

theorem parse_respell {t : String} (respelled : Respelled s.toList t.toList) :
    parse t = .ok m ↔ parse s = .ok m := by
  have trimmed := respelled_iff.mp respelled.trim
  rw [parse_eq_ok_iff_trim, parse_eq_ok_iff_trim, respelled_iff, respelled_iff, trimmed]

/-- The texts that are read as a mode are the spellings of its name with white space around them;
any other text is refused as it stands. That goes for each text with a character that elsewhere may
pass for white space, and for each with one outside ASCII that is no white space, such as U+212A,
though its small form is the letter k. Adding white space at the ends and changing the case of ASCII
letters make no difference. -/
theorem named_by_spelling :
    (∀ s m, parse s = .ok m ↔ Spells s.toList m) ∧
    (∀ s why, parse s = .error why ↔ why = ⟨s⟩ ∧ ∀ m, ¬Spells s.toList m) ∧
    (∀ s, ∀ c ∈ s.toList,
      c ∈ ['\u200b', '\ufeff', '\u180e', '\u001c'] ∨ 128 ≤ c.toNat ∧ isBlank c = false →
        parse s = .error ⟨s⟩) ∧
    (∀ before (s : String) after, Blank before → Blank after → ∀ m,
      parse (String.ofList (before ++ s.toList ++ after)) = .ok m ↔ parse s = .ok m) ∧
    ∀ s t : String, Respelled s.toList t.toList → ∀ m, parse t = .ok m ↔ parse s = .ok m := by
  refine ⟨fun _ _ => parse_eq_ok_iff, fun _ _ => parse_eq_error_iff, ?_, ?_, ?_⟩
  · intro s c member strange
    have solid : isBlank c = false ∧ c.isAlpha = false := by
      rcases strange with lookalike | ⟨beyond, solid⟩
      · simp only [List.mem_cons, List.not_mem_nil, or_false] at lookalike
        rcases lookalike with rfl | rfl | rfl | rfl <;> decide
      · refine ⟨solid, ?_⟩
        rw [Char.isAlpha, Bool.or_eq_false_iff, ← Bool.not_eq_true, ← Bool.not_eq_true,
          isUpper_iff_toNat, isLower_iff_toNat]
        omega
    exact parse_of_mem member solid.1 solid.2
  · exact fun before s after blank blank' m => parse_pad blank blank'
  · exact fun s t respelled m => parse_respell respelled

/-- An ideographic space in front is trimmed and one of no width is not; a capital stands for its
letter, and a sign that looks like one does not. -/
theorem named_by_spelling_lookalike :
    Blank ['\u3000'] ∧ Respelled "fake".toList "FaKe".toList ∧
      parse "\u3000FaKe" = .ok .fake ∧
      parse "\u200bfake" = .error ⟨"\u200bfake"⟩ ∧
      parse "fa\u212ae" = .error ⟨"fa\u212ae"⟩ := by
  obtain ⟨_, _, refused, padded, respelled⟩ := named_by_spelling
  have blank : Blank ['\u3000'] := List.forall_mem_singleton.mpr (by decide)
  have letters : Respelled "fake".toList "FaKe".toList := respelled_iff.mpr (by decide)
  have plain : parse "fake" = .ok .fake := by decide
  refine ⟨blank, letters, ?_, ?_, ?_⟩
  · have capitals : parse "FaKe" = .ok .fake := (respelled _ _ letters _).mpr plain
    exact (padded ['\u3000'] "FaKe" [] blank Blank.nil _).mpr capitals
  · exact refused _ '\u200b' (by simp) (.inl (by simp))
  · exact refused _ '\u212a' (by simp) (.inr (by decide))

end Mode

end VirtualClock

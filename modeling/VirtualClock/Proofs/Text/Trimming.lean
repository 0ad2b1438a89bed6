import Mathlib.Data.List.Basic
import Mathlib.Data.List.TakeWhile
import VirtualClock.Text.Blank

/-!
What trimming leaves of a text, told by what it takes away: white space at both ends, and all of it.
-/

namespace VirtualClock.Text

/-- White space and nothing else. -/
def Blank (s : List Char) : Prop := ∀ c ∈ s, isBlank c = true

theorem isBlank_of_visible {c : Char} (low : 32 < c.toNat) (high : c.toNat < 127) :
    isBlank c = false := by
  simp only [isBlank, Bool.or_eq_false_iff, Bool.and_eq_false_iff, decide_eq_false_iff_not,
    beq_eq_false_iff_ne]
  omega

/-- No white space at either end. -/
structure Trimmed (s : List Char) : Prop where
  first : ∀ c ∈ s.head?, isBlank c = false
  last : ∀ c ∈ s.getLast?, isBlank c = false

theorem trimmed_iff {s : List Char} :
    Trimmed s ↔ s.head?.all (!isBlank ·) = true ∧ s.getLast?.all (!isBlank ·) = true := by
  simp only [Option.all_eq_true, Bool.not_eq_true']
  constructor
  · rintro ⟨first, last⟩
    exact ⟨first, last⟩
  · rintro ⟨first, last⟩
    exact ⟨first, last⟩

instance (s : List Char) : Decidable (Trimmed s) := decidable_of_iff' _ trimmed_iff

/-- A text is a core that is trimmed, with white space around it. -/
inductive Trims : List Char → List Char → Prop where
  | around {before core after} :
      Blank before → Trimmed core → Blank after → Trims (before ++ core ++ after) core

theorem Blank.reverse {s : List Char} (blank : Blank s) : Blank s.reverse :=
  fun c member => blank c (List.mem_reverse.mp member)

theorem Trimmed.reverse {s : List Char} (trimmed : Trimmed s) : Trimmed s.reverse where
  first := by simpa only [List.head?_reverse] using trimmed.last
  last := by simpa only [List.getLast?_reverse] using trimmed.first

theorem Trimmed.nil : Trimmed [] := ⟨by simp, by simp⟩

theorem Trimmed.of_all {s : List Char} (solid : ∀ c ∈ s, isBlank c = false) : Trimmed s where
  first c member := solid c (List.mem_of_mem_head? member)
  last c member := solid c (List.mem_of_mem_getLast? member)

theorem Blank.nil : Blank [] := List.forall_mem_nil _

theorem Blank.append {s t : List Char} (blank : Blank s) (blank' : Blank t) : Blank (s ++ t) :=
  List.forall_mem_append.mpr ⟨blank, blank'⟩

theorem Trimmed.trims {s : List Char} (trimmed : Trimmed s) : Trims s s := by
  have trims := Trims.around Blank.nil trimmed Blank.nil
  rwa [List.nil_append, List.append_nil] at trims

theorem blank_takeWhile (s : List Char) : Blank (s.takeWhile isBlank) :=
  fun _ member => List.mem_takeWhile_imp member

theorem isBlank_head?_dropWhile {s : List Char} :
    ∀ c ∈ (s.dropWhile isBlank).head?, isBlank c = false := by
  intro c member
  have first := List.head?_dropWhile_not isBlank s
  rw [Option.mem_def] at member
  rwa [member] at first

theorem dropWhile_isBlank {before s : List Char} (blank : Blank before)
    (first : ∀ c ∈ s.head?, isBlank c = false) : (before ++ s).dropWhile isBlank = s := by
  rw [List.dropWhile_append_of_pos blank]
  cases s with
  | nil => rfl
  | cons c rest => exact List.dropWhile_cons_of_neg (by simp [first c rfl])

theorem trim_of_blank {s : List Char} (blank : Blank s) : trim s = [] := by
  have nothing : s.dropWhile isBlank = [] := List.dropWhile_eq_nil_iff.mpr blank
  rw [trim, nothing]
  rfl

theorem Trims.trim_eq {s core : List Char} (trims : Trims s core) : trim s = core := by
  cases trims with
  | @around before _ after blank trimmed blank' =>
    by_cases empty : core = []
    · subst empty
      apply trim_of_blank
      intro c member
      rw [List.append_nil, List.mem_append] at member
      exact member.elim (blank c) (blank' c)
    · have first : ∀ c ∈ (core ++ after).head?, isBlank c = false := by
        rw [List.head?_append_of_ne_nil _ empty]
        exact trimmed.first
      rw [trim, List.append_assoc, dropWhile_isBlank blank first, List.reverse_append,
        dropWhile_isBlank blank'.reverse trimmed.reverse.first, List.reverse_reverse]

theorem trims_trim (s : List Char) : Trims s (trim s) := by
  let rest := s.dropWhile isBlank
  let after := (rest.reverse.takeWhile isBlank).reverse
  have back : trim s ++ after = rest := by
    rw [trim, ← List.reverse_append, List.takeWhile_append_dropWhile, List.reverse_reverse]
  have whole : s.takeWhile isBlank ++ trim s ++ after = s := by
    rw [List.append_assoc, back]
    exact List.takeWhile_append_dropWhile
  have trimmed : Trimmed (trim s) := by
    by_cases empty : trim s = []
    · rw [empty]
      exact .nil
    · have first : (trim s).head? = rest.head? := by
        rw [← back, List.head?_append_of_ne_nil _ empty]
      constructor
      · rw [first]
        exact isBlank_head?_dropWhile
      · rw [trim, List.getLast?_reverse]
        exact isBlank_head?_dropWhile
  have trims := Trims.around (blank_takeWhile s) trimmed (blank_takeWhile rest.reverse).reverse
  rwa [whole] at trims

theorem Trims.pad {before s after core : List Char} (blank : Blank before) (trims : Trims s core)
    (blank' : Blank after) : Trims (before ++ s ++ after) core := by
  cases trims with
  | @around inner _ inner' first trimmed last =>
    have whole : before ++ (inner ++ core ++ inner') ++ after =
        before ++ inner ++ core ++ (inner' ++ after) := by simp
    rw [whole]
    exact .around (blank.append first) trimmed (last.append blank')

theorem trim_pad {before after : List Char} (blank : Blank before) (s : List Char)
    (blank' : Blank after) : trim (before ++ s ++ after) = trim s :=
  ((trims_trim s).pad blank blank').trim_eq

theorem trim_eq_iff {s core : List Char} : trim s = core ↔ Trims s core := by
  constructor
  · rintro rfl
    exact trims_trim s
  · exact Trims.trim_eq

end VirtualClock.Text

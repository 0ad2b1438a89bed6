import Mathlib.Data.List.Nodup

/-!
Lists whose entries are told apart by a key, lists in which the entries with a property come
first, and lists in ascending order of a key. Erasing a key or cutting at the first entry without
the property are filters there, halving finds where to cut, and a list in order is told by its
entries at each key.
-/

namespace VirtualClock.Keyed

variable {α κ : Type}

section Keys

variable {key : α → κ} {l : List α}

theorem eq_of_mem (distinct : (l.map key).Nodup) {a b : α} (ha : a ∈ l) (hb : b ∈ l)
    (same : key a = key b) : a = b :=
  List.inj_on_of_nodup_map distinct ha hb same

variable [BEq κ] [LawfulBEq κ]

theorem eraseP_eq_filter (distinct : (l.map key).Nodup) (k : κ) :
    l.eraseP (key · == k) = l.filter (key · != k) := by
  induction l with
  | nil => rfl
  | cons a l ih =>
    obtain ⟨fresh, rest⟩ := List.nodup_cons.mp distinct
    by_cases found : key a = k
    · have absent : ∀ b ∈ l, key b ≠ k := fun b hb same =>
        fresh (found ▸ same ▸ List.mem_map_of_mem hb)
      have kept : l.filter (key · != k) = l :=
        List.filter_eq_self.mpr fun b hb => by simpa using absent b hb
      simp [found, kept]
    · simp [found, ih rest]

theorem find?_eq_some_iff (distinct : (l.map key).Nodup) {k : κ} {a : α} :
    l.find? (key · == k) = some a ↔ a ∈ l ∧ key a = k := by
  constructor
  · intro found
    exact ⟨List.mem_of_find?_eq_some found, by simpa using List.find?_some found⟩
  · rintro ⟨member, rfl⟩
    cases found : l.find? (key · == key a) with
    | none => simpa using List.find?_eq_none.mp found a member
    | some b =>
      have same : key b = key a := by simpa using List.find?_some found
      rw [eq_of_mem distinct (List.mem_of_find?_eq_some found) member same]

omit [LawfulBEq κ] in
theorem nodup_eraseP (distinct : (l.map key).Nodup) (k : κ) :
    ((l.eraseP (key · == k)).map key).Nodup :=
  distinct.sublist (List.eraseP_sublist.map key)

end Keys

theorem eraseP_eq_erase [BEq α] [LawfulBEq α] {p : α → Bool} {l : List α} {a : α}
    (found : l.find? p = some a) : l.eraseP p = l.erase a := by
  induction l with
  | nil => cases found
  | cons b l ih =>
    by_cases holds : p b = true
    · rw [List.find?_cons_of_pos holds] at found
      obtain rfl := Option.some.inj found
      rw [List.eraseP_cons_of_pos holds, List.erase_cons_head]
    · rw [List.find?_cons_of_neg holds] at found
      have other : ¬(b == a) = true := by
        intro same
        rw [beq_iff_eq.mp same] at holds
        exact holds (List.find?_some found)
      rw [List.eraseP_cons_of_neg holds, List.erase_cons_tail other, ih found]

section Prefix

variable {p : α → Bool} {l : List α}

theorem takeWhile_eq_filter (first : l.Pairwise fun a b => p b → p a) :
    l.takeWhile p = l.filter p := by
  induction l with
  | nil => rfl
  | cons a l ih =>
    obtain ⟨head, rest⟩ := List.pairwise_cons.mp first
    by_cases ha : p a
    · simp [ha, ih rest]
    · have none : l.filter p = [] :=
        List.filter_eq_nil_iff.mpr fun b hb hp => ha (head b hb hp)
      simp [ha, none]

theorem dropWhile_eq_filter (first : l.Pairwise fun a b => p b → p a) :
    l.dropWhile p = l.filter (!p ·) := by
  induction l with
  | nil => rfl
  | cons a l ih =>
    obtain ⟨head, rest⟩ := List.pairwise_cons.mp first
    by_cases ha : p a
    · simp [ha, ih rest]
    · have all : l.filter (!p ·) = l :=
        List.filter_eq_self.mpr fun b hb => by
          simpa using fun hp => ha (head b hb hp)
      simp [ha, all]

section bisect

/-- Where the entries with the property end, looked for by halving from `low` to `high`. -/
def bisect (p : α → Bool) (l : List α) (low high : Nat) : Nat :=
  if low < high then
    if l[(low + high) / 2]?.any p then bisect p l ((low + high) / 2 + 1) high
    else bisect p l low ((low + high) / 2)
  else low
termination_by high - low

variable {front back : List α} (all : ∀ a ∈ front, p a = true) (none : ∀ a ∈ back, p a = false)

include all none in
theorem any_getElem?_iff {i : Nat} : (front ++ back)[i]?.any p = true ↔ i < front.length := by
  rw [Option.any_eq_true]
  constructor
  · rintro ⟨a, found, holds⟩
    by_contra behind
    rw [List.getElem?_append_right (Nat.le_of_not_lt behind)] at found
    simp [none a (List.mem_of_getElem? found)] at holds
  · intro inside
    refine ⟨front[i], ?_, all _ (List.getElem_mem inside)⟩
    rw [List.getElem?_append_left inside, List.getElem?_eq_getElem inside]

include all none in
/-- Halving comes to the end of the entries with the property where these come first. -/
theorem bisect_append {low high : Nat} (le : low ≤ front.length) (ge : front.length ≤ high) :
    bisect p (front ++ back) low high = front.length := by
  fun_induction bisect p (front ++ back) low high with
  | case1 low high apart holds ih =>
    have inside := (any_getElem?_iff all none).mp holds
    exact ih inside ge
  | case2 low high apart fails ih =>
    rw [any_getElem?_iff all none] at fails
    exact ih le (Nat.le_of_not_lt fails)
  | case3 low high met => omega

include all none in
theorem insertIdx_bisect (a : α) :
    (front ++ back).insertIdx (bisect p (front ++ back) 0 (front ++ back).length) a =
      front ++ a :: back := by
  rw [bisect_append all none (Nat.zero_le _) (by simp)]
  clear all none
  induction front with
  | nil => rfl
  | cons b front ih => exact congrArg (b :: ·) ih

end bisect

end Prefix

section Order

variable {key : α → κ} {l l' : List α} [DecidableEq κ]

theorem mem_iff_of_filter_eq (same : ∀ k, l.filter (key · = k) = l'.filter (key · = k)) {a : α} :
    a ∈ l ↔ a ∈ l' := by
  have entries := congrArg (a ∈ ·) (same (key a))
  simpa using entries

theorem eq_of_filter_eq [LE κ] (antisymm : ∀ a b : κ, a ≤ b → b ≤ a → a = b)
    (sorted : l.Pairwise fun a b => key a ≤ key b)
    (sorted' : l'.Pairwise fun a b => key a ≤ key b)
    (same : ∀ k, l.filter (key · = k) = l'.filter (key · = k)) : l = l' := by
  induction l generalizing l' with
  | nil =>
    refine (List.eq_nil_iff_forall_not_mem.mpr fun b member => ?_).symm
    cases (mem_iff_of_filter_eq same).mpr member
  | cons a l ih =>
    have ahead := (mem_iff_of_filter_eq same).mp (List.mem_cons_self (a := a) (l := l))
    cases l' with
    | nil => cases ahead
    | cons b l' =>
      have behind := (mem_iff_of_filter_eq same).mpr (List.mem_cons_self (a := b) (l := l'))
      rw [List.pairwise_cons] at sorted sorted'
      -- both heads have the least key, so each heads the entries at that key
      have level : key a = key b := by
        rcases List.mem_cons.mp ahead with rfl | ahead
        · rfl
        · rcases List.mem_cons.mp behind with rfl | behind
          · rfl
          · exact antisymm _ _ (sorted.1 b behind) (sorted'.1 a ahead)
      have heads := same (key a)
      rw [List.filter_cons_of_pos (by simp), List.filter_cons_of_pos (by simp [level])] at heads
      obtain rfl := (List.cons.inj heads).1
      refine congrArg (a :: ·) (ih sorted.2 sorted'.2 fun k => ?_)
      have whole := same k
      by_cases here : key a = k
      · rw [List.filter_cons_of_pos (by simp [here]),
          List.filter_cons_of_pos (by simp [here])] at whole
        exact (List.cons.inj whole).2
      · rwa [List.filter_cons_of_neg (by simp [here]),
          List.filter_cons_of_neg (by simp [here])] at whole

end Order

end VirtualClock.Keyed

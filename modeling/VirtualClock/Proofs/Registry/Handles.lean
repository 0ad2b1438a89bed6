import VirtualClock.Proofs.Keyed
import VirtualClock.Registry

/-!
The handles of a registry: pairwise distinct, and all below the next one to be given.
-/

namespace VirtualClock.Registry

variable {r : Registry} {h : TimerHandle}

structure Numbered (r : Registry) : Prop where
  distinct : r.handles.Nodup
  lt_next : ∀ h ∈ r.handles, h.index < r.next

theorem find?_isSome_iff : (r.find? h).isSome ↔ h ∈ r.handles := by
  simp [find?, handles]

theorem find?_eq_none_iff : r.find? h = none ↔ h ∉ r.handles := by
  rw [← find?_isSome_iff]
  cases r.find? h <;> simp

theorem size_eq_length_handles (r : Registry) : r.size = r.handles.length := by
  simp [size, handles]

@[simp] theorem handles_add (r : Registry) (callback : Callback) :
    (r.add callback).handles = r.handles ++ [⟨r.next⟩] := by
  simp [handles, add]

theorem next_not_mem_handles (numbered : r.Numbered) : (⟨r.next⟩ : TimerHandle) ∉ r.handles :=
  fun member => Nat.lt_irrefl _ (numbered.lt_next _ member)

theorem Numbered.add (numbered : r.Numbered) (callback : Callback) :
    (r.add callback).Numbered where
  distinct := by
    rw [handles_add]
    refine numbered.distinct.append (by simp) ?_
    intro h old new
    rw [List.mem_singleton.mp new] at old
    exact next_not_mem_handles numbered old
  lt_next h member := by
    rw [handles_add] at member
    rcases List.mem_append.mp member with old | new
    · exact Nat.lt_succ_of_lt (numbered.lt_next h old)
    · rw [List.mem_singleton.mp new]
      exact Nat.lt_succ_self _

theorem handles_erase (r : Registry) (h : TimerHandle) :
    (r.erase h).handles = r.handles.erase h := by
  rw [handles, handles, List.erase_eq_eraseP', List.eraseP_map]
  rfl

theorem Numbered.erase (numbered : r.Numbered) (h : TimerHandle) : (r.erase h).Numbered where
  distinct := by
    rw [handles_erase]
    exact numbered.distinct.erase h
  lt_next g member := by
    rw [handles_erase] at member
    exact numbered.lt_next g (List.mem_of_mem_erase member)

theorem handles_modify (r : Registry) (h : TimerHandle) {f : Registration → Registration}
    (same : ∀ e, (f e).handle = e.handle) : (r.modify h f).handles = r.handles := by
  rw [handles, modify, List.map_map, handles]
  apply List.map_congr_left
  intro e _
  simp only [Function.comp_apply]
  split
  · exact same e
  · rfl

@[simp] theorem handles_setSource (r : Registry) (h : TimerHandle) (source : Option Nat) :
    (r.setSource h source).handles = r.handles :=
  handles_modify r h fun _ => rfl

@[simp] theorem handles_markFired (r : Registry) (h : TimerHandle) :
    (r.markFired h).handles = r.handles :=
  handles_modify r h fun _ => rfl

theorem Numbered.setSource (numbered : r.Numbered) (h : TimerHandle) (source : Option Nat) :
    (r.setSource h source).Numbered :=
  ⟨by rw [handles_setSource]; exact numbered.distinct,
    by rw [handles_setSource]; exact numbered.lt_next⟩

theorem Numbered.markFired (numbered : r.Numbered) (h : TimerHandle) : (r.markFired h).Numbered :=
  ⟨by rw [handles_markFired]; exact numbered.distinct,
    by rw [handles_markFired]; exact numbered.lt_next⟩

end VirtualClock.Registry

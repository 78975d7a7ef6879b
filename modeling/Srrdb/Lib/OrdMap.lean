/-
Srrdb.Lib.OrdMap — what ordered maps and their lists of entries have to do
with each other.

`Std.ExtTreeMap` is extensional, so an update is specified by its lookups.
A program that walks a map, or builds one from a list, works with the list of
entries instead. The lemmas here relate the two: the entries of a map have
distinct keys and determine the map, an insertion of a new key adds one entry
and an erasure takes one away, up to the order of the list.
-/
import Std.Data.ExtTreeMap
import Mathlib.Data.List.Perm.Lattice
import Mathlib.Data.List.Nodup

namespace Srrdb.Lib.OrdMap

open Std

variable {κ ν : Type} [Ord κ] [TransOrd κ] [LawfulEqOrd κ]

/-! ## Entries determine the map -/

theorem mem_toList {m : ExtTreeMap κ ν} {e : κ × ν} : e ∈ m.toList ↔ m[e.1]? = some e.2 :=
  ExtTreeMap.mem_toList_iff_getElem?_eq_some

theorem pairwise_ne_toList (m : ExtTreeMap κ ν) :
    m.toList.Pairwise fun a b => a.1 ≠ b.1 :=
  m.distinct_keys_toList.imp fun h heq => h (by rw [heq]; exact ReflCmp.compare_self)

theorem nodup_toList (m : ExtTreeMap κ ν) : m.toList.Nodup :=
  (pairwise_ne_toList m).imp fun h heq => h (congrArg Prod.fst heq)

theorem ofList_toList (m : ExtTreeMap κ ν) : ExtTreeMap.ofList m.toList = m := by
  classical
  refine ExtTreeMap.ext_getElem? fun k => ?_
  cases h : m[k]? with
  | some v =>
    exact ExtTreeMap.getElem?_ofList_of_mem ReflCmp.compare_self m.distinct_keys_toList
      (mem_toList.mpr h)
  | none =>
    have hk : (m.toList.map Prod.fst).contains k = false := by
      simp only [List.contains_eq_mem, decide_eq_false_iff_not, List.mem_map, not_exists, not_and]
      rintro e he rfl
      rw [mem_toList, h] at he
      cases he
    exact ExtTreeMap.getElem?_ofList_of_contains_eq_false hk

/-- Two lists of entries without a common key twice are the same up to order
when they have the same members. -/
theorem toList_perm {m : ExtTreeMap κ ν} {l : List (κ × ν)} (hl : l.Nodup)
    (h : ∀ e : κ × ν, m[e.1]? = some e.2 ↔ e ∈ l) : m.toList.Perm l :=
  (List.perm_ext_iff_of_nodup (nodup_toList m) hl).mpr fun e => mem_toList.trans (h e)

/-! ## One entry more, one entry less -/

theorem toList_insert_perm {m : ExtTreeMap κ ν} {k : κ} (hk : m[k]? = none) (v : ν) :
    (m.insert k v).toList.Perm ((k, v) :: m.toList) := by
  refine toList_perm (List.nodup_cons.mpr ⟨fun h => ?_, nodup_toList m⟩) fun e => ?_
  · rw [mem_toList, hk] at h
    cases h
  · obtain ⟨k', v'⟩ := e
    simp only [List.mem_cons, mem_toList, ExtTreeMap.getElem?_insert,
      LawfulEqCmp.compare_eq_iff_eq]
    by_cases hkk : k = k'
    · subst hkk
      simp [hk, eq_comm]
    · simp [hkk, Ne.symm hkk]

theorem toList_erase_perm {m : ExtTreeMap κ ν} {k : κ} {v : ν} (hk : m[k]? = some v) :
    m.toList.Perm ((k, v) :: (m.erase k).toList) := by
  refine toList_perm (List.nodup_cons.mpr ⟨fun h => ?_, nodup_toList _⟩) fun e => ?_
  · rw [mem_toList, ExtTreeMap.getElem?_erase, if_pos ReflCmp.compare_self] at h
    cases h
  · obtain ⟨k', v'⟩ := e
    simp only [List.mem_cons, mem_toList, ExtTreeMap.getElem?_erase,
      LawfulEqCmp.compare_eq_iff_eq]
    by_cases hkk : k = k'
    · subst hkk
      simp [hk, eq_comm]
    · simp [hkk, Ne.symm hkk]

/-! ## Loops of updates

A loop that updates one key for each element of a list. A key the loop does
not touch keeps its value, and when the keys are distinct each one is updated
once. -/

section Loops

variable {β : Type}

theorem getElem?_foldl_insert_of_notMem (key : β → κ) (val : β → ν) {l : List β} {k : κ}
    (h : k ∉ l.map key) (m : ExtTreeMap κ ν) :
    (l.foldl (fun m b => m.insert (key b) (val b)) m)[k]? = m[k]? := by
  induction l generalizing m with
  | nil => rfl
  | cons b rest ih =>
    rw [List.map_cons, List.mem_cons, not_or] at h
    rw [List.foldl_cons, ih h.2, ExtTreeMap.getElem?_insert, if_neg]
    rw [LawfulEqCmp.compare_eq_iff_eq]
    exact Ne.symm h.1

theorem getElem?_foldl_insert_of_mem (key : β → κ) (val : β → ν) {l : List β}
    (hnd : (l.map key).Nodup) {b : β} (h : b ∈ l) (m : ExtTreeMap κ ν) :
    (l.foldl (fun m b => m.insert (key b) (val b)) m)[key b]? = some (val b) := by
  induction l generalizing m with
  | nil => cases h
  | cons first rest ih =>
    rw [List.map_cons, List.nodup_cons] at hnd
    rw [List.foldl_cons]
    rcases List.mem_cons.mp h with rfl | h
    · rw [getElem?_foldl_insert_of_notMem key val hnd.1]
      exact ExtTreeMap.getElem?_insert_self
    · exact ih hnd.2 h _

theorem getElem?_foldl_alter_of_notMem (key : β → κ) (f : β → Option ν → Option ν) {l : List β}
    {k : κ} (h : k ∉ l.map key) (m : ExtTreeMap κ ν) :
    (l.foldl (fun m b => m.alter (key b) (f b)) m)[k]? = m[k]? := by
  induction l generalizing m with
  | nil => rfl
  | cons b rest ih =>
    rw [List.map_cons, List.mem_cons, not_or] at h
    rw [List.foldl_cons, ih h.2, ExtTreeMap.getElem?_alter, if_neg]
    rw [LawfulEqCmp.compare_eq_iff_eq]
    exact Ne.symm h.1

theorem getElem?_foldl_alter_of_mem (key : β → κ) (f : β → Option ν → Option ν) {l : List β}
    (hnd : (l.map key).Nodup) {b : β} (h : b ∈ l) (m : ExtTreeMap κ ν) :
    (l.foldl (fun m b => m.alter (key b) (f b)) m)[key b]? = f b m[key b]? := by
  induction l generalizing m with
  | nil => cases h
  | cons first rest ih =>
    rw [List.map_cons, List.nodup_cons] at hnd
    rw [List.foldl_cons]
    rcases List.mem_cons.mp h with rfl | h
    · rw [getElem?_foldl_alter_of_notMem key f hnd.1, ExtTreeMap.getElem?_alter,
        if_pos ReflCmp.compare_self]
    · have hne : key first ≠ key b := fun heq => hnd.1 (heq ▸ List.mem_map_of_mem h)
      rw [ih hnd.2 h, ExtTreeMap.getElem?_alter, if_neg]
      rwa [LawfulEqCmp.compare_eq_iff_eq]

end Loops

end Srrdb.Lib.OrdMap

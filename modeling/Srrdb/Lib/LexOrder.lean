/-
Srrdb.Lib.LexOrder — ranges of lists under the lexicographic order.

The lists between `p ++ [a]`, included, and `p ++ [b]`, excluded, are those
that go on from `p` with an element between `a` and `b` (`between_iff`). When
`b` is the immediate successor of `a` (`Follows`) these are the lists that start
with `p ++ [a]`. A list is followed by itself with the least element at its end,
and so is a string.
-/
import Mathlib.Order.Defs.LinearOrder
import Std.Data.ExtTreeMap

namespace Srrdb.Lib.LexOrder

open Std

variable {α : Type} [Ord α]

/-- `b` comes right after `a`. -/
def Follows (a b : α) : Prop :=
  compare a b = .lt ∧ ∀ c, (compare a c).isLE → compare c b = .lt → c = a

/-! ## Lists with a common start -/

theorem compare_append_left [ReflOrd α] (p k k' : List α) :
    compare (p ++ k) (p ++ k') = compare k k' := by
  induction p with
  | nil => rfl
  | cons a p ih =>
    rw [List.cons_append, List.cons_append, List.compare_cons_cons, ReflOrd.compare_self, ih]
    rfl

theorem isLE_nil (k : List α) : (compare [] k).isLE := by
  cases k with
  | nil => rfl
  | cons a k => rfl

theorem compare_nil_ne_lt (k : List α) : compare k [] ≠ .lt := by
  cases k with
  | nil => exact nofun
  | cons a k => exact nofun

variable [TransOrd α] [LawfulEqOrd α]

/-- What lies between two lists with the same head has that head too. -/
theorem between_cons {x y : α} {l l' k : List α} (hlow : (compare (x :: l) (y :: k)).isLE)
    (hhigh : compare (y :: k) (x :: l') = .lt) :
    x = y ∧ (compare l k).isLE ∧ compare k l' = .lt := by
  rw [List.compare_cons_cons] at hlow hhigh
  have hxy : (compare x y).isLE := (Ordering.isLE_then_iff_and.mp hlow).1
  have hyx : (compare y x).isLE := by
    rcases Ordering.then_eq_lt.mp hhigh with hlt | ⟨heq, _⟩
    · rw [hlt]; rfl
    · rw [heq]; rfl
  obtain rfl : x = y := LawfulEqOrd.eq_of_compare (OrientedCmp.isLE_antisymm hxy hyx)
  rw [ReflOrd.compare_self, Ordering.eq_then] at hlow hhigh
  exact ⟨rfl, hlow, hhigh⟩

/-- The lists between two lists that differ in their last elements only. -/
theorem between_iff {p k : List α} {a b : α} :
    (compare (p ++ [a]) k).isLE ∧ compare k (p ++ [b]) = .lt ↔
      ∃ c rest, k = p ++ c :: rest ∧ (compare a c).isLE ∧ compare c b = .lt := by
  constructor
  · rintro ⟨hlow, hhigh⟩
    induction p generalizing k with
    | nil =>
      cases k with
      | nil => cases hlow
      | cons c rest =>
        rw [List.nil_append, List.compare_cons_cons] at hlow hhigh
        refine ⟨c, rest, rfl, (Ordering.isLE_then_iff_and.mp hlow).1, ?_⟩
        rcases Ordering.then_eq_lt.mp hhigh with hlt | ⟨_, hnil⟩
        · exact hlt
        · exact (compare_nil_ne_lt rest hnil).elim
    | cons x p ih =>
      cases k with
      | nil => cases hlow
      | cons y k =>
        obtain ⟨rfl, hlow, hhigh⟩ := between_cons hlow hhigh
        obtain ⟨c, rest, rfl, hac, hcb⟩ := ih hlow hhigh
        exact ⟨c, rest, rfl, hac, hcb⟩
  · rintro ⟨c, rest, rfl, hac, hcb⟩
    rw [compare_append_left, compare_append_left, List.compare_cons_cons, List.compare_cons_cons,
      hcb]
    exact ⟨Ordering.isLE_then_iff_and.mpr ⟨hac, .inr (isLE_nil rest)⟩, rfl⟩

/-! ## Immediate successors -/

/-- Nothing comes between a list and itself with the least element at the end. -/
theorem follows_concat {least : α} (h : ∀ a : α, (compare least a).isLE) (l : List α) :
    Follows l (l ++ [least]) := by
  constructor
  · have hcompare := compare_append_left l [] [least]
    rw [List.append_nil] at hcompare
    rw [hcompare]
    rfl
  · intro k hlow hhigh
    induction l generalizing k with
    | nil =>
      cases k with
      | nil => rfl
      | cons c rest =>
        rw [List.nil_append, List.compare_cons_cons] at hhigh
        rcases Ordering.then_eq_lt.mp hhigh with hlt | ⟨_, hnil⟩
        · -- nothing is before the least element
          have hle := h c
          rw [OrientedCmp.gt_of_lt hlt] at hle
          cases hle
        · exact (compare_nil_ne_lt rest hnil).elim
    | cons a l ih =>
      cases k with
      | nil => cases hlow
      | cons c rest =>
        obtain ⟨rfl, hlow, hhigh⟩ := between_cons hlow hhigh
        rw [ih rest hlow hhigh]

/-! ## Strings -/

theorem compare_char_eq_lt {a b : Char} : compare a b = .lt ↔ a < b := compareOfLessAndEq_eq_lt

/-- Strings compare as their characters do. -/
theorem compare_string (s t : String) : compare s t = compare s.toList t.toList := by
  have hlist : ∀ l l' : List Char, compare l l' = .lt ↔ l < l' := by
    intro l
    induction l with
    | nil =>
      intro l'
      cases l' with
      | nil => exact iff_of_false nofun (List.lt_irrefl _)
      | cons b l' => exact iff_of_true rfl (List.nil_lt_cons b l')
    | cons a l ih =>
      intro l'
      cases l' with
      | nil => exact iff_of_false nofun (List.not_lt_nil _)
      | cons b l' =>
        rw [List.compare_cons_cons, Ordering.then_eq_lt, List.cons_lt_cons_iff,
          compare_char_eq_lt, ih, LawfulEqOrd.compare_eq_iff_eq]
  have hlt : ∀ s t : String, compare s t = .lt ↔ compare s.toList t.toList = .lt := fun s t =>
    compareOfLessAndEq_eq_lt.trans (hlist _ _).symm
  cases h : compare s t with
  | lt => exact ((hlt s t).mp h).symm
  | eq => rw [LawfulEqOrd.eq_of_compare h, ReflOrd.compare_self]
  | gt => exact (OrientedCmp.gt_of_lt ((hlt t s).mp (OrientedCmp.lt_of_gt h))).symm

/-- Nothing comes between a string and itself with the character 0 at the end. -/
theorem follows_push (s : String) : Follows s (s.push (Char.ofNat 0)) := by
  have hzero : ∀ c : Char, (compare (Char.ofNat 0) c).isLE := by
    intro c
    cases h : compare (Char.ofNat 0) c with
    | lt => rfl
    | eq => rfl
    | gt => exact (Nat.not_lt_zero _ (compare_char_eq_lt.mp (OrientedCmp.lt_of_gt h))).elim
  obtain ⟨hlt, hnone⟩ := follows_concat hzero s.toList
  refine ⟨?_, fun t hlow hhigh => String.toList_inj.mp (hnone t.toList ?_ ?_)⟩
  · rw [compare_string, String.toList_push]
    exact hlt
  · rw [← compare_string]
    exact hlow
  · rw [← String.toList_push, ← compare_string]
    exact hhigh

end Srrdb.Lib.LexOrder

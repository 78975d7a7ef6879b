/-
Srrdb.Lib.StableSort — stable sorting, by one comparison and by several.

Sorting asks of a comparison that it is a total preorder on the elements of
the list at hand, not on the whole type. Then the sorted list is a permutation
in order, and elements that compare equal keep their places to each other.
Sorting by one comparison after another, the least important first, sorts by
the lexicographic comparison. Where a comparison is no total preorder, a sort
of the standard library leaves the order open, and may panic (`Sorts`).
-/
import Mathlib.Data.List.Pairwise

namespace Srrdb.Lib

variable {α : Type*}

/-- A comparison is a total preorder on the elements of a list. -/
structure PreorderOn (cmp : α → α → Ordering) (l : List α) : Prop where
  swap : ∀ a ∈ l, ∀ b ∈ l, cmp b a = (cmp a b).swap
  trans : ∀ a ∈ l, ∀ b ∈ l, ∀ c ∈ l, cmp a b ≠ .gt → cmp b c ≠ .gt → cmp a c ≠ .gt

/-- A list is another one sorted, with equal elements in their old order. -/
structure SortedBy (cmp : α → α → Ordering) (l sorted : List α) : Prop where
  perm : sorted.Perm l
  ordered : sorted.Pairwise fun a b => cmp a b ≠ .gt
  stable : ∀ a ∈ l, sorted.filter (fun b => cmp a b == .eq) = l.filter fun b => cmp a b == .eq

def stableSort (cmp : α → α → Ordering) (l : List α) : List α :=
  l.mergeSort fun a b => cmp a b != .gt

section Preorder

variable {cmp : α → α → Ordering} {l : List α}

theorem PreorderOn.perm (h : PreorderOn cmp l) {l' : List α} (hp : l'.Perm l) :
    PreorderOn cmp l' where
  swap a ha b hb := h.swap a (hp.mem_iff.mp ha) b (hp.mem_iff.mp hb)
  trans a ha b hb c hc :=
    h.trans a (hp.mem_iff.mp ha) b (hp.mem_iff.mp hb) c (hp.mem_iff.mp hc)

theorem PreorderOn.refl (h : PreorderOn cmp l) {a : α} (ha : a ∈ l) : cmp a a = .eq := by
  have := h.swap a ha a ha
  cases hcmp : cmp a a <;> simp [hcmp] at this ⊢

theorem PreorderOn.total (h : PreorderOn cmp l) {a b : α} (ha : a ∈ l) (hb : b ∈ l) :
    cmp a b ≠ .gt ∨ cmp b a ≠ .gt := by
  rw [h.swap a ha b hb]
  cases cmp a b <;> simp

/-- Elements equal to a third are in order. -/
theorem PreorderOn.class (h : PreorderOn cmp l) {a b c : α} (ha : a ∈ l) (hb : b ∈ l) (hc : c ∈ l)
    (hab : cmp a b = .eq) (hac : cmp a c = .eq) : cmp b c ≠ .gt := by
  refine h.trans b hb a ha c hc ?_ (by simp [hac])
  rw [h.swap a ha b hb, hab]
  simp

/-- The other way round. -/
theorem PreorderOn.flip (h : PreorderOn cmp l) : PreorderOn (fun a b => cmp b a) l where
  swap a ha b hb := h.swap b hb a ha
  trans a ha b hb c hc hab hbc := h.trans c hc b hb a ha hbc hab

/-- Elements compared by an image. -/
theorem preorderOn_map_iff {β : Type*} {f : β → α} {l : List β} :
    PreorderOn (fun a b => cmp (f a) (f b)) l ↔ PreorderOn cmp (l.map f) := by
  constructor
  · intro h
    refine ⟨?_, ?_⟩ <;> simp only [List.forall_mem_map]
    · exact h.swap
    · exact h.trans
  · intro h
    have hmem : ∀ a ∈ l, f a ∈ l.map f := fun a ha => List.mem_map_of_mem ha
    exact ⟨fun a ha b hb => h.swap _ (hmem a ha) _ (hmem b hb),
      fun a ha b hb c hc => h.trans _ (hmem a ha) _ (hmem b hb) _ (hmem c hc)⟩

end Preorder

/-! ## One comparison -/

/-- A stable sort keeps the elements of a class that is in order anyway. -/
theorem filter_mergeSort {le : α → α → Bool} (htrans : ∀ a b c, le a b → le b c → le a c)
    (htotal : ∀ a b, le a b || le b a) {p : α → Bool} (hp : ∀ a b, p a → p b → le a b)
    (l : List α) : (l.mergeSort le).filter p = l.filter p := by
  have hclass : (l.filter p).Pairwise fun a b => le a b = true := by
    refine List.pairwise_of_forall_mem_list fun a ha b hb => ?_
    exact hp a b (List.mem_filter.mp ha).2 (List.mem_filter.mp hb).2
  have hsub : (l.filter p).Sublist (l.mergeSort le) :=
    List.sublist_mergeSort htrans htotal hclass List.filter_sublist
  have hsub' := hsub.filter p
  simp only [List.filter_filter, Bool.and_self] at hsub'
  refine (hsub'.eq_of_length ?_).symm
  exact ((List.mergeSort_perm l le).filter p).length_eq.symm

theorem sortedBy_stableSort {cmp : α → α → Ordering} {l : List α} (h : PreorderOn cmp l) :
    SortedBy cmp l (stableSort cmp l) := by
  -- on the elements of the list alone the comparison is total and transitive
  let le : {a // a ∈ l} → {a // a ∈ l} → Bool := fun a b => cmp a b != .gt
  have htrans : ∀ a b c, le a b → le b c → le a c := by
    intro a b c hab hbc
    simp only [le, bne_iff_ne] at hab hbc ⊢
    exact h.trans a a.2 b b.2 c c.2 hab hbc
  have htotal : ∀ a b, le a b || le b a := by
    intro a b
    simpa only [le, Bool.or_eq_true, bne_iff_ne] using h.total a.2 b.2
  have hmap : (l.attach.mergeSort le).map (·.1) = stableSort cmp l := by
    rw [List.map_mergeSort (s := fun a b => cmp a b != .gt) fun _ _ _ _ => rfl,
      List.attach_map_subtype_val, stableSort]
  refine ⟨List.mergeSort_perm l _, ?_, fun a ha => ?_⟩
  · rw [← hmap, List.pairwise_map]
    exact (List.pairwise_mergeSort htrans htotal l.attach).imp fun hab => by
      simpa only [le, bne_iff_ne] using hab
  · have hclass : ∀ b c : {a // a ∈ l}, cmp a b == .eq → cmp a c == .eq → le b c := by
      intro b c hb hc
      simp only [le, bne_iff_ne]
      exact h.class ha b.2 c.2 (beq_iff_eq.mp hb) (beq_iff_eq.mp hc)
    have hfilter := filter_mergeSort htrans htotal hclass l.attach
    have hcomm : ∀ m : List {a // a ∈ l},
        (m.map (·.1)).filter (fun b => cmp a b == .eq) =
          (m.filter fun b : {a // a ∈ l} => cmp a b == .eq).map (·.1) :=
      fun m => List.filter_map
    calc (stableSort cmp l).filter (fun b => cmp a b == .eq)
        = ((l.attach.mergeSort le).filter fun b : {a // a ∈ l} => cmp a b == .eq).map (·.1) := by
          rw [← hmap, hcomm]
      _ = (l.attach.filter fun b : {a // a ∈ l} => cmp a b == .eq).map (·.1) := by rw [hfilter]
      _ = l.filter fun b => cmp a b == .eq := by rw [← hcomm, List.attach_map_subtype_val]

/-! ## Several comparisons -/

/-- Sorting what is sorted by a lesser key sorts by both. -/
theorem SortedBy.then {cmp₁ cmp₂ : α → α → Ordering} {l m s : List α} (hpre : PreorderOn cmp₁ l)
    (hm : SortedBy cmp₂ l m) (hs : SortedBy cmp₁ m s) : SortedBy (compareLex cmp₁ cmp₂) l s where
  perm := hs.perm.trans hm.perm
  ordered := by
    rw [List.pairwise_iff_forall_sublist]
    intro a b hab
    have ha : a ∈ m := hs.perm.mem_iff.mp (hab.subset (by simp))
    have hle : cmp₁ a b ≠ .gt := List.pairwise_iff_forall_sublist.mp hs.ordered hab
    cases hcmp : cmp₁ a b with
    | lt => simp [compareLex, hcmp]
    | gt => exact absurd hcmp hle
    | eq =>
      -- the two stand in the class of the first as they stood before
      have hself := hpre.refl (hm.perm.mem_iff.mp ha)
      have hclass : [a, b].filter (fun c => cmp₁ a c == .eq) = [a, b] := by simp [hself, hcmp]
      have hsub := hab.filter fun c => cmp₁ a c == .eq
      rw [hclass, hs.stable a ha] at hsub
      have hle₂ := List.pairwise_iff_forall_sublist.mp hm.ordered (hsub.trans List.filter_sublist)
      simpa [compareLex, hcmp] using hle₂
  stable a ha := by
    have hsplit : ∀ k : List α, k.filter (fun b => compareLex cmp₁ cmp₂ a b == .eq) =
        (k.filter fun b => cmp₁ a b == .eq).filter fun b => cmp₂ a b == .eq := by
      intro k
      rw [List.filter_filter]
      refine List.filter_congr fun b _ => ?_
      rw [Bool.eq_iff_iff]
      simp [compareLex, Ordering.then_eq_eq, and_comm]
    have hcomm : ∀ k : List α,
        (k.filter fun b => cmp₁ a b == .eq).filter (fun b => cmp₂ a b == .eq) =
          (k.filter fun b => cmp₂ a b == .eq).filter fun b => cmp₁ a b == .eq := by
      intro k
      simp only [List.filter_filter, Bool.and_comm]
    rw [hsplit, hs.stable a (hm.perm.mem_iff.mpr ha), hcomm, hm.stable a ha, ← hcomm, ← hsplit]

/-- The comparison by the first key that tells two elements apart. -/
def compareKeys (keys : List (α → α → Ordering)) : α → α → Ordering :=
  keys.foldr compareLex fun _ _ => .eq

/-- Sort by each key, the last one first. -/
def sortKeys (keys : List (α → α → Ordering)) (l : List α) : List α :=
  keys.foldr stableSort l

theorem sortedBy_sortKeys {keys : List (α → α → Ordering)} {l : List α}
    (h : ∀ key ∈ keys, PreorderOn key l) : SortedBy (compareKeys keys) l (sortKeys keys l) := by
  induction keys with
  | nil => exact ⟨.refl l, List.pairwise_of_forall fun _ _ => by simp [compareKeys], fun _ _ => rfl⟩
  | cons key keys ih =>
    have hm := ih fun k hk => h k (List.mem_cons_of_mem key hk)
    have hkey := h key List.mem_cons_self
    exact hm.then hkey (sortedBy_stableSort (hkey.perm hm.perm))

/-! ## Sorts of the standard library -/

/-- What a stable sort comes to; none is a panic. Only where the comparison is a
total preorder on the elements is the list sorted. -/
inductive Sorts (cmp : α → α → Ordering) (l : List α) : Option (List α) → Prop
  | sorted {s : List α} (h : PreorderOn cmp l) (hs : SortedBy cmp l s) : Sorts cmp l (some s)
  | unordered {s : List α} (h : ¬ PreorderOn cmp l) (hs : s.Perm l) : Sorts cmp l (some s)
  | panicked (h : ¬ PreorderOn cmp l) : Sorts cmp l none

/-- Such a sort by each key, the last one first. -/
inductive SortsByKeys (l : List α) : List (α → α → Ordering) → Option (List α) → Prop
  | nil : SortsByKeys l [] (some l)
  | cons {key : α → α → Ordering} {keys : List (α → α → Ordering)} {m : List α}
      {s : Option (List α)} (hm : SortsByKeys l keys (some m)) (hs : Sorts key m s) :
      SortsByKeys l (key :: keys) s
  | panicked {key : α → α → Ordering} {keys : List (α → α → Ordering)}
      (hm : SortsByKeys l keys none) : SortsByKeys l (key :: keys) none

theorem sorts_stableSort (cmp : α → α → Ordering) (l : List α) :
    Sorts cmp l (some (stableSort cmp l)) := by
  by_cases h : PreorderOn cmp l
  · exact .sorted h (sortedBy_stableSort h)
  · exact .unordered h (List.mergeSort_perm l _)

theorem sortsByKeys_sortKeys (keys : List (α → α → Ordering)) (l : List α) :
    SortsByKeys l keys (some (sortKeys keys l)) := by
  induction keys with
  | nil => exact .nil
  | cons key keys ih => exact .cons ih (sorts_stableSort key _)

/-- Where every key is a total preorder, the list is sorted by all of them. -/
theorem SortsByKeys.sortedBy {keys : List (α → α → Ordering)} {l : List α} {s : Option (List α)}
    (h : SortsByKeys l keys s) (hkeys : ∀ key ∈ keys, PreorderOn key l) :
    ∃ sorted, s = some sorted ∧ SortedBy (compareKeys keys) l sorted := by
  induction h with
  | nil =>
    refine ⟨l, rfl, .refl l, ?_, fun _ _ => rfl⟩
    exact List.pairwise_of_forall fun _ _ => by simp [compareKeys]
  | cons hm hs ih =>
    rw [List.forall_mem_cons] at hkeys
    obtain ⟨sorted, heq, hsorted⟩ := ih hkeys.2
    cases heq
    have hpre := hkeys.1.perm hsorted.perm
    cases hs with
    | sorted _ hs => exact ⟨_, rfl, hsorted.then hkeys.1 hs⟩
    | unordered h _ | panicked h => exact absurd hpre h
  | panicked _ ih =>
    obtain ⟨sorted, heq, -⟩ := ih fun k hk => hkeys k (List.mem_cons_of_mem _ hk)
    cases heq

/-! ## Elements of two kinds -/

section Mixed

variable {ι β κ : Type*} [Ord ι] [Ord κ]

/-- Elements of the first kind have an order of their own; with the others, and
these among themselves, they are compared by keys. -/
def compareMixed (key : ι → κ) (key' : β → κ) : ι ⊕ β → ι ⊕ β → Ordering
  | .inl i, .inl j => compare i j
  | .inl i, .inr b => compare (key i) (key' b)
  | .inr b, .inl i => compare (key' b) (key i)
  | .inr b, .inr c => compare (key' b) (key' c)

variable [Std.TransOrd κ] {key : ι → κ} {key' : β → κ}

/-- No cycle in a transitive order. -/
theorem no_cycle {x y z : κ} (hxz : compare x z = .gt) (hxy : compare x y ≠ .gt)
    (hyz : compare y z ≠ .gt) : False := by
  have hle := Std.TransCmp.isLE_trans (Ordering.isLE_iff_ne_gt.mpr hxy)
    (Ordering.isLE_iff_ne_gt.mpr hyz)
  exact Ordering.isLE_iff_ne_gt.mp hle hxz

theorem compare_ne_gt_of_gt {x y : κ} (h : compare x y = .gt) : compare y x ≠ .gt := by
  have hswap : compare y x = (compare x y).swap := Std.OrientedCmp.eq_swap
  rw [hswap, h]
  simp

variable [Std.TransOrd ι] [Std.LawfulEqOrd ι]

omit [Std.TransOrd ι] in
/-- Where the keys are in the opposite order, the elements differ. -/
theorem compare_lt_of_key_gt {i j : ι} (hle : compare i j ≠ .gt)
    (hkey : compare (key i) (key j) = .gt) : compare i j = .lt := by
  cases hij : compare i j with
  | lt => rfl
  | gt => exact absurd hij hle
  | eq =>
    obtain rfl := Std.LawfulEqCmp.eq_of_compare hij
    exact absurd (hkey.symm.trans Std.ReflCmp.compare_self) (by simp)

/-- The comparison goes round in a circle only where two elements of the first
kind have keys in the opposite order, with a third key between them. -/
theorem compareMixed_cycle {x y z : ι ⊕ β} (hxz : compareMixed key key' x z = .gt)
    (hxy : compareMixed key key' x y ≠ .gt) (hyz : compareMixed key key' y z ≠ .gt) :
    ∃ i j b, compare i j = .lt ∧ compare (key j) (key' b) ≠ .gt ∧
      compare (key' b) (key i) ≠ .gt ∧
      Sum.inl i ∈ [x, y, z] ∧ Sum.inl j ∈ [x, y, z] ∧ Sum.inr b ∈ [x, y, z] := by
  match x, y, z with
  | .inl i, .inl j, .inr b =>
    have hkey : compare (key i) (key j) = .gt := by
      by_contra hkey
      exact no_cycle hxz hkey hyz
    exact ⟨i, j, b, compare_lt_of_key_gt hxy hkey, hyz, compare_ne_gt_of_gt hxz, by simp⟩
  | .inl i, .inr b, .inl k =>
    have hlt : compare k i = .lt := Std.OrientedCmp.eq_swap.trans (congrArg Ordering.swap hxz)
    exact ⟨k, i, b, hlt, hxy, hyz, by simp⟩
  | .inr b, .inl j, .inl k =>
    have hkey : compare (key j) (key k) = .gt := by
      by_contra hkey
      exact no_cycle hxz hxy hkey
    exact ⟨j, k, b, compare_lt_of_key_gt hyz hkey, compare_ne_gt_of_gt hxz, hxy, by simp⟩
  | .inl i, .inl j, .inl k => exact (no_cycle hxz hxy hyz).elim
  | .inl i, .inr b, .inr c => exact (no_cycle hxz hxy hyz).elim
  | .inr a, .inl j, .inr c => exact (no_cycle hxz hxy hyz).elim
  | .inr a, .inr b, .inl k => exact (no_cycle hxz hxy hyz).elim
  | .inr a, .inr b, .inr c => exact (no_cycle hxz hxy hyz).elim

end Mixed

end Srrdb.Lib

/-
Srrdb.Engine.OrderBy — when ORDER BY sorts.

`sort_rows` is a stable sort by each key, the last one first, so it sorts by
all of them if the comparison of each key is a total preorder on the rows.
`value_cmp` goes round in circles in three ways: values it cannot compare,
such as NULL, count as equal to everything; two integers may convert to one
float; and integers are compared with each other as numbers but with a text by
their digits. `Clash` lists these, and `orderBy_sorts_iff` says that there are
no others.
-/
import Srrdb.Engine.Comparisons
import Srrdb.Lib.StableSort

namespace Srrdb.Engine

open Srrdb.Sql Srrdb.Lib Srrdb.Lib.Ieee

/-! ## Integers with one other kind -/

/-- The values of one kind, compared with each other and with integers by keys. -/
structure Family (β κ : Type) [Ord κ] where
  other : β → Value
  key : Int64 → κ
  key' : β → κ
  valueCmp_eq : ∀ x y o, valueCmp (Sum.elim .int other x) (Sum.elim .int other y) = some o →
    compareMixed key key' x y = o

/-- The value of an integer or of the other kind. -/
def Family.value {β κ : Type} [Ord κ] (F : Family β κ) : Int64 ⊕ β → Value := Sum.elim .int F.other

theorem compare_of_partialCmp {F : Format} {a b : Nat} {o : Ordering}
    (h : F.partialCmp a b = some o) : compare (F.scaled a) (F.scaled b) = o := by
  unfold Format.partialCmp at h
  split at h
  · cases h
  · exact Option.some.inj h

def floats : Family UInt32 Int where
  other := .float
  key i := binary32.scaled (binary32.ofInt i.toInt)
  key' b := binary32.scaled b.toNat
  valueCmp_eq x y o h := by
    rcases x with i | a <;> rcases y with j | b
    · exact Option.some.inj h
    all_goals exact compare_of_partialCmp h

def doubles : Family UInt64 Int where
  other := .double
  key i := binary64.scaled (binary64.ofInt i.toInt)
  key' b := binary64.scaled b.toNat
  valueCmp_eq x y o h := by
    rcases x with i | a <;> rcases y with j | b
    · exact Option.some.inj h
    all_goals exact compare_of_partialCmp h

def texts : Family String String where
  other := .text
  key i := Int.repr i.toInt
  key' t := t
  valueCmp_eq x y o h := by
    rcases x with i | a <;> rcases y with j | b <;> exact Option.some.inj h

/-- The cycles in a family. -/
theorem Family.cycle {β κ : Type} [Ord κ] [Std.TransOrd κ] (F : Family β κ) {x y z : Int64 ⊕ β}
    (hxz : valueCmp (F.value x) (F.value z) = some .gt)
    (hxy : valueCmp (F.value x) (F.value y) ≠ some .gt)
    (hyz : valueCmp (F.value y) (F.value z) ≠ some .gt)
    (hxy' : valueCmp (F.value x) (F.value y) ≠ none)
    (hyz' : valueCmp (F.value y) (F.value z) ≠ none) :
    ∃ i j b, i < j ∧ compare (F.key j) (F.key' b) ≠ .gt ∧ compare (F.key' b) (F.key i) ≠ .gt ∧
      Value.int i ∈ [F.value x, F.value y, F.value z] ∧
      Value.int j ∈ [F.value x, F.value y, F.value z] ∧
      F.other b ∈ [F.value x, F.value y, F.value z] := by
  obtain ⟨o, ho⟩ := Option.ne_none_iff_exists'.mp hxy'
  obtain ⟨o', ho'⟩ := Option.ne_none_iff_exists'.mp hyz'
  rw [ho, ne_eq, Option.some_inj] at hxy
  rw [ho', ne_eq, Option.some_inj] at hyz
  obtain ⟨i, j, b, hij, hjb, hbi, hi, hj, hb⟩ := compareMixed_cycle (F.valueCmp_eq x z _ hxz)
    (by rwa [F.valueCmp_eq x y _ ho]) (by rwa [F.valueCmp_eq y z _ ho'])
  exact ⟨i, j, b, Std.compare_eq_lt.mp hij, hjb, hbi, List.mem_map_of_mem (f := F.value) hi,
    List.mem_map_of_mem (f := F.value) hj, List.mem_map_of_mem (f := F.value) hb⟩

/-! ## Which values are compared -/

/-- Unsigned integers are compared with each other; the other kinds among
themselves and with integers; NULL and bytes with nothing. -/
theorem variants_of_compared {a b : Value} (h : valueCmp a b ≠ none) :
    (a.variantOrder = 2 ∧ b.variantOrder = 2) ∨
      ((a.variantOrder = 1 ∨ a.variantOrder = 3) ∧ (b.variantOrder = 1 ∨ b.variantOrder = 3)) ∨
      ((a.variantOrder = 1 ∨ a.variantOrder = 4) ∧ (b.variantOrder = 1 ∨ b.variantOrder = 4)) ∨
      ((a.variantOrder = 1 ∨ a.variantOrder = 6) ∧ (b.variantOrder = 1 ∨ b.variantOrder = 6)) := by
  cases a <;> cases b <;> first
    | exact absurd rfl h
    | simp [Value.variantOrder]

theorem Family.exists_value {β κ : Type} [Ord κ] {F : Family β κ} {n : Nat}
    (hn : ∀ v : Value, v.variantOrder = n → ∃ b, v = F.other b) {v : Value}
    (hv : v.variantOrder = 1 ∨ v.variantOrder = n) : ∃ x, v = F.value x := by
  rcases hv with hv | hv
  · cases v <;> first
      | exact ⟨.inl _, rfl⟩
      | cases hv
  · obtain ⟨b, rfl⟩ := hn v hv
    exact ⟨.inr b, rfl⟩

theorem exists_float {v : Value} (hv : v.variantOrder = 1 ∨ v.variantOrder = 3) :
    ∃ x, v = floats.value x :=
  Family.exists_value (fun v hv => by cases v <;> first | exact ⟨_, rfl⟩ | cases hv) hv

theorem exists_double {v : Value} (hv : v.variantOrder = 1 ∨ v.variantOrder = 4) :
    ∃ x, v = doubles.value x :=
  Family.exists_value (fun v hv => by cases v <;> first | exact ⟨_, rfl⟩ | cases hv) hv

theorem exists_text {v : Value} (hv : v.variantOrder = 1 ∨ v.variantOrder = 6) :
    ∃ x, v = texts.value x :=
  Family.exists_value (fun v hv => by cases v <;> first | exact ⟨_, rfl⟩ | cases hv) hv

theorem exists_uint {v : Value} (hv : v.variantOrder = 2) : ∃ n, v = .uint n := by
  cases v <;> first | exact ⟨_, rfl⟩ | cases hv

/-- Three values of which every two are compared are integers and one other kind. -/
theorem family_of_compared {a b c : Value} (hab : valueCmp a b ≠ none) (hbc : valueCmp b c ≠ none)
    (hac : valueCmp a c ≠ none) :
    (∃ x y z, a = .uint x ∧ b = .uint y ∧ c = .uint z) ∨
      (∃ x y z, a = floats.value x ∧ b = floats.value y ∧ c = floats.value z) ∨
      (∃ x y z, a = doubles.value x ∧ b = doubles.value y ∧ c = doubles.value z) ∨
      ∃ x y z, a = texts.value x ∧ b = texts.value y ∧ c = texts.value z := by
  have h₁ := variants_of_compared hab
  have h₂ := variants_of_compared hbc
  have h₃ := variants_of_compared hac
  have hkinds : (a.variantOrder = 2 ∧ b.variantOrder = 2 ∧ c.variantOrder = 2) ∨
      ((a.variantOrder = 1 ∨ a.variantOrder = 3) ∧ (b.variantOrder = 1 ∨ b.variantOrder = 3) ∧
        (c.variantOrder = 1 ∨ c.variantOrder = 3)) ∨
      ((a.variantOrder = 1 ∨ a.variantOrder = 4) ∧ (b.variantOrder = 1 ∨ b.variantOrder = 4) ∧
        (c.variantOrder = 1 ∨ c.variantOrder = 4)) ∨
      ((a.variantOrder = 1 ∨ a.variantOrder = 6) ∧ (b.variantOrder = 1 ∨ b.variantOrder = 6) ∧
        (c.variantOrder = 1 ∨ c.variantOrder = 6)) := by
    grind only
  rcases hkinds with ⟨ha, hb, hc⟩ | ⟨ha, hb, hc⟩ | ⟨ha, hb, hc⟩ | ⟨ha, hb, hc⟩
  · obtain ⟨x, rfl⟩ := exists_uint ha
    obtain ⟨y, rfl⟩ := exists_uint hb
    obtain ⟨z, rfl⟩ := exists_uint hc
    exact .inl ⟨x, y, z, rfl, rfl, rfl⟩
  · obtain ⟨x, rfl⟩ := exists_float ha
    obtain ⟨y, rfl⟩ := exists_float hb
    obtain ⟨z, rfl⟩ := exists_float hc
    exact .inr (.inl ⟨x, y, z, rfl, rfl, rfl⟩)
  · obtain ⟨x, rfl⟩ := exists_double ha
    obtain ⟨y, rfl⟩ := exists_double hb
    obtain ⟨z, rfl⟩ := exists_double hc
    exact .inr (.inr (.inl ⟨x, y, z, rfl, rfl, rfl⟩))
  · obtain ⟨x, rfl⟩ := exists_text ha
    obtain ⟨y, rfl⟩ := exists_text hb
    obtain ⟨z, rfl⟩ := exists_text hc
    exact .inr (.inr (.inr ⟨x, y, z, rfl, rfl, rfl⟩))

/-! ## Clashes -/

/-- The integer becomes the float when the two are compared. -/
def ConvertsTo (i : Int64) : Value → Prop
  | .float b => binary32.scaled (binary32.ofInt i.toInt) = binary32.scaled b.toNat
  | .double b => binary64.scaled (binary64.ofInt i.toInt) = binary64.scaled b.toNat
  | _ => False

/-- Three values on which the comparison goes round in a circle: the first is
greater than the last, but not greater than the middle one, nor that than the
last. -/
inductive Clash : Value → Value → Value → Prop
  /-- The middle one cannot be compared with both of two ordered values, and
  with neither of them or only on the wrong side. -/
  | apart {a b c : Value} (hac : valueCmp a c = some .gt) (hab : valueCmp a b ≠ some .gt)
      (hbc : valueCmp b c ≠ some .gt) (hnone : valueCmp a b = none ∨ valueCmp b c = none) :
      Clash a b c
  /-- Two integers convert to the same float. -/
  | converted {i j : Int64} {b : Value} (hij : i < j) (hi : ConvertsTo i b)
      (hj : ConvertsTo j b) : Clash (.int j) b (.int i)
  /-- A text stands between the digits of two integers, in the opposite order. -/
  | digits {i j : Int64} {t : String} (hij : i < j) (hj : compare (Int.repr j.toInt) t ≠ .gt)
      (hi : compare t (Int.repr i.toInt) ≠ .gt) : Clash (.int j) (.text t) (.int i)

/-- Some three of the values clash. -/
def Clashes (values : List Value) : Prop :=
  ∃ a ∈ values, ∃ b ∈ values, ∃ c ∈ values, Clash a b c

/-- `value_cmp` as `sort_rows` uses it: no answer counts as equal. -/
def valueOrder (a b : Value) : Ordering := (valueCmp a b).getD .eq

theorem valueOrder_ne_gt_iff {a b : Value} : valueOrder a b ≠ .gt ↔ valueCmp a b ≠ some .gt := by
  unfold valueOrder
  cases valueCmp a b <;> simp

theorem valueOrder_swap (a b : Value) : valueOrder b a = (valueOrder a b).swap := by
  rw [valueOrder, valueCmp_swap, valueOrder]
  cases valueCmp a b <;> rfl

theorem Clash.circular {a b c : Value} (h : Clash a b c) :
    valueCmp a c = some .gt ∧ valueCmp a b ≠ some .gt ∧ valueCmp b c ≠ some .gt := by
  have hgt : ∀ {i j : Int64}, i < j → valueCmp (.int j) (.int i) = some .gt := by
    intro i j hij
    exact congrArg some (Std.compare_eq_gt.mpr hij)
  cases h with
  | apart hac hab hbc _ => exact ⟨hac, hab, hbc⟩
  | digits hij hj hi =>
    exact ⟨hgt hij, fun h => hj (Option.some.inj h), fun h => hi (Option.some.inj h)⟩
  | @converted i j b hij hi hj =>
    have hself : ∀ {u v : Int}, u = v → compare u v ≠ .gt ∧ compare v u ≠ .gt := by
      rintro u _ rfl
      simp
    cases b with
    | float b =>
      exact ⟨hgt hij, fun h => (hself hj).1 (compare_of_partialCmp h),
        fun h => (hself hi).2 (compare_of_partialCmp h)⟩
    | double b =>
      exact ⟨hgt hij, fun h => (hself hj).1 (compare_of_partialCmp h),
        fun h => (hself hi).2 (compare_of_partialCmp h)⟩
    | _ => exact hi.elim

/-- Keys that keep the order of integers are the same in a cycle. -/
theorem eq_of_between {F : Format} {i j : Int64} {k : Int} (hij : i < j)
    (hj : compare (F.scaled (F.ofInt j.toInt)) k ≠ .gt)
    (hi : compare k (F.scaled (F.ofInt i.toInt)) ≠ .gt) :
    F.scaled (F.ofInt i.toInt) = k ∧ F.scaled (F.ofInt j.toInt) = k := by
  have hmono := F.scaled_ofInt_mono (Int64.lt_iff_toInt_lt.mp hij).le
  rw [ne_eq, Int.compare_eq_gt] at hi hj
  omega

theorem clashes_of_circular {a b c : Value} (hac : valueCmp a c = some .gt)
    (hab : valueCmp a b ≠ some .gt) (hbc : valueCmp b c ≠ some .gt) : Clashes [a, b, c] := by
  by_cases hab' : valueCmp a b = none
  · exact ⟨a, by simp, b, by simp, c, by simp, .apart hac hab hbc (.inl hab')⟩
  by_cases hbc' : valueCmp b c = none
  · exact ⟨a, by simp, b, by simp, c, by simp, .apart hac hab hbc (.inr hbc')⟩
  rcases family_of_compared hab' hbc' (by simp [hac]) with
    ⟨x, y, z, rfl, rfl, rfl⟩ | ⟨x, y, z, rfl, rfl, rfl⟩ | ⟨x, y, z, rfl, rfl, rfl⟩ |
    ⟨x, y, z, rfl, rfl, rfl⟩
  · exact (no_cycle (Option.some.inj hac) (fun h => hab (congrArg some h))
      fun h => hbc (congrArg some h)).elim
  · obtain ⟨i, j, b, hij, hjb, hbi, hi, hj, hb⟩ := floats.cycle hac hab hbc hab' hbc'
    obtain ⟨hi', hj'⟩ := eq_of_between hij hjb hbi
    exact ⟨_, hj, _, hb, _, hi, .converted hij hi' hj'⟩
  · obtain ⟨i, j, b, hij, hjb, hbi, hi, hj, hb⟩ := doubles.cycle hac hab hbc hab' hbc'
    obtain ⟨hi', hj'⟩ := eq_of_between hij hjb hbi
    exact ⟨_, hj, _, hb, _, hi, .converted hij hi' hj'⟩
  · obtain ⟨i, j, t, hij, hjt, hti, hi, hj, ht⟩ := texts.cycle hac hab hbc hab' hbc'
    exact ⟨_, hj, _, ht, _, hi, .digits hij hjt hti⟩

/-- The comparison is a total preorder on values of which no three clash, and
on no others. -/
theorem preorderOn_valueOrder_iff {values : List Value} :
    PreorderOn valueOrder values ↔ ¬ Clashes values := by
  constructor
  · rintro h ⟨a, ha, b, hb, c, hc, hclash⟩
    obtain ⟨hac, hab, hbc⟩ := hclash.circular
    have hle := h.trans a ha b hb c hc (valueOrder_ne_gt_iff.mpr hab) (valueOrder_ne_gt_iff.mpr hbc)
    exact valueOrder_ne_gt_iff.mp hle hac
  · intro hno
    refine ⟨fun a _ b _ => valueOrder_swap a b, fun a ha b hb c hc hab hbc => ?_⟩
    rw [valueOrder_ne_gt_iff] at hab hbc ⊢
    intro hac
    obtain ⟨a', ha', b', hb', c', hc', hclash⟩ := clashes_of_circular hac hab hbc
    have hmem : ∀ v ∈ [a, b, c], v ∈ values := by simp [ha, hb, hc]
    exact hno ⟨a', hmem a' ha', b', hmem b' hb', c', hmem c' hc', hclash⟩

/-! ## Rows -/

/-- The value a row is sorted by, in the column at a position. -/
def cell (idx : Nat) (row : Row) : Value := row.values.getD idx .null

/-- The comparator `sort_rows` gives to `sort_by`. -/
def rowOrder (idx : Nat) (ascending : Bool) (a b : Row) : Ordering :=
  match valueCmp (cell idx a) (cell idx b) with
  | some .lt => if ascending then .lt else .gt
  | some .gt => if ascending then .gt else .lt
  | _ => .eq

/-- The position and direction of one ORDER BY column, if it is one. -/
def orderColumn (columns : List Column) (ob : OrderByExpr) : Option (Nat × Bool) :=
  match ob.expr with
  | .identifier id => (columnPosition columns id).map fun idx => (idx, ob.asc.getD true)
  | _ => none

/-- The comparators of an ORDER BY, the most important first. -/
def orderKeys (columns : List Column) (orderBy : List OrderByExpr) :
    List (Row → Row → Ordering) :=
  (orderBy.filterMap (orderColumn columns)).map fun p => rowOrder p.1 p.2

theorem rowOrder_eq (idx : Nat) (ascending : Bool) (a b : Row) :
    rowOrder idx ascending a b = if ascending then valueOrder (cell idx a) (cell idx b)
      else (valueOrder (cell idx a) (cell idx b)).swap := by
  unfold rowOrder valueOrder
  cases valueCmp (cell idx a) (cell idx b) with
  | none => cases ascending <;> rfl
  | some o => cases o <;> cases ascending <;> rfl

theorem rowNotAfter_eq (idx : Nat) (ascending : Bool) :
    rowNotAfter idx ascending = fun a b => rowOrder idx ascending a b != .gt := by
  funext a b
  unfold rowNotAfter rowOrder cell
  cases valueCmp (a.values.getD idx .null) (b.values.getD idx .null) with
  | none => rfl
  | some o => cases o <;> cases ascending <;> rfl

/-- `sort_rows` sorts by its keys. -/
theorem sortRows_eq_sortKeys (rows : List Row) (orderBy : List OrderByExpr)
    (columns : List Column) :
    sortRows rows orderBy columns = sortKeys (orderKeys columns orderBy) rows := by
  rw [sortRows, List.foldl_reverse]
  induction orderBy with
  | nil => rfl
  | cons ob orderBy ih =>
    rw [List.foldr_cons, ih, orderKeys, orderKeys, List.filterMap_cons]
    cases hexpr : ob.expr with
    | identifier id =>
      cases hpos : columnPosition columns id with
      | none => simp [orderColumn, hexpr, hpos]
      | some idx => simp [orderColumn, hexpr, hpos, sortKeys, stableSort, rowNotAfter_eq]
    | _ => simp [orderColumn, hexpr]

/-- Neither the direction nor the other columns matter for the comparison. -/
theorem preorderOn_rowOrder_iff {idx : Nat} {ascending : Bool} {rows : List Row} :
    PreorderOn (rowOrder idx ascending) rows ↔ PreorderOn valueOrder (rows.map (cell idx)) := by
  rw [← preorderOn_map_iff]
  cases ascending with
  | true =>
    rw [show rowOrder idx true = fun a b => valueOrder (cell idx a) (cell idx b) from
      funext₂ fun a b => rowOrder_eq idx true a b]
  | false =>
    rw [show rowOrder idx false = fun a b => valueOrder (cell idx b) (cell idx a) from
      funext₂ fun a b => (rowOrder_eq idx false a b).trans (valueOrder_swap _ _).symm]
    exact ⟨PreorderOn.flip, PreorderOn.flip⟩

/-- ORDER BY sorts: the comparison of each key is a total preorder on the rows,
and the result is sorted by all keys. -/
structure OrderBySorts (rows : List Row) (orderBy : List OrderByExpr) (columns : List Column) :
    Prop where
  preorder : ∀ key ∈ orderKeys columns orderBy, PreorderOn key rows
  sorted : SortedBy (compareKeys (orderKeys columns orderBy)) rows (sortRows rows orderBy columns)

/-- ORDER BY sorts exactly the rows of which no three have clashing values in
one of its columns. -/
theorem orderBy_sorts_iff (rows : List Row) (orderBy : List OrderByExpr)
    (columns : List Column) : OrderBySorts rows orderBy columns ↔
      ∀ p ∈ orderBy.filterMap (orderColumn columns), ¬ Clashes (rows.map (cell p.1)) := by
  have hkeys : (∀ key ∈ orderKeys columns orderBy, PreorderOn key rows) ↔
      ∀ p ∈ orderBy.filterMap (orderColumn columns), ¬ Clashes (rows.map (cell p.1)) := by
    rw [orderKeys, List.forall_mem_map]
    refine forall₂_congr fun p _ => ?_
    rw [preorderOn_rowOrder_iff, preorderOn_valueOrder_iff]
  rw [← hkeys]
  refine ⟨fun h => h.preorder, fun h => ⟨h, ?_⟩⟩
  rw [sortRows_eq_sortKeys]
  exact sortedBy_sortKeys h

/-- The rows (NULL), (2), (NULL), (1) of a table `t (a INT)`. -/
def rowsBetweenNulls : List Row :=
  [⟨1, [.null]⟩, ⟨2, [.int 2]⟩, ⟨3, [.null]⟩, ⟨4, [.int 1]⟩]

/-- `ORDER BY a` leaves the rows (NULL), (2), (NULL), (1) as they are. -/
theorem betweenNulls_not_sorted :
    ¬ OrderBySorts rowsBetweenNulls [⟨.identifier "a", none⟩] [.new "a" "t" .long] ∧
      sortRows rowsBetweenNulls [⟨.identifier "a", none⟩] [.new "a" "t" .long] =
        rowsBetweenNulls := by
  have hsame : sortRows rowsBetweenNulls [⟨.identifier "a", none⟩] [.new "a" "t" .long] =
      rowsBetweenNulls := by
    have hpos : columnPosition [.new "a" "t" .long] "a" = some 0 := by decide
    have hnone : ∀ v, valueCmp .null v = none ∧ valueCmp v .null = none := by
      intro v
      cases v <;> exact ⟨rfl, rfl⟩
    have hbefore : ∀ i row, rowNotAfter 0 true ⟨i, [.null]⟩ row = true := by
      simp [rowNotAfter, hnone]
    have hafter : ∀ row i, rowNotAfter 0 true row ⟨i, [.null]⟩ = true := by
      simp [rowNotAfter, hnone]
    simp [sortRows, rowsBetweenNulls, hpos, List.mergeSort, List.MergeSort.Internal.splitInTwo,
      hbefore, hafter]
  refine ⟨fun h => ?_, hsame⟩
  have hordered := h.sorted.ordered
  rw [hsame] at hordered
  exact absurd hordered (by decide +kernel)

end Srrdb.Engine

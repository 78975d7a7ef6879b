/-
Srrdb.Engine.RangeLookup — lookups that walk a B-tree index.

`lookup_range` and `lookup_prefix` collect the ids of a range of keys in key
order. `BTreeMap::range` panics when its start is greater than its end, and
`lookup_prefix` makes its end by bumping the last component of the prefix. The
bumped value is the immediate successor of an integer under the largest one, of
bytes and of a text; not of NULL, of a float and of the largest integers, which
are not bumped at all.
-/
import Srrdb.Engine.MapContracts
import Srrdb.Lib.LexOrder
import Srrdb.Lib.OrdMap
import Mathlib.Data.List.Flatten
import Mathlib.Data.List.Sort

namespace Srrdb.Engine

open Srrdb.Lib Srrdb.Lib.Ieee Srrdb.Lib.LexOrder Std

/-! ## The two lookups -/

/-- `std::ops::Bound`. -/
inductive Bound where
  | unbounded
  | included (key : Key)
  | excluded (key : Key)

namespace Bound

/-- Is the key not before the start of a range? -/
def lower : Bound → Key → Bool
  | unbounded, _ => true
  | included low, key => (compare low key).isLE
  | excluded low, key => compare low key == .lt

/-- Is the key not after the end of a range? -/
def upper : Bound → Key → Bool
  | unbounded, _ => true
  | included high, key => (compare key high).isLE
  | excluded high, key => compare key high == .lt

/-- The bounds `BTreeMap::range` panics on: a start greater than the end, or one
key excluded at both ends. -/
def crossed : Bound → Bound → Bool
  | excluded low, excluded high => !(compare low high == .lt)
  | included low, included high | included low, excluded high | excluded low, included high =>
    compare low high == .gt
  | _, _ => false

end Bound

/-- `BTreeMap::range`: the entries between the bounds, in key order. -/
def BTreeMap.range (map : ExtTreeMap Key (List Nat)) (start stop : Bound) :
    Outcome (List (Key × List Nat)) :=
  if start.crossed stop then throw .panic
  else pure (map.toList.filter fun e => start.lower e.1 && stop.upper e.1)

/-- The NaN that adding one to a NaN gives. Rust leaves its pattern open. -/
class NanSum where
  float : UInt32 → UInt32
  double : UInt64 → UInt64
  float_isNan : ∀ bits, binary32.isNan (float bits).toNat = true
  double_isNan : ∀ bits, binary64.isNan (double bits).toNat = true

section Lookups

variable [NanSum]

/-- `n + 1.0` in single precision. -/
def floatPlusOne (bits : UInt32) : UInt32 :=
  if binary32.isNan bits.toNat then NanSum.float bits
  else .ofNat (binary32.add bits.toNat (binary32.ofInt 1))

/-- `n + 1.0` in double precision. -/
def doublePlusOne (bits : UInt64) : UInt64 :=
  if binary64.isNan bits.toNat then NanSum.double bits
  else .ofNat (binary64.add bits.toNat (binary64.ofInt 1))

/-- `bump_value`. -/
def bumpValue : Value → Value
  | .null => .null
  | .int n => .int (if n = Int64.maxValue then n else n + 1)
  | .uint n => .uint (if n = 0xFFFFFFFFFFFFFFFF then n else n + 1)
  | .float n => .float (floatPlusOne n)
  | .double n => .double (doublePlusOne n)
  | .bytes b => .bytes (b ++ [0])
  | .text s => .text (s.push (Char.ofNat 0))

namespace IndexData

omit [NanSum] in
/-- `IndexData::lookup_range`. -/
def lookupRange (d : IndexData) (low high : Option Key) : Outcome (List Nat) :=
  match d with
  | .bTree map => do
    let entries ← match low, high with
      | some l, some h => BTreeMap.range map (.included l) (.included h)
      | some l, none => BTreeMap.range map (.included l) .unbounded
      | none, some h => BTreeMap.range map .unbounded (.included h)
      | none, none => pure map.toList
    return entries.flatMap (·.2)
  | .hash _ => return []

/-- The end of the range of a prefix: its last component bumped. -/
def prefixEnd (start : Key) : Key :=
  match start.getLast? with
  | some last => start.dropLast ++ [bumpValue last]
  | none => start

/-- `IndexData::lookup_prefix`. -/
def lookupPrefix (d : IndexData) (start : Key) : Outcome (List Nat) :=
  match d with
  | .bTree map => do
    let entries ← BTreeMap.range map (.included start) (.excluded (prefixEnd start))
    return entries.flatMap (·.2)
  | .hash _ => return []

end IndexData

end Lookups

/-! ## Specification -/

namespace IndexData

/-- The ids of the wanted keys of an index, in key order. -/
def IdsOf (d : IndexData) (wanted : Key → Prop) (ids : List Nat) : Prop :=
  ∃ entries : List (Key × List Nat),
    entries.Pairwise (fun a b => compare a.1 b.1 = .lt) ∧
    (∀ key bucket, (key, bucket) ∈ entries ↔ d.bucket? key = some bucket ∧ wanted key) ∧
    ids = entries.flatMap (·.2)

/-- For a B-tree these are the entries it walks, filtered. -/
theorem idsOf_bTree_iff {map : ExtTreeMap Key (List Nat)} {wanted : Key → Prop}
    [DecidablePred wanted] {ids : List Nat} :
    IdsOf (.bTree map) wanted ids ↔
      ids = (map.toList.filter fun e => wanted e.1).flatMap (·.2) := by
  have hsorted : (map.toList.filter fun e => wanted e.1).Pairwise
      (fun a b => compare a.1 b.1 = .lt) := map.ordered_keys_toList.filter _
  have hmem : ∀ key bucket, (key, bucket) ∈ map.toList.filter (fun e => wanted e.1) ↔
      (bTree map).bucket? key = some bucket ∧ wanted key := by
    intro key bucket
    rw [List.mem_filter, OrdMap.mem_toList, decide_eq_true_eq]
    rfl
  refine ⟨?_, fun h => ⟨_, hsorted, hmem, h⟩⟩
  rintro ⟨entries, hpairs, hentries, rfl⟩
  have : Std.Irrefl fun a b : Key × List Nat => compare a.1 b.1 = .lt :=
    ⟨fun a h => by rw [ReflOrd.compare_self] at h; cases h⟩
  have : Std.Antisymm fun a b : Key × List Nat => compare a.1 b.1 = .lt :=
    ⟨fun a b h h' => by rw [OrientedCmp.gt_of_lt h] at h'; cases h'⟩
  rw [hpairs.eq_of_mem_iff hsorted fun e => (hentries e.1 e.2).trans (hmem e.1 e.2).symm]

/-! ## Ranges -/

/-- The key is between the bounds that are given. -/
def Within (low high : Option Key) (key : Key) : Prop :=
  (∀ l ∈ low, (compare l key).isLE) ∧ ∀ h ∈ high, (compare key h).isLE

instance (low high : Option Key) : DecidablePred (Within low high) := fun _ =>
  inferInstanceAs (Decidable (_ ∧ _))

theorem lookupRange_eq (map : ExtTreeMap Key (List Nat)) (low high : Option Key) :
    (bTree map).lookupRange low high =
      if ∀ l ∈ low, ∀ h ∈ high, (compare l h).isLE then
        .ok ((map.toList.filter fun e => Within low high e.1).flatMap (·.2))
      else .error .panic := by
  have hwalk : ∀ {start stop : Bound}, start.crossed stop = false →
      (∀ key, (start.lower key && stop.upper key) = decide (Within low high key)) →
      BTreeMap.range map start stop = .ok (map.toList.filter fun e => Within low high e.1) := by
    intro start stop hcrossed hkeys
    rw [BTreeMap.range, hcrossed]
    simp only [hkeys]
    rfl
  cases low with
  | none =>
    rw [if_pos (by simp)]
    cases high with
    | none =>
      have hall : ∀ key, Within none none key := fun key => by simp [Within]
      rw [lookupRange, List.filter_eq_self.mpr fun e _ => decide_eq_true (hall e.1)]
      rfl
    | some h =>
      rw [lookupRange, hwalk rfl fun key => ?_]
      · rfl
      · simp [Bound.lower, Bound.upper, Within]
  | some l =>
    cases high with
    | none =>
      rw [if_pos (by simp), lookupRange, hwalk rfl fun key => ?_]
      · rfl
      · simp [Bound.lower, Bound.upper, Within]
    | some h =>
      split
      · next hle =>
        have hcrossed : (Bound.included l).crossed (.included h) = false := by
          have := hle l rfl h rfl
          cases hc : compare l h <;> simp_all [Bound.crossed]
        rw [lookupRange, hwalk hcrossed fun key => ?_]
        · rfl
        · simp [Bound.lower, Bound.upper, Within]
      · next hle =>
        have hcrossed : (Bound.included l).crossed (.included h) = true := by
          cases hc : compare l h <;> simp_all [Bound.crossed]
        rw [lookupRange, BTreeMap.range, if_pos hcrossed]
        rfl

/-- `lookup_range` gives the ids of the keys between its bounds exactly when the
low one, if both are given, is not above the high one; else it panics. -/
theorem lookupRange_exact_iff (map : ExtTreeMap Key (List Nat)) (low high : Option Key) :
    (∃ ids, (bTree map).lookupRange low high = .ok ids ∧
      IdsOf (.bTree map) (Within low high) ids) ↔
    ∀ l ∈ low, ∀ h ∈ high, (compare l h).isLE := by
  simp only [idsOf_bTree_iff, lookupRange_eq]
  constructor
  · rintro ⟨ids, hids, -⟩
    by_contra hle
    rw [if_neg hle] at hids
    cases hids
  · intro hle
    exact ⟨_, if_pos hle, rfl⟩

/-- A map of one entry. -/
def oneEntry : ExtTreeMap Key (List Nat) := (∅ : ExtTreeMap Key (List Nat)).insert [.int 1] [7]

/-- Bounds the wrong way round are no empty range. -/
theorem crossed_bounds_panic :
    ¬ ∃ ids, (bTree oneEntry).lookupRange (some [.int 2]) (some [.int 1]) = .ok ids ∧
      IdsOf (.bTree oneEntry) (Within (some [.int 2]) (some [.int 1])) ids := by
  rintro ⟨ids, hids, -⟩
  rw [show (bTree oneEntry).lookupRange (some [.int 2]) (some [.int 1]) = .error .panic from rfl]
    at hids
  cases hids

/-! ## Prefixes -/

/-- Some key of the index starts with the prefix. -/
def HasKey (d : IndexData) (start : Key) : Prop := ∃ key, d.bucket? key ≠ none ∧ start <+: key

/-- The end of the range is later, and no key goes on with a value in between;
or it is the same, and no key goes on with that value. -/
def Apart (d : IndexData) (front : Key) (v w : Value) : Prop :=
  match compare v w with
  | .lt => ∀ u rest, d.bucket? (front ++ u :: rest) ≠ none →
      ¬ (compare v u = .lt ∧ compare u w = .lt)
  | .eq => ¬ d.HasKey (front ++ [v])
  | .gt => False

/-- A selection of entries with ids that has all the ids is all of them. -/
theorem forall_of_flatMap_filter {entries : List (Key × List Nat)} {p : Key × List Nat → Bool}
    (hne : ∀ e ∈ entries, e.2 ≠ [])
    (h : (entries.filter p).flatMap (·.2) = entries.flatMap (·.2)) :
    ∀ e ∈ entries, p e = true := by
  induction entries with
  | nil => exact nofun
  | cons e entries ih =>
    obtain ⟨he, hne⟩ := List.forall_mem_cons.mp hne
    rw [List.flatMap_cons] at h
    cases hp : p e with
    | true =>
      rw [List.filter_cons_of_pos hp, List.flatMap_cons, List.append_right_inj] at h
      exact List.forall_mem_cons.mpr ⟨hp, ih hne h⟩
    | false =>
      -- the ids of the first entry would be missing
      rw [List.filter_cons_of_neg (by rw [hp]; exact Bool.false_ne_true)] at h
      have hle := ((List.filter_sublist (p := p) (l := entries)).flatMap (·.2)).length_le
      rw [h, List.length_append] at hle
      exact (he (List.eq_nil_of_length_eq_zero (by omega))).elim

/-- Two selections, one within the other, have the same ids exactly when they
are the same. -/
theorem flatMap_filter_eq_iff {entries : List (Key × List Nat)} {p q : Key × List Nat → Bool}
    (hne : ∀ e ∈ entries, e.2 ≠ []) (hpq : ∀ e ∈ entries, p e = true → q e = true) :
    (entries.filter p).flatMap (·.2) = (entries.filter q).flatMap (·.2) ↔
      ∀ e ∈ entries, q e = true → p e = true := by
  have hsame : entries.filter p = (entries.filter q).filter p := by
    rw [List.filter_filter]
    refine List.filter_congr fun e he => ?_
    cases hp : p e with
    | true => rw [hpq e he hp, Bool.and_self]
    | false => rfl
  constructor
  · intro h e he hq
    rw [hsame] at h
    exact forall_of_flatMap_filter (fun e he => hne e (List.mem_of_mem_filter he)) h e
      (List.mem_filter.mpr ⟨he, hq⟩)
  · intro h
    rw [List.filter_congr fun e he => Bool.eq_iff_iff.mpr ⟨hpq e he, h e he⟩]

theorem mem_toList_of_bucket? {map : ExtTreeMap Key (List Nat)} {key : Key}
    (h : (bTree map).bucket? key ≠ none) : ∃ ids, (key, ids) ∈ map.toList := by
  obtain ⟨ids, hids⟩ := Option.ne_none_iff_exists'.mp h
  exact ⟨ids, OrdMap.mem_toList.mpr hids⟩

theorem bucket?_of_mem_toList {map : ExtTreeMap Key (List Nat)} {e : Key × List Nat}
    (h : e ∈ map.toList) : (bTree map).bucket? e.1 ≠ none :=
  Option.ne_none_iff_exists'.mpr ⟨e.2, OrdMap.mem_toList.mp h⟩

/-- Is the key in the range between two keys that differ in their last
components? -/
def spans (front : Key) (v w : Value) (key : Key) : Bool :=
  (compare (front ++ [v]) key).isLE && compare key (front ++ [w]) == .lt

theorem spans_iff {front key : Key} {v w : Value} : spans front v w key = true ↔
    ∃ u rest, key = front ++ u :: rest ∧ (compare v u).isLE ∧ compare u w = .lt := by
  rw [spans, Bool.and_eq_true, beq_iff_eq]
  exact between_iff

theorem concat_prefix_iff {front key : Key} {v : Value} :
    front ++ [v] <+: key ↔ ∃ rest, key = front ++ v :: rest := by
  simp [List.IsPrefix, eq_comm]

/-- The range and the prefix have the same ids exactly when the range ends right
after the keys with the prefix, as far as keys of the index go. -/
theorem spans_exact_iff {map : ExtTreeMap Key (List Nat)} (hne : (bTree map).NoEmptyBucket)
    (front : Key) {v w : Value} (hvw : compare v w ≠ .gt) :
    (map.toList.filter fun e => spans front v w e.1).flatMap (·.2) =
      (map.toList.filter fun e => front ++ [v] <+: e.1).flatMap (·.2) ↔
    (bTree map).Apart front v w := by
  have hne : ∀ e ∈ map.toList, e.2 ≠ [] := hne
  unfold Apart
  cases hc : compare v w with
  | gt => exact (hvw hc).elim
  | eq =>
    -- the range is empty
    obtain rfl : v = w := LawfulEqOrd.eq_of_compare hc
    have hnone : ∀ key, spans front v v key = false := by
      intro key
      refine Bool.eq_false_iff.mpr fun h => ?_
      obtain ⟨u, rest, -, hvu, huv⟩ := spans_iff.mp h
      rw [OrientedCmp.gt_of_lt huv] at hvu
      cases hvu
    refine (flatMap_filter_eq_iff hne fun e _ h => ?_).trans ⟨?_, fun h e he hstart => ?_⟩
    · rw [hnone] at h
      cases h
    · rintro h ⟨key, hkey, hstart⟩
      obtain ⟨ids, hmem⟩ := mem_toList_of_bucket? hkey
      have hspans := h _ hmem (decide_eq_true hstart)
      rw [hnone] at hspans
      cases hspans
    · exact (h ⟨e.1, bucket?_of_mem_toList he, of_decide_eq_true hstart⟩).elim
  | lt =>
    rw [eq_comm]
    refine (flatMap_filter_eq_iff hne fun e _ h => ?_).trans ⟨?_, fun h e he hspans => ?_⟩
    · obtain ⟨rest, hkey⟩ := concat_prefix_iff.mp (of_decide_eq_true h)
      exact spans_iff.mpr ⟨v, rest, hkey, ReflCmp.isLE_rfl, hc⟩
    · rintro h u rest hkey ⟨hvu, huw⟩
      obtain ⟨ids, hmem⟩ := mem_toList_of_bucket? hkey
      have hstart := h _ hmem (spans_iff.mpr ⟨u, rest, rfl, by rw [hvu]; rfl, huw⟩)
      obtain ⟨rest', hrest⟩ := concat_prefix_iff.mp (of_decide_eq_true hstart)
      rw [(List.cons.inj (List.append_cancel_left hrest)).1, ReflOrd.compare_self] at hvu
      cases hvu
    · obtain ⟨u, rest, hkey, hvu, huw⟩ := spans_iff.mp hspans
      refine decide_eq_true (concat_prefix_iff.mpr ⟨rest, ?_⟩)
      rcases Ordering.isLE_iff_eq_lt_or_eq_eq.mp hvu with hlt | heq
      · exact (h u rest (hkey ▸ bucket?_of_mem_toList he) ⟨hlt, huw⟩).elim
      · rw [hkey, LawfulEqOrd.eq_of_compare heq]

section Prefixes

variable [NanSum]

/-- The lookup of a prefix with a last component `v`. -/
theorem lookupPrefix_concat (map : ExtTreeMap Key (List Nat)) (front : Key) (v : Value) :
    (bTree map).lookupPrefix (front ++ [v]) =
      if compare v (bumpValue v) = .gt then .error .panic
      else .ok ((map.toList.filter fun e => spans front v (bumpValue v) e.1).flatMap (·.2)) := by
  have hcompare : compare (front ++ [v]) (front ++ [bumpValue v]) = compare v (bumpValue v) := by
    rw [compare_append_left, List.compare_cons_cons]
    cases compare v (bumpValue v) <;> rfl
  have hend : prefixEnd (front ++ [v]) = front ++ [bumpValue v] := by simp [prefixEnd]
  rw [lookupPrefix, hend, BTreeMap.range, Bound.crossed, hcompare]
  cases compare v (bumpValue v) <;> rfl

theorem lookupPrefix_concat_iff {map : ExtTreeMap Key (List Nat)}
    (hne : (bTree map).NoEmptyBucket) (front : Key) (v : Value) :
    (∃ ids, (bTree map).lookupPrefix (front ++ [v]) = .ok ids ∧
      IdsOf (.bTree map) (front ++ [v] <+: ·) ids) ↔
    (bTree map).Apart front v (bumpValue v) := by
  simp only [idsOf_bTree_iff, lookupPrefix_concat]
  by_cases hc : compare v (bumpValue v) = .gt
  · refine iff_of_false ?_ (by rw [Apart, hc]; exact id)
    rintro ⟨ids, hids, -⟩
    rw [if_pos hc] at hids
    cases hids
  · rw [← spans_exact_iff hne front hc, if_neg hc]
    exact ⟨fun ⟨ids, hids, heq⟩ => (Except.ok.inj hids).trans heq, fun h => ⟨_, rfl, h⟩⟩

/-- The empty prefix: its range is empty. -/
theorem lookupPrefix_nil_iff {map : ExtTreeMap Key (List Nat)}
    (hne : (bTree map).NoEmptyBucket) :
    (∃ ids, (bTree map).lookupPrefix [] = .ok ids ∧ IdsOf (.bTree map) ([] <+: ·) ids) ↔
    ¬ (bTree map).HasKey [] := by
  have hempty : map.toList.filter (fun e =>
      (Bound.included []).lower e.1 && (Bound.excluded []).upper e.1) = [] := by
    refine List.filter_eq_nil_iff.mpr fun e _ h => ?_
    exact compare_nil_ne_lt e.1 (beq_iff_eq.mp (Bool.and_eq_true_iff.mp h).2)
  have hlookup : (bTree map).lookupPrefix [] = .ok [] := by
    rw [lookupPrefix, BTreeMap.range, prefixEnd, List.getLast?_nil, hempty]
    rfl
  simp only [idsOf_bTree_iff, hlookup]
  constructor
  · rintro ⟨ids, hids, heq⟩ ⟨key, hkey, -⟩
    cases hids
    obtain ⟨ids, hmem⟩ := mem_toList_of_bucket? hkey
    refine hne _ hmem (List.flatMap_eq_nil_iff.mp heq.symm _ (List.mem_filter.mpr ⟨hmem, ?_⟩))
    exact decide_eq_true (List.nil_prefix)
  · intro h
    refine ⟨[], rfl, (List.flatMap_eq_nil_iff.mpr fun e he => ?_).symm⟩
    have hmem := List.mem_of_mem_filter he
    exact (h ⟨e.1, bucket?_of_mem_toList hmem, List.nil_prefix⟩).elim

end Prefixes

/-! ## Immediate successors of values -/

/-- The order goes by the variant first. -/
theorem variantOrder_le {a b : Value} (h : (compare a b).isLE) :
    a.variantOrder ≤ b.variantOrder := by
  change (Value.cmp a b).isLE at h
  rw [Value.cmp_eq] at h
  exact Nat.isLE_compare.mp (Ordering.isLE_left_of_isLE_then h)

/-- A successor among the payloads of one variant is one among all values. -/
theorem follows_variant {α : Type} [Ord α] (variant : α → Value) (order : Nat)
    (horder : ∀ x, (variant x).variantOrder = order)
    (hpayload : ∀ c : Value, c.variantOrder = order → ∃ x, c = variant x)
    (hcompare : ∀ x y, compare (variant x) (variant y) = compare x y) {x y : α}
    (h : Follows x y) : Follows (variant x) (variant y) := by
  refine ⟨(hcompare x y).trans h.1, fun c hlow hhigh => ?_⟩
  have hle := variantOrder_le hlow
  have hge := variantOrder_le (a := c) (b := variant y) (by rw [hhigh]; rfl)
  rw [horder] at hle hge
  obtain ⟨z, rfl⟩ := hpayload c (Nat.le_antisymm hge hle)
  rw [hcompare] at hlow hhigh
  rw [h.2 z hlow hhigh]

theorem follows_int {n : Int64} (h : n ≠ Int64.maxValue) :
    Follows (Value.int n) (.int (n + 1)) := by
  refine follows_variant .int 1 (fun _ => rfl) (fun c hc => ?_) (fun _ _ => rfl) ?_
  · cases c <;> first | exact ⟨_, rfl⟩ | cases hc
  · have hmax : n.toInt ≠ Int64.maxValue.toInt := fun heq => h (Int64.toInt_inj.mp heq)
    have hlow := n.le_toInt
    have hhigh : n.toInt < 2 ^ 63 - 1 := Int.lt_iff_le_and_ne.mpr ⟨n.toInt_le, hmax⟩
    have hadd : (n + 1).toInt = n.toInt + 1 := by
      rw [Int64.toInt_add, Int64.toInt_one]
      exact Int.bmod_eq_of_le (by omega) (by omega)
    refine ⟨compare_eq_lt.mpr ?_, fun m hlow hhigh => ?_⟩
    · rw [Int64.lt_iff_toInt_lt]
      omega
    · have hlow := isLE_compare.mp hlow
      have hhigh := compare_eq_lt.mp hhigh
      rw [Int64.le_iff_toInt_le] at hlow
      rw [Int64.lt_iff_toInt_lt] at hhigh
      exact Int64.toInt_inj.mp (by omega)

theorem follows_uint {n : UInt64} (h : n ≠ 0xFFFFFFFFFFFFFFFF) :
    Follows (Value.uint n) (.uint (n + 1)) := by
  refine follows_variant .uint 2 (fun _ => rfl) (fun c hc => ?_) (fun _ _ => rfl) ?_
  · cases c <;> first | exact ⟨_, rfl⟩ | cases hc
  · have hmax : n.toNat ≠ 0xFFFFFFFFFFFFFFFF := fun heq => h (UInt64.toNat_inj.mp heq)
    have hlt := n.toNat_lt
    have hadd : (n + 1).toNat = n.toNat + 1 := by
      rw [UInt64.toNat_add, UInt64.toNat_one]
      omega
    refine ⟨compare_eq_lt.mpr ?_, fun m hlow hhigh => ?_⟩
    · rw [UInt64.lt_iff_toNat_lt]
      omega
    · have hlow := isLE_compare.mp hlow
      have hhigh := compare_eq_lt.mp hhigh
      rw [UInt64.le_iff_toNat_le] at hlow
      rw [UInt64.lt_iff_toNat_lt] at hhigh
      exact UInt64.toNat_inj.mp (by omega)

theorem follows_bytes (b : List UInt8) : Follows (Value.bytes b) (.bytes (b ++ [0])) := by
  refine follows_variant .bytes 5 (fun _ => rfl) (fun c hc => ?_) (fun _ _ => rfl) ?_
  · cases c <;> first | exact ⟨_, rfl⟩ | cases hc
  · exact follows_concat (fun a => isLE_compare.mpr UInt8.zero_le) b

theorem follows_text (s : String) :
    Follows (Value.text s) (.text (s.push (Char.ofNat 0))) := by
  refine follows_variant .text 6 (fun _ => rfl) (fun c hc => ?_) (fun _ _ => rfl) (follows_push s)
  cases c <;> first | exact ⟨_, rfl⟩ | cases hc

/-! ## The lookup of a prefix -/

section PrefixLookup

theorem apart_of_follows {d : IndexData} {front : Key} {v w : Value} (h : Follows v w) :
    d.Apart front v w := by
  rw [Apart, h.1]
  rintro u rest - ⟨hvu, huw⟩
  rw [h.2 u (by rw [hvu]; rfl) huw, ReflOrd.compare_self] at hvu
  cases hvu

theorem apart_self_iff {d : IndexData} {front : Key} {v : Value} :
    d.Apart front v v ↔ ¬ d.HasKey (front ++ [v]) := by
  rw [Apart, ReflOrd.compare_self]

variable [NanSum]

/-- When the ids of the prefix are found. A prefix that ends in an integer, in
bytes or in a text has an end right behind it, unless the integer is the largest;
there, and for the empty prefix and one that ends in NULL, nothing is found. -/
def PrefixFits (d : IndexData) (start : Key) : Prop :=
  match start.getLast? with
  | none | some .null => ¬ d.HasKey start
  | some (.int n) => n = Int64.maxValue → ¬ d.HasKey start
  | some (.uint n) => n = 0xFFFFFFFFFFFFFFFF → ¬ d.HasKey start
  | some (.float n) => d.Apart start.dropLast (.float n) (.float (floatPlusOne n))
  | some (.double n) => d.Apart start.dropLast (.double n) (.double (doublePlusOne n))
  | some (.bytes _) | some (.text _) => True

theorem apart_bumpValue_iff (d : IndexData) (front : Key) (v : Value) :
    d.Apart front v (bumpValue v) ↔ d.PrefixFits (front ++ [v]) := by
  unfold PrefixFits
  rw [List.getLast?_concat, List.dropLast_concat]
  cases v with
  | null => exact apart_self_iff
  | int n =>
    by_cases hn : n = Int64.maxValue
    · rw [show bumpValue (.int n) = .int n by rw [bumpValue, if_pos hn]]
      change _ ↔ (n = Int64.maxValue → ¬ d.HasKey (front ++ [.int n]))
      rw [apart_self_iff, forall_prop_of_true hn]
    · rw [show bumpValue (.int n) = .int (n + 1) by rw [bumpValue, if_neg hn]]
      exact iff_of_true (apart_of_follows (follows_int hn)) fun h => absurd h hn
  | uint n =>
    by_cases hn : n = 0xFFFFFFFFFFFFFFFF
    · rw [show bumpValue (.uint n) = .uint n by rw [bumpValue, if_pos hn]]
      change _ ↔ (n = 0xFFFFFFFFFFFFFFFF → ¬ d.HasKey (front ++ [.uint n]))
      rw [apart_self_iff, forall_prop_of_true hn]
    · rw [show bumpValue (.uint n) = .uint (n + 1) by rw [bumpValue, if_neg hn]]
      exact iff_of_true (apart_of_follows (follows_uint hn)) fun h => absurd h hn
  | float n => exact Iff.rfl
  | double n => exact Iff.rfl
  | bytes b => exact iff_of_true (apart_of_follows (follows_bytes b)) trivial
  | text s => exact iff_of_true (apart_of_follows (follows_text s)) trivial

omit [NanSum] in
theorem applyAll_bTree (map : ExtTreeMap Key (List Nat)) (ops : List IndexOp) :
    ∃ map', (bTree map).applyAll ops = bTree map' := by
  induction ops generalizing map with
  | nil => exact ⟨map, rfl⟩
  | cons op ops ih =>
    cases op with
    | insert key rowId => exact ih (map.alter key _)
    | delete key rowId => exact ih (map.alter key _)

/-- `lookup_prefix` on a B-tree built by inserts and deletes gives the ids of the
keys with the prefix exactly when the prefix fits. -/
theorem lookupPrefix_exact_iff (ops : List IndexOp) (start : Key) :
    (∃ ids, ((new .bTree).applyAll ops).lookupPrefix start = .ok ids ∧
      IdsOf ((new .bTree).applyAll ops) (start <+: ·) ids) ↔
    ((new .bTree).applyAll ops).PrefixFits start := by
  have hne := (noEmptyBucket_new .bTree).applyAll ops
  obtain ⟨map, hmap⟩ := applyAll_bTree ∅ ops
  rw [show new .bTree = bTree ∅ from rfl] at hne ⊢
  rw [hmap] at hne ⊢
  rcases List.eq_nil_or_concat' start with rfl | ⟨front, v, rfl⟩
  · exact lookupPrefix_nil_iff hne
  · exact (lookupPrefix_concat_iff hne front v).trans (apart_bumpValue_iff _ front v)

end PrefixLookup

/-- A choice of the NaNs, the canonical ones. -/
@[reducible] def canonicalNans : NanSum where
  float _ := 0x7FC00000
  double _ := 0x7FF8000000000000
  float_isNan _ := by decide
  double_isNan _ := by decide

/-- A row under NULL is not found by its prefix. -/
theorem null_prefix_finds_nothing :
    ¬ ∃ ids, @lookupPrefix canonicalNans ((new .bTree).applyAll [.insert [.null] 7]) [.null] =
        .ok ids ∧
      IdsOf ((new .bTree).applyAll [.insert [.null] 7]) ([.null] <+: ·) ids := by
  rintro ⟨ids, hids, entries, -, hentries, rfl⟩
  have hmem : ([.null], [7]) ∈ entries :=
    (hentries [.null] [7]).mpr ⟨by decide +kernel, List.prefix_refl _⟩
  have hnothing : @lookupPrefix canonicalNans ((new .bTree).applyAll [.insert [.null] 7]) [.null] =
      .ok [] := by decide +kernel
  rw [hnothing] at hids
  exact absurd (List.flatMap_eq_nil_iff.mp (Except.ok.inj hids).symm _ hmem) (by decide)

/-- The prefix `1.0` also finds a row under `1.5`. -/
example : @lookupPrefix canonicalNans
    ((new .bTree).applyAll [.insert [.double 0x3FF8000000000000] 3])
    [.double 0x3FF0000000000000] = .ok [3] := by decide +kernel

end IndexData

end Srrdb.Engine

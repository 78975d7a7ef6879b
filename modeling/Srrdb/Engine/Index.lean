/-
Srrdb.Engine.Index — index definitions and index data (`engine/index.rs`).

A B-tree index is an ordered map from keys to row ids. A hash index finds a
key by its hash and the derived `PartialEq`, which a key with a NaN component
does not satisfy even against itself; it is a `PerMap` over
`Key.hashMatches`. Both are one interface here: `IndexData.bucket?` reads a
bucket, `IndexData.alter` is the entry API every update of the source goes
through, and `lookupEq_insert` / `lookupEq_delete` are their specification on
regular keys, those the hash map can find again.
-/
import Srrdb.Engine.Types
import Srrdb.Lib.PerMap

namespace Srrdb.Engine

open Srrdb.Lib

/-! ## Key comparison of the hash map -/

/-- Equal by the derived `PartialEq` and by what is fed to the hasher. Values that are
equal and are hashed apart, the zeros of a float, may still meet in a `HashMap`. -/
def Value.hashMatches (a b : Value) : Bool := a.hashEq b && a.eq b

def Key.hashMatches : Key → Key → Bool
  | [], [] => true
  | a :: as, b :: bs => a.hashMatches b && Key.hashMatches as bs
  | _, _ => false

/-- A key the hash map finds again: no component is NaN. -/
def Key.regular (k : Key) : Bool := k.all fun v => v.eq v

theorem Value.hashMatches_iff {a b : Value} :
    a.hashMatches b = true ↔ a = b ∧ a.eq a = true := by
  simp only [Value.hashMatches, Value.hashEq, Bool.and_eq_true, decide_eq_true_eq]
  constructor
  · rintro ⟨rfl, h⟩; exact ⟨rfl, h⟩
  · rintro ⟨rfl, h⟩; exact ⟨rfl, h⟩

theorem Key.hashMatches_iff : ∀ {k k' : Key},
    k.hashMatches k' = true ↔ k = k' ∧ k.regular = true
  | [], [] => by simp [hashMatches, regular]
  | [], _ :: _ => by simp [hashMatches]
  | _ :: _, [] => by simp [hashMatches]
  | a :: as, b :: bs => by
    have ih : hashMatches as bs = true ↔ as = bs ∧ regular as = true := hashMatches_iff
    simp only [hashMatches, regular, Bool.and_eq_true, Value.hashMatches_iff, ih,
      List.all_cons, List.cons.injEq] at ih ⊢
    constructor
    · rintro ⟨⟨hab, hv⟩, has, hr⟩; exact ⟨⟨hab, has⟩, hv, hr⟩
    · rintro ⟨⟨hab, has⟩, hv, hr⟩; exact ⟨⟨hab, hv⟩, has, hr⟩

instance : IsPer Key.hashMatches where
  symm h := by
    obtain ⟨rfl, hr⟩ := Key.hashMatches_iff.mp h
    exact h
  trans h₁ h₂ := by
    obtain ⟨rfl, _⟩ := Key.hashMatches_iff.mp h₁
    exact h₂

/-! ## Definitions -/

/-- `enum IndexType`. -/
inductive IndexType where
  | bTree
  | hash
  deriving DecidableEq, Repr

/-- `struct IndexDef`. -/
structure IndexDef where
  name : String
  indexType : IndexType
  tableName : String
  columns : List String
  unique : Bool
  deriving DecidableEq, Repr

/-- `enum IndexData`. -/
inductive IndexData where
  | bTree (map : Std.ExtTreeMap Key (List Nat))
  | hash (map : PerMap Key (List Nat) Key.hashMatches)

namespace IndexData

/-- `IndexData::new`. -/
def new : IndexType → IndexData
  | .bTree => .bTree ∅
  | .hash => .hash .empty

/-- The ids stored under a key, if there is a bucket for it. -/
def bucket? : IndexData → Key → Option (List Nat)
  | .bTree map, key => map[key]?
  | .hash map, key => map.get key

/-- The entry API: read the bucket of a key, write it or remove it. -/
def alter (d : IndexData) (key : Key) (f : Option (List Nat) → Option (List Nat)) : IndexData :=
  match d with
  | .bTree map => .bTree (map.alter key f)
  | .hash map => .hash (map.alter key f)

/-- `IndexData::insert`: push the id on the key's bucket. -/
def insert (d : IndexData) (key : Key) (rowId : Nat) : IndexData :=
  d.alter key fun bucket => some (bucket.getD [] ++ [rowId])

/-- `IndexData::delete`: retain the other ids, drop the bucket when none is
left. -/
def delete (d : IndexData) (key : Key) (rowId : Nat) : IndexData :=
  d.alter key fun
    | none => none
    | some ids =>
      let kept := ids.filter (· ≠ rowId)
      if kept = [] then none else some kept

/-- `IndexData::lookup_eq`. -/
def lookupEq (d : IndexData) (key : Key) : List Nat := (d.bucket? key).getD []

/-- Do two keys share a bucket? -/
def sameKey : IndexData → Key → Key → Bool
  | .bTree _, key, key' => key = key'
  | .hash _, key, key' => key.hashMatches key'

/-- All buckets, each with its key. -/
def buckets : IndexData → List (Key × List Nat)
  | .bTree map => map.toList
  | .hash map => map.entries

/-! ## Specification -/

@[simp] theorem lookupEq_new (t : IndexType) (key : Key) : (new t).lookupEq key = [] := by
  cases t <;> simp [new, lookupEq, bucket?]

@[simp] theorem sameKey_alter (d : IndexData) (key : Key)
    (f : Option (List Nat) → Option (List Nat)) : (d.alter key f).sameKey = d.sameKey := by
  cases d <;> rfl

@[simp] theorem sameKey_insert (d : IndexData) (key : Key) (rowId : Nat) :
    (d.insert key rowId).sameKey = d.sameKey :=
  sameKey_alter d key _

theorem sameKey_of_regular (d : IndexData) {key : Key} (hk : key.regular = true) (key' : Key) :
    d.sameKey key key' = decide (key = key') := by
  cases d with
  | bTree map => rfl
  | hash map =>
    rw [Bool.eq_iff_iff, decide_eq_true_eq]
    exact Key.hashMatches_iff.trans (and_iff_left hk)

theorem eq_of_sameKey {d : IndexData} {key key' : Key} (h : d.sameKey key key' = true) :
    key = key' := by
  cases d with
  | bTree map => simpa [sameKey] using h
  | hash map => exact (Key.hashMatches_iff.mp h).1

@[simp] theorem buckets_new (t : IndexType) : (new t).buckets = [] := by
  cases t <;> simp [new, buckets, PerMap.empty]

theorem bucket?_alter_sameKey (d : IndexData) (key key' : Key)
    (f : Option (List Nat) → Option (List Nat)) :
    (d.alter key f).bucket? key' =
      if d.sameKey key key' then f (d.bucket? key) else d.bucket? key' := by
  cases d with
  | bTree map => simp [alter, bucket?, sameKey, Std.ExtTreeMap.getElem?_alter]
  | hash map => exact PerMap.get_alter map key key' f

/-- After an insert, keys that share the bucket find it, whatever the keys. -/
theorem lookupEq_insert_sameKey (d : IndexData) (key key' : Key) (rowId : Nat) :
    (d.insert key rowId).lookupEq key' =
      if d.sameKey key key' then d.lookupEq key ++ [rowId] else d.lookupEq key' := by
  simp only [insert, lookupEq, bucket?_alter_sameKey]
  split <;> rfl

theorem lookupEq_insert (d : IndexData) {key : Key} (hk : key.regular = true) (key' : Key)
    (rowId : Nat) :
    (d.insert key rowId).lookupEq key' =
      if key = key' then d.lookupEq key ++ [rowId] else d.lookupEq key' := by
  simp only [lookupEq_insert_sameKey, sameKey_of_regular d hk, decide_eq_true_eq]

/-- After a delete, keys that share the bucket lose the id, whatever the keys. -/
theorem lookupEq_delete_sameKey (d : IndexData) (key key' : Key) (rowId : Nat) :
    (d.delete key rowId).lookupEq key' =
      if d.sameKey key key' then (d.lookupEq key).filter (· ≠ rowId) else d.lookupEq key' := by
  simp only [delete, lookupEq, bucket?_alter_sameKey]
  split
  · cases h : d.bucket? key with
    | none => rfl
    | some ids =>
      simp only [Option.getD_some]
      split
      · next hnil => rw [hnil]; rfl
      · rfl
  · rfl

theorem lookupEq_delete (d : IndexData) {key : Key} (hk : key.regular = true) (key' : Key)
    (rowId : Nat) :
    (d.delete key rowId).lookupEq key' =
      if key = key' then (d.lookupEq key).filter (· ≠ rowId) else d.lookupEq key' := by
  simp only [lookupEq_delete_sameKey, sameKey_of_regular d hk, decide_eq_true_eq]

/-- No bucket is empty. -/
def NoEmptyBucket (d : IndexData) : Prop := ∀ b ∈ d.buckets, b.2 ≠ []

theorem noEmptyBucket_new (t : IndexType) : (new t).NoEmptyBucket := by
  simp [NoEmptyBucket]

/-- An update that never writes an empty bucket leaves none behind. -/
theorem NoEmptyBucket.alter {d : IndexData} (h : d.NoEmptyBucket) (key : Key)
    {f : Option (List Nat) → Option (List Nat)} (hf : ∀ o, f o ≠ some []) :
    (d.alter key f).NoEmptyBucket := by
  cases d with
  | bTree map =>
    intro b hb
    simp only [IndexData.alter, buckets] at hb
    have hb' := Std.ExtTreeMap.mem_toList_iff_getElem?_eq_some.mp hb
    rw [Std.ExtTreeMap.getElem?_alter] at hb'
    split at hb'
    · intro hnil
      rw [hnil] at hb'
      exact hf _ hb'
    · exact h b (Std.ExtTreeMap.mem_toList_iff_getElem?_eq_some.mpr hb')
  | hash map =>
    refine PerMap.forall_alter (P := (· ≠ [])) h fun o v _ hv hnil => ?_
    rw [hnil] at hv
    exact hf _ hv

theorem NoEmptyBucket.insert {d : IndexData} (h : d.NoEmptyBucket) (key : Key) (rowId : Nat) :
    (d.insert key rowId).NoEmptyBucket :=
  h.alter key (by simp)

theorem NoEmptyBucket.delete {d : IndexData} (h : d.NoEmptyBucket) (key : Key) (rowId : Nat) :
    (d.delete key rowId).NoEmptyBucket := by
  refine h.alter key fun o => ?_
  cases o with
  | none => simp
  | some ids =>
    simp only
    split
    · simp
    · next hne => simpa using hne

end IndexData

end Srrdb.Engine

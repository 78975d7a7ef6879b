/-
Srrdb.Engine.MapContracts — values as keys of ordered and of hash maps.

`Ord`, `Eq` and `Hash` of a value know three identities of floats: patterns
(the order and the hash), IEEE equality (the derived `PartialEq`) and, on a map,
both at once. They part on NaN, which does not equal itself, and on the two
zeros, which are equal and hash apart. The order is lawful throughout.

A hash index never finds a key with a NaN again. Whether it takes a key for a
stored one that is equal and hashed apart, the standard library leaves open: the
table compares a few bits of the hash and then the keys. Such an access is
`unclear`, and nothing is said of a hash index from then on (`hashRun`). The two
kinds of index answer alike exactly when no access is, and when no key with a
NaN and no key with a zero is left stored (`mapContracts_iff`).
-/
import Mathlib.Data.List.Induction
import Srrdb.Engine.Index
import Srrdb.Lib.Codec
import Srrdb.Lib.IeeeTheorems

namespace Srrdb.Engine

open Srrdb.Lib Srrdb.Lib.Ieee

/-! ## Floats -/

namespace Value

/-- A float that is not a number. -/
def isNan : Value → Bool
  | float bits => binary32.isNan bits.toNat
  | double bits => binary64.isNan bits.toNat
  | _ => false

/-- The two zeros of one float type. -/
def oppositeZeros : Value → Value → Bool
  | float a, float b =>
    a ≠ b && binary32.magnitude a.toNat = 0 && binary32.magnitude b.toNat = 0
  | double a, double b =>
    a ≠ b && binary64.magnitude a.toNat = 0 && binary64.magnitude b.toNat = 0
  | _, _ => false

/-- What `impl Hash` feeds the hasher: the variant, then the payload, floats by
their bits, bytes behind their length, a string before the byte 255. -/
def hashed : Value → List UInt8
  | null => [0]
  | int v => 1 :: Codec.leBytes 8 v.toUInt64.toNat
  | uint v => 2 :: Codec.leBytes 8 v.toNat
  | float bits => 3 :: Codec.leBytes 4 bits.toNat
  | double bits => 4 :: Codec.leBytes 8 bits.toNat
  | bytes b => 5 :: (Codec.leBytes 8 b.length ++ b)
  | text s => 6 :: (s.toUTF8.data.toList ++ [255])

end Value

namespace Value

/-- The derived equality: the same value and not NaN, or two zeros. -/
theorem eq_iff {a b : Value} :
    a.eq b = true ↔ a.isNan = false ∧ (a = b ∨ a.oppositeZeros b = true) := by
  cases a <;> cases b <;> simp only [eq, isNan, oppositeZeros, beq_iff_eq, Bool.false_eq_true,
    or_false, true_and, reduceCtorEq, and_false, Value.int.injEq, Value.uint.injEq,
    Value.bytes.injEq, Value.text.injEq]
  case float.float x y =>
    rw [binary32.ieeeEq_iff (UInt32.toNat_lt x) (UInt32.toNat_lt y), UInt32.toNat_inj]
    by_cases hxy : x = y <;> simp [hxy]
  case double.double x y =>
    rw [binary64.ieeeEq_iff (UInt64.toNat_lt x) (UInt64.toNat_lt y), UInt64.toNat_inj]
    by_cases hxy : x = y <;> simp [hxy]

/-- Values feed the hasher the same exactly when they are the same. -/
theorem hashed_eq_iff {a b : Value} : a.hashed = b.hashed ↔ a = b := by
  refine ⟨fun h => ?_, fun h => congrArg hashed h⟩
  -- different variants differ in the first byte
  cases a <;> cases b <;> first
    | exact absurd (List.cons.inj h).1 (by decide)
    | have hpayload := (List.cons.inj h).2
  case null.null => rfl
  case int.int x y =>
    have hbits := Codec.leBytes_inj (UInt64.toNat_lt _) (UInt64.toNat_lt _) hpayload
    exact congrArg (fun bits => int bits.toInt64) (UInt64.toNat_inj.mp hbits)
  case uint.uint x y =>
    rw [UInt64.toNat_inj.mp (Codec.leBytes_inj (UInt64.toNat_lt x) (UInt64.toNat_lt y) hpayload)]
  case float.float x y =>
    rw [UInt32.toNat_inj.mp (Codec.leBytes_inj (UInt32.toNat_lt x) (UInt32.toNat_lt y) hpayload)]
  case double.double x y =>
    rw [UInt64.toNat_inj.mp (Codec.leBytes_inj (UInt64.toNat_lt x) (UInt64.toNat_lt y) hpayload)]
  case bytes.bytes x y =>
    rw [(List.append_inj hpayload (by simp)).2]
  case text.text x y =>
    have hutf8 := Array.toList_inj.mp (List.append_cancel_right hpayload)
    rw [String.toByteArray_inj.mp (ByteArray.ext hutf8)]

/-- The contracts of the two maps for three keys: a total order that agrees
with an equality, which is reflexive and agrees with the hash. -/
structure KeyContracts (a b c : Value) : Prop where
  oriented : b.cmp a = (a.cmp b).swap
  trans : (a.cmp b).isLE → (b.cmp c).isLE → (a.cmp c).isLE
  eq_iff_cmp : a.eq b = true ↔ a.cmp b = .eq
  refl : a.eq a = true
  hash_eq : a.eq b = true → a.hashed = b.hashed

/-- The order is lawful for all values. The equality is one that fits it and the
hash exactly when the first key is a number and the two are not opposite zeros. -/
theorem keyContracts_iff (a b c : Value) :
    KeyContracts a b c ↔ a.isNan = false ∧ a.oppositeZeros b = false := by
  have hcmp : a.cmp b = .eq ↔ a = b := Std.LawfulEqOrd.compare_eq_iff_eq (α := Value)
  have hne : a.oppositeZeros b = true → a ≠ b := by
    rintro h rfl
    cases a <;> simp [oppositeZeros] at h
  constructor
  · intro h
    have hnan := (eq_iff.mp h.refl).1
    refine ⟨hnan, Bool.eq_false_iff.mpr fun hzeros => hne hzeros ?_⟩
    exact hcmp.mp (h.eq_iff_cmp.mp (eq_iff.mpr ⟨hnan, .inr hzeros⟩))
  · rintro ⟨hnan, hzeros⟩
    have heq : a.eq b = true ↔ a = b := by simp [eq_iff, hnan, hzeros]
    exact {
      oriented := Std.OrientedOrd.eq_swap (α := Value)
      trans := Std.TransOrd.isLE_trans (α := Value)
      eq_iff_cmp := heq.trans hcmp.symm
      refl := eq_iff.mpr ⟨hnan, .inl rfl⟩
      hash_eq := fun h => hashed_eq_iff.mpr (heq.mp h) }

end Value

/-! ## Runs of inserts and deletes -/

/-- An insert or a delete of an index. -/
inductive IndexOp where
  | insert (key : Key) (rowId : Nat)
  | delete (key : Key) (rowId : Nat)
  deriving DecidableEq

namespace IndexData

def apply (d : IndexData) : IndexOp → IndexData
  | .insert key rowId => d.insert key rowId
  | .delete key rowId => d.delete key rowId

/-- The index after inserts and deletes, in order. -/
def applyAll (d : IndexData) (ops : List IndexOp) : IndexData := ops.foldl apply d

theorem NoEmptyBucket.applyAll {d : IndexData} (h : d.NoEmptyBucket) (ops : List IndexOp) :
    (d.applyAll ops).NoEmptyBucket := by
  induction ops generalizing d with
  | nil => exact h
  | cons op ops ih =>
    cases op with
    | insert key rowId => exact ih (h.insert key rowId)
    | delete key rowId => exact ih (h.delete key rowId)

@[simp] theorem sameKey_delete (d : IndexData) (key : Key) (rowId : Nat) :
    (d.delete key rowId).sameKey = d.sameKey :=
  sameKey_alter d key _

/-- A key that shares no bucket keeps its ids. -/
theorem lookupEq_applyAll_alone {d : IndexData} {key : Key}
    (hs : ∀ k, d.sameKey k key = false) (ops : List IndexOp) :
    (d.applyAll ops).lookupEq key = d.lookupEq key := by
  induction ops generalizing d with
  | nil => rfl
  | cons op ops ih =>
    cases op with
    | insert k rowId =>
      refine (ih (d := d.insert k rowId) (by simpa using hs)).trans ?_
      rw [lookupEq_insert_sameKey, if_neg (by rw [hs]; exact Bool.false_ne_true)]
    | delete k rowId =>
      refine (ih (d := d.delete k rowId) (by simpa using hs)).trans ?_
      rw [lookupEq_delete_sameKey, if_neg (by rw [hs]; exact Bool.false_ne_true)]

/-- Two indexes that find a key alike go on to do so. -/
theorem lookupEq_applyAll_congr {d d' : IndexData} {key : Key}
    (hs : ∀ k, d.sameKey k key = d'.sameKey k key) (hd : ∀ k, d.sameKey k key → k = key)
    (h : d.lookupEq key = d'.lookupEq key) (ops : List IndexOp) :
    (d.applyAll ops).lookupEq key = (d'.applyAll ops).lookupEq key := by
  induction ops generalizing d d' with
  | nil => exact h
  | cons op ops ih =>
    cases op with
    | insert k rowId =>
      refine @ih (d.insert k rowId) (d'.insert k rowId) (by simpa using hs) (by simpa using hd) ?_
      rw [lookupEq_insert_sameKey, lookupEq_insert_sameKey, ← hs k]
      split
      · next hk => rw [hd k hk, h]
      · exact h
    | delete k rowId =>
      refine @ih (d.delete k rowId) (d'.delete k rowId) (by simpa using hs) (by simpa using hd) ?_
      rw [lookupEq_delete_sameKey, lookupEq_delete_sameKey, ← hs k]
      split
      · next hk => rw [hd k hk, h]
      · exact h

/-- Every id inserted under the key is later deleted there. -/
def Undone (key : Key) (ops : List IndexOp) : Prop :=
  ∀ front rowId rest, ops = front ++ .insert key rowId :: rest → .delete key rowId ∈ rest

theorem undone_cons {key : Key} {op : IndexOp} {ops : List IndexOp} :
    Undone key (op :: ops) ↔
      (∀ rowId, op = .insert key rowId → .delete key rowId ∈ ops) ∧ Undone key ops := by
  constructor
  · intro h
    refine ⟨fun rowId hop => h [] rowId ops (by rw [hop]; rfl), fun front rowId rest hops => ?_⟩
    exact h (op :: front) rowId rest (by rw [hops]; rfl)
  · rintro ⟨hfirst, hrest⟩ front rowId rest hops
    cases front with
    | nil =>
      obtain ⟨hop, rfl⟩ := List.cons.inj hops
      exact hfirst rowId hop
    | cons first front => exact hrest front rowId rest (List.cons.inj hops).2

/-- A B-tree has no id under a key exactly when every one has been deleted. -/
theorem lookupEq_applyAll_eq_nil {d : IndexData} {key : Key}
    (hs : ∀ k, d.sameKey k key = decide (k = key)) (ops : List IndexOp) :
    (d.applyAll ops).lookupEq key = [] ↔
      (∀ rowId ∈ d.lookupEq key, IndexOp.delete key rowId ∈ ops) ∧ Undone key ops := by
  induction ops generalizing d with
  | nil =>
    have hundone : Undone key [] := fun front rowId rest hops => by simp at hops
    simp [applyAll, hundone, List.eq_nil_iff_forall_not_mem]
  | cons op ops ih =>
    cases op with
    | insert k rowId =>
      rw [undone_cons]
      refine (ih (d := d.insert k rowId) (by simpa using hs)).trans ?_
      rw [lookupEq_insert_sameKey, hs]
      by_cases hk : k = key
      · subst hk
        simp [or_imp, forall_and, and_assoc]
      · simp [hk]
    | delete k rowId =>
      rw [undone_cons]
      refine (ih (d := d.delete k rowId) (by simpa using hs)).trans ?_
      rw [lookupEq_delete_sameKey, hs]
      by_cases hk : k = key
      · subst hk
        simp [or_iff_not_imp_left]
      · simp [hk, Ne.symm hk]

/-- A hash index finds the keys without NaN. -/
theorem regular_eq (key : Key) : key.regular = !key.any Value.isNan := by
  rw [Key.regular, List.not_any_eq_all_not]
  refine List.all_congr rfl fun v => ?_
  rw [Bool.eq_iff_iff, Value.eq_iff, Bool.not_eq_true']
  exact and_iff_left (.inl rfl)

theorem hash_sameKey_of_regular {key : Key} (h : key.regular = true) (k : Key) :
    (new .hash).sameKey k key = decide (k = key) := by
  rw [Bool.eq_iff_iff, decide_eq_true_eq]
  refine ⟨eq_of_sameKey, ?_⟩
  rintro rfl
  exact Key.hashMatches_iff.mpr ⟨rfl, h⟩

/-- On keys without NaN a hash index answers like a B-tree. -/
theorem lookupEq_hash_of_regular {key : Key} (h : key.regular = true) (ops : List IndexOp) :
    ((new .hash).applyAll ops).lookupEq key = ((new .bTree).applyAll ops).lookupEq key := by
  refine lookupEq_applyAll_congr (fun k => ?_) (fun k => eq_of_sameKey) ?_ ops
  · exact hash_sameKey_of_regular h k
  · rw [lookupEq_new, lookupEq_new]

/-- It finds no key with NaN. -/
theorem lookupEq_hash_of_nan {key : Key} (h : key.any Value.isNan = true) (ops : List IndexOp) :
    ((new .hash).applyAll ops).lookupEq key = [] := by
  have hirregular : key.regular = false := by rw [regular_eq, h]; rfl
  rw [lookupEq_applyAll_alone (fun k => ?_), lookupEq_new]
  refine Bool.eq_false_iff.mpr fun hk => ?_
  obtain ⟨rfl, hregular⟩ := Key.hashMatches_iff.mp hk
  rw [hirregular] at hregular
  cases hregular

end IndexData

/-! ## Equal keys that hash apart -/

/-- The derived equality of two vectors of values. -/
def Key.eq : Key → Key → Bool
  | [], [] => true
  | a :: as, b :: bs => a.eq b && Key.eq as bs
  | _, _ => false

/-- Two keys that are equal and feed the hasher differently: somewhere they have
the two zeros of a float type. -/
def Key.Apart (k k' : Key) : Prop := k.eq k' = true ∧ k ≠ k'

theorem Key.regular_of_eq : ∀ {k k' : Key}, k.eq k' = true → k.regular = true
  | [], _, _ => rfl
  | _ :: _, [], h => by cases h
  | a :: as, b :: bs, h => by
    rw [Key.eq, Bool.and_eq_true] at h
    have hself : a.eq a = true := Value.eq_iff.mpr ⟨(Value.eq_iff.mp h.1).1, .inl rfl⟩
    rw [Key.regular, List.all_cons, hself, Bool.true_and]
    exact Key.regular_of_eq h.2

/-- The key of an insert or a delete. -/
def IndexOp.key : IndexOp → Key
  | insert key _ => key
  | delete key _ => key

namespace IndexData

/-- A hash index has stored a key that equals this one and is hashed apart. -/
def unclear : IndexData → Key → Bool
  | .bTree _, _ => false
  | .hash map, key => map.entries.any fun entry => entry.1.eq key && decide (entry.1 ≠ key)

/-- A hash index after inserts and deletes, as far as the standard library says
what becomes of it. -/
def hashRun (ops : List IndexOp) : Option IndexData :=
  ops.foldl (fun d op => d.bind fun d => if d.unclear op.key then none else some (d.apply op))
    (some (new .hash))

/-- `lookup_eq` on it. -/
def hashLookup (d : Option IndexData) (key : Key) : Option (List Nat) :=
  d.bind fun d => if d.unclear key then none else some (d.lookupEq key)

/-- A key without NaN has a bucket exactly when ids are found under it. -/
theorem bucket_iff_lookupEq {map : PerMap Key (List Nat) Key.hashMatches}
    (h : (hash map).NoEmptyBucket) {key : Key} (hregular : key.regular = true) :
    (∃ entry ∈ map.entries, entry.1 = key) ↔ (hash map).lookupEq key ≠ [] := by
  have hself : key.hashMatches key = true := Key.hashMatches_iff.mpr ⟨rfl, hregular⟩
  constructor
  · rintro ⟨entry, hentry, rfl⟩
    have hfound : (map.entries.find? fun e => e.1.hashMatches entry.1).isSome :=
      List.find?_isSome.mpr ⟨entry, hentry, hself⟩
    obtain ⟨found, hfind⟩ := Option.isSome_iff_exists.mp hfound
    have hne := h found (List.mem_of_find?_eq_some hfind)
    simpa [lookupEq, bucket?, PerMap.get, hfind] using hne
  · intro hne
    cases hfind : map.entries.find? fun e => e.1.hashMatches key with
    | none => simp [lookupEq, bucket?, PerMap.get, hfind] at hne
    | some entry =>
      have hmatches := List.find?_some hfind
      exact ⟨entry, List.mem_of_find?_eq_some hfind, (Key.hashMatches_iff.mp hmatches).1⟩

theorem applyAll_hash (ops : List IndexOp) : ∃ map, (new .hash).applyAll ops = hash map := by
  have hstep : ∀ d : IndexData, (∃ map, d = hash map) → ∃ map, d.applyAll ops = hash map := by
    induction ops with
    | nil => exact fun d h => h
    | cons op ops ih =>
      rintro d ⟨map, rfl⟩
      refine ih ((hash map).apply op) ?_
      cases op <;> exact ⟨_, rfl⟩
  exact hstep _ ⟨_, rfl⟩

/-- An access is clear when nothing is left under the keys hashed apart. -/
theorem unclear_iff (ops : List IndexOp) (key : Key) :
    ((new .hash).applyAll ops).unclear key = false ↔ ∀ k : Key, k.Apart key → Undone k ops := by
  have hbuckets := (noEmptyBucket_new .hash).applyAll ops
  have hempty : ∀ k : Key, k.regular = true →
      (((new .hash).applyAll ops).lookupEq k = [] ↔ Undone k ops) := by
    intro k hk
    rw [lookupEq_applyAll_eq_nil (hash_sameKey_of_regular hk)]
    simp
  obtain ⟨map, hmap⟩ := applyAll_hash ops
  rw [hmap] at hbuckets hempty ⊢
  rw [unclear, List.any_eq_false]
  constructor
  · intro h k hk
    have hregular := Key.regular_of_eq hk.1
    refine (hempty k hregular).mp (by_contra fun hne => ?_)
    obtain ⟨entry, hentry, rfl⟩ := (bucket_iff_lookupEq hbuckets hregular).mpr hne
    exact h entry hentry (by simp [hk.1, hk.2])
  · intro h entry hentry hapart
    rw [Bool.and_eq_true, decide_eq_true_eq] at hapart
    have hregular := Key.regular_of_eq hapart.1
    have hnil := (hempty entry.1 hregular).mpr (h entry.1 hapart)
    exact (bucket_iff_lookupEq hbuckets hregular).mp ⟨entry, hentry, rfl⟩ hnil

/-- No operation is under a key while an id is left under one hashed apart. -/
def Clear (ops : List IndexOp) : Prop :=
  ∀ front op rest, ops = front ++ op :: rest → ∀ k : Key, k.Apart op.key → Undone k front

/-- A run is defined to the end when every operation is clear. -/
theorem hashRun_eq (ops : List IndexOp) :
    (Clear ops → hashRun ops = some ((new .hash).applyAll ops)) ∧
      (¬ Clear ops → hashRun ops = none) := by
  induction ops using List.reverseRecOn with
  | nil => exact ⟨fun _ => rfl, fun h => absurd (fun front op rest hops => by simp at hops) h⟩
  | append_singleton ops op ih =>
    have hclear : Clear (ops ++ [op]) ↔ Clear ops ∧ ∀ k : Key, k.Apart op.key → Undone k ops := by
      constructor
      · intro h
        refine ⟨fun front op' rest hops => ?_, h ops op [] rfl⟩
        exact h front op' (rest ++ [op]) (by rw [hops, List.append_assoc]; rfl)
      · rintro ⟨h, hlast⟩ front op' rest hops
        rcases List.eq_nil_or_concat rest with rfl | ⟨rest', last, rfl⟩
        · obtain ⟨rfl, hop⟩ := List.append_inj' hops rfl
          cases hop
          exact hlast
        · rw [List.concat_eq_append, ← List.cons_append, ← List.append_assoc] at hops
          exact h front op' rest' (List.append_inj' hops rfl).1
    have hstep : hashRun (ops ++ [op]) = (hashRun ops).bind fun d =>
        if d.unclear op.key then none else some (d.apply op) := by
      rw [hashRun, List.foldl_append]
      rfl
    have happly : (new .hash).applyAll (ops ++ [op]) = ((new .hash).applyAll ops).apply op := by
      rw [applyAll, List.foldl_append]
      rfl
    rw [hclear, hstep]
    constructor
    · rintro ⟨h, hlast⟩
      rw [ih.1 h, Option.bind_some, (unclear_iff ops op.key).mpr hlast, happly]
      rfl
    · intro h
      by_cases hbefore : Clear ops
      · have hlast := mt (fun hlast => ⟨hbefore, hlast⟩) h
        rw [← unclear_iff, Bool.not_eq_false] at hlast
        rw [ih.1 hbefore, Option.bind_some, hlast]
        rfl
      · rw [ih.2 hbefore]
        rfl

/-- What the operations must not leave behind. -/
structure NothingOdd (ops : List IndexOp) : Prop where
  nan : ∀ key : Key, key.any Value.isNan = true → Undone key ops
  zero : ∀ key key' : Key, key.Apart key' → Undone key ops
  clear : Clear ops

/-- The two kinds of index give the same ids for every key exactly when every
insert under a key with NaN or a zero is undone, and no operation meets a key
that is equal and hashed apart. -/
theorem lookupEq_agree_iff (ops : List IndexOp) :
    (∀ key, hashLookup (hashRun ops) key = some (((new .bTree).applyAll ops).lookupEq key)) ↔
      NothingOdd ops := by
  have hnan : ∀ key : Key, key.any Value.isNan = true →
      ([] = ((new .bTree).applyAll ops).lookupEq key ↔ Undone key ops) := by
    intro key hkey
    rw [eq_comm, lookupEq_applyAll_eq_nil (fun k => rfl)]
    simp
  constructor
  · intro h
    have hclear : Clear ops := by
      by_contra hnot
      have hkey := h []
      rw [(hashRun_eq ops).2 hnot] at hkey
      cases hkey
    rw [(hashRun_eq ops).1 hclear] at h
    have hfound : ∀ key, ((new .hash).applyAll ops).unclear key = false ∧
        ((new .hash).applyAll ops).lookupEq key = ((new .bTree).applyAll ops).lookupEq key := by
      intro key
      have hkey := h key
      rw [hashLookup, Option.bind_some] at hkey
      split at hkey
      · cases hkey
      · next hunclear => exact ⟨Bool.eq_false_iff.mpr hunclear, Option.some.inj hkey⟩
    refine ⟨fun key hkey => ?_, fun key key' hapart => ?_, hclear⟩
    · have hsame := (hfound key).2
      rw [lookupEq_hash_of_nan hkey] at hsame
      exact (hnan key hkey).mp hsame
    · exact (unclear_iff ops key').mp (hfound key').1 key hapart
  · intro h key
    rw [(hashRun_eq ops).1 h.clear, hashLookup, Option.bind_some,
      (unclear_iff ops key).mpr fun k hk => h.zero k key hk]
    refine congrArg some ?_
    cases hkey : key.any Value.isNan with
    | true =>
      rw [lookupEq_hash_of_nan hkey]
      exact (hnan key hkey).mpr (h.nan key hkey)
    | false =>
      refine lookupEq_hash_of_regular ?_ ops
      rw [regular_eq, hkey]
      rfl

/-- `Ord`, `Eq` and `Hash` keep the contracts of the maps, and the two kinds of
index answer alike, exactly when the first value is a number, the first two are
not the two zeros of a float type, and the operations leave nothing odd. -/
theorem mapContracts_iff (a b c : Value) (ops : List IndexOp) :
    (Value.KeyContracts a b c ∧
      ∀ key, hashLookup (hashRun ops) key = some (((new .bTree).applyAll ops).lookupEq key)) ↔
    (a.isNan = false ∧ a.oppositeZeros b = false) ∧ NothingOdd ops :=
  and_congr (Value.keyContracts_iff a b c) (lookupEq_agree_iff ops)

/-- `0.0` and `-0.0` are equal in a different order and hash apart, and NaN does
not equal itself. A row under NaN is found by the B-tree only. Of a row under
`0.0`, nobody says whether a hash index finds it under `-0.0`. -/
theorem zeros_and_nan_break_contracts :
    ¬ Value.KeyContracts (.double 0) (.double 0x8000000000000000) .null ∧
    ¬ Value.KeyContracts (.double 0x7FF8000000000000) .null .null ∧
    hashLookup (hashRun [.insert [.double 0x7FF8000000000000] 1]) [.double 0x7FF8000000000000] ≠
      some (((new .bTree).applyAll [.insert [.double 0x7FF8000000000000] 1]).lookupEq
        [.double 0x7FF8000000000000]) ∧
    hashLookup (hashRun [.insert [.double 0] 1]) [.double 0x8000000000000000] ≠
      some (((new .bTree).applyAll [.insert [.double 0] 1]).lookupEq
        [.double 0x8000000000000000]) := by
  refine ⟨?_, ?_, ?_, ?_⟩
  · rw [Value.keyContracts_iff]
    decide +kernel
  · rw [Value.keyContracts_iff]
    decide +kernel
  · decide +kernel
  · decide +kernel

end IndexData

end Srrdb.Engine

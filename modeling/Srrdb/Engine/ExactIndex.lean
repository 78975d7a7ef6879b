/-
Srrdb.Engine.ExactIndex — what it means for an index to be exact, and how it
stays so.

An index that holds a list of entries, each an id under a key, answers a key
with the ids of that key (`Holds`). Insertion adds an entry and deletion
takes it away, whatever the entries are, so an index may also be followed
while a table is only half indexed. An index is exact for a table when it
holds the entries of the table and has no empty bucket; `exact_iff_holds`
connects the two.
-/
import Srrdb.Engine.IndexTheorems
import Srrdb.Engine.RowChanges

namespace Srrdb.Engine

open Srrdb.Lib

/-! ## Indexes and their entries -/

/-- The index holds these entries and no others: each id under its key. -/
def Holds (data : IndexData) (entries : List (Key × Nat)) : Prop :=
  ∀ key, (data.lookupEq key).Perm ((entries.filter fun e => e.1 = key).map Prod.snd)

theorem Holds.perm {data : IndexData} {entries entries' : List (Key × Nat)}
    (h : Holds data entries) (hp : entries.Perm entries') : Holds data entries' :=
  fun key => (h key).trans ((hp.filter _).map _)

theorem holds_new (t : IndexType) : Holds (.new t) [] := by
  intro key
  simp

theorem Holds.insert {data : IndexData} {entries : List (Key × Nat)} (h : Holds data entries)
    {key : Key} (hk : key.regular = true) (id : Nat) :
    Holds (data.insert key id) ((key, id) :: entries) := by
  intro key'
  rw [IndexData.lookupEq_insert data hk, List.filter_cons]
  by_cases heq : key = key'
  · subst heq
    simp only [if_true, decide_true, List.map_cons]
    exact ((h key).append_right [id]).trans (List.perm_append_singleton id _)
  · simp only [heq, if_false, decide_false]
    exact h key'

theorem Holds.delete {data : IndexData} {entries : List (Key × Nat)} (h : Holds data entries)
    {key : Key} (hk : key.regular = true) (id : Nat) :
    Holds (data.delete key id) (entries.filter fun e => e ≠ (key, id)) := by
  intro key'
  rw [IndexData.lookupEq_delete data hk, List.filter_filter]
  by_cases heq : key = key'
  · subst heq
    rw [if_pos rfl]
    refine ((h key).filter _).trans ?_
    rw [List.filter_map, List.filter_filter]
    refine .of_eq (congrArg _ (List.filter_congr fun e _ => ?_))
    obtain ⟨k, i⟩ := e
    by_cases hki : k = key <;> simp [hki]
  · rw [if_neg heq]
    refine (h key').trans (.of_eq (congrArg _ (List.filter_congr fun e _ => ?_)))
    obtain ⟨k, i⟩ := e
    by_cases hki : k = key'
    · simp [hki, Ne.symm heq]
    · simp [hki]

/-! ## The entries of a table -/

namespace Table

/-- What an exact index of the table holds. -/
def keyEntries (keyOf : Row → Key) (t : Table) : List (Key × Nat) :=
  t.toList.map fun e => (keyOf e.2, e.1)

@[simp] theorem keyEntries_empty (keyOf : Row → Key) : keyEntries keyOf ∅ = [] := by
  simp [keyEntries]

theorem mem_keyEntries {keyOf : Row → Key} {t : Table} {key : Key} {id : Nat} :
    (key, id) ∈ t.keyEntries keyOf ↔ ∃ row, t[id]? = some row ∧ keyOf row = key := by
  rw [keyEntries, List.mem_map]
  constructor
  · intro h
    obtain ⟨⟨id', row⟩, hmem, heq⟩ := h
    cases heq
    exact ⟨row, OrdMap.mem_toList.mp hmem, rfl⟩
  · intro h
    obtain ⟨row, hget, rfl⟩ := h
    exact ⟨(id, row), OrdMap.mem_toList.mpr hget, rfl⟩

theorem nodup_keyEntries_ids (keyOf : Row → Key) (t : Table) :
    ((t.keyEntries keyOf).map Prod.snd).Nodup := by
  rw [keyEntries, List.map_map, List.nodup_iff_pairwise_ne, List.pairwise_map]
  exact OrdMap.pairwise_ne_toList t

theorem keyEntries_insert {keyOf : Row → Key} {t : Table} {id : Nat} (h : t[id]? = none)
    (row : Row) :
    (keyEntries keyOf (t.insert id row)).Perm ((keyOf row, id) :: t.keyEntries keyOf) :=
  (OrdMap.toList_insert_perm h row).map _

/-- The entries without one row are the entries of the table without it. -/
theorem keyEntries_erase {keyOf : Row → Key} {t : Table} {id : Nat} {row : Row}
    (h : t[id]? = some row) :
    ((t.keyEntries keyOf).filter fun e => e ≠ (keyOf row, id)).Perm
      (keyEntries keyOf (t.erase id)) := by
  have hperm : (t.keyEntries keyOf).Perm ((keyOf row, id) :: keyEntries keyOf (t.erase id)) :=
    (OrdMap.toList_erase_perm h).map _
  refine (hperm.filter _).trans ?_
  rw [List.filter_cons_of_neg (by simp), List.filter_eq_self.mpr]
  intro e he
  rw [decide_eq_true_eq]
  intro heq
  subst heq
  obtain ⟨row', hget, -⟩ := mem_keyEntries.mp he
  rw [Std.ExtTreeMap.getElem?_erase, if_pos Std.ReflCmp.compare_self] at hget
  cases hget

end Table

/-! ## Exactness -/

/-- The bucket of a key contains the id of each row with that key exactly
once and no other id, and no bucket is empty. -/
structure Exact (data : IndexData) (keyOf : Row → Key) (t : Table) : Prop where
  nodup : ∀ key, (data.lookupEq key).Nodup
  mem : ∀ key id, id ∈ data.lookupEq key ↔ ∃ row, t[id]? = some row ∧ keyOf row = key
  noEmptyBucket : data.NoEmptyBucket

theorem exact_iff_holds {data : IndexData} {keyOf : Row → Key} {t : Table} :
    Exact data keyOf t ↔ Holds data (t.keyEntries keyOf) ∧ data.NoEmptyBucket := by
  have hnodup : ∀ key, (((t.keyEntries keyOf).filter fun e => e.1 = key).map Prod.snd).Nodup :=
    fun key => (Table.nodup_keyEntries_ids keyOf t).sublist (List.filter_sublist.map _)
  have hmem : ∀ key id, id ∈ ((t.keyEntries keyOf).filter fun e => e.1 = key).map Prod.snd ↔
      ∃ row, t[id]? = some row ∧ keyOf row = key := by
    intro key id
    rw [← Table.mem_keyEntries, List.mem_map]
    constructor
    · intro h
      obtain ⟨⟨k, i⟩, he, rfl⟩ := h
      rw [List.mem_filter, decide_eq_true_eq] at he
      obtain ⟨he, rfl⟩ := he
      exact he
    · intro h
      exact ⟨(key, id), List.mem_filter.mpr ⟨h, by simp⟩, rfl⟩
  constructor
  · intro h
    refine ⟨fun key => ?_, h.noEmptyBucket⟩
    refine (List.perm_ext_iff_of_nodup (h.nodup key) (hnodup key)).mpr fun id => ?_
    rw [h.mem, hmem]
  · intro h
    obtain ⟨hholds, hne⟩ := h
    refine ⟨fun key => (hholds key).nodup_iff.mpr (hnodup key), fun key id => ?_, hne⟩
    rw [(hholds key).mem_iff, hmem]

theorem Exact.empty (t : IndexType) (keyOf : Row → Key) : Exact (.new t) keyOf ∅ := by
  rw [exact_iff_holds, Table.keyEntries_empty]
  exact ⟨holds_new t, IndexData.noEmptyBucket_new t⟩

section Steps

variable {data : IndexData} {keyOf : Row → Key} {t : Table}

/-- What an index sees of a table is the key of each row. -/
theorem Exact.congr (h : Exact data keyOf t) {t' : Table}
    (hkeys : ∀ id : Nat, t'[id]?.map keyOf = t[id]?.map keyOf) : Exact data keyOf t' := by
  refine ⟨h.nodup, fun key id => (h.mem key id).trans ?_, h.noEmptyBucket⟩
  have hiff : ∀ t : Table, (∃ row, t[id]? = some row ∧ keyOf row = key) ↔
      t[id]?.map keyOf = some key := by
    intro t
    rw [Option.map_eq_some_iff]
  rw [hiff, hiff, hkeys id]

/-- Indexing a new row. -/
theorem Exact.insert (h : Exact data keyOf t) {id : Nat} (hnew : t[id]? = none) {row : Row}
    (hk : (keyOf row).regular = true) :
    Exact (data.insert (keyOf row) id) keyOf (t.insert id row) := by
  rw [exact_iff_holds] at h ⊢
  exact ⟨(h.1.insert hk id).perm (Table.keyEntries_insert hnew row).symm, h.2.insert _ _⟩

/-- Removing a row. -/
theorem Exact.delete (h : Exact data keyOf t) {id : Nat} {row : Row} (hget : t[id]? = some row)
    (hk : (keyOf row).regular = true) :
    Exact (data.delete (keyOf row) id) keyOf (t.erase id) := by
  rw [exact_iff_holds] at h ⊢
  exact ⟨(h.1.delete hk id).perm (Table.keyEntries_erase hget), h.2.delete _ _⟩

/-- Indexing rows whose ids are new and distinct. -/
theorem Exact.insertMany {rows : List Row} (h : Exact data keyOf t)
    (hnd : (rows.map (·.id)).Nodup) (hnew : ∀ row ∈ rows, t[row.id]? = none)
    (hk : ∀ row ∈ rows, (keyOf row).regular = true) :
    Exact (rows.foldl (fun d row => d.insert (keyOf row) row.id) data) keyOf
      (rows.foldl (fun t row => t.insert row.id row) t) := by
  induction rows generalizing data t with
  | nil => exact h
  | cons row rest ih =>
    rw [List.map_cons, List.nodup_cons] at hnd
    refine ih (h.insert (hnew row List.mem_cons_self) (hk row List.mem_cons_self)) hnd.2 ?_
      fun r hr => hk r (List.mem_cons_of_mem _ hr)
    intro r hr
    rw [Std.ExtTreeMap.getElem?_insert, if_neg]
    · exact hnew r (List.mem_cons_of_mem _ hr)
    · rw [Std.LawfulEqCmp.compare_eq_iff_eq]
      intro heq
      exact hnd.1 (heq ▸ List.mem_map_of_mem hr)

/-- Removing distinct rows of the table. -/
theorem Exact.deleteMany {rows : List Row} (h : Exact data keyOf t)
    (hnd : (rows.map (·.id)).Nodup) (hget : ∀ row ∈ rows, t[row.id]? = some row)
    (hk : ∀ row ∈ rows, (keyOf row).regular = true) :
    Exact (rows.foldl (fun d row => d.delete (keyOf row) row.id) data) keyOf
      (eraseRows rows t) := by
  induction rows generalizing data t with
  | nil => exact h
  | cons row rest ih =>
    rw [List.map_cons, List.nodup_cons] at hnd
    refine ih (h.delete (hget row List.mem_cons_self) (hk row List.mem_cons_self)) hnd.2 ?_
      fun r hr => hk r (List.mem_cons_of_mem _ hr)
    intro r hr
    rw [Std.ExtTreeMap.getElem?_erase, if_neg]
    · exact hget r (List.mem_cons_of_mem _ hr)
    · rw [Std.LawfulEqCmp.compare_eq_iff_eq]
      intro heq
      exact hnd.1 (heq ▸ List.mem_map_of_mem hr)

end Steps

end Srrdb.Engine

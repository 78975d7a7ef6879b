/-
Srrdb.Engine.IndexTheorems — building an index.
-/
import Srrdb.Engine.Outcomes

namespace Srrdb.Engine

open Srrdb.Sql

/-! ## The build loop of CREATE INDEX -/

/-- Do two keys share a bucket in an index of this type? -/
def IndexType.sameKey (t : IndexType) : Key → Key → Bool := (IndexData.new t).sameKey

/-- Two rows share a bucket of the index. -/
def DuplicateKeys (indexDef : IndexDef) (tableColumns : List Column) (rows : List Row) : Prop :=
  ¬ rows.Pairwise fun a b => indexDef.indexType.sameKey (getIndexKey a indexDef tableColumns)
    (getIndexKey b indexDef tableColumns) = false

/-- The loop stops on the first row whose bucket is taken, by the data it
started from or by an earlier row. -/
theorem buildIndex_error_of {indexDef : IndexDef} {tableColumns : List Column}
    (hu : indexDef.unique = true) :
    ∀ {rows : List Row} {data : IndexData},
      (∃ dup, buildIndex indexDef tableColumns rows data = .error dup) ↔
        (∃ row ∈ rows, data.lookupEq (getIndexKey row indexDef tableColumns) ≠ []) ∨
        ¬ rows.Pairwise fun a b => data.sameKey (getIndexKey a indexDef tableColumns)
          (getIndexKey b indexDef tableColumns) = false
  | [], data => by simp [buildIndex]
  | row :: rows, data => by
    have hkey : getIndexKey row indexDef tableColumns =
      buildKey tableColumns indexDef.columns row.values := rfl
    unfold buildIndex
    simp only [← hkey, hu, Bool.true_and, List.mem_cons, List.pairwise_cons]
    by_cases hl : data.lookupEq (getIndexKey row indexDef tableColumns) = []
    · rw [if_neg (by simp [hl]), buildIndex_error_of hu]
      simp only [IndexData.sameKey_insert, IndexData.lookupEq_insert_sameKey]
      constructor
      · rintro (⟨r, hr, hne⟩ | hdup)
        · split at hne
          · next hs => exact .inr fun h => by simp [h.1 r hr] at hs
          · exact .inl ⟨r, .inr hr, hne⟩
        · exact .inr fun h => hdup h.2
      · rintro (⟨r, rfl | hr, hne⟩ | hdup)
        · exact absurd hl hne
        · refine .inl ⟨r, hr, ?_⟩
          split
          · simp
          · exact hne
        · by_cases hrow : ∀ r ∈ rows, data.sameKey (getIndexKey row indexDef tableColumns)
              (getIndexKey r indexDef tableColumns) = false
          · exact .inr fun h => hdup ⟨hrow, h⟩
          · push Not at hrow
            obtain ⟨r, hr, hs⟩ := hrow
            refine .inl ⟨r, hr, ?_⟩
            rw [if_pos (by simpa using hs)]
            simp
    · rw [if_pos (by simpa using hl)]
      exact iff_of_true ⟨_, rfl⟩ (.inl ⟨row, .inl rfl, hl⟩)

/-- CREATE INDEX finds a duplicate exactly when the index is unique and two
rows share a bucket. -/
theorem buildIndex_error_iff {indexDef : IndexDef} {tableColumns : List Column}
    {rows : List Row} :
    (∃ dup, buildIndex indexDef tableColumns rows (.new indexDef.indexType) = .error dup) ↔
      indexDef.unique = true ∧ DuplicateKeys indexDef tableColumns rows := by
  cases hu : indexDef.unique with
  | true =>
    rw [buildIndex_error_of hu]
    simp [DuplicateKeys, IndexType.sameKey]
  | false =>
    have hok : ∀ rows data, ∃ d, buildIndex indexDef tableColumns rows data = .ok d := by
      intro rows
      induction rows with
      | nil => exact fun data => ⟨data, rfl⟩
      | cons row rest ih =>
        intro data
        rw [buildIndex, hu]
        exact ih _
    obtain ⟨d, hd⟩ := hok rows (.new indexDef.indexType)
    simp [hd]

end Srrdb.Engine

/-
Srrdb.Server.RelationSteps — a server as a database of lists.

`relations` forgets ids, index data, log, files and mutexes. Each operation of
the storage is then an operation on lists (`relations_insertRows`,
`relations_change`, `relations_clearTable`) or not seen. WHERE, ORDER BY and
the projection read the values of a row alone, so they do the same to what is
left of it, and CREATE INDEX is refused for the keys and not for the ids
(`buildIndex_error_iff_repeated`).
-/
import Srrdb.Server.Relations

namespace Srrdb.Server

open Srrdb.Engine Srrdb.Sql Srrdb.Lib Relations

section Theory

variable [Host]

omit [Host] in
/-- The catalog and the values of the rows. -/
def relations (e : Executor) : Relations :=
  ⟨e.catalog.value, e.storage.value.tables.map fun _ t => tableValues t⟩

omit [Host] in
theorem relations_congr {e e' : Executor} (hc : e'.catalog.value = e.catalog.value)
    (ht : e'.storage.value.tables = e.storage.value.tables) : relations e' = relations e := by
  rw [relations, relations, hc, ht]

theorem rows_relations (e : Executor) (tableName : String) :
    (relations e).rows[normalize tableName]? =
      (e.storage.value.getTable? tableName).map tableValues := by
  rw [relations, Std.ExtTreeMap.getElem?_map, Storage.getTable?]

theorem getRows_relations (e : Executor) (tableName : String) :
    (relations e).getRows tableName = (e.storage.value.getRows tableName).map (·.values) := by
  rw [Relations.getRows, rows_relations, Storage.getRows, Storage.getTable?]
  cases e.storage.value.tables[normalize tableName]? <;> rfl

/-! ## Storage operations -/

omit [Host] in
/-- An entry replaced, and the rest as it was. -/
theorem map_insert_tables (tables : Std.ExtTreeMap String Table) (tn : String) (t : Table) :
    (tables.insert tn t).map (fun _ t => tableValues t) =
      (tables.map fun _ t => tableValues t).insert tn (tableValues t) := by
  refine Std.ExtTreeMap.ext_getElem? fun k => ?_
  simp only [Std.ExtTreeMap.getElem?_map, Std.ExtTreeMap.getElem?_insert]
  split <;> rfl

/-- `insert_rows` appends the rows. -/
theorem relations_insertRows {e : Executor} (he : StorageConsistent e) (tableName : String)
    {rows : List Row} (hz : ∀ row ∈ rows, row.id = 0) :
    relations (e.setStorage (e.storage.value.insertRows tableName rows).2) =
      (relations e).putRows tableName
        ((relations e).getRows tableName ++ rows.map (·.values)) := by
  have happend := rows_insertLoop hz (he.sound tableName)
  rw [getRows_relations, Storage.getRows_eq, ← happend]
  exact congrArg (Relations.mk e.catalog.value) (map_insert_tables _ _ _)

/-- DELETE and UPDATE rewrite one entry. -/
theorem relations_change {tableName : String} {change : Storage → List Row → Storage}
    {rewrite : List Row → Table → Table} (hrw : Rewrites tableName change rewrite) {e : Executor}
    {t : Table} (ht : e.storage.value.getTable? tableName = some t) (rows : List Row) :
    relations (e.setStorage (change e.storage.value rows)) =
      (relations e).putRows tableName (tableValues (rewrite rows t)) := by
  have htables := (hrw.sameRows e.storage.value rows).tables
  rw [Storage.tables_modifyTable ht] at htables
  rw [relations, Executor.setStorage_storage_value, htables, map_insert_tables]
  rfl

/-- `clear_table` takes an entry away. -/
theorem relations_clearTable (e : Executor) (tableName : String) :
    relations (e.setStorage (e.storage.value.clearTable tableName)) =
      ⟨e.catalog.value, (relations e).rows.erase (normalize tableName)⟩ := by
  refine congrArg (Relations.mk e.catalog.value) (Std.ExtTreeMap.ext_getElem? fun k => ?_)
  simp only [Executor.setStorage_storage_value, Storage.clearTable, relations,
    Std.ExtTreeMap.getElem?_map, Std.ExtTreeMap.getElem?_erase]
  split <;> rfl

/-! ## Rows and their values -/

omit [Host] in
/-- What is left of a row: its values. -/
def strip (row : Row) : Row := valueRow row.values

section Rows

variable [ExprDebug] {columns : List Column} {selection : Option Expr}

omit [Host] [ExprDebug] in
theorem map_valueRow (rows : List Row) :
    (rows.map (·.values)).map valueRow = rows.map strip :=
  List.map_map

theorem rowSelected_strip (row : Row) :
    rowSelected columns selection (strip row) = rowSelected columns selection row := by
  cases selection <;> rfl

theorem selects_strip (row : Row) :
    selects columns selection (strip row) = selects columns selection row := by
  rw [selects, selects, rowSelected_strip]

/-- A WHERE clause chooses among the values what it chooses among the rows. -/
theorem selectRows_strip (rows : List Row) :
    selectRows columns selection (rows.map strip) =
      (selectRows columns selection rows).map (List.map strip) := by
  induction rows with
  | nil => rfl
  | cons row rest ih =>
    rw [List.map_cons, selectRows, selectRows, rowSelected_strip, ih]
    cases rowSelected columns selection row with
    | error x => rfl
    | ok keep =>
      cases selectRows columns selection rest with
      | error x => rfl
      | ok others => cases keep <;> rfl

omit [Host] [ExprDebug] in
theorem sortRows_strip (rows : List Row) (orderBy : List OrderByExpr) (columns : List Column) :
    sortRows (rows.map strip) orderBy columns = (sortRows rows orderBy columns).map strip := by
  rw [sortRows, sortRows]
  generalize orderBy.reverse = keys
  induction keys generalizing rows with
  | nil => rfl
  | cons key rest ih =>
    rw [List.foldl_cons, List.foldl_cons, ← ih]
    congr 1
    cases key.expr with
    | identifier id =>
      cases hpos : columnPosition columns id with
      | none => simp only [hpos]
      | some idx =>
        simp only [hpos]
        exact (List.map_mergeSort (f := strip) fun _ _ _ _ => rfl).symm
    | _ => rfl

omit [Host] [ExprDebug] in
/-- ORDER BY, the projection and LIMIT do not read ids either. -/
theorem finishQuery_strip (query : Query) (select : Select) (columns : List Column)
    (rows : List Row) :
    finishQuery query select columns (rows.map strip) =
      finishQuery query select columns rows := by
  have hproject : ∀ rows : List Row,
      ((rows.map strip).map fun row =>
        (⟨0, projectRow select.projection columns row.values⟩ : Row)) =
      rows.map fun row => ⟨0, projectRow select.projection columns row.values⟩ :=
    fun rows => List.map_map
  unfold finishQuery
  cases query.orderBy with
  | none => simp only [hproject]
  | some order =>
    cases order with
    | all => simp only [hproject]
    | expressions exprs => simp only [sortRows_strip, hproject]

omit [Host] [ExprDebug] in
/-- The server orders its rows in a way that a SELECT may. -/
theorem finishes_finishQuery (query : Query) (select : Select) (tableName : String)
    (columns : List Column) (found : List Row) :
    Finishes query select tableName columns (.ok found)
      (.ok (.rows (select.projection.flatMap (projectColumns columns tableName))
        (finishQuery query select columns found))) := by
  have hsorts := sortsByKeys_sortKeys (queryKeys query columns) found
  have hfinish : finishQuery query select columns found =
      finishQuery { query with orderBy := none } select columns
        (sortKeys (queryKeys query columns) found) := by
    unfold finishQuery queryKeys
    cases query.orderBy with
    | none => rfl
    | some order =>
      cases order with
      | all => rfl
      | expressions exprs => simp only [sortRows_eq_sortKeys]
  rw [hfinish]
  exact .sorted hsorts

omit [Host] [ExprDebug] in
/-- Where no values of an ORDER BY column clash, a SELECT has its rows in order. -/
theorem sortedBy_of_no_clash {query : Query} {columns : List Column} {found : List Row}
    {sorted : Option (List Row)} (h : SortsByKeys found (queryKeys query columns) sorted)
    (hno : ∀ exprs, query.orderBy = some (.expressions exprs) →
      ∀ p ∈ exprs.filterMap (orderColumn columns), ¬ Engine.Clashes (found.map (Engine.cell p.1))) :
    ∃ rows, sorted = some rows ∧ SortedBy (compareKeys (queryKeys query columns)) found rows := by
  refine h.sortedBy fun key hkey => ?_
  unfold queryKeys at hkey
  split at hkey
  · next exprs horder =>
    obtain ⟨p, hp, rfl⟩ := List.mem_map.mp hkey
    exact preorderOn_rowOrder_iff.mpr (preorderOn_valueOrder_iff.mpr (hno exprs horder p hp))
  · cases hkey

/-! ## Indexes -/

omit [ExprDebug] in
/-- Without an index for its conditions a SELECT reads all rows. -/
theorem candidateRows_of_uncovered {indexes : List IndexDef}
    (h : covers indexes selection = false) (s : Storage) (tableName : String) :
    candidateRows s tableName selection indexes = s.getRows tableName := by
  have hnone : (selection.bind fun expr => tryIndexLookup s tableName expr indexes) = none := by
    cases selection with
    | none => rfl
    | some expr =>
      rw [Option.bind_some, tryIndexLookup]
      split
      · rfl
      · refine List.findSome?_eq_none_iff.mpr fun idx hidx => ?_
        have hkey : conditionKey (extractEqConditions expr) idx = none := by
          simpa using List.any_eq_false.mp h idx hidx
        simp [hkey]
  rw [candidateRows, hnone]

end Rows

section Build

omit [Host] in
/-- The keys that find something in the index data share a bucket with one of
these. -/
def HasKeys (data : IndexData) (keys : List Key) : Prop :=
  ∀ key, data.lookupEq key = [] ↔ (keys.any fun k => data.sameKey k key) = false

omit [Host] in
theorem hasKeys_new (t : IndexType) : HasKeys (.new t) [] := by
  intro key
  simp

omit [Host] in
theorem HasKeys.insert {data : IndexData} {keys : List Key} (h : HasKeys data keys) (key : Key)
    (id : Nat) : HasKeys (data.insert key id) (key :: keys) := by
  intro key'
  rw [IndexData.lookupEq_insert_sameKey, List.any_cons, IndexData.sameKey_insert,
    Bool.or_eq_false_iff]
  split
  · next hsame => simp [hsame]
  · next hsame => simp [h key', hsame]

variable (indexDef : IndexDef) (columns : List Column)

omit [Host] in
/-- The build loop stops at the first key that shares a bucket with one before. -/
theorem buildIndex_error_iff_of_hasKeys {data : IndexData} {before : List Key}
    (h : HasKeys data before) (rows : List Row) (dup : Key) :
    buildIndex indexDef columns rows data = .error dup ↔
      indexDef.unique = true ∧ firstRepeated data.sameKey before
        (rows.map fun row => buildKey columns indexDef.columns row.values) = some dup := by
  induction rows generalizing data before with
  | nil => simp [buildIndex, firstRepeated]
  | cons row rest ih =>
    rw [buildIndex, List.map_cons, firstRepeated]
    generalize buildKey columns indexDef.columns row.values = key
    have hrest := ih (h.insert key row.id)
    rw [IndexData.sameKey_insert] at hrest
    have hkey := h key
    cases hseen : before.any fun k => data.sameKey k key with
    | false =>
      rw [hseen] at hkey
      simp [hkey.mpr rfl, hrest]
    | true =>
      have htaken : data.lookupEq key ≠ [] := by simp [hkey, hseen]
      cases hu : indexDef.unique with
      | false => simp [hrest, hu]
      | true => simp [htaken]

omit [Host] in
/-- CREATE INDEX is refused for the first repeated key of a unique index. -/
theorem buildIndex_error_iff_repeated (rows : List Row) (dup : Key) :
    buildIndex indexDef columns rows (.new indexDef.indexType) = .error dup ↔
      (if indexDef.unique then firstRepeated indexDef.indexType.sameKey []
        (rows.map fun row => buildKey columns indexDef.columns row.values) else none) =
      some dup := by
  rw [buildIndex_error_iff_of_hasKeys indexDef columns (hasKeys_new _)]
  cases indexDef.unique <;> simp [IndexType.sameKey]

end Build

end Theory

end Srrdb.Server

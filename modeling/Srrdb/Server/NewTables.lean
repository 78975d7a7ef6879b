/-
Srrdb.Server.NewTables — what is in a table that was just created.

The catalog tells tables apart by database; rows, counters and index data are
stored under the table's name alone, and only DROP TABLE clears them. A table
is new from the CREATE TABLE that made it to the INSERT that stores rows in it
(`Watch`). It shows the rows of another database's table of that name, and
those that DROP DATABASE has left behind. `newTables_empty` says under which
conditions new tables are empty all along a run.
-/
import Srrdb.Server.ConcurrentIndexes
import Srrdb.Server.IndexKeys
import Srrdb.Server.IndexLookup
import Srrdb.Server.Contents
import Srrdb.Engine.CatalogSteps
import Srrdb.Engine.FileNames

namespace Srrdb.Server

open Srrdb.Engine Srrdb.Sql Srrdb.Lib

/-! ## Index data without ids -/

/-- No bucket of the index has an id. -/
def NoIds (d : IndexData) : Prop := ∀ b ∈ d.buckets, b.2 = []

theorem noIds_new (t : IndexType) : NoIds (.new t) := by simp [NoIds]

theorem NoIds.alter {d : IndexData} (h : NoIds d) {key : Key}
    {f : Option (List Nat) → Option (List Nat)}
    (hf : ∀ o v, (∀ ids, o = some ids → ids = []) → f o = some v → v = []) :
    NoIds (d.alter key f) := by
  cases d with
  | bTree map =>
    intro b hb
    have hb' := Std.ExtTreeMap.mem_toList_iff_getElem?_eq_some.mp hb
    rw [Std.ExtTreeMap.getElem?_alter] at hb'
    split at hb'
    · refine hf _ _ (fun ids hids => ?_) hb'
      exact h (key, ids) (Std.ExtTreeMap.mem_toList_iff_getElem?_eq_some.mpr hids)
    · exact h b (Std.ExtTreeMap.mem_toList_iff_getElem?_eq_some.mpr hb')
  | hash map =>
    have hmap : ∀ b ∈ map.entries, b.2 = [] := h
    exact PerMap.forall_alter (P := fun ids => ids = []) hmap hf

theorem NoIds.delete {d : IndexData} (h : NoIds d) (key : Key) (rowId : Nat) :
    NoIds (d.delete key rowId) := by
  unfold IndexData.delete
  refine h.alter fun o v ho hv => ?_
  cases o with
  | none => cases hv
  | some ids => simp [ho ids rfl] at hv

/-- What is stored under a key has no ids. -/
def NoIdsAt (s : Storage) (key : String) : Prop :=
  ∀ data, s.indexData[key]? = some data → NoIds data

theorem noIdsAt_congr {s s' : Storage} {key : String}
    (h : s'.indexData[key]? = s.indexData[key]?) (hs : NoIdsAt s key) : NoIdsAt s' key := by
  intro data hdata
  exact hs data (h ▸ hdata)

theorem noIdsAt_putIndex {s : Storage} {key key' : String} {data : IndexData}
    (hs : NoIdsAt s key) (hdata : key' = key → NoIds data) : NoIdsAt (s.putIndex key' data) key := by
  intro d hd
  rw [Storage.putIndex, Std.ExtTreeMap.getElem?_insert] at hd
  split at hd
  · next heq =>
    cases hd
    exact hdata (by simpa using heq)
  · exact hs d hd

theorem noIdsAt_removeIndex {s : Storage} {key : String} (key' : String) (hs : NoIdsAt s key) :
    NoIdsAt (s.removeIndex key') key := by
  intro d hd
  rw [Storage.removeIndex, Std.ExtTreeMap.getElem?_erase] at hd
  split at hd
  · cases hd
  · exact hs d hd

section Theory

variable [Host]

theorem noIdsAt_clearTable {s : Storage} {key : String} (name : String) (hs : NoIdsAt s key) :
    NoIdsAt (s.clearTable name) key := by
  intro d hd
  rw [Storage.indexData_clearTable] at hd
  split at hd
  · cases hd
  · exact hs d hd

/-- DELETE takes ids out of the indexes and puts none in. -/
theorem noIdsAt_deleteFromIndexesRaw {key : String} (tableName : String) (indexes : List IndexDef)
    (columns : List Column) (row : Row) {data : IndexMap}
    (h : ∀ d, data[key]? = some d → NoIds d) :
    ∀ d, (deleteFromIndexesRaw data tableName indexes columns row)[key]? = some d → NoIds d := by
  refine foldl_keeps (I := fun m : IndexMap => ∀ d, m[key]? = some d → NoIds d)
    (fun m idx _ hm d hd => ?_) h
  rw [Std.ExtTreeMap.getElem?_alter] at hd
  split at hd
  · next heq =>
    rw [compare_eq_iff_eq.mp heq] at hd
    obtain ⟨d', hd', rfl⟩ := Option.map_eq_some_iff.mp hd
    exact (hm d' hd').delete _ _
  · exact hm d hd

theorem noIdsAt_deleteRows {s : Storage} {key : String} (hs : NoIdsAt s key) (tableName : String)
    (indexes : List IndexDef) (columns : List Column) (rows : List Row) :
    NoIdsAt (deleteRows s tableName indexes columns rows) key :=
  foldl_keeps (I := fun m : IndexMap => ∀ d, m[key]? = some d → NoIds d)
    (fun _ row _ hm => noIdsAt_deleteFromIndexesRaw tableName indexes columns row hm) hs

/-! ## What a statement puts into indexes -/

variable [ExprDebug] [Bincode]

/-- The statement stores rows in the table of this name. -/
inductive StoresRows (e : Executor) : Call → String → Prop
  | insert {env : Env} {db : String} {ins : Insert} {tableDef : TableDef} {rows filled : List Row}
      {last : Nat} {c : Catalog} (hc : e.catalog.poisoned = false)
      (h : e.catalog.value.getTable db (tableObjectName ins.table) = .ok tableDef)
      (hs : sourceRows tableDef.columns ins.columns ins.source = .ok rows)
      (hf : fillRows env.now (tableObjectName ins.table) tableDef.columns 0 rows 0
        e.catalog.value = (.ok (filled, last), c))
      (hst : e.storage.poisoned = false) (hrows : filled ≠ []) :
      StoresRows e ⟨env, db, .insert ins⟩ (tableObjectName ins.table)

/-- The statement, on the table of this name, may put ids under the key: an
INSERT that stores rows or an UPDATE that selects some, on a table with an index
of this key, and the CREATE INDEX of this key over stored rows. -/
inductive FillsKey (e : Executor) : Call → String → String → Prop
  | insert {env : Env} {db : String} {ins : Insert} {idx : IndexDef} {name : String}
      (h : StoresRows e ⟨env, db, .insert ins⟩ name)
      (hidx : idx ∈ e.catalog.value.getTableIndexes db name) :
      FillsKey e ⟨env, db, .insert ins⟩ name (storageKey name idx.name)
  | update {env : Env} {db : String} {table : TableFactor} {assignments : List Assignment}
      {selection : Option Expr} {tableDef : TableDef} {t : Table} {rows : List Row}
      {idx : IndexDef} (hc : e.catalog.poisoned = false)
      (h : e.catalog.value.getTable db (tableFactorName table) = .ok tableDef)
      (ht : e.storage.value.getTable? (tableFactorName table) = some t)
      (hsel : selectRows tableDef.columns selection t.entries = .ok rows)
      (hst : e.storage.poisoned = false) (hrows : rows ≠ [])
      (hidx : idx ∈ e.catalog.value.getTableIndexes db (tableFactorName table)) :
      FillsKey e ⟨env, db, .update table assignments selection⟩ (tableFactorName table)
        (storageKey (tableFactorName table) idx.name)
  | createIndex {env : Env} {db : String} {ci : CreateIndex} {c : Catalog}
      (hc : e.catalog.poisoned = false)
      (h : e.catalog.value.createIndex db (newIndexDef (nameToString ci.tableName) ci) = .ok c)
      (hst : e.storage.poisoned = false)
      (hrows : e.storage.value.table (nameToString ci.tableName) ≠ ∅) :
      FillsKey e ⟨env, db, .createIndex ci⟩ (nameToString ci.tableName)
        (storageKey (nameToString ci.tableName)
          (newIndexDef (nameToString ci.tableName) ci).name)

omit [ExprDebug] in
/-- INSERT puts ids under the keys of the table's indexes. -/
theorem noIdsAt_insertDone {e : Executor} {key : String} (hs : NoIdsAt e.storage.value key)
    {tableName : String} {indexes : List IndexDef} (columns : List Column) {ids : List Nat}
    (hkey : ids ≠ [] → ∀ idx ∈ indexes, key ≠ storageKey tableName idx.name) :
    NoIdsAt (insertDone e tableName indexes columns ids).storage.value key := by
  unfold insertDone
  simp only [Executor.saveTable_storage]
  split
  · exact hs
  · next hsome =>
    have hids : ids ≠ [] := by
      rintro rfl
      simp at hsome
    exact noIdsAt_congr (indexInserted_indexData_keep (hkey hids) columns _ ids) hs

omit [Bincode] in
theorem noIdsAt_updateRows {s : Storage} {key : String} (hs : NoIdsAt s key) {tableName : String}
    {indexes : List IndexDef} (columns : List Column) (assigns : List (Nat × Expr))
    {rows : List Row}
    (hkey : rows ≠ [] → ∀ idx ∈ indexes, key ≠ storageKey tableName idx.name) :
    NoIdsAt (updateRows s tableName indexes columns assigns rows) key := by
  by_cases hrows : rows = []
  · subst hrows
    exact hs
  · exact noIdsAt_congr (updateRows_indexData_keep (hkey hrows) columns assigns s rows) hs

omit [Host] [Bincode] [ExprDebug] in
theorem noIds_buildIndex_nil {indexDef : IndexDef} {columns : List Column} {data : IndexData}
    (h : buildIndex indexDef columns [] (.new indexDef.indexType) = .ok data) : NoIds data := by
  cases h
  exact noIds_new _

/-- No other statement puts ids under the key. -/
theorem noIdsAt_after {e : Executor} {call : Call} {key : String}
    (hs : NoIdsAt e.storage.value key) (hfill : ∀ name, ¬ FillsKey e call name key) :
    NoIdsAt (e.after call).storage.value key := by
  obtain ⟨env, db, stmt⟩ := call
  have heff := Call.effect ⟨env, db, stmt⟩ e
  generalize e.after ⟨env, db, stmt⟩ = e' at heff ⊢
  generalize Call.result ⟨env, db, stmt⟩ e = r at heff
  cases heff with
  | none => exact hs
  | createTable h => cases h <;> exact hs
  | createDatabase h => cases h <;> exact hs
  | dropDatabase h => cases h <;> exact hs
  | dropTable h =>
    cases h with
    | dropped => exact noIdsAt_clearTable _ hs
    | locked => exact hs
    | rejected => exact hs
    | uncleared => exact hs
  | dropIndex hfind h =>
    cases h with
    | dropped => exact noIdsAt_removeIndex _ hs
    | locked => exact hs
    | rejected => exact hs
    | undropped => exact hs
  | @insert ins r e' h =>
    cases h with
    | locked => exact hs
    | noTable => exact hs
    | badSource => exact hs
    | panicked => exact hs
    | unstored => exact hs
    | @stored tableDef rows filled last c hc h hsource hf hst =>
      have hdatabases := fillRows_databases env.now (tableObjectName ins.table) tableDef.columns rows
        0 0 e.catalog.value
      rw [hf] at hdatabases
      refine noIdsAt_insertDone (by exact hs) _ fun hids idx hidx heq => ?_
      have hrows : filled ≠ [] := by
        rintro rfl
        exact hids rfl
      subst heq
      rw [Catalog.getTableIndexes_congr hdatabases] at hidx
      exact hfill _ (.insert (.insert hc h hsource hf hst hrows) hidx)
  | delete h =>
    cases h with
    | locked => exact hs
    | noTable => exact hs
    | ran hc h hch =>
      cases hch with
      | locked => exact hs
      | noEntry => exact hs
      | panicked => exact hs
      | changed hst ht hsel =>
        rw [Executor.saveTable_storage, logSnapshot_storage]
        exact noIdsAt_deleteRows hs _ _ _ _
  | update h =>
    cases h with
    | locked => exact hs
    | noTable => exact hs
    | badAssignment => exact hs
    | ran hc h ha hch =>
      cases hch with
      | locked => exact hs
      | noEntry => exact hs
      | panicked => exact hs
      | changed hst ht hsel =>
        rw [Executor.saveTable_storage, logSnapshot_storage]
        refine noIdsAt_updateRows hs _ _ fun hrows idx hidx heq => ?_
        subst heq
        exact hfill _ (.update hc h ht hsel hst hrows hidx)
  | @createIndex ci r e' hcols h =>
    cases h with
    | locked => exact hs
    | rejected => exact hs
    | unbuilt => exact hs
    | duplicate => exact noIdsAt_removeIndex _ hs
    | built hc h ht hst hb =>
      simp only [Executor.save_storage, Executor.saveTable_storage]
      refine noIdsAt_putIndex hs fun heq => ?_
      subst heq
      by_cases hrows : e.storage.value.table (nameToString ci.tableName) = ∅
      · rw [Storage.getRows_eq, hrows, Table.rows_empty] at hb
        exact noIds_buildIndex_nil hb
      · exact absurd (.createIndex hc h hst hrows) (hfill _)

/-! ## Runs -/

instance (x y : TableId) : Decidable (SameTable x y) := inferInstanceAs (Decidable (_ ∧ _))

/-- A server, and the tables that were created and got no rows since. -/
structure Watch where
  server : Executor
  newTables : List TableId

/-- The table that a CREATE TABLE has just created. -/
def createdTable (e : Executor) (call : Call) : List TableId :=
  match call.stmt with
  | .createTable ct =>
    if call.result e = .ok .ok ∧ e.catalog.value.tableExists call.db (nameToString ct.name) = false
    then [(call.db, nameToString ct.name)] else []
  | _ => []

/-- An INSERT into this table that leaves rows in it. -/
def insertedInto (call : Call) (e' : Executor) (x : TableId) : Bool :=
  match call.stmt with
  | .insert ins => decide (SameTable (call.db, tableObjectName ins.table) x) &&
    !(e'.storage.value.table x.2).isEmpty
  | _ => false

/-- One statement. A table that is dropped or inserted into is no longer new. -/
def Watch.step (w : Watch) (call : Call) : Watch where
  server := w.server.after call
  newTables := (w.newTables ++ createdTable w.server call).filter fun x =>
    (w.server.after call).catalog.value.tableExists x.1 x.2 &&
      !insertedInto call (w.server.after call) x

/-- New tables are empty: SELECT * finds no rows in them, and their indexes have
no ids. -/
structure NewTablesEmpty (w : Watch) : Prop where
  select : ∀ x ∈ w.newTables, ∀ env columns rows,
    Call.result ⟨env, x.1, selectFrom x.2 none⟩ w.server = .ok (.rows columns rows) → rows = []
  indexes : ∀ x ∈ w.newTables, ∀ idx ∈ w.server.catalog.value.getTableIndexes x.1 x.2,
    NoIdsAt w.server.storage.value (storageKey x.2 idx.name)

/-- What a statement must not do for new tables to stay empty. -/
structure Separate (w : Watch) (call : Call) : Prop where
  /-- A table is created where no rows are stored under its name. -/
  created : ∀ ct c, call.stmt = .createTable ct →
    w.server.catalog.value.createTable call.db (nameToString ct.name)
      (createColumns (nameToString ct.name) ct.columns) = .ok c →
    w.server.storage.value.table (nameToString ct.name) = ∅
  /-- Rows are stored under the name of a new table for that table only. -/
  stored : ∀ x ∈ w.newTables, ∀ name, StoresRows w.server call name → SameName name x.2 →
    SameName call.db x.1
  /-- Ids are put under the key of an index of a new table for a table of its
  name only. -/
  filled : ∀ x ∈ w.newTables, ∀ idx ∈ w.server.catalog.value.getTableIndexes x.1 x.2, ∀ name,
    FillsKey w.server call name (storageKey x.2 idx.name) → SameName name x.2
  /-- An index that is registered but not built, at a poisoned storage, has no ids
  under its key already. -/
  built : ∀ x ∈ w.newTables, ∀ ci, call.stmt = .createIndex ci →
    w.server.storage.poisoned = true →
    NoIdsAt w.server.storage.value
      (storageKey x.2 (newIndexDef (nameToString ci.tableName) ci).name)

/-- The invariant: nothing is stored under the name of a new table, nor under the
keys of its indexes. -/
structure Unused (w : Watch) : Prop where
  indexed : IndexesHaveTables w.server.catalog.value
  rows : ∀ x ∈ w.newTables, w.server.storage.value.table x.2 = ∅
  ids : ∀ x ∈ w.newTables, ∀ idx ∈ w.server.catalog.value.getTableIndexes x.1 x.2,
    NoIdsAt w.server.storage.value (storageKey x.2 idx.name)

/-! ### One statement -/

omit [Host] [ExprDebug] [Bincode] in
theorem insertLoop_ne_empty {t : Table} {next : Nat} {rows : List Row}
    (h : t ≠ ∅ ∨ rows ≠ []) : (Storage.insertLoop t next rows).1 ≠ ∅ := by
  induction rows generalizing t next with
  | nil =>
    rcases h with ht | hrows
    · exact ht
    · exact absurd rfl hrows
  | cons row rest ih =>
    have hinsert : ∀ id (r : Row), t.insert id r ≠ ∅ := by
      intro id r heq
      have hget := Std.ExtTreeMap.getElem?_insert_self (t := t) (k := id) (v := r)
      rw [heq] at hget
      simp at hget
    unfold Storage.insertLoop
    split
    · exact ih (.inl (hinsert _ _))
    · exact ih (.inl (hinsert _ _))

omit [Bincode] in
/-- Nothing is selected in a table without rows. -/
theorem selected_eq_nil {s : Storage} {name t : String} {u : Table} {columns : List Column}
    {selection : Option Expr} {rows : List Row} (hsame : SameName name t) (ht : s.table t = ∅)
    (hget : s.getTable? name = some u) (hsel : selectRows columns selection u.entries = .ok rows) :
    u = ∅ ∧ rows = [] := by
  have hu : u = ∅ := by
    rw [← Storage.table_of_getTable? hget, Storage.table_sameName _ hsame, ht]
  subst hu
  have hentries : Table.entries ∅ = [] := by simp [Table.entries]
  rw [hentries] at hsel
  cases hsel
  exact ⟨rfl, rfl⟩

omit [Bincode] in
/-- Whatever a statement does to a table without rows, except an INSERT that
stores some, there are none. -/
theorem Alters.table_eq_empty {e : Executor} {call : Call} {c : Catalog}
    {table : String → Table} (h : Alters e call c table) {t : String}
    (ht : e.storage.value.table t = ∅)
    (hstored : ∀ name, StoresRows e call name → ¬ SameName name t) : table t = ∅ := by
  have hreplace : ∀ (name : String) (u : Table), (SameName name t → u = ∅) →
      replaceTable e.storage.value name u t = ∅ := by
    intro name u hu
    unfold replaceTable
    split
    · next hsame => exact hu hsame
    · exact ht
  cases h with
  | nothing | createTable | dropTableOnly | insertFails | createIndex | dropIndex | createDatabase
  | dropDatabase => exact ht
  | dropTable => exact hreplace _ _ fun _ => rfl
  | @insert env db ins tableDef rows filled last c hc h hs hf hst =>
    refine hreplace _ _ fun hsame => ?_
    rw [Storage.table_sameName _ hsame, ht]
    cases filled with
    | nil => rfl
    | cons row rest => exact absurd hsame (hstored _ (.insert hc h hs hf hst (by simp)))
  | delete hc h hget hsel =>
    refine hreplace _ _ fun hsame => ?_
    obtain ⟨rfl, rfl⟩ := selected_eq_nil hsame ht hget hsel
    rfl
  | update hc h ha hget hsel =>
    refine hreplace _ _ fun hsame => ?_
    obtain ⟨rfl, rfl⟩ := selected_eq_nil hsame ht hget hsel
    rfl

/-- An INSERT that stores rows leaves some. -/
theorem StoresRows.table_ne_empty {e : Executor} {call : Call} {name : String}
    (h : StoresRows e call name) : (e.after call).storage.value.table name ≠ ∅ := by
  cases h with
  | @insert env db ins tableDef rows filled last c hc h hs hf hst hrows =>
    have heff := Call.effect ⟨env, db, .insert ins⟩ e
    generalize e.after ⟨env, db, .insert ins⟩ = e' at heff ⊢
    generalize Call.result ⟨env, db, .insert ins⟩ e = r at heff
    cases heff with
    | none _ hskip => cases hskip
    | insert hout =>
      cases hout with
      | stored hc' h' hs' hf' hst' =>
        cases h.symm.trans h'
        cases hs.symm.trans hs'
        cases hf.symm.trans hf'
        rw [← Storage.table_congr (insertDone_sameRows _ _ _ _ _).tables,
          Executor.setStorage_storage_value, Storage.table_insertRows, if_pos rfl]
        exact insertLoop_ne_empty (.inr hrows)
      | _ => simp_all

omit [Bincode] in
/-- A statement on a table without rows puts ids under no key, except an INSERT
that stores some. -/
theorem FillsKey.storesRows {e : Executor} {call : Call} {name key t : String}
    (h : FillsKey e call name key) (hsame : SameName name t)
    (ht : e.storage.value.table t = ∅) : StoresRows e call name := by
  cases h with
  | insert h => exact h
  | update hc h hget hsel hst hrows => exact absurd (selected_eq_nil hsame ht hget hsel).2 hrows
  | createIndex hc h hst hrows => exact absurd (by rw [Storage.table_sameName _ hsame, ht]) hrows

/-- CREATE INDEX on a table without rows registers nothing or an index without
ids. -/
theorem noIdsAt_createIndex {e : Executor} {env : Env} {db : String} {ci : CreateIndex}
    (ht : e.storage.value.table (nameToString ci.tableName) = ∅)
    (hbuilt : e.storage.poisoned = true → NoIdsAt e.storage.value
      (storageKey (nameToString ci.tableName) (newIndexDef (nameToString ci.tableName) ci).name)) :
    (e.after ⟨env, db, .createIndex ci⟩).catalog.value = e.catalog.value ∨
      NoIdsAt (e.after ⟨env, db, .createIndex ci⟩).storage.value
        (storageKey (nameToString ci.tableName)
          (newIndexDef (nameToString ci.tableName) ci).name) := by
  have heff := Call.effect ⟨env, db, .createIndex ci⟩ e
  generalize e.after ⟨env, db, .createIndex ci⟩ = e' at heff ⊢
  generalize Call.result ⟨env, db, .createIndex ci⟩ e = r at heff
  cases heff with
  | none => exact .inl rfl
  | createIndex hcols h =>
    cases h with
    | locked => exact .inl rfl
    | rejected => exact .inl rfl
    | unbuilt hc h hget hst => exact .inr (hbuilt hst)
    | duplicate hc h hget hst hb =>
      refine .inr fun d hd => ?_
      simp [Storage.removeIndex] at hd
    | built hc h hget hst hb =>
      rw [Storage.getRows_eq, ht, Table.rows_empty] at hb
      refine .inr fun d hd => ?_
      simp only [Executor.save_storage, Executor.saveTable_storage] at hd
      simp only [Executor.setStorage_storage_value, Storage.putIndex,
        Std.ExtTreeMap.getElem?_insert_self] at hd
      cases hd
      exact noIds_buildIndex_nil hb

/-- What CREATE TABLE does when it creates a table. -/
theorem createdTable_spec {e : Executor} {call : Call} {x : TableId}
    (hx : x ∈ createdTable e call) :
    ∃ ct c, call.stmt = .createTable ct ∧ x = (call.db, nameToString ct.name) ∧
      e.catalog.value.createTable call.db (nameToString ct.name)
        (createColumns (nameToString ct.name) ct.columns) = .ok c ∧
      (e.after call).catalog.value = c ∧ (e.after call).storage = e.storage := by
  obtain ⟨env, db, stmt⟩ := call
  unfold createdTable at hx
  split at hx
  · next ct hstmt =>
    cases hstmt
    split at hx
    · next hcreated =>
      obtain ⟨hresult, hfree⟩ := hcreated
      obtain rfl := List.mem_singleton.mp hx
      have heff := Call.effect ⟨env, db, .createTable ct⟩ e
      rw [hresult] at heff
      generalize e.after ⟨env, db, .createTable ct⟩ = e' at heff ⊢
      cases heff with
      | none _ hskip => exact absurd hskip.2 (by rw [hfree]; exact Bool.false_ne_true)
      | createTable h =>
        cases h with
        | created hc h => exact ⟨ct, _, rfl, rfl, h, rfl, rfl⟩
    · cases hx
  · cases hx

theorem mem_step {w : Watch} {call : Call} {x : TableId} (h : x ∈ (w.step call).newTables) :
    (x ∈ w.newTables ∨ x ∈ createdTable w.server call) ∧
      insertedInto call (w.server.after call) x = false := by
  have h' := List.mem_filter.mp h
  simp only [List.mem_append, Bool.and_eq_true, Bool.not_eq_true'] at h'
  exact ⟨h'.1, h'.2.2⟩

/-- A table that stays new gets no rows. -/
theorem not_storesRows {w : Watch} {call : Call} {x : TableId} (hsep : Separate w call)
    (hold : x ∈ w.newTables) (hnone : insertedInto call (w.server.after call) x = false)
    (name : String) (h : StoresRows w.server call name) : ¬ SameName name x.2 := by
  intro hsame
  have hdb := hsep.stored x hold name h hsame
  have hrows := h.table_ne_empty
  rw [Storage.table_sameName _ hsame] at hrows
  cases h with
  | @insert env db ins =>
    have htable : SameTable (db, tableObjectName ins.table) x := ⟨hdb, hsame⟩
    simp [insertedInto, htable] at hnone
    exact hrows hnone

/-- The indexes that a table had stay without ids as long as it is new. -/
theorem noIdsAt_step {w : Watch} (h : Unused w) {call : Call} (hsep : Separate w call)
    {x : TableId} (hold : x ∈ w.newTables)
    (hnone : insertedInto call (w.server.after call) x = false) {idx : IndexDef}
    (hidx : idx ∈ w.server.catalog.value.getTableIndexes x.1 x.2) :
    NoIdsAt (w.server.after call).storage.value (storageKey x.2 idx.name) := by
  refine noIdsAt_after (h.ids x hold idx hidx) fun name hfill => ?_
  have hsame := hsep.filled x hold idx hidx name hfill
  exact not_storesRows hsep hold hnone name (hfill.storesRows hsame (h.rows x hold)) hsame

theorem unused_step {w : Watch} (h : Unused w) {call : Call} (hsep : Separate w call) :
    Unused (w.step call) := by
  have halters := after_alters w.server call
  refine ⟨indexesHaveTables_after h.indexed call, fun x hx => ?_, fun x hx idx hidx => ?_⟩
  · obtain ⟨hold | hnew, hnone⟩ := mem_step hx
    · exact halters.table_eq_empty (h.rows x hold) (not_storesRows hsep hold hnone)
    · obtain ⟨ct, c, hstmt, rfl, hcreate, -, hstorage⟩ := createdTable_spec hnew
      show (w.server.after call).storage.value.table _ = ∅
      rw [hstorage]
      exact hsep.created ct c hstmt hcreate
  · obtain ⟨hold | hnew, hnone⟩ := mem_step hx
    · rcases halters.mem_getTableIndexes hidx with hidx' | ⟨ci, hstmt, -, ht, rfl⟩
      · exact noIdsAt_step h hsep hold hnone hidx'
      · -- the index that this statement has registered
        have hkey := storageKey_sameName ht
        have hempty := h.rows x hold
        rw [← Storage.table_sameName _ ht] at hempty
        have hbuilt := hsep.built x hold ci hstmt
        rw [← hkey] at hbuilt ⊢
        obtain ⟨env, db, stmt⟩ := call
        cases hstmt
        rcases noIdsAt_createIndex hempty hbuilt with hcatalog | hnoIds
        · rw [hkey]
          refine noIdsAt_step h hsep hold hnone ?_
          rw [← hcatalog]
          exact hidx
        · exact hnoIds
    · obtain ⟨ct, c, hstmt, rfl, hcreate, hcatalog, -⟩ := createdTable_spec hnew
      have hidx' : idx ∈ (w.server.after call).catalog.value.getTableIndexes call.db
        (nameToString ct.name) := hidx
      rw [hcatalog] at hidx'
      have hexists := h.indexed _ _ _ (indexesWithin_createTable hcreate _ _ _ hidx')
      rw [(Catalog.createTable_isOk.mp ⟨c, hcreate⟩).2] at hexists
      cases hexists

omit [Bincode] in
/-- SELECT * finds no rows in a table that has none. -/
theorem selectStar_eq_nil {e : Executor} {db name : String} (ht : e.storage.value.table name = ∅)
    {columns : List Column} {rows : List Row}
    (h : ((executeQuery db ⟨.select ⟨[.wildcard], [.table [name]], none⟩, none, none, none⟩).run
      e).1 = .ok (.rows columns rows)) : rows = [] := by
  have hname : tableFactorName (.table [name]) = name := by
    simp [tableFactorName, nameToString]
  rw [run_select rfl rfl, hname] at h
  simp only [candidateRows, Option.bind_none, Storage.getRows_eq, ht, Table.rows_empty] at h
  split at h
  · cases h
  · split at h
    · cases h
    · split at h
      · cases h
      · cases h
        rfl

/-- What the invariant is for. -/
theorem Unused.newTablesEmpty {w : Watch} (h : Unused w) : NewTablesEmpty w where
  select x hx _ _ _ hres := selectStar_eq_nil (h.rows x hx) hres
  indexes := h.ids

/-- Along every run of a fresh server whose statements keep tables separate, new
tables are empty. -/
theorem newTables_empty (persistence : Option Persistence) (calls : List Call)
    (h : Every Watch.step Separate ⟨.ofMemory .new persistence, []⟩ calls) (n : Nat) :
    NewTablesEmpty ((calls.take n).foldl Watch.step ⟨.ofMemory .new persistence, []⟩) := by
  have hstart : Unused ⟨.ofMemory .new persistence, []⟩ := by
    refine ⟨?_, by simp, by simp⟩
    intro db t idx hidx
    rw [show (Executor.ofMemory .new persistence).catalog.value = Catalog.new from rfl,
      getTableIndexes_new] at hidx
    cases hidx
  have hstep : ∀ w call, Unused w → Separate w call → Unused (w.step call) :=
    fun w call hw hsep => unused_step hw hsep
  exact (Every.foldl_invariant hstep hstart (h.take n)).newTablesEmpty

end Theory

section Concrete

attribute [local instance] asciiHost plainDebug bincode1

/-- `CREATE TABLE t (a VARCHAR)` in a database. -/
def createTIn (db : String) : Call :=
  callIn db (.createTable ⟨["t"], [⟨"a", .varchar, []⟩], false⟩)

/-- A fresh server, watched. -/
def freshWatch : Watch := ⟨.ofMemory .new none, []⟩

theorem indexedTable_separate :
    Every Watch.step Separate freshWatch
      [createTIn "srrdb", callIn "srrdb" (indexOn false "i" "t" ["a"])] := by
  have hnew : (freshWatch.step (createTIn "srrdb")).newTables = [("srrdb", "t")] := by
    decide +kernel
  have hindexes : (freshWatch.step (createTIn "srrdb")).server.catalog.value.getTableIndexes
      "srrdb" "t" = [] := by
    decide +kernel
  refine ⟨⟨?_, ?_, ?_, ?_⟩, ⟨?_, ?_, ?_, ?_⟩, trivial⟩
  · rintro ct c ⟨⟩ -
    decide +kernel
  · rintro x ⟨⟩
  · rintro x ⟨⟩
  · rintro x ⟨⟩
  · rintro ct c ⟨⟩
  · rintro x - name ⟨⟩
  · intro x hx idx hidx
    rw [hnew] at hx
    obtain rfl := List.mem_singleton.mp hx
    rw [hindexes] at hidx
    cases hidx
  · intro x hx ci hstmt hpoisoned
    exact absurd hpoisoned (by decide +kernel)

theorem indexedTable_newTables_empty :
    NewTablesEmpty (([createTIn "srrdb", callIn "srrdb" (indexOn false "i" "t" ["a"])].take
      2).foldl Watch.step freshWatch) :=
  newTables_empty none _ indexedTable_separate 2

/-- DROP DATABASE leaves the rows of its tables behind, and the table `t` of the
next database `d` shows them. -/
theorem recreatedDatabase_newTables_not_empty :
    ¬ NewTablesEmpty ([callIn "d" (.createDatabase ["d"] false), createTIn "d",
        callIn "d" (.insert ⟨.tableName ["t"], [],
          some ⟨.values [[.value (.singleQuotedString "1")]], none, none, none⟩⟩),
        callIn "d" (.drop .database [["d"]] false), callIn "d" (.createDatabase ["d"] false),
        createTIn "d"].foldl Watch.step freshWatch) := by
  intro h
  have hrows := h.select ("d", "t") (by decide +kernel) plainEnv textColumns [⟨0, [.text "1"]⟩]
    (by decide +kernel)
  cases hrows

end Concrete

end Srrdb.Server

/-
Srrdb.Server.DiskMirror — whether the data directory is the memory.

Every handler decides by itself which files it writes: `save` writes the
catalog, `save_table` the rows and the indexes of one table. `Mirrored` says
that the files are the memory, and `WritesThrough` what a statement has to meet
for them to stay so. What it leaves out are the writes that are missing: INSERT
does not save the counters it draws from, and saves the indexes before it adds
to them; DROP INDEX and a CREATE INDEX that fails late do not save the catalog;
DROP TABLE removes more index files than it clears indexes.
-/
import Srrdb.Engine.ErrorPaths
import Srrdb.Engine.SavedFiles
import Srrdb.Server.AutoIncrement
import Srrdb.Server.ConcurrentIndexes
import Srrdb.Server.IndexKeys

namespace Srrdb.Server

open Srrdb.Engine Srrdb.Sql Srrdb.Lib

section Theory

variable [Host] [Bincode]

/-! ## Files and memory -/

/-- The key of an index of the catalog. -/
def IsIndexKey (c : Catalog) (key : String) : Prop :=
  ∃ db t idx, idx ∈ c.getTableIndexes db t ∧ key = storageKey t idx.name

/-- The file of every table with rows has these rows, in the order of their
ids, and the file of every index its data. -/
structure DataMirrored (m : Memory) (p : Persistence) : Prop where
  tables : ∀ name, m.storage.table name ≠ ∅ →
    p.loadTableData name = some (m.storage.table name).rows
  indexes : ∀ key, IsIndexKey m.catalog key → p.loadIndexData key = m.storage.indexData[key]?

/-- The data directory is the memory. -/
structure Mirrored (m : Memory) (p : Persistence) : Prop extends DataMirrored m p where
  catalog : p.loadCatalog = some m.catalog

/-- The data directory of a server is its memory. -/
def DiskMirrors (e : Executor) : Prop := ∃ p, e.persistence = some p ∧ Mirrored e.memory p

/-- No table with rows has the file of the catalog. -/
def RowsApart (s : Storage) : Prop := ∀ name, s.table name ≠ ∅ → tablePath name ≠ catalogPath

/-- The invariant: the data directory is the memory, except that it may have no
catalog yet. -/
structure InStep (m : Memory) (p : Persistence) : Prop extends DataMirrored m p where
  catalog : p.hasExistingData = true → p.loadCatalog = some m.catalog
  apart : RowsApart m.storage

omit [Bincode] in
theorem not_isIndexKey_new (key : String) : ¬ IsIndexKey .new key := by
  rintro ⟨db, t, idx, hidx, -⟩
  rw [getTableIndexes_new] at hidx
  cases hidx

/-- A fresh server is in step with an empty directory. -/
theorem inStep_fresh : InStep .new .empty where
  tables name h := absurd (Storage.table_new name) h
  indexes key h := absurd h (not_isIndexKey_new key)
  catalog h := by simp [Persistence.hasExistingData, Persistence.empty] at h
  apart name h := absurd (Storage.table_new name) h

theorem InStep.mirrored {m : Memory} {p : Persistence} (h : InStep m p)
    (hfile : p.hasExistingData = true) : Mirrored m p where
  toDataMirrored := h.toDataMirrored
  catalog := h.catalog hfile

/-! ## What writes keep -/

/-- A change to a catalog that registers no index. -/
theorem DataMirrored.congr {m m' : Memory} {p : Persistence} (h : DataMirrored m p)
    (hstorage : m'.storage = m.storage)
    (hkeys : ∀ key, IsIndexKey m'.catalog key → IsIndexKey m.catalog key) : DataMirrored m' p where
  tables := by
    rw [hstorage]
    exact h.tables
  indexes key hkey := by
    rw [hstorage]
    exact h.indexes key (hkeys key hkey)

omit [Bincode] in
theorem IsIndexKey.mono {c c' : Catalog} (h : IndexesWithin c c') {key : String}
    (hkey : IsIndexKey c' key) : IsIndexKey c key := by
  obtain ⟨db, t, idx, hidx, rfl⟩ := hkey
  exact ⟨db, t, idx, h db t idx hidx, rfl⟩

/-- `save` leaves the files of the data alone. -/
theorem DataMirrored.saveCatalog {m : Memory} {p : Persistence} (h : DataMirrored m p)
    (hapart : RowsApart m.storage) (c : Catalog) : DataMirrored m (p.saveCatalog c) where
  tables name hrows := by
    rw [← h.tables name hrows]
    refine Persistence.loadTableData_congr ?_
    rw [Persistence.saveCatalog, Persistence.files_write, if_neg (hapart name hrows).symm]
  indexes key hkey := by
    rw [← h.indexes key hkey]
    refine Persistence.loadIndexData_congr ?_
    rw [Persistence.saveCatalog, Persistence.files_write, if_neg (catalogPath_ne_indexPath key)]

/-- A server whose catalog has changed, and is saved. -/
theorem inStep_saveCatalog {m : Memory} {p : Persistence} (h : DataMirrored m p)
    (hapart : RowsApart m.storage) : InStep m (p.saveCatalog m.catalog) where
  toDataMirrored := h.saveCatalog hapart m.catalog
  catalog _ := Persistence.loadCatalog_saveCatalog p m.catalog
  apart := hapart

/-- `save_table` makes up for changes to the rows and indexes of a table. -/
theorem DataMirrored.tableFiles {m m' : Memory} {p : Persistence} (h : DataMirrored m p)
    {tn : String}
    (htables : ∀ name, ¬ SameName tn name → m'.storage.table name = m.storage.table name)
    (happart : ∀ name, m.storage.table name ≠ ∅ → tablePath name = tablePath tn → SameName name tn)
    (hkeep : ∀ key, IsIndexKey m'.catalog key →
      ¬ (startsWith key (toLowercase tn ++ ":") = true ∧
        m'.storage.indexData[key]?.isSome = true) →
      IsIndexKey m.catalog key ∧ m'.storage.indexData[key]? = m.storage.indexData[key]?)
    (hfiles : ∀ key key', startsWith key (toLowercase tn ++ ":") = true →
      m'.storage.indexData[key]?.isSome = true → IsIndexKey m'.catalog key' →
      indexPath key = indexPath key' → key = key') :
    DataMirrored m' (tableFiles m'.storage tn p) where
  tables name hrows := by
    by_cases hname : SameName tn name
    · cases ht : m'.storage.getTable? tn with
      | some t =>
        rw [loadTableData_tableFiles p ht hname, ← Storage.table_of_getTable? ht,
          Storage.table_sameName _ hname]
      | none =>
        rw [← Storage.table_sameName _ hname] at hrows
        refine absurd ?_ hrows
        have hentry : m'.storage.tables[normalize tn]? = none := ht
        rw [Storage.table, Std.ExtTreeMap.getD_eq_getD_getElem?, hentry, Option.getD_none]
    · rw [htables name hname] at hrows ⊢
      rw [← h.tables name hrows]
      refine Persistence.loadTableData_congr (files_tableFiles p (fun hpath => ?_) fun key _ _ _ =>
        tablePath_ne_indexPath name key)
      exact hname (happart name hrows hpath).symm
  indexes key hkey := by
    by_cases hsaved : startsWith key (toLowercase tn ++ ":") = true ∧
        m'.storage.indexData[key]?.isSome = true
    · obtain ⟨hstart, hsome⟩ := hsaved
      obtain ⟨d, hd⟩ := Option.isSome_iff_exists.mp hsome
      rw [hd]
      refine loadIndexData_tableFiles p hd hstart fun key' d' hd' hstart' hpath => ?_
      exact hfiles key' key hstart' (by rw [hd', Option.isSome_some]) hkey hpath
    · obtain ⟨hold, hdata⟩ := hkeep key hkey hsaved
      rw [hdata, ← h.indexes key hold]
      refine Persistence.loadIndexData_congr (files_tableFiles p
        (tablePath_ne_indexPath tn key).symm fun key' d' hd' hstart hpath => hsaved ?_)
      obtain rfl := hfiles key' key hstart (by rw [hd', Option.isSome_some]) hkey hpath.symm
      exact ⟨hstart, by rw [hd', Option.isSome_some]⟩

/-- `save_table` leaves the catalog file alone. -/
theorem catalogFile_tableFiles {s : Storage} {tn : String} (p : Persistence)
    (h : tablePath tn ≠ catalogPath) :
    (tableFiles s tn p).loadCatalog = p.loadCatalog ∧
      (tableFiles s tn p).hasExistingData = p.hasExistingData :=
  Persistence.loadCatalog_congr (files_tableFiles p h.symm fun key _ _ _ =>
    catalogPath_ne_indexPath key)

/-! ## What a statement has to meet -/

/-- The table whose files a statement may write. -/
def writtenTable : Statement → Option String
  | .insert ins => some (tableObjectName ins.table)
  | .delete del => some (deleteTable del)
  | .update table _ _ => some (tableFactorName table)
  | .createIndex ci => some (nameToString ci.tableName)
  | _ => none

/-- The key of an index of the catalog, or of the one a CREATE INDEX creates. -/
def InUse (c : Catalog) (stmt : Statement) (key : String) : Prop :=
  IsIndexKey c key ∨ ∃ ci, stmt = .createIndex ci ∧ key = storageKey (nameToString ci.tableName)
    (newIndexDef (nameToString ci.tableName) ci).name

/-- The files of a table are neither the catalog nor those of other tables, and
those of its indexes are not those of others. -/
structure OwnFiles (m : Memory) (stmt : Statement) (tableName : String) : Prop where
  catalog : tablePath tableName ≠ catalogPath
  tables : ∀ name, m.storage.table name ≠ ∅ → tablePath name = tablePath tableName →
    SameName name tableName
  indexes : ∀ key key', startsWith key (toLowercase tableName ++ ":") = true →
    m.storage.indexData[key]?.isSome = true ∨ InUse m.catalog stmt key →
    InUse m.catalog stmt key' → indexPath key = indexPath key' → key = key'

/-- The files that DROP TABLE removes are those of the table, and of the indexes
that are cleared with it. -/
structure DropsOwnFiles (m : Memory) (db tn : String) : Prop where
  tables : ∀ name, m.storage.table name ≠ ∅ → ¬ SameName tn name →
    tablePath name ≠ tablePath tn ∧ ¬ IsRemoved tn (tablePath name)
  indexes : ∀ db' t idx, idx ∈ m.catalog.getTableIndexes db' t →
    ¬ (SameName db db' ∧ SameName tn t) →
    m.storage.indexData[storageKey t idx.name]?.isSome = true →
    (IsRemoved tn (indexPath (storageKey t idx.name)) ↔
      startsWith (storageKey t idx.name) (tn ++ ":") = true)

/-- The statement may be answered without a write of the catalog. -/
def Idle (e : Executor) (call : Call) : Prop :=
  let c := e.catalog.value
  match call.stmt with
  | .createTable ct => ct.ifNotExists = true ∧ c.tableExists call.db (nameToString ct.name) = true
  | .createDatabase dbName ifNotExists =>
    ifNotExists = true ∧ c.databaseExists (nameToString dbName) = true
  | .drop .table names ifExists => ifExists = true ∧
    ¬ (e.catalog.poisoned = false ∧ c.tableExists call.db (firstName names) = true)
  | .drop .database names ifExists => ifExists = true ∧
    ¬ (e.catalog.poisoned = false ∧ c.databaseExists (firstName names) = true)
  | .drop .index names _ => ∃ t, findIndexTable call.env call.db (firstName names) c = some t
  | .insert ins => c.tableExists call.db (tableObjectName ins.table) = true
  | .delete del => c.tableExists call.db (deleteTable del) = true
  | .update table _ _ => c.tableExists call.db (tableFactorName table) = true
  | .query query =>
    match query.body with
    | .select select =>
      ∀ table ∈ select.fromTables.head?, c.tableExists call.db (tableFactorName table) = true
    | _ => False
  | .showDatabases => True
  | .showTables => c.databaseExists call.db = true
  | .use (.database name) | .use (.object name) => c.databaseExists (nameToString name) = true
  | .explainTable tableName => c.tableExists call.db (nameToString tableName) = true
  | _ => False

variable [ExprDebug]

/-- What a statement has to meet for the files to stay the memory. -/
structure WritesThrough (e : Executor) (call : Call) : Prop where
  /-- It is answered without a write of the catalog only if that has a file. -/
  started : (∃ p, e.persistence = some p ∧ p.hasExistingData = false) → ¬ Idle e call
  /-- It does not fail after a change to the catalog. -/
  late : ¬ FailsLate e call
  /-- The files it writes are its own. -/
  own : e.catalog.poisoned = false → ∀ name, writtenTable call.stmt = some name →
    e.catalog.value.tableExists call.db name = true → OwnFiles e.memory call.stmt name
  /-- An INSERT draws no sequence value, and none that stores rows has an index
  to maintain. -/
  insert : e.catalog.poisoned = false → ∀ ins tableDef rows, call.stmt = .insert ins →
    e.catalog.value.getTable call.db (tableObjectName ins.table) = .ok tableDef →
    sourceRows tableDef.columns ins.columns ins.source = .ok rows →
    drawnRows tableDef.columns rows = 0 ∧
      (Wide tableDef.columns rows → e.storage.poisoned = false → rows ≠ [] →
        e.catalog.value.getTableIndexes call.db (tableObjectName ins.table) = [])
  /-- No DROP INDEX has an index to drop. -/
  dropIndex : e.catalog.poisoned = false → ∀ names ifExists,
    call.stmt = .drop .index names ifExists → ∀ name, ¬ UnregistersIndex e call names name
  /-- A DROP TABLE removes the files of its table only. -/
  dropTable : e.catalog.poisoned = false → ∀ names ifExists,
    call.stmt = .drop .table names ifExists →
    e.catalog.value.tableExists call.db (firstName names) = true →
    DropsOwnFiles e.memory call.db (toLowercase (firstName names))

/-! ## Statements -/

omit [ExprDebug] [Bincode] in
theorem OwnFiles.rowsApart {m : Memory} {stmt : Statement} {tn : String}
    (h : OwnFiles m stmt tn) (m' : Memory) (hapart : RowsApart m.storage)
    (htables : ∀ name, ¬ SameName tn name → m'.storage.table name = m.storage.table name) :
    RowsApart m'.storage := by
  intro name hrows
  by_cases hname : SameName tn name
  · rw [← tablePath_sameName hname]
    exact h.catalog
  · rw [htables name hname] at hrows
    exact hapart name hrows

omit [ExprDebug] in
theorem OwnFiles.tableFiles {m : Memory} {p : Persistence} {stmt : Statement} {tn : String}
    (hown : OwnFiles m stmt tn) (h : DataMirrored m p) (m' : Memory)
    (htables : ∀ name, ¬ SameName tn name → m'.storage.table name = m.storage.table name)
    (hkeys : ∀ key, IsIndexKey m'.catalog key → InUse m.catalog stmt key)
    (hsome : ∀ key, m'.storage.indexData[key]?.isSome = true →
      m.storage.indexData[key]?.isSome = true ∨ InUse m.catalog stmt key)
    (hkeep : ∀ key, IsIndexKey m'.catalog key →
      ¬ (startsWith key (toLowercase tn ++ ":") = true ∧
        m'.storage.indexData[key]?.isSome = true) →
      IsIndexKey m.catalog key ∧ m'.storage.indexData[key]? = m.storage.indexData[key]?) :
    DataMirrored m' (tableFiles m'.storage tn p) :=
  h.tableFiles htables hown.tables hkeep fun key key' hstart hdata hkey' hpath =>
    hown.indexes key key' hstart (hsome key hdata) (hkeys key' hkey') hpath

/-- A statement that ended with `r` leaves a server in step with its files. They
have the catalog if `r` is an answer. -/
def EndsInStep (r : Outcome ExecuteResult) (e' : Executor) : Prop :=
  ∃ p', e'.persistence = some p' ∧ InStep e'.memory p' ∧ ∀ x, r = .ok x → p'.hasExistingData = true

section Handlers

variable {e : Executor} {p : Persistence} (hp : e.persistence = some p) (h : InStep e.memory p)

omit [ExprDebug] in
include hp h in
/-- A statement that changes neither the memory nor the files. -/
theorem endsInStep_same {e' : Executor} {r : Outcome ExecuteResult} (hmemory : e'.memory = e.memory)
    (hfiles : e'.persistence = e.persistence)
    (hfile : ∀ x, r = .ok x → p.hasExistingData = true) : EndsInStep r e' :=
  ⟨p, hfiles.trans hp, hmemory ▸ h, hfile⟩

omit [ExprDebug] h in
include hp in
theorem persistence_saveTable (hst : e.storage.poisoned = false) (tn : String) :
    (e.saveTable tn).persistence = some (tableFiles e.storage.value tn p) := by
  simp [Executor.saveTable, Executor.persist, hp, hst]

omit [ExprDebug] [Host] h in
include hp in
theorem persistence_save (hc : e.catalog.poisoned = false) :
    e.save.persistence = some (p.saveCatalog e.catalog.value) := by
  simp [Executor.save, Executor.persist, hp, hc]

omit [ExprDebug] in
include hp h in
/-- A change to the catalog that registers no index, with `save`. -/
theorem endsInStep_save {e' : Executor} (hc : e.catalog.poisoned = false) {c : Catalog}
    (hfiles : e'.persistence = e.persistence) (hcatalog : e'.catalog = ⟨c, e.catalog.poisoned⟩)
    (hstorage : e'.storage = e.storage) (hwithin : IndexesWithin e.catalog.value c)
    {r : Outcome ExecuteResult} : EndsInStep r e'.save := by
  refine ⟨p.saveCatalog e'.catalog.value, persistence_save (hfiles.trans hp) ?_, ?_, fun x _ =>
    Persistence.hasExistingData_saveCatalog p _⟩
  · rw [hcatalog]
    exact hc
  · have hmemory : e'.save.memory = ⟨e'.catalog.value, e.storage.value⟩ := by
      rw [← hstorage]
      rfl
    rw [hmemory]
    refine inStep_saveCatalog (h.toDataMirrored.congr rfl fun key hkey => ?_) h.apart
    rw [hcatalog] at hkey
    exact hkey.mono hwithin

omit [ExprDebug] in
include hp h in
theorem createTable_endsInStep {env : Env} {db tableName : String} {columns : List Column}
    {r : Outcome ExecuteResult} {e' : Executor}
    (hout : CreateTableOutcome env db tableName columns e r e') : EndsInStep r e' := by
  cases hout with
  | locked => exact endsInStep_same hp h rfl rfl nofun
  | rejected => exact endsInStep_same hp h rfl rfl nofun
  | created hc hcreate =>
    refine endsInStep_save hp h hc ?_ ?_ ?_ (indexesWithin_createTable hcreate) <;> rfl

omit [ExprDebug] in
include hp h in
theorem database_endsInStep {change : Catalog → Except String Catalog}
    (hwithin : ∀ c, change e.catalog.value = .ok c → IndexesWithin e.catalog.value c)
    {r : Outcome ExecuteResult} {e' : Executor} (hout : DatabaseOutcome change e r e') :
    EndsInStep r e' := by
  cases hout with
  | locked => exact endsInStep_same hp h rfl rfl nofun
  | rejected => exact endsInStep_same hp h rfl rfl nofun
  | changed hc hchange =>
    refine endsInStep_save hp h hc ?_ ?_ ?_ (hwithin _ hchange) <;> rfl

omit [ExprDebug] in
include hp h in
/-- A statement on the rows of a table, whose new memory is saved. -/
theorem endsInStep_saveTable {e' : Executor} {stmt : Statement} {tn : String}
    (hfile : p.hasExistingData = true) (hst : e'.storage.poisoned = false)
    (hfiles : e'.persistence = e.persistence) (hown : OwnFiles e.memory stmt tn)
    (hcatalog : e'.catalog.value = e.catalog.value)
    (htables : ∀ name, ¬ SameName tn name →
      e'.storage.value.table name = e.storage.value.table name)
    (hsome : ∀ key, e'.storage.value.indexData[key]?.isSome = true →
      e.storage.value.indexData[key]?.isSome = true ∨ InUse e.catalog.value stmt key)
    (hkeep : ∀ key, ¬ (startsWith key (toLowercase tn ++ ":") = true ∧
        e'.storage.value.indexData[key]?.isSome = true) →
      e'.storage.value.indexData[key]? = e.storage.value.indexData[key]?)
    {r : Outcome ExecuteResult} : EndsInStep r (e'.saveTable tn) := by
  obtain ⟨hload, hdata⟩ := catalogFile_tableFiles (s := e'.storage.value) p hown.catalog
  refine ⟨_, persistence_saveTable (hfiles.trans hp) hst tn, ⟨?_, fun _ => ?_, ?_⟩, fun x _ => ?_⟩
  · refine hown.tableFiles h.toDataMirrored e'.memory htables (fun key hkey => ?_)
      hsome fun key hkey hno => ?_
    · rw [Executor.memory_catalog, hcatalog] at hkey
      exact .inl hkey
    · rw [Executor.memory_catalog, hcatalog] at hkey
      exact ⟨hkey, hkeep key hno⟩
  · rw [hload, h.catalog hfile]
    exact congrArg some hcatalog.symm
  · exact hown.rowsApart e'.memory h.apart htables
  · rw [hdata, hfile]

/-! ### Rows -/

omit [Bincode] h in
include hp in
/-- What is answered without saving the catalog finds its file there. -/
theorem WritesThrough.hasFile {call : Call} (hw : WritesThrough e call) (hidle : Idle e call) :
    p.hasExistingData = true := by
  by_contra hnone
  exact hw.started ⟨p, hp, Bool.eq_false_iff.mpr hnone⟩ hidle

include hp h in
theorem insert_endsInStep {env : Env} {db : String} {ins : Insert} {r : Outcome ExecuteResult}
    {e' : Executor} (hw : WritesThrough e ⟨env, db, .insert ins⟩)
    (hout : InsertOutcome env db (tableObjectName ins.table) ins.columns ins.source e r e') :
    EndsInStep r e' := by
  have hcatalog : ∀ {tableDef rows filled c}, e.catalog.poisoned = false →
      e.catalog.value.getTable db (tableObjectName ins.table) = .ok tableDef →
      sourceRows tableDef.columns ins.columns ins.source = .ok rows →
      fillRows env.now (tableObjectName ins.table) tableDef.columns 0 rows 0 e.catalog.value =
        (filled, c) → c = e.catalog.value := by
    intro tableDef rows filled c hc ht hs hf
    have hsame := fillRows_of_drawnRows (hw.insert hc ins tableDef rows rfl ht hs).1 env.now
      (tableObjectName ins.table) 0 0 e.catalog.value
    rw [hf] at hsame
    exact hsame
  cases hout with
  | locked => exact endsInStep_same hp h rfl rfl nofun
  | noTable => exact endsInStep_same hp h rfl rfl nofun
  | badSource => exact endsInStep_same hp h rfl rfl nofun
  | panicked hc ht hs hf =>
    obtain rfl := hcatalog hc ht hs hf
    exact endsInStep_same hp h rfl rfl nofun
  | unstored hc ht hs hf =>
    obtain rfl := hcatalog hc ht hs hf
    exact endsInStep_same hp h rfl rfl nofun
  | @stored tableDef rows filled last c hc ht hs hf hst =>
    obtain rfl := hcatalog hc ht hs hf
    have hexists := Catalog.tableExists_of_getTable ht
    have hquiet : rows = [] ∨
        e.catalog.value.getTableIndexes db (tableObjectName ins.table) = [] := by
      by_cases hrows : rows = []
      · exact .inl hrows
      · have hwide := (fillRows_eq_ok hf).1
        exact .inr ((hw.insert hc ins tableDef rows rfl ht hs).2 hwide hst hrows)
    have hdone : ∀ e₁ : Executor, insertDone e₁ (tableObjectName ins.table)
        (e.catalog.value.getTableIndexes db (tableObjectName ins.table)) tableDef.columns
        (e.storage.value.insertRows (tableObjectName ins.table) filled).1 =
          e₁.saveTable (tableObjectName ins.table) := by
      intro e₁
      rcases hquiet with rfl | hnone
      · cases hf
        simp [insertDone, Storage.insertRows, Storage.insertLoop]
      · simp [insertDone, hnone]
    rw [hdone]
    refine endsInStep_saveTable hp h (hw.hasFile hp hexists) ?_ ?_ (hw.own hc _ rfl hexists) ?_
      ?_ ?_ ?_
    · exact hst
    · rfl
    · rfl
    · exact fun name hname => (Storage.table_insertRows _ _ _ _).trans (if_neg hname)
    · exact fun key hkey => .inl hkey
    · exact fun key _ => rfl

omit [ExprDebug] [Bincode] in
/-- DELETE keeps the data of an index, if there is any. -/
theorem isSome_deleteRows {key : String} (tableName : String) (indexes : List IndexDef)
    (columns : List Column) (rows : List Row) {s : Storage}
    (hdata : s.indexData[key]?.isSome = true) :
    (deleteRows s tableName indexes columns rows).indexData[key]?.isSome = true := by
  refine foldl_keeps (I := fun d : IndexMap => d[key]?.isSome = true) (fun d row _ hd => ?_) hdata
  refine foldl_keeps (I := fun d : IndexMap => d[key]?.isSome = true) (fun d idx _ hd => ?_) hd
  rw [Std.ExtTreeMap.getElem?_alter]
  split
  · next heq =>
    rw [Std.LawfulEqCmp.compare_eq_iff_eq.mp heq, Option.isSome_map]
    exact hd
  · exact hd

omit [Bincode] in
/-- So does UPDATE. -/
theorem isSome_updateRows {key : String} (tableName : String) (indexes : List IndexDef)
    (columns : List Column) (assigns : List (Nat × Expr)) (rows : List Row) {s : Storage}
    (hdata : s.indexData[key]?.isSome = true) :
    (updateRows s tableName indexes columns assigns rows).indexData[key]?.isSome = true := by
  refine foldl_keeps (I := fun d : IndexMap => d[key]?.isSome = true) (fun d row _ hd => ?_)
    (isSome_deleteRows tableName indexes columns rows hdata)
  refine foldl_keeps (I := fun d : IndexMap => d[key]?.isSome = true) (fun d idx _ hd => ?_) hd
  rw [Std.ExtTreeMap.getElem?_alter]
  split
  · rfl
  · exact hd

include hp h in
/-- DELETE and UPDATE, which save what they change. -/
theorem change_endsInStep {env : Env} {db tableName : String} {stmt : Statement}
    {columns : List Column} {selection : Option Expr} {change : Storage → List Row → Storage}
    {rewrite : List Row → Table → Table} (hrewrites : Rewrites tableName change rewrite)
    (hfile : p.hasExistingData = true) (hown : OwnFiles e.memory stmt tableName)
    (hkeep : ∀ (s : Storage) (rows : List Row) (key : String), (∀ idx ∈ e.catalog.value.getTableIndexes db tableName,
      key ≠ storageKey tableName idx.name) → (change s rows).indexData[key]? = s.indexData[key]?)
    (hsome : ∀ (s : Storage) (rows : List Row) (key : String),
      s.indexData[key]?.isSome = true → (change s rows).indexData[key]?.isSome = true)
    {r : Outcome ExecuteResult} {e' : Executor}
    (hout : ChangeOutcome env tableName columns selection change e r e') : EndsInStep r e' := by
  cases hout with
  | locked => exact endsInStep_same hp h rfl rfl nofun
  | noEntry => exact endsInStep_same hp h rfl rfl nofun
  | panicked => exact endsInStep_same hp h rfl rfl nofun
  | @changed t rows hst ht hsel =>
    have hstorage : (logSnapshot env tableName rows
        (e.setStorage (change e.storage.value rows))).storage.value = change e.storage.value rows := by
      rw [logSnapshot_storage, Executor.setStorage_storage_value]
    refine endsInStep_saveTable hp h hfile ?_ ?_ hown ?_ ?_ ?_ ?_
    · rw [logSnapshot_storage]
      exact hst
    · unfold logSnapshot
      split <;> rfl
    · rw [logSnapshot_catalog]
      rfl
    · intro name hname
      rw [hstorage]
      exact (table_change hrewrites ht rows name).trans (if_neg hname)
    · intro key hkey
      rw [hstorage] at hkey
      by_cases hidx : ∀ idx ∈ e.catalog.value.getTableIndexes db tableName,
          key ≠ storageKey tableName idx.name
      · rw [hkeep _ _ key hidx] at hkey
        exact .inl hkey
      · push Not at hidx
        obtain ⟨idx, hidx, rfl⟩ := hidx
        exact .inr (.inl ⟨db, tableName, idx, hidx, rfl⟩)
    · intro key hkey
      rw [hstorage] at hkey ⊢
      by_cases hidx : ∀ idx ∈ e.catalog.value.getTableIndexes db tableName,
          key ≠ storageKey tableName idx.name
      · exact hkeep _ _ key hidx
      · push Not at hidx
        obtain ⟨idx, hidx, rfl⟩ := hidx
        -- an index of the table that is not saved has no data, before and after
        have hnone : ¬ (change e.storage.value rows).indexData[
            storageKey tableName idx.name]?.isSome = true :=
          fun hdata => hkey ⟨startsWith_storageKey tableName idx.name, hdata⟩
        have hbefore : ¬ e.storage.value.indexData[storageKey tableName idx.name]?.isSome = true :=
          fun hdata => hnone (hsome _ _ _ hdata)
        rw [Option.not_isSome_iff_eq_none] at hnone hbefore
        rw [hnone, hbefore]

include hp h in
theorem delete_endsInStep {env : Env} {db : String} {del : Delete} {r : Outcome ExecuteResult}
    {e' : Executor} (hw : WritesThrough e ⟨env, db, .delete del⟩)
    (hout : DeleteOutcome env db (deleteTable del) del.selection e r e') : EndsInStep r e' := by
  cases hout with
  | locked => exact endsInStep_same hp h rfl rfl nofun
  | noTable => exact endsInStep_same hp h rfl rfl nofun
  | ran hc ht hch =>
    have hexists := Catalog.tableExists_of_getTable ht
    exact change_endsInStep hp h (deleteRows_rewrites _ _ _) (hw.hasFile hp hexists)
      (hw.own hc _ rfl hexists) (fun s rows key hkey => deleteRows_indexData_keep hkey _ s rows)
      (fun s rows key => isSome_deleteRows _ _ _ rows) hch

include hp h in
theorem update_endsInStep {env : Env} {db : String} {table : TableFactor}
    {assignments : List Assignment} {selection : Option Expr} {r : Outcome ExecuteResult}
    {e' : Executor} (hw : WritesThrough e ⟨env, db, .update table assignments selection⟩)
    (hout : UpdateOutcome env db (tableFactorName table) assignments selection e r e') :
    EndsInStep r e' := by
  cases hout with
  | locked => exact endsInStep_same hp h rfl rfl nofun
  | noTable => exact endsInStep_same hp h rfl rfl nofun
  | badAssignment => exact endsInStep_same hp h rfl rfl nofun
  | ran hc ht ha hch =>
    have hexists := Catalog.tableExists_of_getTable ht
    exact change_endsInStep hp h (updateRows_rewrites _ _ _ _) (hw.hasFile hp hexists)
      (hw.own hc _ rfl hexists) (fun s rows key hkey => updateRows_indexData_keep hkey _ _ s rows)
      (fun s rows key => isSome_updateRows _ _ _ _ rows) hch

/-! ### Indexes -/

include hp h in
theorem createIndex_endsInStep {env : Env} {db : String} {ci : CreateIndex}
    {r : Outcome ExecuteResult} {e' : Executor} (hw : WritesThrough e ⟨env, db, .createIndex ci⟩)
    (hcols : indexColumns ci ≠ [])
    (hout : CreateIndexOutcome env db (nameToString ci.tableName)
      (newIndexDef (nameToString ci.tableName) ci) e r e') : EndsInStep r e' := by
  cases hout with
  | locked => exact endsInStep_same hp h rfl rfl nofun
  | rejected => exact endsInStep_same hp h rfl rfl nofun
  | unbuilt hc hcreate ht hst =>
    have hreg := registersIndex_iff.mpr ⟨hcols, ht, _, hcreate⟩
    exact absurd ⟨hc, _, hreg, .inl hst⟩ hw.late
  | duplicate hc hcreate ht hst hb =>
    have hreg := registersIndex_iff.mpr ⟨hcols, ht, _, hcreate⟩
    exact absurd ⟨hc, _, hreg, .inr (buildIndex_error_iff.mp ⟨_, hb⟩)⟩ hw.late
  | @built c tableDef data hc hcreate ht hst hb =>
    have hown := hw.own hc _ rfl (Catalog.tableExists_of_getTable ht)
    generalize hkey : storageKey (nameToString ci.tableName)
      (newIndexDef (nameToString ci.tableName) ci).name = key
    have hstart : startsWith key (toLowercase (nameToString ci.tableName) ++ ":") = true := by
      rw [← hkey]
      exact startsWith_storageKey _ _
    have hkeys : ∀ key', IsIndexKey c key' → IsIndexKey e.catalog.value key' ∨ key' = key := by
      rintro key' ⟨db', t, idx, hidx, rfl⟩
      rcases (mem_createIndex hcreate).mp hidx with hold | ⟨-, hname, rfl⟩
      · exact .inl ⟨db', t, idx, hold, rfl⟩
      · exact .inr ((storageKey_sameName hname _).symm.trans hkey)
    have hput : ∀ key', (e.storage.value.putIndex key data).indexData[key']? =
        if key = key' then some data else e.storage.value.indexData[key']? := by
      intro key'
      simp only [Storage.putIndex, Std.ExtTreeMap.getElem?_insert,
        Std.LawfulEqCmp.compare_eq_iff_eq]
    have hdata : DataMirrored ⟨c, e.storage.value.putIndex key data⟩
        (tableFiles (e.storage.value.putIndex key data) (nameToString ci.tableName) p) := by
      refine hown.tableFiles h.toDataMirrored ⟨c, e.storage.value.putIndex key data⟩
        (fun _ _ => rfl) (fun key' hkey' => ?_) (fun key' hsome => ?_)
        fun key' hkey' hno => ?_
      · rcases hkeys key' hkey' with hold | rfl
        · exact .inl hold
        · exact .inr ⟨ci, rfl, hkey.symm⟩
      · simp only [hput] at hsome
        split at hsome
        · next hnew =>
          subst hnew
          exact .inr (.inr ⟨ci, rfl, hkey.symm⟩)
        · exact .inl hsome
      · have hne : key ≠ key' := by
          rintro rfl
          exact hno ⟨hstart, by simp only [hput, if_true, Option.isSome_some]⟩
        refine ⟨(hkeys key' hkey').resolve_right hne.symm, ?_⟩
        simp only [hput, if_neg hne, Executor.memory_storage]
    refine ⟨_, persistence_save (persistence_saveTable ?_ ?_ _) ?_,
      inStep_saveCatalog hdata h.apart, fun _ _ => Persistence.hasExistingData_saveCatalog _ _⟩
    · exact hp
    · exact hst
    · exact hc

include hp h in
theorem dropIndex_endsInStep {env : Env} {db tableName : String} {names : List ObjectName}
    {ifExists : Bool} {r : Outcome ExecuteResult} {e' : Executor}
    (hw : WritesThrough e ⟨env, db, .drop .index names ifExists⟩)
    (hfind : findIndexTable env db (firstName names) e.catalog.value = some tableName)
    (hout : DropIndexOutcome env db (firstName names) tableName e r e') : EndsInStep r e' := by
  cases hout with
  | locked => exact endsInStep_same hp h rfl rfl nofun
  | rejected => exact endsInStep_same hp h rfl rfl nofun
  | undropped hc hdrop =>
    exact absurd ⟨hfind, Catalog.dropIndex_isOk.mp ⟨_, hdrop⟩⟩ (hw.dropIndex hc _ _ rfl tableName)
  | dropped hc hdrop =>
    exact absurd ⟨hfind, Catalog.dropIndex_isOk.mp ⟨_, hdrop⟩⟩ (hw.dropIndex hc _ _ rfl tableName)

/-! ### DROP TABLE -/

omit [ExprDebug] h hp in
theorem loadTableData_dropFiles (c : Catalog) {tn name : String}
    (hcatalog : tablePath name ≠ catalogPath) (hpath : tablePath name ≠ tablePath tn)
    (hkept : ¬ IsRemoved tn (tablePath name)) :
    (removeIndexFiles tn ((p.removeTableData tn).saveCatalog c)).loadTableData name =
      p.loadTableData name := by
  refine Persistence.loadTableData_congr ?_
  rw [files_removeIndexFiles _ hkept, Persistence.saveCatalog, Persistence.files_write,
    if_neg hcatalog.symm, Persistence.removeTableData, Persistence.files_remove,
    if_neg hpath.symm]

omit [ExprDebug] h hp in
theorem loadIndexData_dropFiles (c : Catalog) {tn key : String}
    (hkept : ¬ IsRemoved tn (indexPath key)) :
    (removeIndexFiles tn ((p.removeTableData tn).saveCatalog c)).loadIndexData key =
      p.loadIndexData key := by
  refine Persistence.loadIndexData_congr ?_
  rw [files_removeIndexFiles _ hkept, Persistence.saveCatalog, Persistence.files_write,
    if_neg (catalogPath_ne_indexPath key), Persistence.removeTableData,
    Persistence.files_remove, if_neg (tablePath_ne_indexPath tn key)]

omit [ExprDebug] in
/-- An index file goes with DROP TABLE when its data does, or when there is
neither. -/
theorem loadIndexData_dropTable {s : Storage} (c : Catalog) {tn key : String}
    (htn : toLowercase tn = tn) (hbefore : p.loadIndexData key = s.indexData[key]?)
    (hown : s.indexData[key]?.isSome = true →
      (IsRemoved tn (indexPath key) ↔ startsWith key (tn ++ ":") = true)) :
    (removeIndexFiles tn ((p.removeTableData tn).saveCatalog c)).loadIndexData key =
      (s.clearTable tn).indexData[key]? := by
  have hremoved : IsRemoved tn (indexPath key) →
      (removeIndexFiles tn ((p.removeTableData tn).saveCatalog c)).loadIndexData key = none := by
    intro hgone
    rw [Persistence.loadIndexData, files_removeIndexFiles_eq_none _ hgone, Option.bind_none]
  rw [Storage.indexData_clearTable, Engine.normalize, htn]
  cases hdata : s.indexData[key]? with
  | none =>
    rw [ite_self]
    by_cases hgone : IsRemoved tn (indexPath key)
    · exact hremoved hgone
    · rw [loadIndexData_dropFiles c hgone, hbefore, hdata]
  | some d =>
    rw [hdata] at hown
    split
    · next hstart => exact hremoved ((hown rfl).mpr hstart)
    · next hstart =>
      rw [loadIndexData_dropFiles c fun hgone => hstart ((hown rfl).mp hgone), hbefore, hdata]

omit [ExprDebug] in
/-- The directory after DROP TABLE has removed its files. -/
theorem inStep_dropTable {m : Memory} (h : InStep m p) {c : Catalog} {db tn : String}
    (htn : toLowercase tn = tn) (hdrop : m.catalog.dropTable db tn = .ok c)
    (hown : DropsOwnFiles m db tn) :
    InStep ⟨c, m.storage.clearTable tn⟩
        (removeIndexFiles tn ((p.removeTableData tn).saveCatalog c)) ∧
      (removeIndexFiles tn ((p.removeTableData tn).saveCatalog c)).hasExistingData = true := by
  have hother : ∀ name, (m.storage.clearTable tn).table name ≠ ∅ → ¬ SameName tn name ∧
      (m.storage.clearTable tn).table name = m.storage.table name := by
    intro name hrows
    rw [Storage.table_clearTable] at hrows ⊢
    split at hrows
    · exact absurd rfl hrows
    · next hname => exact ⟨hname, if_neg hname⟩
  have hapart : RowsApart (m.storage.clearTable tn) := by
    intro name hrows
    rw [(hother name hrows).2] at hrows
    exact h.apart name hrows
  obtain ⟨hload, hfile⟩ := Persistence.loadCatalog_congr
    (files_removeIndexFiles ((p.removeTableData tn).saveCatalog c) (not_isRemoved_catalogPath tn))
  refine ⟨⟨⟨fun name hrows => ?_, fun key hkey => ?_⟩, fun _ => ?_, hapart⟩, ?_⟩
  · obtain ⟨hname, htable⟩ := hother name hrows
    have hcatalog := hapart name hrows
    rw [htable] at hrows ⊢
    obtain ⟨hpath, hkept⟩ := hown.tables name hrows hname
    rw [loadTableData_dropFiles c hcatalog hpath hkept, h.tables name hrows]
  · obtain ⟨db', t, idx, hidx, rfl⟩ := hkey
    rw [Catalog.getTableIndexes_dropTable hdrop] at hidx
    split at hidx
    · cases hidx
    · next hdiff =>
      exact loadIndexData_dropTable c htn (h.indexes _ ⟨db', t, idx, hidx, rfl⟩)
        (hown.indexes db' t idx hidx hdiff)
  · rw [hload, Persistence.loadCatalog_saveCatalog]
  · rw [hfile, Persistence.hasExistingData_saveCatalog]

include hp h in
theorem dropTable_endsInStep {env : Env} {db : String} {names : List ObjectName} {ifExists : Bool}
    {r : Outcome ExecuteResult} {e' : Executor}
    (hw : WritesThrough e ⟨env, db, .drop .table names ifExists⟩)
    (hout : DropTableOutcome env db (toLowercase (firstName names)) e r e') : EndsInStep r e' := by
  cases hout with
  | locked => exact endsInStep_same hp h rfl rfl nofun
  | rejected => exact endsInStep_same hp h rfl rfl nofun
  | uncleared hc hdrop hst => exact absurd ⟨hc, hst, tableExists_of_dropTable hdrop⟩ hw.late
  | @dropped c hc hdrop hst =>
    have hown := hw.dropTable hc names ifExists rfl (tableExists_of_dropTable hdrop)
    obtain ⟨hstep, hfile⟩ := inStep_dropTable h (toLowercase_idem _) hdrop hown
    exact ⟨_, by simp [dropTablePersist, Executor.persist, hp], hstep, fun _ _ => hfile⟩

/-! ### Answers that change nothing -/

omit [Host] [ExprDebug] [Bincode] h in
theorem ok_of_readCatalog {α : Type} {f : Catalog → Except String α} {a : α}
    (hr : ((readCatalog f).run e).1 = .ok a) : f e.catalog.value = .ok a := by
  cases hc : e.catalog.poisoned with
  | true =>
    rw [run_readCatalog_poisoned hc] at hr
    cases hr
  | false =>
    rw [run_readCatalog f hc] at hr
    cases hf : f e.catalog.value with
    | error msg =>
      rw [hf] at hr
      cases hr
    | ok b =>
      rw [hf] at hr
      cases hr
      rfl

omit h in
/-- A statement that only reads has an answer only where it is idle. -/
theorem idle_of_readOnly {env : Env} {db : String} {stmt : Statement} {x : ExecuteResult}
    (hread : readOnly stmt = true) (hr : ((execute env db stmt).run e).1 = .ok x) :
    Idle e ⟨env, db, stmt⟩ := by
  have hexists : ∀ {c : Catalog} {name : String} {f : TableDef → Except String ExecuteResult},
      (c.getTable db name >>= f) = .ok x → c.tableExists db name = true := by
    intro c name f hget
    cases ht : c.getTable db name with
    | error msg =>
      rw [ht] at hget
      cases hget
    | ok t => exact Catalog.tableExists_of_getTable ht
  cases stmt with
  | query query =>
    unfold Idle
    cases hbody : query.body with
    | select select =>
      simp only [hbody]
      intro table htable
      obtain ⟨rest, hfrom⟩ := List.head?_eq_some_iff.mp htable
      have hrun : ((executeQuery db query).run e).1 = .ok x := hr
      rw [run_select hbody hfrom] at hrun
      simp only at hrun
      split at hrun
      · cases hrun
      · split at hrun
        · cases hrun
        · next t ht => exact Catalog.tableExists_of_getTable ht
    | _ =>
      have hrun : ((executeQuery db query).run e).1 = .ok x := hr
      unfold executeQuery at hrun
      rw [hbody] at hrun
      cases hrun
  | showDatabases => trivial
  | showTables =>
    have hrun : ((executeShowTables db).run e).1 = .ok x := hr
    have hok := ok_of_readCatalog hrun
    cases hd : e.catalog.value.getDatabase db with
    | none =>
      rw [hd] at hok
      cases hok
    | some d => exact Option.isSome_iff_exists.mpr ⟨d, hd⟩
  | use stmt =>
    have huse : ∀ {name : ObjectName}, ((readCatalog fun c =>
        if c.databaseExists (nameToString name) then .ok (.databaseChanged (nameToString name))
        else .error s!"Unknown database: {nameToString name}").run e).1 = .ok x →
        e.catalog.value.databaseExists (nameToString name) = true := by
      intro name hrun
      have hok := ok_of_readCatalog hrun
      split at hok
      · next hdb => exact hdb
      · cases hok
    cases stmt with
    | database name => exact huse hr
    | object name => exact huse hr
    | other => cases hr
  | explainTable name =>
    have hrun : ((executeDescribe db (nameToString name)).run e).1 = .ok x := hr
    exact hexists (ok_of_readCatalog hrun)
  | drop objectType names ifExists =>
    cases objectType with
    | other => cases hr
    | _ => cases hread
  | other => cases hr
  | _ => cases hread

include hp h in
/-- Every statement that writes through ends in step with the files. -/
theorem execute_endsInStep {env : Env} {db : String} {stmt : Statement}
    (hw : WritesThrough e ⟨env, db, stmt⟩) :
    EndsInStep ((execute env db stmt).run e).1 ((execute env db stmt).run e).2 := by
  have hidle : ∀ {r : Outcome ExecuteResult}, (∀ x, r = .ok x → Idle e ⟨env, db, stmt⟩) →
      EndsInStep r e :=
    fun hanswer => endsInStep_same hp h rfl rfl fun x hx => hw.hasFile hp (hanswer x hx)
  cases stmt with
  | createTable ct =>
    rw [execute_createTable]
    split
    · next hskip =>
      simp only [Bool.and_eq_true] at hskip
      exact hidle fun _ _ => ⟨hskip.1.1, hskip.2⟩
    · exact createTable_endsInStep hp h (executeCreateTable_outcome env db ct e)
  | insert ins => exact insert_endsInStep hp h hw (executeInsert_outcome env db _ _ _ e)
  | delete del => exact delete_endsInStep hp h hw (executeDelete_outcome env db _ _ e)
  | update table assignments selection =>
    exact update_endsInStep hp h hw (executeUpdate_outcome env db _ _ _ e)
  | drop objectType names ifExists =>
    cases objectType with
    | table =>
      rw [execute_dropTable]
      split
      · next hskip =>
        simp only [Bool.and_eq_true] at hskip
        refine hidle fun _ _ => ⟨hskip.1, fun hrun => ?_⟩
        simp [hrun.1, hrun.2] at hskip
      · exact dropTable_endsInStep hp h hw (executeDropTable_outcome env db (firstName names) e)
    | database =>
      rw [execute_dropDatabase]
      split
      · next hskip =>
        simp only [Bool.and_eq_true] at hskip
        refine hidle fun _ _ => ⟨hskip.1, fun hrun => ?_⟩
        simp [hrun.1, hrun.2] at hskip
      · refine database_endsInStep hp h (fun c hc => ?_) (databaseChange_outcome _ e)
        cases hremoved : e.catalog.value.removeDatabase (firstName names) with
        | none => simp [hremoved] at hc
        | some c' =>
          simp only [hremoved, Except.ok.injEq] at hc
          exact hc ▸ indexesWithin_removeDatabase hremoved
    | index =>
      rw [execute_dropIndex]
      split
      · exact hidle nofun
      · split
        · exact hidle nofun
        · next tableName hfind =>
          split
          · exact hidle fun _ _ => ⟨tableName, hfind⟩
          · exact dropIndex_endsInStep hp h hw hfind
              (executeDropIndex_outcome env db (firstName names) tableName e)
    | other =>
      rw [execute_readOnly rfl]
      exact hidle fun _ hr => idle_of_readOnly rfl hr
  | createDatabase dbName ifNotExists =>
    rw [execute_createDatabase]
    split
    · next hskip =>
      simp only [Bool.and_eq_true] at hskip
      exact hidle fun _ _ => ⟨hskip.1.1, hskip.2⟩
    · refine database_endsInStep hp h (fun c hc => ?_) (databaseChange_outcome _ e)
      cases hc
      exact indexesWithin_createDatabase _
  | createIndex ci =>
    rw [execute_createIndex]
    split
    · by_cases hcols : indexColumns ci = []
      · rw [run_executeCreateIndex_nil hcols]
        exact hidle nofun
      · exact createIndex_endsInStep hp h hw hcols
          (executeCreateIndex_outcome env db (nameToString ci.tableName) ci hcols e)
    · exact hidle nofun
  | query _ | showDatabases | showTables | use _ | explainTable _ | other =>
    rw [execute_readOnly rfl]
    exact hidle fun _ hr => idle_of_readOnly rfl hr

end Handlers

/-! ## Runs -/

/-- Along every run whose statements write through, from a server that is in
step with its files, the data directory is the memory after each answer. -/
theorem disk_mirrors {e : Executor} {p : Persistence} (hp : e.persistence = some p)
    (h : InStep e.memory p) {calls : List Call}
    (hrun : Every Executor.after WritesThrough e calls) :
    Every Executor.after
      (fun e call => ∀ x, call.result e = .ok x → DiskMirrors (e.after call)) e calls := by
  have hstep : ∀ e call, (∃ p, e.persistence = some p ∧ InStep e.memory p) →
      WritesThrough e call →
      ∃ p, (e.after call).persistence = some p ∧ InStep (e.after call).memory p := by
    rintro e call ⟨p, hp, h⟩ hw
    obtain ⟨p', hp', h', -⟩ := execute_endsInStep hp h hw
    exact ⟨p', hp', h'⟩
  have hmirrors : ∀ e call, (∃ p, e.persistence = some p ∧ InStep e.memory p) →
      WritesThrough e call → ∀ x, call.result e = .ok x → DiskMirrors (e.after call) := by
    rintro e call ⟨p, hp, h⟩ hw x hx
    obtain ⟨p', hp', h', hfile⟩ := execute_endsInStep hp h hw
    exact ⟨p', hp', h'.mirrored (hfile x hx)⟩
  exact Every.of_invariant hstep hmirrors ⟨p, hp, h⟩ hrun

end Theory

section Concrete

attribute [local instance] asciiHost plainDebug bincode1

/-- A fresh server on an empty data directory. -/
def freshOnDisk : Executor := .ofMemory .new (some .empty)

/-- A table `t` with a column and no rows. -/
def savedTable : Executor := freshOnDisk.after (callIn "srrdb" (intTable "t" ["a"]))

theorem savedTable_writesThrough :
    Every Executor.after WritesThrough freshOnDisk
      [callIn "srrdb" (intTable "t" ["a"]), callIn "srrdb" (insertNumbers "t" [["1"]])] := by
  have hfile : savedTable.persistence.map (·.hasExistingData) = some true := by decide +kernel
  have htable : savedTable.catalog.value.getTable "srrdb" "t" =
      .ok ⟨"t", [.new "a" "t" .long]⟩ := by
    decide +kernel
  have hrows : sourceRows [.new "a" "t" .long] [] (some ⟨.values [[numberExpr "1"]], none, none,
      none⟩) = .ok [⟨0, [.int 1]⟩] := by
    decide +kernel
  have hkeys : ∀ key, ¬ IsIndexKey savedTable.catalog.value key := by
    rintro key ⟨db, t, idx, hidx, -⟩
    rcases (after_alters freshOnDisk (callIn "srrdb" (intTable "t" ["a"]))).mem_getTableIndexes
      hidx with hold | ⟨ci, ⟨⟩, -⟩
    exact not_isIndexKey_new _ ⟨db, t, idx, hold, rfl⟩
  refine ⟨⟨?_, ?_, nofun, nofun, nofun, nofun⟩, ⟨?_, ?_, ?_, ?_, nofun, nofun⟩, trivial⟩
  · rintro - ⟨hskip, -⟩
    cases hskip
  · rintro ⟨-, hlate⟩
    exact hlate
  · rintro ⟨p, hp, hnone⟩
    have hp : savedTable.persistence = some p := hp
    rw [hp, Option.map_some, hnone] at hfile
    cases hfile
  · rintro ⟨-, hpoisoned, -⟩
    revert hpoisoned
    decide +kernel
  · rintro - name ⟨⟩ -
    refine ⟨by decide +kernel, fun name hrows => absurd (Storage.table_new name) hrows,
      fun key key' _ hkey hkey' => ?_⟩
    rcases hkey' with hkey' | ⟨ci, ⟨⟩, -⟩
    exact absurd hkey' (hkeys key')
  · rintro - ins tableDef rows ⟨⟩ ht hs
    cases htable.symm.trans ht
    cases hrows.symm.trans hs
    exact ⟨by decide, fun _ _ _ => by decide +kernel⟩

/-- A table is created and gets a row, and the files are the memory each time. -/
theorem savedTable_disk_mirrors :
    Every Executor.after
      (fun e call => ∀ x, call.result e = .ok x → DiskMirrors (e.after call)) freshOnDisk
      [callIn "srrdb" (intTable "t" ["a"]), callIn "srrdb" (insertNumbers "t" [["1"]])] :=
  disk_mirrors (e := freshOnDisk) rfl inStep_fresh savedTable_writesThrough

/-- A table `t` with an index. -/
def savedIndex : Executor :=
  savedTable.after (callIn "srrdb" (indexOn false "i" "t" ["a"]))

/-- A value of the sequence of `t` is not saved, nor is a row in the index `i`,
nor that `i` is dropped. -/
theorem answered_not_mirrored :
    (∃ x, (callIn "srrdb" (insertNulls "t" 1)).result
        (freshOnDisk.after (callIn "srrdb" (serialTable "t"))) = .ok x ∧
      ¬ DiskMirrors ((freshOnDisk.after (callIn "srrdb" (serialTable "t"))).after
        (callIn "srrdb" (insertNulls "t" 1)))) ∧
    (∃ x, (callIn "srrdb" (insertNumbers "t" [["1"]])).result savedIndex = .ok x ∧
      ¬ DiskMirrors (savedIndex.after (callIn "srrdb" (insertNumbers "t" [["1"]])))) ∧
    (∃ x, (callIn "srrdb" (.drop .index [["i"]] false)).result savedIndex = .ok x ∧
      ¬ DiskMirrors (savedIndex.after (callIn "srrdb" (.drop .index [["i"]] false)))) := by
  refine ⟨⟨.affected 1 1, by decide +kernel, ?_⟩, ⟨.affected 1 0, by decide +kernel, ?_⟩,
    ⟨.ok, by decide +kernel, ?_⟩⟩
  · rintro ⟨p, hp, hm⟩
    have hsaved : (((freshOnDisk.after (callIn "srrdb" (serialTable "t"))).after
        (callIn "srrdb" (insertNulls "t" 1))).persistence.bind (·.loadCatalog)).map
          (·.sequence "t") = some 1 := by
      decide +kernel
    rw [hp, Option.bind_some, hm.catalog] at hsaved
    revert hsaved
    decide +kernel
  · rintro ⟨p, hp, hm⟩
    have hsaved : ((savedIndex.after (callIn "srrdb" (insertNumbers "t" [["1"]]))).persistence.bind
        (·.loadIndexData "t:i")).map (·.buckets.length) = some 0 := by
      decide +kernel
    rw [hp, Option.bind_some, hm.indexes "t:i" ⟨"srrdb", "t", ⟨"i", .bTree, "t", ["a"], false⟩,
      by decide +kernel, by decide +kernel⟩] at hsaved
    revert hsaved
    decide +kernel
  · rintro ⟨p, hp, hm⟩
    have hsaved : ((savedIndex.after (callIn "srrdb" (.drop .index [["i"]] false))).persistence.bind
        (·.loadCatalog)).map (fun c => (c.getTableIndexes "srrdb" "t").length) = some 1 := by
      decide +kernel
    rw [hp, Option.bind_some, hm.catalog] at hsaved
    revert hsaved
    decide +kernel

end Concrete

end Srrdb.Server

/-
Srrdb.Engine.CatalogSteps — what one section does to the catalog.

A section leaves the catalog alone, or performs one of the operations of
`engine/catalog.rs`, or draws sequence values (`CatalogStep`). This holds of
every section of every statement (`execute_steps`), so what the operations do
to a property of the catalog says what any schedule of statements does to it.
The handlers are gone through for any relation that allows these steps
(`Admits`); so only CREATE DATABASE adds a database (`execute_keeps_missing`).
-/
import Srrdb.Engine.CatalogTheorems
import Srrdb.Engine.Consistency
import Srrdb.Engine.Defaults

namespace Srrdb.Engine

open Srrdb.Sql Srrdb.Lib

/-! ## Steps -/

/-- What a section does to the catalog. -/
inductive CatalogStep [Host] (c : Catalog) : Catalog → Prop
  | drawn {c' : Catalog} (h : c'.databases = c.databases) : CatalogStep c c'
  | createTable {db tableName : String} {columns : List Column} {c' : Catalog}
      (h : c.createTable db tableName columns = .ok c') : CatalogStep c c'
  | dropTable {db tableName : String} {c' : Catalog} (h : c.dropTable db tableName = .ok c') :
      CatalogStep c c'
  | createIndex {db : String} {indexDef : IndexDef} {c' : Catalog}
      (h : c.createIndex db indexDef = .ok c') : CatalogStep c c'
  | dropIndex {db indexName tableName : String} {c' : Catalog}
      (h : c.dropIndex db indexName tableName = .ok c') : CatalogStep c c'
  | createDatabase (name : String) : CatalogStep c (c.createDatabase name)
  | removeDatabase {name : String} {c' : Catalog} (h : c.removeDatabase name = some c') :
      CatalogStep c c'

/-- A step of a server that is one of the relation, as far as its catalog goes. -/
def Stepped (R : Catalog → Catalog → Prop) (e e' : Executor) : Prop :=
  R e.catalog.value e'.catalog.value

/-- A step of a server, as far as its catalog goes. -/
def CatalogStepped [Host] (e e' : Executor) : Prop :=
  CatalogStep e.catalog.value e'.catalog.value

/-- A relation that allows every step but the creation of a database. -/
class Admits [Host] (R : Catalog → Catalog → Prop) : Prop where
  drawn {c c' : Catalog} (h : c'.databases = c.databases) : R c c'
  createTable {c c' : Catalog} {db tableName : String} {columns : List Column}
    (h : c.createTable db tableName columns = .ok c') : R c c'
  dropTable {c c' : Catalog} {db tableName : String} (h : c.dropTable db tableName = .ok c') :
    R c c'
  createIndex {c c' : Catalog} {db : String} {indexDef : IndexDef}
    (h : c.createIndex db indexDef = .ok c') : R c c'
  dropIndex {c c' : Catalog} {db indexName tableName : String}
    (h : c.dropIndex db indexName tableName = .ok c') : R c c'
  removeDatabase {c c' : Catalog} {name : String} (h : c.removeDatabase name = some c') : R c c'

instance [Host] : Admits CatalogStep :=
  ⟨.drawn, .createTable, .dropTable, .createIndex, .dropIndex, .removeDatabase⟩

theorem Stepped.same [Host] {R : Catalog → Catalog → Prop} [Admits R] {e e' : Executor}
    (h : e'.catalog.value = e.catalog.value) : Stepped R e e' :=
  Admits.drawn (congrArg Catalog.databases h)

/-- A database that is missing stays so. -/
def KeepsMissing [Host] (name : String) (c c' : Catalog) : Prop :=
  c.databaseExists name = false → c'.databaseExists name = false

theorem keepsMissing_of_eq [Host] {name : String} {c c' : Catalog}
    (h : c'.databaseExists name = c.databaseExists name) : KeepsMissing name c c' :=
  h.trans

instance [Host] (name : String) : Admits (KeepsMissing name) where
  drawn h := keepsMissing_of_eq (by rw [Catalog.databaseExists, Catalog.databaseExists, h])
  createTable h := keepsMissing_of_eq (Catalog.databaseExists_createTable h)
  dropTable h := keepsMissing_of_eq (Catalog.databaseExists_dropTable h)
  createIndex h := keepsMissing_of_eq (Catalog.databaseExists_createIndex h)
  dropIndex h := keepsMissing_of_eq (Catalog.databaseExists_dropIndex h)
  removeDatabase h := Catalog.databaseExists_removeDatabase h

/-! ## Tables along steps -/

section Tables

variable [Host] {c c' : Catalog} {db tableName : String}

/-- Every table of the second catalog is one of the first. -/
def TablesWithin (c c' : Catalog) : Prop :=
  ∀ db name t, c'.findTable db name = some t → c.findTable db name = some t

theorem TablesWithin.tableExists (h : TablesWithin c c') (ht : c'.tableExists db tableName = true) :
    c.tableExists db tableName = true := by
  rw [Catalog.tableExists_eq, Option.isSome_iff_exists] at ht ⊢
  exact ht.imp fun t ht => h db tableName t ht

theorem tablesWithin_congr (h : c'.databases = c.databases) : TablesWithin c c' := by
  intro db name t ht
  rwa [Catalog.findTable_congr h] at ht

theorem tablesWithin_dropTable (h : c.dropTable db tableName = .ok c') : TablesWithin c c' := by
  intro db name t ht
  rw [Catalog.findTable_dropTable h] at ht
  split at ht
  · cases ht
  · exact ht

theorem tablesWithin_createIndex {indexDef : IndexDef} (h : c.createIndex db indexDef = .ok c') :
    TablesWithin c c' := by
  intro db name t ht
  rwa [Catalog.findTable_createIndex h] at ht

theorem tablesWithin_dropIndex {indexName : String}
    (h : c.dropIndex db indexName tableName = .ok c') : TablesWithin c c' := by
  intro db name t ht
  rwa [Catalog.findTable_dropIndex h] at ht

theorem tablesWithin_createDatabase (name : String) : TablesWithin c (c.createDatabase name) := by
  intro db tableName t ht
  rwa [Catalog.findTable_createDatabase] at ht

theorem tablesWithin_removeDatabase {name : String} (h : c.removeDatabase name = some c') :
    TablesWithin c c' := by
  intro db tableName t ht
  rw [Catalog.findTable_removeDatabase h] at ht
  split at ht
  · cases ht
  · exact ht

end Tables

/-! ## Indexes along steps -/

section Indexes

variable [Host] {c c' : Catalog} {db t : String} {idx : IndexDef}

/-- The indexes of the catalog once another is registered. -/
theorem mem_createIndex {indexDef : IndexDef} (h : c.createIndex db indexDef = .ok c')
    {db' : String} :
    idx ∈ c'.getTableIndexes db' t ↔ idx ∈ c.getTableIndexes db' t ∨
      SameName db db' ∧ SameName indexDef.tableName t ∧ idx = indexDef := by
  rw [Catalog.getTableIndexes_createIndex h]
  split
  · next hsame =>
    rw [← Catalog.getTableIndexes_sameName hsame.1 hsame.2, List.mem_append, List.mem_singleton]
    exact or_congr_right ⟨fun hidx => ⟨hsame.1, hsame.2, hidx⟩, fun hidx => hidx.2.2⟩
  · next hdiff =>
    constructor
    · exact .inl
    · rintro (hidx | ⟨hdb, ht, -⟩)
      · exact hidx
      · exact absurd ⟨hdb, ht⟩ hdiff

/-- Every index of the second catalog is one of the first. -/
def IndexesWithin (c c' : Catalog) : Prop :=
  ∀ db t idx, idx ∈ c'.getTableIndexes db t → idx ∈ c.getTableIndexes db t

theorem indexesWithin_congr (h : c'.databases = c.databases) : IndexesWithin c c' := by
  intro db t idx hidx
  rwa [Catalog.getTableIndexes_congr h] at hidx

theorem indexesWithin_createTable {tableName : String} {columns : List Column}
    (h : c.createTable db tableName columns = .ok c') : IndexesWithin c c' := by
  intro db t idx hidx
  rwa [Catalog.getTableIndexes_createTable h] at hidx

theorem indexesWithin_dropTable {tableName : String} (h : c.dropTable db tableName = .ok c') :
    IndexesWithin c c' := by
  intro db t idx hidx
  rw [Catalog.getTableIndexes_dropTable h] at hidx
  split at hidx
  · cases hidx
  · exact hidx

theorem indexesWithin_dropIndex {indexName tableName : String}
    (h : c.dropIndex db indexName tableName = .ok c') : IndexesWithin c c' := by
  intro db t idx hidx
  rw [Catalog.getTableIndexes_dropIndex h] at hidx
  split at hidx
  · next hsame =>
    rw [← Catalog.getTableIndexes_sameName hsame.1 hsame.2]
    exact List.mem_of_mem_eraseIdx hidx
  · exact hidx

theorem indexesWithin_createDatabase (name : String) : IndexesWithin c (c.createDatabase name) := by
  intro db t idx hidx
  rwa [Catalog.getTableIndexes_createDatabase] at hidx

theorem indexesWithin_removeDatabase {name : String} (h : c.removeDatabase name = some c') :
    IndexesWithin c c' := by
  intro db t idx hidx
  rw [Catalog.getTableIndexes_removeDatabase h] at hidx
  split at hidx
  · cases hidx
  · exact hidx

/-- A step registers an index, or it adds none. -/
theorem CatalogStep.registers (h : CatalogStep c c') :
    (∃ db indexDef, c.createIndex db indexDef = .ok c') ∨ IndexesWithin c c' := by
  cases h with
  | drawn h => exact .inr (indexesWithin_congr h)
  | createTable h => exact .inr (indexesWithin_createTable h)
  | dropTable h => exact .inr (indexesWithin_dropTable h)
  | createIndex h => exact .inl ⟨_, _, h⟩
  | dropIndex h => exact .inr (indexesWithin_dropIndex h)
  | createDatabase name => exact .inr (indexesWithin_createDatabase name)
  | removeDatabase h => exact .inr (indexesWithin_removeDatabase h)

/-- Only tables that exist have indexes. -/
def IndexesHaveTables (c : Catalog) : Prop :=
  ∀ db t idx, idx ∈ c.getTableIndexes db t → c.tableExists db t = true

theorem CatalogStep.indexesHaveTables (h : CatalogStep c c') (hc : IndexesHaveTables c) :
    IndexesHaveTables c' := by
  intro db t idx hidx
  cases h with
  | drawn h =>
    rw [Catalog.getTableIndexes_congr h] at hidx
    rw [Catalog.tableExists_eq, Catalog.findTable_congr h]
    exact hc db t idx hidx
  | createTable h =>
    rw [Catalog.getTableIndexes_createTable h] at hidx
    rw [Catalog.tableExists_eq, Catalog.findTable_createTable h]
    split
    · rfl
    · exact hc db t idx hidx
  | dropTable h =>
    rw [Catalog.getTableIndexes_dropTable h] at hidx
    rw [Catalog.tableExists_eq, Catalog.findTable_dropTable h]
    split at hidx
    · cases hidx
    · next hdiff =>
      rw [if_neg hdiff]
      exact hc db t idx hidx
  | createIndex h =>
    rw [Catalog.tableExists_eq, Catalog.findTable_createIndex h]
    rcases (mem_createIndex h).mp hidx with hold | ⟨hdb, ht, rfl⟩
    · exact hc db t idx hold
    · exact (Catalog.tableExists_sameName hdb ht).symm.trans
        (Catalog.createIndex_isOk.mp ⟨_, h⟩).1
  | dropIndex h =>
    rw [Catalog.tableExists_eq, Catalog.findTable_dropIndex h]
    exact hc db t idx (indexesWithin_dropIndex h db t idx hidx)
  | createDatabase name =>
    rw [Catalog.getTableIndexes_createDatabase] at hidx
    rw [Catalog.tableExists_eq, Catalog.findTable_createDatabase]
    exact hc db t idx hidx
  | removeDatabase h =>
    rw [Catalog.getTableIndexes_removeDatabase h] at hidx
    rw [Catalog.tableExists_eq, Catalog.findTable_removeDatabase h]
    split at hidx
    · cases hidx
    · next hdiff =>
      rw [if_neg hdiff]
      exact hc db t idx hidx

end Indexes

/-! ## Sections -/

section Sections

variable [Host] {α : Type} {R : Catalog → Catalog → Prop} [Admits R]

theorem lockCatalog_stepped {f : Executor → Outcome α × Executor} {e : Executor}
    (hf : Stepped R e (f e).2) : Stepped R e (lockCatalog f e).2 := by
  unfold lockCatalog
  split
  · exact .same rfl
  · split
    · next heq =>
      rw [heq] at hf
      exact hf
    · exact hf

theorem steps_catalogSection {f : Executor → Outcome α × Executor}
    (hf : ∀ e, Stepped R e (f e).2) : Handler.Steps (Stepped R) (catalogSection f) :=
  Handler.steps_sec fun e => lockCatalog_stepped (hf e)

omit [Host] in
theorem lockStorage_catalog {f : Executor → Outcome α × Executor} {e : Executor}
    (hf : (f e).2.catalog = e.catalog) : (lockStorage f e).2.catalog = e.catalog := by
  unfold lockStorage
  split
  · rfl
  · split
    · next heq =>
      rw [heq] at hf
      exact hf
    · exact hf

/-- A section that leaves the catalog alone. -/
theorem steps_quiet {f : Executor → Outcome α × Executor}
    (hf : ∀ e, (f e).2.catalog = e.catalog) :
    Handler.Steps (Stepped R) (Handler.sec f : Exec α) :=
  Handler.steps_sec fun e => .same (congrArg Mutex.value (hf e))

theorem steps_storageSection {f : Executor → Outcome α × Executor}
    (hf : ∀ e, (f e).2.catalog = e.catalog) :
    Handler.Steps (Stepped R) (storageSection f) :=
  steps_quiet fun e => lockStorage_catalog (hf e)

theorem steps_readCatalog (f : Catalog → Except String α) :
    Handler.Steps (Stepped R) (readCatalog f) :=
  steps_catalogSection fun _ => .same rfl

theorem steps_readStorage (f : Storage → α) : Handler.Steps (Stepped R) (readStorage f) :=
  steps_storageSection fun _ => rfl

theorem steps_updateStorage (f : Storage → α × Storage) :
    Handler.Steps (Stepped R) (updateStorage f) :=
  steps_storageSection fun _ => rfl

theorem steps_writeCatalog {f : Catalog → Except String Catalog}
    (hf : ∀ c c', f c = .ok c' → R c c') :
    Handler.Steps (Stepped R) (writeCatalog f) := by
  refine steps_catalogSection fun e => ?_
  split
  · next c h => exact hf _ c h
  · exact .same rfl

theorem steps_askCatalog (f : Catalog → Bool) : Handler.Steps (Stepped R) (askCatalog f) :=
  steps_quiet fun _ => rfl

omit [Host] [Admits R] in
theorem steps_liftOutcome (o : Outcome α) : Handler.Steps (Stepped R) (liftOutcome o) := by
  cases o with
  | ok a => exact Handler.steps_pure a
  | error x => exact Handler.steps_throw x

omit [Host] [Admits R] in
theorem steps_ite {c : Bool} {h k : Exec α} (hh : Handler.Steps (Stepped R) h)
    (hk : Handler.Steps (Stepped R) k) :
    Handler.Steps (Stepped R) (if c then h else k) := by
  split
  · exact hh
  · exact hk

theorem steps_indexSection (tableName : String) (indexes : List IndexDef) (columns : List Column)
    (ids : List Nat) :
    Handler.Steps (Stepped R) (indexSection tableName indexes columns ids) := by
  unfold indexSection
  exact steps_ite (Handler.steps_pure _) (steps_updateStorage _)

theorem steps_logWal (env : Env) (entry : WalEntry) :
    Handler.Steps (Stepped R) (logWal env entry) :=
  steps_quiet fun _ => rfl

variable [Bincode]

theorem steps_save : Handler.Steps (Stepped R) save := steps_quiet fun _ => rfl

theorem steps_saveTable (tableName : String) : Handler.Steps (Stepped R) (saveTable tableName) :=
  steps_quiet fun _ => rfl

end Sections

/-! ## Statements -/

section Statements

variable [Host] [ExprDebug] [Bincode] {R : Catalog → Catalog → Prop} [Admits R] (env : Env)
  (db : String)

theorem executeCreateTable_steps (ct : CreateTable) :
    Handler.Steps (Stepped R) (executeCreateTable env db ct) := by
  refine (steps_catalogSection fun e => ?_).bind fun _ =>
    steps_save.bind fun _ => Handler.steps_pure _
  unfold createTableSection
  simp only
  split
  · next c h => exact Admits.createTable h
  · exact .same rfl

theorem executeInsert_steps (tableName : String) (columns : List String) (source : Option Query) :
    Handler.Steps (Stepped R) (executeInsert env db tableName columns source) := by
  refine (steps_readCatalog _).bind fun tableDef => ?_
  refine (steps_liftOutcome _).bind fun rows => ?_
  refine (steps_catalogSection fun e => Admits.drawn ?_).bind fun filled => ?_
  · exact fillRows_databases _ _ _ _ _ _ _
  refine (steps_logWal _ _).bind fun _ => (steps_updateStorage _).bind fun ids => ?_
  refine (steps_saveTable _).bind fun _ => (steps_readCatalog _).bind fun indexes => ?_
  exact (steps_indexSection _ _ _ _).bind fun _ => Handler.steps_pure _

theorem changeTail_steps (tableName : String) (columns : List Column) (selection : Option Expr)
    (change : Storage → List Row → Storage) :
    Handler.Steps (Stepped R) (changeTail env tableName columns selection change) := by
  refine (steps_storageSection fun e => ?_).bind fun _ =>
    (steps_saveTable _).bind fun _ => Handler.steps_pure _
  split
  · rfl
  · split
    · rfl
    · exact logSnapshot_catalog env tableName _ _

omit [Bincode] in
theorem executeQuery_steps (query : Query) :
    Handler.Steps (Stepped R) (executeQuery db query) := by
  unfold executeQuery
  split
  · split
    · exact Handler.steps_pure _
    · exact (steps_readCatalog _).bind fun _ => (steps_readStorage _).bind fun _ =>
        (steps_liftOutcome _).bind fun _ => Handler.steps_pure _
  · exact Handler.steps_throw _

omit [ExprDebug] in
theorem executeCreateIndex_steps (tableName : String) (ci : CreateIndex) :
    Handler.Steps (Stepped R) (executeCreateIndex env db tableName ci) := by
  unfold executeCreateIndex
  simp only
  split
  · exact Handler.steps_throw _
  · refine (steps_writeCatalog (R := R) fun c c' h => Admits.createIndex h).bind fun _ =>
      (steps_logWal _ _).bind fun _ => (steps_readCatalog _).bind fun tableDef => ?_
    refine (steps_storageSection fun e => ?_).bind fun _ => (steps_saveTable _).bind fun _ =>
      steps_save.bind fun _ => Handler.steps_pure _
    simp only
    split <;> rfl

omit [ExprDebug] [Bincode] in
theorem executeDropIndex_steps (indexName tableName : String) :
    Handler.Steps (Stepped R) (executeDropIndex env db indexName tableName) :=
  (steps_writeCatalog (R := R) fun _ _ h => Admits.dropIndex h).bind fun _ =>
    (steps_logWal _ _).bind fun _ => (steps_updateStorage _).bind fun _ =>
      (steps_quiet fun _ => rfl).bind fun _ => Handler.steps_pure _

omit [ExprDebug] in
theorem executeDropTable_steps (tableName : String) :
    Handler.Steps (Stepped R) (executeDropTable env db tableName) := by
  refine (steps_logWal _ _).bind fun _ => (Handler.steps_sec fun e => ?_).bind fun _ =>
    Handler.Steps.bind ?_ fun _ => Handler.steps_pure _
  · refine lockCatalog_stepped ?_
    cases h : e.catalog.value.dropTable db (toLowercase tableName) with
    | error msg => exact .same rfl
    | ok c =>
      show R e.catalog.value (lockStorage _ (e.setCatalog c)).2.catalog.value
      rw [lockStorage_catalog (by rfl)]
      exact Admits.dropTable h
  · refine (steps_quiet fun _ => rfl).bind fun present => steps_ite ?_ (Handler.steps_pure _)
    exact (steps_quiet fun _ => rfl).bind fun _ => steps_catalogSection fun _ => .same rfl

omit [ExprDebug] [Bincode] in
theorem executeUse_steps (stmt : Use) : Handler.Steps (Stepped R) (executeUse stmt) := by
  unfold executeUse
  split
  · exact steps_readCatalog _
  · exact steps_readCatalog _
  · exact Handler.steps_throw _

/-- Every section of a statement is a step of the relation, if it allows the database
that the statement creates. -/
theorem execute_stepped {stmt : Statement}
    (hcreate : ∀ dbName ifNotExists, stmt = .createDatabase dbName ifNotExists →
      ∀ c : Catalog, R c (c.createDatabase (nameToString dbName))) :
    Handler.Steps (Stepped R) (execute env db stmt) := by
  cases stmt with
  | createTable ct =>
    exact steps_ite ((steps_askCatalog _).bind fun _ => steps_ite (Handler.steps_pure _)
      (executeCreateTable_steps env db ct)) (executeCreateTable_steps env db ct)
  | insert ins => exact executeInsert_steps env db _ _ _
  | query query => exact executeQuery_steps db query
  | delete del => exact (steps_readCatalog _).bind fun _ => changeTail_steps env _ _ _ _
  | update table assignments selection =>
    exact (steps_readCatalog _).bind fun _ => (steps_readCatalog _).bind fun _ =>
      changeTail_steps env _ _ _ _
  | drop objectType names ifExists =>
    cases objectType with
    | table =>
      exact steps_ite ((steps_askCatalog _).bind fun _ => steps_ite
        (executeDropTable_steps env db _) (Handler.steps_pure _)) (executeDropTable_steps env db _)
    | database =>
      have hdrop : Handler.Steps (Stepped R) (executeDropDatabase (firstName names)) := by
        refine (steps_writeCatalog fun c c' h => ?_).bind fun _ =>
          steps_save.bind fun _ => Handler.steps_pure _
        cases hremove : c.removeDatabase (firstName names) with
        | none => simp [hremove] at h
        | some c₁ =>
          simp only [hremove] at h
          cases h
          exact Admits.removeDatabase hremove
      exact steps_ite ((steps_askCatalog _).bind fun _ => steps_ite hdrop (Handler.steps_pure _))
        hdrop
    | index =>
      refine (steps_readCatalog _).bind fun tableName => ?_
      exact steps_ite ((steps_askCatalog _).bind fun _ => steps_ite
        (executeDropIndex_steps env db _ _) (Handler.steps_pure _))
        (executeDropIndex_steps env db _ _)
    | other => exact Handler.steps_throw _
  | createDatabase dbName ifNotExists =>
    have hrun : Handler.Steps (Stepped R) (executeCreateDatabase dbName) := by
      refine (steps_writeCatalog fun c c' h => ?_).bind fun _ =>
        steps_save.bind fun _ => Handler.steps_pure _
      cases h
      exact hcreate dbName ifNotExists rfl c
    exact steps_ite ((steps_askCatalog _).bind fun _ => steps_ite (Handler.steps_pure _) hrun) hrun
  | showDatabases =>
    simp only [execute, executeShowDatabases]
    exact steps_readCatalog _
  | showTables =>
    simp only [execute, executeShowTables]
    exact steps_readCatalog _
  | use stmt => exact executeUse_steps stmt
  | explainTable tableName =>
    simp only [execute, executeDescribe]
    exact steps_readCatalog _
  | createIndex ci =>
    exact (steps_askCatalog _).bind fun _ => steps_ite (executeCreateIndex_steps env db _ ci)
      (Handler.steps_throw _)
  | other => exact Handler.steps_throw _

omit [Admits R] in
/-- Every section of every statement is a step of the catalog. -/
theorem execute_steps (stmt : Statement) :
    Handler.Steps CatalogStepped (execute env db stmt) :=
  execute_stepped (R := CatalogStep) env db fun _ _ _ _ => .createDatabase _

/-- Only CREATE DATABASE adds a database. -/
theorem execute_keeps_missing {name : String} {stmt : Statement}
    (hother : ∀ dbName ifNotExists, stmt = .createDatabase dbName ifNotExists →
      ¬ SameName (nameToString dbName) name) :
    Handler.Keeps (fun e => e.catalog.value.databaseExists name = false) (execute env db stmt) := by
  refine (execute_stepped (R := KeepsMissing name) env db ?_).keeps fun _ _ h => h
  intro dbName ifNotExists hstmt c hmissing
  rw [Catalog.databaseExists_createDatabase (hother dbName ifNotExists hstmt)]
  exact hmissing

/-- Only tables that exist have indexes, also after a statement. -/
theorem indexesHaveTables_after {e : Executor} (h : IndexesHaveTables e.catalog.value)
    (call : Call) : IndexesHaveTables (e.after call).catalog.value :=
  ((execute_steps call.env call.db call.stmt).keeps
    (I := fun e => IndexesHaveTables e.catalog.value)
    fun _ _ hstep he => hstep.indexesHaveTables he).run h

end Statements

end Srrdb.Engine

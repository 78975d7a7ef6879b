/-
Srrdb.Engine.Locking — the statement handlers, one lock operation at a time.

`Engine.Executor` has every stretch of code under a mutex as one section. Here
the mutexes of the executor are taken and released by steps of their own, so
that other threads run between any two of them. A handler holds two mutexes in
three places only: CREATE TABLE takes the log while it holds the catalog,
UPDATE and DELETE take the log while they hold the storage, and DROP TABLE
takes the storage while it holds the catalog.

A guard is dropped on every way out of its scope. A panic inside the scope
poisons the mutex first; a mutex found poisoned is released at once, since
`map_err` drops the guard with the error.
-/
import Srrdb.Engine.Executor
import Srrdb.Lib.Locks

namespace Srrdb.Engine

open Srrdb.Sql Srrdb.Lib

/-- The mutexes of an executor. -/
inductive Lock where
  | catalog
  | storage
  | wal
  deriving DecidableEq, Repr

/-- A handler by its lock operations. -/
abbrev Stepwise (α : Type) := ExceptT Stop (Locked Executor Lock) α

namespace Stepwise

variable {α : Type}

/-! ## Guards -/

/-- The end of a guard's scope. -/
def dropGuard (lock : Lock) (poison : Executor → Executor) :
    Outcome α → Locked Executor Lock (Outcome α)
  | .error .panic => .act poison fun _ => .release lock (.done (.error .panic))
  | result => .release lock (.done result)

/-- `lock().map_err(|e| format!("Lock error: {e}"))?` and the scope of its
guard. -/
def guarded (lock : Lock) (poisoned : Executor → Bool) (poison : Executor → Executor)
    (scope : Locked Executor Lock (Outcome α)) : Stepwise α :=
  ExceptT.mk <| .acquire lock <| .act id fun e =>
    if poisoned e then .release lock (.done (.error (.err lockError)))
    else scope.bind (dropGuard lock poison)

/-- A scope that holds the catalog. -/
def withCatalog (scope : Locked Executor Lock (Outcome α)) : Stepwise α :=
  guarded .catalog (·.catalog.poisoned) (·.poisonCatalog) scope

/-- A scope that holds the storage. -/
def withStorage (scope : Locked Executor Lock (Outcome α)) : Stepwise α :=
  guarded .storage (·.storage.poisoned) (·.poisonStorage) scope

/-- A scope without further lock operations. -/
def catalogSection (f : Executor → Outcome α × Executor) : Stepwise α :=
  withCatalog (.perform f)

def storageSection (f : Executor → Outcome α × Executor) : Stepwise α :=
  withStorage (.perform f)

/-- Read the catalog. -/
def readCatalog (f : Catalog → Except String α) : Stepwise α :=
  catalogSection fun e => (.ofExcept (f e.catalog.value), e)

/-- Read the storage. -/
def readStorage (f : Storage → α) : Stepwise α :=
  storageSection fun e => (.ok (f e.storage.value), e)

/-- Change the storage. -/
def updateStorage (f : Storage → α × Storage) : Stepwise α :=
  storageSection fun e => (.ok (f e.storage.value).1, e.setStorage (f e.storage.value).2)

/-- Change the catalog; an error leaves it as it was. -/
def writeCatalog (f : Catalog → Except String Catalog) : Stepwise Unit :=
  catalogSection fun e =>
    match f e.catalog.value with
    | .ok c => (.ok (), e.setCatalog c)
    | .error msg => (.error (.err msg), e)

/-- A computation that touches nothing shared. -/
def liftOutcome : Outcome α → Stepwise α
  | .ok a => pure a
  | .error x => throw x

/-- A step that takes no mutex. -/
def outside (f : Executor → α × Executor) : Stepwise α :=
  ExceptT.mk (.perform fun e => (.ok (f e).1, (f e).2))

/-- The body of `log_wal`. The mutex of the log is never poisoned. -/
def appendLog (env : Env) (entry : WalEntry) : Locked Executor Lock Unit :=
  .acquire .wal <| .act (·.append env entry) fun _ => .release .wal (.done ())

/-- `log_wal` in a handler that holds nothing. -/
def logWal (env : Env) (entry : WalEntry) : Stepwise Unit :=
  ExceptT.mk ((appendLog env entry).bind fun _ => .done (.ok ()))

/-- `if let Some(ref persistence) = self.persistence`. -/
def hasPersistence : Stepwise Bool := outside fun e => (e.persistence.isSome, e)

/-- A write to the data directory under a mutex, which is skipped when the
mutex is poisoned or there is no directory. -/
def guardedWrite (lock : Lock) (write : Executor → Executor) : Stepwise Unit := do
  if ← hasPersistence then
    ExceptT.mk (.acquire lock (.act write fun _ => .release lock (.done (.ok ()))))
  else pure ()

section Save

variable [Bincode]

/-- `save`. -/
def save : Stepwise Unit := guardedWrite .catalog (·.save)

variable [Host]

/-- `save_table`. -/
def saveTable (tableName : String) : Stepwise Unit :=
  guardedWrite .storage (·.saveTable tableName)

end Save

/-! ## Handlers -/

section Handlers

variable [Host] [ExprDebug] [Bincode]

omit [ExprDebug] [Bincode] in
/-- `catalog.create_table(..)?` under the catalog. -/
def createInCatalog (db tableName : String) (columns : List Column) (e : Executor) :
    Outcome Unit × Executor :=
  match e.catalog.value.createTable db tableName columns with
  | .ok c => (.ok (), e.setCatalog c)
  | .error msg => (.error (.err msg), e)

omit [ExprDebug] [Bincode] in
/-- The scope of `execute_create_table`: the log is taken inside it. -/
def createTableScope (env : Env) (db tableName : String) (columns : List Column) :
    Locked Executor Lock (Outcome Unit) := do
  appendLog env (.createTable tableName columns)
  .perform (createInCatalog db tableName columns)

/-- `execute_create_table`. -/
def executeCreateTable (env : Env) (db : String) (ct : CreateTable) : Stepwise ExecuteResult := do
  let tableName := nameToString ct.name
  withCatalog (createTableScope env db tableName (createColumns tableName ct.columns))
  save
  pure .ok

omit [ExprDebug] [Bincode] in
/-- The indexing scope of `execute_insert`, entered only with work to do. -/
def indexSection (tableName : String) (indexes : List IndexDef) (columns : List Column)
    (ids : List Nat) : Stepwise Unit :=
  if indexes.isEmpty || ids.isEmpty then pure ()
  else updateStorage fun s => ((), indexInserted s tableName indexes columns ids)

/-- `execute_insert`. -/
def executeInsert (env : Env) (db tableName : String) (columns : List String)
    (source : Option Query) : Stepwise ExecuteResult := do
  let tableDef ← readCatalog fun c => c.getTable db tableName
  let rows ← liftOutcome (.ofExcept (sourceRows tableDef.columns columns source))
  let (rows, lastInsertId) ← catalogSection fun e =>
    let (result, c) := fillRows env.now tableName tableDef.columns 0 rows 0 e.catalog.value
    (result, e.setCatalog c)
  logWal env (.insertRows tableName rows)
  let ids ← updateStorage fun s => s.insertRows tableName rows
  saveTable tableName
  let tableIndexes ← readCatalog fun c => .ok (c.getTableIndexes db tableName)
  indexSection tableName tableIndexes tableDef.columns ids
  pure (.affected rows.length lastInsertId)

omit [ExprDebug] [Bincode] in
/-- The first scope of DELETE, UPDATE and SELECT. -/
def readTable (db tableName : String) : Stepwise (List Column × List IndexDef) :=
  readCatalog fun c => do
    let tableDef ← c.getTable db tableName
    pure (tableDef.columns, c.getTableIndexes db tableName)

omit [Bincode] in
/-- Select rows of a table and `change` them, under the storage. -/
def changeSelected (tableName : String) (columns : List Column) (selection : Option Expr)
    (change : Storage → List Row → Storage) (e : Executor) : Outcome (List Row) × Executor :=
  match e.storage.value.getTable? tableName with
  | none => (.error (.err s!"Unknown table: {tableName}"), e)
  | some t =>
    match selectRows columns selection t.entries with
    | .error x => (.error x, e)
    | .ok rows => (.ok rows, e.setStorage (change e.storage.value rows))

omit [ExprDebug] [Bincode] in
/-- Log what is left of the table, if a row was touched. -/
def logTouched (env : Env) (tableName : String) (rows : List Row) :
    Locked Executor Lock (Outcome Nat) :=
  if rows.isEmpty then pure (.ok rows.length)
  else do
    let remaining ← .perform fun e => (e.storage.value.getRows tableName, e)
    appendLog env (.tableSnapshot tableName remaining)
    pure (.ok rows.length)

omit [Bincode] in
/-- The storage scope of DELETE and UPDATE: the log is taken inside it. -/
def changeScope (env : Env) (tableName : String) (columns : List Column)
    (selection : Option Expr) (change : Storage → List Row → Storage) :
    Locked Executor Lock (Outcome Nat) := do
  match ← .perform (changeSelected tableName columns selection change) with
  | .error x => pure (.error x)
  | .ok rows => logTouched env tableName rows

/-- `execute_delete`. -/
def executeDelete (env : Env) (db tableName : String) (selection : Option Expr) :
    Stepwise ExecuteResult := do
  let (columns, indexes) ← readTable db tableName
  let deleted ← withStorage (changeScope env tableName columns selection fun s rows =>
    deleteRows s tableName indexes columns rows)
  saveTable tableName
  pure (.affected deleted 0)

/-- `execute_update`. -/
def executeUpdate (env : Env) (db tableName : String) (assignments : List Assignment)
    (selection : Option Expr) : Stepwise ExecuteResult := do
  let (columns, indexes) ← readTable db tableName
  let assigns ← readCatalog fun c => do
    let tableDef ← c.getTable db tableName
    assignments.mapM (assignIndex tableDef.columns)
  let updated ← withStorage (changeScope env tableName columns selection fun s rows =>
    updateRows s tableName indexes columns assigns rows)
  saveTable tableName
  pure (.affected updated 0)

omit [Bincode] in
/-- `execute_query`. -/
def executeQuery (db : String) (query : Query) : Stepwise ExecuteResult :=
  match query.body with
  | .select select =>
    match select.fromTables with
    | [] => pure (.rows [] [])
    | table :: _ => do
      let tableName := tableFactorName table
      let (columns, indexes) ← readTable db tableName
      let rows ← readStorage fun s => candidateRows s tableName select.selection indexes
      let rows ← liftOutcome (selectRows columns select.selection rows)
      pure (.rows (select.projection.flatMap (projectColumns columns tableName))
        (finishQuery query select columns rows))
  | _ => throw (.err "Unsupported query type")

omit [ExprDebug] [Bincode] in
/-- The storage scope of `execute_create_index`. -/
def buildSection (tableName : String) (indexDef : IndexDef) (tableColumns : List Column) :
    Stepwise Unit :=
  storageSection fun e =>
    let s := e.storage.value
    let key := storageKey tableName indexDef.name
    match buildIndex indexDef tableColumns (s.getRows tableName) (.new indexDef.indexType) with
    | .ok data => (.ok (), e.setStorage (s.putIndex key data))
    | .error dup =>
      let text := ",".intercalate (dup.map Value.toString)
      (.error (.err s!"Duplicate entry '{text}' for key '{indexDef.name}'"),
        e.setStorage (s.removeIndex key))

/-- `execute_create_index`. -/
def executeCreateIndex (env : Env) (db tableName : String) (ci : CreateIndex) :
    Stepwise ExecuteResult :=
  let indexDef := newIndexDef tableName ci
  if indexDef.columns.isEmpty then throw (.err "Index must have at least one column")
  else do
    writeCatalog fun c => c.createIndex db indexDef
    logWal env (.createIndex db indexDef)
    let tableDef ← readCatalog fun c => c.getTable db tableName
    buildSection tableName indexDef tableDef.columns
    saveTable tableName
    save
    pure .ok

omit [ExprDebug] [Bincode] in
/-- `execute_drop_index`. -/
def executeDropIndex (env : Env) (db indexName tableName : String) : Stepwise ExecuteResult := do
  writeCatalog fun c => c.dropIndex db indexName tableName
  logWal env (.dropIndex db indexName tableName)
  let key := storageKey tableName indexName
  updateStorage fun s => ((), s.removeIndex key)
  outside fun e => ((), e.persist (·.removeIndexData key))
  pure .ok

omit [ExprDebug] [Bincode] in
/-- The second half of the scope of `execute_drop_table`: the storage is taken
while the catalog is held. The tuple drops the catalog's guard first. -/
def clearTableScope (tn : String) : Locked Executor Lock (Outcome Unit) :=
  .acquire .storage <| .act id fun e =>
    if e.storage.poisoned then
      .release .storage (.release .catalog (.done (.error (.err lockError))))
    else .act (fun e => e.setStorage (e.storage.value.clearTable tn)) fun _ =>
      .release .catalog (.release .storage (.done (.ok ())))

omit [ExprDebug] [Bincode] in
/-- The scope of `execute_drop_table` that holds both mutexes. A poisoned storage
returns with the catalog changed. -/
def dropTableScope (db tn : String) : Stepwise Unit :=
  ExceptT.mk <| .acquire .catalog <| .act id fun e =>
    if e.catalog.poisoned then .release .catalog (.done (.error (.err lockError)))
    else match e.catalog.value.dropTable db tn with
      | .error msg => .release .catalog (.done (.error (.err msg)))
      | .ok c => .act (·.setCatalog c) fun _ => clearTableScope tn

omit [ExprDebug] in
/-- What `execute_drop_table` does to the data directory. -/
def dropTableFiles (tn : String) : Stepwise Unit := do
  if ← hasPersistence then
    outside fun e => ((), e.persist (·.removeTableData tn))
    catalogSection fun e =>
      (.ok (), e.persist fun p => removeIndexFiles tn (p.saveCatalog e.catalog.value))
  else pure ()

omit [ExprDebug] in
/-- `execute_drop_table`. -/
def executeDropTable (env : Env) (db tableName : String) : Stepwise ExecuteResult := do
  let tn := toLowercase tableName
  logWal env (.dropTable tn)
  dropTableScope db tn
  dropTableFiles tn
  pure .ok

omit [ExprDebug] in
/-- `execute_create_database`. -/
def executeCreateDatabase (dbName : ObjectName) : Stepwise ExecuteResult := do
  writeCatalog fun c => .ok (c.createDatabase (nameToString dbName))
  save
  pure .ok

omit [ExprDebug] in
/-- `execute_drop_database`. -/
def executeDropDatabase (dbName : String) : Stepwise ExecuteResult := do
  writeCatalog fun c =>
    match c.removeDatabase dbName with
    | some c => .ok c
    | none => .error s!"Unknown database: {dbName}"
  save
  pure .ok

omit [ExprDebug] [Bincode] in
/-- `execute_show_tables`. -/
def executeShowTables (db : String) : Stepwise ExecuteResult :=
  readCatalog fun c =>
    match c.getDatabase db with
    | none => .error s!"Unknown database: {db}"
    | some d => .ok (textResult s!"Tables_in_{db}" d.tables.keys)

omit [Host] [ExprDebug] [Bincode] in
/-- `execute_show_databases`. -/
def executeShowDatabases : Stepwise ExecuteResult :=
  readCatalog fun c =>
    .ok (textResult "Database"
      ((c.databases.toList.map fun e => e.2.name).mergeSort fun a b => a ≤ b))

omit [ExprDebug] [Bincode] in
/-- `execute_use`. -/
def executeUse (stmt : Use) : Stepwise ExecuteResult :=
  match stmt with
  | .database name | .object name => readCatalog fun c =>
    if c.databaseExists (nameToString name) then .ok (.databaseChanged (nameToString name))
    else .error s!"Unknown database: {nameToString name}"
  | .other => throw (.err "USE only supports database switching")

omit [ExprDebug] [Bincode] in
/-- `execute_describe`. -/
def executeDescribe (db tableName : String) : Stepwise ExecuteResult :=
  readCatalog fun c => do
    let t ← c.getTable db tableName
    .ok (.rows (["Field", "Type", "Null", "Key", "Default", "Extra"].map fun name =>
      .new name "" .varChar) (t.columns.map describeColumn))

/-- A question to the catalog that is answered `false` when it is poisoned. -/
def askCatalog (f : Catalog → Bool) : Stepwise Bool :=
  ExceptT.mk <| .acquire .catalog <|
    (Locked.perform fun e => (!e.catalog.poisoned && f e.catalog.value, e)).bind fun answer =>
      .release .catalog (.done (.ok answer))

omit [ExprDebug] [Bincode] in
/-- `table_exists`. -/
def tableExists (db tableName : String) : Stepwise Bool :=
  askCatalog fun c => c.tableExists db tableName

omit [ExprDebug] [Bincode] in
/-- `database_exists`. -/
def databaseExists (dbName : String) : Stepwise Bool :=
  askCatalog fun c => c.databaseExists dbName

omit [ExprDebug] [Bincode] in
/-- `index_exists`. -/
def indexExists (db indexName tableName : String) : Stepwise Bool :=
  askCatalog fun c => hasIndex (c.getTableIndexes db tableName) indexName

/-! ## Dispatch -/

/-- `Executor::execute`. -/
def execute (env : Env) (db : String) : Statement → Stepwise ExecuteResult
  | .createTable ct => do
    if ct.ifNotExists then
      if ← tableExists db (nameToString ct.name) then pure .ok
      else executeCreateTable env db ct
    else executeCreateTable env db ct
  | .insert ins => executeInsert env db (tableObjectName ins.table) ins.columns ins.source
  | .query query => executeQuery db query
  | .delete del => executeDelete env db (deleteTable del) del.selection
  | .update table assignments selection =>
    executeUpdate env db (tableFactorName table) assignments selection
  | .drop .table names ifExists => do
    if ifExists then
      if ← tableExists db (firstName names) then executeDropTable env db (firstName names)
      else pure .ok
    else executeDropTable env db (firstName names)
  | .drop .database names ifExists => do
    if ifExists then
      if ← databaseExists (firstName names) then executeDropDatabase (firstName names)
      else pure .ok
    else executeDropDatabase (firstName names)
  | .drop .index names ifExists => do
    let tableName ← readCatalog fun c =>
      match findIndexTable env db (firstName names) c with
      | some tableName => .ok tableName
      | none => .error s!"Unknown index: {firstName names}"
    if ifExists then
      if ← indexExists db (firstName names) tableName then
        executeDropIndex env db (firstName names) tableName
      else pure .ok
    else executeDropIndex env db (firstName names) tableName
  | .drop .other _ _ => throw (.err "Unsupported statement")
  | .createDatabase dbName ifNotExists => do
    if ifNotExists then
      if ← databaseExists (nameToString dbName) then pure .ok
      else executeCreateDatabase dbName
    else executeCreateDatabase dbName
  | .showDatabases => executeShowDatabases
  | .showTables => executeShowTables db
  | .use stmt => executeUse stmt
  | .explainTable tableName => executeDescribe db (nameToString tableName)
  | .createIndex ci => do
    if ← tableExists db (nameToString ci.tableName) then
      executeCreateIndex env db (nameToString ci.tableName) ci
    else throw (.err s!"Unknown table: {nameToString ci.tableName}")
  | .other => throw (.err "Unsupported statement")

end Handlers

end Stepwise

end Srrdb.Engine

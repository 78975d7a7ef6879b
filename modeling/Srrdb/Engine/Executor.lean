/-
Srrdb.Engine.Executor — the statement handlers (`engine/executor.rs`).

A handler is a program over the shared `Executor` whose atomic sections are the
stretches the source runs under a mutex, and the durable writes outside one.
`lockCatalog` and `lockStorage` are `lock().map_err(..)?` around a section: a
poisoned mutex is an error, and a panic inside poisons it. Two writes happen
inside another section and not as one of their own: CREATE TABLE appends to
the log while it holds the catalog, and UPDATE and DELETE append their
snapshot while they hold the storage.

What a statement takes from its environment is in `Env`: the clock, the
iteration order of hash maps, and whether its append to the log succeeds. No
statement appends twice.
-/
import Srrdb.Engine.Predicate
import Srrdb.Engine.Persistence
import Srrdb.Lib.Prog
import Mathlib.Tactic.Simps.Basic

namespace Srrdb.Engine

open Srrdb.Sql Srrdb.Lib

/-! ## State -/

/-- A value behind a mutex. -/
structure Mutex (α : Type) where
  value : α
  poisoned : Bool

/-- `struct Executor`. The log is the list of the entries appended to it; its
mutex is never poisoned, since nothing panics while it is held. -/
structure Executor where
  catalog : Mutex Catalog
  storage : Mutex Storage
  wal : List WalEntry
  persistence : Option Persistence

/-- What the environment decides during one statement. -/
structure Env where
  /-- The clock when the default of a row and a column is evaluated. -/
  now : Nat → Nat → Nat
  /-- The iteration order of the keys of a hash map. -/
  order : List String → List String
  order_perm : ∀ names, (order names).Perm names
  appendOk : Bool

/-- What an append of the statement adds to the log. -/
def Env.logged (env : Env) (entry : WalEntry) : List WalEntry :=
  if env.appendOk then [entry] else []

/-- `enum ExecuteResult`. -/
inductive ExecuteResult where
  | rows (columns : List Column) (rows : List Row)
  | affected (rows lastInsertId : Nat)
  | databaseChanged (name : String)
  | ok
  deriving DecidableEq, Repr

/-- A handler of the executor. -/
abbrev Exec (α : Type) := Handler Executor Stop α

namespace Executor

/-- A server with this memory and nothing in its log. -/
def ofMemory (m : Memory) (persistence : Option Persistence) : Executor where
  catalog := ⟨m.catalog, false⟩
  storage := ⟨m.storage, false⟩
  wal := []
  persistence := persistence

def memory (e : Executor) : Memory := ⟨e.catalog.value, e.storage.value⟩

@[simps]
def setCatalog (e : Executor) (c : Catalog) : Executor :=
  { e with catalog := ⟨c, e.catalog.poisoned⟩ }

@[simps]
def setStorage (e : Executor) (s : Storage) : Executor :=
  { e with storage := ⟨s, e.storage.poisoned⟩ }

@[simps]
def poisonCatalog (e : Executor) : Executor := { e with catalog := ⟨e.catalog.value, true⟩ }

@[simps]
def poisonStorage (e : Executor) : Executor := { e with storage := ⟨e.storage.value, true⟩ }

/-- `Wal::append`, as `log_wal` calls it: a failed append is only reported. -/
@[simps]
def append (e : Executor) (env : Env) (entry : WalEntry) : Executor :=
  { e with wal := e.wal ++ env.logged entry }

/-- A write to the data directory, if the server has one. -/
@[simps]
def persist (e : Executor) (f : Persistence → Persistence) : Executor :=
  { e with persistence := e.persistence.map f }

end Executor

/-! ## Sections -/

/-- `format!("Lock error: {e}")`. -/
def lockError : String := "Lock error: poisoned lock: another task failed inside"

/-- A section that holds the catalog. -/
def lockCatalog {α : Type} (f : Executor → Outcome α × Executor) (e : Executor) : Outcome α × Executor :=
  if e.catalog.poisoned then (.error (.err lockError), e)
  else match f e with
    | (.error .panic, e') => (.error .panic, e'.poisonCatalog)
    | result => result

/-- A section that holds the storage. -/
def lockStorage {α : Type} (f : Executor → Outcome α × Executor) (e : Executor) : Outcome α × Executor :=
  if e.storage.poisoned then (.error (.err lockError), e)
  else match f e with
    | (.error .panic, e') => (.error .panic, e'.poisonStorage)
    | result => result

def catalogSection {α : Type} (f : Executor → Outcome α × Executor) : Exec α :=
  Handler.sec (lockCatalog f)

def storageSection {α : Type} (f : Executor → Outcome α × Executor) : Exec α :=
  Handler.sec (lockStorage f)

/-- Read the catalog. -/
def readCatalog {α : Type} (f : Catalog → Except String α) : Exec α :=
  catalogSection fun e => (.ofExcept (f e.catalog.value), e)

/-- Read the storage. -/
def readStorage {α : Type} (f : Storage → α) : Exec α :=
  storageSection fun e => (.ok (f e.storage.value), e)

/-- Change the storage. -/
def updateStorage {α : Type} (f : Storage → α × Storage) : Exec α :=
  storageSection fun e => (.ok (f e.storage.value).1, e.setStorage (f e.storage.value).2)

/-- Change the catalog; an error leaves it as it was. -/
def writeCatalog (f : Catalog → Except String Catalog) : Exec Unit :=
  catalogSection fun e =>
    match f e.catalog.value with
    | .ok c => (.ok (), e.setCatalog c)
    | .error msg => (.error (.err msg), e)

/-- A computation that touches nothing shared. -/
def liftOutcome {α : Type} : Outcome α → Exec α
  | .ok a => pure a
  | .error x => throw x

/-- `log_wal`. -/
def logWal (env : Env) (entry : WalEntry) : Exec Unit :=
  Handler.sec fun e => (.ok (), e.append env entry)

section Save

variable [Bincode]

/-- The write of `save`. -/
@[simps!]
def Executor.save (e : Executor) : Executor :=
  e.persist fun p => if e.catalog.poisoned then p else p.saveCatalog e.catalog.value

/-- `save`. -/
def save : Exec Unit := Handler.sec fun e => (.ok (), e.save)

variable [Host]

/-- The files `save_table` writes: the rows, if the storage has an entry for
the table, and every index whose key starts with the table name. -/
def tableFiles (s : Storage) (tableName : String) (p : Persistence) : Persistence :=
  let tn := toLowercase tableName
  let p := match s.tables[tn]? with
    | some table => p.saveTableData tn table
    | none => p
  (s.indexData.toList.filter fun e => startsWith e.1 (tn ++ ":")).foldl
    (fun p e => p.saveIndexData e.1 e.2) p

/-- The writes of `save_table`. -/
@[simps!]
def Executor.saveTable (e : Executor) (tableName : String) : Executor :=
  e.persist fun p => if e.storage.poisoned then p else tableFiles e.storage.value tableName p

/-- `save_table`. -/
def saveTable (tableName : String) : Exec Unit :=
  Handler.sec fun e => (.ok (), e.saveTable tableName)

end Save

/-! ## Index keys and index maintenance -/

/-- The key-building expression, which the source repeats in four places. -/
def buildKey (tableColumns : List Column) (indexColumns : List String) (values : List Value) :
    Key :=
  indexColumns.map fun cname =>
    ((columnPosition tableColumns cname).bind fun pos => values[pos]?).getD .null

/-- `get_index_key`. -/
def getIndexKey (row : Row) (indexDef : IndexDef) (tableColumns : List Column) : Key :=
  buildKey tableColumns indexDef.columns row.values

/-- `Storage::index_data`. -/
abbrev IndexMap := Std.ExtTreeMap String IndexData

section Indexes

variable [Host]

/-- `format!("{}:{}", table_name.to_lowercase(), name.to_lowercase())`. -/
def storageKey (tableName indexName : String) : String :=
  indexKey (toLowercase tableName) (toLowercase indexName)

/-- `insert_into_indexes_raw`. -/
def insertIntoIndexesRaw (data : IndexMap) (tableName : String) (indexes : List IndexDef)
    (tableColumns : List Column) (row : Row) : IndexMap :=
  indexes.foldl (fun data idx =>
    data.alter (storageKey tableName idx.name) fun d =>
      some ((d.getD (.new idx.indexType)).insert (getIndexKey row idx tableColumns) row.id)) data

/-- `delete_from_indexes_raw`. -/
def deleteFromIndexesRaw (data : IndexMap) (tableName : String) (indexes : List IndexDef)
    (tableColumns : List Column) (row : Row) : IndexMap :=
  indexes.foldl (fun data idx =>
    data.alter (storageKey tableName idx.name) fun d =>
      d.map (·.delete (getIndexKey row idx tableColumns) row.id)) data

/-- The row under an id as `execute_insert` indexes it: no values if it is gone. -/
def storedRow (s : Storage) (tableName : String) (id : Nat) : Row :=
  ⟨id, (((s.getTable? tableName).bind fun t => t[id]?).map (·.values)).getD []⟩

/-- The indexing loop of `execute_insert`. -/
def indexInserted (s : Storage) (tableName : String) (indexes : List IndexDef)
    (tableColumns : List Column) (ids : List Nat) : Storage :=
  { s with indexData := ids.foldl (fun data id => insertIntoIndexesRaw data tableName indexes
      tableColumns (storedRow s tableName id)) s.indexData }

end Indexes

/-! ## CREATE TABLE -/

section Handlers

variable [Host] [ExprDebug] [Bincode]

omit [Host] [Bincode] in
/-- One option of a column definition. -/
def applyOption (c : Column) : ColumnOption → Column
  | .dialectSpecific tokens =>
    if tokens.contains .autoIncrement then { c with autoIncrement := true } else c
  | .default expr => { c with defaultExpr := parseDefaultExpr expr }
  | .other => c

omit [Host] [Bincode] in
/-- The columns `execute_create_table` builds. -/
def createColumns (tableName : String) (columns : List ColumnDef) : List Column :=
  columns.map fun col =>
    col.options.foldl applyOption (.new col.name tableName (sqlTypeToColumnType col.dataType))

omit [Bincode] in
/-- The section of `execute_create_table`: log, then create. -/
def createTableSection (env : Env) (db tableName : String) (columns : List Column) (e : Executor) :
    Outcome Unit × Executor :=
  let e := e.append env (.createTable tableName columns)
  match e.catalog.value.createTable db tableName columns with
  | .ok c => (.ok (), e.setCatalog c)
  | .error msg => (.error (.err msg), e)

/-- `execute_create_table`. -/
def executeCreateTable (env : Env) (db : String) (ct : CreateTable) : Exec ExecuteResult := do
  let tableName := nameToString ct.name
  catalogSection (createTableSection env db tableName (createColumns tableName ct.columns))
  save
  pure .ok

/-! ## INSERT -/

omit [Host] [Bincode] [ExprDebug] in
/-- The values of a row whose columns are listed. -/
def mapColumns (tableColumns : List Column) (columns : List String) (vals : List Value) :
    Except String (List Value) :=
  (columns.zip vals).foldlM (fun mapped (colName, val) =>
    match columnPosition tableColumns colName with
    | some pos => .ok (mapped.set pos val)
    | none => .error s!"Unknown column: {colName}") (List.replicate tableColumns.length .null)

omit [Host] [Bincode] in
/-- One row of VALUES. -/
def insertRow (tableColumns : List Column) (columns : List String) (exprs : List Expr) :
    Except String Row := do
  let vals := exprs.map sqlExprToValue
  if columns.isEmpty then pure ⟨0, vals⟩
  else pure ⟨0, ← mapColumns tableColumns columns vals⟩

omit [Host] [Bincode] in
/-- The rows an INSERT supplies. -/
def sourceRows (tableColumns : List Column) (columns : List String) (source : Option Query) :
    Except String (List Row) :=
  match source with
  | none => .error "INSERT missing source"
  | some query =>
    match query.body with
    | .values rows => rows.mapM (insertRow tableColumns columns)
    | _ => .error "INSERT only supports VALUES"

omit [ExprDebug] [Bincode] in
/-- The column loop over one row: NULLs get a sequence value or the default.
A row shorter than the table is indexed out of range. -/
def fillValues (now : Nat → Nat) (tableName : String) :
    Nat → List Column → List Value → Nat → Catalog → Outcome (List Value × Nat) × Catalog
  | _, [], values, last, c => (.ok (values, last), c)
  | idx, col :: cols, values, last, c =>
    match values[idx]? with
    | none => (.error .panic, c)
    | some .null =>
      if col.autoIncrement then
        let (id, c) := c.nextRowId tableName 1
        fillValues now tableName (idx + 1) cols (values.set idx (.int (Int64.ofNat id))) id c
      else match col.defaultExpr with
        | some expr =>
          fillValues now tableName (idx + 1) cols
            (values.set idx (evalDefaultExpr (now idx) expr)) last c
        | none => fillValues now tableName (idx + 1) cols values last c
    | some _ => fillValues now tableName (idx + 1) cols values last c

omit [ExprDebug] [Bincode] in
/-- The row loop: the filled rows and the last sequence value. -/
def fillRows (now : Nat → Nat → Nat) (tableName : String) (columns : List Column) :
    Nat → List Row → Nat → Catalog → Outcome (List Row × Nat) × Catalog
  | _, [], last, c => (.ok ([], last), c)
  | i, row :: rows, last, c =>
    match fillValues (now i) tableName 0 columns row.values last c with
    | (.error x, c) => (.error x, c)
    | (.ok (values, last), c) =>
      match fillRows now tableName columns (i + 1) rows last c with
      | (.error x, c) => (.error x, c)
      | (.ok (rows, last), c) => (.ok (⟨row.id, values⟩ :: rows, last), c)

omit [ExprDebug] [Bincode] in
/-- The second catalog section of `execute_insert`. -/
def fillSection (env : Env) (tableName : String) (columns : List Column) (rows : List Row) :
    Exec (List Row × Nat) :=
  catalogSection fun e =>
    let (result, c) := fillRows env.now tableName columns 0 rows 0 e.catalog.value
    (result, e.setCatalog c)

omit [ExprDebug] [Bincode] in
/-- The storing section of `execute_insert`. -/
def storeSection (tableName : String) (rows : List Row) : Exec (List Nat) :=
  updateStorage fun s => s.insertRows tableName rows

omit [ExprDebug] [Bincode] in
/-- The indexing section of `execute_insert`, entered only with work to do. -/
def indexSection (tableName : String) (indexes : List IndexDef) (columns : List Column)
    (ids : List Nat) : Exec Unit :=
  if indexes.isEmpty || ids.isEmpty then pure ()
  else updateStorage fun s => ((), indexInserted s tableName indexes columns ids)

/-- `execute_insert`. -/
def executeInsert (env : Env) (db tableName : String) (columns : List String)
    (source : Option Query) : Exec ExecuteResult := do
  let tableDef ← readCatalog fun c => c.getTable db tableName
  let rows ← liftOutcome (.ofExcept (sourceRows tableDef.columns columns source))
  let (rows, lastInsertId) ← fillSection env tableName tableDef.columns rows
  logWal env (.insertRows tableName rows)
  let ids ← storeSection tableName rows
  saveTable tableName
  let tableIndexes ← readCatalog fun c => .ok (c.getTableIndexes db tableName)
  indexSection tableName tableIndexes tableDef.columns ids
  pure (.affected rows.length lastInsertId)

/-! ## DELETE and UPDATE -/

/-- The entries of a table: each row under the id it is stored at. -/
def Table.entries (t : Table) : List Row := t.toList.map fun e => ⟨e.1, e.2.values⟩

omit [ExprDebug] [Bincode] in
/-- The snapshot a DELETE or UPDATE logs when it touched a row. -/
def logSnapshot (env : Env) (tableName : String) (touched : List Row) (e : Executor) : Executor :=
  if touched.isEmpty then e
  else e.append env (.tableSnapshot tableName (e.storage.value.getRows tableName))

omit [ExprDebug] [Bincode] in
/-- What DELETE does to the rows it selected. -/
def deleteRows (s : Storage) (tableName : String) (indexes : List IndexDef)
    (columns : List Column) (rows : List Row) : Storage :=
  let s := { s with indexData := rows.foldl (fun data row =>
    deleteFromIndexesRaw data tableName indexes columns row) s.indexData }
  s.modifyTable tableName fun t => rows.foldl (fun t row => t.erase row.id) t

omit [Bincode] in
/-- The storage section of DELETE and UPDATE: select, `change` the selected
rows, log a snapshot. -/
def changeSection (env : Env) (tableName : String) (columns : List Column)
    (selection : Option Expr) (change : Storage → List Row → Storage) : Exec Nat :=
  storageSection fun e =>
    match e.storage.value.getTable? tableName with
    | none => (.error (.err s!"Unknown table: {tableName}"), e)
    | some t =>
      match selectRows columns selection t.entries with
      | .error x => (.error x, e)
      | .ok rows =>
        (.ok rows.length,
          logSnapshot env tableName rows (e.setStorage (change e.storage.value rows)))

omit [ExprDebug] [Bincode] in
/-- The first catalog section of DELETE, UPDATE and SELECT. -/
def readTable (db tableName : String) : Exec (List Column × List IndexDef) :=
  readCatalog fun c => do
    let tableDef ← c.getTable db tableName
    pure (tableDef.columns, c.getTableIndexes db tableName)

/-- `execute_delete`. -/
def executeDelete (env : Env) (db tableName : String) (selection : Option Expr) :
    Exec ExecuteResult := do
  let (columns, indexes) ← readTable db tableName
  let deleted ← changeSection env tableName columns selection fun s rows =>
    deleteRows s tableName indexes columns rows
  saveTable tableName
  pure (.affected deleted 0)

omit [Host] [Bincode] [ExprDebug] in
/-- The position and the expression of one assignment. -/
def assignIndex (tableColumns : List Column) (a : Assignment) : Except String (Nat × Expr) :=
  match a.target with
  | .tuple => .error "Tuple assignment not supported"
  | .columnName name =>
    match columnPosition tableColumns (nameToString name) with
    | some idx => .ok (idx, a.value)
    | none => .error s!"Unknown column: {nameToString name}"

omit [Host] [Bincode] in
/-- The values of a row after the assignments; those past its end do nothing. -/
def assignValues (assigns : List (Nat × Expr)) (values : List Value) : List Value :=
  assigns.foldl (fun vals (idx, expr) => vals.set idx (sqlExprToValue expr)) values

omit [Bincode] in
/-- What UPDATE does to the rows it selected. -/
def updateRows (s : Storage) (tableName : String) (indexes : List IndexDef)
    (columns : List Column) (assigns : List (Nat × Expr)) (rows : List Row) : Storage :=
  let newRows := rows.map fun row => { row with values := assignValues assigns row.values }
  let s := { s with indexData := rows.foldl (fun data row =>
    deleteFromIndexesRaw data tableName indexes columns row) s.indexData }
  let s := s.modifyTable tableName fun t => newRows.foldl (fun t row =>
    t.modify row.id fun old => { old with values := row.values }) t
  { s with indexData := newRows.foldl (fun data row =>
    insertIntoIndexesRaw data tableName indexes columns row) s.indexData }

/-- `execute_update`. -/
def executeUpdate (env : Env) (db tableName : String) (assignments : List Assignment)
    (selection : Option Expr) : Exec ExecuteResult := do
  let (columns, indexes) ← readTable db tableName
  let assigns ← readCatalog fun c => do
    let tableDef ← c.getTable db tableName
    assignments.mapM (assignIndex tableDef.columns)
  let updated ← changeSection env tableName columns selection fun s rows =>
    updateRows s tableName indexes columns assigns rows
  saveTable tableName
  pure (.affected updated 0)

/-! ## SELECT -/

omit [ExprDebug] [Bincode] in
/-- The key an index gets from the equality conditions, if they name every
column of it. -/
def conditionKey (conditions : Std.ExtTreeMap String Value) (indexDef : IndexDef) : Option Key :=
  (indexDef.columns.mapM fun cname => conditions[toLowercase cname]?).filter (!·.isEmpty)

omit [ExprDebug] [Bincode] in
/-- `try_index_lookup`. -/
def tryIndexLookup (s : Storage) (tableName : String) (selection : Expr)
    (indexes : List IndexDef) : Option (List Nat) :=
  let conditions := extractEqConditions selection
  if indexes.isEmpty || conditions.isEmpty then none
  else indexes.findSome? fun indexDef => do
    let key ← conditionKey conditions indexDef
    let data ← s.indexData[storageKey tableName indexDef.name]?
    some (data.lookupEq key)

omit [ExprDebug] [Bincode] in
/-- The rows a SELECT filters: those an index offers, or all. -/
def candidateRows (s : Storage) (tableName : String) (selection : Option Expr)
    (indexes : List IndexDef) : List Row :=
  match selection.bind fun expr => tryIndexLookup s tableName expr indexes with
  | some ids => ids.filterMap fun id => (s.getTable? tableName).bind fun t => t[id]?
  | none => s.getRows tableName

omit [Host] [Bincode] [ExprDebug] in
/-- ORDER BY, projection, OFFSET and LIMIT. -/
def finishQuery (query : Query) (select : Select) (columns : List Column) (rows : List Row) :
    List Row :=
  let rows := match query.orderBy with
    | some (.expressions exprs) => sortRows rows exprs columns
    | _ => rows
  let rows : List Row := rows.map fun row =>
    ⟨0, projectRow select.projection columns row.values⟩
  let rows := rows.drop ((query.offset.map limitValue).getD 0)
  match query.limit with
  | some e => rows.take (limitValue e)
  | none => rows

omit [Bincode] in
/-- `execute_query`. -/
def executeQuery (db : String) (query : Query) : Exec ExecuteResult :=
  match query.body with
  | .select select =>
    match select.fromTables with
    | [] => pure (.rows [] [])
    | table :: _ => do
      let tableName := tableFactorName table
      let (columns, indexes) ← readTable db tableName
      let rows ← readStorage fun s => candidateRows s tableName select.selection indexes
      let rows ← liftOutcome (selectRows columns select.selection rows)
      pure (.rows (select.projection.flatMap (projectColumns columns tableName))
        (finishQuery query select columns rows))
  | _ => throw (.err "Unsupported query type")

/-! ## CREATE INDEX and DROP INDEX -/

omit [Host] [Bincode] [ExprDebug] in
/-- The columns of a CREATE INDEX: its identifiers. -/
def indexColumns (ci : CreateIndex) : List String :=
  ci.columns.filterMap fun o => extractColumnRef o.expr

omit [Host] [Bincode] [ExprDebug] in
/-- The name of a CREATE INDEX. -/
def indexName (tableName : String) (ci : CreateIndex) : String :=
  match ci.name with
  | some name => nameToString name
  | none => "idx_" ++ tableName ++ "_" ++ "_".intercalate (indexColumns ci)

omit [Host] [Bincode] [ExprDebug] in
/-- The definition a CREATE INDEX registers. -/
def newIndexDef (tableName : String) (ci : CreateIndex) : IndexDef where
  name := indexName tableName ci
  indexType := match ci.using' with
    | some ident => if eqIgnoreAsciiCase ident "hash" then .hash else .bTree
    | none => .bTree
  tableName := tableName
  columns := indexColumns ci
  unique := ci.unique

omit [Host] [Bincode] [ExprDebug] in
/-- The build loop of `execute_create_index`; the key of a duplicate if the
index is unique. -/
def buildIndex (indexDef : IndexDef) (tableColumns : List Column) :
    List Row → IndexData → Except Key IndexData
  | [], data => .ok data
  | row :: rows, data =>
    let key := buildKey tableColumns indexDef.columns row.values
    if indexDef.unique && !(data.lookupEq key).isEmpty then .error key
    else buildIndex indexDef tableColumns rows (data.insert key row.id)

omit [ExprDebug] [Bincode] in
/-- The storage section of `execute_create_index`. -/
def buildSection (tableName : String) (indexDef : IndexDef) (tableColumns : List Column) :
    Exec Unit :=
  storageSection fun e =>
    let s := e.storage.value
    let key := storageKey tableName indexDef.name
    match buildIndex indexDef tableColumns (s.getRows tableName) (.new indexDef.indexType) with
    | .ok data => (.ok (), e.setStorage (s.putIndex key data))
    | .error dup =>
      let text := ",".intercalate (dup.map Value.toString)
      (.error (.err s!"Duplicate entry '{text}' for key '{indexDef.name}'"),
        e.setStorage (s.removeIndex key))

/-- `execute_create_index`. -/
def executeCreateIndex (env : Env) (db tableName : String) (ci : CreateIndex) :
    Exec ExecuteResult :=
  let indexDef := newIndexDef tableName ci
  if indexDef.columns.isEmpty then throw (.err "Index must have at least one column")
  else do
    writeCatalog fun c => c.createIndex db indexDef
    logWal env (.createIndex db indexDef)
    let tableDef ← readCatalog fun c => c.getTable db tableName
    buildSection tableName indexDef tableDef.columns
    saveTable tableName
    save
    pure .ok

omit [ExprDebug] [Bincode] in
/-- `execute_drop_index`. -/
def executeDropIndex (env : Env) (db indexName tableName : String) : Exec ExecuteResult := do
  writeCatalog fun c => c.dropIndex db indexName tableName
  logWal env (.dropIndex db indexName tableName)
  let key := storageKey tableName indexName
  updateStorage fun s => ((), s.removeIndex key)
  Handler.sec fun e => (.ok (), e.persist (·.removeIndexData key))
  pure .ok

/-! ## DROP TABLE -/

omit [ExprDebug] [Bincode] in
/-- The section of `execute_drop_table`, which holds both mutexes. The catalog
is changed before the storage is locked. -/
def dropTableSection (db tn : String) : Executor → Outcome Unit × Executor :=
  lockCatalog fun e =>
    match e.catalog.value.dropTable db tn with
    | .error msg => (.error (.err msg), e)
    | .ok c =>
      lockStorage (fun e => (.ok (), e.setStorage (e.storage.value.clearTable tn))) (e.setCatalog c)

/-- `str::contains`. -/
def containsText (s sub : String) : Bool := s.toList.tails.any fun t => sub.toList.isPrefixOf t

omit [Host] [Bincode] [ExprDebug] in
/-- The index files DROP TABLE removes: by the start of the name, or by
`_{tn}_` anywhere in it. -/
def removeIndexFiles (tn : String) (p : Persistence) : Persistence :=
  ⟨p.files.filter fun path _ => !match path with
    | ["indexes", fname] => startsWith fname tn || containsText fname ("_" ++ tn ++ "_")
    | _ => false⟩

/-- Whether the server has a data directory; it never changes. -/
def hasPersistence : Exec Bool := Handler.sec fun e => (.ok e.persistence.isSome, e)

omit [ExprDebug] in
/-- What `execute_drop_table` does to the data directory. -/
def dropTableFiles (tn : String) : Exec Unit := do
  if ← hasPersistence then
    Handler.sec fun e => (.ok (), e.persist (·.removeTableData tn))
    catalogSection fun e =>
      (.ok (), e.persist fun p => removeIndexFiles tn (p.saveCatalog e.catalog.value))
  else pure ()

omit [ExprDebug] in
/-- `execute_drop_table`. -/
def executeDropTable (env : Env) (db tableName : String) : Exec ExecuteResult := do
  let tn := toLowercase tableName
  logWal env (.dropTable tn)
  Handler.sec (dropTableSection db tn)
  dropTableFiles tn
  pure .ok

/-! ## Databases, SHOW, USE, DESCRIBE -/

omit [ExprDebug] in
/-- `execute_create_database`. -/
def executeCreateDatabase (dbName : ObjectName) : Exec ExecuteResult := do
  writeCatalog fun c => .ok (c.createDatabase (nameToString dbName))
  save
  pure .ok

omit [ExprDebug] in
/-- `execute_drop_database`. -/
def executeDropDatabase (dbName : String) : Exec ExecuteResult := do
  writeCatalog fun c =>
    match c.removeDatabase dbName with
    | some c => .ok c
    | none => .error s!"Unknown database: {dbName}"
  save
  pure .ok

omit [Host] [ExprDebug] [Bincode] in
/-- A result of one column of texts. -/
def textResult (column : String) (names : List String) : ExecuteResult :=
  .rows [.new column "" .varChar] (names.map fun name => ⟨0, [.text name]⟩)

omit [ExprDebug] [Bincode] in
/-- `execute_show_tables`. The keys of an ordered map are sorted. -/
def executeShowTables (db : String) : Exec ExecuteResult :=
  readCatalog fun c =>
    match c.getDatabase db with
    | none => .error s!"Unknown database: {db}"
    | some d => .ok (textResult s!"Tables_in_{db}" d.tables.keys)

omit [Host] [ExprDebug] [Bincode] in
/-- `execute_show_databases`. -/
def executeShowDatabases : Exec ExecuteResult :=
  readCatalog fun c =>
    .ok (textResult "Database"
      ((c.databases.toList.map fun e => e.2.name).mergeSort fun a b => a ≤ b))

omit [ExprDebug] [Bincode] in
/-- `execute_use`. -/
def executeUse (stmt : Use) : Exec ExecuteResult :=
  match stmt with
  | .database name | .object name => readCatalog fun c =>
    if c.databaseExists (nameToString name) then .ok (.databaseChanged (nameToString name))
    else .error s!"Unknown database: {nameToString name}"
  | .other => throw (.err "USE only supports database switching")

/-- The DESCRIBE row of a column. -/
def describeColumn (col : Column) : Row :=
  let default := match col.defaultExpr with
    | some (.value v) => v.toString
    | some .currentTimestamp => "CURRENT_TIMESTAMP"
    | none => ""
  let extra := " ".intercalate ((if col.autoIncrement then ["auto_increment"] else []) ++
    if col.defaultExpr.isSome then ["DEFAULT"] else [])
  ⟨0, [.text col.name, .text (columnTypeName col.colType col.columnLength), .text "YES",
    .text (if col.autoIncrement then "PRI" else ""),
    if default = "" then .null else .text default, .text extra]⟩

omit [ExprDebug] [Bincode] in
/-- `execute_describe`. -/
def executeDescribe (db tableName : String) : Exec ExecuteResult :=
  readCatalog fun c => do
    let t ← c.getTable db tableName
    .ok (.rows (["Field", "Type", "Null", "Key", "Default", "Extra"].map fun name =>
      .new name "" .varChar) (t.columns.map describeColumn))

/-! ## Dispatch -/

/-- A question to the catalog that is answered `false` when it is poisoned. -/
def askCatalog (f : Catalog → Bool) : Exec Bool :=
  Handler.sec fun e => (.ok (!e.catalog.poisoned && f e.catalog.value), e)

omit [ExprDebug] [Bincode] in
/-- `table_exists`. -/
def tableExists (db tableName : String) : Exec Bool :=
  askCatalog fun c => c.tableExists db tableName

omit [ExprDebug] [Bincode] in
/-- `database_exists`. -/
def databaseExists (dbName : String) : Exec Bool :=
  askCatalog fun c => c.databaseExists dbName

/-- An index of a list by name. -/
def hasIndex (indexes : List IndexDef) (indexName : String) : Bool :=
  indexes.any fun i => eqIgnoreAsciiCase i.name indexName

omit [ExprDebug] [Bincode] in
/-- `index_exists`. -/
def indexExists (db indexName tableName : String) : Exec Bool :=
  askCatalog fun c => hasIndex (c.getTableIndexes db tableName) indexName

omit [ExprDebug] [Bincode] in
/-- `find_index_table`: the first table in iteration order. -/
def findIndexTable (env : Env) (db indexName : String) (c : Catalog) : Option String :=
  (c.getDatabase db).bind fun d =>
    (env.order d.indexes.keys).find? fun table => hasIndex (d.indexes.getD table []) indexName

omit [Host] [ExprDebug] [Bincode] in
/-- The table a DELETE names. -/
def deleteTable (del : Delete) : String :=
  match del.tables, del.fromTables with
  | name :: _, _ => nameToString name
  | [], .table name :: _ => nameToString name
  | [], _ => ""

/-- The first name of a DROP. -/
def firstName (names : List ObjectName) : String := (names.head?.map nameToString).getD ""

/-- `Executor::execute`. -/
def execute (env : Env) (db : String) : Statement → Exec ExecuteResult
  | .createTable ct => do
    if ct.ifNotExists then
      if ← tableExists db (nameToString ct.name) then pure .ok
      else executeCreateTable env db ct
    else executeCreateTable env db ct
  | .insert ins => executeInsert env db (tableObjectName ins.table) ins.columns ins.source
  | .query query => executeQuery db query
  | .delete del => executeDelete env db (deleteTable del) del.selection
  | .update table assignments selection =>
    executeUpdate env db (tableFactorName table) assignments selection
  | .drop .table names ifExists => do
    if ifExists then
      if ← tableExists db (firstName names) then executeDropTable env db (firstName names)
      else pure .ok
    else executeDropTable env db (firstName names)
  | .drop .database names ifExists => do
    if ifExists then
      if ← databaseExists (firstName names) then executeDropDatabase (firstName names)
      else pure .ok
    else executeDropDatabase (firstName names)
  | .drop .index names ifExists => do
    let tableName ← readCatalog fun c =>
      match findIndexTable env db (firstName names) c with
      | some tableName => .ok tableName
      | none => .error s!"Unknown index: {firstName names}"
    if ifExists then
      if ← indexExists db (firstName names) tableName then
        executeDropIndex env db (firstName names) tableName
      else pure .ok
    else executeDropIndex env db (firstName names) tableName
  | .drop .other _ _ => throw (.err "Unsupported statement")
  | .createDatabase dbName ifNotExists => do
    if ifNotExists then
      if ← databaseExists (nameToString dbName) then pure .ok
      else executeCreateDatabase dbName
    else executeCreateDatabase dbName
  | .showDatabases => executeShowDatabases
  | .showTables => executeShowTables db
  | .use stmt => executeUse stmt
  | .explainTable tableName => executeDescribe db (nameToString tableName)
  | .createIndex ci => do
    if ← tableExists db (nameToString ci.tableName) then
      executeCreateIndex env db (nameToString ci.tableName) ci
    else throw (.err s!"Unknown table: {nameToString ci.tableName}")
  | .other => throw (.err "Unsupported statement")

end Handlers

end Srrdb.Engine

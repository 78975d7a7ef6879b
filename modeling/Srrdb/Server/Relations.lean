/-
Srrdb.Server.Relations — the database behind the executor.

What the executor is for, without its means: a catalog, and under every table
name the rows that were inserted, each a list of values, in the order of their
insertion. There are no row ids and no counters for them, no index data, no
log, no files and no mutexes. A SELECT is answered from the rows of its table;
where an index covers its WHERE clause, from whichever of them are offered
(`Answer.Allows`).

`relations` is what a server is in these terms. The lemmas about it say what
the storage operations are: appending, leaving out and rewriting rows.
-/
import Srrdb.Engine.IndexTheorems
import Srrdb.Engine.OrderBy
import Srrdb.Engine.RowOrder
import Srrdb.Server.Contents

namespace Srrdb.Server

open Srrdb.Engine Srrdb.Sql Srrdb.Lib

/-! ## The database -/

/-- A catalog and the rows of its tables, by normalized name. A name has no
entry until rows are inserted under it. -/
structure Relations where
  catalog : Catalog
  rows : Std.ExtTreeMap String (List (List Value))

namespace Relations

/-- A row that is nothing but its values. -/
def valueRow (values : List Value) : Row := ⟨0, values⟩

/-- Does some index have all its columns among the equality conditions? -/
def covers [Host] (indexes : List IndexDef) (selection : Option Expr) : Bool :=
  selection.any fun expr =>
    indexes.any fun idx => (conditionKey (extractEqConditions expr) idx).isSome

/-- What a statement is answered: a result, or the rows a SELECT found. -/
inductive Answer where
  | result (r : ExecuteResult)
  | selection (query : Query) (select : Select) (tableName : String) (columns : List Column)
      (indexes : List IndexDef) (rows : List (List Value))

/-- The comparisons of a query's ORDER BY. -/
def queryKeys (query : Query) (columns : List Column) : List (Row → Row → Ordering) :=
  match query.orderBy with
  | some (.expressions exprs) => orderKeys columns exprs
  | _ => []

/-- What the rows found are answered as: ordered, projected and cut. Where values of
an ORDER BY column clash, their order is open, and the sort may panic. -/
inductive Finishes (query : Query) (select : Select) (tableName : String) (columns : List Column) :
    Outcome (List Row) → Outcome ExecuteResult → Prop
  | failed (x : Stop) : Finishes query select tableName columns (.error x) (.error x)
  | sorted {found rows : List Row}
      (h : SortsByKeys found (queryKeys query columns) (some rows)) :
      Finishes query select tableName columns (.ok found)
        (.ok (.rows (select.projection.flatMap (projectColumns columns tableName))
          (finishQuery { query with orderBy := none } select columns rows)))
  | panicked {found : List Row} (h : SortsByKeys found (queryKeys query columns) none) :
      Finishes query select tableName columns (.ok found) (.error .panic)

/-- The results an answer stands for. A SELECT filters, orders, projects and cuts
the rows of its table; if an index covers its WHERE clause, some of them. -/
def Answer.Allows [Host] [ExprDebug] : Answer → Outcome ExecuteResult → Prop
  | .result a, r => r = .ok a
  | .selection query select tableName columns indexes rows, r =>
    ∃ offered : List (List Value), (∀ v ∈ offered, v ∈ rows) ∧
      (covers indexes select.selection = false → offered = rows) ∧
      Finishes query select tableName columns
        (selectRows columns select.selection (offered.map valueRow)) r

/-- The result is allowed by the answer, or both are the same error. -/
def Agrees [Host] [ExprDebug] : Outcome ExecuteResult → Outcome Answer → Prop
  | r, .ok answer => answer.Allows r
  | r, .error x => r = .error x

/-! ## Statements

Each is a few steps, and others may come between them. -/

/-- What is done to the database. -/
abbrev Work (α : Type) := Handler Relations Stop α

section Steps

variable {α : Type}

/-- Ask the catalog. -/
def ask (f : Catalog → Except String α) : Work α :=
  Handler.sec fun d => (Outcome.ofExcept (f d.catalog), d)

/-- Change the catalog, or fail and leave it. -/
def change (f : Catalog → Except String Catalog) : Work Unit :=
  Handler.sec fun d =>
    match f d.catalog with
    | .ok c => (.ok (), { d with catalog := c })
    | .error msg => (.error (.err msg), d)

/-- A computation that touches nothing shared. -/
def lift : Outcome α → Work α
  | .ok a => pure a
  | .error x => throw x

/-- The first element that is the same as one before it. -/
def firstRepeated (same : α → α → Bool) : List α → List α → Option α
  | _, [] => none
  | before, a :: rest =>
    if before.any fun b => same b a then some a else firstRepeated same (a :: before) rest

/-- A question to the catalog, answered with rows. -/
def report (f : Catalog → Except String ExecuteResult) : Work Answer := do
  let r ← ask f
  pure (.result r)

/-- A change of the catalog that is answered OK. -/
def alter (f : Catalog → Except String Catalog) : Work Answer := do
  change f
  pure (.result .ok)

/-- IF [NOT] EXISTS: nothing is done if the catalog says so. -/
def guarded (asked : Bool) (f : Catalog → Bool) (work : Work Answer) : Work Answer :=
  if asked then do
    if ← ask fun c => .ok (f c) then pure (.result .ok) else work
  else work

end Steps

variable [Host]

/-- The rows under a name. -/
def getRows (d : Relations) (tableName : String) : List (List Value) :=
  (d.rows[normalize tableName]?).getD []

/-- Replace the rows under a name. -/
def putRows (d : Relations) (tableName : String) (rows : List (List Value)) : Relations :=
  { d with rows := d.rows.insert (normalize tableName) rows }

/-- CREATE INDEX registers the index; a unique one is refused if two rows have
the same key, and stays registered. -/
def createIndex (db : String) (ci : CreateIndex) : Work Answer :=
  let tableName := nameToString ci.tableName
  let indexDef := newIndexDef tableName ci
  if indexDef.columns.isEmpty then throw (.err "Index must have at least one column")
  else do
    change fun c => c.createIndex db indexDef
    let tableDef ← ask fun c => c.getTable db tableName
    Handler.sec fun d =>
      let keys := (d.getRows tableName).map (buildKey tableDef.columns indexDef.columns)
      match if indexDef.unique then firstRepeated indexDef.indexType.sameKey [] keys else none with
      | none => (.ok (), d)
      | some dup =>
        let text := ",".intercalate (dup.map Value.toString)
        (.error (.err s!"Duplicate entry '{text}' for key '{indexDef.name}'"), d)
    pure (.result .ok)

/-- DROP TABLE takes the table and the rows under its name. -/
def dropTable (db tableName : String) : Work Answer := do
  Handler.sec fun d =>
    match d.catalog.dropTable db (toLowercase tableName) with
    | .ok c => (.ok (), ⟨c, d.rows.erase (normalize tableName)⟩)
    | .error msg => (.error (.err msg), d)
  pure (.result .ok)

variable [ExprDebug]

/-- INSERT: the values are filled in, then the rows come after the others. -/
def insert (env : Env) (db : String) (ins : Insert) : Work Answer := do
  let tableName := tableObjectName ins.table
  let tableDef ← ask fun c => c.getTable db tableName
  let rows ← lift (Outcome.ofExcept (sourceRows tableDef.columns ins.columns ins.source))
  let (filled, last) ← Handler.sec fun d =>
    let (result, c) := fillRows env.now tableName tableDef.columns 0 rows 0 d.catalog
    (result, { d with catalog := c })
  Handler.sec fun d =>
    (.ok (), d.putRows tableName (d.getRows tableName ++ filled.map (·.values)))
  pure (.result (.affected filled.length last))

/-- The step of DELETE and UPDATE: the chosen rows are counted, and all rows
replaced. -/
def rewrite (tableName : String) (columns : List Column) (selection : Option Expr)
    (f : List (List Value) → List (List Value)) : Work Nat :=
  Handler.sec fun d =>
    match d.rows[normalize tableName]? with
    | none => (.error (.err s!"Unknown table: {tableName}"), d)
    | some rows =>
      match selectRows columns selection (rows.map valueRow) with
      | .error x => (.error x, d)
      | .ok chosen => (.ok chosen.length, d.putRows tableName (f rows))

/-- DELETE leaves the chosen rows out. -/
def delete (db : String) (del : Delete) : Work Answer := do
  let tableDef ← ask fun c => c.getTable db (deleteTable del)
  let n ← rewrite (deleteTable del) tableDef.columns del.selection fun rows =>
    rows.filter fun v => !selects tableDef.columns del.selection (valueRow v)
  pure (.result (.affected n 0))

/-- UPDATE assigns to the chosen rows. -/
def update (db : String) (table : TableFactor) (assignments : List Assignment)
    (selection : Option Expr) : Work Answer := do
  let tableName := tableFactorName table
  let tableDef ← ask fun c => c.getTable db tableName
  let assigns ← ask fun c => do
    let tableDef ← c.getTable db tableName
    assignments.mapM (assignIndex tableDef.columns)
  let n ← rewrite tableName tableDef.columns selection fun rows =>
    rows.map fun v =>
      if selects tableDef.columns selection (valueRow v) then assignValues assigns v else v
  pure (.result (.affected n 0))

omit [ExprDebug] in
/-- SELECT reads the rows once. -/
def query (db : String) (query : Query) : Work Answer :=
  match query.body with
  | .select select =>
    match select.fromTables with
    | [] => pure (.result (.rows [] []))
    | table :: _ => do
      let tableName := tableFactorName table
      let (columns, indexes) ← ask fun c => do
        let tableDef ← c.getTable db tableName
        pure (tableDef.columns, c.getTableIndexes db tableName)
      let rows ← Handler.sec fun d => (.ok (d.getRows tableName), d)
      pure (.selection query select tableName columns indexes rows)
  | _ => throw (.err "Unsupported query type")

/-- The statements. -/
def execute (env : Env) (db : String) : Statement → Work Answer
  | .createTable ct =>
    guarded ct.ifNotExists (fun c => c.tableExists db (nameToString ct.name)) <| alter fun c =>
      c.createTable db (nameToString ct.name) (createColumns (nameToString ct.name) ct.columns)
  | .insert ins => insert env db ins
  | .query q => query db q
  | .delete del => delete db del
  | .update table assignments selection => update db table assignments selection
  | .drop .table names ifExists =>
    guarded ifExists (fun c => !c.tableExists db (firstName names)) <|
      dropTable db (firstName names)
  | .drop .database names ifExists =>
    guarded ifExists (fun c => !c.databaseExists (firstName names)) <| alter fun c =>
      match c.removeDatabase (firstName names) with
      | some c => .ok c
      | none => .error s!"Unknown database: {firstName names}"
  | .drop .index names ifExists => do
    let tableName ← ask fun c =>
      match findIndexTable env db (firstName names) c with
      | some tableName => .ok tableName
      | none => .error s!"Unknown index: {firstName names}"
    guarded ifExists (fun c => !hasIndex (c.getTableIndexes db tableName) (firstName names)) <|
      alter fun c => c.dropIndex db (firstName names) tableName
  | .createDatabase dbName ifNotExists =>
    guarded ifNotExists (fun c => c.databaseExists (nameToString dbName)) <| alter fun c =>
      .ok (c.createDatabase (nameToString dbName))
  | .createIndex ci => do
    if ← ask fun c => .ok (c.tableExists db (nameToString ci.tableName)) then createIndex db ci
    else throw (.err s!"Unknown table: {nameToString ci.tableName}")
  | .showDatabases => report fun c =>
    .ok (textResult "Database"
      ((c.databases.toList.map fun e => e.2.name).mergeSort fun a b => a ≤ b))
  | .showTables => report fun c =>
    match c.getDatabase db with
    | none => .error s!"Unknown database: {db}"
    | some d => .ok (textResult s!"Tables_in_{db}" d.tables.keys)
  | .use (.database name) | .use (.object name) => report fun c =>
    if c.databaseExists (nameToString name) then .ok (.databaseChanged (nameToString name))
    else .error s!"Unknown database: {nameToString name}"
  | .use .other => throw (.err "USE only supports database switching")
  | .explainTable tableName => report fun c => do
    let t ← c.getTable db (nameToString tableName)
    .ok (.rows (["Field", "Type", "Null", "Key", "Default", "Extra"].map fun name =>
      .new name "" .varChar) (t.columns.map describeColumn))
  | .drop .other _ _ | .other => throw (.err "Unsupported statement")

end Relations

end Srrdb.Server

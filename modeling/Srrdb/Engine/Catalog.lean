/-
Srrdb.Engine.Catalog — databases, table and index definitions, sequences
(`engine/catalog.rs`).

Databases and, within one, tables are keyed by folded name. Sequences are
keyed by the folded table name alone. Every operation that can fail returns
the error text of the source and then changes nothing.
-/
import Srrdb.Engine.Storage

namespace Srrdb.Engine

variable [Host]

/-- `struct TableDef`. -/
structure TableDef where
  name : String
  columns : List Column
  deriving DecidableEq, Repr

/-- `struct DatabaseDef`. -/
structure DatabaseDef where
  name : String
  tables : Std.ExtTreeMap String TableDef
  indexes : Std.ExtTreeMap String (List IndexDef)

/-- `struct Catalog`. -/
structure Catalog where
  databases : Std.ExtTreeMap String DatabaseDef
  sequences : Std.ExtTreeMap String Nat

omit [Host] in
/-- A database without tables. -/
def DatabaseDef.empty (name : String) : DatabaseDef := ⟨name, ∅, ∅⟩

namespace Catalog

/-- `Catalog::new`: the database `srrdb`, empty. -/
def new : Catalog where
  databases := (∅ : Std.ExtTreeMap String DatabaseDef).insert (normalize "srrdb")
    (DatabaseDef.empty "srrdb")
  sequences := ∅

/-- `Catalog::get_database`. -/
def getDatabase (c : Catalog) (name : String) : Option DatabaseDef :=
  c.databases[normalize name]?

/-- `Catalog::create_database`. -/
def createDatabase (c : Catalog) (name : String) : Catalog :=
  { c with databases := c.databases.insertIfNew (normalize name) (DatabaseDef.empty name) }

/-- `Catalog::database_exists`. -/
def databaseExists (c : Catalog) (name : String) : Bool :=
  (c.databases[normalize name]?).isSome

/-- `Catalog::remove_database`, with its `None` as an error for the caller. -/
def removeDatabase (c : Catalog) (name : String) : Option Catalog :=
  if c.databaseExists name then
    some { c with databases := c.databases.erase (normalize name) }
  else none

/-- Write back a database that was looked up. -/
def setDatabase (c : Catalog) (dbName : String) (db : DatabaseDef) : Catalog :=
  { c with databases := c.databases.insert (normalize dbName) db }

/-- `Catalog::create_table`. -/
def createTable (c : Catalog) (dbName tableName : String) (columns : List Column) :
    Except String Catalog :=
  let tn := normalize tableName
  match c.getDatabase dbName with
  | none => .error s!"Unknown database: {dbName}"
  | some db =>
    if db.tables[tn]?.isSome then .error s!"Table '{tableName}' already exists"
    else .ok {
      databases := c.databases.insert (normalize dbName)
        { db with
          tables := db.tables.insert tn ⟨tableName, columns⟩
          indexes := db.indexes.insertIfNew tn [] }
      sequences := c.sequences.insert tn 1 }

/-- `Catalog::drop_table`. -/
def dropTable (c : Catalog) (dbName tableName : String) : Except String Catalog :=
  let tn := normalize tableName
  match c.getDatabase dbName with
  | none => .error s!"Unknown database: {dbName}"
  | some db =>
    if db.tables[tn]?.isNone then .error s!"Unknown table: {tableName}"
    else .ok {
      databases := c.databases.insert (normalize dbName)
        { db with tables := db.tables.erase tn, indexes := db.indexes.erase tn }
      sequences := c.sequences.erase tn }

/-- `Catalog::get_table`. -/
def getTable (c : Catalog) (dbName tableName : String) : Except String TableDef :=
  match c.getDatabase dbName with
  | none => .error s!"Unknown database: {dbName}"
  | some db =>
    match db.tables[normalize tableName]? with
    | none => .error s!"Unknown table: {tableName}"
    | some table => .ok table

/-- `Catalog::next_row_id`: the value handed out and the advanced catalog. -/
def nextRowId (c : Catalog) (tableName : String) (count : Nat) : Nat × Catalog :=
  let tn := normalize tableName
  let current := c.sequences.getD tn 1
  (current, { c with sequences := c.sequences.insert tn (current + count) })

/-- `Catalog::table_exists`. -/
def tableExists (c : Catalog) (dbName tableName : String) : Bool :=
  ((c.getDatabase dbName).bind fun db => db.tables[normalize tableName]?).isSome

/-- `Catalog::create_index`. -/
def createIndex (c : Catalog) (dbName : String) (indexDef : IndexDef) : Except String Catalog :=
  let tn := normalize indexDef.tableName
  match c.getDatabase dbName with
  | none => .error s!"Unknown database: {dbName}"
  | some db =>
    if db.tables[tn]?.isNone then .error s!"Unknown table: {indexDef.tableName}"
    else
      let indexes := db.indexes.getD tn []
      if indexes.any fun i => eqIgnoreAsciiCase i.name indexDef.name then
        .error s!"Index '{indexDef.name}' already exists"
      else .ok (c.setDatabase dbName
        { db with indexes := db.indexes.insert tn (indexes ++ [indexDef]) })

/-- `Catalog::drop_index`. -/
def dropIndex (c : Catalog) (dbName indexName tableName : String) : Except String Catalog :=
  let tn := normalize tableName
  match c.getDatabase dbName with
  | none => .error s!"Unknown database: {dbName}"
  | some db =>
    match db.indexes[tn]? with
    | none => .error s!"No indexes on table '{tableName}'"
    | some indexes =>
      match indexes.findIdx? fun i => eqIgnoreAsciiCase i.name indexName with
      | none => .error s!"Unknown index: {indexName}"
      | some pos => .ok (c.setDatabase dbName
          { db with indexes := db.indexes.insert tn (indexes.eraseIdx pos) })

/-- `Catalog::get_table_indexes`. -/
def getTableIndexes (c : Catalog) (dbName tableName : String) : List IndexDef :=
  ((c.getDatabase dbName).bind fun db => db.indexes[normalize tableName]?).getD []

end Catalog

end Srrdb.Engine

/-
Srrdb.Engine.Storage — rows, row-id counters and index data by table name
(`engine/storage.rs`).

All three maps are keyed by the folded table name alone; no database name
reaches this module. Row ids are natural numbers: the source's `u64` counter
advances by one per stored row. What happens at the end of `u64` is said in
`Engine.CounterOverflow`.
-/
import Srrdb.Engine.Index

namespace Srrdb.Engine

variable [Host]

/-- The key under which the engine files a name. -/
def normalize (name : String) : String := toLowercase name

omit [Host] in
/-- The key of an index in `Storage::index_data`, and the stem of its file. -/
def indexKey (tn indexName : String) : String := tn ++ ":" ++ indexName

/-- `struct Row`. An id of 0 asks `insert_rows` for a fresh one. -/
structure Row where
  id : Nat
  values : List Value
  deriving DecidableEq, Repr

/-- The rows of a table by id. -/
abbrev Table := Std.ExtTreeMap Nat Row

/-- The stored rows in id order. -/
def Table.rows (t : Table) : List Row := t.toList.map (·.2)

/-- `struct Storage`. -/
structure Storage where
  tables : Std.ExtTreeMap String Table
  nextIds : Std.ExtTreeMap String Nat
  indexData : Std.ExtTreeMap String IndexData

namespace Storage

/-- `Storage::new`. -/
def new : Storage := ⟨∅, ∅, ∅⟩

/-- The loop of `insert_rows`: the table, the next id and the ids given out. -/
def insertLoop : Table → Nat → List Row → Table × Nat × List Nat
  | t, next, [] => (t, next, [])
  | t, next, row :: rows =>
    if row.id = 0 then
      let (t', next', ids) := insertLoop (t.insert next ⟨next, row.values⟩) (next + 1) rows
      (t', next', next :: ids)
    else
      let (t', next', ids) := insertLoop (t.insert row.id row)
        (if next ≤ row.id then row.id + 1 else next) rows
      (t', next', row.id :: ids)

/-- `Storage::insert_rows`. Both entries are created even for no rows. -/
def insertRows (s : Storage) (tableName : String) (rows : List Row) : List Nat × Storage :=
  let tn := normalize tableName
  let (t, next, ids) := insertLoop (s.tables.getD tn ∅) (s.nextIds.getD tn 1) rows
  (ids, { s with tables := s.tables.insert tn t, nextIds := s.nextIds.insert tn next })

/-- `Storage::get_rows`. -/
def getRows (s : Storage) (tableName : String) : List Row :=
  (s.tables[normalize tableName]?.map Table.rows).getD []

/-- `Storage::get_table_mut`, read. -/
def getTable? (s : Storage) (tableName : String) : Option Table :=
  s.tables[normalize tableName]?

/-- A write through `Storage::get_table_mut`; nothing if there is no entry. -/
def modifyTable (s : Storage) (tableName : String) (f : Table → Table) : Storage :=
  { s with tables := s.tables.modify (normalize tableName) f }

/-- `Storage::clear_table`. -/
def clearTable (s : Storage) (tableName : String) : Storage :=
  let tn := normalize tableName
  { tables := s.tables.erase tn
    nextIds := s.nextIds.erase tn
    indexData := s.indexData.filter fun key _ => !startsWith key (tn ++ ":") }

omit [Host] in
/-- `index_data.insert(key, data)`. -/
def putIndex (s : Storage) (key : String) (data : IndexData) : Storage :=
  { s with indexData := s.indexData.insert key data }

omit [Host] in
/-- `index_data.remove(&key)`. -/
def removeIndex (s : Storage) (key : String) : Storage :=
  { s with indexData := s.indexData.erase key }

end Storage

end Srrdb.Engine

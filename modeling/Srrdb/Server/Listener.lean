/-
Srrdb.Server.Listener — rebuilding the indexes and starting a server on a
data directory (`Executor::rebuild_indexes`, `server/listener.rs`).

`recover` is the part of `start` before the server listens. A data directory
without a catalog file is a fresh start. Otherwise a log that starts with a
checkpoint is used alone, and any other log is replayed on top of the catalog
file and the table files; an empty log leaves the files alone.
-/
import Srrdb.Engine.Executor

namespace Srrdb.Engine

variable [Host]

/-! ## Rebuilding indexes -/

/-- The index data over some rows. -/
def indexOf (indexDef : IndexDef) (tableColumns : List Column) (rows : List Row) : IndexData :=
  rows.foldl (fun data row => data.insert (getIndexKey row indexDef tableColumns) row.id)
    (.new indexDef.indexType)

/-- One table of `rebuild_indexes`, under its key in the catalog. -/
def rebuildTable (s : Storage) (tableName : String) (tableDef : TableDef)
    (indexes : List IndexDef) : Storage :=
  let rows := s.getRows tableName
  indexes.foldl (fun s idx =>
    s.putIndex (storageKey tableName idx.name) (indexOf idx tableDef.columns rows)) s

/-- One database of `rebuild_indexes`. -/
def rebuildDatabase (order : List String → List String) (d : DatabaseDef) (s : Storage) : Storage :=
  (order d.tables.keys).foldl (fun s tableName =>
    match d.tables[tableName]? with
    | some tableDef => rebuildTable s tableName tableDef (d.indexes.getD tableName [])
    | none => s) s

/-- All of `rebuild_indexes`. -/
def rebuildStorage (order : List String → List String) (c : Catalog) (s : Storage) : Storage :=
  (order c.databases.keys).foldl (fun s dbName =>
    match c.getDatabase dbName with
    | some d => rebuildDatabase order d s
    | none => s) s

/-- `Executor::rebuild_indexes`. A poisoned mutex makes it give up before it
has changed anything. -/
def Executor.rebuildIndexes (order : List String → List String) (e : Executor) : Executor :=
  if e.catalog.poisoned || e.storage.poisoned then e
  else e.setStorage (rebuildStorage order e.catalog.value e.storage.value)

end Srrdb.Engine

namespace Srrdb.Server

open Srrdb.Engine

variable [Host] [Bincode]

/-! ## Start -/

/-- Load the table files of one database. -/
def loadDatabase (order : List String → List String) (p : Persistence) (d : DatabaseDef)
    (s : Storage) : Storage :=
  (order d.tables.keys).foldl (fun s tableName =>
    match p.loadTableData tableName with
    | some rows => (s.insertRows tableName rows).2
    | none => s) s

/-- The catalog file and the table files of the databases it lists. -/
def loadFiles (order : List String → List String) (p : Persistence) : Memory :=
  let catalog := p.loadCatalog.getD .new
  ⟨catalog, (order catalog.databases.keys).foldl (fun s dbName =>
    match catalog.databases[dbName]? with
    | some d => loadDatabase order p d s
    | none => s) .new⟩

/-- The memory `start` recovers from a data directory and the bytes of its
log; a panic is one of the server at its start. -/
def recoverMemory (order : List String → List String) (p : Persistence) (wal : List UInt8) :
    Outcome Memory :=
  if p.hasExistingData then
    if wal.isEmpty then .ok (loadFiles order p)
    else match replayCheckpoint wal with
      | .ok m => .ok m
      | .error .panic => .error .panic
      | .error (.err _) => (replay wal (loadFiles order p)).map (·.2)
  else .ok .new

/-- `start`, up to the first connection. -/
def recover (order : List String → List String) (p : Persistence) (wal : List UInt8) :
    Outcome Executor :=
  (recoverMemory order p wal).map fun m => (Executor.ofMemory m (some p)).rebuildIndexes order

end Srrdb.Server

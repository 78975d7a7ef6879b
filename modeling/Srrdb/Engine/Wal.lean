/-
Srrdb.Engine.Wal — log entries, their bytes, and replay (`engine/wal.rs`).

An entry on disk is the magic, its whole length in four bytes, its type and
its payload. `replay` walks the bytes of the log and applies each entry it can
read; a length field below the header size makes the source slice out of
range, which is a panic here too. `replayCheckpoint` reads a log that starts
with a checkpoint.

`applyEntry` works on the catalog and the storage alone. Tables are created
and dropped in the database `srrdb` whatever database the statement ran in,
since the entries for them carry no database name.
-/
import Srrdb.Engine.Bincode

namespace Srrdb.Engine

open Srrdb.Lib

/-! ## Entries -/

/-- `enum WalEntry`. -/
inductive WalEntry where
  | createTable (tableName : String) (columns : List Column)
  | dropTable (tableName : String)
  | insertRows (tableName : String) (rows : List Row)
  | tableSnapshot (tableName : String) (rows : List Row)
  | createIndex (dbName : String) (indexDef : IndexDef)
  | dropIndex (dbName indexName tableName : String)
  | checkpoint
  deriving DecidableEq, Repr

/-- What a server holds in memory: the catalog and the storage. -/
structure Memory where
  catalog : Catalog
  storage : Storage

namespace Memory

variable [Host]

/-- An empty server. -/
def new : Memory := ⟨.new, .new⟩

/-- An update of the catalog that may fail and then changes nothing. -/
def tryCatalog (m : Memory) (r : Except String Catalog) : Bool × Memory :=
  match r with
  | .ok catalog => (true, { m with catalog })
  | .error _ => (false, m)

omit [Host] in
@[simp] theorem tryCatalog_storage (m : Memory) (r : Except String Catalog) :
    (m.tryCatalog r).2.storage = m.storage := by
  cases r <;> rfl

/-- `apply_entry`. -/
def applyEntry (m : Memory) : WalEntry → Bool × Memory
  | .createTable tableName columns =>
    m.tryCatalog (m.catalog.createTable "srrdb" tableName columns)
  | .dropTable tableName =>
    match m.catalog.dropTable "srrdb" tableName with
    | .ok catalog => (true, ⟨catalog, m.storage.clearTable tableName⟩)
    | .error _ => (false, m)
  | .insertRows tableName rows =>
    (true, { m with storage := (m.storage.insertRows tableName rows).2 })
  | .tableSnapshot tableName rows =>
    let storage := m.storage.modifyTable tableName fun _ => ∅
    (true, { m with storage := if rows.isEmpty then storage else (storage.insertRows tableName rows).2 })
  | .createIndex dbName indexDef => m.tryCatalog (m.catalog.createIndex dbName indexDef)
  | .dropIndex dbName indexName tableName =>
    m.tryCatalog (m.catalog.dropIndex dbName indexName tableName)
  | .checkpoint => (true, m)

/-- The entries of a log applied in order. -/
def applyAll (m : Memory) (entries : List WalEntry) : Memory :=
  entries.foldl (fun m entry => (m.applyEntry entry).2) m

@[simp] theorem applyAll_nil (m : Memory) : m.applyAll [] = m := rfl

@[simp] theorem applyAll_cons (m : Memory) (entry : WalEntry) (entries : List WalEntry) :
    m.applyAll (entry :: entries) = (m.applyEntry entry).2.applyAll entries := rfl

theorem applyAll_append (m : Memory) (es es' : List WalEntry) :
    m.applyAll (es ++ es') = (m.applyAll es).applyAll es' :=
  List.foldl_append

end Memory

/-! ## Bytes -/

/-- `MAGIC`. -/
def magic : List UInt8 := [0x53, 0x44]

/-- `ENTRY_HEADER_SIZE`. -/
def entryHeaderSize : Nat := 7

/-- `enum WalEntryType`. -/
def WalEntry.entryType : WalEntry → UInt8
  | .createTable .. => 1
  | .dropTable .. => 2
  | .insertRows .. => 3
  | .tableSnapshot .. => 4
  | .createIndex .. => 5
  | .dropIndex .. => 6
  | .checkpoint => 255

/-- An entry of a type around a payload; a length from 2^32 on is cut. -/
def frame (entryType : UInt8) (payload : List UInt8) : List UInt8 :=
  magic ++ Codec.leBytes 4 (entryHeaderSize + payload.length) ++ [entryType] ++ payload

section Format

variable [Bincode]

def WalEntry.payload : WalEntry → List UInt8
  | .createTable tableName columns =>
    serialize Bincode.string tableName ++ serialize Bincode.columns columns
  | .dropTable tableName => serialize Bincode.string tableName
  | .insertRows tableName rows | .tableSnapshot tableName rows =>
    serialize Bincode.string tableName ++ serialize Bincode.rows rows
  | .createIndex dbName indexDef =>
    serialize Bincode.string dbName ++ serialize Bincode.indexDef indexDef
  | .dropIndex dbName indexName tableName =>
    serialize Bincode.string dbName ++ serialize Bincode.string indexName ++
      serialize Bincode.string tableName
  | .checkpoint => []

/-- `WalEntry::serialize`. -/
def WalEntry.serialize (entry : WalEntry) : List UInt8 := frame entry.entryType entry.payload

/-- A string and what is found behind its serialized size. -/
def deserializeString (payload : List UInt8) : Option (String × List UInt8) :=
  (deserialize Bincode.string payload).map fun s =>
    (s, payload.drop (serializedSize Bincode.string s))

/-- `WalEntry::deserialize`: an error is `none`, an unknown type `some none`. -/
def WalEntry.deserialize (entryType : UInt8) (payload : List UInt8) : Option (Option WalEntry) :=
  match entryType with
  | 1 => do
    let (tableName, rest) ← deserializeString payload
    let columns ← Engine.deserialize Bincode.columns rest
    some (some (.createTable tableName columns))
  | 2 => do
    let tableName ← Engine.deserialize Bincode.string payload
    some (some (.dropTable tableName))
  | 3 => do
    let (tableName, rest) ← deserializeString payload
    let rows ← Engine.deserialize Bincode.rows rest
    some (some (.insertRows tableName rows))
  | 4 => do
    let (tableName, rest) ← deserializeString payload
    let rows ← Engine.deserialize Bincode.rows rest
    some (some (.tableSnapshot tableName rows))
  | 5 => do
    let (dbName, rest) ← deserializeString payload
    let indexDef ← Engine.deserialize Bincode.indexDef rest
    some (some (.createIndex dbName indexDef))
  | 6 => do
    let (dbName, rest) ← deserializeString payload
    let (indexName, rest) ← deserializeString rest
    let tableName ← Engine.deserialize Bincode.string rest
    some (some (.dropIndex dbName indexName tableName))
  | 255 => some (some .checkpoint)
  | _ => some none

/-- The length field of an entry at the front of the bytes. -/
def entryLength (bytes : List UInt8) : Nat := Codec.leValue ((bytes.drop 2).take 4)

variable [Host]

/-- The loop of `Wal::replay` over the bytes not read yet. A round consumes at
least a header, so the length of the log bounds the rounds. -/
def replayLoop : Nat → List UInt8 → Nat → Memory → Outcome (Nat × Memory)
  | 0, _, count, m => .ok (count, m)
  | fuel + 1, bytes, count, m =>
    if bytes.length < entryHeaderSize then .ok (count, m)
    else if bytes.take 2 ≠ magic then .ok (count, m)
    else if bytes.length < entryLength bytes then .ok (count, m)
    else if entryLength bytes < entryHeaderSize then .error .panic
    else
      match WalEntry.deserialize (bytes.getD 6 0)
          ((bytes.take (entryLength bytes)).drop entryHeaderSize) with
      | none => .ok (count, m)
      | some none => replayLoop fuel (bytes.drop (entryLength bytes)) (count + 1) m
      | some (some entry) =>
        let (applied, m') := m.applyEntry entry
        replayLoop fuel (bytes.drop (entryLength bytes)) (if applied then count + 1 else count) m'

/-- `Wal::replay` of a log with these bytes. -/
def replay (bytes : List UInt8) (m : Memory) : Outcome (Nat × Memory) :=
  replayLoop bytes.length bytes 0 m

/-! ## Checkpoints -/

omit [Host] in
/-- `build_checkpoint_data`. -/
def buildCheckpointData (m : Memory) : List UInt8 :=
  let tables := m.storage.tables.toList
  frame WalEntry.checkpoint.entryType <|
    serialize Bincode.catalog m.catalog ++ serialize Bincode.usize tables.length ++
      tables.flatMap fun (name, table) =>
        serialize Bincode.string name ++ serialize Bincode.rows table.rows

/-- The tables of a checkpoint, read from the bytes that are left. -/
def checkpointTables : Nat → List UInt8 → Storage → Option Storage
  | 0, _, storage => some storage
  | count + 1, bytes, storage =>
    if bytes.isEmpty then some storage
    else do
      let (tableName, rest) ← deserializeString bytes
      if rest.isEmpty then some storage
      else do
        let rows ← deserialize Bincode.rows rest
        checkpointTables count (rest.drop (serializedSize Bincode.rows rows))
          (storage.insertRows tableName rows).2

/-- `replay_checkpoint`. The text of a decoding error is only logged. -/
def replayCheckpoint (data : List UInt8) : Outcome Memory :=
  if data.length < entryHeaderSize ∨ data.take 2 ≠ magic then
    .error (.err "Invalid checkpoint")
  else if data.getD 6 0 ≠ WalEntry.checkpoint.entryType then .error (.err "Not a checkpoint")
  else if min (entryLength data) data.length < entryHeaderSize then .error .panic
  else
    let payload := (data.take (entryLength data)).drop entryHeaderSize
    match deserialize Bincode.catalog payload with
    | none => .error (.err "catalog")
    | some catalog =>
      let rest := payload.drop (serializedSize Bincode.catalog catalog)
      if rest.isEmpty then .ok ⟨catalog, .new⟩
      else
        match deserialize Bincode.usize rest with
        | none => .error (.err "table count")
        | some count =>
          match checkpointTables count (rest.drop (serializedSize Bincode.usize count)) .new with
          | none => .error (.err "table")
          | some storage => .ok ⟨catalog, storage⟩

end Format

end Srrdb.Engine

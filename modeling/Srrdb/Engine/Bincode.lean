/-
Srrdb.Engine.Bincode — the byte formats of the `bincode` crate.

The crate is not part of the repository, so the formats of the types the
engine writes are a parameter: a codec for each, whose law says that decoding
undoes encoding. `bincode1` is the crate's default configuration, in which
integers are fixed-width little endian, a length is a `u64`, a variant is a
`u32` index and fields follow each other in order.
-/
import Srrdb.Engine.Catalog
import Srrdb.Lib.Codec
import Srrdb.Lib.OrdMap

namespace Srrdb.Engine

open Srrdb.Lib

/-- The formats of the types the engine writes. Ids and counters are natural numbers;
what is said of them holds below the end of `u64`. -/
class Bincode where
  string : Codec String
  usize : Codec Nat
  columns : Codec (List Column)
  rows : Codec (List Row)
  indexDef : Codec IndexDef
  indexData : Codec IndexData
  catalog : Codec Catalog

/-- `bincode::serialize`. -/
def serialize {α : Type} (c : Codec α) (a : α) : List UInt8 := c.enc a

/-- `bincode::deserialize`, which allows trailing bytes. -/
def deserialize {α : Type} (c : Codec α) (bytes : List UInt8) : Option α :=
  (c.dec bytes).map (·.1)

/-- `bincode::serialized_size`. -/
def serializedSize {α : Type} (c : Codec α) (a : α) : Nat := (c.enc a).length

@[simp] theorem deserialize_serialize_append {α : Type} (c : Codec α) (a : α)
    (rest : List UInt8) : deserialize c (serialize c a ++ rest) = some a := by
  simp [deserialize, serialize]

@[simp] theorem deserialize_serialize {α : Type} (c : Codec α) (a : α) :
    deserialize c (serialize c a) = some a := by
  simp [deserialize, serialize]

@[simp] theorem drop_serializedSize {α : Type} (c : Codec α) (a : α) (rest : List UInt8) :
    (serialize c a ++ rest).drop (serializedSize c a) = rest := by
  simp [serialize, serializedSize]

/-! ## The default configuration -/

namespace Bincode1

def u8 : Codec UInt8 := .byte

def u16 : Codec UInt16 :=
  (Codec.fixed 2).map (fun n => .ofNat n) (fun v => ⟨v.toNat, v.toNat_lt⟩) fun v => by simp

def u32 : Codec UInt32 :=
  (Codec.fixed 4).map (fun n => .ofNat n) (fun v => ⟨v.toNat, v.toNat_lt⟩) fun v => by simp

def u64 : Codec UInt64 :=
  (Codec.fixed 8).map (fun n => .ofNat n) (fun v => ⟨v.toNat, v.toNat_lt⟩) fun v => by simp

def i64 : Codec Int64 :=
  u64.map (fun v => v.toInt64) (fun v => v.toUInt64) fun _ => rfl

def bool : Codec Bool :=
  u8.map (fun b => b != 0) (fun b => if b then 1 else 0) fun b => by cases b <;> rfl

def bytes : Codec (List UInt8) := .list u8

def string : Codec String :=
  bytes.filterMap (fun b => String.fromUTF8? ⟨b.toArray⟩) (fun s => s.toUTF8.data.toList)
    fun s => by simp [String.fromUTF8?, String.fromUTF8, s.isValidUTF8]

/-- The payload of each variant of `Value`. -/
def Payload : Fin 7 → Type
  | 0 => Unit
  | 1 => Int64
  | 2 => UInt64
  | 3 => UInt32
  | 4 => UInt64
  | 5 => List UInt8
  | 6 => String

def payload : ∀ tag : Fin 7, Codec (Payload tag)
  | 0 => .unit
  | 1 => i64
  | 2 => u64
  | 3 => u32
  | 4 => u64
  | 5 => bytes
  | 6 => string

/-- A variant index below `n`. -/
def tag (n : Nat) (h : n < 256 ^ 4) : Codec (Fin n) :=
  (Codec.fixed 4).filterMap (fun i => if hi : i.val < n then some ⟨i, hi⟩ else none)
    (fun i => ⟨i, i.isLt.trans h⟩) fun i => by simp

def value : Codec Value :=
  ((tag 7 (by decide)).sigma payload).map
    (fun
      | ⟨0, _⟩ => .null
      | ⟨1, v⟩ => .int v
      | ⟨2, v⟩ => .uint v
      | ⟨3, v⟩ => .float v
      | ⟨4, v⟩ => .double v
      | ⟨5, v⟩ => .bytes v
      | ⟨6, v⟩ => .text v)
    (fun
      | .null => ⟨0, ()⟩
      | .int v => ⟨1, v⟩
      | .uint v => ⟨2, v⟩
      | .float v => ⟨3, v⟩
      | .double v => ⟨4, v⟩
      | .bytes v => ⟨5, v⟩
      | .text v => ⟨6, v⟩)
    fun v => by cases v <;> rfl

def columnType : Codec ColumnType :=
  .enumOf [.decimal, .tiny, .short, .long, .float, .double, .null, .timestamp, .longLong, .int24,
    .date, .time, .dateTime, .year, .varChar, .bit, .json, .newDecimal, .enum, .set, .tinyBlob,
    .mediumBlob, .longBlob, .blob, .varString, .string, .geometry] (by decide)
    fun t => by cases t <;> decide

/-- The payload of each variant of `DefaultExpr`. -/
def DefaultPayload : Fin 2 → Type
  | 0 => Value
  | 1 => Unit

def defaultPayload : ∀ tag : Fin 2, Codec (DefaultPayload tag)
  | 0 => value
  | 1 => .unit

def defaultExpr : Codec DefaultExpr :=
  ((tag 2 (by decide)).sigma defaultPayload).map
    (fun
      | ⟨0, v⟩ => .value v
      | ⟨1, _⟩ => .currentTimestamp)
    (fun
      | .value v => ⟨0, v⟩
      | .currentTimestamp => ⟨1, ()⟩)
    fun d => by cases d <;> rfl

def column : Codec Column :=
  (string.prod <| string.prod <| columnType.prod <| u32.prod <| u16.prod <| u16.prod <|
      u8.prod <| bool.prod <| .option defaultExpr).map
    (fun (name, table, colType, columnLength, charset, flags, decimals, auto, dflt) =>
      ⟨name, table, colType, columnLength, charset, flags, decimals, auto, dflt⟩)
    (fun c => (c.name, c.table, c.colType, c.columnLength, c.charset, c.flags, c.decimals,
      c.autoIncrement, c.defaultExpr))
    fun _ => rfl

def row : Codec Row :=
  (Codec.nat.prod (.list value)).map (fun (id, values) => ⟨id, values⟩)
    (fun r => (r.id, r.values)) fun _ => rfl

def indexType : Codec IndexType := .enumOf [.bTree, .hash] (by decide) fun t => by cases t <;> decide

def indexDef : Codec IndexDef :=
  (string.prod <| indexType.prod <| string.prod <| (Codec.list string).prod bool).map
    (fun (name, indexType, tableName, columns, unique) =>
      ⟨name, indexType, tableName, columns, unique⟩)
    (fun d => (d.name, d.indexType, d.tableName, d.columns, d.unique)) fun _ => rfl

/-- A map is its entries behind their count. -/
def ordMap {κ ν : Type} [Ord κ] [Std.TransOrd κ] [Std.LawfulEqOrd κ] (k : Codec κ) (v : Codec ν) :
    Codec (Std.ExtTreeMap κ ν) :=
  (Codec.list (k.prod v)).map (fun l => Std.ExtTreeMap.ofList l) (fun m => m.toList)
    OrdMap.ofList_toList

def tableDef : Codec TableDef :=
  (string.prod (.list column)).map (fun (name, columns) => ⟨name, columns⟩)
    (fun t => (t.name, t.columns)) fun _ => rfl

def databaseDef : Codec DatabaseDef :=
  (string.prod <| (ordMap string tableDef).prod (ordMap string (.list indexDef))).map
    (fun (name, tables, indexes) => ⟨name, tables, indexes⟩)
    (fun d => (d.name, d.tables, d.indexes)) fun _ => rfl

def catalog : Codec Catalog :=
  ((ordMap string databaseDef).prod (ordMap string .nat)).map
    (fun (databases, sequences) => ⟨databases, sequences⟩)
    (fun c => (c.databases, c.sequences)) fun _ => rfl

def key : Codec Key := .list value

def hashMap : Codec (PerMap Key (List Nat) Key.hashMatches) :=
  (Codec.list (key.prod (.list .nat))).filterMap
    (fun entries => if h : entries.Pairwise (fun a b => Key.hashMatches a.1 b.1 = false) then
      some ⟨entries, h⟩ else none)
    (fun m => m.entries) fun m => by simp [m.distinct]

/-- The payload of each variant of `IndexData`. -/
def IndexPayload : Fin 2 → Type
  | 0 => Std.ExtTreeMap Key (List Nat)
  | 1 => PerMap Key (List Nat) Key.hashMatches

def indexPayload : ∀ tag : Fin 2, Codec (IndexPayload tag)
  | 0 => ordMap key (.list .nat)
  | 1 => hashMap

def indexData : Codec IndexData :=
  ((tag 2 (by decide)).sigma indexPayload).map
    (fun
      | ⟨0, map⟩ => .bTree map
      | ⟨1, map⟩ => .hash map)
    (fun
      | .bTree map => ⟨0, map⟩
      | .hash map => ⟨1, map⟩)
    fun d => by cases d <;> rfl

end Bincode1

/-- The formats of the crate's default configuration. -/
@[reducible] def bincode1 : Bincode where
  string := Bincode1.string
  usize := .nat
  columns := .list Bincode1.column
  rows := .list Bincode1.row
  indexDef := Bincode1.indexDef
  indexData := Bincode1.indexData
  catalog := Bincode1.catalog

end Srrdb.Engine

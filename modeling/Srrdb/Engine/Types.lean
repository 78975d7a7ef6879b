/-
Srrdb.Engine.Types — values, column types and columns (`engine/types.rs`).

Integers are the fixed-width ones of the source and a float is its bit
pattern. `Value.cmp` is the source's `Ord`: variants in a fixed order, and
within a variant the order of its payload, floats by the IEEE total order.
It is shown lawful by writing it as a lexicographic comparison of
projections (`Value.cmp_eq`), which makes every ordered map keyed by values
usable. `Value.eq` is the derived `PartialEq`, which differs from identity
of patterns on NaN and on the two zeros.
-/
import Srrdb.Runtime
import Std.Data.ExtTreeMap

namespace Srrdb.Engine

open Srrdb.Lib Srrdb.Lib.Ieee

/-! ## Values -/

/-- `enum Value`. `Float` and `Double` carry their bit patterns. -/
inductive Value where
  | null
  | int (v : Int64)
  | uint (v : UInt64)
  | float (bits : UInt32)
  | double (bits : UInt64)
  | bytes (b : List UInt8)
  | text (s : String)
  deriving DecidableEq, Repr

namespace Value

/-- `variant_order` of the source's `Ord`. -/
def variantOrder : Value → Nat
  | null => 0
  | int _ => 1
  | uint _ => 2
  | float _ => 3
  | double _ => 4
  | bytes _ => 5
  | text _ => 6

/-- `impl Ord for Value`. -/
def cmp : Value → Value → Ordering
  | null, null => .eq
  | int a, int b => compare a b
  | uint a, uint b => compare a b
  | float a, float b =>
    compare (binary32.totalKey a.toNat) (binary32.totalKey b.toNat)
  | double a, double b =>
    compare (binary64.totalKey a.toNat) (binary64.totalKey b.toNat)
  | bytes a, bytes b => compare a b
  | text a, text b => compare a b
  | a, b => compare a.variantOrder b.variantOrder

instance : Ord Value := ⟨cmp⟩

/-- The derived `PartialEq`: IEEE equality on floats. -/
def eq : Value → Value → Bool
  | null, null => true
  | int a, int b => a == b
  | uint a, uint b => a == b
  | float a, float b => binary32.ieeeEq a.toNat b.toNat
  | double a, double b => binary64.ieeeEq a.toNat b.toNat
  | bytes a, bytes b => a == b
  | text a, text b => a == b
  | _, _ => false

/-- `impl Hash for Value` feeds the hasher the variant and the payload, floats
by their bits, so two values feed it the same exactly when they are the same. -/
def hashEq (a b : Value) : Bool := decide (a = b)

/-- `Value::to_string`. -/
def toString : Value → String
  | null => "NULL"
  | int v => Int.repr v.toInt
  | uint v => Nat.repr v.toNat
  | float bits => binary32.display bits.toNat
  | double bits => binary64.display bits.toNat
  | bytes b => Srrdb.fromUtf8Lossy b
  | text s => s

/-! ### The order is lawful -/

/-- A projection of a value to one of its payload types. -/
def asInt : Value → Option Int64
  | int v => some v
  | _ => none

def asUInt : Value → Option UInt64
  | uint v => some v
  | _ => none

def asFloatKey : Value → Option Int
  | float bits => some (binary32.totalKey bits.toNat)
  | double bits => some (binary64.totalKey bits.toNat)
  | _ => none

def asBytes : Value → Option (List UInt8)
  | bytes b => some b
  | _ => none

def asText : Value → Option String
  | text s => some s
  | _ => none

/-- The order as a lexicographic comparison of projections. -/
def lexCmp : Value → Value → Ordering :=
  compareLex (compareOn variantOrder) <| compareLex (compareOn asInt) <|
    compareLex (compareOn asUInt) <| compareLex (compareOn asFloatKey) <|
      compareLex (compareOn asBytes) (compareOn asText)

theorem cmp_eq : cmp = lexCmp := by
  funext a b
  -- distinct variants compute; equal ones leave the payload comparison
  cases a <;> cases b <;> first
    | rfl
    | (simp only [lexCmp, compareLex, compareOn, variantOrder, asInt, asUInt, asFloatKey,
        asBytes, asText, Std.ReflCmp.compare_self, Ordering.then_eq, Ordering.eq_then]
       rfl)

instance : Std.TransOrd Value := by
  have h : Std.TransCmp lexCmp := by unfold lexCmp; infer_instance
  rw [← cmp_eq] at h
  exact h

instance : Std.LawfulEqOrd Value where
  eq_of_compare {a b} h := by
    change cmp a b = .eq at h
    -- distinct variants differ already in `variantOrder`
    cases a <;> cases b <;>
      simp [cmp, variantOrder, Std.LawfulEqCmp.compare_eq_iff_eq] at h
    case null.null => rfl
    case int.int => rw [h]
    case uint.uint => rw [h]
    case float.float x y =>
      have hbits := binary32.totalKey_injective (UInt32.toNat_lt x) (UInt32.toNat_lt y) h
      rw [UInt32.toNat_inj.mp hbits]
    case double.double x y =>
      have hbits := binary64.totalKey_injective (UInt64.toNat_lt x) (UInt64.toNat_lt y) h
      rw [UInt64.toNat_inj.mp hbits]
    case bytes.bytes => rw [h]
    case text.text => rw [h]

end Value

/-- A key of an index: the values of its columns. -/
abbrev Key := List Value

/-! ## Columns -/

/-- `enum ColumnType`. -/
inductive ColumnType where
  | decimal | tiny | short | long | float | double | null | timestamp | longLong | int24
  | date | time | dateTime | year | varChar | bit | json | newDecimal | enum | set
  | tinyBlob | mediumBlob | longBlob | blob | varString | string | geometry
  deriving DecidableEq, Repr

/-- The discriminant, as sent in a column definition. -/
def ColumnType.code : ColumnType → UInt8
  | .decimal => 0 | .tiny => 1 | .short => 2 | .long => 3 | .float => 4 | .double => 5
  | .null => 6 | .timestamp => 7 | .longLong => 8 | .int24 => 9 | .date => 10 | .time => 11
  | .dateTime => 12 | .year => 13 | .varChar => 15 | .bit => 16 | .json => 245
  | .newDecimal => 246 | .enum => 247 | .set => 248 | .tinyBlob => 249 | .mediumBlob => 250
  | .longBlob => 251 | .blob => 252 | .varString => 253 | .string => 254 | .geometry => 255

/-- `ColumnType::default_length`. -/
def ColumnType.defaultLength : ColumnType → UInt32
  | .tiny => 4
  | .short => 6
  | .long => 11
  | .longLong => 20
  | .float => 12
  | .double => 22
  | .varChar | .string => 255
  | .blob | .varString => 65535
  | .date => 10
  | .timestamp => 19
  | _ => 255

/-- `enum DefaultExpr`. -/
inductive DefaultExpr where
  | value (v : Value)
  | currentTimestamp
  deriving DecidableEq, Repr

/-- `struct Column`. -/
structure Column where
  name : String
  table : String
  colType : ColumnType
  columnLength : UInt32
  charset : UInt16
  flags : UInt16
  decimals : UInt8
  autoIncrement : Bool
  defaultExpr : Option DefaultExpr
  deriving DecidableEq, Repr

/-- `Column::new`. Character set 45 is `utf8mb4_general_ci`. -/
def Column.new (name table : String) (colType : ColumnType) : Column where
  name := name
  table := table
  colType := colType
  columnLength := colType.defaultLength
  charset := 45
  flags := 0
  decimals := 0
  autoIncrement := false
  defaultExpr := none

/-- `columns.iter().position(|c| c.name.eq_ignore_ascii_case(name))`. -/
def columnPosition (columns : List Column) (name : String) : Option Nat :=
  columns.findIdx? fun c => eqIgnoreAsciiCase c.name name

end Srrdb.Engine

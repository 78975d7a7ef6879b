/-
Srrdb.Engine.Predicate — literals, comparisons, WHERE clauses, projection and
sorting (the helper functions of `engine/executor.rs`).

`evalWhere` evaluates one level of a condition: its operands go through
`evalExpr`, which knows identifiers and literals only, so a condition nested
under another is an error. Both may fail with the text of the source, and a
`LIKE` may panic: `likeMatchImpl` works on bytes and slices the text at every
offset a `%` tries, which panics inside a character.
-/
import Srrdb.Engine.Storage
import Srrdb.Sql.Ast

namespace Srrdb.Engine

open Srrdb.Sql Srrdb.Lib.Ieee

/-! ## Column types -/

/-- `sql_type_to_column_type`. -/
def sqlTypeToColumnType : DataType → ColumnType
  | .int | .integer => .long
  | .bigInt => .longLong
  | .smallInt => .short
  | .tinyInt => .tiny
  | .float => .float
  | .double => .double
  | .text => .blob
  | .varchar => .varChar
  | .char => .string
  | .boolean => .tiny
  | .blob => .blob
  | .date => .date
  | .datetime => .dateTime
  | .timestamp => .timestamp
  | .json => .json
  | .other => .varString

/-- The base names of `column_type_name`. -/
def columnTypeBase : ColumnType → String
  | .decimal => "decimal" | .tiny => "tinyint" | .short => "smallint" | .long => "int"
  | .float => "float" | .double => "double" | .null => "null" | .timestamp => "timestamp"
  | .longLong => "bigint" | .int24 => "mediumint" | .date => "date" | .time => "time"
  | .dateTime => "datetime" | .year => "year" | .varChar => "varchar" | .bit => "bit"
  | .json => "json" | .newDecimal => "decimal" | .enum => "enum" | .set => "set"
  | .tinyBlob => "tinyblob" | .mediumBlob => "mediumblob" | .longBlob => "longblob"
  | .blob => "text" | .varString => "varchar" | .string => "char" | .geometry => "geometry"

/-- `column_type_name`. -/
def columnTypeName (ct : ColumnType) (len : UInt32) : String :=
  match ct with
  | .varChar | .varString | .string => columnTypeBase ct ++ "(" ++ Nat.repr len.toNat ++ ")"
  | _ => columnTypeBase ct

/-! ## Literals -/

/-- A numeric literal: an `i64`, else an `f64`, else its text. -/
def numberToValue (n : String) : Value :=
  match parseI64 n with
  | some v => .int v
  | none =>
    match parseF64 n with
    | some bits => .double bits
    | none => .text n

/-- `sql_expr_to_value`. -/
def sqlExprToValue [ExprDebug] : Expr → Value
  | .value (.number n) => numberToValue n
  | .value (.singleQuotedString s) => .text s
  | .value .null => .null
  | e => .text (debugExpr e)

/-- `eval_const_expr`. -/
def evalConstExpr : Expr → Option Value
  | .value (.number n) => some (numberToValue n)
  | .value (.singleQuotedString s) => some (.text s)
  | .value .null => some .null
  | _ => none

/-! ## Comparisons -/

/-- `(a - b).abs() < f64::EPSILON`. -/
def closeDouble (a b : Nat) : Bool :=
  binary64.lt (binary64.abs (binary64.sub a b)) binary64.epsilon

/-- `(a - b).abs() < f32::EPSILON`. -/
def closeFloat (a b : Nat) : Bool :=
  binary32.lt (binary32.abs (binary32.sub a b)) binary32.epsilon

/-- `values_equal`. The arms are in the order of the source; the last one
compares the printed forms. -/
def valuesEqual : Value → Value → Bool
  | .int a, .int b => a == b
  | .uint a, .uint b => a == b
  | .float a, .float b => closeFloat a.toNat b.toNat
  | .double a, .double b => closeDouble a.toNat b.toNat
  | .text a, .text b => a == b
  | .text a, .bytes b => a.toUTF8.toList == b
  | .bytes a, .text b => a == b.toUTF8.toList
  | .int a, .text b => Int.repr a.toInt == b
  | .text a, .int b => a == Int.repr b.toInt
  | .int a, .float b => binary32.ieeeEq (binary32.ofInt a.toInt) b.toNat
  | .float a, .int b => binary32.ieeeEq a.toNat (binary32.ofInt b.toInt)
  | .int a, .double b => closeDouble (binary64.ofInt a.toInt) b.toNat
  | .double a, .int b => closeDouble a.toNat (binary64.ofInt b.toInt)
  | .null, _ => false
  | _, .null => false
  | a, b => a.toString == b.toString

/-- `value_cmp`. -/
def valueCmp : Value → Value → Option Ordering
  | .int a, .int b => some (compare a b)
  | .uint a, .uint b => some (compare a b)
  | .float a, .float b => binary32.partialCmp a.toNat b.toNat
  | .double a, .double b => binary64.partialCmp a.toNat b.toNat
  | .int a, .double b => binary64.partialCmp (binary64.ofInt a.toInt) b.toNat
  | .double a, .int b => binary64.partialCmp a.toNat (binary64.ofInt b.toInt)
  | .int a, .float b => binary32.partialCmp (binary32.ofInt a.toInt) b.toNat
  | .float a, .int b => binary32.partialCmp a.toNat (binary32.ofInt b.toInt)
  | .text a, .text b => some (compare a b)
  | .int a, .text b => some (compare (Int.repr a.toInt) b)
  | .text a, .int b => some (compare a (Int.repr b.toInt))
  | _, _ => none

/-- `as_bool`. -/
def asBool : Value → Option Bool
  | .int n => some (n != 0)
  | .uint n => some (n != 0)
  | .text s => some (s != "" && s != "0")
  | _ => none

/-! ## LIKE -/

/-- The `%` loop: one attempt for each non-empty suffix of the text. A suffix
that starts inside a character cannot be sliced. -/
def trySuffixes (attempt : List UInt8 → Outcome Bool) : List UInt8 → Outcome Bool
  | [] => .ok false
  | b :: bs =>
    if isContinuation b.toNat then .error .panic
    else
      match attempt (b :: bs) with
      | .ok true => .ok true
      | .ok false => trySuffixes attempt bs
      | .error e => .error e

/-- `like_match_impl`, pattern first. -/
def likeMatchImpl : List UInt8 → List UInt8 → Outcome Bool
  | [], text => .ok text.isEmpty
  | p :: ps, text =>
    if p = '%'.toUInt8 then
      if ps.isEmpty then .ok true else trySuffixes (fun suffix => likeMatchImpl ps suffix) text
    else
      match text with
      | [] => .ok false
      | t :: ts => if p = '_'.toUInt8 ∨ t = p then likeMatchImpl ps ts else .ok false

/-- `like_match`. -/
def likeMatch [Host] : Value → Value → Outcome Bool
  | .text text, .text pattern =>
    likeMatchImpl (toUppercase pattern).toUTF8.toList (toUppercase text).toUTF8.toList
  | _, _ => .ok false

/-! ## WHERE -/

section Where

variable [Host] [ExprDebug]

omit [Host] in
/-- `eval_expr`. -/
def evalExpr (columns : List Column) (values : List Value) : Expr → Except String Value
  | .identifier id =>
    .ok <| match columnPosition columns id with
      | some i => values.getD i .null
      | none => .null
  | .value v => .ok (sqlExprToValue (.value v))
  | e => .error s!"Cannot evaluate expression: {debugExpr e}"

omit [Host] in
/-- The comparison and boolean operators of `eval_where`. -/
def evalBinary (op : BinaryOperator) (lv rv : Value) : Except String Bool :=
  match op with
  | .eq => .ok (valuesEqual lv rv)
  | .notEq => .ok (!valuesEqual lv rv)
  | .gt => .ok (valueCmp lv rv == some .gt)
  | .gtEq => .ok (valueCmp lv rv == some .gt || valueCmp lv rv == some .eq)
  | .lt => .ok (valueCmp lv rv == some .lt)
  | .ltEq => .ok (valueCmp lv rv == some .lt || valueCmp lv rv == some .eq)
  | .and =>
    match asBool lv, asBool rv with
    | some lb, some rb => .ok (lb && rb)
    | _, _ => .error "AND needs bool"
  | .or =>
    match asBool lv, asBool rv with
    | some lb, some rb => .ok (lb || rb)
    | _, _ => .error "OR needs bool"
  | .other debug => .error s!"Unsupported operator: {debug}"

/-- `eval_where`. -/
def evalWhere (columns : List Column) (values : List Value) : Expr → Outcome Bool
  | .binaryOp left op right => do
    let lv ← Outcome.ofExcept (evalExpr columns values left)
    let rv ← Outcome.ofExcept (evalExpr columns values right)
    Outcome.ofExcept (evalBinary op lv rv)
  | .like negated expr pattern => do
    let lv ← Outcome.ofExcept (evalExpr columns values expr)
    let rv ← Outcome.ofExcept (evalExpr columns values pattern)
    let result ← likeMatch lv rv
    pure (if negated then !result else result)
  | .isNull expr => do
    let v ← Outcome.ofExcept (evalExpr columns values expr)
    pure (v == .null)
  | .isNotNull expr => do
    let v ← Outcome.ofExcept (evalExpr columns values expr)
    pure (v != .null)
  | .between inner negated low high => do
    let v ← Outcome.ofExcept (evalExpr columns values inner)
    let lv ← Outcome.ofExcept (evalExpr columns values low)
    let hv ← Outcome.ofExcept (evalExpr columns values high)
    let between := match valueCmp v lv, valueCmp v hv with
      | some a, some b => a != .lt && b != .gt
      | _, _ => false
    pure (if negated then !between else between)
  | .inList inner list negated => do
    let v ← Outcome.ofExcept (evalExpr columns values inner)
    let found := list.any fun item =>
      match evalExpr columns values item with
      | .ok iv => valuesEqual v iv
      | .error _ => false
    pure (if negated then !found else found)
  | expr => do
    let v ← Outcome.ofExcept (evalExpr columns values expr)
    pure ((asBool v).getD false)

/-- `eval_where(..).unwrap_or(false)`: an error selects nothing, a panic stays
one. -/
def whereHolds (columns : List Column) (values : List Value) (expr : Expr) : Outcome Bool :=
  match evalWhere columns values expr with
  | .ok b => .ok b
  | .error (.err _) => .ok false
  | .error .panic => .error .panic

/-- A missing WHERE clause selects every row. -/
def rowSelected (columns : List Column) (selection : Option Expr) (row : Row) : Outcome Bool :=
  match selection with
  | some expr => whereHolds columns row.values expr
  | none => .ok true

/-- Filter rows by a WHERE clause. -/
def selectRows (columns : List Column) (selection : Option Expr) :
    List Row → Outcome (List Row)
  | [] => .ok []
  | row :: rows => do
    let keep ← rowSelected columns selection row
    let rest ← selectRows columns selection rows
    pure (if keep then row :: rest else rest)

end Where

/-! ## Equality conditions for index lookup -/

/-- `extract_column_ref`. -/
def extractColumnRef : Expr → Option String
  | .identifier id => some id
  | _ => none

/-- `acc.entry(key).or_insert(val)`. -/
def addCondition (acc : Std.ExtTreeMap String Value) (key : String) (v : Value) :
    Std.ExtTreeMap String Value :=
  acc.insertIfNew key v

/-- `extract_eq_conditions_recursive`. -/
def extractEqConditionsRecursive [Host] (acc : Std.ExtTreeMap String Value) :
    Expr → Std.ExtTreeMap String Value
  | .binaryOp left .and right =>
    extractEqConditionsRecursive (extractEqConditionsRecursive acc left) right
  | .binaryOp left .eq right =>
    match extractColumnRef left, evalConstExpr right with
    | some colName, some val => addCondition acc (toLowercase colName) val
    | _, _ =>
      match extractColumnRef right, evalConstExpr left with
      | some colName, some val => addCondition acc (toLowercase colName) val
      | _, _ => acc
  | _ => acc

/-- `extract_eq_conditions`. -/
def extractEqConditions [Host] (expr : Expr) : Std.ExtTreeMap String Value :=
  extractEqConditionsRecursive ∅ expr

/-! ## Projection, order, limits -/

/-- `find_column`. -/
def findColumn (columns : List Column) (name : String) : Column :=
  (columns.find? fun c => eqIgnoreAsciiCase c.name name).getD (.new name "" .varChar)

/-- The result columns of one projection item, as `execute_query` lists them. -/
def projectColumns (tableColumns : List Column) (tableName : String) : SelectItem → List Column
  | .wildcard => tableColumns
  | .unnamedExpr .wildcard => tableColumns
  | .unnamedExpr (.identifier id) => [findColumn tableColumns id]
  | _ => [.new "?" tableName .varChar]

/-- The values of one projection item. -/
def projectItem (tableColumns : List Column) (values : List Value) : SelectItem → List Value
  | .wildcard => values
  | .unnamedExpr .wildcard => values
  | .unnamedExpr (.identifier id) =>
    match columnPosition tableColumns id with
    | some i => [values.getD i .null]
    | none => [.null]
  | .unnamedExpr (.value _) => [.text "?"]
  | _ => [.null]

/-- `project_row`. -/
def projectRow (projection : List SelectItem) (tableColumns : List Column)
    (values : List Value) : List Value :=
  projection.flatMap (projectItem tableColumns values)

/-- The comparator of `sort_rows` for one ORDER BY column: is `a` not after `b`? -/
def rowNotAfter (idx : Nat) (ascending : Bool) (a b : Row) : Bool :=
  match valueCmp (a.values.getD idx .null) (b.values.getD idx .null) with
  | some .lt => ascending
  | some .gt => !ascending
  | _ => true

/-- `sort_rows`: a stable sort by each key, the last one first. Where a comparator is
no order on the rows, `sort_by` may come to another list, or panic. -/
def sortRows (rows : List Row) (orderBy : List OrderByExpr) (tableColumns : List Column) :
    List Row :=
  orderBy.reverse.foldl (fun rows ob =>
    match ob.expr with
    | .identifier id =>
      match columnPosition tableColumns id with
      | some idx => rows.mergeSort (rowNotAfter idx (ob.asc.getD true))
      | none => rows
    | _ => rows) rows

/-- `limit_value`, and `offset_value`, which is the same function. -/
def limitValue : Expr → Nat
  | .value (.number n) => (parseUsize n).getD 0
  | _ => 0

/-! ## Defaults -/

/-- `parse_default_expr`. -/
def parseDefaultExpr [ExprDebug] : Expr → Option DefaultExpr
  | .value v => some (.value (sqlExprToValue (.value v)))
  | .function name =>
    if eqIgnoreAsciiCase name "now" || eqIgnoreAsciiCase name "current_timestamp" then
      some .currentTimestamp
    else none
  | _ => none

/-- `is_leap`. -/
def isLeap (y : Nat) : Bool := (y % 4 = 0 && y % 100 ≠ 0) || y % 400 = 0

/-- The year loop of `format_timestamp`: days counted from the start of `y`. -/
def yearLoop : Nat → Nat → Nat → Nat × Nat
  | 0, y, d => (y, d)
  | fuel + 1, y, d =>
    let yearDays := if isLeap y then 366 else 365
    if d < yearDays then (y, d) else yearLoop fuel (y + 1) (d - yearDays)

/-- The month loop of `format_timestamp`: month and day index, both from the
month numbered `m`; month 0 when the days run past the year. -/
def monthLoop : List Nat → Nat → Nat → Nat × Nat
  | [], _, d => (0, d)
  | md :: rest, m, d => if d < md then (m, d) else monthLoop rest (m + 1) (d - md)

/-- Decimal digits, zero padded to a width. -/
def padded (width n : Nat) : String :=
  let digits := Nat.repr n
  String.ofList (List.replicate (width - digits.length) '0') ++ digits

/-- The month lengths of a year. -/
def monthDays (y : Nat) : List Nat :=
  [31, if isLeap y then 29 else 28, 31, 30, 31, 30, 31, 31, 30, 31, 30, 31]

/-- `format_timestamp`. A year has at least one day, so the day count bounds
the rounds of the year loop. -/
def formatTimestamp (secs : Nat) : Value :=
  let days := secs / 86400
  let timeSecs := secs % 86400
  let (y, d) := yearLoop days 1970 days
  let (m, dayIndex) := monthLoop (monthDays y) 1 d
  .text (padded 4 y ++ "-" ++ padded 2 m ++ "-" ++ padded 2 (dayIndex + 1) ++ " " ++
    padded 2 (timeSecs / 3600) ++ ":" ++ padded 2 (timeSecs % 3600 / 60) ++ ":" ++
    padded 2 (timeSecs % 60))

/-- `eval_default_expr` at a reading of the clock, in seconds. -/
def evalDefaultExpr (now : Nat) : DefaultExpr → Value
  | .value v => v
  | .currentTimestamp => formatTimestamp now

end Srrdb.Engine

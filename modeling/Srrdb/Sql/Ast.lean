/-
Srrdb.Sql.Ast — the part of the parsed SQL tree the engine looks at.

The tree is produced by the `sqlparser` crate. Each type keeps the variants
and fields the engine matches on and folds the others into one `other`
variant. Identifiers are their text. The crate's derived `Debug` rendering of
an expression, which the engine stores as text for expressions it does not
evaluate, is the parameter `ExprDebug`.
-/
import Srrdb.Runtime

namespace Srrdb.Sql

/-- An object name: its dotted parts. -/
abbrev ObjectName := List String

/-- `name_to_string`. -/
def nameToString (name : ObjectName) : String := ".".intercalate name

/-! ## Expressions -/

/-- `ast::Value`. -/
inductive SqlValue where
  | number (n : String)
  | singleQuotedString (s : String)
  | doubleQuotedString (s : String)
  | boolean (b : Bool)
  | null
  | other
  deriving DecidableEq, Repr

/-- `ast::BinaryOperator`; the operators the engine rejects keep the text of
their `Debug` rendering. -/
inductive BinaryOperator where
  | eq | notEq | gt | gtEq | lt | ltEq | and | or
  | other (debug : String)
  deriving DecidableEq, Repr

/-- `ast::UnaryOperator`. -/
inductive UnaryOperator where
  | minus | plus | not | other
  deriving DecidableEq, Repr

/-- `ast::Expr`. -/
inductive Expr where
  | identifier (id : String)
  | value (v : SqlValue)
  | binaryOp (left : Expr) (op : BinaryOperator) (right : Expr)
  | unaryOp (op : UnaryOperator) (expr : Expr)
  | like (negated : Bool) (expr pattern : Expr)
  | isNull (expr : Expr)
  | isNotNull (expr : Expr)
  | between (expr : Expr) (negated : Bool) (low high : Expr)
  | inList (expr : Expr) (list : List Expr) (negated : Bool)
  | nested (expr : Expr)
  | function (name : String)
  | wildcard
  | other (tag : Nat)

/-- The derived `Debug` rendering of expressions. -/
class ExprDebug where
  debugExpr : Expr → String

export ExprDebug (debugExpr)

/-! ## Queries -/

/-- `ast::OrderByExpr`. -/
structure OrderByExpr where
  expr : Expr
  asc : Option Bool

/-- `ast::SelectItem`. -/
inductive SelectItem where
  | wildcard
  | unnamedExpr (expr : Expr)
  | other

/-- `ast::TableFactor`. -/
inductive TableFactor where
  | table (name : ObjectName)
  | other

/-- `ast::Select`. -/
structure Select where
  projection : List SelectItem
  fromTables : List TableFactor
  selection : Option Expr

/-- `ast::SetExpr`. -/
inductive SetExpr where
  | select (s : Select)
  | values (rows : List (List Expr))
  | other

/-- `ast::OrderByKind`. -/
inductive OrderByKind where
  | expressions (exprs : List OrderByExpr)
  | all

/-- `ast::Query`. -/
structure Query where
  body : SetExpr
  orderBy : Option OrderByKind
  limit : Option Expr
  offset : Option Expr

/-- `table_factor_name`. -/
def tableFactorName : TableFactor → String
  | .table name => nameToString name
  | .other => ""

/-! ## Statements -/

/-- `ast::DataType`. -/
inductive DataType where
  | int | integer | bigInt | smallInt | tinyInt | float | double | text | varchar | char
  | boolean | blob | date | datetime | timestamp | json | other
  deriving DecidableEq, Repr

/-- A token of a dialect-specific column option. -/
inductive Token where
  | autoIncrement
  | other
  deriving DecidableEq, Repr

/-- `ast::ColumnOption`. -/
inductive ColumnOption where
  | dialectSpecific (tokens : List Token)
  | default (expr : Expr)
  | other

/-- `ast::ColumnDef`. -/
structure ColumnDef where
  name : String
  dataType : DataType
  options : List ColumnOption

/-- `ast::CreateTable`. -/
structure CreateTable where
  name : ObjectName
  columns : List ColumnDef
  ifNotExists : Bool

/-- `ast::TableObject`. -/
inductive TableObject where
  | tableName (name : ObjectName)
  | other

/-- `table_object_name`. -/
def tableObjectName : TableObject → String
  | .tableName name => nameToString name
  | .other => ""

/-- `ast::Insert`. -/
structure Insert where
  table : TableObject
  columns : List String
  source : Option Query

/-- `ast::Delete`. -/
structure Delete where
  tables : List ObjectName
  fromTables : List TableFactor
  selection : Option Expr

/-- `ast::AssignmentTarget`. -/
inductive AssignmentTarget where
  | columnName (name : ObjectName)
  | tuple

/-- `ast::Assignment`. -/
structure Assignment where
  target : AssignmentTarget
  value : Expr

/-- `ast::CreateIndex`. -/
structure CreateIndex where
  name : Option ObjectName
  tableName : ObjectName
  using' : Option String
  columns : List OrderByExpr
  unique : Bool

/-- `ast::ObjectType`. -/
inductive ObjectType where
  | table | database | index | other
  deriving DecidableEq, Repr

/-- `ast::Use`. -/
inductive Use where
  | database (name : ObjectName)
  | object (name : ObjectName)
  | other

/-- `ast::Statement`. -/
inductive Statement where
  | createTable (ct : CreateTable)
  | insert (ins : Insert)
  | query (query : Query)
  | delete (del : Delete)
  | update (table : TableFactor) (assignments : List Assignment) (selection : Option Expr)
  | drop (objectType : ObjectType) (names : List ObjectName) (ifExists : Bool)
  | createDatabase (dbName : ObjectName) (ifNotExists : Bool)
  | showDatabases
  | showTables
  | use (stmt : Use)
  | explainTable (tableName : ObjectName)
  | createIndex (ci : CreateIndex)
  | other

end Srrdb.Sql

/-
Srrdb.Engine.WhereClauses — AND and OR over conditions.

A condition is documented when it is a comparison, LIKE, BETWEEN, IN,
IS [NOT] NULL, or AND and OR of such. `eval_where` evaluates one level of it:
the operands of an AND go through `eval_expr`, which knows identifiers and
literals only. No documented condition is one of these, so no AND and no OR of
two of them has a value, whatever the row; a caller then takes the row as not
selected.
-/
import Srrdb.Engine.RowChanges

namespace Srrdb.Engine

open Srrdb.Sql

/-! ## Documented conditions -/

/-- The forms of a WHERE clause that the documentation lists, to any depth. -/
def documented : Expr → Bool
  | .binaryOp _ .eq _ | .binaryOp _ .notEq _ | .binaryOp _ .gt _ | .binaryOp _ .gtEq _
  | .binaryOp _ .lt _ | .binaryOp _ .ltEq _ => true
  | .binaryOp p .and q | .binaryOp p .or q => documented p && documented q
  | .like .. | .isNull _ | .isNotNull _ | .between .. | .inList .. => true
  | _ => false

section Theory

variable [Host] [ExprDebug]

omit [Host] in
/-- A documented condition is no operand. -/
theorem evalExpr_documented {p : Expr} (hp : documented p = true) (columns : List Column)
    (values : List Value) :
    evalExpr columns values p = .error s!"Cannot evaluate expression: {debugExpr p}" := by
  cases p with
  | identifier id => cases hp
  | value v => cases hp
  | _ => rfl

/-! ## AND and OR -/

/-- An operator over a documented condition fails at its left operand. -/
theorem evalWhere_binaryOp {p : Expr} (hp : documented p = true) (op : BinaryOperator) (q : Expr)
    (columns : List Column) (values : List Value) :
    evalWhere columns values (.binaryOp p op q) =
      .error (.err s!"Cannot evaluate expression: {debugExpr p}") := by
  rw [evalWhere, evalExpr_documented hp]
  rfl

/-- An operator over a documented condition selects no row. -/
theorem selects_binaryOp {p : Expr} (hp : documented p = true) (op : BinaryOperator) (q : Expr)
    (columns : List Column) (row : Row) :
    selects columns (some (.binaryOp p op q)) row = false := by
  rw [selects, rowSelected, whereHolds, evalWhere_binaryOp hp]

/-- On a row where both conditions have a value, so has the operator over them:
what `f` makes of the two. -/
def Composes (op : BinaryOperator) (f : Bool → Bool → Bool) (columns : List Column)
    (values : List Value) (p q : Expr) : Prop :=
  ∀ a b, evalWhere columns values p = .ok a → evalWhere columns values q = .ok b →
    evalWhere columns values (.binaryOp p op q) = .ok (f a b)

theorem not_composes_binaryOp {p q : Expr} (hp : documented p = true) {columns : List Column}
    {values : List Value} {a b : Bool} (ha : evalWhere columns values p = .ok a)
    (hb : evalWhere columns values q = .ok b) (op : BinaryOperator) (f : Bool → Bool → Bool) :
    ¬ Composes op f columns values p q := by
  intro h
  have hval := h a b ha hb
  rw [evalWhere_binaryOp hp] at hval
  cases hval

/-- AND and OR are compositional nowhere: not on any row on which the two
conditions have a value. -/
theorem where_not_compositional {p q : Expr} (hp : documented p = true) {columns : List Column}
    {values : List Value} {a b : Bool} (ha : evalWhere columns values p = .ok a)
    (hb : evalWhere columns values q = .ok b) :
    ¬ Composes .and (· && ·) columns values p q ∧ ¬ Composes .or (· || ·) columns values p q :=
  ⟨not_composes_binaryOp hp ha hb .and _, not_composes_binaryOp hp ha hb .or _⟩

end Theory

/-! ## On a row -/

section Concrete

attribute [local instance] asciiHost plainDebug

/-- The columns `a INT, b INT`. -/
def columnsAB : List Column := [.new "a" "t" .long, .new "b" "t" .long]

/-- `a = 1` and `b = 2` on the row (1, 2). -/
theorem bothEqual_not_compositional :
    ¬ Composes .and (· && ·) columnsAB [.int 1, .int 2] (columnIs "a" "1") (columnIs "b" "2") ∧
      ¬ Composes .or (· || ·) columnsAB [.int 1, .int 2] (columnIs "a" "1") (columnIs "b" "2") :=
  where_not_compositional (a := true) (b := true) (by decide) (by decide +kernel) (by decide +kernel)

/-- `a = 1 AND b = 2` has no value on the row (1, 2), on which both sides hold. -/
theorem bothEqual_has_no_value :
    evalWhere columnsAB [.int 1, .int 2] (columnIs "a" "1") = .ok true ∧
      evalWhere columnsAB [.int 1, .int 2] (columnIs "b" "2") = .ok true ∧
      evalWhere columnsAB [.int 1, .int 2]
        (.binaryOp (columnIs "a" "1") .and (columnIs "b" "2")) ≠ .ok true := by
  refine ⟨?_, ?_, ?_⟩ <;> decide +kernel

end Concrete

end Srrdb.Engine

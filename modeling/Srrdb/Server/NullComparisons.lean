/-
Srrdb.Server.NullComparisons — comparisons of a NULL.

A NULL is equal to nothing, ordered with nothing, and matches no pattern. The
negated forms turn that round: `!=`, NOT LIKE, NOT BETWEEN and NOT IN are the
negation of a comparison that failed, so they hold of a NULL, and a DELETE or
UPDATE with one of them takes the row.
-/
import Srrdb.Server.SelectedRows

namespace Srrdb.Server

open Srrdb.Engine Srrdb.Sql Srrdb.Lib

/-! ## The comparisons -/

def BinaryOperator.compares : BinaryOperator → Bool
  | .eq | .notEq | .gt | .gtEq | .lt | .ltEq => true
  | _ => false

/-- The comparisons of a column with literals or with any other expressions. -/
inductive ColumnTest (c : String) : Expr → Prop
  | compare {op : BinaryOperator} (hop : BinaryOperator.compares op = true) (v : Expr) :
      ColumnTest c (.binaryOp (.identifier c) op v)
  | like (negated : Bool) (v : Expr) : ColumnTest c (.like negated (.identifier c) v)
  | between (negated : Bool) (v w : Expr) : ColumnTest c (.between (.identifier c) negated v w)
  | inList (negated : Bool) (list : List Expr) :
      ColumnTest c (.inList (.identifier c) list negated)

/-- The operands that have a value in a WHERE clause. A negative number is an
operator on a literal, and has none. -/
def evaluates : Expr → Bool
  | .value _ | .identifier _ => true
  | _ => false

/-- The negated forms. An operand without a value makes all but NOT IN an error. -/
def selectsNull : Expr → Bool
  | .binaryOp _ .notEq v => evaluates v
  | .like negated _ v => negated && evaluates v
  | .between _ negated v w => negated && evaluates v && evaluates w
  | .inList _ _ negated => negated
  | _ => false

section Theory

variable [Host] [ExprDebug]

/-! ## A NULL in the column -/

omit [Host] [ExprDebug] in
@[simp] theorem valuesEqual_null (v : Value) : valuesEqual .null v = false := by
  cases v <;> rfl

omit [Host] [ExprDebug] in
@[simp] theorem valueCmp_null (v : Value) : valueCmp .null v = none := by
  cases v <;> rfl

omit [ExprDebug] in
@[simp] theorem likeMatch_null (v : Value) : likeMatch .null v = .ok false := by
  cases v <;> rfl

omit [Host] in
theorem evalExpr_null_column {columns : List Column} {values : List Value} {c : String} {j : Nat}
    (hj : columnPosition columns c = some j) (hnull : values[j]? = some .null) :
    evalExpr columns values (.identifier c) = .ok .null := by
  rw [evalExpr, hj]
  simp [List.getD_eq_getElem?_getD, hnull]

omit [Host] in
/-- An operand has a value, or its evaluation fails. -/
theorem evalExpr_operand (columns : List Column) (values : List Value) (v : Expr) :
    (evaluates v = true ∧ ∃ x, evalExpr columns values v = .ok x) ∨
      (evaluates v = false ∧ ∃ msg, evalExpr columns values v = .error msg) := by
  cases v with
  | identifier id => exact .inl ⟨rfl, _, rfl⟩
  | value v => exact .inl ⟨rfl, _, rfl⟩
  | _ => exact .inr ⟨rfl, _, rfl⟩

section Null

variable {columns : List Column} {values : List Value} {left right high : Expr} {x y : Value}
  (hleft : evalExpr columns values left = .ok .null)

include hleft

theorem evalWhere_null_compare {op : BinaryOperator} (hop : BinaryOperator.compares op = true)
    (hright : evalExpr columns values right = .ok x) :
    evalWhere columns values (.binaryOp left op right) = .ok (op == .notEq) := by
  rw [evalWhere, hleft, hright]
  change Outcome.ofExcept (evalBinary op .null x) = _
  cases op <;> first
    | (simp [evalBinary]; done)
    | cases hop

theorem evalWhere_null_like (negated : Bool) (hright : evalExpr columns values right = .ok x) :
    evalWhere columns values (.like negated left right) = .ok negated := by
  rw [evalWhere, hleft, hright]
  change (do let result ← likeMatch .null x; pure (if negated then !result else result)) = _
  rw [likeMatch_null]
  cases negated <;> rfl

theorem evalWhere_null_between (negated : Bool) (hright : evalExpr columns values right = .ok x)
    (hhigh : evalExpr columns values high = .ok y) :
    evalWhere columns values (.between left negated right high) = .ok negated := by
  rw [evalWhere, hleft, hright, hhigh]
  simp only [Outcome.ofExcept_ok]
  cases negated <;> rfl

theorem evalWhere_null_inList (negated : Bool) (list : List Expr) :
    evalWhere columns values (.inList left list negated) = .ok negated := by
  have hfound : ∀ f : Expr → Bool, (∀ item, f item = false) →
      (pure (if negated then !list.any f else list.any f) : Outcome Bool) = .ok negated := by
    intro f hf
    have hany : list.any f = false := List.any_eq_false.mpr fun item _ => by simp [hf]
    rw [hany]
    cases negated <;> rfl
  rw [evalWhere, hleft]
  refine hfound _ fun item => ?_
  split <;> simp

end Null

/-- On a NULL a comparison holds exactly when it is one of the negated forms. -/
theorem evalWhere_null_iff {columns : List Column} {values : List Value} {c : String} {p : Expr}
    (hp : ColumnTest c p) (hc : evalExpr columns values (.identifier c) = .ok .null) :
    evalWhere columns values p = .ok true ↔ selectsNull p = true := by
  cases hp with
  | @compare op hop v =>
    rcases evalExpr_operand columns values v with ⟨hval, x, hx⟩ | ⟨hval, msg, hmsg⟩
    · rw [evalWhere_null_compare hc hop hx]
      cases op <;> simp [selectsNull, hval]
    · rw [evalWhere, hc, hmsg]
      refine iff_of_false (fun h => by cases h) ?_
      cases op <;> simp [selectsNull, hval]
  | like negated v =>
    rcases evalExpr_operand columns values v with ⟨hval, x, hx⟩ | ⟨hval, msg, hmsg⟩
    · rw [evalWhere_null_like hc negated hx]
      simp [selectsNull, hval]
    · rw [evalWhere, hc, hmsg]
      exact iff_of_false (fun h => by cases h) (by simp [selectsNull, hval])
  | between negated v w =>
    rcases evalExpr_operand columns values v with ⟨hval, x, hx⟩ | ⟨hval, msg, hmsg⟩
    · rcases evalExpr_operand columns values w with ⟨hval', y, hy⟩ | ⟨hval', msg, hmsg⟩
      · rw [evalWhere_null_between hc negated hx hy]
        simp [selectsNull, hval, hval']
      · rw [evalWhere, hc, hx, hmsg]
        exact iff_of_false (fun h => by cases h) (by simp [selectsNull, hval'])
    · rw [evalWhere, hc, hmsg]
      exact iff_of_false (fun h => by cases h) (by simp [selectsNull, hval])
  | inList negated list =>
    rw [evalWhere_null_inList hc]
    simp [selectsNull]

/-! ## Selecting nothing -/

variable [Bincode]

/-- No UPDATE or DELETE with this WHERE clause touches the row, wherever it is
stored. -/
def Untouched (columns : List Column) (row : Row) (p : Expr) : Prop :=
  ∀ (e : Executor) (env : Env) (db tableName : String) (tableDef : TableDef) (t : Table) (id : Nat),
    e.catalog.value.getTable db tableName = .ok tableDef → tableDef.columns = columns →
    e.storage.value.getTable? tableName = some t → t[id]? = some row →
    (∀ del, deleteTable del = tableName → del.selection = some p →
      ∃ t', (e.after ⟨env, db, .delete del⟩).storage.value.getTable? tableName = some t' ∧
        t'[id]? = some row) ∧
    ∀ table assignments, tableFactorName table = tableName →
      ∃ t', (e.after ⟨env, db, .update table assignments (some p)⟩).storage.value.getTable?
        tableName = some t' ∧ t'[id]? = some row

theorem untouched_of_evalWhere {columns : List Column} {row : Row} {p : Expr}
    (h : evalWhere columns row.values p ≠ .ok true) : Untouched columns row p := by
  intro e env db tableName tableDef t id hdef hcols ht hrow
  have hun : ∀ tableDef', e.catalog.value.getTable db tableName = .ok tableDef' →
      ¬ Selected tableDef'.columns (some p) row.values := by
    intro tableDef' hdef' hsel
    rw [hdef] at hdef'
    cases hdef'
    rw [hcols] at hsel
    exact h (hsel p rfl)
  exact ⟨fun del hname hsel => delete_keeps_unselected ht hrow hun env hname hsel,
    fun table assignments hname => update_keeps_unselected ht hrow hun env hname assignments⟩

/-- A comparison of a NULL column selects nothing exactly when it
is none of the negated forms. -/
theorem null_selected_iff {columns : List Column} (row : Row) {c : String} {p : Expr} {j : Nat}
    (hp : ColumnTest c p) (hj : columnPosition columns c = some j)
    (hnull : row.values[j]? = some .null) :
    (evalWhere columns row.values p ≠ .ok true ∧ Untouched columns row p) ↔
      selectsNull p = false := by
  rw [← Bool.not_eq_true, ← evalWhere_null_iff hp (evalExpr_null_column hj hnull)]
  exact ⟨fun h => h.1, fun h => ⟨h, untouched_of_evalWhere h⟩⟩

end Theory

section Concrete

attribute [local instance] asciiHost plainDebug bincode1

/-- `c != n`. -/
def columnIsNot (col n : String) : Expr := .binaryOp (.identifier col) .notEq (numberExpr n)

/-- `CREATE TABLE t (a INT)` and the row (NULL). -/
def nullRow : Executor :=
  ((Executor.ofMemory .new none).after (callIn "srrdb" (intTable "t" ["a"]))).after
    (callIn "srrdb" (.insert ⟨.tableName ["t"], [],
      some ⟨.values [[.value .null]], none, none, none⟩⟩))

def nullRowColumns : List Column := [.new "a" "t" .long]

/-- `a != 1` holds of the row (NULL), and `DELETE FROM t WHERE a != 1` takes it. -/
theorem notEqual_takes_null :
    ¬ (evalWhere nullRowColumns [.null] (columnIsNot "a" "1") ≠ .ok true ∧
        Untouched nullRowColumns ⟨1, [.null]⟩ (columnIsNot "a" "1")) ∧
      nullRow.storage.value.getRows "t" = [⟨1, [.null]⟩] ∧
      (nullRow.after (callIn "srrdb"
        (deleteFrom "t" (some (columnIsNot "a" "1"))))).storage.value.getRows "t" = [] :=
  ⟨fun h => h.1 (by decide +kernel), by decide +kernel, by decide +kernel⟩

/-- `a = 1` does not hold of it. -/
theorem equal_leaves_null :
    (evalWhere nullRowColumns [.null] (columnIs "a" "1") ≠ .ok true ∧
        Untouched nullRowColumns ⟨1, [.null]⟩ (columnIs "a" "1")) ↔
      selectsNull (columnIs "a" "1") = false := by
  have hj : columnPosition nullRowColumns "a" = some 0 := by decide
  exact null_selected_iff ⟨1, [.null]⟩ (.compare rfl _) hj rfl

end Concrete

end Srrdb.Server

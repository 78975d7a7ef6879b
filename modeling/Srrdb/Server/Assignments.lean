/-
Srrdb.Server.Assignments — the values UPDATE assigns.

An assignment may have any expression on its right. UPDATE converts it with
`sql_expr_to_value`, which does not look at the row and knows plain literals
only: of a column, a sum or any other expression it stores the rendering of
the syntax tree. `update_evaluates_iff` says when the values stored are those
of the expressions.
-/
import Srrdb.Engine.Literals
import Srrdb.Server.SelectedRows

namespace Srrdb.Server

open Srrdb.Engine Srrdb.Sql Srrdb.Lib

section Theory

variable [Host] [ExprDebug]

/-! ## Evaluation on a row -/

omit [Host] in
/-- A meaning of expressions on the values of a row. It gives plain literals
their values and columns the values of the row; the rest is open. -/
structure Evaluation where
  eval : List Column → List Value → Expr → Value
  plain : ∀ columns values expr, plainLiteral expr = true →
    eval columns values expr = sqlExprToValue expr
  column : ∀ columns values id j, columnPosition columns id = some j →
    eval columns values (.identifier id) = values.getD j .null

variable [Bincode]

/-- An UPDATE is refused and nothing changes, or every assigned column of every
selected row holds the value of its expression on the row, and not a rendering
of the expression. -/
def UpdateEvaluates (v : Evaluation) (e : Executor) (env : Env) (db : String)
    (table : TableFactor) (assignments : List Assignment) (selection : Option Expr) : Prop :=
  let call : Call := ⟨env, db, .update table assignments selection⟩
  (∃ msg, call.result e = failed msg ∧ e.after call = e) ∨
    ∃ (n : Nat) (tableDef : TableDef) (t t' : Table),
      call.result e = .ok (.affected n 0) ∧
        e.catalog.value.getTable db (tableFactorName table) = .ok tableDef ∧
        e.storage.value.getTable? (tableFactorName table) = some t ∧
        (e.after call).storage.value.getTable? (tableFactorName table) = some t' ∧
        ∀ (id : Nat) (row : Row), t[id]? = some row →
          Selected tableDef.columns selection row.values → ∃ row', t'[id]? = some row' ∧
            ∀ j expr, lastAssigned tableDef.columns assignments j = some expr →
              row'.values[j]? = some (v.eval tableDef.columns row.values expr) ∧
                row'.values[j]? ≠ some (.text (debugExpr expr))

omit [Bincode] in
/-- If the UPDATE reaches the rows, its WHERE clause panics on none of them, and
on each row it selects every assignment is of a plain literal to a column the
row has. -/
def AssignsLiterals (e : Executor) (db tableName : String) (assignments : List Assignment)
    (selection : Option Expr) : Prop :=
  ∀ tableDef t, TableReady e db tableName tableDef t →
    (∀ a ∈ assignments, (targetPosition tableDef.columns a).isSome) →
    Evaluates tableDef.columns selection t ∧
      ∀ (id : Nat) (row : Row), t[id]? = some row →
        Selected tableDef.columns selection row.values →
        ∀ j expr, lastAssigned tableDef.columns assignments j = some expr →
          j < row.values.length ∧ plainLiteral expr = true

/-! ## The ways UPDATE ends -/

omit [ExprDebug] [Bincode] in
theorem TableReady.unique {e : Executor} {db tableName : String} {tableDef tableDef' : TableDef}
    {t t' : Table} (h : TableReady e db tableName tableDef t)
    (h' : TableReady e db tableName tableDef' t') :
    tableDef' = tableDef ∧ t' = t :=
  ⟨Except.ok.inj (h'.defined.symm.trans h.defined), Option.some.inj (h'.stored.symm.trans h.stored)⟩

/-- An UPDATE is refused before it reaches the rows, panics in its WHERE clause,
or assigns to the selected rows. -/
theorem update_cases (e : Executor) (env : Env) (db : String) (table : TableFactor)
    (assignments : List Assignment) (selection : Option Expr) :
    let call : Call := ⟨env, db, .update table assignments selection⟩
    ((∃ msg, call.result e = failed msg ∧ e.after call = e) ∧
      ∀ tableDef t, TableReady e db (tableFactorName table) tableDef t →
        ¬ ∀ a ∈ assignments, (targetPosition tableDef.columns a).isSome) ∨
    (∃ tableDef t, TableReady e db (tableFactorName table) tableDef t ∧
      (∀ a ∈ assignments, (targetPosition tableDef.columns a).isSome) ∧
      ¬ Evaluates tableDef.columns selection t ∧ call.result e = .error .panic) ∨
    ∃ tableDef t assigns rows, TableReady e db (tableFactorName table) tableDef t ∧
      assignments.mapM (assignIndex tableDef.columns) = .ok assigns ∧
      selectRows tableDef.columns selection t.entries = .ok rows := by
  intro call
  have hout := executeUpdate_outcome env db (tableFactorName table) assignments selection e
  have hresult : call.result e =
      ((executeUpdate env db (tableFactorName table) assignments selection).run e).1 := rfl
  have hafter : e.after call =
      ((executeUpdate env db (tableFactorName table) assignments selection).run e).2 := rfl
  rw [hresult, hafter]
  generalize ((executeUpdate env db (tableFactorName table) assignments selection).run e).1 = r,
    ((executeUpdate env db (tableFactorName table) assignments selection).run e).2 = e' at hout ⊢
  cases hout with
  | locked hc =>
    exact .inl ⟨⟨_, rfl, rfl⟩, fun _ _ h => by rw [h.catalog] at hc; cases hc⟩
  | noTable _ hdef =>
    exact .inl ⟨⟨_, rfl, rfl⟩, fun _ _ h => by rw [h.defined] at hdef; cases hdef⟩
  | badAssignment _ hdef ha =>
    refine .inl ⟨⟨_, rfl, rfl⟩, fun _ _ h hknown => ?_⟩
    rw [h.defined] at hdef
    cases hdef
    obtain ⟨assigns, hassigns⟩ := exists_assigns_iff.mpr hknown
    rw [hassigns] at ha
    cases ha
  | @ran tableDef assigns _ _ hc hdef ha hch =>
    cases hch with
    | locked hst =>
      exact .inl ⟨⟨_, rfl, rfl⟩, fun _ _ h => by rw [h.storage] at hst; cases hst⟩
    | noEntry _ ht =>
      exact .inl ⟨⟨_, rfl, rfl⟩, fun _ _ h => by rw [h.stored] at ht; cases ht⟩
    | @panicked t hst ht hsel =>
      refine .inr (.inl ⟨tableDef, t, ⟨hc, hst, hdef, ht⟩, exists_assigns_iff.mp ⟨_, ha⟩,
        fun heval => ?_, rfl⟩)
      obtain ⟨rows, hrows⟩ := selectRows_total_iff.mpr heval
      rw [hrows] at hsel
      cases hsel
    | @changed t rows hst ht hsel =>
      exact .inr (.inr ⟨tableDef, t, assigns, rows, ⟨hc, hst, hdef, ht⟩, ha, hsel⟩)

/-! ## What is stored -/

omit [Host] [Bincode] in
/-- A column the row has gets the value of its expression exactly when that is
a plain literal. -/
theorem stored_value_iff (hdebug : RendersNodes) (v : Evaluation) {columns : List Column}
    {values : List Value} {expr : Expr} {j : Nat} :
    ((values[j]?.map fun _ => sqlExprToValue expr) = some (v.eval columns values expr) ∧
        (values[j]?.map fun _ => sqlExprToValue expr) ≠ some (.text (debugExpr expr))) ↔
      j < values.length ∧ plainLiteral expr = true := by
  by_cases hj : j < values.length
  · rw [List.getElem?_eq_getElem hj, Option.map_some, Option.some_inj, ne_eq, Option.some_inj]
    cases hplain : plainLiteral expr with
    | true =>
      exact iff_of_true ⟨(v.plain columns values expr hplain).symm, hdebug.sqlExprToValue_ne hplain⟩
        ⟨hj, rfl⟩
    | false =>
      refine iff_of_false (fun h => h.2 (sqlExprToValue_of_not_plain hplain)) fun h => ?_
      cases h.2
  · rw [List.getElem?_eq_none (Nat.le_of_not_lt hj)]
    exact iff_of_false (fun h => by cases h.1) fun h => hj h.1

/-- UPDATE stores the values of its expressions exactly when they are plain
literals, to columns the selected rows have. -/
theorem update_evaluates_iff (hdebug : RendersNodes) (v : Evaluation) (e : Executor) (env : Env)
    (db : String) (table : TableFactor) (assignments : List Assignment)
    (selection : Option Expr) :
    UpdateEvaluates v e env db table assignments selection ↔
      AssignsLiterals e db (tableFactorName table) assignments selection := by
  rcases update_cases e env db table assignments selection with
    ⟨hfailed, hunready⟩ | ⟨tableDef, t, h, hknown, heval, hpanic⟩ |
    ⟨tableDef, t, assigns, rows, h, hassigns, hrows⟩
  · exact iff_of_true (.inl hfailed) fun tableDef t h hknown =>
      absurd hknown (hunready tableDef t h)
  · refine iff_of_false ?_ fun hlit => heval (hlit tableDef t h hknown).1
    rintro (⟨msg, hmsg, -⟩ | ⟨n, _, _, _, hok, -⟩)
    · rw [hpanic] at hmsg; cases hmsg
    · rw [hpanic] at hok; cases hok
  · obtain ⟨hresult, hreplaced⟩ := update_of_ready h hrows env rfl hassigns
    constructor
    · rintro (⟨msg, hmsg, -⟩ | ⟨n, tableDef', t₁, t', -, hdef, ht, ht', hall⟩)
      · rw [hresult] at hmsg; cases hmsg
      · intro tableDef₂ t₂ h₂ _
        obtain ⟨rfl, rfl⟩ := h.unique h₂
        refine ⟨selectRows_total_iff.mp ⟨rows, hrows⟩, fun id row hrow hsel j expr hlast => ?_⟩
        rw [h.defined] at hdef
        rw [h.stored] at ht
        rw [hreplaced.table] at ht'
        cases hdef
        cases ht
        cases ht'
        obtain ⟨row', hrow', hvalues⟩ := hall id row hrow hsel
        rw [getElem?_assignRows_of_selected hrows assigns hrow hsel] at hrow'
        cases hrow'
        have hvalue := hvalues j expr hlast
        rw [getElem?_assignValues hassigns, hlast] at hvalue
        exact (stored_value_iff hdebug v).mp hvalue
    · intro hlit
      obtain ⟨-, hlit⟩ := hlit tableDef t h (exists_assigns_iff.mp ⟨assigns, hassigns⟩)
      refine .inr ⟨_, tableDef, t, _, hresult, h.defined, h.stored, hreplaced.table,
        fun id row hrow hsel => ⟨{ row with values := assignValues assigns row.values }, ?_,
          fun j expr hlast => ?_⟩⟩
      · exact getElem?_assignRows_of_selected hrows assigns hrow hsel
      · rw [getElem?_assignValues hassigns, hlast]
        exact (stored_value_iff hdebug v).mpr (hlit id row hrow hsel j expr hlast)

end Theory

section Concrete

attribute [local instance] asciiHost nodeDebug bincode1

/-- An evaluation that knows no operators. -/
def columnsAndLiterals : Evaluation where
  eval columns values expr := match expr with
    | .identifier id => ((columnPosition columns id).map fun j => values.getD j .null).getD .null
    | expr => sqlExprToValue expr
  plain _ _ expr h := by
    cases expr <;> first | rfl | cases h
  column _ _ id j h := by simp [h]

/-- `UPDATE t SET a = b` stores a rendering of the column reference. -/
theorem columnAssigned_not_evaluated :
    ¬ UpdateEvaluates columnsAndLiterals twoRows plainEnv "srrdb" (.table ["t"])
        [⟨.columnName ["a"], .identifier "b"⟩] none ∧
      (twoRows.after (callIn "srrdb" (.update (.table ["t"])
          [⟨.columnName ["a"], .identifier "b"⟩] none))).storage.value.getRows "t" =
        [⟨1, [.text "Identifier(b)", .int 10]⟩, ⟨2, [.text "Identifier(b)", .int 20]⟩] := by
  refine ⟨?_, by decide +kernel⟩
  have hresult : (callIn "srrdb" (.update (.table ["t"])
      [⟨.columnName ["a"], .identifier "b"⟩] none)).result twoRows = .ok (.affected 2 0) := by
    decide +kernel
  have hrow : ((twoRows.storage.value.getTable? "t").bind fun t => t[1]?) =
      some ⟨1, [.int 1, .int 10]⟩ := by decide +kernel
  have hrow' : (((twoRows.after (callIn "srrdb" (.update (.table ["t"])
      [⟨.columnName ["a"], .identifier "b"⟩] none))).storage.value.getTable? "t").bind
        fun t => t[1]?) = some ⟨1, [.text "Identifier(b)", .int 10]⟩ := by decide +kernel
  rintro (⟨msg, hmsg, -⟩ | ⟨n, tableDef, t, t', -, hdef, ht, ht', hall⟩)
  · exact absurd (hresult.symm.trans hmsg) (by simp)
  · obtain rfl : tableDef = twoRowsDef :=
      Except.ok.inj (hdef.symm.trans (by decide +kernel))
    have hmem : t[1]? = some ⟨1, [.int 1, .int 10]⟩ := by
      rw [show tableFactorName (.table ["t"]) = "t" from rfl] at ht
      rw [ht] at hrow
      exact hrow
    have hmem' : t'[1]? = some ⟨1, [.text "Identifier(b)", .int 10]⟩ := by
      rw [← hrow']
      exact (congrArg (Option.bind · fun t => t[1]?) ht').symm
    obtain ⟨row', hget, hvalues⟩ := hall 1 _ hmem fun p hp => by cases hp
    cases hmem'.symm.trans hget
    exact (hvalues 0 (.identifier "b") rfl).2 rfl

/-- `UPDATE t SET b = 7 WHERE a = 1` stores the number. -/
theorem numberAssigned_evaluated :
    UpdateEvaluates columnsAndLiterals twoRows plainEnv "srrdb" (.table ["t"])
      [⟨.columnName ["b"], numberExpr "7"⟩] (some (columnIs "a" "1")) := by
  refine (update_evaluates_iff rendersNodes_nodeDebug _ _ _ _ _ _ _).mpr ?_
  intro tableDef t h _
  obtain ⟨t₀, hready, rfl⟩ := twoRows_ready
  obtain ⟨rfl, rfl⟩ := hready.unique h
  have hrows : ∀ p ∈ (twoRows.storage.value.table "t").toList, p.2.values.length = 2 ∧
      evalWhere twoRowsDef.columns p.2.values (columnIs "a" "1") ≠ .error .panic := by
    decide +kernel
  refine ⟨fun p hp id row hrow => ?_, fun id row hrow _ j expr hlast => ?_⟩
  · cases hp
    exact (hrows (id, row) (OrdMap.mem_toList.mpr hrow)).2
  · have hlt : j < 2 := lastAssigned_lt hlast
    refine ⟨by rwa [(hrows (id, row) (OrdMap.mem_toList.mpr hrow)).1], ?_⟩
    obtain rfl | rfl : j = 0 ∨ j = 1 := by omega
    · cases hlast
    · cases hlast
      rfl

end Concrete

end Srrdb.Server

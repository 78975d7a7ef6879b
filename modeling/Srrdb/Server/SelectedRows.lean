/-
Srrdb.Server.SelectedRows — which rows DELETE and UPDATE touch.

Both collect the rows their WHERE clause holds of, take these out of the
indexes, change them and log what is left. The passes go by row id, and every
row stored is collected under the id it is stored at. So the change reaches
exactly the rows that were selected, whatever the passes do to the index data
on the way: DELETE removes them, UPDATE puts the assigned values in them.
-/
import Srrdb.Engine.RowChanges

namespace Srrdb.Server

open Srrdb.Engine Srrdb.Sql Srrdb.Lib

section Theory

variable [Host]

/-! ## The entries of a table -/

omit [Host] in
/-- An entry has the id a row is stored at and the values of the row. -/
theorem mem_entries {t : Table} {entry : Row} :
    entry ∈ t.entries ↔ ∃ row, t[entry.id]? = some row ∧ entry.values = row.values := by
  rw [Table.entries, List.mem_map]
  constructor
  · rintro ⟨⟨id, row⟩, hmem, rfl⟩
    exact ⟨row, OrdMap.mem_toList.mp hmem, rfl⟩
  · rintro ⟨row, hrow, hvalues⟩
    exact ⟨(entry.id, row), OrdMap.mem_toList.mpr hrow, by rw [← hvalues]⟩

omit [Host] in
theorem nodup_entries (t : Table) : (t.entries.map (·.id)).Nodup := by
  rw [Table.entries, List.map_map, List.nodup_iff_pairwise_ne, List.pairwise_map]
  exact OrdMap.pairwise_ne_toList t

variable [ExprDebug]

/-- The statement is about the row: it has no WHERE clause, or one that holds. -/
def Selected (columns : List Column) (selection : Option Expr) (values : List Value) : Prop :=
  ∀ p, selection = some p → evalWhere columns values p = .ok true

theorem selects_eq_true_iff {columns : List Column} {selection : Option Expr} {row : Row} :
    selects columns selection row = true ↔ Selected columns selection row.values := by
  cases selection with
  | none => exact iff_of_true rfl fun p hp => by cases hp
  | some p =>
    rw [selects_iff]
    exact ⟨fun h q hq => by cases hq; exact h, fun h => h p rfl⟩

instance (columns : List Column) (selection : Option Expr) (values : List Value) :
    Decidable (Selected columns selection values) :=
  decidable_of_iff (selects columns selection ⟨0, values⟩ = true) selects_eq_true_iff

theorem selects_eq_decide (columns : List Column) (selection : Option Expr) :
    selects columns selection = fun row => decide (Selected columns selection row.values) := by
  funext row
  rw [Bool.eq_iff_iff, selects_eq_true_iff, decide_eq_true_iff]

/-- Only the values of a row decide whether it is selected. -/
theorem countP_entries (columns : List Column) (selection : Option Expr) (t : Table) :
    (t.entries.filter (selects columns selection)).length =
      t.rows.countP (selects columns selection) := by
  rw [← List.countP_eq_length_filter, Table.entries, Table.rows, List.countP_map, List.countP_map]
  rfl

section Rewritten

variable {columns : List Column} {selection : Option Expr} {t : Table} {rows : List Row}
  (hrows : selectRows columns selection t.entries = .ok rows)

include hrows

theorem id_mem_rows {id : Nat} {row : Row} (hrow : t[id]? = some row) :
    id ∈ rows.map (·.id) ↔ selects columns selection row = true := by
  rw [selectRows_eq_filter hrows, List.mem_map]
  constructor
  · rintro ⟨entry, hentry, rfl⟩
    obtain ⟨hmem, hsel⟩ := List.mem_filter.mp hentry
    obtain ⟨row', hrow', hvalues⟩ := mem_entries.mp hmem
    rw [hrow] at hrow'
    cases hrow'
    rw [selects_eq_true_iff, hvalues] at hsel
    exact selects_eq_true_iff.mpr hsel
  · intro hsel
    refine ⟨⟨id, row.values⟩, List.mem_filter.mpr ⟨mem_entries.mpr ⟨row, hrow, rfl⟩, ?_⟩, rfl⟩
    exact selects_eq_true_iff.mpr (selects_eq_true_iff.mp hsel)

theorem nodup_rows : (rows.map (·.id)).Nodup := by
  rw [selectRows_eq_filter hrows]
  exact (nodup_entries t).sublist (List.filter_sublist.map _)

/-- DELETE removes the selected rows. -/
theorem getElem?_eraseRows_selected (id : Nat) :
    (eraseRows rows t)[id]? = t[id]?.filter fun row => !selects columns selection row := by
  rw [eraseRows, Table.getElem?_eraseRows]
  cases hrow : t[id]? with
  | none => simp
  | some row =>
    have hid := id_mem_rows hrows hrow
    by_cases hmem : id ∈ rows.map (·.id)
    · rw [if_pos hmem, Option.filter_some, if_neg (by simp [hid.mp hmem])]
    · rw [if_neg hmem, Option.filter_some, if_pos (by simpa using mt hid.mpr hmem)]

/-- UPDATE assigns to the selected rows. -/
theorem getElem?_assignRows_selected (assigns : List (Nat × Expr)) (id : Nat) :
    (assignRows assigns rows t)[id]? = t[id]?.map fun row =>
      if selects columns selection row then
        { row with values := assignValues assigns row.values }
      else row := by
  by_cases hid : id ∈ rows.map (·.id)
  · obtain ⟨entry, hentry, rfl⟩ := List.mem_map.mp hid
    let write : Row → Row := fun row => { row with values := assignValues assigns row.values }
    have hnd : ((rows.map write).map (·.id)).Nodup := by
      rw [List.map_map]
      exact nodup_rows hrows
    have hw := Table.getElem?_writeRows_of_mem hnd (List.mem_map_of_mem hentry) t
    have hmem : entry ∈ t.entries := by
      rw [selectRows_eq_filter hrows] at hentry
      exact (List.mem_filter.mp hentry).1
    obtain ⟨row, hrow, hvalues⟩ := mem_entries.mp hmem
    have hsel := (id_mem_rows hrows hrow).mp hid
    rw [assignRows, hw, hrow, Option.map_some, Option.map_some, if_pos hsel, ← hvalues]
  · rw [getElem?_assignRows_of_notMem assigns t hid]
    cases hrow : t[id]? with
    | none => rfl
    | some row =>
      rw [id_mem_rows hrows hrow] at hid
      rw [Option.map_some, if_neg hid]

theorem getElem?_assignRows_of_selected (assigns : List (Nat × Expr)) {id : Nat} {row : Row}
    (hrow : t[id]? = some row) (hsel : Selected columns selection row.values) :
    (assignRows assigns rows t)[id]? =
      some { row with values := assignValues assigns row.values } := by
  rw [getElem?_assignRows_selected hrows, hrow, Option.map_some,
    if_pos (selects_eq_true_iff.mpr hsel)]

end Rewritten

/-! ## Panics -/

/-- The WHERE clause of the statement panics on no row of the table. -/
def Evaluates (columns : List Column) (selection : Option Expr) (t : Table) : Prop :=
  ∀ p, selection = some p → ∀ (id : Nat) (row : Row), t[id]? = some row →
    evalWhere columns row.values p ≠ .error .panic

theorem rowSelected_panic_iff {columns : List Column} {selection : Option Expr} {row : Row} :
    rowSelected columns selection row = .error .panic ↔
      ∃ p, selection = some p ∧ evalWhere columns row.values p = .error .panic := by
  cases selection with
  | none => simp [rowSelected]
  | some p =>
    have hex : (∃ q, some p = some q ∧ evalWhere columns row.values q = .error .panic) ↔
        evalWhere columns row.values p = .error .panic := by
      constructor
      · rintro ⟨q, hq, h⟩
        cases hq
        exact h
      · exact fun h => ⟨p, rfl, h⟩
    rw [hex, rowSelected, whereHolds]
    rcases evalWhere columns row.values p with (_ | msg) | b <;> simp

theorem selectRows_panic_iff {columns : List Column} {selection : Option Expr} {rows : List Row} :
    selectRows columns selection rows = .error .panic ↔
      ∃ row ∈ rows, rowSelected columns selection row = .error .panic := by
  induction rows with
  | nil => simp [selectRows]
  | cons row rest ih =>
    rw [selectRows, List.exists_mem_cons_iff]
    cases hrow : rowSelected columns selection row with
    | error x =>
      have hpanic : selectRows columns selection [row] = .error x := by rw [selectRows, hrow]; rfl
      obtain rfl : x = .panic := selectRows_error hpanic
      exact iff_of_true rfl (.inl rfl)
    | ok keep =>
      cases hrest : selectRows columns selection rest with
      | error x =>
        obtain rfl : x = .panic := selectRows_error hrest
        exact iff_of_true rfl (.inr (ih.mp hrest))
      | ok others =>
        rw [hrest] at ih
        refine iff_of_false (fun h => by cases h) ?_
        rintro (h | h)
        · cases h
        · exact absurd (ih.mpr h) (by simp)

/-- The rows of a table are collected exactly when its WHERE clause panics on
none of them. -/
theorem selectRows_total_iff {columns : List Column} {selection : Option Expr} {t : Table} :
    (∃ rows, selectRows columns selection t.entries = .ok rows) ↔
      Evaluates columns selection t := by
  have hpanic : selectRows columns selection t.entries ≠ .error .panic ↔
      Evaluates columns selection t := by
    rw [ne_eq, selectRows_panic_iff, Evaluates]
    constructor
    · rintro h p rfl id row hrow hp
      exact h ⟨⟨id, row.values⟩, mem_entries.mpr ⟨row, hrow, rfl⟩,
        rowSelected_panic_iff.mpr ⟨p, rfl, hp⟩⟩
    · rintro h ⟨entry, hentry, hsel⟩
      obtain ⟨row, hrow, hvalues⟩ := mem_entries.mp hentry
      obtain ⟨p, hp, heval⟩ := rowSelected_panic_iff.mp hsel
      rw [hvalues] at heval
      exact h p hp _ row hrow heval
  rw [← hpanic]
  cases hsel : selectRows columns selection t.entries with
  | ok rows => simp
  | error x =>
    obtain rfl : x = .panic := selectRows_error hsel
    simp

/-! ## Assignments -/

omit [Host] [ExprDebug] in
/-- The column an assignment names. -/
def targetPosition (columns : List Column) (a : Assignment) : Option Nat :=
  match a.target with
  | .columnName name => columnPosition columns (nameToString name)
  | .tuple => none

omit [Host] [ExprDebug] in
/-- The expression of the last assignment to a column. -/
def lastAssigned (columns : List Column) (assignments : List Assignment) (j : Nat) :
    Option Expr :=
  (assignments.findRev? fun a => targetPosition columns a == some j).map (·.value)

omit [Host] [ExprDebug] in
theorem assignIndex_ok_iff {columns : List Column} {a : Assignment} {pair : Nat × Expr} :
    assignIndex columns a = .ok pair ↔
      targetPosition columns a = some pair.1 ∧ a.value = pair.2 := by
  obtain ⟨j, value⟩ := pair
  rw [assignIndex, targetPosition]
  cases a.target with
  | tuple => simp
  | columnName name => cases hpos : columnPosition columns (nameToString name) <;> simp [hpos]

omit [Host] [ExprDebug] in
/-- UPDATE gets past its assignments when each names a column of the table. -/
theorem exists_assigns_iff {columns : List Column} {assignments : List Assignment} :
    (∃ assigns, assignments.mapM (assignIndex columns) = .ok assigns) ↔
      ∀ a ∈ assignments, (targetPosition columns a).isSome := by
  rw [exists_mapM_iff]
  refine forall₂_congr fun a _ => ?_
  rw [Option.isSome_iff_exists]
  constructor
  · rintro ⟨pair, h⟩
    exact ⟨pair.1, (assignIndex_ok_iff.mp h).1⟩
  · rintro ⟨j, h⟩
    exact ⟨(j, a.value), assignIndex_ok_iff.mpr ⟨h, rfl⟩⟩

omit [Host] in
/-- UPDATE puts into a column what the last assignment to it says. -/
theorem getElem?_assignValues {columns : List Column} {assignments : List Assignment}
    {assigns : List (Nat × Expr)} (h : assignments.mapM (assignIndex columns) = .ok assigns)
    (values : List Value) (j : Nat) :
    (assignValues assigns values)[j]? = values[j]?.map fun v =>
      ((lastAssigned columns assignments j).map sqlExprToValue).getD v := by
  have hpairs := mapM_eq_ok_iff.mp h
  clear h
  induction hpairs generalizing values with
  | nil => simp [assignValues, lastAssigned, List.findRev?]
  | @cons a pair rest pairs ha _ ih =>
    obtain ⟨htarget, hvalue⟩ := assignIndex_ok_iff.mp ha
    have hstep : assignValues (pair :: pairs) values =
        assignValues pairs (values.set pair.1 (sqlExprToValue pair.2)) := rfl
    rw [hstep, ih, lastAssigned, lastAssigned, List.findRev?, List.getElem?_set']
    cases hlast : rest.findRev? fun a => targetPosition columns a == some j with
    | some b => by_cases hj : pair.1 = j <;> simp [hj, Function.const_def]
    | none => by_cases hj : pair.1 = j <;> simp [htarget, hvalue, hj, Function.const_def]

/-! ## The statements -/

/-- A server whose table can be changed: nothing panicked while it held the
catalog or the storage, and the table is in both. -/
structure TableReady (e : Executor) (db tableName : String) (tableDef : TableDef) (t : Table) :
    Prop where
  catalog : e.catalog.poisoned = false
  storage : e.storage.poisoned = false
  defined : e.catalog.value.getTable db tableName = .ok tableDef
  stored : e.storage.value.getTable? tableName = some t

/-- One table in the place of another, and every other table and every counter
as before. -/
structure Replaced (s s' : Storage) (tableName : String) (t' : Table) : Prop where
  table : s'.getTable? tableName = some t'
  others : ∀ key, key ≠ Engine.normalize tableName → s'.tables[key]? = s.tables[key]?
  nextIds : s'.nextIds = s.nextIds

omit [ExprDebug] in
theorem replaced_of_rewrites {tableName : String} {change : Storage → List Row → Storage}
    {rewrite : List Row → Table → Table} (h : Rewrites tableName change rewrite) {s : Storage}
    {t : Table} (ht : s.getTable? tableName = some t) (rows : List Row) :
    Replaced s (change s rows) tableName (rewrite rows t) where
  table := h.table ht rows
  others key hkey := by
    rw [(h.sameRows s rows).tables, Storage.tables_modifyTable ht, Std.ExtTreeMap.getElem?_insert,
      if_neg (by simpa using Ne.symm hkey)]
  nextIds := by rw [(h.sameRows s rows).nextIds, Storage.nextIds_modifyTable]

variable [Bincode]

/-- The end of a DELETE or UPDATE of a ready table. -/
theorem changed_of_ready {e e' : Executor} {env : Env} {db tableName : String}
    {tableDef : TableDef} {t : Table} (h : TableReady e db tableName tableDef t)
    {selection : Option Expr} {rows : List Row}
    (hrows : selectRows tableDef.columns selection t.entries = .ok rows)
    {change : Storage → List Row → Storage} {rewrite : List Row → Table → Table}
    (hchange : Rewrites tableName change rewrite) {r : Outcome ExecuteResult}
    (hout : ChangeOutcome env tableName tableDef.columns selection change e r e') :
    r = .ok (.affected (t.rows.countP (selects tableDef.columns selection)) 0) ∧
      Replaced e.storage.value e'.storage.value tableName (rewrite rows t) := by
  cases hout with
  | locked hst => rw [h.storage] at hst; cases hst
  | noEntry hst ht => rw [h.stored] at ht; cases ht
  | panicked hst ht hsel =>
    rw [h.stored] at ht
    cases ht
    rw [hrows] at hsel
    cases hsel
  | @changed t' rows' hst ht hsel =>
    rw [h.stored] at ht
    cases ht
    rw [hrows] at hsel
    cases hsel
    refine ⟨?_, ?_⟩
    · rw [← countP_entries, ← selectRows_eq_filter hrows]
    · rw [Executor.saveTable_storage, logSnapshot_storage]
      exact replaced_of_rewrites hchange h.stored rows

variable {e : Executor} {db tableName : String} {tableDef : TableDef} {t : Table}
  {selection : Option Expr}

theorem delete_of_ready (h : TableReady e db tableName tableDef t)
    {rows : List Row} (hrows : selectRows tableDef.columns selection t.entries = .ok rows)
    (env : Env) {del : Delete} (hname : deleteTable del = tableName)
    (hsel : del.selection = selection) :
    (Call.mk env db (.delete del)).result e =
        .ok (.affected (t.rows.countP (selects tableDef.columns selection)) 0) ∧
      Replaced e.storage.value (e.after ⟨env, db, .delete del⟩).storage.value tableName
        (eraseRows rows t) := by
  have hout := executeDelete_outcome env db (deleteTable del) del.selection e
  rw [hname, hsel] at hout
  have hrun : execute env db (.delete del) = executeDelete env db tableName selection := by
    rw [execute, hname, hsel]
  rw [Call.result, Executor.after, hrun]
  generalize ((executeDelete env db tableName selection).run e).1 = r,
    ((executeDelete env db tableName selection).run e).2 = e' at hout ⊢
  cases hout with
  | locked hc => rw [h.catalog] at hc; cases hc
  | noTable _ hdef => rw [h.defined] at hdef; cases hdef
  | ran _ hdef hch =>
    rw [h.defined] at hdef
    cases hdef
    exact changed_of_ready h hrows (deleteRows_rewrites _ _ _) hch

theorem update_of_ready (h : TableReady e db tableName tableDef t)
    {rows : List Row} (hrows : selectRows tableDef.columns selection t.entries = .ok rows)
    (env : Env) {table : TableFactor} (hname : tableFactorName table = tableName)
    {assignments : List Assignment} {assigns : List (Nat × Expr)}
    (hassigns : assignments.mapM (assignIndex tableDef.columns) = .ok assigns) :
    (Call.mk env db (.update table assignments selection)).result e =
        .ok (.affected (t.rows.countP (selects tableDef.columns selection)) 0) ∧
      Replaced e.storage.value
        (e.after ⟨env, db, .update table assignments selection⟩).storage.value tableName
        (assignRows assigns rows t) := by
  have hout := executeUpdate_outcome env db tableName assignments selection e
  have hrun : execute env db (.update table assignments selection) =
      executeUpdate env db tableName assignments selection := by
    rw [execute, hname]
  rw [Call.result, Executor.after, hrun]
  generalize ((executeUpdate env db tableName assignments selection).run e).1 = r,
    ((executeUpdate env db tableName assignments selection).run e).2 = e' at hout ⊢
  cases hout with
  | locked hc => rw [h.catalog] at hc; cases hc
  | noTable _ hdef => rw [h.defined] at hdef; cases hdef
  | badAssignment _ hdef ha =>
    rw [h.defined] at hdef
    cases hdef
    rw [hassigns] at ha
    cases ha
  | ran _ hdef ha hch =>
    rw [h.defined] at hdef
    cases hdef
    rw [hassigns] at ha
    cases ha
    exact changed_of_ready h hrows (updateRows_rewrites _ _ _ _) hch

/-! ### Rows a statement is not about -/

/-- A row the change keeps is stored when the statement is done, however it ends. -/
theorem kept_of_change {e' : Executor} {env : Env} {columns : List Column} {id : Nat} {row : Row}
    (ht : e.storage.value.getTable? tableName = some t) (hrow : t[id]? = some row)
    {change : Storage → List Row → Storage} {rewrite : List Row → Table → Table}
    (hchange : Rewrites tableName change rewrite)
    (hkeep : ∀ rows, selectRows columns selection t.entries = .ok rows →
      (rewrite rows t)[id]? = some row) {r : Outcome ExecuteResult}
    (hout : ChangeOutcome env tableName columns selection change e r e') :
    ∃ t', e'.storage.value.getTable? tableName = some t' ∧ t'[id]? = some row := by
  cases hout with
  | locked => exact ⟨t, ht, hrow⟩
  | noEntry _ hnone => rw [ht] at hnone; cases hnone
  | panicked => exact ⟨t, ht, hrow⟩
  | @changed t₁ rows _ ht₁ hsel =>
    rw [ht] at ht₁
    cases ht₁
    refine ⟨rewrite rows t, ?_, hkeep rows hsel⟩
    rw [Executor.saveTable_storage, logSnapshot_storage]
    exact hchange.table ht rows

section Unselected

variable {id : Nat} {row : Row} (ht : e.storage.value.getTable? tableName = some t)
  (hrow : t[id]? = some row)
  (hun : ∀ tableDef, e.catalog.value.getTable db tableName = .ok tableDef →
    ¬ Selected tableDef.columns selection row.values)

include ht hrow hun

theorem delete_keeps_unselected (env : Env) {del : Delete} (hname : deleteTable del = tableName)
    (hsel : del.selection = selection) :
    ∃ t', (e.after ⟨env, db, .delete del⟩).storage.value.getTable? tableName = some t' ∧
      t'[id]? = some row := by
  have hout := executeDelete_outcome env db (deleteTable del) del.selection e
  rw [hname, hsel] at hout
  have hafter : e.after ⟨env, db, .delete del⟩ =
      ((executeDelete env db tableName selection).run e).2 := by
    rw [Executor.after, execute, hname, hsel]
  rw [hafter]
  generalize ((executeDelete env db tableName selection).run e).1 = r,
    ((executeDelete env db tableName selection).run e).2 = e' at hout ⊢
  cases hout with
  | locked => exact ⟨t, ht, hrow⟩
  | noTable => exact ⟨t, ht, hrow⟩
  | @ran tableDef _ _ _ hdef hch =>
    refine kept_of_change ht hrow (deleteRows_rewrites _ _ _) (fun rows hrows => ?_) hch
    rw [getElem?_eraseRows_selected hrows, hrow, selects_eq_decide]
    simp [hun tableDef hdef]

theorem update_keeps_unselected (env : Env) {table : TableFactor}
    (hname : tableFactorName table = tableName) (assignments : List Assignment) :
    ∃ t', (e.after ⟨env, db, .update table assignments selection⟩).storage.value.getTable?
        tableName = some t' ∧ t'[id]? = some row := by
  have hout := executeUpdate_outcome env db (tableFactorName table) assignments selection e
  rw [hname] at hout
  have hafter : e.after ⟨env, db, .update table assignments selection⟩ =
      ((executeUpdate env db tableName assignments selection).run e).2 := by
    rw [Executor.after, execute, hname]
  rw [hafter]
  generalize ((executeUpdate env db tableName assignments selection).run e).1 = r,
    ((executeUpdate env db tableName assignments selection).run e).2 = e' at hout ⊢
  cases hout with
  | locked => exact ⟨t, ht, hrow⟩
  | noTable => exact ⟨t, ht, hrow⟩
  | badAssignment => exact ⟨t, ht, hrow⟩
  | @ran tableDef _ _ _ _ hdef _ hch =>
    refine kept_of_change ht hrow (updateRows_rewrites _ _ _ _) (fun rows hrows => ?_) hch
    rw [getElem?_assignRows_selected hrows, hrow, selects_eq_decide]
    simp [hun tableDef hdef]

end Unselected

/-- The number of rows a statement is about. -/
def selectedCount (columns : List Column) (selection : Option Expr) (t : Table) : Nat :=
  t.rows.countP fun row => Selected columns selection row.values

/-- One table is another without its selected rows. -/
def Removed (columns : List Column) (selection : Option Expr) (t t' : Table) : Prop :=
  ∀ (id : Nat) (row : Row),
    t'[id]? = some row ↔ t[id]? = some row ∧ ¬ Selected columns selection row.values

/-- One row is another with the last assignment to each column carried out. -/
structure RowAssigned (columns : List Column) (assignments : List Assignment) (row row' : Row) :
    Prop where
  id : row'.id = row.id
  length : row'.values.length = row.values.length
  assigned : ∀ j expr, lastAssigned columns assignments j = some expr →
    row'.values[j]? = some (sqlExprToValue expr)
  kept : ∀ j, lastAssigned columns assignments j = none → row'.values[j]? = row.values[j]?

/-- One table is another with its selected rows assigned to. -/
structure Reassigned (columns : List Column) (selection : Option Expr)
    (assignments : List Assignment) (t t' : Table) : Prop where
  ids : ∀ id : Nat, id ∈ t' ↔ id ∈ t
  selected : ∀ (id : Nat) (row : Row), t[id]? = some row →
    Selected columns selection row.values →
    ∃ row', t'[id]? = some row' ∧ RowAssigned columns assignments row row'
  others : ∀ (id : Nat) (row : Row), t[id]? = some row →
    ¬ Selected columns selection row.values → t'[id]? = some row

omit [Bincode] in
theorem removed_eraseRows {columns : List Column} {rows : List Row}
    (hrows : selectRows columns selection t.entries = .ok rows) :
    Removed columns selection t (eraseRows rows t) := by
  intro id row
  rw [getElem?_eraseRows_selected hrows, Option.filter_eq_some_iff, selects_eq_decide]
  simp

omit [Host] [ExprDebug] [Bincode] in
theorem lastAssigned_lt {columns : List Column} {assignments : List Assignment} {j : Nat}
    {expr : Expr} (h : lastAssigned columns assignments j = some expr) : j < columns.length := by
  obtain ⟨a, ha, -⟩ := Option.map_eq_some_iff.mp h
  have hpos : targetPosition columns a = some j := by
    rw [List.findRev?_eq_find?_reverse] at ha
    simpa using List.find?_some ha
  rw [targetPosition] at hpos
  split at hpos
  · exact (List.findIdx?_eq_some_iff_findIdx_eq.mp hpos).1
  · cases hpos

omit [Bincode] in
theorem reassigned_assignRows {columns : List Column} {rows : List Row}
    (hwide : ∀ (id : Nat) (row : Row), t[id]? = some row → columns.length ≤ row.values.length)
    (hrows : selectRows columns selection t.entries = .ok rows)
    {assignments : List Assignment} {assigns : List (Nat × Expr)}
    (hassigns : assignments.mapM (assignIndex columns) = .ok assigns) :
    Reassigned columns selection assignments t (assignRows assigns rows t) where
  ids id := by
    rw [Std.ExtTreeMap.mem_iff_isSome_getElem?, Std.ExtTreeMap.mem_iff_isSome_getElem?,
      getElem?_assignRows_selected hrows, Option.isSome_map]
  selected id row hrow hsel := by
    refine ⟨{ row with values := assignValues assigns row.values }, ?_, rfl, ?_, ?_, ?_⟩
    · exact getElem?_assignRows_of_selected hrows assigns hrow hsel
    · exact length_assignValues _ _
    · intro j expr hlast
      have hlt := (lastAssigned_lt hlast).trans_le (hwide id row hrow)
      rw [getElem?_assignValues hassigns, hlast, List.getElem?_eq_getElem hlt]
      rfl
    · intro j hlast
      rw [getElem?_assignValues hassigns, hlast]
      simp
  others id row hrow hsel := by
    rw [getElem?_assignRows_selected hrows, hrow, Option.map_some,
      if_neg (by rwa [selects_eq_true_iff])]

/-- DELETE and UPDATE of a ready table touch exactly the rows their WHERE clause
holds of. -/
theorem selected_rows_touched (h : TableReady e db tableName tableDef t)
    (hwide : ∀ (id : Nat) (row : Row), t[id]? = some row →
      tableDef.columns.length ≤ row.values.length)
    (heval : Evaluates tableDef.columns selection t) (env : Env) :
    (∀ del, deleteTable del = tableName → del.selection = selection →
      (Call.mk env db (.delete del)).result e =
          .ok (.affected (selectedCount tableDef.columns selection t) 0) ∧
        ∃ t', Removed tableDef.columns selection t t' ∧
          Replaced e.storage.value (e.after ⟨env, db, .delete del⟩).storage.value tableName t') ∧
    ∀ table assignments, tableFactorName table = tableName →
      (∀ a ∈ assignments, (targetPosition tableDef.columns a).isSome) →
      (Call.mk env db (.update table assignments selection)).result e =
          .ok (.affected (selectedCount tableDef.columns selection t) 0) ∧
        ∃ t', Reassigned tableDef.columns selection assignments t t' ∧
          Replaced e.storage.value
            (e.after ⟨env, db, .update table assignments selection⟩).storage.value
            tableName t' := by
  obtain ⟨rows, hrows⟩ := selectRows_total_iff.mpr heval
  rw [selectedCount, ← selects_eq_decide]
  constructor
  · intro del hname hsel
    obtain ⟨hresult, hreplaced⟩ := delete_of_ready h hrows env hname hsel
    exact ⟨hresult, _, removed_eraseRows hrows, hreplaced⟩
  · intro table assignments hname hknown
    obtain ⟨assigns, hassigns⟩ := exists_assigns_iff.mpr hknown
    obtain ⟨hresult, hreplaced⟩ := update_of_ready h hrows env hname hassigns
    exact ⟨hresult, _, reassigned_assignRows hwide hrows hassigns, hreplaced⟩

end Theory

section Concrete

attribute [local instance] asciiHost plainDebug bincode1

/-- `CREATE TABLE t (a INT, b INT)` and the rows (1, 10) and (2, 20). -/
def twoRows : Executor :=
  ((Executor.ofMemory .new none).after (callIn "srrdb" (intTable "t" ["a", "b"]))).after
    (callIn "srrdb" (insertNumbers "t" [["1", "10"], ["2", "20"]]))

def twoRowsDef : TableDef := ⟨"t", [.new "a" "t" .long, .new "b" "t" .long]⟩

theorem twoRows_ready : ∃ t, TableReady twoRows "srrdb" "t" twoRowsDef t ∧
    t = twoRows.storage.value.table "t" := by
  obtain ⟨t, ht⟩ := Option.isSome_iff_exists.mp
    (show (twoRows.storage.value.getTable? "t").isSome = true by decide +kernel)
  exact ⟨t, ⟨by decide +kernel, by decide +kernel, by decide +kernel, ht⟩,
    (Storage.table_of_getTable? ht).symm⟩

/-- `DELETE FROM t WHERE a = 1` and `UPDATE t SET b = 7 WHERE a = 1`. -/
theorem twoRows_touched :
    ((callIn "srrdb" (deleteFrom "t" (some (columnIs "a" "1")))).result twoRows =
        .ok (.affected 1 0) ∧
      ∃ t', Removed twoRowsDef.columns (some (columnIs "a" "1"))
          (twoRows.storage.value.table "t") t' ∧
        Replaced twoRows.storage.value
          (twoRows.after (callIn "srrdb" (deleteFrom "t" (some (columnIs "a" "1"))))).storage.value
          "t" t') ∧
    (callIn "srrdb" (updateSet "t" "b" "7" (some (columnIs "a" "1")))).result twoRows =
        .ok (.affected 1 0) ∧
      ∃ t', Reassigned twoRowsDef.columns (some (columnIs "a" "1"))
          [⟨.columnName ["b"], numberExpr "7"⟩] (twoRows.storage.value.table "t") t' ∧
        Replaced twoRows.storage.value
          (twoRows.after
            (callIn "srrdb" (updateSet "t" "b" "7" (some (columnIs "a" "1"))))).storage.value
          "t" t' := by
  obtain ⟨t, hready, rfl⟩ := twoRows_ready
  have hrows : ∀ p ∈ (twoRows.storage.value.table "t").toList, 2 ≤ p.2.values.length ∧
      evalWhere twoRowsDef.columns p.2.values (columnIs "a" "1") ≠ .error .panic := by
    decide +kernel
  have hwide : ∀ (id : Nat) (row : Row), (twoRows.storage.value.table "t")[id]? = some row →
      twoRowsDef.columns.length ≤ row.values.length :=
    fun id row hrow => (hrows (id, row) (OrdMap.mem_toList.mpr hrow)).1
  have heval : Evaluates twoRowsDef.columns (some (columnIs "a" "1"))
      (twoRows.storage.value.table "t") := by
    rintro p hp id row hrow
    cases hp
    exact (hrows (id, row) (OrdMap.mem_toList.mpr hrow)).2
  have hcount : selectedCount twoRowsDef.columns (some (columnIs "a" "1"))
      (twoRows.storage.value.table "t") = 1 := by decide +kernel
  obtain ⟨hdelete, hupdate⟩ := selected_rows_touched hready hwide heval plainEnv
  rw [hcount] at hdelete hupdate
  exact ⟨hdelete _ rfl rfl, hupdate _ _ rfl (by decide)⟩

end Concrete

end Srrdb.Server

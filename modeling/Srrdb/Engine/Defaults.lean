/-
Srrdb.Engine.Defaults — what the row loop of INSERT does.

The loop replaces NULLs by sequence values and defaults. It panics exactly on
a row shorter than the table, and a loop that finishes has drawn one sequence
value for every NULL in an AUTO_INCREMENT column and changed nothing else in
the catalog. The ids of the rows are those of the source, which are all 0.
-/
import Srrdb.Engine.Outcomes
import Srrdb.Engine.CatalogTheorems

namespace Srrdb.Engine

open Srrdb.Sql Srrdb.Lib

variable [Host]

/-! ## Sequence values a row asks for -/

/-- NULLs in AUTO_INCREMENT columns, column by column. -/
def drawnValues : List Column → List Value → Nat
  | col :: cols, v :: values =>
    (if col.autoIncrement = true ∧ v = .null then 1 else 0) + drawnValues cols values
  | _, _ => 0

/-- NULLs in AUTO_INCREMENT columns of some rows. -/
def drawnRows (columns : List Column) (rows : List Row) : Nat :=
  (rows.map fun row => drawnValues columns row.values).sum

/-- Every row has a value for each column. -/
def Wide (columns : List Column) (rows : List Row) : Prop :=
  ∀ row ∈ rows, columns.length ≤ row.values.length

/-! ## The rows of the source -/

omit [Host] in
theorem insertRow_id_eq_zero [ExprDebug] {tableColumns : List Column} {columns : List String}
    {exprs : List Expr} {row : Row} (h : insertRow tableColumns columns exprs = .ok row) :
    row.id = 0 := by
  unfold insertRow at h
  split at h
  · cases h
    rfl
  · cases hm : mapColumns tableColumns columns (exprs.map sqlExprToValue) with
    | error msg => simp only [hm] at h; cases h
    | ok values => simp only [hm] at h; cases h; rfl

omit [Host] in
/-- The rows an INSERT supplies ask for fresh ids. -/
theorem sourceRows_id_eq_zero [ExprDebug] {tableColumns : List Column} {columns : List String}
    {source : Option Query} {rows : List Row}
    (h : sourceRows tableColumns columns source = .ok rows) : ∀ row ∈ rows, row.id = 0 := by
  unfold sourceRows at h
  split at h
  · cases h
  · split at h
    · intro row hrow
      obtain ⟨exprs, -, hexprs⟩ := exists_of_mem_mapM h hrow
      exact insertRow_id_eq_zero hexprs
    · cases h

/-! ## One row -/

/-- A value the loop may put in place of a NULL of a column. -/
def Supplied (col : Column) (v : Value) : Prop :=
  (∃ n, v = .int n) ∨ ∃ t expr, col.defaultExpr = some expr ∧ v = evalDefaultExpr t expr

/-- What the loop may make of the values of a row. -/
def SuppliedRow (cols : List Column) (values values' : List Value) : Prop :=
  values'.length = values.length ∧
    ∀ v ∈ values', v ∈ values ∨ ∃ col ∈ cols, Supplied col v

omit [Host] in
theorem SuppliedRow.refl (cols : List Column) (values : List Value) :
    SuppliedRow cols values values :=
  ⟨rfl, fun _ hv => .inl hv⟩

/-- One round of the column loop: the value at hand is kept or replaced. -/
theorem fillValues_step (now : Nat → Nat) (tableName : String) (col : Column)
    (cols : List Column) {idx : Nat} {values : List Value} (last : Nat) (c : Catalog)
    (h : idx < values.length) :
    ∃ values' last',
      fillValues now tableName idx (col :: cols) values last c =
        fillValues now tableName (idx + 1) cols values' last'
          (c.draw tableName (if col.autoIncrement = true ∧ values[idx] = .null then 1 else 0)) ∧
      (values' = values ∨ ∃ v, Supplied col v ∧ values' = values.set idx v) := by
  have hget : values[idx]? = some values[idx] := List.getElem?_eq_getElem h
  rw [fillValues, hget]
  cases hv : values[idx] with
  | null =>
    cases hauto : col.autoIncrement with
    | true => exact ⟨_, _, rfl, .inr ⟨_, .inl ⟨_, rfl⟩, rfl⟩⟩
    | false =>
      cases hdef : col.defaultExpr with
      | some expr => exact ⟨_, _, rfl, .inr ⟨_, .inr ⟨now idx, expr, hdef, rfl⟩, rfl⟩⟩
      | none => exact ⟨_, _, rfl, .inl rfl⟩
  | _ => exact ⟨values, last, by simp, .inl rfl⟩

/-- The column loop over a row that is long enough. -/
theorem fillValues_ok (now : Nat → Nat) (tableName : String) :
    ∀ (cols : List Column) (idx : Nat) (values : List Value) (last : Nat) (c : Catalog),
      idx + cols.length ≤ values.length →
      ∃ filled last', fillValues now tableName idx cols values last c =
          (.ok (filled, last'), c.draw tableName (drawnValues cols (values.drop idx))) ∧
        SuppliedRow cols values filled
  | [], idx, values, last, c, _ =>
    ⟨values, last, by simp [fillValues, drawnValues], SuppliedRow.refl _ _⟩
  | col :: cols, idx, values, last, c, h => by
    rw [List.length_cons] at h
    have hidx : idx < values.length := by omega
    obtain ⟨values', last', hrun, hkeep⟩ := fillValues_step now tableName col cols last c hidx
    have hlen : values'.length = values.length := by
      rcases hkeep with rfl | ⟨v, -, rfl⟩
      · rfl
      · exact List.length_set
    have hdrop : values'.drop (idx + 1) = values.drop (idx + 1) := by
      rcases hkeep with rfl | ⟨v, -, rfl⟩
      · rfl
      · exact List.drop_set_of_lt (by omega)
    obtain ⟨filled, last'', hrest, hlen', hfrom⟩ := fillValues_ok now tableName cols (idx + 1)
      values' last' (c.draw tableName
        (if col.autoIncrement = true ∧ values[idx] = .null then 1 else 0)) (by omega)
    refine ⟨filled, last'', ?_, hlen'.trans hlen, fun v hv => ?_⟩
    · rw [hrun, hrest, Catalog.draw_draw, hdrop, List.drop_eq_getElem_cons hidx]
      rfl
    · rcases hfrom v hv with hv | ⟨col', hcol', hs⟩
      · rcases hkeep with rfl | ⟨w, hw, rfl⟩
        · exact .inl hv
        · rcases List.mem_or_eq_of_mem_set hv with hv | rfl
          · exact .inl hv
          · exact .inr ⟨col, List.mem_cons_self, hw⟩
      · exact .inr ⟨col', List.mem_cons_of_mem _ hcol', hs⟩

/-- The column loop over a row that is too short. -/
theorem fillValues_panic (now : Nat → Nat) (tableName : String) :
    ∀ (cols : List Column) (idx : Nat) (values : List Value) (last : Nat) (c : Catalog),
      idx ≤ values.length → values.length < idx + cols.length →
      (fillValues now tableName idx cols values last c).1 = .error .panic
  | [], idx, values, last, c, h, h' => by simp at h'; omega
  | col :: cols, idx, values, last, c, h, h' => by
    rw [List.length_cons] at h'
    by_cases hidx : idx < values.length
    · obtain ⟨values', last', hrun, hkeep⟩ := fillValues_step now tableName col cols last c
        hidx
      have hlen : values'.length = values.length := by
        rcases hkeep with rfl | ⟨v, -, rfl⟩
        · rfl
        · exact List.length_set
      rw [hrun]
      exact fillValues_panic now tableName cols _ _ _ _ (by omega) (by omega)
    · rw [fillValues, List.getElem?_eq_none (by omega)]

/-! ## All rows -/

/-- What the loop may make of the rows of an INSERT. -/
def SuppliedRows (columns : List Column) (rows filled : List Row) : Prop :=
  List.Forall₂ (fun row row' => row'.id = row.id ∧
    SuppliedRow columns row.values row'.values) rows filled

/-- The row loop over rows that are long enough. -/
theorem fillRows_ok (now : Nat → Nat → Nat) (tableName : String) {columns : List Column} :
    ∀ {rows : List Row} (i last : Nat) (c : Catalog), Wide columns rows →
      ∃ filled last', fillRows now tableName columns i rows last c =
          (.ok (filled, last'), c.draw tableName (drawnRows columns rows)) ∧
        SuppliedRows columns rows filled
  | [], i, last, c, _ => ⟨[], last, rfl, .nil⟩
  | row :: rows, i, last, c, h => by
    obtain ⟨values, last', hrow, hs⟩ := fillValues_ok (now i) tableName columns 0 row.values
      last c (by rw [Nat.zero_add]; exact h row List.mem_cons_self)
    obtain ⟨filled, last'', hrest, hss⟩ := fillRows_ok now tableName (i + 1) last'
      (c.draw tableName (drawnValues columns (row.values.drop 0)))
      fun r hr => h r (List.mem_cons_of_mem _ hr)
    refine ⟨⟨row.id, values⟩ :: filled, last'', ?_, .cons ⟨rfl, hs⟩ hss⟩
    rw [fillRows, hrow]
    simp only
    rw [hrest, Catalog.draw_draw]
    rfl

/-- The row loop panics exactly on rows that are too short. -/
theorem fillRows_panic (now : Nat → Nat → Nat) (tableName : String) {columns : List Column} :
    ∀ {rows : List Row} (i last : Nat) (c : Catalog), ¬ Wide columns rows →
      (fillRows now tableName columns i rows last c).1 = .error .panic
  | [], i, last, c, h => absurd (fun _ hr => by cases hr) h
  | row :: rows, i, last, c, h => by
    rw [fillRows]
    by_cases hrow : columns.length ≤ row.values.length
    · obtain ⟨values, last', hrun, -⟩ := fillValues_ok (now i) tableName columns 0 row.values
        last c (by rw [Nat.zero_add]; exact hrow)
      have hrest : ¬ Wide columns rows := fun hw => h fun r hr => by
        rcases List.mem_cons.mp hr with rfl | hr
        · exact hrow
        · exact hw r hr
      have hpanic := fillRows_panic now tableName (i + 1) last'
        (c.draw tableName (drawnValues columns (row.values.drop 0))) hrest
      rw [hrun]
      simp only
      split
      · next hr => rw [hr] at hpanic; exact hpanic
      · next hr => rw [hr] at hpanic; cases hpanic
    · have hpanic := fillValues_panic (now i) tableName columns 0 row.values last c
        (Nat.zero_le _) (by omega)
      split
      · next hr => rw [hr] at hpanic; cases hpanic; rfl
      · next hr => rw [hr] at hpanic; cases hpanic

/-- A row loop that finished. -/
theorem fillRows_eq_ok {now : Nat → Nat → Nat} {tableName : String} {columns : List Column}
    {rows filled : List Row} {i last last' : Nat} {c c' : Catalog}
    (h : fillRows now tableName columns i rows last c = (.ok (filled, last'), c')) :
    Wide columns rows ∧ c' = c.draw tableName (drawnRows columns rows) ∧
      SuppliedRows columns rows filled := by
  by_cases hw : Wide columns rows
  · obtain ⟨filled₁, last₁, hrun, hs⟩ := fillRows_ok now tableName i last c hw
    rw [hrun] at h
    cases h
    exact ⟨hw, rfl, hs⟩
  · have hpanic := fillRows_panic now tableName i last c hw
    rw [h] at hpanic
    cases hpanic

/-- A row loop that stopped has met a row that is too short. -/
theorem not_wide_of_fillRows {now : Nat → Nat → Nat} {tableName : String} {columns : List Column}
    {rows : List Row} {i last : Nat} {c c' : Catalog} {stop : Stop}
    (h : fillRows now tableName columns i rows last c = (.error stop, c')) :
    ¬ Wide columns rows := by
  intro hwide
  obtain ⟨filled, last', hrun, -⟩ := fillRows_ok now tableName i last c hwide
  rw [hrun] at h
  cases h

/-- The column loop draws sequence values and leaves the databases alone. -/
theorem fillValues_databases (now : Nat → Nat) (tableName : String) :
    ∀ (cols : List Column) (idx : Nat) (values : List Value) (last : Nat) (c : Catalog),
      (fillValues now tableName idx cols values last c).2.databases = c.databases
  | [], _, _, _, _ => rfl
  | col :: cols, idx, values, last, c => by
    by_cases hidx : idx < values.length
    · obtain ⟨values', last', hrun, -⟩ := fillValues_step now tableName col cols last c hidx
      rw [hrun, fillValues_databases now tableName cols, Catalog.draw_databases]
    · rw [fillValues, List.getElem?_eq_none (by omega)]

/-- The row loop leaves the databases alone, also when it panics. -/
theorem fillRows_databases (now : Nat → Nat → Nat) (tableName : String) (columns : List Column) :
    ∀ (rows : List Row) (i last : Nat) (c : Catalog),
      (fillRows now tableName columns i rows last c).2.databases = c.databases
  | [], _, _, _ => rfl
  | row :: rows, i, last, c => by
    have hrow := fillValues_databases (now i) tableName columns 0 row.values last c
    rw [fillRows]
    rcases hv : fillValues (now i) tableName 0 columns row.values last c with ⟨_ | ⟨values, last'⟩, c'⟩
    · rw [hv] at hrow
      exact hrow
    · rw [hv] at hrow
      have hrest := fillRows_databases now tableName columns rows (i + 1) last' c'
      simp only
      rcases hr : fillRows now tableName columns (i + 1) rows last' c' with ⟨_ | ⟨filled, last''⟩, c''⟩
      · rw [hr] at hrest
        exact hrest.trans hrow
      · rw [hr] at hrest
        exact hrest.trans hrow

omit [Host] in
theorem SuppliedRows.length_eq {columns : List Column} {rows filled : List Row}
    (h : SuppliedRows columns rows filled) : filled.length = rows.length :=
  (List.Forall₂.length_eq h).symm

omit [Host] in
/-- Rows that ask for a fresh id still do. -/
theorem SuppliedRows.id_eq_zero {columns : List Column} {rows filled : List Row}
    (h : SuppliedRows columns rows filled) (hz : ∀ row ∈ rows, row.id = 0) :
    ∀ row ∈ filled, row.id = 0 := by
  induction h with
  | nil => intro row hr; cases hr
  | cons hab _ ih =>
    intro row hr
    rcases List.mem_cons.mp hr with rfl | hr
    · rw [hab.1]; exact hz _ List.mem_cons_self
    · exact ih (fun r hr' => hz r (List.mem_cons_of_mem _ hr')) row hr

/-! ## Where the generated values are -/

/-- A column loop, finished or not, has drawn at most one value for every NULL
in an AUTO_INCREMENT column. -/
theorem fillValues_draws (now : Nat → Nat) (tableName : String) :
    ∀ (cols : List Column) (idx : Nat) (values : List Value) (last : Nat) (c : Catalog),
      ∃ n ≤ drawnValues cols (values.drop idx),
        (fillValues now tableName idx cols values last c).2 = c.draw tableName n
  | [], idx, values, last, c => ⟨0, Nat.zero_le _, rfl⟩
  | col :: cols, idx, values, last, c => by
    by_cases hidx : idx < values.length
    · obtain ⟨values', last', hrun, hkeep⟩ := fillValues_step now tableName col cols last c hidx
      have hdrop : values'.drop (idx + 1) = values.drop (idx + 1) := by
        rcases hkeep with rfl | ⟨v, -, rfl⟩
        · rfl
        · exact List.drop_set_of_lt (by omega)
      obtain ⟨n, hn, hrest⟩ := fillValues_draws now tableName cols (idx + 1) values' last'
        (c.draw tableName (if col.autoIncrement = true ∧ values[idx] = .null then 1 else 0))
      refine ⟨_ + n, ?_, by rw [hrun, hrest, Catalog.draw_draw]⟩
      rw [List.drop_eq_getElem_cons hidx, drawnValues, ← hdrop]
      exact Nat.add_le_add_left hn _
    · refine ⟨0, Nat.zero_le _, ?_⟩
      rw [fillValues, List.getElem?_eq_none (by omega)]
      rfl

theorem fillRows_draws (now : Nat → Nat → Nat) (tableName : String) (columns : List Column) :
    ∀ (rows : List Row) (i last : Nat) (c : Catalog),
      ∃ n ≤ drawnRows columns rows,
        (fillRows now tableName columns i rows last c).2 = c.draw tableName n
  | [], _, _, _ => ⟨0, Nat.zero_le _, rfl⟩
  | row :: rows, i, last, c => by
    obtain ⟨n, hn, hrow⟩ := fillValues_draws (now i) tableName columns 0 row.values last c
    rw [List.drop_zero] at hn
    have hsum : drawnRows columns (row :: rows) =
        drawnValues columns row.values + drawnRows columns rows := by simp [drawnRows]
    rw [fillRows, hsum]
    rcases hv : fillValues (now i) tableName 0 columns row.values last c with ⟨_ | ⟨values, last'⟩, c'⟩
    · rw [hv] at hrow
      exact ⟨n, by omega, hrow⟩
    · rw [hv] at hrow
      obtain ⟨m, hm, hrest⟩ := fillRows_draws now tableName columns rows (i + 1) last' c'
      obtain rfl : c' = c.draw tableName n := hrow
      refine ⟨n + m, by omega, ?_⟩
      rw [← Catalog.draw_draw, ← hrest]
      simp only
      rcases fillRows now tableName columns (i + 1) rows last' (c.draw tableName n) with
        ⟨_ | ⟨filled, last''⟩, c''⟩ <;> rfl

/-- Rows that ask for no sequence value leave the catalog as it is. -/
theorem fillRows_of_drawnRows {columns : List Column} {rows : List Row}
    (hdrawn : drawnRows columns rows = 0) (now : Nat → Nat → Nat) (tableName : String)
    (i last : Nat) (c : Catalog) : (fillRows now tableName columns i rows last c).2 = c := by
  obtain ⟨n, hn, hfill⟩ := fillRows_draws now tableName columns rows i last c
  obtain rfl : n = 0 := by omega
  exact hfill

/-- A value of a filled row in an AUTO_INCREMENT column: the one supplied, or
for a NULL one that the sequence had between `lo` and `hi`. -/
def KeptOrDrawn (lo hi : Nat) (v v' : Option Value) : Prop :=
  (v ≠ some .null ∧ v' = v) ∨
    (v = some .null ∧ ∃ id, lo ≤ id ∧ id < hi ∧ v' = some (.int (Int64.ofNat id)))

/-- A value of a filled row in a column: the one supplied, or for a NULL one that
the sequence had between `lo` and `hi`, or the default, or NULL. -/
def Completed (now lo hi : Nat) (col : Column) (v v' : Option Value) : Prop :=
  if v = some .null then
    if col.autoIncrement then ∃ id, lo ≤ id ∧ id < hi ∧ v' = some (.int (Int64.ofNat id))
    else v' = some ((col.defaultExpr.map (evalDefaultExpr now)).getD .null)
  else v' = v

omit [Host] in
theorem Completed.mono {now lo lo' hi hi' : Nat} {col : Column} {v v' : Option Value}
    (h : Completed now lo hi col v v') (hlo : lo' ≤ lo) (hhi : hi ≤ hi') :
    Completed now lo' hi' col v v' := by
  unfold Completed at h ⊢
  split
  · next hv =>
    rw [if_pos hv] at h
    split
    · next hauto =>
      rw [if_pos hauto] at h
      obtain ⟨id, hid, hid', h⟩ := h
      exact ⟨id, by omega, by omega, h⟩
    · next hauto => rwa [if_neg hauto] at h
  · next hv => rwa [if_neg hv] at h

omit [Host] in
theorem Completed.keptOrDrawn {now lo hi : Nat} {col : Column} {v v' : Option Value}
    (h : Completed now lo hi col v v') (hauto : col.autoIncrement = true) :
    KeptOrDrawn lo hi v v' := by
  simp only [Completed, hauto, if_true] at h
  split at h
  · next hv => exact .inr ⟨hv, h⟩
  · next hv => exact .inl ⟨hv, h⟩

/-- One round of the column loop. -/
theorem fillValues_round (now : Nat → Nat) (tableName : String) (col : Column)
    (cols : List Column) {idx : Nat} {values : List Value} (last : Nat) (c : Catalog)
    (h : idx < values.length) :
    ∃ values' last' c', fillValues now tableName idx (col :: cols) values last c =
        fillValues now tableName (idx + 1) cols values' last' c' ∧
      c.sequence tableName ≤ c'.sequence tableName ∧ (∀ j ≠ idx, values'[j]? = values[j]?) ∧
      Completed (now idx) (c.sequence tableName) (c'.sequence tableName) col values[idx]?
        values'[idx]? := by
  have hget : values[idx]? = some values[idx] := List.getElem?_eq_getElem h
  have hset : ∀ v, ∀ j ≠ idx, (values.set idx v)[j]? = values[j]? := fun v j hj =>
    List.getElem?_set_ne fun h => hj h.symm
  rw [fillValues, hget]
  cases hv : values[idx] with
  | null =>
    cases hauto : col.autoIncrement with
    | true =>
      have hnext : (c.draw tableName 1).sequence tableName = c.sequence tableName + 1 := by
        rw [Catalog.sequence_draw, if_pos rfl]
      refine ⟨_, _, c.draw tableName 1, rfl, by omega, hset _, ?_⟩
      rw [Completed, if_pos rfl, if_pos hauto]
      refine ⟨c.sequence tableName, Nat.le_refl _, by omega, ?_⟩
      rw [List.getElem?_set_self h]
      rfl
    | false =>
      cases hdef : col.defaultExpr with
      | some expr =>
        refine ⟨_, _, _, rfl, Nat.le_refl _, hset _, ?_⟩
        rw [Completed, if_pos rfl, if_neg (by simp [hauto]), List.getElem?_set_self h, hdef]
        rfl
      | none =>
        refine ⟨_, _, _, rfl, Nat.le_refl _, fun _ _ => rfl, ?_⟩
        rw [Completed, if_pos rfl, if_neg (by simp [hauto]), hdef, hget, hv]
        rfl
  | _ =>
    refine ⟨values, last, c, by simp, Nat.le_refl _, fun _ _ => rfl, ?_⟩
    rw [Completed, if_neg (by simp), hget, hv]

/-- The column loop completes the values of a row. -/
theorem fillValues_completed (now : Nat → Nat) (tableName : String) :
    ∀ {cols : List Column} {idx : Nat} {values filled : List Value} {last last' : Nat}
      {c c' : Catalog},
      fillValues now tableName idx cols values last c = (.ok (filled, last'), c') →
      c.sequence tableName ≤ c'.sequence tableName ∧
      (∀ j < idx, filled[j]? = values[j]?) ∧
      ∀ k col, cols[k]? = some col →
        Completed (now (idx + k)) (c.sequence tableName) (c'.sequence tableName) col
          values[idx + k]? filled[idx + k]?
  | [], idx, values, filled, last, last', c, c', h => by
    cases h
    exact ⟨Nat.le_refl _, fun _ _ => rfl, fun k col hk => by simp at hk⟩
  | col :: cols, idx, values, filled, last, last', c, c', h => by
    by_cases hidx : idx < values.length
    · obtain ⟨values₁, last₁, c₁, hround, hseq, hother, hhere⟩ :=
        fillValues_round now tableName col cols last c hidx
      rw [hround] at h
      obtain ⟨hle, hbefore, hcols⟩ := fillValues_completed now tableName h
      refine ⟨hseq.trans hle, fun j hj => ?_, fun k col' hk => ?_⟩
      · exact (hbefore j (by omega)).trans (hother j (by omega))
      · cases k with
        | zero =>
          obtain rfl := Option.some.inj hk
          rw [Nat.add_zero, hbefore idx (by omega)]
          exact hhere.mono (Nat.le_refl _) hle
        | succ k =>
          have hrest := hcols k col' hk
          rw [Nat.add_right_comm, Nat.add_assoc, hother _ (by omega)] at hrest
          exact hrest.mono hseq (Nat.le_refl _)
    · rw [fillValues, List.getElem?_eq_none (by omega)] at h
      cases h

/-- A column loop that finished has drawn a value for every NULL in an
AUTO_INCREMENT column. -/
theorem fillValues_sequence {now : Nat → Nat} {tableName : String} {cols : List Column}
    {values filled : List Value} {last last' : Nat} {c c' : Catalog}
    (h : fillValues now tableName 0 cols values last c = (.ok (filled, last'), c')) :
    c'.sequence tableName = c.sequence tableName + drawnValues cols values := by
  by_cases hlen : cols.length ≤ values.length
  · obtain ⟨filled₁, last₁, hrun, -⟩ := fillValues_ok now tableName cols 0 values last c (by omega)
    rw [hrun, List.drop_zero] at h
    cases h
    rw [Catalog.sequence_draw, if_pos rfl]
  · have hpanic := fillValues_panic now tableName cols 0 values last c (by omega) (by omega)
    rw [h] at hpanic
    cases hpanic

/-- The row loop completes the values of every row. -/
theorem fillRows_completed (now : Nat → Nat → Nat) (tableName : String) {columns : List Column} :
    ∀ {rows filled : List Row} {i last last' : Nat} {c c' : Catalog},
      fillRows now tableName columns i rows last c = (.ok (filled, last'), c') →
      c.sequence tableName ≤ c'.sequence tableName ∧
      ∀ (k : Nat) (row row' : Row), rows[k]? = some row → filled[k]? = some row' →
        ∀ (j : Nat) (col : Column), columns[j]? = some col →
          Completed (now (i + k) j) (c.sequence tableName) (c'.sequence tableName) col
            row.values[j]? row'.values[j]?
  | [], filled, i, last, last', c, c', h => by
    cases h
    exact ⟨Nat.le_refl _, fun k row row' hk => by simp at hk⟩
  | row₀ :: rows, filled, i, last, last', c, c', h => by
    rw [fillRows] at h
    rcases hv : fillValues (now i) tableName 0 columns row₀.values last c with
      ⟨_ | ⟨values, last₁⟩, c₁⟩
    · rw [hv] at h
      cases h
    rw [hv] at h
    simp only at h
    rcases hr : fillRows now tableName columns (i + 1) rows last₁ c₁ with
      ⟨_ | ⟨rest, last₂⟩, c₂⟩
    · rw [hr] at h
      cases h
    rw [hr] at h
    cases h
    obtain ⟨hle, -, hcols⟩ := fillValues_completed (now i) tableName hv
    obtain ⟨hle', hrows⟩ := fillRows_completed now tableName hr
    refine ⟨hle.trans hle', fun k row row' hk hk' j col hj => ?_⟩
    cases k with
    | zero =>
      cases hk
      cases hk'
      have hat := hcols j col hj
      rw [Nat.zero_add] at hat
      exact hat.mono (Nat.le_refl _) hle'
    | succ k =>
      have hat := hrows k row row' hk hk' j col hj
      rw [Nat.add_right_comm, Nat.add_assoc] at hat
      exact hat.mono hle (Nat.le_refl _)

end Srrdb.Engine

/-
Srrdb.Engine.InsertedRows — what INSERT makes of its VALUES.

With a column list a row is spread over the columns listed, as far as the
shorter of the row and the list reaches, and the other columns are NULL. The
row loop then fills every NULL, one that VALUES spells out too. Without a list
a row is taken as it comes, and one that is too short panics in the loop.
-/
import Srrdb.Engine.IndexMaintenance
import Srrdb.Engine.RowChanges

namespace Srrdb.Engine

open Srrdb.Sql Srrdb.Lib

/-! ## The rows of VALUES -/

/-- The source is `VALUES rows`. -/
def IsValues (source : Option Query) (rows : List (List Expr)) : Prop :=
  ∃ query, source = some query ∧ query.body = .values rows

theorem IsValues.unique {source : Option Query} {rows rows' : List (List Expr)}
    (h : IsValues source rows) (h' : IsValues source rows') : rows = rows' := by
  obtain ⟨query, rfl, hbody⟩ := h
  obtain ⟨_, ⟨⟩, hbody'⟩ := h'
  exact SetExpr.values.inj (hbody.symm.trans hbody')

/-- No two columns have one name. -/
def DistinctNames (columns : List Column) : Prop :=
  columns.Pairwise fun c c' => eqIgnoreAsciiCase c.name c'.name = false

instance (columns : List Column) : Decidable (DistinctNames columns) :=
  inferInstanceAs (Decidable (columns.Pairwise _))

/-- The columns the values of a row are for: the ones listed, or all. -/
def columnList (columns : List Column) (listed : List String) : List String :=
  if listed.isEmpty then columns.map (·.name) else listed

/-- What a row supplies for a column. If the column is listed twice, the later
one counts. -/
def supplied {α : Type} (columns : List Column) (names : List String) (row : List α) (j : Nat) :
    Option α :=
  ((names.zip row).findRev? fun p => columnPosition columns p.1 == some j).map (·.2)

theorem supplied_map {α β : Type} (f : α → β) (columns : List Column) (names : List String)
    (row : List α) (j : Nat) :
    supplied columns names (row.map f) j = (supplied columns names row j).map f := by
  rw [supplied, supplied, List.findRev?_eq_find?_reverse, List.findRev?_eq_find?_reverse,
    List.zip_map_right, ← List.map_reverse, List.find?_map, Option.map_map, Option.map_map]
  rfl

theorem columnPosition_name {columns : List Column} (h : DistinctNames columns) {j : Nat}
    {col : Column} (hj : columns[j]? = some col) : columnPosition columns col.name = some j := by
  obtain ⟨hlt, rfl⟩ := List.getElem?_eq_some_iff.mp hj
  refine List.findIdx?_eq_some_iff_getElem.mpr ⟨hlt, beq_self_eq_true _, fun i hi => ?_⟩
  simp [List.pairwise_iff_getElem.mp h i j (by omega) hlt hi]

theorem columnPosition_isSome {columns : List Column} {name : String}
    (h : name ∈ columns.map (·.name)) : (columnPosition columns name).isSome = true := by
  obtain ⟨col, hcol, rfl⟩ := List.mem_map.mp h
  rw [columnPosition, List.findIdx?_isSome, List.any_eq_true]
  exact ⟨col, hcol, beq_self_eq_true _⟩

/-- Without a list a row supplies its values in the order of the columns. -/
theorem supplied_all {α : Type} {columns : List Column} (h : DistinctNames columns)
    {vals : List α} (hlen : vals.length = columns.length) {j : Nat} (hj : j < columns.length) :
    supplied columns (columns.map (·.name)) vals j = vals[j]? := by
  have hpos : ∀ p ∈ (columns.map (·.name)).zip vals, columnPosition columns p.1 = some j →
      vals[j]? = some p.2 := by
    intro p hp hcol
    obtain ⟨i, hi⟩ := List.mem_iff_getElem?.mp hp
    obtain ⟨hname, hval⟩ := List.getElem?_zip_eq_some.mp hi
    rw [List.getElem?_map, Option.map_eq_some_iff] at hname
    obtain ⟨col, hcoli, hcolname⟩ := hname
    rw [← hcolname, columnPosition_name h hcoli] at hcol
    rwa [← Option.some.inj hcol]
  rw [supplied, List.findRev?_eq_find?_reverse]
  cases hfind : ((columns.map (·.name)).zip vals).reverse.find? fun p =>
      columnPosition columns p.1 == some j with
  | some p =>
    have hmem := List.mem_reverse.mp (List.mem_of_find?_eq_some hfind)
    exact (hpos p hmem (by simpa using List.find?_some hfind)).symm
  | none =>
    have hmem : (columns[j].name, vals[j]) ∈ (columns.map (·.name)).zip vals :=
      List.mem_iff_getElem?.mpr ⟨j, List.getElem?_zip_eq_some.mpr (by simp [hj, hlen])⟩
    have hnone := List.find?_eq_none.mp hfind _ (List.mem_reverse.mpr hmem)
    exact absurd (columnPosition_name h (List.getElem?_eq_getElem hj)) (by simpa using hnone)

/-- The cell of a row that goes into a column: with a list the one supplied for
it, without a list the one in its place. -/
def cellFor {α : Type} (columns : List Column) (listed : List String) (row : List α) (j : Nat) :
    Option α :=
  if listed.isEmpty then row[j]? else supplied columns listed row j

theorem cellFor_map {α β : Type} (f : α → β) (columns : List Column) (listed : List String)
    (row : List α) (j : Nat) :
    cellFor columns listed (row.map f) j = (cellFor columns listed row j).map f := by
  rw [cellFor, cellFor]
  split
  · exact List.getElem?_map
  · exact supplied_map f columns listed row j

theorem cellFor_eq_supplied {α : Type} {columns : List Column} (h : DistinctNames columns)
    {listed : List String} {row : List α} (hlen : row.length = (columnList columns listed).length)
    {j : Nat} (hj : j < columns.length) :
    cellFor columns listed row j = supplied columns (columnList columns listed) row j := by
  rw [columnList] at hlen ⊢
  rw [cellFor]
  split
  · next hempty =>
    rw [if_pos hempty, List.length_map] at hlen
    exact (supplied_all h hlen hj).symm
  · rfl

/-! ## Rows with a column list -/

/-- The columns of a row with a list are found as far as the row reaches. -/
theorem exists_mapColumns_iff {columns : List Column} {names : List String} {vals : List Value} :
    (∃ mapped, mapColumns columns names vals = .ok mapped) ↔
      ∀ name ∈ names.take vals.length, (columnPosition columns name).isSome = true := by
  unfold mapColumns
  generalize List.replicate columns.length Value.null = mapped₀
  induction names generalizing vals mapped₀ with
  | nil => exact iff_of_true ⟨mapped₀, rfl⟩ (by simp)
  | cons name names ih =>
    cases vals with
    | nil => exact iff_of_true ⟨mapped₀, rfl⟩ (by simp)
    | cons val vals =>
      rw [List.zip_cons_cons, List.foldlM_cons, List.length_cons, List.take_succ_cons,
        List.forall_mem_cons]
      cases hpos : columnPosition columns name with
      | none =>
        simp only [hpos]
        exact iff_of_false (by rintro ⟨_, ⟨⟩⟩) (by simp)
      | some pos =>
        simp only [hpos, Option.isSome_some, true_and]
        exact ih (mapped₀.set pos val)

/-- Each column of the table gets the value supplied for it, or NULL. -/
theorem getElem?_mapColumns {columns : List Column} {names : List String} {vals mapped : List Value}
    (h : mapColumns columns names vals = .ok mapped) (j : Nat) :
    mapped[j]? = (List.replicate columns.length Value.null)[j]?.map fun v =>
      (supplied columns names vals j).getD v := by
  unfold mapColumns at h
  unfold supplied
  generalize List.replicate columns.length Value.null = mapped₀ at h ⊢
  generalize names.zip vals = pairs at h ⊢
  induction pairs generalizing mapped₀ with
  | nil =>
    cases h
    simp [List.findRev?]
  | cons p pairs ih =>
    rw [List.foldlM_cons] at h
    cases hpos : columnPosition columns p.1 with
    | none => simp only [hpos] at h; cases h
    | some pos =>
      simp only [hpos] at h
      rw [ih (mapped₀.set pos p.2) h, List.findRev?, List.getElem?_set']
      cases hlast : pairs.findRev? fun p => columnPosition columns p.1 == some j with
      | some q => by_cases hj : pos = j <;> simp [hj, Function.const_def]
      | none => by_cases hj : pos = j <;> simp [hpos, hj, Function.const_def]

/-! ## Every row -/

section Rows

variable [ExprDebug] {columns : List Column} {listed : List String} {exprs : List Expr} {row : Row}

theorem insertRow_listed (hlisted : listed ≠ []) (h : insertRow columns listed exprs = .ok row) :
    mapColumns columns listed (exprs.map sqlExprToValue) = .ok row.values := by
  rw [insertRow, if_neg (by simpa using hlisted)] at h
  cases hm : mapColumns columns listed (exprs.map sqlExprToValue) with
  | error msg => simp only [hm] at h; cases h
  | ok values => simp only [hm] at h; cases h; rfl

theorem exists_insertRow_iff : (∃ row, insertRow columns listed exprs = .ok row) ↔
    ∀ name ∈ (columnList columns listed).take exprs.length,
      (columnPosition columns name).isSome = true := by
  rw [columnList]
  split
  · next hempty =>
    exact iff_of_true ⟨_, by rw [insertRow, if_pos hempty]; rfl⟩ fun name hname =>
      columnPosition_isSome (List.mem_of_mem_take hname)
  · next hlisted =>
    have hiff := @exists_mapColumns_iff columns listed (exprs.map sqlExprToValue)
    rw [List.length_map] at hiff
    rw [← hiff]
    constructor
    · rintro ⟨row, h⟩
      exact ⟨row.values, insertRow_listed (by simpa using hlisted) h⟩
    · rintro ⟨mapped, h⟩
      exact ⟨⟨0, mapped⟩, by rw [insertRow, if_neg hlisted, h]; rfl⟩

/-- A row with a column list is as wide as the table, another as wide as it comes. -/
theorem length_insertRow (h : insertRow columns listed exprs = .ok row) :
    row.values.length = if listed.isEmpty then exprs.length else columns.length := by
  split
  · next hempty =>
    rw [insertRow, if_pos hempty] at h
    cases h
    simp
  · next hlisted =>
    have hcell := getElem?_mapColumns (insertRow_listed (by simpa using hlisted) h)
    have hlen : ∀ j, row.values.length ≤ j ↔ columns.length ≤ j := by
      intro j
      rw [← List.getElem?_eq_none_iff, hcell, Option.map_eq_none_iff, List.getElem?_eq_none_iff,
        List.length_replicate]
    exact Nat.le_antisymm ((hlen _).mpr le_rfl) ((hlen _).mp le_rfl)

/-- A row with one value for each column of its list. -/
theorem getElem?_insertRow (h : insertRow columns listed exprs = .ok row)
    (hlen : exprs.length = (columnList columns listed).length) {j : Nat} (hj : j < columns.length) :
    row.values[j]? = some ((cellFor columns listed (exprs.map sqlExprToValue) j).getD .null) := by
  rw [columnList] at hlen
  rw [cellFor]
  split at hlen
  · next hempty =>
    rw [List.length_map] at hlen
    rw [insertRow, if_pos hempty] at h
    cases h
    rw [if_pos hempty]
    simp [hlen, hj]
  · next hlisted =>
    rw [if_neg hlisted, getElem?_mapColumns (insertRow_listed (by simpa using hlisted) h)]
    simp [hj]

variable {source : Option Query} {exprRows : List (List Expr)} {rows : List Row}

theorem sourceRows_values (h : IsValues source exprRows) :
    sourceRows columns listed source = exprRows.mapM (insertRow columns listed) := by
  obtain ⟨query, rfl, hbody⟩ := h
  simp [sourceRows, hbody]

theorem isValues_of_sourceRows (h : sourceRows columns listed source = .ok rows) :
    ∃ exprRows, IsValues source exprRows ∧ exprRows.mapM (insertRow columns listed) = .ok rows := by
  unfold sourceRows at h
  split at h
  · cases h
  · next query =>
    split at h
    · next exprRows hbody => exact ⟨exprRows, ⟨query, rfl, hbody⟩, h⟩
    · cases h

/-- The names listed are looked up as far as each row reaches. -/
theorem exists_sourceRows_iff (listed : List String) (h : IsValues source exprRows) :
    (∃ rows, sourceRows columns listed source = .ok rows) ↔
      ∀ exprs ∈ exprRows, ∀ name ∈ (columnList columns listed).take exprs.length,
        (columnPosition columns name).isSome = true := by
  rw [sourceRows_values h, exists_mapM_iff]
  exact forall₂_congr fun exprs _ => exists_insertRow_iff

/-- The rows are wide enough with a list; without one if VALUES has them so. -/
theorem wide_iff (h : exprRows.mapM (insertRow columns listed) = .ok rows) :
    Wide columns rows ↔ (listed = [] → ∀ exprs ∈ exprRows, columns.length ≤ exprs.length) := by
  have hrows := mapM_eq_ok_iff.mp h
  clear h
  induction hrows with
  | nil => simp [Wide]
  | cons hrow _ ih =>
    have hlen := length_insertRow hrow
    rw [Wide, List.forall_mem_cons, List.forall_mem_cons, hlen]
    refine (and_congr_right' ih).trans ?_
    cases listed <;> simp

end Rows

section Theory

variable [Host] [ExprDebug] [Bincode]

theorem insert_outcome (e : Executor) (env : Env) (db : String) (ins : Insert) :
    InsertOutcome env db (tableObjectName ins.table) ins.columns ins.source e
      ((Call.mk env db (.insert ins)).result e) (e.after ⟨env, db, .insert ins⟩) :=
  executeInsert_outcome env db (tableObjectName ins.table) ins.columns ins.source e

/-! ## Panics -/

/-- The INSERT returns, and the catalog is as usable as before. -/
def InsertReturns (e : Executor) (env : Env) (db : String) (ins : Insert) : Prop :=
  let call : Call := ⟨env, db, .insert ins⟩
  call.result e ≠ .error .panic ∧ (e.after call).catalog.poisoned = e.catalog.poisoned

/-- Without a column list, no row the INSERT reaches is shorter than the table. -/
def NoShortRow (e : Executor) (db : String) (ins : Insert) : Prop :=
  e.catalog.poisoned = false → ins.columns = [] →
    ∀ tableDef exprRows, e.catalog.value.getTable db (tableObjectName ins.table) = .ok tableDef →
      IsValues ins.source exprRows →
      ∀ exprs ∈ exprRows, tableDef.columns.length ≤ exprs.length

omit [Bincode] in
/-- Once the rows of the source are there, it is their width that counts. -/
theorem noShortRow_iff {e : Executor} {db : String} {ins : Insert} {tableDef : TableDef}
    {rows : List Row} (hc : e.catalog.poisoned = false)
    (h : e.catalog.value.getTable db (tableObjectName ins.table) = .ok tableDef)
    (hs : sourceRows tableDef.columns ins.columns ins.source = .ok rows) :
    NoShortRow e db ins ↔ Wide tableDef.columns rows := by
  obtain ⟨exprRows, hvalues, hrows⟩ := isValues_of_sourceRows hs
  rw [wide_iff hrows]
  constructor
  · exact fun hwide hlisted => hwide hc hlisted tableDef exprRows h hvalues
  · intro hwide _ hlisted tableDef' exprRows' h' hvalues'
    cases h.symm.trans h'
    rw [hvalues'.unique hvalues]
    exact hwide hlisted

/-- INSERT panics exactly on a row that is shorter than the table and has no
column list. -/
theorem insert_returns_iff (e : Executor) (env : Env) (db : String) (ins : Insert) :
    InsertReturns e env db ins ↔ NoShortRow e db ins := by
  have hout := insert_outcome e env db ins
  simp only [InsertReturns]
  generalize (Call.mk env db (.insert ins)).result e = r, e.after ⟨env, db, .insert ins⟩ = e'
    at hout ⊢
  cases hout with
  | locked hc =>
    refine iff_of_true ⟨by simp, rfl⟩ fun hc' => ?_
    rw [hc] at hc'
    cases hc'
  | noTable hc h =>
    refine iff_of_true ⟨by simp, rfl⟩ fun _ _ tableDef _ h' => ?_
    rw [h] at h'
    cases h'
  | badSource hc h hs =>
    refine iff_of_true ⟨by simp, rfl⟩ fun _ hlisted tableDef exprRows h' hvalues => ?_
    cases h.symm.trans h'
    rw [hlisted] at hs
    obtain ⟨rows, hrows⟩ := (exists_sourceRows_iff [] hvalues).mpr
      fun exprs _ name hname => columnPosition_isSome (List.mem_of_mem_take hname)
    rw [hrows] at hs
    cases hs
  | panicked hc h hs hf =>
    rw [noShortRow_iff hc h hs]
    exact iff_of_false (fun hsafe => hsafe.1 rfl) (not_wide_of_fillRows hf)
  | unstored hc h hs hf hst =>
    rw [noShortRow_iff hc h hs]
    exact iff_of_true ⟨by simp, rfl⟩ (fillRows_eq_ok hf).1
  | stored hc h hs hf hst =>
    rw [noShortRow_iff hc h hs]
    refine iff_of_true ⟨by simp, ?_⟩ (fillRows_eq_ok hf).1
    rw [insertDone_catalog]
    rfl

/-! ## Columns and their values -/

/-- A row that does not fit its list: one of another length, or for a column
the table does not have. -/
def Misfit (columns : List Column) (listed : List String) (exprs : List Expr) : Prop :=
  exprs.length ≠ (columnList columns listed).length ∨
    ∃ name ∈ columnList columns listed, columnPosition columns name = none

instance (columns : List Column) (listed : List String) (exprs : List Expr) :
    Decidable (Misfit columns listed exprs) :=
  inferInstanceAs (Decidable (_ ∨ _))

/-- The value a row of VALUES gives for a column, if the column is listed. -/
def given (columns : List Column) (listed : List String) (exprs : List Expr) (j : Nat) :
    Option Value :=
  supplied columns (columnList columns listed) (exprs.map sqlExprToValue) j

/-- What belongs into a column: the value given, which may be NULL; without one
the default, or NULL; and for nothing or NULL in an AUTO_INCREMENT column a
value of the sequence. -/
def Fills (now lo hi : Nat) (col : Column) (given : Option Value) (v : Value) : Prop :=
  if col.autoIncrement = true ∧ given.getD .null = .null then
    ∃ id, lo ≤ id ∧ id < hi ∧ v = .int (Int64.ofNat id)
  else v = given.getD ((col.defaultExpr.map (evalDefaultExpr now)).getD .null)

/-- The INSERT is refused and changes nothing if a row does not fit its list.
Otherwise each row is stored, with what belongs into each column. -/
structure MapsValues (e : Executor) (env : Env) (db : String) (ins : Insert) (tableDef : TableDef)
    (exprRows : List (List Expr)) : Prop where
  refused : (∃ exprs ∈ exprRows, Misfit tableDef.columns ins.columns exprs) →
    (∃ msg, (Call.mk env db (.insert ins)).result e = failed msg) ∧
      e.after ⟨env, db, .insert ins⟩ = e
  stored : (∀ exprs ∈ exprRows, ¬ Misfit tableDef.columns ins.columns exprs) →
    let table := tableObjectName ins.table
    let e' := e.after ⟨env, db, .insert ins⟩
    (∃ last, (Call.mk env db (.insert ins)).result e = .ok (.affected exprRows.length last)) ∧
      ∀ (k : Nat) (exprs : List Expr), exprRows[k]? = some exprs → ∃ row,
        (e'.storage.value.table table)[e.storage.value.nextId table + k]? = some row ∧
        row.values.length = tableDef.columns.length ∧
        ∀ (j : Nat) (col : Column), tableDef.columns[j]? = some col → ∃ v,
          row.values[j]? = some v ∧
            Fills (env.now k j) (e.catalog.value.sequence table) (e'.catalog.value.sequence table)
              col (given tableDef.columns ins.columns exprs j) v

/-- A row reaches a name in its list that the table does not have; or every row
fits its list, and every NULL given for a column without AUTO_INCREMENT is for
one without a DEFAULT, or with DEFAULT NULL. -/
def KeepsNulls (env : Env) (columns : List Column) (listed : List String)
    (exprRows : List (List Expr)) : Prop :=
  (∃ exprs ∈ exprRows, ∃ name ∈ (columnList columns listed).take exprs.length,
    columnPosition columns name = none) ∨
  (∀ exprs ∈ exprRows, ¬ Misfit columns listed exprs) ∧
    ∀ (k : Nat) (exprs : List Expr), exprRows[k]? = some exprs →
      ∀ (j : Nat) (col : Column), columns[j]? = some col → col.autoIncrement = false →
        given columns listed exprs j = some .null →
        ∀ expr, col.defaultExpr = some expr → evalDefaultExpr (env.now k j) expr = .null

omit [Host] [ExprDebug] [Bincode] in
/-- The row loop fills a column as it should, but for a NULL that was given. -/
theorem Completed.fills_iff {now lo hi : Nat} {col : Column} {given : Option Value} {v : Value}
    (h : Completed now lo hi col (some (given.getD .null)) (some v)) :
    Fills now lo hi col given v ↔ (col.autoIncrement = false → given = some .null →
      ∀ expr, col.defaultExpr = some expr → evalDefaultExpr now expr = .null) := by
  unfold Completed at h
  unfold Fills
  cases hauto : col.autoIncrement with
  | true =>
    by_cases hnull : given.getD .null = .null
    · simp only [hnull, hauto, if_true] at h
      simpa [hnull] using h
    · have hgiven : given ≠ none := fun hnone => hnull (by rw [hnone]; rfl)
      obtain ⟨w, rfl⟩ := Option.ne_none_iff_exists'.mp hgiven
      simp only [Option.getD_some, Option.some.injEq] at h hnull
      simpa [hnull] using h
  | false =>
    cases given with
    | none => simpa [hauto] using h
    | some w =>
      by_cases hnull : w = .null
      · subst hnull
        cases hdef : col.defaultExpr with
        | none => simpa [hauto, hdef] using h
        | some expr =>
          simp only [Option.getD_some, if_true, hauto, hdef] at h
          simp at h
          simp [h]
      · simpa [hnull] using h

/-- The server after an INSERT: the rows follow those of the table, and the
indexes of the table offer them. -/
structure StoredRows (e e' : Executor) (db tableName : String) (columns : List Column)
    (filled : List Row) : Prop where
  catalog : e'.catalog.poisoned = false
  storage : e'.storage.poisoned = false
  databases : e'.catalog.value.databases = e.catalog.value.databases
  rows : ∀ row ∈ placed (e.storage.value.nextId tableName) filled,
    (e'.storage.value.table tableName)[row.id]? = some row
  indexes : ∀ idx ∈ e.catalog.value.getTableIndexes db tableName,
    ∀ row ∈ placed (e.storage.value.nextId tableName) filled, ∃ data,
      e'.storage.value.indexData[storageKey tableName idx.name]? = some data ∧
        ((getIndexKey row idx columns).regular = true →
          row.id ∈ data.lookupEq (getIndexKey row idx columns))

/-- An INSERT whose rows of VALUES are there panics, or fills and stores them. -/
theorem insert_of_sourceRows {e : Executor} {db : String} {ins : Insert} {tableDef : TableDef}
    {rows : List Row} (env : Env) (hc : e.catalog.poisoned = false)
    (hst : e.storage.poisoned = false)
    (h : e.catalog.value.getTable db (tableObjectName ins.table) = .ok tableDef)
    (hs : sourceRows tableDef.columns ins.columns ins.source = .ok rows) :
    (¬ Wide tableDef.columns rows ∧ (Call.mk env db (.insert ins)).result e = .error .panic) ∨
    ∃ filled last, fillRows env.now (tableObjectName ins.table) tableDef.columns 0 rows 0
        e.catalog.value =
          (.ok (filled, last), (e.after ⟨env, db, .insert ins⟩).catalog.value) ∧
      (Call.mk env db (.insert ins)).result e = .ok (.affected filled.length last) ∧
      StoredRows e (e.after ⟨env, db, .insert ins⟩) db (tableObjectName ins.table)
        tableDef.columns filled := by
  have hout := insert_outcome e env db ins
  generalize (Call.mk env db (.insert ins)).result e = r, e.after ⟨env, db, .insert ins⟩ = e'
    at hout ⊢
  generalize tableObjectName ins.table = name at h hout ⊢
  cases hout with
  | locked hp => rw [hc] at hp; cases hp
  | noTable _ h' => rw [h] at h'; cases h'
  | badSource _ h' hs' =>
    cases h.symm.trans h'
    rw [hs] at hs'
    cases hs'
  | panicked _ h' hs' hf =>
    cases h.symm.trans h'
    cases hs.symm.trans hs'
    exact .inl ⟨not_wide_of_fillRows hf, rfl⟩
  | unstored _ _ _ _ hp => rw [hst] at hp; cases hp
  | @stored _ _ filled last c _ h' hs' hf _ =>
    cases h.symm.trans h'
    cases hs.symm.trans hs'
    obtain ⟨-, hdraw, hsupplied⟩ := fillRows_eq_ok hf
    have hz := hsupplied.id_eq_zero (sourceRows_id_eq_zero hs)
    have hdatabases : c.databases = e.catalog.value.databases := by
      rw [hdraw, Catalog.draw_databases]
    refine .inr ⟨filled, last, by rw [insertDone_catalog]; exact hf, rfl, ?_, ?_, ?_, ?_, ?_⟩
    · rw [insertDone_catalog]; exact hc
    · rw [insertDone_storage_poisoned]; exact hst
    · rw [insertDone_catalog]; exact hdatabases
    · intro row hrow
      rw [← Storage.table_congr (insertDone_sameRows _ _ _ _ _).tables]
      exact getElem?_insertRows hz _ _ hrow
    · intro idx hidx row hrow
      have hid : row.id ∈ (e.storage.value.insertRows name filled).1 := by
        rw [Storage.ids_insertRows, (insertLoop_placed hz _ _).2]
        exact List.mem_map_of_mem hrow
      rw [← Catalog.getTableIndexes_congr hdatabases] at hidx
      rw [insertDone, if_neg (by simp [List.ne_nil_of_mem hidx, List.ne_nil_of_mem hid]),
        ← storedRow_of_getElem? (getElem?_insertRows hz _ _ hrow)]
      exact indexInserted_offers hidx tableDef.columns _ hid

/-- An INSERT that reaches a name the table does not have is refused. -/
theorem insert_refused {e : Executor} {db : String} {ins : Insert} {tableDef : TableDef}
    {exprRows : List (List Expr)} (env : Env) (hc : e.catalog.poisoned = false)
    (h : e.catalog.value.getTable db (tableObjectName ins.table) = .ok tableDef)
    (hvalues : IsValues ins.source exprRows)
    (hreach : ∃ exprs ∈ exprRows,
      ∃ name ∈ (columnList tableDef.columns ins.columns).take exprs.length,
        columnPosition tableDef.columns name = none) :
    (∃ msg, (Call.mk env db (.insert ins)).result e = failed msg) ∧
      e.after ⟨env, db, .insert ins⟩ = e := by
  have hnone : ∀ rows, sourceRows tableDef.columns ins.columns ins.source ≠ .ok rows := by
    intro rows hs
    obtain ⟨exprs, hexprs, name, hname, hnone⟩ := hreach
    have hknown := (exists_sourceRows_iff ins.columns hvalues).mp ⟨rows, hs⟩ exprs hexprs name hname
    rw [hnone] at hknown
    cases hknown
  have hout := insert_outcome e env db ins
  generalize (Call.mk env db (.insert ins)).result e = r, e.after ⟨env, db, .insert ins⟩ = e'
    at hout ⊢
  cases hout with
  | locked hp => rw [hc] at hp; cases hp
  | noTable _ h' => rw [h] at h'; cases h'
  | badSource _ _ _ => exact ⟨⟨_, rfl⟩, rfl⟩
  | panicked _ h' hs' _ => cases h.symm.trans h'; exact absurd hs' (hnone _)
  | unstored _ h' hs' _ _ => cases h.symm.trans h'; exact absurd hs' (hnone _)
  | stored _ h' hs' _ _ => cases h.symm.trans h'; exact absurd hs' (hnone _)

omit [Host] [Bincode] in
theorem wide_of_fits {columns : List Column} {listed : List String} {exprRows : List (List Expr)}
    {rows : List Row} (hfits : ∀ exprs ∈ exprRows, ¬ Misfit columns listed exprs)
    (hrows : exprRows.mapM (insertRow columns listed) = .ok rows) : Wide columns rows := by
  refine (wide_iff hrows).mpr fun hlisted exprs hexprs => ?_
  have hlen := not_not.mp fun hne => hfits exprs hexprs (.inl hne)
  rw [hlen, hlisted, columnList]
  simp

omit [Host] [Bincode] in
theorem exists_sourceRows_of_fits {columns : List Column} {listed : List String}
    {source : Option Query} {exprRows : List (List Expr)} (hvalues : IsValues source exprRows)
    (hfits : ∀ exprs ∈ exprRows, ¬ Misfit columns listed exprs) :
    ∃ rows, sourceRows columns listed source = .ok rows :=
  (exists_sourceRows_iff listed hvalues).mpr fun exprs hexprs name hname =>
    Option.ne_none_iff_isSome.mp fun hnone =>
      hfits exprs hexprs (.inr ⟨name, List.mem_of_mem_take hname, hnone⟩)

omit [Bincode] in
/-- The rows of an INSERT whose VALUES fit, as the row loop leaves them. -/
theorem completed_of_fits {columns : List Column} {listed : List String}
    {exprRows : List (List Expr)} {rows filled : List Row} {now : Nat → Nat → Nat}
    {tableName : String} {last : Nat} {c c' : Catalog}
    (hfits : ∀ exprs ∈ exprRows, ¬ Misfit columns listed exprs)
    (hrows : exprRows.mapM (insertRow columns listed) = .ok rows)
    (hf : fillRows now tableName columns 0 rows 0 c = (.ok (filled, last), c'))
    {k : Nat} {exprs : List Expr} (hk : exprRows[k]? = some exprs) :
    ∃ row, filled[k]? = some row ∧ row.values.length = columns.length ∧
      ∀ (j : Nat) (col : Column), columns[j]? = some col → ∃ v, row.values[j]? = some v ∧
        Completed (now k j) (c.sequence tableName) (c'.sequence tableName) col
          (some ((cellFor columns listed (exprs.map sqlExprToValue) j).getD .null)) (some v) := by
  obtain ⟨-, -, hsupplied⟩ := fillRows_eq_ok hf
  obtain ⟨-, hcompleted⟩ := fillRows_completed now tableName hf
  have hall := mapM_eq_ok_iff.mp hrows
  obtain ⟨hlt, rfl⟩ := List.getElem?_eq_some_iff.mp hk
  have hlen := not_not.mp fun hne => hfits _ (List.getElem_mem hlt) (.inl hne)
  have hlt' : k < rows.length := hall.length_eq ▸ hlt
  have hlt'' : k < filled.length := hsupplied.length_eq ▸ hlt'
  have hrow := (List.forall₂_iff_get.mp hall).2 k hlt hlt'
  obtain ⟨-, hwidth, -⟩ := (List.forall₂_iff_get.mp hsupplied).2 k hlt' hlt''
  simp only [List.get_eq_getElem] at hrow hwidth
  have hrowWidth : rows[k].values.length = columns.length := by
    rw [length_insertRow hrow, hlen, columnList]
    split
    · next hempty => simp
    · rfl
  refine ⟨filled[k], List.getElem?_eq_getElem hlt'', hwidth.trans hrowWidth, fun j col hj => ?_⟩
  have hjlt : j < columns.length := (List.getElem?_eq_some_iff.mp hj).1
  have hat := hcompleted k rows[k] filled[k] (List.getElem?_eq_getElem hlt')
    (List.getElem?_eq_getElem hlt'') j col hj
  rw [Nat.zero_add, getElem?_insertRow hrow hlen hjlt] at hat
  have hv : j < filled[k].values.length := by omega
  rw [List.getElem?_eq_getElem hv] at hat
  exact ⟨_, List.getElem?_eq_getElem hv, hat⟩

/-- An INSERT whose VALUES fit stores a row for each. -/
theorem insert_of_fits {e : Executor} {db : String} {ins : Insert} {tableDef : TableDef}
    {exprRows : List (List Expr)} (env : Env) (hc : e.catalog.poisoned = false)
    (hst : e.storage.poisoned = false)
    (h : e.catalog.value.getTable db (tableObjectName ins.table) = .ok tableDef)
    (hvalues : IsValues ins.source exprRows)
    (hfits : ∀ exprs ∈ exprRows, ¬ Misfit tableDef.columns ins.columns exprs) :
    let table := tableObjectName ins.table
    let e' := e.after ⟨env, db, .insert ins⟩
    ∃ filled last, (Call.mk env db (.insert ins)).result e = .ok (.affected exprRows.length last) ∧
      StoredRows e e' db table tableDef.columns filled ∧
      ∀ (k : Nat) (exprs : List Expr), exprRows[k]? = some exprs →
        ∃ row ∈ placed (e.storage.value.nextId table) filled,
          row.id = e.storage.value.nextId table + k ∧
          row.values.length = tableDef.columns.length ∧
          ∀ (j : Nat) (col : Column), tableDef.columns[j]? = some col → ∃ v,
            row.values[j]? = some v ∧
              Completed (env.now k j) (e.catalog.value.sequence table)
                (e'.catalog.value.sequence table) col
                (some ((cellFor tableDef.columns ins.columns
                  (exprs.map sqlExprToValue) j).getD .null))
                (some v) := by
  obtain ⟨rows, hs⟩ := exists_sourceRows_of_fits hvalues hfits
  have hrows := (sourceRows_values hvalues).symm.trans hs
  obtain ⟨hshort, -⟩ | ⟨filled, last, hf, hresult, hstored⟩ := insert_of_sourceRows env hc hst h hs
  · exact absurd (wide_of_fits hfits hrows) hshort
  obtain ⟨-, -, hsupplied⟩ := fillRows_eq_ok hf
  have hcount : filled.length = exprRows.length := by
    rw [hsupplied.length_eq, (mapM_eq_ok_iff.mp hrows).length_eq]
  rw [hcount] at hresult
  refine ⟨filled, last, hresult, hstored, fun k exprs hk => ?_⟩
  obtain ⟨row, hrow, hwidth, hcells⟩ := completed_of_fits hfits hrows hf hk
  refine ⟨⟨_, row.values⟩, List.mem_of_getElem? (i := k) ?_, rfl, hwidth, hcells⟩
  rw [getElem?_placed, hrow]
  rfl

/-- INSERT puts the values of its rows into their columns exactly if it refuses
them for a name it reaches, or gives no NULL that a DEFAULT replaces. -/
theorem insert_maps_iff {e : Executor} {db : String} {ins : Insert} {tableDef : TableDef}
    {exprRows : List (List Expr)} (env : Env) (hc : e.catalog.poisoned = false)
    (hst : e.storage.poisoned = false)
    (h : e.catalog.value.getTable db (tableObjectName ins.table) = .ok tableDef)
    (hnames : DistinctNames tableDef.columns) (hvalues : IsValues ins.source exprRows) :
    MapsValues e env db ins tableDef exprRows ↔
      KeepsNulls env tableDef.columns ins.columns exprRows := by
  by_cases hreach : ∃ exprs ∈ exprRows,
      ∃ name ∈ (columnList tableDef.columns ins.columns).take exprs.length,
        columnPosition tableDef.columns name = none
  · refine iff_of_true ⟨fun _ => ?_, fun hfits => ?_⟩ (.inl hreach)
    · exact insert_refused env hc h hvalues hreach
    · obtain ⟨exprs, hexprs, name, hname, hnone⟩ := hreach
      exact absurd (.inr ⟨name, List.mem_of_mem_take hname, hnone⟩) (hfits exprs hexprs)
  by_cases hfits : ∀ exprs ∈ exprRows, ¬ Misfit tableDef.columns ins.columns exprs
  · obtain ⟨filled, last, hresult, hstoredRows, hcells⟩ := insert_of_fits env hc hst h hvalues hfits
    have hgiven : ∀ (k : Nat) (exprs : List Expr) (j : Nat) (col : Column),
        exprRows[k]? = some exprs → tableDef.columns[j]? = some col →
        cellFor tableDef.columns ins.columns (exprs.map sqlExprToValue) j =
          given tableDef.columns ins.columns exprs j := by
      intro k exprs j col hk hj
      have hexprs := List.mem_of_getElem? hk
      refine cellFor_eq_supplied hnames ?_ (List.getElem?_eq_some_iff.mp hj).1
      rw [List.length_map]
      exact not_not.mp fun hne => hfits exprs hexprs (.inl hne)
    constructor
    · intro hmaps
      refine .inr ⟨hfits, fun k exprs hk j col hj hauto hnull expr hdef => ?_⟩
      obtain ⟨row, hrow, hid, -, hcell⟩ := hcells k exprs hk
      obtain ⟨-, hstored⟩ := hmaps.stored hfits
      obtain ⟨row', hrow', -, hcell'⟩ := hstored k exprs hk
      obtain ⟨v, hv, hcompleted⟩ := hcell j col hj
      obtain ⟨v', hv', hfills⟩ := hcell' j col hj
      rw [← hid, hstoredRows.rows row hrow] at hrow'
      cases hrow'
      cases hv.symm.trans hv'
      rw [hgiven k exprs j col hk hj] at hcompleted
      exact hcompleted.fills_iff.mp hfills hauto hnull expr hdef
    · rintro (hreach' | ⟨-, hnulls⟩)
      · exact absurd hreach' hreach
      refine ⟨fun ⟨exprs, hexprs, hmisfit⟩ => absurd hmisfit (hfits exprs hexprs),
        fun _ => ⟨⟨last, hresult⟩, fun k exprs hk => ?_⟩⟩
      obtain ⟨row, hrow, hid, hwidth, hcell⟩ := hcells k exprs hk
      refine ⟨row, hid ▸ hstoredRows.rows row hrow, hwidth, fun j col hj => ?_⟩
      obtain ⟨v, hv, hcompleted⟩ := hcell j col hj
      rw [hgiven k exprs j col hk hj] at hcompleted
      exact ⟨v, hv, hcompleted.fills_iff.mpr (hnulls k exprs hk j col hj)⟩
  · have hmisfit : ∃ exprs ∈ exprRows, Misfit tableDef.columns ins.columns exprs := by
      simpa using hfits
    refine iff_of_false (fun hmaps => ?_) ?_
    · obtain ⟨⟨msg, hfailed⟩, -⟩ := hmaps.refused hmisfit
      obtain ⟨rows, hs⟩ := (exists_sourceRows_iff ins.columns hvalues).mpr
        fun exprs hexprs name hname => Option.ne_none_iff_isSome.mp fun hnone =>
          hreach ⟨exprs, hexprs, name, hname, hnone⟩
      rcases insert_of_sourceRows env hc hst h hs with
        ⟨-, hresult⟩ | ⟨filled, last, -, hresult, -⟩ <;>
        rw [hresult] at hfailed <;> cases hfailed
    · rintro (hreach' | ⟨hfits', -⟩)
      · exact hreach hreach'
      · exact hfits hfits'

end Theory

section Concrete

attribute [local instance] asciiHost plainDebug bincode1

/-- `CREATE TABLE t (a INT DEFAULT 5, b INT)`. -/
def defaultFive : Executor :=
  (Executor.ofMemory .new none).after (callIn "srrdb"
    (.createTable ⟨["t"], [⟨"a", .int, [.default (numberExpr "5")]⟩, ⟨"b", .int, []⟩], false⟩))

def defaultFiveDef : TableDef :=
  ⟨"t", [{ Column.new "a" "t" .long with defaultExpr := some (.value (.int 5)) },
    .new "b" "t" .long]⟩

/-- `INSERT INTO t (listed) VALUES row`. -/
def insertListed (listed : List String) (row : List Expr) : Insert :=
  ⟨.tableName ["t"], listed, some ⟨.values [row], none, none, none⟩⟩

/-- `INSERT INTO t VALUES (1)` panics. -/
theorem shortRow_panics :
    ¬ InsertReturns defaultFive plainEnv "srrdb" (insertListed [] [numberExpr "1"]) :=
  fun h => h.1 (by decide +kernel)

/-- `INSERT INTO t (b) VALUES (1, 2)` is not refused, and `INSERT INTO t (a)
VALUES (NULL)` stores 5. -/
theorem surplus_and_null_not_mapped :
    ¬ MapsValues defaultFive plainEnv "srrdb" (insertListed ["b"] [numberExpr "1", numberExpr "2"])
        defaultFiveDef [[numberExpr "1", numberExpr "2"]] ∧
      ¬ MapsValues defaultFive plainEnv "srrdb" (insertListed ["a"] [.value .null]) defaultFiveDef
        [[.value .null]] := by
  constructor
  · intro h
    have hresult : (callIn "srrdb"
        (.insert (insertListed ["b"] [numberExpr "1", numberExpr "2"]))).result defaultFive =
          .ok (.affected 1 0) := by decide +kernel
    obtain ⟨⟨msg, hfailed⟩, -⟩ := h.refused ⟨_, List.mem_singleton_self _, .inl (by decide)⟩
    cases hresult.symm.trans hfailed
  · intro h
    have hfits : ∀ exprs ∈ [[Expr.value .null]],
        ¬ Misfit defaultFiveDef.columns (insertListed ["a"] [.value .null]).columns exprs := by
      decide +kernel
    obtain ⟨-, hstored⟩ := h.stored hfits
    obtain ⟨row, hrow, -, hcells⟩ := hstored 0 _ rfl
    have hfive : ((defaultFive.after (callIn "srrdb"
        (.insert (insertListed ["a"] [.value .null])))).storage.value.table "t")[
        defaultFive.storage.value.nextId "t" + 0]? = some ⟨1, [.int 5, .null]⟩ := by
      decide +kernel
    cases hrow.symm.trans hfive
    obtain ⟨v, hv, hfills⟩ := hcells 0 _ rfl
    cases hv
    have hgiven : given defaultFiveDef.columns ["a"] [.value .null] 0 = some .null := by
      decide +kernel
    rw [Fills, if_neg (by simp [Column.new])] at hfills
    cases hfills.trans (congrArg (Option.getD · _) hgiven)

/-- `INSERT INTO t (b) VALUES (2)`. -/
theorem listedColumn_mapped :
    MapsValues defaultFive plainEnv "srrdb" (insertListed ["b"] [numberExpr "2"]) defaultFiveDef
      [[numberExpr "2"]] := by
  have hnulls : ∀ j < 2, given defaultFiveDef.columns ["b"] [numberExpr "2"] j ≠ some .null := by
    decide +kernel
  refine (insert_maps_iff plainEnv (by decide +kernel) (by decide +kernel) (by decide +kernel)
    (by decide +kernel) ⟨_, rfl, rfl⟩).mpr (.inr ⟨by decide +kernel, ?_⟩)
  intro k exprs hk j col hj _ hnull
  obtain ⟨hlt, rfl⟩ := List.getElem?_eq_some_iff.mp hk
  obtain rfl : k = 0 := by simpa using hlt
  exact absurd hnull (hnulls j (List.getElem?_eq_some_iff.mp hj).1)

end Concrete

end Srrdb.Engine

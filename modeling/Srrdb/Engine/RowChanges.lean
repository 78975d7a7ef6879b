/-
Srrdb.Engine.RowChanges — what INSERT, DELETE and UPDATE do to the rows.

DELETE and UPDATE put one table in the place of another (`Rewrites`), sound
if the old one was and the same if no row was selected; INSERT adds rows. The
index data they change on the way plays no part here.
-/
import Srrdb.Engine.Outcomes
import Srrdb.Engine.StorageTheorems

namespace Srrdb.Engine

open Srrdb.Sql Srrdb.Lib

variable [Host]

/-! ## DELETE and UPDATE -/

/-- A change of selected rows, as a function on the table alone. -/
structure Rewrites (tableName : String) (change : Storage → List Row → Storage)
    (rewrite : List Row → Table → Table) : Prop where
  sameRows : ∀ s rows, (change s rows).SameRows (s.modifyTable tableName (rewrite rows))
  sound : ∀ rows t next, t.Sound next → (rewrite rows t).Sound next
  nil : ∀ t, rewrite [] t = t
  empty : ∀ rows, rewrite rows ∅ = ∅

/-- The rows of a DELETE taken out of the table. -/
def eraseRows (rows : List Row) (t : Table) : Table := rows.foldl (fun t row => t.erase row.id) t

theorem deleteRows_rewrites (tableName : String) (indexes : List IndexDef)
    (columns : List Column) :
    Rewrites tableName (fun s rows => deleteRows s tableName indexes columns rows) eraseRows where
  sameRows _ _ := ⟨rfl, rfl⟩
  sound rows _ _ h := h.eraseRows rows
  nil _ := rfl
  empty rows := by
    refine Std.ExtTreeMap.ext_getElem? fun id => ?_
    rw [eraseRows, Table.getElem?_eraseRows]
    simp

omit [Host] in
theorem length_assignValues [ExprDebug] (assigns : List (Nat × Expr)) (values : List Value) :
    (assignValues assigns values).length = values.length := by
  induction assigns generalizing values with
  | nil => rfl
  | cons a rest ih => exact (ih _).trans List.length_set

/-- The rows of an UPDATE written to the table. -/
def assignRows [ExprDebug] (assigns : List (Nat × Expr)) (rows : List Row) (t : Table) : Table :=
  (rows.map fun row => { row with values := assignValues assigns row.values }).foldl
    (fun t row => t.modify row.id fun old => { old with values := row.values }) t

theorem updateRows_rewrites [ExprDebug] (tableName : String) (indexes : List IndexDef)
    (columns : List Column) (assigns : List (Nat × Expr)) :
    Rewrites tableName (fun s rows => updateRows s tableName indexes columns assigns rows)
      (assignRows assigns) where
  sameRows _ _ := ⟨rfl, rfl⟩
  sound _ _ _ h := h.writeRows _
  nil _ := rfl
  empty rows := by
    refine Std.ExtTreeMap.ext_getElem? fun id => ?_
    obtain ⟨values?, hw⟩ := Table.getElem?_writeRows
      (rows.map fun row => { row with values := assignValues assigns row.values }) ∅ id
    rw [assignRows, hw]
    simp

@[simp] theorem logSnapshot_storage (env : Env) (tableName : String) (touched : List Row)
    (e : Executor) : (logSnapshot env tableName touched e).storage = e.storage := by
  unfold logSnapshot
  split <;> rfl

@[simp] theorem logSnapshot_catalog (env : Env) (tableName : String) (touched : List Row)
    (e : Executor) : (logSnapshot env tableName touched e).catalog = e.catalog := by
  unfold logSnapshot
  split <;> rfl

section Rewrites

variable {tableName : String} {change : Storage → List Row → Storage}
  {rewrite : List Row → Table → Table}

theorem Rewrites.table (h : Rewrites tableName change rewrite) {s : Storage} {t : Table}
    (ht : s.getTable? tableName = some t) (rows : List Row) :
    (change s rows).getTable? tableName = some (rewrite rows t) := by
  rw [Storage.getTable?, (h.sameRows s rows).tables, Storage.tables_modifyTable ht]
  exact Std.ExtTreeMap.getElem?_insert_self

theorem Rewrites.getRows (h : Rewrites tableName change rewrite) {s : Storage} {t : Table}
    (ht : s.getTable? tableName = some t) (rows : List Row) :
    (change s rows).getRows tableName = (rewrite rows t).rows := by
  rw [Storage.getRows_eq, Storage.table_of_getTable? (h.table ht rows)]

theorem Rewrites.consistent (h : Rewrites tableName change rewrite) {s : Storage}
    (hs : s.Consistent) (rows : List Row) : (change s rows).Consistent :=
  (h.sameRows s rows).symm.consistent
    (hs.modifyTable tableName (h.empty rows) fun t next ht => h.sound rows t next ht)

/-- A change that selected nothing leaves the rows alone. -/
theorem Rewrites.sameRows_nil (h : Rewrites tableName change rewrite) {s : Storage} {t : Table}
    (ht : s.getTable? tableName = some t) : (change s []).SameRows s :=
  (h.sameRows s []).trans (Storage.modifyTable_self ht (h.nil t))

/-- The snapshot logged by a change, replayed on the storage before it. -/
theorem Rewrites.restoreRows (h : Rewrites tableName change rewrite) {s : Storage} {t : Table}
    (ht : s.getTable? tableName = some t) (hs : s.Consistent) (rows : List Row) :
    (s.restoreRows tableName ((change s rows).getRows tableName)).SameRows (change s rows) := by
  rw [h.getRows ht rows]
  have hsound : (rewrite rows t).Sound (s.nextId tableName) := by
    refine h.sound rows t _ ?_
    rw [← Storage.table_of_getTable? ht]
    exact hs.sound tableName
  have hput : (s.modifyTable tableName fun _ => rewrite rows t).SameRows
      (s.modifyTable tableName (rewrite rows)) := by
    refine ⟨?_, rfl⟩
    rw [Storage.tables_modifyTable ht, Storage.tables_modifyTable ht]
  exact (Storage.restoreRows_rows hs.paired ht hsound).trans (hput.trans (h.sameRows s rows).symm)

end Rewrites

/-! ## Selected rows -/

section Selected

variable [ExprDebug] {columns : List Column} {selection : Option Expr}

/-- Does the WHERE clause hold of a row? -/
def selects (columns : List Column) (selection : Option Expr) (row : Row) : Bool :=
  match rowSelected columns selection row with
  | .ok keep => keep
  | .error _ => false

theorem selects_iff {columns : List Column} {expr : Expr} {row : Row} :
    selects columns (some expr) row = true ↔ evalWhere columns row.values expr = .ok true := by
  rw [selects, rowSelected, whereHolds]
  rcases evalWhere columns row.values expr with (_ | msg) | b <;> simp

theorem selectRows_eq_filter {rows selected : List Row}
    (h : selectRows columns selection rows = .ok selected) :
    selected = rows.filter (selects columns selection) := by
  induction rows generalizing selected with
  | nil =>
    cases h
    rfl
  | cons row rest ih =>
    unfold selectRows at h
    cases hrow : rowSelected columns selection row with
    | error x => rw [hrow] at h; cases h
    | ok keep =>
      cases hrest : selectRows columns selection rest with
      | error x => rw [hrow, hrest] at h; cases h
      | ok others =>
        rw [hrow, hrest] at h
        have hkeep : selects columns selection row = keep := by rw [selects, hrow]
        rw [List.filter_cons, hkeep, ← ih hrest]
        cases keep <;> (cases h; rfl)

omit [Host] [ExprDebug] in
/-- The entries of a keyed table are its rows. -/
theorem Table.Keyed.entries_eq {t : Table} (h : t.Keyed) :
    t.entries = t.rows := by
  unfold Table.entries Table.rows
  refine List.map_congr_left fun e he => ?_
  rw [← h e.1 e.2 (OrdMap.mem_toList.mp he)]

/-- A selected row is stored under its id. -/
theorem getElem?_of_selected {t : Table} (ht : t.Keyed) {rows : List Row}
    (h : selectRows columns selection t.entries = .ok rows) {row : Row} (hrow : row ∈ rows) :
    t[row.id]? = some row := by
  rw [selectRows_eq_filter h, ht.entries_eq] at hrow
  exact ht.mem_rows.mp (List.mem_filter.mp hrow).1

theorem nodup_selected {t : Table} (ht : t.Keyed) {rows : List Row}
    (h : selectRows columns selection t.entries = .ok rows) : (rows.map (·.id)).Nodup := by
  rw [selectRows_eq_filter h, ht.entries_eq]
  exact ht.nodup_rows.sublist (List.filter_sublist.map _)

/-! ### Does the table change? -/

theorem eraseRows_ne_self {t : Table} (ht : t.Keyed) {rows : List Row}
    (h : selectRows columns selection t.entries = .ok rows) (hne : rows ≠ []) :
    eraseRows rows t ≠ t := by
  intro heq
  obtain ⟨row, hrow⟩ := List.exists_mem_of_ne_nil rows hne
  have hget := Table.getElem?_eraseRows rows t row.id
  rw [if_pos (List.mem_map_of_mem hrow)] at hget
  rw [eraseRows] at heq
  rw [heq, getElem?_of_selected ht h hrow] at hget
  cases hget

theorem getElem?_assignRows_of_mem (assigns : List (Nat × Expr)) {t : Table} (ht : t.Keyed)
    {rows : List Row} (h : selectRows columns selection t.entries = .ok rows) {row : Row}
    (hrow : row ∈ rows) :
    (assignRows assigns rows t)[row.id]? =
      some ⟨row.id, assignValues assigns row.values⟩ := by
  let write : Row → Row := fun row => { row with values := assignValues assigns row.values }
  have hnd : ((rows.map write).map (·.id)).Nodup := by
    rw [List.map_map]
    exact nodup_selected ht h
  have hw := Table.getElem?_writeRows_of_mem hnd (List.mem_map_of_mem hrow) t
  rw [assignRows, hw, getElem?_of_selected ht h hrow]
  rfl

omit [Host] in
theorem getElem?_assignRows_of_notMem (assigns : List (Nat × Expr)) (t : Table)
    {rows : List Row} {id : Nat} (h : id ∉ rows.map (·.id)) :
    (assignRows assigns rows t)[id]? = t[id]? := by
  rw [assignRows, Table.getElem?_writeRows_of_notMem]
  rw [List.map_map]
  exact h

/-- UPDATE leaves the table alone exactly when it gives every selected row
the values it has. -/
theorem assignRows_eq_self_iff {assigns : List (Nat × Expr)} {t : Table} (ht : t.Keyed)
    {rows : List Row} (h : selectRows columns selection t.entries = .ok rows) :
    assignRows assigns rows t = t ↔
      ∀ row ∈ rows, assignValues assigns row.values = row.values := by
  constructor
  · intro heq row hrow
    have hget := getElem?_assignRows_of_mem assigns ht h hrow
    rw [heq, getElem?_of_selected ht h hrow] at hget
    exact (congrArg Row.values (Option.some.inj hget)).symm
  · intro hsame
    refine Std.ExtTreeMap.ext_getElem? fun id => ?_
    by_cases hid : id ∈ rows.map (·.id)
    · obtain ⟨row, hrow, rfl⟩ := List.mem_map.mp hid
      rw [getElem?_assignRows_of_mem assigns ht h hrow, hsame row hrow,
        getElem?_of_selected ht h hrow]
    · exact getElem?_assignRows_of_notMem assigns t hid

/-! ### The rows afterwards -/

omit [Host] [ExprDebug] in
theorem keyed_eraseRows {t : Table} (ht : t.Keyed) (rows : List Row) :
    (eraseRows rows t).Keyed := by
  intro id row hget
  rw [eraseRows, Table.getElem?_eraseRows] at hget
  split at hget
  · cases hget
  · exact ht id row hget

theorem keyed_assignRows (assigns : List (Nat × Expr)) {t : Table} (ht : t.Keyed)
    {rows : List Row} (h : selectRows columns selection t.entries = .ok rows) :
    (assignRows assigns rows t).Keyed := by
  intro id row hget
  by_cases hid : id ∈ rows.map (·.id)
  · obtain ⟨old, hold, rfl⟩ := List.mem_map.mp hid
    rw [getElem?_assignRows_of_mem assigns ht h hold] at hget
    cases hget
    rfl
  · rw [getElem?_assignRows_of_notMem assigns t hid] at hget
    exact ht id row hget

/-- A stored row is among the selected ones exactly when its id is. -/
theorem id_mem_selected_iff {t : Table} (ht : t.Keyed) {rows : List Row}
    (h : selectRows columns selection t.entries = .ok rows) {row : Row} (hrow : row ∈ t.rows) :
    row.id ∈ rows.map (·.id) ↔ selects columns selection row = true := by
  constructor
  · intro hid
    obtain ⟨row', hrow', hsame⟩ := List.mem_map.mp hid
    have hget := getElem?_of_selected ht h hrow'
    have hget' := ht.mem_rows.mp hrow
    rw [hsame] at hget
    rw [hget] at hget'
    cases hget'
    rw [selectRows_eq_filter h] at hrow'
    exact (List.mem_filter.mp hrow').2
  · intro hsel
    rw [selectRows_eq_filter h, ht.entries_eq]
    exact List.mem_map_of_mem (List.mem_filter.mpr ⟨hrow, hsel⟩)

/-- DELETE keeps the rows it did not select. -/
theorem eraseRows_rows_perm {t : Table} (ht : t.Keyed) {rows : List Row}
    (h : selectRows columns selection t.entries = .ok rows) :
    (eraseRows rows t).rows.Perm (t.rows.filter fun row => !selects columns selection row) := by
  have hnodup := (keyed_eraseRows ht rows).nodup_rows.of_map
  rw [List.perm_ext_iff_of_nodup hnodup (ht.nodup_rows.of_map.filter _)]
  intro row
  rw [(keyed_eraseRows ht rows).mem_rows, eraseRows, Table.getElem?_eraseRows, List.mem_filter,
    Bool.not_eq_true']
  constructor
  · intro hget
    split at hget
    · cases hget
    · next hid =>
      have hrow := ht.mem_rows.mpr hget
      rw [id_mem_selected_iff ht h hrow, Bool.not_eq_true] at hid
      exact ⟨hrow, hid⟩
  · rintro ⟨hrow, hsel⟩
    rw [if_neg (by rw [id_mem_selected_iff ht h hrow, hsel]; decide)]
    exact ht.mem_rows.mp hrow

/-- UPDATE rewrites the rows it selected and keeps the others. -/
theorem assignRows_rows_perm (assigns : List (Nat × Expr)) {t : Table} (ht : t.Keyed)
    {rows : List Row} (h : selectRows columns selection t.entries = .ok rows) :
    (assignRows assigns rows t).rows.Perm
      ((rows.map fun row => ⟨row.id, assignValues assigns row.values⟩) ++
        t.rows.filter fun row => !selects columns selection row) := by
  have hkeyed := keyed_assignRows assigns ht h
  have hids : ∀ row ∈ t.rows.filter fun row => !selects columns selection row,
      row.id ∉ rows.map (·.id) := by
    intro row hrow
    obtain ⟨hrow, hsel⟩ := List.mem_filter.mp hrow
    rw [id_mem_selected_iff ht h hrow]
    simpa using hsel
  have hnodup : ((rows.map fun row => (⟨row.id, assignValues assigns row.values⟩ : Row)) ++
      t.rows.filter fun row => !selects columns selection row).Nodup := by
    refine List.Nodup.of_map (·.id) ?_
    rw [List.map_append, List.map_map]
    refine List.Nodup.append (nodup_selected ht h)
      (ht.nodup_rows.sublist (List.filter_sublist.map _)) fun id hid hid' => ?_
    obtain ⟨row, hrow, rfl⟩ := List.mem_map.mp hid'
    exact hids row hrow hid
  rw [List.perm_ext_iff_of_nodup hkeyed.nodup_rows.of_map hnodup]
  intro row
  rw [hkeyed.mem_rows, List.mem_append]
  by_cases hid : row.id ∈ rows.map (·.id)
  · obtain ⟨old, hold, hsame⟩ := List.mem_map.mp hid
    rw [← hsame, getElem?_assignRows_of_mem assigns ht h hold]
    constructor
    · intro hrow
      exact .inl (List.mem_map.mpr ⟨old, hold, Option.some.inj hrow⟩)
    · rintro (hrow | hrow)
      · obtain ⟨old', hold', rfl⟩ := List.mem_map.mp hrow
        obtain rfl : old' = old :=
          List.inj_on_of_nodup_map (nodup_selected ht h) hold' hold hsame.symm
        rfl
      · exact absurd hid (hids row hrow)
  · rw [getElem?_assignRows_of_notMem assigns t hid]
    constructor
    · intro hget
      have hrow := ht.mem_rows.mpr hget
      rw [id_mem_selected_iff ht h hrow, Bool.not_eq_true] at hid
      exact .inr (List.mem_filter.mpr ⟨hrow, by rw [hid]; rfl⟩)
    · rintro (hrow | hrow)
      · obtain ⟨old, hold, rfl⟩ := List.mem_map.mp hrow
        exact absurd (List.mem_map_of_mem hold) hid
      · exact ht.mem_rows.mp (List.mem_filter.mp hrow).1

end Selected

/-! ## INSERT -/

section InsertDone

variable [Bincode] (e : Executor) (tableName : String) (indexes : List IndexDef)
  (columns : List Column) (ids : List Nat)

/-- Saving and indexing the inserted rows leaves the rows alone. -/
theorem insertDone_sameRows :
    e.storage.value.SameRows (insertDone e tableName indexes columns ids).storage.value := by
  unfold insertDone
  split <;> exact ⟨rfl, rfl⟩

@[simp] theorem insertDone_wal : (insertDone e tableName indexes columns ids).wal = e.wal := by
  unfold insertDone
  split <;> rfl

@[simp] theorem insertDone_catalog :
    (insertDone e tableName indexes columns ids).catalog = e.catalog := by
  unfold insertDone
  split <;> rfl

@[simp] theorem insertDone_storage_poisoned :
    (insertDone e tableName indexes columns ids).storage.poisoned = e.storage.poisoned := by
  unfold insertDone
  split <;> rfl

end InsertDone

omit [Host] in
/-- INSERT adds a row to the table for every row it is given. -/
theorem insertLoop_ne_self {t : Table} {next : Nat} (h : t.Sound next) {rows : List Row}
    (hz : ∀ row ∈ rows, row.id = 0) (hne : rows ≠ []) :
    (Storage.insertLoop t next rows).1 ≠ t := by
  intro heq
  have hlen := (Storage.insertLoop_rows_perm hz h).length_eq
  rw [heq] at hlen
  simp only [List.length_map, List.length_append] at hlen
  have : rows.length ≠ 0 := fun h => hne (List.length_eq_zero_iff.mp h)
  omega

end Srrdb.Engine

/-
Srrdb.Engine.RowOrder — the rows of a table, as a list.

A table is a map from ids, so its rows come in the order of their ids. INSERT
gives out growing ids, so that is the order of insertion: `insert_rows` appends
(`rows_insertLoop`), DELETE leaves rows out (`rows_eraseRows`) and UPDATE
rewrites rows where they stand (`rows_assignRows`). `RowChanges` has the last
two up to a permutation; a list sorted by id is determined by that.
-/
import Srrdb.Engine.RowChanges

namespace Srrdb.Engine

open Srrdb.Sql Srrdb.Lib

/-- Strictly sorted by id. -/
def ById (rows : List Row) : Prop := rows.Pairwise fun a b => a.id < b.id

theorem ById.sublist {rows rows' : List Row} (h : ById rows) (hs : rows'.Sublist rows) :
    ById rows' :=
  List.Pairwise.sublist hs h

/-- A map that leaves the ids alone leaves the order alone. -/
theorem ById.map {rows : List Row} (h : ById rows) {f : Row → Row}
    (hf : ∀ row, (f row).id = row.id) : ById (rows.map f) := by
  refine List.pairwise_map.mpr (h.imp fun hlt => ?_)
  rwa [hf, hf]

/-- A list sorted by id has no other order. -/
theorem ById.eq_of_perm {rows rows' : List Row} (h : ById rows) (h' : ById rows')
    (hp : rows.Perm rows') : rows = rows' :=
  hp.eq_of_pairwise (fun _ _ _ _ hlt hgt => absurd hlt (Nat.lt_asymm hgt)) h h'

namespace Table

variable {t : Table}

theorem Keyed.byId (h : t.Keyed) : ById t.rows := by
  refine List.pairwise_map.mpr ?_
  have hkeys : t.toList.Pairwise fun a b => compare a.1 b.1 = .lt :=
    Std.ExtTreeMap.ordered_keys_toList
  refine hkeys.imp_of_mem fun ha hb hlt => ?_
  rw [h _ _ (OrdMap.mem_toList.mp ha), h _ _ (OrdMap.mem_toList.mp hb)]
  exact Std.compare_eq_lt.mp hlt

theorem Sound.rows_insert {next : Nat} (h : t.Sound next) (values : List Value) :
    rows (t.insert next ⟨next, values⟩) = t.rows ++ [⟨next, values⟩] := by
  have hnew := h.insert h.next_pos (Nat.le_succ next) (Nat.lt_succ_self next) values
  have hlast : ById (t.rows ++ [⟨next, values⟩]) := by
    refine List.pairwise_append.mpr ⟨h.keyed.byId, List.pairwise_singleton _ _, ?_⟩
    intro row hrow last hmem
    rw [List.mem_singleton] at hmem
    subst hmem
    exact h.id_lt row.id row (h.keyed.mem_rows.mp hrow)
  refine hnew.keyed.byId.eq_of_perm hlast ?_
  exact (rows_insert_perm (h.getElem?_next le_rfl) ⟨next, values⟩).trans
    (List.perm_append_singleton _ _).symm

end Table

/-- `insert_rows` appends rows that bring no id. -/
theorem rows_insertLoop {rows : List Row} (hz : ∀ row ∈ rows, row.id = 0) {t : Table} {next : Nat}
    (h : t.Sound next) :
    (Storage.insertLoop t next rows).1.rows.map (·.values) =
      t.rows.map (·.values) ++ rows.map (·.values) := by
  induction rows generalizing t next with
  | nil => simp [Storage.insertLoop]
  | cons row rest ih =>
    rw [Storage.insertLoop, if_pos (hz row List.mem_cons_self)]
    have hnew := h.insert h.next_pos (Nat.le_succ next) (Nat.lt_succ_self next) row.values
    have hrest := ih (fun r hr => hz r (List.mem_cons_of_mem _ hr)) hnew
    simp only [hrest, h.rows_insert, List.map_append, List.map_cons, List.map_nil,
      List.append_assoc, List.singleton_append]

section Selected

variable [Host] [ExprDebug] {columns : List Column} {selection : Option Expr} {t : Table}
  {rows : List Row}

/-- DELETE leaves the selected rows out. -/
theorem rows_eraseRows (ht : t.Keyed) (h : selectRows columns selection t.entries = .ok rows) :
    (eraseRows rows t).rows = t.rows.filter fun row => !selects columns selection row :=
  (keyed_eraseRows ht rows).byId.eq_of_perm (ht.byId.sublist List.filter_sublist)
    (eraseRows_rows_perm ht h)

/-- What UPDATE makes of one row. -/
def assignRow (assigns : List (Nat × Expr)) (columns : List Column) (selection : Option Expr)
    (row : Row) : Row :=
  if selects columns selection row then ⟨row.id, assignValues assigns row.values⟩ else row

theorem assignRow_id (assigns : List (Nat × Expr)) (row : Row) :
    (assignRow assigns columns selection row).id = row.id := by
  unfold assignRow
  split <;> rfl

/-- UPDATE rewrites the selected rows where they stand. -/
theorem rows_assignRows (assigns : List (Nat × Expr)) (ht : t.Keyed)
    (h : selectRows columns selection t.entries = .ok rows) :
    (assignRows assigns rows t).rows = t.rows.map (assignRow assigns columns selection) := by
  refine (keyed_assignRows assigns ht h).byId.eq_of_perm (ht.byId.map (assignRow_id assigns)) ?_
  refine (assignRows_rows_perm assigns ht h).trans ?_
  have hsplit := (List.filter_append_perm (selects columns selection) t.rows).map
    (assignRow assigns columns selection)
  rw [List.map_append] at hsplit
  refine List.Perm.trans (List.Perm.of_eq ?_) hsplit
  congr 1
  · rw [selectRows_eq_filter h, ht.entries_eq]
    refine List.map_congr_left fun row hrow => ?_
    rw [assignRow, if_pos (List.mem_filter.mp hrow).2]
  · refine (List.map_id' _).symm.trans (List.map_congr_left fun row hrow => ?_)
    have hsel := (List.mem_filter.mp hrow).2
    rw [assignRow, if_neg (by simpa using hsel)]

end Selected

end Srrdb.Engine

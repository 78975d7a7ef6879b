/-
Srrdb.Engine.RowIds — row ids over any sequence of storage operations.

`insert_rows` is the only operation that makes ids. It takes those the rows
bring and gives the others the counter, which it keeps above both; clearing a
table removes its rows and its counter together, and the writes through
`get_table_mut` neither add a row nor move one. So a counter is above every
id in its table after every sequence of operations, and a row that brings no
id replaces nothing (`rowIds_after`). The counters of the model have no bound;
the source's are the same numbers while none reaches the last `u64`.
-/
import Srrdb.Engine.StorageTheorems
import Srrdb.Lib.Run

namespace Srrdb.Engine

open Srrdb.Lib

/-! ## Operations -/

/-- What the engine does to the rows of a storage. -/
inductive RowOp where
  | insertRows (tableName : String) (rows : List Row)
  | clearTable (tableName : String)
  | removeRow (tableName : String) (id : Nat)
  | setValues (tableName : String) (id : Nat) (values : List Value)

section

variable [Host]

/-- One operation; the last two write through `get_table_mut`. -/
def RowOp.apply (s : Storage) : RowOp → Storage
  | .insertRows tableName rows => (s.insertRows tableName rows).2
  | .clearTable tableName => s.clearTable tableName
  | .removeRow tableName id => s.modifyTable tableName fun t => t.erase id
  | .setValues tableName id values =>
    s.modifyTable tableName fun t => t.modify id fun row => { row with values := values }

/-- The storage after these operations. -/
def afterOps (ops : List RowOp) : Storage := ops.foldl RowOp.apply .new

/-! ## The invariant -/

/-- Every row is stored under its own id, and its table has a counter above
it. -/
def KeptIds (s : Storage) : Prop :=
  ∀ (tableName : String) (t : Table) (id : Nat) (row : Row), s.getTable? tableName = some t →
    t[id]? = some row → row.id = id ∧ ∃ next, s.nextIds[normalize tableName]? = some next ∧ id < next

/-- Rows without ids get increasing ids that no row has, and are added to the
others under them; no other table changes. -/
def AddsFresh (s : Storage) (tableName : String) (rows : List Row) : Prop :=
  (s.insertRows tableName rows).1.Pairwise (· < ·) ∧
  (s.insertRows tableName rows).1.length = rows.length ∧
  (∀ id ∈ (s.insertRows tableName rows).1, (s.table tableName)[id]? = none) ∧
  (∀ (id : Nat) (row : Row), (s.table tableName)[id]? = some row →
    ((s.insertRows tableName rows).2.table tableName)[id]? = some row) ∧
  ((s.insertRows tableName rows).2.getRows tableName).Perm
    ((s.insertRows tableName rows).1.zipWith (fun id row => ⟨id, row.values⟩) rows ++
      s.getRows tableName) ∧
  ∀ other, ¬ SameName tableName other →
    (s.insertRows tableName rows).2.getTable? other = s.getTable? other

omit [Host] in
theorem Table.Sound.erase {t : Table} {next : Nat} (h : t.Sound next) (id : Nat) :
    Table.Sound (t.erase id) next :=
  h.eraseRows [⟨id, []⟩]

omit [Host] in
theorem Table.Sound.modify {t : Table} {next : Nat} (h : t.Sound next) (id : Nat)
    (values : List Value) :
    Table.Sound (t.modify id fun row => { row with values := values }) next :=
  h.writeRows [⟨id, values⟩]

/-- What one operation keeps. -/
theorem Storage.Consistent.apply {s : Storage} (h : s.Consistent) (op : RowOp) :
    (op.apply s).Consistent := by
  cases op with
  | insertRows tableName rows => exact h.insertRows tableName rows
  | clearTable tableName => exact h.clearTable tableName
  | removeRow tableName id =>
    refine h.modifyTable tableName ?_ fun t next ht => ht.erase id
    exact Std.ExtTreeMap.erase_empty
  | setValues tableName id values =>
    refine h.modifyTable tableName ?_ fun t next ht => ht.modify id values
    exact Std.ExtTreeMap.ext_getElem? fun k => by simp [Std.ExtTreeMap.getElem?_modify]

theorem consistent_afterOps (ops : List RowOp) : (afterOps ops).Consistent :=
  foldl_keeps (I := Storage.Consistent) (fun _ op _ h => h.apply op) Storage.Consistent.new

/-- A consistent storage keeps its ids below its counters. -/
theorem Storage.Consistent.keptIds {s : Storage} (h : s.Consistent) : KeptIds s := by
  intro tableName t id row ht hrow
  have hsound := h.sound tableName
  rw [Storage.table_of_getTable? ht] at hsound
  refine ⟨hsound.keyed id row hrow, ?_⟩
  have hentry := h.paired (normalize tableName)
  rw [show s.tables[normalize tableName]? = some t from ht, Option.isSome_some] at hentry
  obtain ⟨next, hnext⟩ := Option.isSome_iff_exists.mp hentry.symm
  refine ⟨next, hnext, ?_⟩
  have hlt := hsound.id_lt id row hrow
  rwa [Storage.nextId, Std.ExtTreeMap.getD_eq_getD_getElem?, hnext] at hlt

/-! ## Fresh ids -/

omit [Host] in
/-- The loop of `insert_rows` on rows without ids: none of the stored rows is
under an id it gives. -/
theorem insertLoop_adds {rows : List Row} (hz : ∀ row ∈ rows, row.id = 0) {t : Table}
    {next : Nat} (h : t.Sound next) :
    (Storage.insertLoop t next rows).1.rows.Perm
      ((List.range' next rows.length).zipWith (fun id row => ⟨id, row.values⟩) rows ++ t.rows) ∧
    ∀ (id : Nat) (row : Row), t[id]? = some row →
      (Storage.insertLoop t next rows).1[id]? = some row := by
  induction rows generalizing t next with
  | nil => exact ⟨.rfl, fun _ _ hrow => hrow⟩
  | cons first rest ih =>
    have hsound := h.insert h.next_pos (Nat.le_succ next) (Nat.lt_succ_self next) first.values
    obtain ⟨hperm, hkeep⟩ := ih (fun row hr => hz row (List.mem_cons_of_mem _ hr)) hsound
    rw [Storage.insertLoop, if_pos (hz first List.mem_cons_self)]
    constructor
    · have hone := Table.rows_insert_perm (h.getElem?_next le_rfl) ⟨next, first.values⟩
      rw [List.length_cons, List.range'_succ, List.zipWith_cons_cons]
      exact (hperm.trans (hone.append_left _)).trans List.perm_middle
    · intro id row hrow
      refine hkeep id row ?_
      have hne : next ≠ id := fun heq => by
        have hlt := h.id_lt id row hrow
        omega
      rwa [Std.ExtTreeMap.getElem?_insert, if_neg]
      rwa [Std.LawfulEqCmp.compare_eq_iff_eq]

theorem Storage.Consistent.addsFresh {s : Storage} (h : s.Consistent) (tableName : String)
    {rows : List Row} (hz : ∀ row ∈ rows, row.id = 0) : AddsFresh s tableName rows := by
  have hsound := h.sound tableName
  obtain ⟨hperm, hkeep⟩ := insertLoop_adds hz hsound
  have hids : (s.insertRows tableName rows).1 =
      List.range' (s.nextId tableName) rows.length := by
    rw [Storage.ids_insertRows, Storage.insertLoop_fresh hz]
  have htable : (s.insertRows tableName rows).2.table tableName =
      (Storage.insertLoop (s.table tableName) (s.nextId tableName) rows).1 := by
    rw [Storage.table_insertRows, if_pos rfl]
  refine ⟨?_, ?_, fun id hid => ?_, fun id row hrow => ?_, ?_, fun other hother => ?_⟩
  · rw [hids]
    exact List.pairwise_lt_range'
  · rw [hids, List.length_range']
  · rw [hids, List.mem_range'_1] at hid
    exact hsound.getElem?_next hid.1
  · rw [htable]
    exact hkeep id row hrow
  · rw [hids, Storage.getRows_eq, Storage.getRows_eq, htable]
    exact hperm
  · rw [Storage.getTable?, Storage.insertRows, Std.ExtTreeMap.getElem?_insert, if_neg]
    · rfl
    · rwa [Std.LawfulEqCmp.compare_eq_iff_eq]

/-- After every sequence of operations the counters are above the ids, and rows
without ids replace nothing. -/
theorem rowIds_after (ops : List RowOp) :
    KeptIds (afterOps ops) ∧ ∀ (tableName : String) (rows : List Row),
      (∀ row ∈ rows, row.id = 0) → AddsFresh (afterOps ops) tableName rows :=
  ⟨(consistent_afterOps ops).keptIds,
    fun tableName _ hz => (consistent_afterOps ops).addsFresh tableName hz⟩

end

end Srrdb.Engine

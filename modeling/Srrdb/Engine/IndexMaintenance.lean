/-
Srrdb.Engine.IndexMaintenance — INSERT, DELETE, UPDATE and CREATE INDEX keep
an index exact.

A statement changes the data of every index of its table, row by row. Since
the indexes of a table have distinct storage keys, one index sees only the
changes made for it: an insertion or a deletion for each row
(`getElem?_insertIndexes`, `getElem?_deleteIndexes`). With the rows changed in
step, these are `Exact.insertMany` and `Exact.deleteMany`. An INSERT stores its
rows before it indexes them; in between the index is exact but for these rows
(`IndexExactBut`), and the lemmas allow for such rows throughout.
-/
import Srrdb.Engine.Defaults
import Srrdb.Engine.ExactIndex
import Srrdb.Lib.Run

namespace Srrdb.Engine

open Srrdb.Sql Srrdb.Lib

/-! ## Regular rows -/

/-- A value that is equal to itself: not a NaN. -/
def Value.Regular (v : Value) : Prop := v.eq v = true

instance (v : Value) : Decidable v.Regular := inferInstanceAs (Decidable (_ = _))

/-- A row without NaN. -/
def Row.Regular (row : Row) : Prop := ∀ v ∈ row.values, v.Regular

/-- A regular row has a regular key in every index. -/
theorem Row.Regular.getIndexKey {row : Row} (h : row.Regular) (idx : IndexDef)
    (columns : List Column) : (getIndexKey row idx columns).regular = true := by
  unfold Engine.getIndexKey buildKey Key.regular
  rw [List.all_map, List.all_eq_true]
  intro cname _
  simp only [Function.comp_apply]
  cases hv : (columnPosition columns cname).bind fun pos => row.values[pos]? with
  | none => rfl
  | some v =>
    obtain ⟨pos, -, hget⟩ := Option.bind_eq_some_iff.mp hv
    exact h v (List.mem_of_getElem? hget)

variable [Host]

/-! ## The data of one index -/

section Loops

variable {tableName : String} {indexes : List IndexDef} {idx : IndexDef}

/-- The storage keys of the indexes of a table are distinct. -/
def DistinctKeys (tableName : String) (indexes : List IndexDef) : Prop :=
  (indexes.map fun idx => storageKey tableName idx.name).Nodup

/-- What the insertion of rows does to an index of the table. -/
theorem getElem?_insertIndexes (hd : DistinctKeys tableName indexes) (hidx : idx ∈ indexes)
    (columns : List Column) (rows : List Row) {indexData : IndexMap} {data : IndexData}
    (hdata : indexData[storageKey tableName idx.name]? = some data) :
    (rows.foldl (fun d row => insertIntoIndexesRaw d tableName indexes columns row)
      indexData)[storageKey tableName idx.name]? =
      some (rows.foldl (fun d row => d.insert (getIndexKey row idx columns) row.id) data) := by
  induction rows generalizing indexData data with
  | nil => exact hdata
  | cons row rest ih =>
    refine ih ?_
    show (insertIntoIndexesRaw indexData tableName indexes columns row)[_]? = _
    rw [insertIntoIndexesRaw, OrdMap.getElem?_foldl_alter_of_mem
      (fun idx : IndexDef => storageKey tableName idx.name) _ hd hidx, hdata]
    rfl

/-- What the deletion of rows does to an index of the table. -/
theorem getElem?_deleteIndexes (hd : DistinctKeys tableName indexes) (hidx : idx ∈ indexes)
    (columns : List Column) (rows : List Row) {indexData : IndexMap} {data : IndexData}
    (hdata : indexData[storageKey tableName idx.name]? = some data) :
    (rows.foldl (fun d row => deleteFromIndexesRaw d tableName indexes columns row)
      indexData)[storageKey tableName idx.name]? =
      some (rows.foldl (fun d row => d.delete (getIndexKey row idx columns) row.id) data) := by
  induction rows generalizing indexData data with
  | nil => exact hdata
  | cons row rest ih =>
    refine ih ?_
    show (deleteFromIndexesRaw indexData tableName indexes columns row)[_]? = _
    rw [deleteFromIndexesRaw, OrdMap.getElem?_foldl_alter_of_mem
      (fun idx : IndexDef => storageKey tableName idx.name) _ hd hidx, hdata]
    rfl

/-- Data under another key is left alone. -/
theorem getElem?_insertIntoIndexesRaw_of_notMem {key : String}
    (h : ∀ idx ∈ indexes, key ≠ storageKey tableName idx.name) (columns : List Column)
    (row : Row) (data : IndexMap) :
    (insertIntoIndexesRaw data tableName indexes columns row)[key]? = data[key]? := by
  refine OrdMap.getElem?_foldl_alter_of_notMem
    (fun idx : IndexDef => storageKey tableName idx.name) _ ?_ data
  intro hmem
  obtain ⟨idx, hidx, rfl⟩ := List.mem_map.mp hmem
  exact h idx hidx rfl

theorem getElem?_deleteFromIndexesRaw_of_notMem {key : String}
    (h : ∀ idx ∈ indexes, key ≠ storageKey tableName idx.name) (columns : List Column)
    (row : Row) (data : IndexMap) :
    (deleteFromIndexesRaw data tableName indexes columns row)[key]? = data[key]? := by
  refine OrdMap.getElem?_foldl_alter_of_notMem
    (fun idx : IndexDef => storageKey tableName idx.name) _ ?_ data
  intro hmem
  obtain ⟨idx, hidx, rfl⟩ := List.mem_map.mp hmem
  exact h idx hidx rfl

/-- After INSERT every index of the table offers its rows under their keys, and
whatever it held before. -/
theorem indexInserted_offers (hidx : idx ∈ indexes) (columns : List Column) (s : Storage)
    {ids : List Nat} {id : Nat} (hid : id ∈ ids) :
    ∃ data, (indexInserted s tableName indexes columns ids).indexData[
        storageKey tableName idx.name]? = some data ∧
      ((getIndexKey (storedRow s tableName id) idx columns).regular = true →
        id ∈ data.lookupEq (getIndexKey (storedRow s tableName id) idx columns)) := by
  let key := getIndexKey (storedRow s tableName id) idx columns
  let Offered : IndexMap → Prop := fun d => ∃ data,
    d[storageKey tableName idx.name]? = some data ∧ (key.regular = true → id ∈ data.lookupEq key)
  -- an insertion under any key keeps the ids that are there
  have hkeep : ∀ (d : IndexMap) (idx' : IndexDef) (key' : Key) (id' : Nat), Offered d →
      Offered (d.alter (storageKey tableName idx'.name) fun o =>
        some ((o.getD (.new idx'.indexType)).insert key' id')) := by
    rintro d idx' key' id' ⟨data, hdata, hmem⟩
    by_cases hname : storageKey tableName idx'.name = storageKey tableName idx.name
    · refine ⟨data.insert key' id', ?_, fun hreg => ?_⟩
      · rw [hname, Std.ExtTreeMap.getElem?_alter_self, hdata]
        rfl
      · rw [IndexData.lookupEq_insert_sameKey]
        split
        · next hsame =>
          rw [IndexData.eq_of_sameKey hsame]
          exact List.mem_append_left _ (hmem hreg)
        · exact hmem hreg
    · refine ⟨data, ?_, hmem⟩
      rw [Std.ExtTreeMap.getElem?_alter, if_neg (by simpa using hname), hdata]
  refine foldl_makes hid (I := Offered) (fun d => ?_) (fun d id' hd => ?_) s.indexData
  · refine foldl_makes hidx (fun d => ?_) (fun d idx' hd => hkeep d idx' _ _ hd) d
    refine ⟨_, Std.ExtTreeMap.getElem?_alter_self, fun hreg => ?_⟩
    rw [IndexData.lookupEq_insert _ hreg, if_pos rfl]
    exact List.mem_append_right _ (List.mem_singleton_self id)
  · exact foldl_keeps (fun d idx' _ hd => hkeep d idx' _ _ hd) hd

theorem indexInserted_indexData_keep {key : String}
    (hkey : ∀ idx ∈ indexes, key ≠ storageKey tableName idx.name) (columns : List Column)
    (s : Storage) (ids : List Nat) :
    (indexInserted s tableName indexes columns ids).indexData[key]? = s.indexData[key]? := by
  refine foldl_keeps (I := fun d : IndexMap => d[key]? = s.indexData[key]?)
    (fun d id _ hd => ?_) rfl
  exact (getElem?_insertIntoIndexesRaw_of_notMem hkey columns _ d).trans hd

theorem deleteRows_indexData_keep {key : String}
    (hkey : ∀ idx ∈ indexes, key ≠ storageKey tableName idx.name) (columns : List Column)
    (s : Storage) (rows : List Row) :
    (deleteRows s tableName indexes columns rows).indexData[key]? = s.indexData[key]? := by
  refine foldl_keeps (I := fun d : IndexMap => d[key]? = s.indexData[key]?)
    (fun d row _ hd => ?_) rfl
  exact (getElem?_deleteFromIndexesRaw_of_notMem hkey columns row d).trans hd

theorem updateRows_indexData_keep [ExprDebug] {key : String}
    (hkey : ∀ idx ∈ indexes, key ≠ storageKey tableName idx.name) (columns : List Column)
    (assigns : List (Nat × Expr)) (s : Storage) (rows : List Row) :
    (updateRows s tableName indexes columns assigns rows).indexData[key]? = s.indexData[key]? := by
  refine foldl_keeps (I := fun d : IndexMap => d[key]? = s.indexData[key]?)
    (fun d row _ hd => ?_) (deleteRows_indexData_keep hkey columns s rows)
  exact (getElem?_insertIntoIndexesRaw_of_notMem hkey columns row d).trans hd

end Loops

/-! ## Exact indexes of a storage -/

/-- The table without the rows under some ids. -/
def Table.without (t : Table) (ids : List Nat) : Table := ids.foldl (fun t id => t.erase id) t

omit [Host] in
theorem Table.getElem?_without (t : Table) (ids : List Nat) (id : Nat) :
    (t.without ids)[id]? = if id ∈ ids then none else t[id]? := by
  have h := Table.getElem?_eraseRows (ids.map fun id => ⟨id, []⟩) t id
  rw [List.foldl_map, List.map_map] at h
  exact h.trans (by simp [Function.comp_def])

/-- The data of the index is there and exact for the rows of the table. -/
def IndexExact (s : Storage) (name : String) (columns : List Column) (idx : IndexDef) : Prop :=
  ∃ data, s.indexData[storageKey name idx.name]? = some data ∧
    Exact data (fun row => getIndexKey row idx columns) (s.table name)

/-- The index is exact but for some rows of the table, which it does not hold. -/
structure IndexExactBut (s : Storage) (name : String) (columns : List Column) (idx : IndexDef)
    (pend : List Nat) : Prop where
  stored : ∀ id ∈ pend, ∃ row, (s.table name)[id]? = some row
  exact : ∃ data, s.indexData[storageKey name idx.name]? = some data ∧
    Exact data (fun row => getIndexKey row idx columns) ((s.table name).without pend)

theorem indexExactBut_nil {s : Storage} {name : String} {columns : List Column}
    {idx : IndexDef} : IndexExactBut s name columns idx [] ↔ IndexExact s name columns idx := by
  constructor
  · exact fun h => h.exact
  · intro h
    exact ⟨fun id hid => absurd hid List.not_mem_nil, h⟩

/-- What matters is the table, the data under the key, and which ids are left out. -/
theorem IndexExactBut.congr {s s' : Storage} {name : String} {columns : List Column}
    {idx : IndexDef} {pend pend' : List Nat} (h : IndexExactBut s name columns idx pend)
    (htable : s'.table name = s.table name)
    (hdata : s'.indexData[storageKey name idx.name]? = s.indexData[storageKey name idx.name]?)
    (hpend : ∀ id, id ∈ pend' ↔ id ∈ pend) : IndexExactBut s' name columns idx pend' := by
  obtain ⟨hstored, data, hd, hexact⟩ := h
  have hwithout : (s.table name).without pend' = (s.table name).without pend := by
    refine Std.ExtTreeMap.ext_getElem? fun id => ?_
    simp only [Table.getElem?_without, hpend]
  refine ⟨fun id hid => ?_, data, hdata.trans hd, ?_⟩
  · rw [htable]
    exact hstored id ((hpend id).mp hid)
  · rw [htable, hwithout]
    exact hexact

/-! ## INSERT -/

/-- Rows under the ids that follow the counter. -/
def placed : Nat → List Row → List Row
  | _, [] => []
  | next, row :: rows => ⟨next, row.values⟩ :: placed (next + 1) rows

omit [Host] in
theorem placed_id_ge {next : Nat} {rows : List Row} : ∀ row ∈ placed next rows, next ≤ row.id := by
  induction rows generalizing next with
  | nil => intro row hr; cases hr
  | cons first rest ih =>
    intro row hr
    rcases List.mem_cons.mp hr with rfl | hr
    · exact le_rfl
    · have := ih row hr
      omega

omit [Host] in
theorem nodup_placed (next : Nat) (rows : List Row) : ((placed next rows).map (·.id)).Nodup := by
  induction rows generalizing next with
  | nil => exact List.nodup_nil
  | cons first rest ih =>
    refine List.nodup_cons.mpr ⟨fun hmem => ?_, ih (next + 1)⟩
    obtain ⟨row, hrow, hid⟩ := List.mem_map.mp hmem
    have := placed_id_ge row hrow
    simp only at hid
    omega

omit [Host] in
theorem placed_regular {next : Nat} {rows : List Row} (h : ∀ row ∈ rows, row.Regular) :
    ∀ row ∈ placed next rows, row.Regular := by
  induction rows generalizing next with
  | nil => intro row hr; cases hr
  | cons first rest ih =>
    intro row hr
    rcases List.mem_cons.mp hr with rfl | hr
    · exact h first List.mem_cons_self
    · exact ih (fun r hr => h r (List.mem_cons_of_mem _ hr)) row hr

omit [Host] in
/-- `insert_rows` puts rows without ids under the ids that follow the counter. -/
theorem insertLoop_placed {rows : List Row} (hz : ∀ row ∈ rows, row.id = 0) (t : Table)
    (next : Nat) :
    (Storage.insertLoop t next rows).1 =
        (placed next rows).foldl (fun t row => t.insert row.id row) t ∧
      (Storage.insertLoop t next rows).2.2 = (placed next rows).map (·.id) := by
  induction rows generalizing t next with
  | nil => exact ⟨rfl, rfl⟩
  | cons row rest ih =>
    obtain ⟨htable, hids⟩ := ih (fun r hr => hz r (List.mem_cons_of_mem _ hr))
      (t.insert next ⟨next, row.values⟩) (next + 1)
    rw [Storage.insertLoop, if_pos (hz row List.mem_cons_self)]
    exact ⟨htable, congrArg (next :: ·) hids⟩

omit [Host] in
theorem getElem?_placed (next : Nat) (rows : List Row) (k : Nat) :
    (placed next rows)[k]? = rows[k]?.map fun row => ⟨next + k, row.values⟩ := by
  induction rows generalizing next k with
  | nil => rfl
  | cons row rest ih =>
    cases k with
    | zero => rfl
    | succ k => simpa [placed, Nat.add_assoc, Nat.add_comm 1 k] using ih (next + 1) k

/-- There they are found. -/
theorem getElem?_insertRows {rows : List Row} (hz : ∀ row ∈ rows, row.id = 0) (s : Storage)
    (name : String) {row : Row} (hrow : row ∈ placed (s.nextId name) rows) :
    ((s.insertRows name rows).2.table name)[row.id]? = some row := by
  rw [Storage.table_insertRows, if_pos rfl, (insertLoop_placed hz _ _).1]
  exact OrdMap.getElem?_foldl_insert_of_mem (fun row : Row => row.id) (fun row => row)
    (nodup_placed _ _) hrow _

/-- Rows that are stored and not indexed yet. -/
theorem IndexExactBut.insertRows {s : Storage} {name : String} {columns : List Column}
    {idx : IndexDef} {pend : List Nat} (h : IndexExactBut s name columns idx pend)
    {rows : List Row} (hfresh : ∀ id, s.nextId name ≤ id → (s.table name)[id]? = none)
    (hz : ∀ row ∈ rows, row.id = 0) :
    IndexExactBut (s.insertRows name rows).2 name columns idx
      ((s.insertRows name rows).1 ++ pend) := by
  obtain ⟨hstored, data, hdata, hexact⟩ := h
  obtain ⟨hloop, hloopIds⟩ := insertLoop_placed hz (s.table name) (s.nextId name)
  have hids : (s.insertRows name rows).1 = (placed (s.nextId name) rows).map (·.id) := by
    rw [Storage.ids_insertRows, hloopIds]
  have htable : (s.insertRows name rows).2.table name =
      (placed (s.nextId name) rows).foldl (fun t row => t.insert row.id row) (s.table name) := by
    rw [Storage.table_insertRows, if_pos rfl, hloop]
  have hold : ∀ id, id ∉ (placed (s.nextId name) rows).map (·.id) →
      ((s.insertRows name rows).2.table name)[id]? = (s.table name)[id]? := by
    intro id hid
    rw [htable]
    exact OrdMap.getElem?_foldl_insert_of_notMem (fun row : Row => row.id) (fun row => row) hid _
  have hnew : ∀ row ∈ placed (s.nextId name) rows,
      ((s.insertRows name rows).2.table name)[row.id]? = some row :=
    fun _ hrow => getElem?_insertRows hz s name hrow
  have hwithout : ((s.insertRows name rows).2.table name).without
      ((s.insertRows name rows).1 ++ pend) = (s.table name).without pend := by
    refine Std.ExtTreeMap.ext_getElem? fun id => ?_
    simp only [Table.getElem?_without, hids, List.mem_append]
    by_cases hid : id ∈ (placed (s.nextId name) rows).map (·.id)
    · obtain ⟨row, hrow, rfl⟩ := List.mem_map.mp hid
      rw [if_pos (.inl hid), hfresh row.id (placed_id_ge row hrow)]
      split <;> rfl
    · simp only [hid, false_or, hold id hid]
  refine ⟨fun id hid => ?_, data, hdata, ?_⟩
  · by_cases hmem : id ∈ (placed (s.nextId name) rows).map (·.id)
    · obtain ⟨row, hrow, rfl⟩ := List.mem_map.mp hmem
      exact ⟨row, hnew row hrow⟩
    · rw [hold id hmem]
      rw [hids, List.mem_append] at hid
      exact hstored id (hid.resolve_left hmem)
  · rw [hwithout]
    exact hexact

/-- The rows under some ids, as the indexing loop reads them back. -/
theorem storedRow_of_getElem? {s : Storage} {name : String} {row : Row}
    (h : (s.table name)[row.id]? = some row) : storedRow s name row.id = row := by
  rw [storedRow, Storage.getElem?_getTable?, h]
  rfl

/-- Rows that were left out are indexed. -/
theorem IndexExactBut.index {s : Storage} {name : String} {columns : List Column}
    {idx : IndexDef} {indexes : List IndexDef} {ids pend : List Nat}
    (h : IndexExactBut s name columns idx (ids ++ pend)) (hd : DistinctKeys name indexes)
    (hidx : idx ∈ indexes) (hnd : (ids ++ pend).Nodup)
    (hrows : ∀ id ∈ ids, ∀ row, (s.table name)[id]? = some row → row.id = id ∧ row.Regular) :
    IndexExactBut (indexInserted s name indexes columns ids) name columns idx pend := by
  obtain ⟨hstored, data, hdata, hexact⟩ := h
  obtain ⟨hidsNodup, -, hdisjoint⟩ := List.nodup_append.mp hnd
  -- the rows read back are the rows of the table
  have hread : ∀ id ∈ ids, (s.table name)[id]? = some (storedRow s name id) ∧
      (storedRow s name id).Regular := by
    intro id hid
    obtain ⟨row, hget⟩ := hstored id (List.mem_append_left _ hid)
    obtain ⟨rfl, hreg⟩ := hrows id hid row hget
    rw [storedRow_of_getElem? hget]
    exact ⟨hget, hreg⟩
  have hids : (ids.map (storedRow s name)).map (·.id) = ids := by
    rw [List.map_map]
    exact List.map_id ids
  have hdata' : (indexInserted s name indexes columns ids).indexData[storageKey name idx.name]? =
      some ((ids.map (storedRow s name)).foldl
        (fun d row => d.insert (getIndexKey row idx columns) row.id) data) := by
    have hloop := getElem?_insertIndexes hd hidx columns (ids.map (storedRow s name)) hdata
    rw [List.foldl_map] at hloop
    exact hloop
  have htable : (ids.map (storedRow s name)).foldl (fun t row => t.insert row.id row)
      ((s.table name).without (ids ++ pend)) = (s.table name).without pend := by
    refine Std.ExtTreeMap.ext_getElem? fun id => ?_
    by_cases hid : id ∈ ids
    · have hmem := List.mem_map_of_mem (f := storedRow s name) hid
      refine (OrdMap.getElem?_foldl_insert_of_mem (fun row : Row => row.id) (fun row => row)
        (by rwa [hids]) hmem _).trans ?_
      rw [Table.getElem?_without, if_neg fun hp => hdisjoint id hid id hp rfl, (hread id hid).1]
    · rw [OrdMap.getElem?_foldl_insert_of_notMem (fun row : Row => row.id) (fun row => row)
        (by rwa [hids]), Table.getElem?_without, Table.getElem?_without]
      simp only [List.mem_append, hid, false_or]
  refine ⟨fun id hid => hstored id (List.mem_append_right _ hid), _, hdata', ?_⟩
  show Exact _ _ ((s.table name).without pend)
  rw [← htable]
  refine hexact.insertMany (by rwa [hids]) ?_ ?_
  · intro row hrow
    obtain ⟨id, hid, rfl⟩ := List.mem_map.mp hrow
    exact (Table.getElem?_without _ _ id).trans (if_pos (List.mem_append_left _ hid))
  · intro row hrow
    obtain ⟨id, hid, rfl⟩ := List.mem_map.mp hrow
    exact (hread id hid).2.getIndexKey idx columns

/-- Storing and indexing new rows. -/
theorem IndexExact.insertRows {s : Storage} {name : String} {columns : List Column}
    {idx : IndexDef} {indexes : List IndexDef} {rows : List Row}
    (h : IndexExact s name columns idx) (hd : DistinctKeys name indexes) (hidx : idx ∈ indexes)
    (hfresh : ∀ id, s.nextId name ≤ id → (s.table name)[id]? = none)
    (hz : ∀ row ∈ rows, row.id = 0) (hreg : ∀ row ∈ rows, row.Regular) :
    IndexExact (indexInserted (s.insertRows name rows).2 name indexes columns
      (s.insertRows name rows).1) name columns idx := by
  have hids := (insertLoop_placed hz (s.table name) (s.nextId name)).2
  have hbut := (indexExactBut_nil.mpr h).insertRows hfresh hz
  refine indexExactBut_nil.mp (hbut.index hd hidx ?_ ?_)
  · rw [List.append_nil, Storage.ids_insertRows, hids]
    exact nodup_placed _ _
  · intro id hid row hget
    rw [Storage.ids_insertRows, hids] at hid
    obtain ⟨row', hrow', rfl⟩ := List.mem_map.mp hid
    cases (getElem?_insertRows hz s name hrow').symm.trans hget
    exact ⟨rfl, placed_regular hreg _ hrow'⟩

/-! ## DELETE and UPDATE -/

section Changes

variable [ExprDebug] {s : Storage} {name : String} {columns : List Column} {idx : IndexDef}
  {indexes : List IndexDef} {selection : Option Expr} {t : Table} {rows : List Row}

/-- Removing the selected rows, all of them indexed. -/
theorem IndexExactBut.deleteRows {pend : List Nat} (h : IndexExactBut s name columns idx pend)
    (hd : DistinctKeys name indexes) (hidx : idx ∈ indexes) (ht : s.getTable? name = some t)
    (hkeyed : t.Keyed) (hreg : ∀ row ∈ t.rows, row.Regular)
    (hsel : selectRows columns selection t.entries = .ok rows)
    (hpend : ∀ row ∈ rows, row.id ∉ pend) :
    IndexExactBut (deleteRows s name indexes columns rows) name columns idx pend := by
  obtain ⟨hstored, data, hdata, hexact⟩ := h
  rw [Storage.table_of_getTable? ht] at hstored hexact
  have hget : ∀ row ∈ rows, t[row.id]? = some row :=
    fun row hrow => getElem?_of_selected hkeyed hsel hrow
  have htable : (Engine.deleteRows s name indexes columns rows).table name = eraseRows rows t :=
    Storage.table_of_getTable? ((deleteRows_rewrites name indexes columns).table ht rows)
  have hwithout : (eraseRows rows t).without pend = eraseRows rows (t.without pend) := by
    refine Std.ExtTreeMap.ext_getElem? fun id => ?_
    rw [Table.getElem?_without, eraseRows, eraseRows, Table.getElem?_eraseRows,
      Table.getElem?_eraseRows, Table.getElem?_without]
    split <;> split <;> rfl
  refine ⟨fun id hid => ?_, _, getElem?_deleteIndexes hd hidx columns rows hdata, ?_⟩
  · have hnot : id ∉ rows.map (·.id) := by
      intro hmem
      obtain ⟨row, hrow, rfl⟩ := List.mem_map.mp hmem
      exact hpend row hrow hid
    rw [htable, eraseRows, Table.getElem?_eraseRows, if_neg hnot]
    exact hstored id hid
  · rw [htable, hwithout]
    refine hexact.deleteMany (nodup_selected hkeyed hsel) (fun row hrow => ?_) fun row hrow => ?_
    · rw [Table.getElem?_without, if_neg (hpend row hrow)]
      exact hget row hrow
    · exact (hreg row (hkeyed.mem_rows.mpr (hget row hrow))).getIndexKey idx columns

/-- Removing the selected rows. -/
theorem IndexExact.deleteRows (h : IndexExact s name columns idx)
    (hd : DistinctKeys name indexes) (hidx : idx ∈ indexes) (ht : s.getTable? name = some t)
    (hkeyed : t.Keyed) (hreg : ∀ row ∈ t.rows, row.Regular)
    (hsel : selectRows columns selection t.entries = .ok rows) :
    IndexExact (deleteRows s name indexes columns rows) name columns idx :=
  indexExactBut_nil.mp ((indexExactBut_nil.mpr h).deleteRows hd hidx ht hkeyed hreg hsel
    fun _ _ => List.not_mem_nil)

omit [Host] in
/-- Rewritten rows, inserted: under their ids the new rows, elsewhere the old. -/
theorem getElem?_insertRewritten {rows : List Row} (hnd : (rows.map (·.id)).Nodup)
    (assigns : List (Nat × Expr)) (t : Table) {row : Row} (hrow : row ∈ rows) :
    ((rows.map fun row => { row with values := assignValues assigns row.values }).foldl
      (fun t row => t.insert row.id row) t)[row.id]? =
      some { row with values := assignValues assigns row.values } :=
  OrdMap.getElem?_foldl_insert_of_mem (fun row : Row => row.id) (fun row => row)
    (by rw [List.map_map]; exact hnd) (List.mem_map_of_mem (f := fun row : Row =>
      { row with values := assignValues assigns row.values }) hrow) t

omit [Host] in
theorem getElem?_insertRewritten_of_notMem {rows : List Row} (assigns : List (Nat × Expr))
    (t : Table) {id : Nat} (hid : id ∉ rows.map (·.id)) :
    ((rows.map fun row => { row with values := assignValues assigns row.values }).foldl
      (fun t row => t.insert row.id row) t)[id]? = t[id]? :=
  OrdMap.getElem?_foldl_insert_of_notMem (fun row : Row => row.id) (fun row => row)
    (by rw [List.map_map]; exact hid) t

/-- Writing rows is removing them and inserting the new ones. -/
theorem assignRows_eq_insert (hkeyed : t.Keyed) (assigns : List (Nat × Expr))
    (hsel : selectRows columns selection t.entries = .ok rows) :
    assignRows assigns rows t =
      (rows.map fun row => { row with values := assignValues assigns row.values }).foldl
        (fun t row => t.insert row.id row) (eraseRows rows t) := by
  refine Std.ExtTreeMap.ext_getElem? fun id => ?_
  by_cases hid : id ∈ rows.map (·.id)
  · obtain ⟨row, hrow, rfl⟩ := List.mem_map.mp hid
    rw [getElem?_assignRows_of_mem assigns hkeyed hsel hrow,
      getElem?_insertRewritten (nodup_selected hkeyed hsel) assigns _ hrow]
  · rw [getElem?_assignRows_of_notMem assigns t hid,
      getElem?_insertRewritten_of_notMem assigns _ hid, eraseRows, Table.getElem?_eraseRows,
      if_neg hid]

omit [Host] in
/-- Assignments of regular literals keep a row regular. -/
theorem regular_assignValues {assigns : List (Nat × Expr)}
    (hlit : ∀ a ∈ assigns, (sqlExprToValue a.2).Regular) {values : List Value}
    (h : ∀ v ∈ values, v.Regular) : ∀ v ∈ assignValues assigns values, v.Regular := by
  unfold assignValues
  induction assigns generalizing values with
  | nil => exact h
  | cons a rest ih =>
    refine ih (fun b hb => hlit b (List.mem_cons_of_mem _ hb)) ?_
    intro v hv
    rcases List.mem_or_eq_of_mem_set hv with hv | rfl
    · exact h v hv
    · exact hlit a List.mem_cons_self

/-- Rewriting the selected rows, all of them indexed. -/
theorem IndexExactBut.updateRows {pend : List Nat} (h : IndexExactBut s name columns idx pend)
    (hd : DistinctKeys name indexes) (hidx : idx ∈ indexes) (ht : s.getTable? name = some t)
    (hkeyed : t.Keyed) (hreg : ∀ row ∈ t.rows, row.Regular) {assigns : List (Nat × Expr)}
    (hlit : ∀ a ∈ assigns, (sqlExprToValue a.2).Regular)
    (hsel : selectRows columns selection t.entries = .ok rows)
    (hpend : ∀ row ∈ rows, row.id ∉ pend) :
    IndexExactBut (updateRows s name indexes columns assigns rows) name columns idx pend := by
  obtain ⟨hstored, data, hdata, hexact⟩ := h
  rw [Storage.table_of_getTable? ht] at hstored hexact
  have hget : ∀ row ∈ rows, t[row.id]? = some row :=
    fun row hrow => getElem?_of_selected hkeyed hsel hrow
  have hregRow : ∀ row ∈ rows, row.Regular := fun row hrow =>
    hreg row (hkeyed.mem_rows.mpr (hget row hrow))
  have hnd := nodup_selected hkeyed hsel
  have htable : (Engine.updateRows s name indexes columns assigns rows).table name =
      assignRows assigns rows t :=
    Storage.table_of_getTable? ((updateRows_rewrites name indexes columns assigns).table ht rows)
  have hindexed : ∀ id ∈ pend, id ∉ rows.map (·.id) := by
    intro id hid hmem
    obtain ⟨row, hrow, rfl⟩ := List.mem_map.mp hmem
    exact hpend row hrow hid
  -- the indexed rows are rewritten as if the others were not there
  have hwithout : (assignRows assigns rows t).without pend =
      (rows.map fun row => { row with values := assignValues assigns row.values }).foldl
        (fun t row => t.insert row.id row) (eraseRows rows (t.without pend)) := by
    refine Std.ExtTreeMap.ext_getElem? fun id => ?_
    rw [Table.getElem?_without, assignRows_eq_insert hkeyed assigns hsel]
    by_cases hid : id ∈ rows.map (·.id)
    · obtain ⟨row, hrow, rfl⟩ := List.mem_map.mp hid
      rw [if_neg (hpend row hrow)]
      exact (getElem?_insertRewritten hnd assigns _ hrow).trans
        (getElem?_insertRewritten hnd assigns _ hrow).symm
    · rw [getElem?_insertRewritten_of_notMem assigns _ hid,
        getElem?_insertRewritten_of_notMem assigns _ hid, eraseRows, eraseRows,
        Table.getElem?_eraseRows, Table.getElem?_eraseRows, if_neg hid, if_neg hid,
        Table.getElem?_without]
  refine ⟨fun id hid => ?_, _, getElem?_insertIndexes hd hidx columns _
    (getElem?_deleteIndexes hd hidx columns rows hdata), ?_⟩
  · rw [htable, getElem?_assignRows_of_notMem assigns t (hindexed id hid)]
    exact hstored id hid
  · have hdeleted := hexact.deleteMany hnd (fun row hrow => by
      rw [Table.getElem?_without, if_neg (hpend row hrow)]
      exact hget row hrow) fun row hrow => (hregRow row hrow).getIndexKey idx columns
    rw [htable, hwithout]
    refine hdeleted.insertMany ?_ ?_ ?_
    · rw [List.map_map]
      exact hnd
    · intro row hrow
      obtain ⟨old, hold, rfl⟩ := List.mem_map.mp hrow
      rw [eraseRows, Table.getElem?_eraseRows, if_pos (List.mem_map_of_mem hold)]
    · intro row hrow
      obtain ⟨old, hold, rfl⟩ := List.mem_map.mp hrow
      have hnew : Row.Regular { old with values := assignValues assigns old.values } :=
        regular_assignValues hlit (hregRow old hold)
      exact hnew.getIndexKey idx columns

/-- Rewriting the selected rows. -/
theorem IndexExact.updateRows (h : IndexExact s name columns idx)
    (hd : DistinctKeys name indexes) (hidx : idx ∈ indexes) (ht : s.getTable? name = some t)
    (hkeyed : t.Keyed) (hreg : ∀ row ∈ t.rows, row.Regular) {assigns : List (Nat × Expr)}
    (hlit : ∀ a ∈ assigns, (sqlExprToValue a.2).Regular)
    (hsel : selectRows columns selection t.entries = .ok rows) :
    IndexExact (updateRows s name indexes columns assigns rows) name columns idx :=
  indexExactBut_nil.mp ((indexExactBut_nil.mpr h).updateRows hd hidx ht hkeyed hreg hlit hsel
    fun _ _ => List.not_mem_nil)

/-- An UPDATE that does not know of an index leaves it exact if no indexed row
gets another key. -/
theorem IndexExactBut.updateRows_unknown {pend : List Nat}
    (h : IndexExactBut s name columns idx pend)
    (hkeys : ∀ idx' ∈ indexes, storageKey name idx.name ≠ storageKey name idx'.name)
    (ht : s.getTable? name = some t) (hkeyed : t.Keyed) {assigns : List (Nat × Expr)}
    (hsel : selectRows columns selection t.entries = .ok rows)
    (hsame : ∀ row ∈ rows, row.id ∉ pend →
      getIndexKey { row with values := assignValues assigns row.values } idx columns =
        getIndexKey row idx columns) :
    IndexExactBut (Engine.updateRows s name indexes columns assigns rows) name columns idx pend := by
  obtain ⟨hstored, data, hdata, hexact⟩ := h
  rw [Storage.table_of_getTable? ht] at hstored hexact
  have htable : (Engine.updateRows s name indexes columns assigns rows).table name =
      assignRows assigns rows t :=
    Storage.table_of_getTable? ((updateRows_rewrites name indexes columns assigns).table ht rows)
  refine ⟨fun id hid => ?_, data, (updateRows_indexData_keep hkeys columns assigns s rows).trans
    hdata, ?_⟩
  · rw [htable]
    by_cases hmem : id ∈ rows.map (·.id)
    · obtain ⟨row, hrow, rfl⟩ := List.mem_map.mp hmem
      exact ⟨_, getElem?_assignRows_of_mem assigns hkeyed hsel hrow⟩
    · rw [getElem?_assignRows_of_notMem assigns t hmem]
      exact hstored id hid
  · rw [htable]
    refine hexact.congr fun id => ?_
    rw [Table.getElem?_without, Table.getElem?_without]
    split
    · rfl
    · next hid =>
      by_cases hmem : id ∈ rows.map (·.id)
      · obtain ⟨row, hrow, rfl⟩ := List.mem_map.mp hmem
        rw [getElem?_assignRows_of_mem assigns hkeyed hsel hrow,
          getElem?_of_selected hkeyed hsel hrow, Option.map_some, Option.map_some]
        exact congrArg some (hsame row hrow hid)
      · rw [getElem?_assignRows_of_notMem assigns t hmem]

end Changes

/-! ## Building from scratch -/

omit [Host] in
/-- The build loop inserts every row, unless it stops at a duplicate. -/
theorem buildIndex_ok {indexDef : IndexDef} {columns : List Column} {rows : List Row}
    {data data' : IndexData} (h : buildIndex indexDef columns rows data = .ok data') :
    data' = rows.foldl (fun d row => d.insert (getIndexKey row indexDef columns) row.id) data := by
  induction rows generalizing data with
  | nil =>
    cases h
    rfl
  | cons row rest ih =>
    unfold buildIndex at h
    simp only at h
    split at h
    · cases h
    · exact ih h

omit [Host] in
/-- An index over all rows of a keyed table is exact. -/
theorem exact_foldl_insert {t : Table} (hkeyed : t.Keyed) (hreg : ∀ row ∈ t.rows, row.Regular)
    (idx : IndexDef) (columns : List Column) :
    Exact (t.rows.foldl (fun d row => d.insert (getIndexKey row idx columns) row.id)
      (.new idx.indexType)) (fun row => getIndexKey row idx columns) t := by
  have hbuilt := (Exact.empty idx.indexType fun row => getIndexKey row idx columns).insertMany
    hkeyed.nodup_rows (fun _ _ => Std.ExtTreeMap.getElem?_empty)
    fun row hrow => (hreg row hrow).getIndexKey idx columns
  have hall : t.rows.foldl (fun t row => t.insert row.id row) ∅ = t := by
    refine Std.ExtTreeMap.ext_getElem? fun id => ?_
    by_cases hid : id ∈ t.rows.map (·.id)
    · obtain ⟨row, hrow, rfl⟩ := List.mem_map.mp hid
      rw [hkeyed.mem_rows.mp hrow]
      exact OrdMap.getElem?_foldl_insert_of_mem (fun row : Row => row.id) (fun row => row)
        hkeyed.nodup_rows hrow ∅
    · rw [OrdMap.getElem?_foldl_insert_of_notMem (fun row : Row => row.id) (fun row => row) hid,
        Std.ExtTreeMap.getElem?_empty]
      cases hget : t[id]? with
      | none => rfl
      | some row =>
        obtain rfl := hkeyed id row hget
        exact absurd (List.mem_map_of_mem (hkeyed.mem_rows.mpr hget)) hid
  rwa [hall] at hbuilt

end Srrdb.Engine

/-
Srrdb.Engine.StorageTheorems — what `insert_rows` and the other storage
operations do to a table and its id counter.

A table is sound when every row sits under its own id and every id is between
1 and the counter. `insert_rows` keeps tables sound whatever ids the rows
bring. Two uses of it matter to the rest: rows that bring no id are added
with the ids that follow the counter (`insertLoop_fresh`), and the rows of a
sound table, inserted into an empty one, rebuild it (`insertLoop_rebuild`).
-/
import Srrdb.Engine.CatalogTheorems
import Srrdb.Lib.OrdMap

namespace Srrdb.Engine

open Srrdb.Lib

/-! ## Tables -/

namespace Table

/-- Every row sits under its own id. -/
def Keyed (t : Table) : Prop := ∀ (id : Nat) (row : Row), t[id]? = some row → row.id = id

/-- Every row sits under its own id, and the ids are between 1 and `next`. -/
structure Sound (t : Table) (next : Nat) : Prop where
  next_pos : 0 < next
  keyed : t.Keyed
  id_pos : ∀ (id : Nat) (row : Row), t[id]? = some row → 0 < id
  id_lt : ∀ (id : Nat) (row : Row), t[id]? = some row → id < next

theorem Sound.empty {next : Nat} (h : 0 < next) : Sound ∅ next :=
  ⟨h, fun id row hr => by simp at hr, fun id row hr => by simp at hr,
    fun id row hr => by simp at hr⟩

theorem Keyed.mem_rows {t : Table} (h : t.Keyed) {row : Row} :
    row ∈ t.rows ↔ t[row.id]? = some row := by
  rw [rows, List.mem_map]
  constructor
  · rintro ⟨⟨id, row'⟩, hmem, rfl⟩
    have hget := OrdMap.mem_toList.mp hmem
    simp only at hget
    rw [h id row' hget]
    exact hget
  · intro hget
    exact ⟨(row.id, row), OrdMap.mem_toList.mpr hget, rfl⟩

/-- A keyed table is determined by its rows. -/
theorem Keyed.ext {t t' : Table} (h : t.Keyed) (h' : t'.Keyed) (hp : t.rows.Perm t'.rows) :
    t = t' := by
  refine Std.ExtTreeMap.ext_getElem? fun id => ?_
  cases hget : t[id]? with
  | some row =>
    obtain rfl := h id row hget
    have hmem := hp.mem_iff.mp (h.mem_rows.mpr hget)
    exact (h'.mem_rows.mp hmem).symm
  | none =>
    cases hget' : t'[id]? with
    | none => rfl
    | some row =>
      obtain rfl := h' id row hget'
      have hmem := hp.mem_iff.mpr (h'.mem_rows.mpr hget')
      rw [h.mem_rows.mp hmem] at hget
      cases hget

@[simp] theorem rows_empty : rows ∅ = [] := by
  simp [rows]

theorem rows_eq_nil_iff {t : Table} : t.rows = [] ↔ t = ∅ := by
  constructor
  · intro h
    refine Std.ExtTreeMap.ext_getElem? fun id => ?_
    cases hget : t[id]? with
    | none => simp
    | some row =>
      have hmem : row ∈ t.rows :=
        List.mem_map.mpr ⟨(id, row), OrdMap.mem_toList.mpr hget, rfl⟩
      rw [h] at hmem
      cases hmem
  · intro h
    rw [h, rows_empty]

theorem rows_insert_perm {t : Table} {id : Nat} (h : t[id]? = none) (row : Row) :
    (rows (t.insert id row)).Perm (row :: t.rows) :=
  (OrdMap.toList_insert_perm h row).map Prod.snd

theorem Keyed.nodup_rows {t : Table} (h : t.Keyed) : (t.rows.map (·.id)).Nodup := by
  have hids : t.rows.map (·.id) = t.toList.map (·.1) := by
    rw [rows, List.map_map]
    refine List.map_congr_left fun e he => ?_
    exact h e.1 e.2 (OrdMap.mem_toList.mp he)
  rw [hids, List.nodup_iff_pairwise_ne, List.pairwise_map]
  exact OrdMap.pairwise_ne_toList t

theorem Sound.getElem?_next {t : Table} {next id : Nat} (h : t.Sound next) (hid : next ≤ id) :
    t[id]? = none := by
  cases hget : t[id]? with
  | none => rfl
  | some row =>
    have := h.id_lt id row hget
    omega

/-- A row with a new id below the next counter. -/
theorem Sound.insert {t : Table} {next next' id : Nat} (h : t.Sound next) (hpos : 0 < id)
    (hle : next ≤ next') (hlt : id < next') (values : List Value) :
    Sound (t.insert id ⟨id, values⟩) next' where
  next_pos := by have := h.next_pos; omega
  keyed id' row hget := by
    rw [Std.ExtTreeMap.getElem?_insert] at hget
    split at hget
    · next heq =>
      cases hget
      exact Std.LawfulEqCmp.compare_eq_iff_eq.mp heq
    · exact h.keyed id' row hget
  id_pos id' row hget := by
    rw [Std.ExtTreeMap.getElem?_insert] at hget
    split at hget
    · next heq => rwa [← Std.LawfulEqCmp.compare_eq_iff_eq.mp heq]
    · exact h.id_pos id' row hget
  id_lt id' row hget := by
    rw [Std.ExtTreeMap.getElem?_insert] at hget
    split at hget
    · next heq => rwa [← Std.LawfulEqCmp.compare_eq_iff_eq.mp heq]
    · exact lt_of_lt_of_le (h.id_lt id' row hget) hle

end Table

/-! ## The loop of `insert_rows` -/

namespace Storage

theorem insertLoop_sound {t : Table} {next : Nat} (h : t.Sound next) :
    ∀ rows : List Row, (insertLoop t next rows).1.Sound (insertLoop t next rows).2.1 := by
  intro rows
  induction rows generalizing t next with
  | nil => exact h
  | cons row rest ih =>
    rw [insertLoop]
    split
    · exact ih (h.insert h.next_pos (Nat.le_succ next) (Nat.lt_succ_self next) row.values)
    · next hid =>
      refine ih ?_
      have hpos : 0 < row.id := Nat.pos_of_ne_zero hid
      split
      · exact h.insert hpos (by omega) (Nat.lt_succ_self _) row.values
      · exact h.insert hpos le_rfl (by omega) row.values

/-- Rows without ids get the ids that follow the counter. -/
theorem insertLoop_fresh {rows : List Row} (hz : ∀ row ∈ rows, row.id = 0) (t : Table)
    (next : Nat) :
    (insertLoop t next rows).2 = (next + rows.length, List.range' next rows.length) := by
  induction rows generalizing t next with
  | nil => rfl
  | cons row rest ih =>
    rw [insertLoop, if_pos (hz row List.mem_cons_self)]
    simp only [ih (fun r hr => hz r (List.mem_cons_of_mem _ hr))]
    rw [List.length_cons, List.range'_succ]
    simp only [Prod.mk.injEq, and_true]
    omega

/-- Rows without ids are added to the rows of a sound table. -/
theorem insertLoop_rows_perm {rows : List Row} (hz : ∀ row ∈ rows, row.id = 0) {t : Table}
    {next : Nat} (h : t.Sound next) :
    ((insertLoop t next rows).1.rows.map (·.values)).Perm
      (rows.map (·.values) ++ t.rows.map (·.values)) := by
  induction rows generalizing t next with
  | nil => rfl
  | cons row rest ih =>
    rw [insertLoop, if_pos (hz row List.mem_cons_self)]
    have hstep := ih (fun r hr => hz r (List.mem_cons_of_mem _ hr))
      (h.insert h.next_pos (Nat.le_succ next) (Nat.lt_succ_self next) row.values)
    have hone := (Table.rows_insert_perm (h.getElem?_next le_rfl) ⟨next, row.values⟩).map
      (·.values)
    exact (hstep.trans (hone.append_left _)).trans List.perm_middle

/-- The ids rows bring with them, when each is new, are kept. -/
theorem insertLoop_explicit {rows : List Row} (hnz : ∀ row ∈ rows, row.id ≠ 0)
    (hnd : (rows.map (·.id)).Nodup) {t : Table} (hnew : ∀ row ∈ rows, t[row.id]? = none)
    (next : Nat) : (insertLoop t next rows).1.rows.Perm (rows ++ t.rows) := by
  induction rows generalizing t next with
  | nil => rfl
  | cons row rest ih =>
    rw [List.map_cons, List.nodup_cons] at hnd
    rw [insertLoop, if_neg (hnz row List.mem_cons_self)]
    have hrest : ∀ r ∈ rest, (t.insert row.id row)[r.id]? = none := by
      intro r hr
      rw [Std.ExtTreeMap.getElem?_insert, if_neg]
      · exact hnew r (List.mem_cons_of_mem _ hr)
      · rw [Std.LawfulEqCmp.compare_eq_iff_eq]
        intro heq
        exact hnd.1 (heq ▸ List.mem_map_of_mem hr)
    have hstep := ih (fun r hr => hnz r (List.mem_cons_of_mem _ hr)) hnd.2 hrest
      (if next ≤ row.id then row.id + 1 else next)
    exact (hstep.trans ((Table.rows_insert_perm (hnew row List.mem_cons_self) row).append_left
      rest)).trans List.perm_middle

theorem insertLoop_next_le {rows : List Row} {next : Nat} (hlt : ∀ row ∈ rows, row.id < next)
    (hnz : ∀ row ∈ rows, row.id ≠ 0) (t : Table) : (insertLoop t next rows).2.1 = next := by
  induction rows generalizing t with
  | nil => rfl
  | cons row rest ih =>
    have hrow := hlt row List.mem_cons_self
    rw [insertLoop, if_neg (hnz row List.mem_cons_self), if_neg (by omega)]
    exact ih (fun r hr => hlt r (List.mem_cons_of_mem _ hr))
      (fun r hr => hnz r (List.mem_cons_of_mem _ hr)) _

/-- The rows of a sound table rebuild it, and leave its counter alone. -/
theorem insertLoop_rebuild {t : Table} {next : Nat} (h : t.Sound next) :
    (insertLoop ∅ next t.rows).1 = t ∧ (insertLoop ∅ next t.rows).2.1 = next := by
  have hnz : ∀ row ∈ t.rows, row.id ≠ 0 := fun row hr =>
    Nat.ne_of_gt (h.id_pos row.id row (h.keyed.mem_rows.mp hr))
  have hlt : ∀ row ∈ t.rows, row.id < next := fun row hr =>
    h.id_lt row.id row (h.keyed.mem_rows.mp hr)
  refine ⟨?_, insertLoop_next_le hlt hnz ∅⟩
  refine (insertLoop_sound (Table.Sound.empty h.next_pos) t.rows).keyed.ext h.keyed ?_
  simpa using insertLoop_explicit hnz h.keyed.nodup_rows (fun _ _ => Std.ExtTreeMap.getElem?_empty) next

/-! ## Tables and counters of a storage -/

variable [Host]

/-- The table under a name, empty if there is no entry. -/
def table (s : Storage) (name : String) : Table := s.tables.getD (normalize name) ∅

theorem table_sameName (s : Storage) {name name' : String} (h : SameName name name') :
    s.table name = s.table name' := by
  rw [table, table, h]

/-- The id counter of a table. -/
def nextId (s : Storage) (name : String) : Nat := s.nextIds.getD (normalize name) 1

/-- Every table is sound. -/
def Sound (s : Storage) : Prop := ∀ name, (s.table name).Sound (s.nextId name)

theorem table_new (name : String) : Storage.new.table name = ∅ := by simp [table, Storage.new]

theorem Sound.new : Storage.new.Sound := by
  intro name
  have hn : Storage.new.nextId name = 1 := by simp [nextId, Storage.new]
  rw [table_new, hn]
  exact Table.Sound.empty Nat.one_pos

theorem getElem?_getTable? (s : Storage) (name : String) (id : Nat) :
    ((s.getTable? name).bind fun t => t[id]?) = (s.table name)[id]? := by
  rw [table, Std.ExtTreeMap.getD_eq_getD_getElem?, getTable?]
  cases s.tables[normalize name]? <;> simp

theorem getRows_eq (s : Storage) (name : String) : s.getRows name = (s.table name).rows := by
  rw [getRows, table, Std.ExtTreeMap.getD_eq_getD_getElem?]
  cases s.tables[normalize name]? with
  | none => simp
  | some t => rfl

theorem table_of_getTable? {s : Storage} {name : String} {t : Table}
    (h : s.getTable? name = some t) : s.table name = t := by
  rw [table, Std.ExtTreeMap.getD_eq_getD_getElem?]
  rw [getTable?] at h
  rw [h, Option.getD_some]

theorem table_congr {s s' : Storage} (h : s.tables = s'.tables) (name : String) :
    s.table name = s'.table name := by
  rw [table, table, h]

theorem nextId_congr {s s' : Storage} (h : s.nextIds = s'.nextIds) (name : String) :
    s.nextId name = s'.nextId name := by
  rw [nextId, nextId, h]

theorem Sound.congr {s s' : Storage} (h : s.Sound) (ht : s'.tables = s.tables)
    (hn : s'.nextIds = s.nextIds) : s'.Sound := by
  intro name
  rw [table_congr ht, nextId_congr hn]
  exact h name

theorem table_insertRows (s : Storage) (tableName : String) (rows : List Row) (name : String) :
    (s.insertRows tableName rows).2.table name =
      if SameName tableName name then
        (insertLoop (s.table tableName) (s.nextId tableName) rows).1
      else s.table name := by
  simp only [table, nextId, insertRows, Std.ExtTreeMap.getD_insert,
    Std.LawfulEqCmp.compare_eq_iff_eq]

theorem nextId_insertRows (s : Storage) (tableName : String) (rows : List Row) (name : String) :
    (s.insertRows tableName rows).2.nextId name =
      if SameName tableName name then
        (insertLoop (s.table tableName) (s.nextId tableName) rows).2.1
      else s.nextId name := by
  simp only [table, nextId, insertRows, Std.ExtTreeMap.getD_insert,
    Std.LawfulEqCmp.compare_eq_iff_eq]

theorem ids_insertRows (s : Storage) (tableName : String) (rows : List Row) :
    (s.insertRows tableName rows).1 =
      (insertLoop (s.table tableName) (s.nextId tableName) rows).2.2 := rfl

theorem Sound.insertRows {s : Storage} (h : s.Sound) (tableName : String) (rows : List Row) :
    (s.insertRows tableName rows).2.Sound := by
  intro name
  rw [table_insertRows, nextId_insertRows]
  split
  · exact insertLoop_sound (h tableName) rows
  · exact h name

/-- A storage changes by an INSERT, unless there is no row and both entries
are already there. -/
theorem insertRows_eq_self_iff {s : Storage} {tableName : String} {rows : List Row}
    (hz : ∀ row ∈ rows, row.id = 0) :
    (s.insertRows tableName rows).2 = s ↔
      rows = [] ∧ (s.tables[normalize tableName]?).isSome = true ∧
        (s.nextIds[normalize tableName]?).isSome = true := by
  constructor
  · intro heq
    have hids := nextId_insertRows s tableName rows tableName
    rw [heq, if_pos rfl, insertLoop_fresh hz] at hids
    have hlen : rows.length = 0 := by simp only at hids; omega
    have ht : (s.insertRows tableName rows).2.tables[normalize tableName]?.isSome = true := by
      simp [insertRows]
    have hn : (s.insertRows tableName rows).2.nextIds[normalize tableName]?.isSome = true := by
      simp [insertRows]
    rw [heq] at ht hn
    exact ⟨List.length_eq_zero_iff.mp hlen, ht, hn⟩
  · rintro ⟨rfl, ht, hn⟩
    obtain ⟨t, ht⟩ := Option.isSome_iff_exists.mp ht
    obtain ⟨n, hn⟩ := Option.isSome_iff_exists.mp hn
    obtain ⟨tables, nextIds, indexData⟩ := s
    simp only at ht hn
    simp only [insertRows, insertLoop, Std.ExtTreeMap.getD_eq_getD_getElem?, ht, hn,
      Option.getD_some, Storage.mk.injEq, and_true]
    refine ⟨Std.ExtTreeMap.ext_getElem? fun k => ?_, Std.ExtTreeMap.ext_getElem? fun k => ?_⟩ <;>
    · rw [Std.ExtTreeMap.getElem?_insert]
      split
      · next heq => rw [← Std.LawfulEqCmp.compare_eq_iff_eq.mp heq]; simp [ht, hn]
      · rfl

theorem table_modifyTable (s : Storage) (tableName : String) {f : Table → Table}
    (hf : f ∅ = ∅) (name : String) :
    (s.modifyTable tableName f).table name =
      if SameName tableName name then f (s.table tableName) else s.table name := by
  have hmap : (s.tables[normalize tableName]?.map f).getD ∅ =
      f (s.tables[normalize tableName]?.getD ∅) := by
    cases s.tables[normalize tableName]? with
    | none => exact hf.symm
    | some t => rfl
  simp only [table, modifyTable, Std.ExtTreeMap.getD_eq_getD_getElem?,
    Std.ExtTreeMap.getElem?_modify, Std.LawfulEqCmp.compare_eq_iff_eq]
  split
  · exact hmap
  · rfl

@[simp] theorem nextId_modifyTable (s : Storage) (tableName : String) (f : Table → Table)
    (name : String) : (s.modifyTable tableName f).nextId name = s.nextId name := rfl

theorem Sound.modifyTable {s : Storage} (h : s.Sound) (tableName : String) {f : Table → Table}
    (hf : f ∅ = ∅) (hs : ∀ t next, t.Sound next → (f t).Sound next) :
    (s.modifyTable tableName f).Sound := by
  intro name
  rw [table_modifyTable s tableName hf, nextId_modifyTable]
  split
  · next hsame =>
    have hname : s.nextId tableName = s.nextId name := by rw [nextId, nextId, hsame]
    exact hs _ _ (hname ▸ h tableName)
  · exact h name

theorem table_clearTable (s : Storage) (tableName name : String) :
    (s.clearTable tableName).table name =
      if SameName tableName name then ∅ else s.table name := by
  simp only [table, clearTable, Std.ExtTreeMap.getD_erase, Std.LawfulEqCmp.compare_eq_iff_eq]

theorem nextId_clearTable (s : Storage) (tableName name : String) :
    (s.clearTable tableName).nextId name =
      if SameName tableName name then 1 else s.nextId name := by
  simp only [nextId, clearTable, Std.ExtTreeMap.getD_erase, Std.LawfulEqCmp.compare_eq_iff_eq]

theorem indexData_clearTable (s : Storage) (tableName key : String) :
    (s.clearTable tableName).indexData[key]? =
      if startsWith key (normalize tableName ++ ":") = true then none else s.indexData[key]? := by
  rw [clearTable, Std.ExtTreeMap.getElem?_filter']
  cases s.indexData[key]? with
  | none => rw [Option.filter_none, ite_self]
  | some data =>
    rw [Option.filter_some]
    cases startsWith key (normalize tableName ++ ":") <;> rfl

theorem Sound.clearTable {s : Storage} (h : s.Sound) (tableName : String) :
    (s.clearTable tableName).Sound := by
  intro name
  rw [table_clearTable, nextId_clearTable]
  split
  · exact Table.Sound.empty Nat.one_pos
  · exact h name

/-! ## The two maps together -/

/-- A table has a counter exactly when it has an entry. -/
def Paired (s : Storage) : Prop :=
  ∀ k : String, (s.tables[k]?).isSome = (s.nextIds[k]?).isSome

omit [Host] in
theorem Paired.new : Storage.new.Paired := by
  intro k
  simp [Storage.new]

theorem Paired.insertRows {s : Storage} (h : s.Paired) (tableName : String) (rows : List Row) :
    (s.insertRows tableName rows).2.Paired := by
  intro k
  simp only [Storage.insertRows, Std.ExtTreeMap.getElem?_insert]
  split
  · rfl
  · exact h k

theorem Paired.modifyTable {s : Storage} (h : s.Paired) (tableName : String) (f : Table → Table) :
    (s.modifyTable tableName f).Paired := by
  intro k
  simp only [Storage.modifyTable, Std.ExtTreeMap.getElem?_modify]
  split
  · next heq =>
    rw [Option.isSome_map, Std.LawfulEqCmp.compare_eq_iff_eq.mp heq]
    exact h k
  · exact h k

theorem Paired.clearTable {s : Storage} (h : s.Paired) (tableName : String) :
    (s.clearTable tableName).Paired := by
  intro k
  simp only [Storage.clearTable, Std.ExtTreeMap.getElem?_erase]
  split
  · rfl
  · exact h k

/-- What `insert_rows` keeps true of a storage. -/
structure Consistent (s : Storage) : Prop where
  sound : s.Sound
  paired : s.Paired

theorem Consistent.new : Storage.new.Consistent := ⟨.new, .new⟩

theorem Consistent.keyed {s : Storage} (h : s.Consistent) {tableName : String} {t : Table}
    (ht : s.getTable? tableName = some t) : t.Keyed := by
  rw [← table_of_getTable? ht]
  exact (h.sound tableName).keyed

theorem Consistent.insertRows {s : Storage} (h : s.Consistent) (tableName : String)
    (rows : List Row) : (s.insertRows tableName rows).2.Consistent :=
  ⟨h.sound.insertRows tableName rows, h.paired.insertRows tableName rows⟩

theorem Consistent.modifyTable {s : Storage} (h : s.Consistent) (tableName : String)
    {f : Table → Table} (hf : f ∅ = ∅) (hs : ∀ t next, t.Sound next → (f t).Sound next) :
    (s.modifyTable tableName f).Consistent :=
  ⟨h.sound.modifyTable tableName hf hs, h.paired.modifyTable tableName f⟩

theorem Consistent.clearTable {s : Storage} (h : s.Consistent) (tableName : String) :
    (s.clearTable tableName).Consistent :=
  ⟨h.sound.clearTable tableName, h.paired.clearTable tableName⟩

/-- The rows and the counters of two storages are the same. -/
structure SameRows (s s' : Storage) : Prop where
  tables : s.tables = s'.tables
  nextIds : s.nextIds = s'.nextIds

omit [Host] in
theorem SameRows.refl (s : Storage) : s.SameRows s := ⟨rfl, rfl⟩

omit [Host] in
theorem SameRows.symm {s s' : Storage} (h : s.SameRows s') : s'.SameRows s :=
  ⟨h.tables.symm, h.nextIds.symm⟩

omit [Host] in
theorem SameRows.trans {s s' s'' : Storage} (h : s.SameRows s') (h' : s'.SameRows s'') :
    s.SameRows s'' :=
  ⟨h.tables.trans h'.tables, h.nextIds.trans h'.nextIds⟩

theorem SameRows.sound {s s' : Storage} (h : s.SameRows s') (hs : s.Sound) : s'.Sound :=
  hs.congr h.tables.symm h.nextIds.symm

omit [Host] in
theorem SameRows.paired {s s' : Storage} (h : s.SameRows s') (hs : s.Paired) : s'.Paired := by
  intro k
  rw [← h.tables, ← h.nextIds]
  exact hs k

theorem SameRows.consistent {s s' : Storage} (h : s.SameRows s') (hs : s.Consistent) :
    s'.Consistent :=
  ⟨h.sound hs.sound, h.paired hs.paired⟩

theorem Consistent.putIndex {s : Storage} (h : s.Consistent) (key : String)
    (data : IndexData) : (s.putIndex key data).Consistent := by
  have hsame : s.SameRows (s.putIndex key data) := ⟨rfl, rfl⟩
  exact hsame.consistent h

theorem SameRows.insertRows {s s' : Storage} (h : s.SameRows s') (tableName : String)
    (rows : List Row) : (s.insertRows tableName rows).2.SameRows (s'.insertRows tableName rows).2 := by
  constructor <;> simp only [Storage.insertRows, h.tables, h.nextIds]

theorem SameRows.modifyTable {s s' : Storage} (h : s.SameRows s') (tableName : String)
    (f : Table → Table) : (s.modifyTable tableName f).SameRows (s'.modifyTable tableName f) := by
  constructor <;> simp only [Storage.modifyTable, h.tables, h.nextIds]

theorem SameRows.clearTable {s s' : Storage} (h : s.SameRows s') (tableName : String) :
    (s.clearTable tableName).SameRows (s'.clearTable tableName) := by
  constructor <;> simp only [Storage.clearTable, h.tables, h.nextIds]

@[simp] theorem nextIds_modifyTable (s : Storage) (tableName : String) (f : Table → Table) :
    (s.modifyTable tableName f).nextIds = s.nextIds := rfl

/-- A rewrite of a table that is there puts the new table in its place. -/
theorem tables_modifyTable {s : Storage} {tableName : String} {t : Table}
    (h : s.getTable? tableName = some t) (f : Table → Table) :
    (s.modifyTable tableName f).tables = s.tables.insert (normalize tableName) (f t) := by
  refine Std.ExtTreeMap.ext_getElem? fun k => ?_
  simp only [Storage.modifyTable, Std.ExtTreeMap.getElem?_modify, Std.ExtTreeMap.getElem?_insert]
  split
  · next heq =>
    rw [getTable?] at h
    rw [h, Option.map_some]
  · rfl

/-- A rewrite that leaves the table as it is. -/
theorem modifyTable_self {s : Storage} {tableName : String} {t : Table}
    (h : s.getTable? tableName = some t) {f : Table → Table} (hf : f t = t) :
    (s.modifyTable tableName f).SameRows s := by
  refine ⟨?_, rfl⟩
  rw [tables_modifyTable h, hf]
  refine Std.ExtTreeMap.ext_getElem? fun k => ?_
  rw [Std.ExtTreeMap.getElem?_insert]
  split
  · next heq => rw [← Std.LawfulEqCmp.compare_eq_iff_eq.mp heq]; exact h.symm
  · rfl

/-- What a snapshot of a table is replayed as: the table emptied, then its
rows inserted. -/
def restoreRows (s : Storage) (tableName : String) (rows : List Row) : Storage :=
  let cleared := s.modifyTable tableName fun _ => ∅
  if rows.isEmpty then cleared else (cleared.insertRows tableName rows).2

theorem SameRows.restoreRows {s s' : Storage} (h : s.SameRows s') (tableName : String)
    (rows : List Row) :
    (s.restoreRows tableName rows).SameRows (s'.restoreRows tableName rows) := by
  unfold Storage.restoreRows
  have hclear := h.modifyTable tableName fun _ => ∅
  cases rows.isEmpty with
  | true => exact hclear
  | false => exact hclear.insertRows tableName rows

theorem Consistent.restoreRows {s : Storage} (h : s.Consistent) (tableName : String)
    (rows : List Row) : (s.restoreRows tableName rows).Consistent := by
  have hcleared := h.modifyTable tableName (f := fun _ => ∅) rfl fun _ _ ht =>
    Table.Sound.empty ht.next_pos
  unfold Storage.restoreRows
  cases rows.isEmpty with
  | true => exact hcleared
  | false => exact hcleared.insertRows tableName rows

/-- The snapshot of a sound table puts that table in place. -/
theorem restoreRows_rows {s : Storage} (hp : s.Paired) {tableName : String} {t t' : Table}
    (h : s.getTable? tableName = some t) (ht' : t'.Sound (s.nextId tableName)) :
    (s.restoreRows tableName t'.rows).SameRows (s.modifyTable tableName fun _ => t') := by
  have hcleared := tables_modifyTable h fun _ => ∅
  unfold restoreRows
  cases hrows : t'.rows.isEmpty with
  | true =>
    rw [Table.rows_eq_nil_iff.mp (List.isEmpty_iff.mp hrows)]
    exact SameRows.refl _
  | false =>
    obtain ⟨hrebuild, hnext⟩ := insertLoop_rebuild ht'
    have htable : (s.tables.insert (normalize tableName) ∅).getD (normalize tableName) ∅ = ∅ := by
      simp
    have hcounter : s.nextIds[normalize tableName]? = some (s.nextId tableName) := by
      have hsome := hp (normalize tableName)
      rw [getTable?] at h
      rw [h, Option.isSome_some] at hsome
      obtain ⟨n, hn⟩ := Option.isSome_iff_exists.mp hsome.symm
      rw [nextId, Std.ExtTreeMap.getD_eq_getD_getElem?, hn, Option.getD_some]
    have hold : s.nextIds.getD (normalize tableName) 1 = s.nextId tableName := rfl
    constructor
    · simp only [Storage.insertRows, hcleared, htable, tables_modifyTable h, nextIds_modifyTable,
        hold, hrebuild, Bool.false_eq_true, if_false]
      refine Std.ExtTreeMap.ext_getElem? fun k => ?_
      simp only [Std.ExtTreeMap.getElem?_insert]
      split <;> rfl
    · simp only [Storage.insertRows, hcleared, htable, nextIds_modifyTable, hold, hnext,
        Bool.false_eq_true, if_false]
      refine Std.ExtTreeMap.ext_getElem? fun k => ?_
      rw [Std.ExtTreeMap.getElem?_insert]
      split
      · next heq => rw [← Std.LawfulEqCmp.compare_eq_iff_eq.mp heq, hcounter]
      · rfl

end Storage

/-! ## Deleting and rewriting rows -/

namespace Table

/-- The row removals of DELETE. -/
theorem getElem?_eraseRows (rows : List Row) (t : Table) (id : Nat) :
    (rows.foldl (fun t row => t.erase row.id) t)[id]? =
      if id ∈ rows.map (·.id) then none else t[id]? := by
  induction rows generalizing t with
  | nil => simp
  | cons row rest ih =>
    simp only [List.foldl_cons, ih, Std.ExtTreeMap.getElem?_erase,
      Std.LawfulEqCmp.compare_eq_iff_eq, List.map_cons, List.mem_cons]
    by_cases hrest : id ∈ rest.map (·.id)
    · simp [hrest]
    · by_cases hrow : row.id = id
      · simp [hrow]
      · simp [hrest, hrow, Ne.symm hrow]

/-- The row writes of UPDATE. -/
theorem getElem?_writeRows (rows : List Row) (t : Table) (id : Nat) :
    ∃ values? : Option (List Value),
      (rows.foldl (fun t row => t.modify row.id fun old => { old with values := row.values })
        t)[id]? = t[id]?.map fun old => { old with values := values?.getD old.values } := by
  induction rows generalizing t with
  | nil => exact ⟨none, by simp⟩
  | cons row rest ih =>
    obtain ⟨values?, hrest⟩ := ih (t.modify row.id fun old => { old with values := row.values })
    simp only [List.foldl_cons, hrest, Std.ExtTreeMap.getElem?_modify,
      Std.LawfulEqCmp.compare_eq_iff_eq]
    by_cases hrow : row.id = id
    · subst hrow
      refine ⟨some (values?.getD row.values), ?_⟩
      rw [if_pos rfl, Option.map_map]
      rfl
    · exact ⟨values?, by rw [if_neg hrow]⟩

/-- A row no write is about stays. -/
theorem getElem?_writeRows_of_notMem {rows : List Row} {id : Nat}
    (h : id ∉ rows.map (·.id)) (t : Table) :
    (rows.foldl (fun t row => t.modify row.id fun old => { old with values := row.values })
      t)[id]? = t[id]? := by
  induction rows generalizing t with
  | nil => rfl
  | cons row rest ih =>
    rw [List.map_cons, List.mem_cons, not_or] at h
    rw [List.foldl_cons, ih h.2, Std.ExtTreeMap.getElem?_modify, if_neg]
    rw [Std.LawfulEqCmp.compare_eq_iff_eq]
    exact Ne.symm h.1

/-- A row one write is about gets its values. -/
theorem getElem?_writeRows_of_mem {rows : List Row} (hnd : (rows.map (·.id)).Nodup) {row : Row}
    (h : row ∈ rows) (t : Table) :
    (rows.foldl (fun t row => t.modify row.id fun old => { old with values := row.values })
      t)[row.id]? = t[row.id]?.map fun old => { old with values := row.values } := by
  induction rows generalizing t with
  | nil => cases h
  | cons first rest ih =>
    rw [List.map_cons, List.nodup_cons] at hnd
    rw [List.foldl_cons]
    rcases List.mem_cons.mp h with rfl | h
    · rw [getElem?_writeRows_of_notMem hnd.1, Std.ExtTreeMap.getElem?_modify,
        if_pos Std.ReflCmp.compare_self]
    · have hne : first.id ≠ row.id := fun heq => hnd.1 (heq ▸ List.mem_map_of_mem h)
      rw [ih hnd.2 h, Std.ExtTreeMap.getElem?_modify, if_neg]
      rwa [Std.LawfulEqCmp.compare_eq_iff_eq]

theorem Sound.eraseRows {t : Table} {next : Nat} (h : t.Sound next) (rows : List Row) :
    Sound (rows.foldl (fun t row => t.erase row.id) t) next := by
  have hget : ∀ (id : Nat) (row : Row),
      (rows.foldl (fun t row => t.erase row.id) t)[id]? = some row → t[id]? = some row := by
    intro id row hrow
    rw [getElem?_eraseRows] at hrow
    split at hrow
    · cases hrow
    · exact hrow
  exact ⟨h.next_pos, fun id row hr => h.keyed id row (hget id row hr),
    fun id row hr => h.id_pos id row (hget id row hr),
    fun id row hr => h.id_lt id row (hget id row hr)⟩

theorem Sound.writeRows {t : Table} {next : Nat} (h : t.Sound next) (rows : List Row) :
    Sound (rows.foldl (fun t row => t.modify row.id fun old => { old with values := row.values })
      t) next := by
  have hget : ∀ (id : Nat) (row : Row),
      (rows.foldl (fun t row => t.modify row.id fun old => { old with values := row.values })
        t)[id]? = some row → ∃ old, t[id]? = some old ∧ row.id = old.id := by
    intro id row hrow
    obtain ⟨values?, hw⟩ := getElem?_writeRows rows t id
    rw [hw] at hrow
    obtain ⟨old, hold, rfl⟩ := Option.map_eq_some_iff.mp hrow
    exact ⟨old, hold, rfl⟩
  refine ⟨h.next_pos, fun id row hr => ?_, fun id row hr => ?_, fun id row hr => ?_⟩
  · obtain ⟨old, hold, hid⟩ := hget id row hr
    rw [hid]
    exact h.keyed id old hold
  · obtain ⟨old, hold, -⟩ := hget id row hr
    exact h.id_pos id old hold
  · obtain ⟨old, hold, -⟩ := hget id row hr
    exact h.id_lt id old hold

end Table

end Srrdb.Engine

/-
Srrdb.Engine.Checkpoint — a checkpoint read back.

A checkpoint holds the catalog and, table by table in the order of their
names, the stored rows. The row-id counters are not in it: they follow from
the ids when the rows are inserted again (`reloadTables`). For tables filed
as a server files them (`Storage.Filed`) nothing is lost.
-/
import Srrdb.Engine.LogFormat
import Srrdb.Engine.StorageTheorems

namespace Srrdb.Engine

open Srrdb.Lib

section Theory

variable [Host]

/-! ## Tables inserted again -/

/-- Tables under folded names, rows under their own ids, ids that `insert_rows`
can keep and count on from. -/
structure Storage.Filed (s : Storage) : Prop where
  folded : ∀ (name : String) (t : Table), s.tables[name]? = some t → normalize name = name
  keyed : ∀ (name : String) (t : Table), s.tables[name]? = some t → t.Keyed
  ids : ∀ (name : String) (t : Table), s.tables[name]? = some t →
    ∀ row ∈ t.rows, 1 ≤ row.id ∧ row.id ≤ 2 ^ 64 - 2

/-- The tables of a checkpoint inserted one after the other. -/
def reloadTables (s : Storage) (tables : List (String × Table)) : Storage :=
  tables.foldl (fun s p => (s.insertRows p.1 p.2.rows).2) s

omit [Host] in
/-- The rows of a keyed table, inserted where there is none, are the table. -/
theorem insertLoop_keyed {t : Table} (hkeyed : t.Keyed) (hids : ∀ row ∈ t.rows, 1 ≤ row.id)
    {next : Nat} (hnext : 0 < next) : (Storage.insertLoop ∅ next t.rows).1 = t := by
  have hsound := Storage.insertLoop_sound (Table.Sound.empty hnext) t.rows
  have hnew : ∀ row ∈ t.rows, (∅ : Table)[row.id]? = none := fun row _ => by simp
  have hperm := Storage.insertLoop_explicit (fun row h => Nat.pos_iff_ne_zero.mp (hids row h))
    hkeyed.nodup_rows hnew next
  rw [Table.rows_empty, List.append_nil] at hperm
  exact hsound.keyed.ext hkeyed hperm

theorem reloadTables_consistent {s : Storage} (h : s.Consistent) (tables : List (String × Table)) :
    (reloadTables s tables).Consistent := by
  induction tables generalizing s with
  | nil => exact h
  | cons p rest ih => exact ih (h.insertRows p.1 p.2.rows)

/-- Tables that are filed as a server files them are added as they are. -/
theorem tables_reloadTables {tables : List (String × Table)}
    (hfolded : ∀ p ∈ tables, normalize p.1 = p.1) (hkeyed : ∀ p ∈ tables, p.2.Keyed)
    (hids : ∀ p ∈ tables, ∀ row ∈ p.2.rows, 1 ≤ row.id) (hnd : (tables.map Prod.fst).Nodup)
    {s : Storage} (hs : s.Consistent) (hnew : ∀ p ∈ tables, s.tables[p.1]? = none) :
    (reloadTables s tables).tables = tables.foldl (fun m p => m.insert p.1 p.2) s.tables := by
  induction tables generalizing s with
  | nil => rfl
  | cons p rest ih =>
    rw [List.map_cons, List.nodup_cons] at hnd
    have htables : (s.insertRows p.1 p.2.rows).2.tables = s.tables.insert p.1 p.2 := by
      have hfold := hfolded p List.mem_cons_self
      have hnone := hnew p List.mem_cons_self
      have hnext : 0 < s.nextIds.getD p.1 1 := by
        have := (hs.sound p.1).next_pos
        rwa [Storage.nextId, hfold] at this
      simp only [Storage.insertRows, hfold]
      rw [Std.ExtTreeMap.getD_eq_getD_getElem?, hnone, Option.getD_none,
        insertLoop_keyed (hkeyed p List.mem_cons_self) (hids p List.mem_cons_self) hnext]
    rw [reloadTables, List.foldl_cons, ← reloadTables, List.foldl_cons, ← htables]
    refine ih (fun q hq => hfolded q (List.mem_cons_of_mem _ hq))
      (fun q hq => hkeyed q (List.mem_cons_of_mem _ hq))
      (fun q hq => hids q (List.mem_cons_of_mem _ hq)) hnd.2 (hs.insertRows p.1 p.2.rows)
      fun q hq => ?_
    rw [htables, Std.ExtTreeMap.getElem?_insert, if_neg]
    · exact hnew q (List.mem_cons_of_mem _ hq)
    · rw [Std.LawfulEqCmp.compare_eq_iff_eq]
      intro heq
      exact hnd.1 (heq ▸ List.mem_map_of_mem hq)

/-- Inserting the tables of a storage into an empty one gives the same tables. -/
theorem reloadTables_toList {s : Storage} (h : s.Filed) :
    (reloadTables .new s.tables.toList).tables = s.tables := by
  have hmem : ∀ p ∈ s.tables.toList, s.tables[p.1]? = some p.2 := fun p hp => OrdMap.mem_toList.mp hp
  have hnd : (s.tables.toList.map Prod.fst).Nodup :=
    List.pairwise_map.mpr (OrdMap.pairwise_ne_toList s.tables)
  rw [tables_reloadTables (fun p hp => h.folded p.1 p.2 (hmem p hp))
    (fun p hp => h.keyed p.1 p.2 (hmem p hp))
    (fun p hp row hrow => (h.ids p.1 p.2 (hmem p hp) row hrow).1) hnd .new
    (fun p _ => by simp [Storage.new])]
  refine Std.ExtTreeMap.ext_getElem? fun name => ?_
  cases hget : s.tables[name]? with
  | none =>
    rw [OrdMap.getElem?_foldl_insert_of_notMem Prod.fst Prod.snd]
    · simp [Storage.new]
    · intro hname
      obtain ⟨p, hp, rfl⟩ := List.mem_map.mp hname
      rw [hmem p hp] at hget
      cases hget
  | some t =>
    exact OrdMap.getElem?_foldl_insert_of_mem Prod.fst Prod.snd hnd
      (OrdMap.mem_toList.mpr hget : (name, t) ∈ s.tables.toList) _

/-! ## The bytes of the tables -/

variable [Bincode]

/-- The tables of a checkpoint as they are written. -/
def tablesBytes (tables : List (String × Table)) : List UInt8 :=
  tables.flatMap fun p => serialize Bincode.string p.1 ++ serialize Bincode.rows p.2.rows

omit [Host] in
theorem string_ne_nil (name : String) : serialize Bincode.string name ≠ [] :=
  Bincode.string.enc_ne_nil (by decide : "" ≠ "a") name

omit [Host] in
theorem rows_ne_nil (rows : List Row) : serialize Bincode.rows rows ≠ [] :=
  Bincode.rows.enc_ne_nil (by decide : ([] : List Row) ≠ [⟨0, []⟩]) rows

omit [Host] in
theorem usize_ne_nil (n : Nat) : serialize Bincode.usize n ≠ [] :=
  Bincode.usize.enc_ne_nil (by decide : 0 ≠ 1) n

/-- The reader of a checkpoint gets every table back and inserts it. -/
theorem checkpointTables_tablesBytes (tables : List (String × Table)) (s : Storage) :
    checkpointTables tables.length (tablesBytes tables) s = some (reloadTables s tables) := by
  induction tables generalizing s with
  | nil => rfl
  | cons p rest ih =>
    have hbytes : tablesBytes (p :: rest) = serialize Bincode.string p.1 ++
        (serialize Bincode.rows p.2.rows ++ tablesBytes rest) := by
      rw [tablesBytes, List.flatMap_cons, List.append_assoc, ← tablesBytes]
    have hname : (tablesBytes (p :: rest)).isEmpty = false := by
      rw [hbytes]
      exact List.isEmpty_eq_false_iff.mpr
        (List.append_ne_nil_of_left_ne_nil (string_ne_nil p.1) _)
    have hrows : (serialize Bincode.rows p.2.rows ++ tablesBytes rest).isEmpty = false :=
      List.isEmpty_eq_false_iff.mpr
        (List.append_ne_nil_of_left_ne_nil (rows_ne_nil p.2.rows) _)
    rw [List.length_cons, checkpointTables, hname, hbytes]
    simp only [deserializeString, deserialize_serialize_append, Option.map_some,
      drop_serializedSize, bind, Option.bind, hrows, Bool.false_eq_true, if_false]
    rw [ih]
    rfl

/-! ## Checkpoints -/

omit [Host] in
/-- The file `Wal::truncate` leaves. -/
def truncateWal (m : Memory) : List UInt8 := buildCheckpointData m

/-- What a checkpoint of a memory is read back as. -/
def Memory.reloaded (m : Memory) : Memory :=
  ⟨m.catalog, reloadTables .new m.storage.tables.toList⟩

/-- Reading a checkpoint whose length fits the length field, whatever follows
it in the log. -/
theorem replayCheckpoint_append {m : Memory} (hfit : (buildCheckpointData m).length < 2 ^ 32)
    (rest : List UInt8) :
    replayCheckpoint (buildCheckpointData m ++ rest) = .ok m.reloaded := by
  have hpayload : buildCheckpointData m = frame WalEntry.checkpoint.entryType
      (serialize Bincode.catalog m.catalog ++ (serialize Bincode.usize
        m.storage.tables.toList.length ++ tablesBytes m.storage.tables.toList)) := by
    rw [buildCheckpointData, List.append_assoc]
    rfl
  generalize hp : serialize Bincode.catalog m.catalog ++ (serialize Bincode.usize
    m.storage.tables.toList.length ++ tablesBytes m.storage.tables.toList) = payload at hpayload
  rw [hpayload, length_frame] at hfit
  obtain ⟨hmagic, htype, hparts⟩ := frame_parts WalEntry.checkpoint.entryType payload rest
  have hlen : (frame WalEntry.checkpoint.entryType payload ++ rest).length =
      entryHeaderSize + payload.length + rest.length := by
    rw [List.length_append, length_frame]
  have hcount : (serialize Bincode.usize m.storage.tables.toList.length ++
      tablesBytes m.storage.tables.toList).isEmpty = false :=
    List.isEmpty_eq_false_iff.mpr (List.append_ne_nil_of_left_ne_nil (usize_ne_nil _) _)
  have hheader : ¬ ((frame WalEntry.checkpoint.entryType payload ++ rest).length <
      entryHeaderSize ∨
      (frame WalEntry.checkpoint.entryType payload ++ rest).take 2 ≠ magic) := by
    rw [not_or, not_not]
    exact ⟨by omega, hmagic⟩
  rw [hpayload, replayCheckpoint, if_neg hheader, htype, if_neg (not_not.mpr rfl),
    entryLength_frame _ hfit, if_neg (by omega)]
  simp only [hparts]
  rw [← hp]
  simp only [deserialize_serialize_append, drop_serializedSize, hcount, Bool.false_eq_true,
    if_false, checkpointTables_tablesBytes]
  rfl

/-- A log that starts with another entry is no checkpoint. -/
theorem replayCheckpoint_entry {entry : WalEntry} (h : entry ≠ .checkpoint) (rest : List UInt8) :
    replayCheckpoint (entry.serialize ++ rest) = .error (.err "Not a checkpoint") := by
  obtain ⟨hmagic, htype, -⟩ := frame_parts entry.entryType entry.payload rest
  have hlen : (frame entry.entryType entry.payload ++ rest).length =
      entryHeaderSize + entry.payload.length + rest.length := by
    rw [List.length_append, length_frame]
  have hheader : ¬ ((frame entry.entryType entry.payload ++ rest).length < entryHeaderSize ∨
      (frame entry.entryType entry.payload ++ rest).take 2 ≠ magic) := by
    rw [not_or, not_not]
    exact ⟨by omega, hmagic⟩
  have hother : entry.entryType ≠ WalEntry.checkpoint.entryType := by
    cases entry <;> simp [WalEntry.entryType] at h ⊢
  rw [WalEntry.serialize, replayCheckpoint, if_neg hheader, htype, if_pos hother]

/-- The checkpoint codec is lossless: the catalog is equal, the tables hold the
same rows under the same ids, and every counter is past the stored ids. -/
theorem replayCheckpoint_buildCheckpointData {m : Memory} (hfiled : m.storage.Filed)
    (hfit : (buildCheckpointData m).length < 2 ^ 32) :
    ∃ m', replayCheckpoint (buildCheckpointData m) = .ok m' ∧ m'.catalog = m.catalog ∧
      m'.storage.tables = m.storage.tables ∧
      ∀ (name : String) (t : Table), m'.storage.tables[name]? = some t →
        ∀ row ∈ t.rows, row.id < m'.storage.nextIds.getD name 1 := by
  have htables : m.reloaded.storage.tables = m.storage.tables := reloadTables_toList hfiled
  have hread := replayCheckpoint_append hfit []
  rw [List.append_nil] at hread
  refine ⟨m.reloaded, hread, rfl, htables, fun name t hget row hrow => ?_⟩
  have hfold : normalize name = name := hfiled.folded name t (htables ▸ hget)
  have hsound := (reloadTables_consistent .new m.storage.tables.toList).sound name
  have htable : m.reloaded.storage.table name = t := by
    rw [Storage.table, hfold, Std.ExtTreeMap.getD_eq_getD_getElem?, hget, Option.getD_some]
  have hkeyed : t.Keyed := hfiled.keyed name t (htables ▸ hget)
  have hlt := hsound.id_lt row.id row (by
    show (m.reloaded.storage.table name)[row.id]? = some row
    rw [htable]
    exact hkeyed.mem_rows.mp hrow)
  rwa [Storage.nextId, hfold] at hlt

omit [Bincode] in
/-- A finite check that tables are filed. -/
theorem Storage.filed_of_toList {s : Storage}
    (h : ∀ p ∈ s.tables.toList, normalize p.1 = p.1 ∧ (∀ q ∈ p.2.toList, q.2.id = q.1) ∧
      ∀ row ∈ p.2.rows, 1 ≤ row.id ∧ row.id ≤ 2 ^ 64 - 2) : s.Filed where
  folded name t hget := (h (name, t) (OrdMap.mem_toList.mpr hget)).1
  keyed name t hget id row hrow :=
    (h (name, t) (OrdMap.mem_toList.mpr hget)).2.1 (id, row) (OrdMap.mem_toList.mpr hrow)
  ids name t hget := (h (name, t) (OrdMap.mem_toList.mpr hget)).2.2

end Theory

section Concrete

attribute [local instance] asciiHost bincode1

/-- A table `t` with the row `7` under the id 3, and an empty table `u`. -/
def twoTables : Memory :=
  ⟨.new, ((Storage.new.insertRows "t" [⟨3, [.int 7]⟩]).2.insertRows "u" []).2⟩

theorem twoTables_filed : twoTables.storage.Filed :=
  Storage.filed_of_toList (by decide +kernel)

theorem twoTables_readBack :
    ∃ m', replayCheckpoint (buildCheckpointData twoTables) = .ok m' ∧
      m'.catalog = twoTables.catalog ∧ m'.storage.tables = twoTables.storage.tables ∧
      ∀ (name : String) (t : Table), m'.storage.tables[name]? = some t →
        ∀ row ∈ t.rows, row.id < m'.storage.nextIds.getD name 1 :=
  replayCheckpoint_buildCheckpointData twoTables_filed (by decide +kernel)

end Concrete

end Srrdb.Engine

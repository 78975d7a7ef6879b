/-
Srrdb.Server.Durability — which acknowledged changes are in the log.

`log_wal` drops the result of the append, and CREATE DATABASE and DROP
DATABASE do not call it, so a statement returns `Ok` with its change made
whether or not an entry for it is in the log. The entry of an INSERT has the
rows, but not the sequence values that were drawn for them. `TakesEffect` says
when a statement changes something, in terms of the state before it; `Recorded`
says when there is then an entry that brings the change back.
-/
import Srrdb.Server.AutoIncrement
import Srrdb.Server.EntryDatabase
import Srrdb.Server.LogOrder

namespace Srrdb.Server

open Srrdb.Engine Srrdb.Sql Srrdb.Lib

section Theory

variable [Host] [ExprDebug] [Bincode]

/-! ## Acknowledged changes -/

omit [ExprDebug] [Bincode] in
/-- The catalog or the rows of a table differ. -/
def Changed (e e' : Executor) : Prop :=
  e'.catalog.value ≠ e.catalog.value ∨
    ∃ name, e'.storage.value.getRows name ≠ e.storage.value.getRows name

omit [ExprDebug] [Bincode] in
/-- One entry was appended, and replaying it makes the change: it leads to the
same databases, sequences, rows by id and next ids. -/
def Logged (e e' : Executor) : Prop :=
  ∃ entry, e'.wal = e.wal ++ [entry] ∧
    (e.memory.applyEntry entry).2.SameTables e'.memory ∧
    (e.memory.applyEntry entry).2.catalog.sequences = e'.catalog.value.sequences

omit [ExprDebug] [Bincode] in
/-- What is acknowledged with a change is in the log. -/
def DurableAfter (e : Executor) (r : Outcome ExecuteResult) (e' : Executor) : Prop :=
  (∃ result, r = .ok result) → Changed e e' → Logged e e'

/-- An acknowledged statement has its change in the log. -/
def Durable (e : Executor) (call : Call) : Prop :=
  DurableAfter e (call.result e) (e.after call)

/-- The statement changes the catalog or rows. -/
def TakesEffect (e : Executor) (call : Call) : Prop :=
  e.catalog.poisoned = false ∧
  match call.stmt with
  | .createTable ct => NameFree e.catalog.value call.db (nameToString ct.name)
  | .drop .table names _ => e.storage.poisoned = false ∧
      e.catalog.value.tableExists call.db (firstName names) = true
  | .insert ins => e.storage.poisoned = false ∧
      ∃ tableDef rows, e.catalog.value.getTable call.db (tableObjectName ins.table) = .ok tableDef ∧
        sourceRows tableDef.columns ins.columns ins.source = .ok rows ∧
        Wide tableDef.columns rows ∧ rows ≠ []
  | .delete del => e.storage.poisoned = false ∧
      ∃ tableDef t rows, e.catalog.value.getTable call.db (deleteTable del) = .ok tableDef ∧
        e.storage.value.getTable? (deleteTable del) = some t ∧
        selectRows tableDef.columns del.selection t.entries = .ok rows ∧ rows ≠ []
  | .update table assignments selection => e.storage.poisoned = false ∧
      ∃ tableDef assigns t rows,
        e.catalog.value.getTable call.db (tableFactorName table) = .ok tableDef ∧
        assignments.mapM (assignIndex tableDef.columns) = .ok assigns ∧
        e.storage.value.getTable? (tableFactorName table) = some t ∧
        selectRows tableDef.columns selection t.entries = .ok rows ∧
        ∃ row ∈ rows, assignValues assigns row.values ≠ row.values
  | .createIndex ci => e.storage.poisoned = false ∧ indexColumns ci ≠ [] ∧
      ∃ c tableDef data,
        e.catalog.value.createIndex call.db (newIndexDef (nameToString ci.tableName) ci) = .ok c ∧
        e.catalog.value.getTable call.db (nameToString ci.tableName) = .ok tableDef ∧
        buildIndex (newIndexDef (nameToString ci.tableName) ci) tableDef.columns
          (e.storage.value.getRows (nameToString ci.tableName))
          (.new (newIndexDef (nameToString ci.tableName) ci).indexType) = .ok data
  | .drop .index names _ => e.storage.poisoned = false ∧
      ∃ tableName c, findIndexTable call.env call.db (firstName names) e.catalog.value =
          some tableName ∧
        e.catalog.value.dropIndex call.db (firstName names) tableName = .ok c
  | .createDatabase name _ => e.catalog.value.databaseExists (nameToString name) = false
  | .drop .database names _ => e.catalog.value.databaseExists (firstName names) = true
  | _ => False

/-- The append succeeds, and the statement is one whose entry says enough: not
on databases, on a table definition only in `srrdb`, and no INSERT that leaves
an AUTO_INCREMENT column NULL. -/
def Recorded (e : Executor) (call : Call) : Prop :=
  call.env.appendOk = true ∧
  match call.stmt with
  | .createTable _ | .drop .table _ _ => SameName call.db "srrdb"
  | .insert ins => ∀ tableDef rows,
      e.catalog.value.getTable call.db (tableObjectName ins.table) = .ok tableDef →
      sourceRows tableDef.columns ins.columns ins.source = .ok rows →
      drawnRows tableDef.columns rows = 0
  | .createDatabase .. | .drop .database _ _ => False
  | _ => True

/-! ## What follows for any statement -/

omit [ExprDebug] [Bincode] in
theorem durableAfter_of_error {e e' : Executor} {x : Stop} : DurableAfter e (.error x) e' :=
  fun ⟨_, h⟩ => by cases h

omit [ExprDebug] [Bincode] in
theorem not_changed_refl (e : Executor) : ¬ Changed e e := by
  rintro (h | ⟨name, h⟩) <;> exact h rfl

omit [ExprDebug] [Bincode] in
theorem durableAfter_refl {e : Executor} {r : Outcome ExecuteResult} : DurableAfter e r e :=
  fun _ h => absurd h (not_changed_refl e)

omit [ExprDebug] [Bincode] in
/-- An entry that was appended and reproduces the statement. -/
theorem logged_of_reproduced {env : Env} {e e' : Executor} {entry : WalEntry}
    (hok : env.appendOk = true) (hwal : e'.wal = e.wal ++ env.logged entry)
    (h : Reproduced e e')
    (hseq : (e.memory.applyEntry entry).2.catalog.sequences = e'.catalog.value.sequences) :
    Logged e e' := by
  obtain ⟨entries, hentries, hsame⟩ := h
  rw [Env.logged, if_pos hok] at hwal
  obtain rfl := List.append_cancel_left (hentries.symm.trans hwal)
  exact ⟨entry, hwal, hsame, hseq⟩

omit [ExprDebug] [Bincode] in
/-- Without an append nothing is logged. -/
theorem not_logged_of_wal {e e' : Executor} (hwal : e'.wal = e.wal) : ¬ Logged e e' := by
  rintro ⟨entry, h, -⟩
  rw [hwal] at h
  simpa using congrArg List.length h

omit [ExprDebug] [Bincode] in
theorem appendOk_of_logged {env : Env} {e e' : Executor} {entry : WalEntry}
    (hwal : e'.wal = e.wal ++ env.logged entry) (h : Logged e e') : env.appendOk = true := by
  cases hok : env.appendOk with
  | true => rfl
  | false =>
    rw [Env.logged, hok, if_neg (by decide), List.append_nil] at hwal
    exact absurd h (not_logged_of_wal hwal)

omit [ExprDebug] [Bincode] in
/-- A statement that returned `Ok`, changed something exactly when it takes
effect, and appended an entry; what the entry says is enough under `D`. -/
theorem durableAfter_iff {env : Env} {e e' : Executor} {result : ExecuteResult} {entry : WalEntry}
    {T D : Prop} (hchanged : Changed e e' ↔ T) (hwal : T → e'.wal = e.wal ++ env.logged entry)
    (hrep : env.appendOk = true → D → Reproduced e e')
    (hseq : D → (e.memory.applyEntry entry).2.catalog.sequences = e'.catalog.value.sequences)
    (hsaid : T → Logged e e' → D) :
    DurableAfter e (.ok result) e' ↔ (T → env.appendOk = true ∧ D) := by
  constructor
  · intro h ht
    have hlogged := h ⟨result, rfl⟩ (hchanged.mpr ht)
    exact ⟨appendOk_of_logged (hwal ht) hlogged, hsaid ht hlogged⟩
  · intro h _ hc
    have ht := hchanged.mp hc
    exact logged_of_reproduced (h ht).1 (hwal ht) (hrep (h ht).1 (h ht).2) (hseq (h ht).2)

omit [ExprDebug] [Bincode] in
/-- An entry of a change to the tables of another database than `srrdb` does
not bring the change back. -/
theorem srrdb_of_logged {e e' : Executor} {db name : String} {b : Bool}
    (hold : e.catalog.value.tableExists db name = b)
    (hnew : e'.catalog.value.tableExists db name = !b) (h : Logged e e') : SameName db "srrdb" := by
  by_contra hdb
  obtain ⟨entry, -, hsame, -⟩ := h
  have hfind := findTable_applyEntry (m := e.memory) (fun h => hdb h.symm) entry name
  rw [Catalog.findTable_congr hsame.databases, Executor.memory_catalog, Executor.memory_catalog]
    at hfind
  rw [Catalog.tableExists_eq] at hold hnew
  rw [hfind, hold] at hnew
  cases b <;> cases hnew

omit [ExprDebug] [Bincode] in
/-- Whether a table exists is seen in the catalog. -/
theorem changed_of_tableExists {e e' : Executor} {db name : String} {b : Bool}
    (hold : e.catalog.value.tableExists db name = b)
    (hnew : e'.catalog.value.tableExists db name = !b) : Changed e e' := by
  refine .inl fun heq => ?_
  rw [heq, hold] at hnew
  cases b <;> cases hnew

omit [ExprDebug] [Bincode] in
/-- CREATE TABLE in `srrdb` is replayed with the sequence it starts. -/
theorem applyEntry_createTable_sequences {m : Memory} {db tableName : String}
    {columns : List Column} {c : Catalog} (hdb : SameName db "srrdb")
    (h : m.catalog.createTable db tableName columns = .ok c) :
    (m.applyEntry (.createTable tableName columns)).2.catalog.sequences = c.sequences := by
  have hsame := Catalog.createTable_databases (c := m.catalog) rfl hdb tableName columns
  rw [Memory.applyEntry]
  cases h' : m.catalog.createTable "srrdb" tableName columns with
  | error msg =>
    rw [h, h'] at hsame
    cases hsame
  | ok c' =>
    obtain ⟨d, -, -, rfl⟩ := Catalog.createTable_ok h
    obtain ⟨d', -, -, rfl⟩ := Catalog.createTable_ok h'
    rfl

omit [ExprDebug] [Bincode] in
/-- DROP TABLE in `srrdb` is replayed with the sequence it forgets. -/
theorem applyEntry_dropTable_sequences {m : Memory} {db tableName : String} {c : Catalog}
    (hdb : SameName db "srrdb") (h : m.catalog.dropTable db tableName = .ok c) :
    (m.applyEntry (.dropTable tableName)).2.catalog.sequences = c.sequences := by
  have hsame := Catalog.dropTable_databases (c := m.catalog) rfl hdb tableName
  rw [Memory.applyEntry]
  cases h' : m.catalog.dropTable "srrdb" tableName with
  | error msg =>
    rw [h, h'] at hsame
    cases hsame
  | ok c' =>
    obtain ⟨d, t, -, -, rfl⟩ := Catalog.dropTable_ok h
    obtain ⟨d', t', -, -, rfl⟩ := Catalog.dropTable_ok h'
    rfl

omit [ExprDebug] [Bincode] in
/-- The entry of an INSERT leaves the sequences where they were, so it says
enough exactly when none was drawn from. -/
theorem sequences_insertRows_iff (m : Memory) (tableName : String) (rows : List Row) (n : Nat) :
    (m.applyEntry (.insertRows tableName rows)).2.catalog.sequences =
      (m.catalog.draw tableName n).sequences ↔ n = 0 := by
  constructor
  · intro h
    have hget : (m.catalog.draw tableName n).sequences.getD (normalize tableName) 1 =
        m.catalog.sequences.getD (normalize tableName) 1 + n := Catalog.getD_draw n
    rw [← h, Memory.applyEntry] at hget
    simpa using hget
  · rintro rfl
    rfl

/-! ## One statement -/

omit [Bincode] in
/-- A locked catalog lets no statement take effect. -/
theorem durable_of_locked {e e' : Executor} {call : Call} {x : Stop}
    (hc : e.catalog.poisoned = true) :
    DurableAfter e (.error x) e' ↔ (TakesEffect e call → Recorded e call) :=
  iff_of_true durableAfter_of_error fun ht => absurd (hc.symm.trans ht.1) (by decide)

theorem createTable_durable {env : Env} {db : String} {ct : CreateTable} {e e' : Executor}
    {r : Outcome ExecuteResult}
    (h : CreateTableOutcome env db (nameToString ct.name)
      (createColumns (nameToString ct.name) ct.columns) e r e') :
    DurableAfter e r e' ↔ (TakesEffect e ⟨env, db, .createTable ct⟩ →
      Recorded e ⟨env, db, .createTable ct⟩) := by
  have hrep := fun hdb hok hc => createTable_reproduced (e := e) hdb hok hc h
  cases h with
  | locked hc => exact durable_of_locked hc
  | rejected hc h =>
    exact iff_of_true durableAfter_of_error fun ht => absurd ht.2 (Catalog.createTable_rejected h)
  | @created c hc h =>
    have hfree : NameFree e.catalog.value db (nameToString ct.name) :=
      Catalog.createTable_isOk.mp ⟨c, h⟩
    have hnew : c.tableExists db (nameToString ct.name) = true := by
      rw [Catalog.tableExists_eq, Catalog.findTable_createTable h, if_pos ⟨rfl, rfl⟩]
      rfl
    exact durableAfter_iff (iff_of_true (changed_of_tableExists hfree.2 hnew) ⟨hc, hfree⟩)
      (fun _ => rfl) (fun hok hdb => hrep hdb hok hc)
      (fun hdb => applyEntry_createTable_sequences hdb h) (fun _ => srrdb_of_logged hfree.2 hnew)

theorem dropTable_durable {env : Env} {db : String} {names : List ObjectName} {ifExists : Bool}
    {e e' : Executor} {r : Outcome ExecuteResult} (hcons : e.storage.value.Consistent)
    (h : DropTableOutcome env db (toLowercase (firstName names)) e r e') :
    DurableAfter e r e' ↔ (TakesEffect e ⟨env, db, .drop .table names ifExists⟩ →
      Recorded e ⟨env, db, .drop .table names ifExists⟩) := by
  have hrep := fun hdb hok he => (dropTable_carried (e := e) hdb hok h he).2
  cases h with
  | locked hc => exact durable_of_locked hc
  | rejected hc h =>
    refine iff_of_true durableAfter_of_error fun ht => ?_
    obtain ⟨-, -, hexists⟩ := ht
    rw [← tableExists_toLowercase, Catalog.dropTable_rejected h] at hexists
    cases hexists
  | uncleared hc h hst =>
    exact iff_of_true durableAfter_of_error fun ht => by simp [TakesEffect, hst] at ht
  | @dropped c hc h hst =>
    have hexists := tableExists_of_dropTable h
    have hgone : c.tableExists db (firstName names) = false := by
      rw [Catalog.tableExists_eq, Catalog.findTable_dropTable h,
        if_pos ⟨rfl, normalize_toLowercase _⟩]
      rfl
    exact durableAfter_iff (iff_of_true (changed_of_tableExists hexists hgone) ⟨hc, hst, hexists⟩)
      (fun _ => rfl) (fun hok hdb => hrep hdb hok ⟨hc, hst, hcons⟩)
      (fun hdb => applyEntry_dropTable_sequences hdb h) (fun _ => srrdb_of_logged hexists hgone)

omit [ExprDebug] [Bincode] in
/-- Only the rows can tell servers with the same catalog apart. -/
theorem changed_iff_rows {e e' : Executor} (name : String) (hc : e'.catalog.value = e.catalog.value)
    (hothers : ∀ name', ¬ SameName name name' →
      e'.storage.value.table name' = e.storage.value.table name') :
    Changed e e' ↔ (e'.storage.value.table name).rows ≠ (e.storage.value.table name).rows := by
  constructor
  · rintro (h | ⟨name', h⟩)
    · exact absurd hc h
    · rw [Storage.getRows_eq, Storage.getRows_eq] at h
      by_cases hname : SameName name name'
      · rwa [Storage.table, Storage.table, ← hname, ← Storage.table, ← Storage.table] at h
      · exact absurd (congrArg Table.rows (hothers name' hname)) h
  · intro h
    exact .inr ⟨name, by rwa [Storage.getRows_eq, Storage.getRows_eq]⟩

omit [Host] [ExprDebug] [Bincode] in
/-- Tables that hold each row under its id are told apart by their rows. -/
theorem rows_ne_iff {t t' : Table} (h : t.Keyed) (h' : t'.Keyed) : t.rows ≠ t'.rows ↔ t ≠ t' :=
  not_congr ⟨fun heq => h.ext h' (.of_eq heq), fun heq => heq ▸ rfl⟩

theorem insert_durable {env : Env} {db : String} {ins : Insert} {e e' : Executor}
    {r : Outcome ExecuteResult} (hcons : e.storage.value.Consistent)
    (h : InsertOutcome env db (tableObjectName ins.table) ins.columns ins.source e r e') :
    DurableAfter e r e' ↔ (TakesEffect e ⟨env, db, .insert ins⟩ →
      Recorded e ⟨env, db, .insert ins⟩) := by
  have hrep := fun hr hok he => (insert_carried (e := e) hok hr h he).2
  cases h with
  | locked hc => exact durable_of_locked hc
  | noTable hc h =>
    refine iff_of_true durableAfter_of_error fun ht => ?_
    obtain ⟨-, -, tableDef, rows, ht, -⟩ := ht
    rw [h] at ht
    cases ht
  | badSource hc h hs =>
    refine iff_of_true durableAfter_of_error fun ht => ?_
    obtain ⟨-, -, tableDef, rows, ht, hrows, -⟩ := ht
    rw [h] at ht
    cases ht
    rw [hs] at hrows
    cases hrows
  | panicked hc h hs hf =>
    refine iff_of_true durableAfter_of_error fun ht => ?_
    obtain ⟨-, -, tableDef, rows, ht, hrows, hwide, -⟩ := ht
    rw [h] at ht
    cases ht
    rw [hs] at hrows
    cases hrows
    exact absurd hwide (not_wide_of_fillRows hf)
  | unstored hc h hs hf hst =>
    exact iff_of_true durableAfter_of_error fun ht => by simp [TakesEffect, hst] at ht
  | @stored tableDef rows filled last c hc h hs hf hst =>
    obtain ⟨hwide, rfl, hsup⟩ := fillRows_eq_ok hf
    have hz := hsup.id_eq_zero (sourceRows_id_eq_zero hs)
    have hnil : filled = [] ↔ rows = [] := by
      rw [← List.length_eq_zero_iff, hsup.length_eq, List.length_eq_zero_iff]
    generalize he' : insertDone _ _ _ _ _ = e' at hrep ⊢
    have hwal : e'.wal = e.wal ++ env.logged (.insertRows (tableObjectName ins.table) filled) := by
      rw [← he']
      simp
    have hcat : e'.catalog.value = e.catalog.value.draw (tableObjectName ins.table)
        (drawnRows tableDef.columns rows) := by
      rw [← he', insertDone_catalog]
      rfl
    have htable : ∀ name, e'.storage.value.table name =
        if SameName (tableObjectName ins.table) name then
          (Storage.insertLoop (e.storage.value.table (tableObjectName ins.table))
            (e.storage.value.nextId (tableObjectName ins.table)) filled).1
        else e.storage.value.table name := by
      intro name
      rw [← he', ← Storage.table_congr (insertDone_sameRows _ _ _ _ _).tables]
      exact Storage.table_insertRows _ _ _ name
    have hsound := hcons.sound (tableObjectName ins.table)
    have hchanged : Changed e e' ↔ rows ≠ [] := by
      constructor
      · intro hch hrows
        have hcat' : e'.catalog.value = e.catalog.value := by rw [hcat, hrows]; rfl
        rw [changed_iff_rows (tableObjectName ins.table) hcat'
          fun name hname => (htable name).trans (if_neg hname)] at hch
        rw [htable, if_pos rfl, hnil.mpr hrows] at hch
        exact hch rfl
      · intro hrows
        refine .inr ⟨tableObjectName ins.table, ?_⟩
        rw [Storage.getRows_eq, Storage.getRows_eq, htable, if_pos rfl,
          rows_ne_iff (Storage.insertLoop_sound hsound filled).keyed hsound.keyed]
        exact insertLoop_ne_self hsound hz fun h => hrows (hnil.mp h)
    -- only these rows can meet the condition on the statement
    have hsaid : (∀ tableDef' rows',
        e.catalog.value.getTable db (tableObjectName ins.table) = .ok tableDef' →
        sourceRows tableDef'.columns ins.columns ins.source = .ok rows' →
        drawnRows tableDef'.columns rows' = 0) ↔ drawnRows tableDef.columns rows = 0 := by
      constructor
      · intro hall
        exact hall tableDef rows h hs
      · intro hdrawn tableDef' rows' ht hrows
        rw [h] at ht
        cases ht
        rw [hs] at hrows
        cases hrows
        exact hdrawn
    have hseq : drawnRows tableDef.columns rows = 0 →
        (e.memory.applyEntry (.insertRows (tableObjectName ins.table) filled)).2.catalog.sequences =
          e'.catalog.value.sequences := by
      intro hdrawn
      rw [hcat]
      exact (sequences_insertRows_iff e.memory _ filled _).mpr hdrawn
    have hlogged : Logged e e' → drawnRows tableDef.columns rows = 0 := by
      rintro ⟨entry, hentry, -, hseq⟩
      have hentries := List.append_cancel_left (hwal.symm.trans hentry)
      rw [Env.logged] at hentries
      split at hentries
      · cases hentries
        rw [hcat] at hseq
        exact (sequences_insertRows_iff e.memory _ filled _).mp hseq
      · cases hentries
    refine durableAfter_iff (hchanged.trans ?_) (fun _ => hwal)
      (fun hok _ => hrep (by simp) hok ⟨hc, hst, hcons⟩) (fun hdrawn => hseq (hsaid.mp hdrawn))
      (fun _ h => hsaid.mpr (hlogged h))
    constructor
    · intro hrows
      exact ⟨hc, hst, tableDef, rows, h, hs, hwide, hrows⟩
    · rintro ⟨-, -, tableDef', rows', ht, hrows, -, hne⟩
      rw [h] at ht
      cases ht
      rw [hs] at hrows
      cases hrows
      exact hne

/-- DELETE and UPDATE change something if the table is another one after them. -/
theorem change_durable {env : Env} {tableName : String} {columns : List Column}
    {selection : Option Expr} {change : Storage → List Row → Storage}
    {rewrite : List Row → Table → Table} {e e' : Executor} {r : Outcome ExecuteResult}
    (hc : e.catalog.poisoned = false) (hcons : e.storage.value.Consistent)
    (hrw : Rewrites tableName change rewrite)
    (h : ChangeOutcome env tableName columns selection change e r e') :
    DurableAfter e r e' ↔ ((e.storage.poisoned = false ∧ ∃ t rows,
        e.storage.value.getTable? tableName = some t ∧
        selectRows columns selection t.entries = .ok rows ∧ rewrite rows t ≠ t) →
      env.appendOk = true ∧ True) := by
  have hrep := fun hr hok he => (change_carried (e := e) hok hr hrw h he).2
  cases h with
  | locked hst => exact iff_of_true durableAfter_of_error fun ht => by simp [hst] at ht
  | noEntry hst ht => exact iff_of_true durableAfter_of_error fun hl => by simp [ht] at hl
  | panicked hst ht hsel =>
    refine iff_of_true durableAfter_of_error ?_
    rintro ⟨-, t, rows, ht', hrows, -⟩
    rw [ht] at ht'
    cases ht'
    rw [hsel] at hrows
    cases hrows
  | @changed t rows hst ht hsel =>
    generalize he' : (logSnapshot env tableName rows
      (e.setStorage (change e.storage.value rows))).saveTable tableName = e' at hrep ⊢
    have hcatalog : e'.catalog.value = e.catalog.value := by
      rw [← he', Executor.saveTable_catalog, logSnapshot]
      split <;> rfl
    have htable : ∀ name, e'.storage.value.table name =
        if SameName tableName name then rewrite rows t else e.storage.value.table name := by
      intro name
      rw [← he', Executor.saveTable_storage, logSnapshot]
      split <;> exact table_change hrw ht rows name
    have hkeyed' : (rewrite rows t).Keyed := by
      have := ((hrw.consistent hcons rows).sound tableName).keyed
      rwa [table_change hrw ht rows tableName, if_pos rfl] at this
    have hchanged : Changed e e' ↔ rewrite rows t ≠ t := by
      rw [changed_iff_rows tableName hcatalog fun name hname => (htable name).trans (if_neg hname),
        htable, if_pos rfl, Storage.table_of_getTable? ht, rows_ne_iff hkeyed' (hcons.keyed ht)]
    have hiff : Changed e e' ↔
        (e.storage.poisoned = false ∧ ∃ t rows, e.storage.value.getTable? tableName = some t ∧
          selectRows columns selection t.entries = .ok rows ∧ rewrite rows t ≠ t) := by
      rw [hchanged]
      constructor
      · intro hne
        exact ⟨hst, t, rows, ht, hsel, hne⟩
      · rintro ⟨-, t', rows', ht', hrows, hne⟩
        rw [ht] at ht'
        cases ht'
        rw [hsel] at hrows
        cases hrows
        exact hne
    -- a change has touched a row, so there is a snapshot
    have htouched : Changed e e' → rows ≠ [] := by
      rintro hch rfl
      exact hchanged.mp hch (hrw.nil t)
    have hwal : rows ≠ [] → e'.wal = e.wal ++ env.logged
        (.tableSnapshot tableName ((change e.storage.value rows).getRows tableName)) := by
      intro hne
      rw [← he', Executor.saveTable_wal, logSnapshot, if_neg (by simpa using hne)]
      rfl
    exact durableAfter_iff hiff (fun hl => hwal (htouched (hiff.mpr hl)))
      (fun hok _ => hrep (by simp) hok ⟨hc, hst, hcons⟩)
      (fun _ => congrArg Catalog.sequences hcatalog.symm) (fun _ _ => trivial)

theorem delete_durable {env : Env} {db : String} {del : Delete} {e e' : Executor}
    {r : Outcome ExecuteResult} (hcons : e.storage.value.Consistent)
    (h : DeleteOutcome env db (deleteTable del) del.selection e r e') :
    DurableAfter e r e' ↔ (TakesEffect e ⟨env, db, .delete del⟩ →
      Recorded e ⟨env, db, .delete del⟩) := by
  cases h with
  | locked hc => exact durable_of_locked hc
  | noTable hc h =>
    refine iff_of_true durableAfter_of_error fun ht => ?_
    obtain ⟨-, -, tableDef, t, rows, ht, -⟩ := ht
    rw [h] at ht
    cases ht
  | @ran tableDef r e' hc h hch =>
    refine (change_durable hc hcons (deleteRows_rewrites _ _ _) hch).trans
      (imp_congr ?_ Iff.rfl)
    constructor
    · rintro ⟨hst, t, rows, ht, hsel, hne⟩
      refine ⟨hc, hst, tableDef, t, rows, h, ht, hsel, ?_⟩
      rintro rfl
      exact hne rfl
    · rintro ⟨-, hst, tableDef', t, rows, hdef, ht, hsel, hne⟩
      rw [h] at hdef
      cases hdef
      exact ⟨hst, t, rows, ht, hsel, eraseRows_ne_self (hcons.keyed ht) hsel hne⟩

theorem update_durable {env : Env} {db : String} {table : TableFactor}
    {assignments : List Assignment} {selection : Option Expr} {e e' : Executor}
    {r : Outcome ExecuteResult} (hcons : e.storage.value.Consistent)
    (h : UpdateOutcome env db (tableFactorName table) assignments selection e r e') :
    DurableAfter e r e' ↔ (TakesEffect e ⟨env, db, .update table assignments selection⟩ →
      Recorded e ⟨env, db, .update table assignments selection⟩) := by
  cases h with
  | locked hc => exact durable_of_locked hc
  | noTable hc h =>
    refine iff_of_true durableAfter_of_error fun ht => ?_
    obtain ⟨-, -, tableDef, assigns, t, rows, ht, -⟩ := ht
    rw [h] at ht
    cases ht
  | badAssignment hc h ha =>
    refine iff_of_true durableAfter_of_error fun ht => ?_
    obtain ⟨-, -, tableDef, assigns, t, rows, ht, hassigns, -⟩ := ht
    rw [h] at ht
    cases ht
    rw [ha] at hassigns
    cases hassigns
  | @ran tableDef assigns r e' hc h ha hch =>
    refine (change_durable hc hcons (updateRows_rewrites _ _ _ _) hch).trans
      (imp_congr ?_ Iff.rfl)
    constructor
    · rintro ⟨hst, t, rows, ht, hsel, hne⟩
      rw [ne_eq, assignRows_eq_self_iff (hcons.keyed ht) hsel] at hne
      push Not at hne
      exact ⟨hc, hst, tableDef, assigns, t, rows, h, ha, ht, hsel, hne⟩
    · rintro ⟨-, hst, tableDef', assigns', t, rows, hdef, ha', ht, hsel, hne⟩
      rw [h] at hdef
      cases hdef
      rw [ha] at ha'
      cases ha'
      refine ⟨hst, t, rows, ht, hsel, ?_⟩
      rw [ne_eq, assignRows_eq_self_iff (hcons.keyed ht) hsel]
      push Not
      exact hne

theorem createIndex_durable {env : Env} {db : String} {ci : CreateIndex} {e e' : Executor}
    {r : Outcome ExecuteResult} (hcols : indexColumns ci ≠ [])
    (hcons : e.storage.value.Consistent)
    (h : CreateIndexOutcome env db (nameToString ci.tableName)
      (newIndexDef (nameToString ci.tableName) ci) e r e') :
    DurableAfter e r e' ↔ (TakesEffect e ⟨env, db, .createIndex ci⟩ →
      Recorded e ⟨env, db, .createIndex ci⟩) := by
  have hrep := fun hok he => (createIndex_carried (e := e) hok h he).2
  cases h with
  | locked hc => exact durable_of_locked hc
  | rejected hc h =>
    refine iff_of_true durableAfter_of_error fun ht => ?_
    obtain ⟨-, -, -, c, tableDef, data, hcreated, -⟩ := ht
    rw [h] at hcreated
    cases hcreated
  | unbuilt hc h ht hst =>
    exact iff_of_true durableAfter_of_error fun ht => by simp [TakesEffect, hst] at ht
  | duplicate hc h ht hst hb =>
    refine iff_of_true durableAfter_of_error fun hl => ?_
    obtain ⟨-, -, -, c, tableDef, data, -, ht', hdata⟩ := hl
    rw [ht] at ht'
    cases ht'
    rw [hb] at hdata
    cases hdata
  | @built c tableDef data hc h ht hst hb =>
    refine durableAfter_iff (iff_of_true (.inl fun heq => ?_)
        ⟨hc, hst, hcols, c, tableDef, data, h, ht, hb⟩)
      (fun _ => rfl) (fun hok _ => hrep hok ⟨hc, hst, hcons⟩)
      (fun _ => by rw [applyEntry_createIndex h]; rfl) (fun _ _ => trivial)
    -- the list of the table has grown
    have heq : c = e.catalog.value := heq
    have hlist := Catalog.getTableIndexes_createIndex h db (nameToString ci.tableName)
    rw [if_pos ⟨rfl, rfl⟩, heq] at hlist
    simpa [newIndexDef] using congrArg List.length hlist

omit [Bincode] in
theorem dropIndex_durable {env : Env} {db : String} {names : List ObjectName} {ifExists : Bool}
    {tableName : String} {e e' : Executor} {r : Outcome ExecuteResult}
    (hfind : findIndexTable env db (firstName names) e.catalog.value = some tableName)
    (hcons : e.storage.value.Consistent)
    (h : DropIndexOutcome env db (firstName names) tableName e r e') :
    DurableAfter e r e' ↔ (TakesEffect e ⟨env, db, .drop .index names ifExists⟩ →
      Recorded e ⟨env, db, .drop .index names ifExists⟩) := by
  have hrep := fun hok he => (dropIndex_carried (e := e) hok h he).2
  cases h with
  | locked hc => exact durable_of_locked hc
  | rejected hc h =>
    refine iff_of_true durableAfter_of_error fun ht => ?_
    obtain ⟨-, -, tableName', c, hfind', hdropped⟩ := ht
    rw [hfind] at hfind'
    cases hfind'
    rw [h] at hdropped
    cases hdropped
  | undropped hc h hst =>
    exact iff_of_true durableAfter_of_error fun ht => by simp [TakesEffect, hst] at ht
  | @dropped c hc h hst =>
    refine durableAfter_iff (iff_of_true (.inl fun heq => ?_) ⟨hc, hst, tableName, c, hfind, h⟩)
      (fun _ => rfl) (fun hok _ => hrep hok ⟨hc, hst, hcons⟩)
      (fun _ => by rw [applyEntry_dropIndex h]; rfl) (fun _ _ => trivial)
    -- the list of the table has shrunk
    have heq : c = e.catalog.value := heq
    obtain ⟨d, pos, -, hpos, -⟩ := Catalog.dropIndex_ok h
    have hlist := Catalog.getTableIndexes_dropIndex h db tableName
    rw [if_pos ⟨rfl, rfl⟩, heq] at hlist
    have hany := Catalog.dropIndex_isOk.mp ⟨c, h⟩
    have hlt := List.findIdx_lt_length.mpr (List.any_eq_true.mp hany)
    have hlen := congrArg List.length hlist
    rw [List.length_eraseIdx_of_lt hlt] at hlen
    omega

omit [ExprDebug] [Bincode] in
theorem createDatabase_ne_self_iff (c : Catalog) (name : String) :
    c.createDatabase name ≠ c ↔ c.databaseExists name = false := by
  unfold Catalog.databaseExists
  constructor
  · intro hne
    cases hd : c.databases[normalize name]? with
    | none => rfl
    | some d =>
      refine absurd ?_ hne
      have hsame : c.databases.insertIfNew (normalize name) (DatabaseDef.empty name) =
          c.databases := by
        ext1 key
        rw [Std.ExtTreeMap.getElem?_insertIfNew]
        split
        · next hnew =>
          obtain ⟨heq, hnot⟩ := hnew
          obtain rfl := Std.LawfulEqOrd.eq_of_compare heq
          exact absurd (Std.ExtTreeMap.mem_iff_isSome_getElem?.mpr (by rw [hd]; rfl)) hnot
        · rfl
      rw [Catalog.createDatabase, hsame]
  · intro hnone heq
    have hd := congrArg (fun c : Catalog => c.databases[normalize name]?.isSome) heq
    rw [hnone] at hd
    simp [Catalog.createDatabase] at hd

omit [ExprDebug] [Bincode] in
theorem removeDatabase_ne_self {c c' : Catalog} {name : String}
    (h : c.removeDatabase name = some c') : c' ≠ c := by
  unfold Catalog.removeDatabase at h
  split at h
  · next hexists =>
    cases h
    intro heq
    have hd := congrArg (fun c : Catalog => c.databaseExists name) heq
    rw [hexists] at hd
    simp [Catalog.databaseExists] at hd
  · cases h

omit [ExprDebug] in
/-- A change to the databases alone is never in the log. -/
theorem not_durable_of_database {e : Executor} {c : Catalog} {result : ExecuteResult}
    (hne : c ≠ e.catalog.value) : ¬ DurableAfter e (.ok result) (e.setCatalog c).save := by
  intro h
  have hwal : (e.setCatalog c).save.wal = e.wal := by
    rw [Executor.save_wal, Executor.setCatalog_wal]
  exact not_logged_of_wal hwal (h ⟨result, rfl⟩ (.inl hne))

theorem createDatabase_durable {env : Env} {db : String} {dbName : ObjectName}
    {ifNotExists : Bool} {e e' : Executor} {r : Outcome ExecuteResult}
    (h : DatabaseOutcome (fun c => .ok (c.createDatabase (nameToString dbName))) e r e') :
    DurableAfter e r e' ↔ (TakesEffect e ⟨env, db, .createDatabase dbName ifNotExists⟩ →
      Recorded e ⟨env, db, .createDatabase dbName ifNotExists⟩) := by
  cases h with
  | locked hc => exact durable_of_locked hc
  | rejected hc h => cases h
  | @changed c hc h =>
    cases h
    constructor
    · intro hd ht
      exact absurd hd (not_durable_of_database ((createDatabase_ne_self_iff _ _).mpr ht.2))
    · rintro hnot - (hch | ⟨name, hch⟩)
      · exact (hnot ⟨hc, (createDatabase_ne_self_iff _ _).mp hch⟩).2.elim
      · exact absurd rfl hch

theorem dropDatabase_durable {env : Env} {db : String} {names : List ObjectName}
    {ifExists : Bool} {e e' : Executor} {r : Outcome ExecuteResult}
    (h : DatabaseOutcome (fun c => match c.removeDatabase (firstName names) with
      | some c => .ok c
      | none => .error s!"Unknown database: {firstName names}") e r e') :
    DurableAfter e r e' ↔ (TakesEffect e ⟨env, db, .drop .database names ifExists⟩ →
      Recorded e ⟨env, db, .drop .database names ifExists⟩) := by
  cases h with
  | locked hc => exact durable_of_locked hc
  | rejected hc h =>
    refine iff_of_true durableAfter_of_error fun ht => ?_
    have hexists : e.catalog.value.databaseExists (firstName names) = true := ht.2
    simp [Catalog.removeDatabase, hexists] at h
  | @changed c hc h =>
    cases hremoved : e.catalog.value.removeDatabase (firstName names) with
    | none => simp [hremoved] at h
    | some c' =>
      simp only [hremoved, Except.ok.injEq] at h
      subst h
      have hexists : e.catalog.value.databaseExists (firstName names) = true := by
        by_contra hnot
        simp [Catalog.removeDatabase, hnot] at hremoved
      exact iff_of_false (not_durable_of_database (removeDatabase_ne_self hremoved))
        fun hl => (hl ⟨hc, hexists⟩).2

/-! ## Any statement -/

/-- Exactly when what a statement acknowledges is in the log. -/
theorem durable_iff {e : Executor} (he : Reachable e) (call : Call) :
    Durable e call ↔ (TakesEffect e call → Recorded e call) := by
  obtain ⟨env, db, stmt⟩ := call
  have hcons := he.consistent
  rw [Durable, Call.result, Executor.after]
  -- a statement that has no effect is durable whatever it returns
  have hidle : ∀ {r : Outcome ExecuteResult}, ¬ TakesEffect e ⟨env, db, stmt⟩ →
      (DurableAfter e r e ↔ (TakesEffect e ⟨env, db, stmt⟩ → Recorded e ⟨env, db, stmt⟩)) :=
    fun hnot => iff_of_true durableAfter_refl fun ht => absurd ht hnot
  cases stmt with
  | createTable ct =>
    simp only [execute_createTable]
    split
    · next hskip =>
      simp only [Bool.and_eq_true, Bool.not_eq_true'] at hskip
      refine hidle fun ht => ?_
      have hfree := ht.2.2
      rw [hskip.2] at hfree
      cases hfree
    · exact createTable_durable (executeCreateTable_outcome env db ct e)
  | insert ins => exact insert_durable hcons (executeInsert_outcome env db _ _ _ e)
  | delete del => exact delete_durable hcons (executeDelete_outcome env db _ _ e)
  | update table assignments selection =>
    exact update_durable hcons (executeUpdate_outcome env db _ _ _ e)
  | drop objectType names ifExists =>
    cases objectType with
    | table =>
      simp only [execute_dropTable]
      split
      · next hskip =>
        refine hidle fun ht => ?_
        obtain ⟨hc, -, hexists⟩ := ht
        simp [hc, hexists] at hskip
      · exact dropTable_durable hcons (executeDropTable_outcome env db (firstName names) e)
    | database =>
      simp only [execute_dropDatabase]
      split
      · next hskip =>
        refine hidle fun ht => ?_
        have hexists : e.catalog.value.databaseExists (firstName names) = true := ht.2
        simp [ht.1, hexists] at hskip
      · exact dropDatabase_durable (databaseChange_outcome _ e)
    | index =>
      simp only [execute_dropIndex]
      split
      · next hc => exact hidle fun ht => by simp [TakesEffect, hc] at ht
      · split
        · next hfind =>
          refine hidle fun ht => ?_
          obtain ⟨-, -, tableName, c, hfind', -⟩ := ht
          rw [hfind] at hfind'
          cases hfind'
        · next tableName hfind =>
          split
          · next hskip =>
            refine hidle fun ht => ?_
            obtain ⟨-, -, tableName', c, hfind', hdropped⟩ := ht
            rw [hfind] at hfind'
            cases hfind'
            have hany := Catalog.dropIndex_isOk.mp ⟨c, hdropped⟩
            simp [hasIndex, hany] at hskip
          · exact dropIndex_durable hfind hcons
              (executeDropIndex_outcome env db (firstName names) tableName e)
    | other =>
      rw [execute_readOnly rfl]
      exact hidle fun ht => ht.2
  | createDatabase dbName ifNotExists =>
    simp only [execute_createDatabase]
    split
    · next hskip =>
      refine hidle fun ht => ?_
      have hfree : e.catalog.value.databaseExists (nameToString dbName) = false := ht.2
      simp [hfree] at hskip
    · exact createDatabase_durable (databaseChange_outcome _ e)
  | createIndex ci =>
    simp only [execute_createIndex]
    split
    · by_cases hcols : indexColumns ci = []
      · rw [run_executeCreateIndex_nil hcols]
        exact hidle fun ht => ht.2.2.1 hcols
      · exact createIndex_durable hcols hcons
          (executeCreateIndex_outcome env db (nameToString ci.tableName) ci hcols e)
    · next hskip =>
      refine hidle fun ht => ?_
      obtain ⟨hc, -, -, c, tableDef, data, -, hdef, -⟩ := ht
      simp [hc, Catalog.tableExists_eq, Catalog.getTable_ok_iff.mp hdef] at hskip
  | query _ | showDatabases | showTables | use _ | explainTable _ | other =>
    rw [execute_readOnly rfl]
    exact hidle fun ht => ht.2

end Theory

/-! ## A disk that is full -/

section Concrete

attribute [local instance] asciiHost plainDebug bincode1

/-- An environment in which appends to the log fail. -/
def fullDisk : Env := { plainEnv with appendOk := false }

/-- INSERT returns `Ok` with its row stored although the append failed. On a
sound disk too, CREATE DATABASE appends nothing, and the entry of an INSERT that
draws from a sequence does not bring the sequence back. -/
theorem fullDisk_insert_not_durable :
    Reachable oneRow ∧ Reachable serial ∧
      ¬ Durable oneRow ⟨fullDisk, "srrdb", insertNumbers "t" [["2"]]⟩ ∧
      ¬ Durable oneRow (callIn "srrdb" (.createDatabase ["d"] false)) ∧
      ¬ Durable serial (callIn "srrdb" (insertNulls "t" 1)) := by
  refine ⟨oneRow_reachable, serial_reachable, fun h => ?_, fun h => ?_, fun h => ?_⟩
  · have hwal : (oneRow.after ⟨fullDisk, "srrdb", insertNumbers "t" [["2"]]⟩).wal.length =
        oneRow.wal.length := by decide +kernel
    have hrows : (oneRow.after ⟨fullDisk, "srrdb", insertNumbers "t" [["2"]]⟩).storage.value.getRows
        "t" ≠ oneRow.storage.value.getRows "t" := by decide +kernel
    have hok : Call.result ⟨fullDisk, "srrdb", insertNumbers "t" [["2"]]⟩ oneRow =
        .ok (.affected 1 0) := by decide +kernel
    obtain ⟨entry, hlogged, -⟩ := h ⟨_, hok⟩ (.inr ⟨"t", hrows⟩)
    simp [hlogged] at hwal
  · have hwal : (oneRow.after (callIn "srrdb" (.createDatabase ["d"] false))).wal.length =
        oneRow.wal.length := by decide +kernel
    have hnew : (oneRow.after (callIn "srrdb" (.createDatabase ["d"] false))).catalog.value ≠
        oneRow.catalog.value := by
      intro heq
      have hexists := congrArg (fun c : Catalog => c.databaseExists "d") heq
      revert hexists
      decide +kernel
    have hok : Call.result (callIn "srrdb" (.createDatabase ["d"] false)) oneRow = .ok .ok := by
      decide +kernel
    obtain ⟨entry, hlogged, -⟩ := h ⟨_, hok⟩ (.inl hnew)
    simp [hlogged] at hwal
  · have hwal : (serial.after (callIn "srrdb" (insertNulls "t" 1))).wal =
        serial.wal ++ [.insertRows "t" [⟨0, [.int 1]⟩]] := by decide +kernel
    have hrows : (serial.after (callIn "srrdb" (insertNulls "t" 1))).storage.value.getRows "t" ≠
        serial.storage.value.getRows "t" := by decide +kernel
    have hok : Call.result (callIn "srrdb" (insertNulls "t" 1)) serial = .ok (.affected 1 1) := by
      decide +kernel
    obtain ⟨entry, hlogged, -, hseq⟩ := h ⟨_, hok⟩ (.inr ⟨"t", hrows⟩)
    cases List.append_cancel_left (hwal.symm.trans hlogged)
    have hnext := congrArg (fun sequences => sequences.getD "t" 1) hseq
    revert hnext
    decide +kernel

theorem oneRow_insert_durable :
    Durable oneRow (callIn "srrdb" (insertNumbers "t" [["2"]])) := by
  refine (durable_iff oneRow_reachable _).mpr fun _ => ⟨rfl, fun tableDef rows ht hs => ?_⟩
  have htable : oneRow.catalog.value.getTable "srrdb" "t" = .ok ⟨"t", [.new "a" "t" .long]⟩ := by
    decide +kernel
  cases htable.symm.trans ht
  cases hs
  decide +kernel

end Concrete

end Srrdb.Server

/-
Srrdb.Server.LoggedChanges — what a statement does to the tables of `srrdb` is
what the entry it logs does to them.

`Loggable` is the condition for that: what is created and dropped is in
`srrdb`. `Recoverable` adds that rows are inserted only into tables that the
log has overwritten before. `Advances` says what a step owes to its entries,
and `after_advances` is the step lemma.
-/
import Srrdb.Server.DataFiles

namespace Srrdb.Server

open Srrdb.Engine Srrdb.Sql Srrdb.Lib

section Theory

variable [Host]

/-! ## Conditions -/

section Conditions

variable [ExprDebug]

/-- The statement gets as far as storing rows under a name. -/
def StoresInto (e : Executor) (call : Call) (name : String) : Prop :=
  match call.stmt with
  | .insert ins => SameName (tableObjectName ins.table) name ∧ e.catalog.poisoned = false ∧
      ∃ tableDef rows, e.catalog.value.getTable call.db (tableObjectName ins.table) = .ok tableDef ∧
        sourceRows tableDef.columns ins.columns ins.source = .ok rows ∧ Wide tableDef.columns rows
  | _ => False

/-- The statement, in this state, does to `srrdb` what the entry it logs does. -/
def Loggable (e : Executor) (call : Call) : Prop :=
  call.env.appendOk = true ∧
  match call.stmt with
  | .createTable ct =>
      SameName call.db "srrdb" ∧ isFileName (normalize (nameToString ct.name)) = true
  | .drop .table _ _ =>
      SameName call.db "srrdb" ∧ e.catalog.poisoned = false ∧ e.storage.poisoned = false
  | .drop .database names _ => ¬ SameName (firstName names) "srrdb"
  | .insert ins => StoresInto e call (tableObjectName ins.table) → e.storage.poisoned = false
  | _ => True

/-- Moreover it stores rows only where the log has overwritten the table. -/
def Recoverable (e : Executor) (call : Call) : Prop :=
  Loggable e call ∧ ∀ name, StoresInto e call name → overwritten name e.wal = true

end Conditions

/-! ## Steps and their entries -/

/-- The server has no table in `srrdb`. -/
def Tableless (e : Executor) : Prop := ∀ name, e.catalog.value.findTable "srrdb" name = none

/-- A step appends entries, at most one, and does to every table of `srrdb`
what they do. Rows are added under the names in `stored`, and the first table
is saved. -/
structure Advances (stored : String → Prop) (e e' : Executor) (entries : List WalEntry) : Prop where
  wal : e'.wal = e.wal ++ entries
  short : entries.length ≤ 1
  plain : ∀ entry ∈ entries, Plain entry
  home : HomeTables e'.catalog.value
  happens : ∀ name, (tableObject e.memory name).Happens (redoLog name entries)
  changes : ∀ name,
    (tableObject e'.memory name).Same ((tableObject e.memory name).replay (redoLog name entries))
  adds : ∀ name rows, Redo.add rows ∈ redoLog name entries → stored name
  saved : Tableless e → Tableless e' ∨ ∀ p, e'.persistence = some p → p.hasExistingData = true

theorem tableObject_congr {m m' : Memory} {name : String}
    (hdef : m.catalog.findTable "srrdb" name = m'.catalog.findTable "srrdb" name)
    (hrows : rowValues m.storage name = rowValues m'.storage name) :
    tableObject m name = tableObject m' name := by
  rw [tableObject, tableObject, hdef, hrows]

theorem tableObject_sameTables {m m' : Memory} (h : m.SameTables m') (name : String) :
    tableObject m name = tableObject m' name :=
  tableObject_congr (Catalog.findTable_congr h.databases "srrdb" name)
    (rowValues_sameRows h.rows name)

/-- A step that logs nothing and leaves the tables as they are. -/
theorem Advances.nothing {stored : String → Prop} {e e' : Executor} (hwal : e'.wal = e.wal)
    (hhome : HomeTables e'.catalog.value)
    (hobject : ∀ name, tableObject e'.memory name = tableObject e.memory name) :
    Advances stored e e' [] where
  wal := by rw [hwal, List.append_nil]
  short := Nat.zero_le 1
  plain entry hmem := by cases hmem
  home := hhome
  happens name := trivial
  changes name := by
    rw [hobject name]
    exact .refl _
  adds name rows hmem := by cases hmem
  saved hbare := .inl fun name => (congrArg Object.definition (hobject name)).trans (hbare name)

/-- What an entry is to a table, if it is something. -/
theorem mem_redoLog {name : String} {entry : WalEntry} {r : Redo TableDef (List Value)}
    (h : r ∈ redoLog name [entry]) : redo name entry = some r := by
  obtain ⟨entry', hmem, hr⟩ := List.mem_filterMap.mp h
  obtain rfl := List.mem_singleton.mp hmem
  exact hr

/-- An entry that writes rows writes them to a table. -/
theorem writes_redo {name : String} {entry : WalEntry} {r : Redo TableDef (List Value)}
    (h : redo name entry = some r) (hw : r.writes = true) :
    ∃ tableName, SameName tableName name ∧ ∃ rows,
      entry = .insertRows tableName rows ∨ entry = .tableSnapshot tableName rows := by
  cases entry with
  | createTable tableName columns | dropTable tableName =>
    simp only [redo] at h
    split at h <;> cases h
    cases hw
  | insertRows tableName rows =>
    simp only [redo] at h
    split at h
    · next hname => exact ⟨tableName, hname, rows, .inl rfl⟩
    · cases h
  | tableSnapshot tableName rows =>
    simp only [redo] at h
    split at h
    · next hname => exact ⟨tableName, hname, rows, .inr rfl⟩
    · cases h
  | createIndex dbName indexDef | dropIndex dbName indexName tableName | checkpoint => cases h

/-- A step that logs one entry and does what the entry does. -/
theorem Advances.entry {stored : String → Prop} {env : Env} {e e' : Executor} {entry : WalEntry}
    (hok : env.appendOk = true) (hwal : e'.wal = e.wal ++ env.logged entry)
    (hplain : Plain entry) (hhome : HomeTables e.catalog.value)
    (hcons : e.storage.value.Consistent) (hhome' : HomeTables e'.catalog.value)
    (hsame : (e.memory.applyEntry entry).2.SameTables e'.memory)
    (hwrites : ∀ tableName rows,
      entry = .insertRows tableName rows ∨ entry = .tableSnapshot tableName rows →
        (e.catalog.value.findTable "srrdb" tableName).isSome = true)
    (hadds : ∀ tableName rows, entry = .insertRows tableName rows →
      ∀ name, SameName tableName name → stored name)
    (hsaved : ∀ tableName columns, entry = .createTable tableName columns → Tableless e →
      Tableless e' ∨ ∀ p, e'.persistence = some p → p.hasExistingData = true) :
    Advances stored e e' [entry] := by
  have hchanges : ∀ name, (tableObject e'.memory name).Same
      ((tableObject e.memory name).replay (redoLog name [entry])) := by
    intro name
    rw [← tableObject_sameTables hsame name]
    exact tableObject_applyEntry hhome.database hcons hplain name
  refine ⟨by rw [hwal, Env.logged, if_pos hok], Nat.le_refl 1, ?_, hhome', ?_, hchanges, ?_, ?_⟩
  · intro entry' hmem
    rwa [List.mem_singleton.mp hmem]
  · intro name
    cases hr : redo name entry with
    | none => simp [redoLog, hr, Object.Happens]
    | some r =>
      simp only [redoLog, List.filterMap_cons, hr, List.filterMap_nil, Object.Happens, and_true]
      intro hw
      obtain ⟨tableName, hname, rows, hentry⟩ := writes_redo hr hw
      show (e.catalog.value.findTable "srrdb" name).isSome = true
      rw [← Catalog.findTable_sameName rfl hname]
      exact hwrites tableName rows hentry
  · intro name rows hmem
    obtain ⟨tableName, hname, rows', hentry | hentry⟩ := writes_redo (mem_redoLog hmem) rfl
    · exact hadds tableName rows' hentry name hname
    · have hredo := mem_redoLog hmem
      rw [hentry, redo, if_pos hname] at hredo
      cases hredo
  · intro hbare
    cases entry with
    | createTable tableName columns => exact hsaved tableName columns rfl hbare
    | _ =>
      refine .inl fun name => ?_
      refine (hchanges name).definition.trans (Object.definition_replay_eq_none (hbare name) ?_)
      intro d hmem
      have hredo := mem_redoLog hmem
      simp only [redo] at hredo
      first
        | cases hredo
        | (split at hredo <;> cases hredo)

/-! ## Every statement -/

variable [ExprDebug] [Bincode]

omit [ExprDebug] in
theorem createTable_advances {stored : String → Prop} {env : Env} {db tableName : String} {columns : List Column}
    {e e' : Executor} {r : Outcome ExecuteResult} (hhome : HomeTables e.catalog.value)
    (hcons : e.storage.value.Consistent) (hok : env.appendOk = true) (hdb : SameName db "srrdb")
    (hfile : isFileName (normalize tableName) = true)
    (h : CreateTableOutcome env db tableName columns e r e') :
    ∃ entries, Advances stored e e' entries := by
  have hsame := (Memory.SameTables.refl e.memory).tryCatalog
    (Catalog.createTable_databases (c := e.catalog.value) rfl hdb.symm tableName columns)
  cases h with
  | locked hc => exact ⟨[], .nothing rfl hhome fun _ => rfl⟩
  | rejected hc h =>
    rw [h] at hsame
    exact ⟨_, .entry hok rfl trivial hhome hcons hhome hsame (by simp) (by simp)
      fun _ _ _ hbare => .inl hbare⟩
  | @created c hc h =>
    rw [h] at hsame
    refine ⟨_, .entry hok rfl trivial hhome hcons (hhome.createTable hdb hfile h) hsame (by simp)
      (by simp) fun _ _ _ _ => .inr fun p hp => ?_⟩
    -- the new catalog is saved
    simp only [Executor.save_persistence, Executor.setCatalog_catalog_poisoned,
      Executor.append_catalog, hc, Bool.false_eq_true, if_false] at hp
    obtain ⟨p₀, -, rfl⟩ := Option.map_eq_some_iff.mp hp
    simp

omit [ExprDebug] in
theorem dropTable_advances {stored : String → Prop} {env : Env} {db tn : String} {e e' : Executor}
    {r : Outcome ExecuteResult} (hhome : HomeTables e.catalog.value)
    (hcons : e.storage.value.Consistent) (hok : env.appendOk = true) (hdb : SameName db "srrdb")
    (hc : e.catalog.poisoned = false) (hst : e.storage.poisoned = false)
    (h : DropTableOutcome env db tn e r e') : ∃ entries, Advances stored e e' entries := by
  have hsame := (Memory.SameTables.refl e.memory).dropTable hdb.symm tn
  cases h with
  | locked hp =>
    rw [hc] at hp
    cases hp
  | rejected _ h =>
    simp only [Executor.memory_catalog, h] at hsame
    exact ⟨_, .entry hok rfl trivial hhome hcons hhome hsame (by simp) (by simp) (by simp)⟩
  | uncleared _ h hp =>
    rw [hst] at hp
    cases hp
  | dropped _ h _ =>
    simp only [Executor.memory_catalog, h] at hsame
    exact ⟨_, .entry hok rfl trivial hhome hcons (hhome.dropTable h) hsame (by simp) (by simp)
      (by simp)⟩

theorem insert_advances {stored : String → Prop} {env : Env} {db tableName : String} {cols : List String}
    {source : Option Query} {e e' : Executor} {r : Outcome ExecuteResult}
    (hhome : HomeTables e.catalog.value) (hcons : e.storage.value.Consistent)
    (hok : env.appendOk = true)
    (hstored : e.catalog.poisoned = false → ∀ tableDef rows,
      e.catalog.value.getTable db tableName = .ok tableDef →
      sourceRows tableDef.columns cols source = .ok rows → Wide tableDef.columns rows →
      e.storage.poisoned = false ∧ ∀ name, SameName tableName name → stored name)
    (h : InsertOutcome env db tableName cols source e r e') : ∃ entries, Advances stored e e' entries := by
  cases h with
  | locked hc | noTable hc h | badSource hc h hs => exact ⟨[], .nothing rfl hhome fun _ => rfl⟩
  | @panicked tableDef rows c hc h hs hf =>
    have hdatabases := fillRows_databases env.now tableName tableDef.columns rows 0 0 e.catalog.value
    rw [hf] at hdatabases
    refine ⟨[], .nothing rfl (hhome.congr hdatabases) fun name => ?_⟩
    exact tableObject_congr (Catalog.findTable_congr hdatabases "srrdb" name) rfl
  | unstored hc h hs hf hst =>
    have hunpoisoned := (hstored hc _ _ h hs (fillRows_eq_ok hf).1).1
    rw [hst] at hunpoisoned
    cases hunpoisoned
  | @stored tableDef rows filled last c hc h hs hf hst =>
    obtain ⟨hwide, -, hsup⟩ := fillRows_eq_ok hf
    have hsame := insertDone_reproduced hf (c.getTableIndexes db tableName)
    have hfound := (hhome.found (Catalog.getTable_ok_iff.mp h)).1
    have hexists : (e.catalog.value.findTable "srrdb" tableName).isSome = true := by
      rw [Catalog.findTable_sameName hfound rfl, Catalog.getTable_ok_iff.mp h, Option.isSome_some]
    have hplain : Plain (.insertRows tableName filled) :=
      hsup.id_eq_zero (sourceRows_id_eq_zero hs)
    refine ⟨_, .entry hok (by simp) hplain hhome hcons (hhome.congr hsame.databases.symm) hsame ?_
      ?_ (by simp)⟩
    · intro tableName' rows' hentry
      obtain ⟨rfl, -⟩ : tableName = tableName' ∧ filled = rows' := by simpa using hentry
      exact hexists
    · intro tableName' rows' hentry
      obtain ⟨rfl, -⟩ : tableName = tableName' ∧ filled = rows' := by simpa using hentry
      exact (hstored hc _ _ h hs hwide).2

omit [Bincode] in
theorem change_advances [Bincode] {stored : String → Prop} {env : Env} {tableName : String} {columns : List Column}
    {selection : Option Expr} {change : Storage → List Row → Storage}
    {rewrite : List Row → Table → Table} {e e' : Executor} {r : Outcome ExecuteResult}
    (hhome : HomeTables e.catalog.value) (hcons : e.storage.value.Consistent)
    (hok : env.appendOk = true) (hrw : Rewrites tableName change rewrite)
    (hexists : (e.catalog.value.findTable "srrdb" tableName).isSome = true)
    (h : ChangeOutcome env tableName columns selection change e r e') :
    ∃ entries, Advances stored e e' entries := by
  cases h with
  | locked hst | noEntry hst ht | panicked hst ht hsel =>
    exact ⟨[], .nothing rfl hhome fun _ => rfl⟩
  | @changed t rows hst ht hsel =>
    cases rows with
    | nil =>
      refine ⟨[], .nothing rfl hhome fun name => ?_⟩
      have hrows := hrw.sameRows_nil ht
      exact tableObject_congr rfl (rowValues_sameRows hrows name)
    | cons row rest =>
      have hsound : (rewrite (row :: rest) t).Sound (e.storage.value.nextId tableName) := by
        refine hrw.sound _ t _ ?_
        rw [← Storage.table_of_getTable? ht]
        exact hcons.sound tableName
      refine ⟨_, .entry hok rfl ⟨_, _, hsound, hrw.getRows ht _⟩ hhome hcons hhome
        ⟨rfl, hrw.restoreRows ht hcons _⟩ ?_ (by simp) (by simp)⟩
      intro tableName' rows' hentry
      obtain ⟨rfl, -⟩ : tableName = tableName' ∧ _ = rows' := by simpa using hentry
      exact hexists

omit [ExprDebug] in
theorem createIndex_advances {stored : String → Prop} {env : Env} {db tableName : String} {indexDef : IndexDef}
    {e e' : Executor} {r : Outcome ExecuteResult} (hhome : HomeTables e.catalog.value)
    (hcons : e.storage.value.Consistent) (hok : env.appendOk = true)
    (h : CreateIndexOutcome env db tableName indexDef e r e') :
    ∃ entries, Advances stored e e' entries := by
  cases h with
  | locked hc | rejected hc h => exact ⟨[], .nothing rfl hhome fun _ => rfl⟩
  | @unbuilt c _ hc h | @duplicate c _ _ _ hc h | @built c _ _ hc h =>
    have hentry := applyEntry_createIndex (m := e.memory) h
    refine ⟨_, .entry hok rfl trivial hhome hcons (hhome.createIndex h) ?_ (by simp) (by simp)
      (by simp)⟩
    rw [hentry]
    exact ⟨rfl, rfl, rfl⟩

omit [ExprDebug] [Bincode] in
theorem dropIndex_advances {stored : String → Prop} {env : Env} {db indexName tableName : String} {e e' : Executor}
    {r : Outcome ExecuteResult} (hhome : HomeTables e.catalog.value)
    (hcons : e.storage.value.Consistent) (hok : env.appendOk = true)
    (h : DropIndexOutcome env db indexName tableName e r e') :
    ∃ entries, Advances stored e e' entries := by
  cases h with
  | locked hc | rejected hc h => exact ⟨[], .nothing rfl hhome fun _ => rfl⟩
  | undropped hc h | dropped hc h =>
    have hentry := applyEntry_dropIndex (m := e.memory) h
    refine ⟨_, .entry hok rfl trivial hhome hcons (hhome.dropIndex h) ?_ (by simp) (by simp)
      (by simp)⟩
    rw [hentry]
    exact ⟨rfl, rfl, rfl⟩

omit [ExprDebug] in
theorem database_advances {stored : String → Prop} {change : Catalog → Except String Catalog} {e e' : Executor}
    {r : Outcome ExecuteResult} (hhome : HomeTables e.catalog.value)
    (hchange : ∀ c, change e.catalog.value = .ok c → HomeTables c ∧
      ∀ name, c.findTable "srrdb" name = e.catalog.value.findTable "srrdb" name)
    (h : DatabaseOutcome change e r e') : ∃ entries, Advances stored e e' entries := by
  cases h with
  | locked hc | rejected hc h => exact ⟨[], .nothing rfl hhome fun _ => rfl⟩
  | changed hc h =>
    obtain ⟨hhome', hfind⟩ := hchange _ h
    exact ⟨[], .nothing rfl hhome' fun name => tableObject_congr (hfind name) rfl⟩

/-- What a loggable statement logs is what it does. -/
theorem after_advances {e : Executor} (hhome : HomeTables e.catalog.value)
    (hcons : e.storage.value.Consistent) {call : Call} (h : Loggable e call) :
    ∃ entries, Advances (StoresInto e call) e (e.after call) entries := by
  obtain ⟨env, db, stmt⟩ := call
  obtain ⟨hok, h⟩ := h
  have heff := Call.effect ⟨env, db, stmt⟩ e
  generalize e.after ⟨env, db, stmt⟩ = e' at heff ⊢
  generalize Call.result ⟨env, db, stmt⟩ e = r at heff
  cases heff with
  | none r hskip => exact ⟨[], .nothing rfl hhome fun _ => rfl⟩
  | createTable hrun => exact createTable_advances hhome hcons hok h.1 h.2 hrun
  | dropTable hrun => exact dropTable_advances hhome hcons hok h.1 h.2.1 h.2.2 hrun
  | insert hrun =>
    refine insert_advances hhome hcons hok (fun hc tableDef rows ht hs hw => ⟨?_, ?_⟩) hrun
    · exact h ⟨rfl, hc, tableDef, rows, ht, hs, hw⟩
    · exact fun name hname => ⟨hname, hc, tableDef, rows, ht, hs, hw⟩
  | delete hrun =>
    cases hrun with
    | locked hc | noTable hc ht => exact ⟨[], .nothing rfl hhome fun _ => rfl⟩
    | ran hc ht hch =>
      have hfind := Catalog.getTable_ok_iff.mp ht
      have hfound := (hhome.found hfind).1
      refine change_advances hhome hcons hok (deleteRows_rewrites _ _ _) ?_ hch
      rw [Catalog.findTable_sameName hfound rfl, hfind, Option.isSome_some]
  | update hrun =>
    cases hrun with
    | locked hc | noTable hc ht | badAssignment hc ht ha =>
      exact ⟨[], .nothing rfl hhome fun _ => rfl⟩
    | ran hc ht ha hch =>
      have hfind := Catalog.getTable_ok_iff.mp ht
      have hfound := (hhome.found hfind).1
      refine change_advances hhome hcons hok (updateRows_rewrites _ _ _ _) ?_ hch
      rw [Catalog.findTable_sameName hfound rfl, hfind, Option.isSome_some]
  | dropIndex hfind hrun => exact dropIndex_advances hhome hcons hok hrun
  | createIndex hcols hrun => exact createIndex_advances hhome hcons hok hrun
  | @createDatabase dbName _ _ _ hrun =>
    refine database_advances hhome (fun c hc => ?_) hrun
    cases hc
    exact ⟨hhome.createDatabase _, fun name => Catalog.findTable_createDatabase _⟩
  | @dropDatabase names _ _ _ hrun =>
    refine database_advances hhome (fun c hc => ?_) hrun
    cases hremoved : e.catalog.value.removeDatabase (firstName names) with
    | none => simp [hremoved] at hc
    | some c' =>
      simp only [hremoved, Except.ok.injEq] at hc
      subst hc
      refine ⟨hhome.removeDatabase h hremoved, fun name => ?_⟩
      rw [Catalog.findTable_removeDatabase hremoved, if_neg h]

/-! ## The server and its log -/

/-- The tables of `srrdb` are what the log says. -/
structure Tracked (e : Executor) : Prop where
  home : HomeTables e.catalog.value
  consistent : e.storage.value.Consistent
  plain : ∀ entry ∈ e.wal, Plain entry
  happens : ∀ name, (Object.absent : Object TableDef (List Value)).Happens (redoLog name e.wal)
  tables : ∀ name, (tableObject e.memory name).Same (logged name e.wal)

/-- The log overwrites the table of the name, or it has no rows. -/
def Covered (name : String) (e : Executor) : Prop :=
  overwritten name e.wal = true ∨ rowValues e.storage.value name = []

omit [ExprDebug] [Bincode] in
theorem rowValues_new (name : String) : rowValues Storage.new name = [] := by
  simp [rowValues, Storage.table_new]

omit [ExprDebug] [Bincode] in
theorem tracked_start (p : Option Persistence) : Tracked (.ofMemory .new p) where
  home := HomeTables.new
  consistent := .new
  plain entry hmem := by cases hmem
  happens name := trivial
  tables name := ⟨findTable_new "srrdb" name, .of_eq (rowValues_new name)⟩

omit [ExprDebug] [Bincode] in
/-- A step that does what it logs keeps the server in agreement with its log. -/
theorem Tracked.advance {stored : String → Prop} {e e' : Executor} (h : Tracked e)
    {entries : List WalEntry} (hstep : Advances stored e e' entries)
    (hcons : e'.storage.value.Consistent) : Tracked e' where
  home := hstep.home
  consistent := hcons
  plain entry hmem := by
    rw [hstep.wal] at hmem
    rcases List.mem_append.mp hmem with hmem | hmem
    · exact h.plain entry hmem
    · exact hstep.plain entry hmem
  happens name := by
    rw [hstep.wal, redoLog_append, Object.happens_append]
    exact ⟨h.happens name, (h.tables name).happens (hstep.happens name)⟩
  tables name := by
    rw [hstep.wal, logged_append]
    exact (hstep.changes name).trans ((h.tables name).replay _)

omit [ExprDebug] [Bincode] in
/-- A table stays covered by a step that adds rows to it only if the log
overwrites it. -/
theorem Covered.advance {stored : String → Prop} {e e' : Executor} {name : String}
    (h : Covered name e) {entries : List WalEntry} (hstep : Advances stored e e' entries)
    (hstored : stored name → overwritten name e.wal = true) : Covered name e' := by
  rw [Covered, hstep.wal, overwritten_append, Bool.or_eq_true]
  rcases h with hover | hnil
  · exact .inl (.inl hover)
  · by_cases hadds : ∃ rows, Redo.add rows ∈ redoLog name entries
    · obtain ⟨rows, hmem⟩ := hadds
      exact .inl (.inl (hstored (hstep.adds name rows hmem)))
    · have hnil : (tableObject e.memory name).contents = [] := hnil
      rcases Object.contents_replay_eq_nil hnil fun rows hmem => hadds ⟨rows, hmem⟩ with
        hover | hcontents
      · exact .inl (.inr hover)
      · have hperm := (hstep.changes name).contents
        rw [hcontents] at hperm
        exact .inr hperm.eq_nil

theorem after_consistent {e : Executor} (h : e.storage.value.Consistent) (call : Call) :
    (e.after call).storage.value.Consistent :=
  (execute_keeps closed_storageConsistent call.env call.db call.stmt).run h

theorem Tracked.after {e : Executor} (h : Tracked e) {call : Call} (hcall : Loggable e call) :
    Tracked (e.after call) := by
  obtain ⟨entries, hstep⟩ := after_advances h.home h.consistent hcall
  exact h.advance hstep (after_consistent h.consistent call)

omit [ExprDebug] [Bincode] in
/-- The catalog of the server follows its log. -/
theorem Tracked.follows {e : Executor} (h : Tracked e) : Follows e.catalog.value e.wal :=
  ⟨h.home, e.wal, List.prefix_rfl, fun name => (h.tables name).definition⟩

end Theory

end Srrdb.Server

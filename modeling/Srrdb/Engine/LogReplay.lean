/-
Srrdb.Engine.LogReplay — a sequential run in the database `srrdb` is
reproduced by its log.

`Memory.SameTables` compares what replay has to bring back: the databases with
their table and index definitions, the rows by id, and the row-id counters.
Replay respects it (`SameTables.applyEntry`), so it is enough to see that the
entries a statement logged do to the memory before it what the statement did
(`Reproduced`). A statement that failed after logging is replayed as the same
failure.
-/
import Srrdb.Engine.Defaults
import Srrdb.Engine.RowChanges
import Srrdb.Lib.Run

namespace Srrdb.Engine

open Srrdb.Sql Srrdb.Lib

section Theory

variable [Host] [ExprDebug] [Bincode]

/-! ## Memories with the same tables -/

omit [Host] [ExprDebug] [Bincode] in
/-- The same databases, rows and row-id counters. -/
structure Memory.SameTables (m m' : Memory) : Prop where
  databases : m.catalog.databases = m'.catalog.databases
  rows : m.storage.SameRows m'.storage

namespace Memory

omit [Host] [ExprDebug] [Bincode] in
theorem SameTables.refl (m : Memory) : m.SameTables m := ⟨rfl, .refl _⟩

omit [Host] [ExprDebug] [Bincode] in
theorem SameTables.trans {m m' m'' : Memory} (h : m.SameTables m') (h' : m'.SameTables m'') :
    m.SameTables m'' :=
  ⟨h.databases.trans h'.databases, h.rows.trans h'.rows⟩

omit [Host] [ExprDebug] [Bincode] in
theorem SameTables.tryCatalog {m m' : Memory} (h : m.SameTables m') {r r' : Except String Catalog}
    (hr : r.toOption.map Catalog.databases = r'.toOption.map Catalog.databases) :
    (m.tryCatalog r).2.SameTables (m'.tryCatalog r').2 := by
  cases r with
  | error msg =>
    cases r' with
    | error msg' => exact h
    | ok c' => cases hr
  | ok c =>
    cases r' with
    | error msg' => cases hr
    | ok c' => exact ⟨Option.some.inj hr, h.rows⟩

omit [ExprDebug] [Bincode] in
/-- Dropping a table in memory, as replay does it. -/
theorem SameTables.dropTable {m m' : Memory} (h : m.SameTables m') {db db' : String}
    (hd : SameName db db') (tableName : String) :
    (match m.catalog.dropTable db tableName with
      | .ok catalog => (true, (⟨catalog, m.storage.clearTable tableName⟩ : Memory))
      | .error _ => (false, m)).2.SameTables
    (match m'.catalog.dropTable db' tableName with
      | .ok catalog => (true, (⟨catalog, m'.storage.clearTable tableName⟩ : Memory))
      | .error _ => (false, m')).2 := by
  have hr := Catalog.dropTable_databases h.databases hd tableName
  cases hdrop : m.catalog.dropTable db tableName with
  | error msg =>
    cases hdrop' : m'.catalog.dropTable db' tableName with
    | error msg' => exact h
    | ok c' => rw [hdrop, hdrop'] at hr; cases hr
  | ok c =>
    cases hdrop' : m'.catalog.dropTable db' tableName with
    | error msg' => rw [hdrop, hdrop'] at hr; cases hr
    | ok c' =>
      rw [hdrop, hdrop'] at hr
      exact ⟨Option.some.inj hr, h.rows.clearTable tableName⟩

omit [ExprDebug] [Bincode] in
/-- Replaying an entry keeps two memories the same. -/
theorem SameTables.applyEntry {m m' : Memory} (h : m.SameTables m') (entry : WalEntry) :
    (m.applyEntry entry).2.SameTables (m'.applyEntry entry).2 := by
  cases entry with
  | createTable tableName columns =>
    exact h.tryCatalog (Catalog.createTable_databases h.databases rfl tableName columns)
  | dropTable tableName => exact h.dropTable rfl tableName
  | insertRows tableName rows => exact ⟨h.databases, h.rows.insertRows tableName rows⟩
  | tableSnapshot tableName rows => exact ⟨h.databases, h.rows.restoreRows tableName rows⟩
  | createIndex dbName indexDef =>
    exact h.tryCatalog (Catalog.createIndex_databases h.databases dbName indexDef)
  | dropIndex dbName indexName tableName =>
    exact h.tryCatalog (Catalog.dropIndex_databases h.databases dbName indexName tableName)
  | checkpoint => exact h

omit [ExprDebug] [Bincode] in
theorem SameTables.applyAll (entries : List WalEntry) {m m' : Memory} (h : m.SameTables m') :
    (m.applyAll entries).SameTables (m'.applyAll entries) := by
  induction entries generalizing m m' with
  | nil => exact h
  | cons entry rest ih => exact ih (h.applyEntry entry)

end Memory

/-! ## One statement -/

omit [ExprDebug] [Bincode] in
/-- A server whose mutexes are fine and whose storage is as `insert_rows`
leaves it. -/
structure Healthy (e : Executor) : Prop where
  catalog_ok : e.catalog.poisoned = false
  storage_ok : e.storage.poisoned = false
  consistent : e.storage.value.Consistent

/-- From the memory before a statement its entries lead to the memory after it. -/
def Reproduced (e e' : Executor) : Prop :=
  ∃ entries, e'.wal = e.wal ++ entries ∧ (e.memory.applyAll entries).SameTables e'.memory

/-- What the log of a healthy server owes to one statement. -/
def Carried (e e' : Executor) : Prop := Healthy e → Healthy e' ∧ Reproduced e e'

omit [ExprDebug] [Bincode] in
theorem Healthy.of_eq {e e' : Executor} (h : Healthy e)
    (hc : e'.catalog.poisoned = e.catalog.poisoned) (hst : e'.storage.poisoned = e.storage.poisoned)
    (hrows : e.storage.value.SameRows e'.storage.value) : Healthy e' :=
  ⟨hc.trans h.catalog_ok, hst.trans h.storage_ok, hrows.consistent h.consistent⟩

omit [ExprDebug] [Bincode] in
theorem carried_refl (e : Executor) : Carried e e := fun h =>
  ⟨h, [], (List.append_nil _).symm, .refl _⟩

omit [ExprDebug] [Bincode] in
/-- A statement that found a poisoned mutex did not run on a healthy server. -/
theorem carried_of_catalog {e e' : Executor} (hc : e.catalog.poisoned = true) : Carried e e' :=
  fun h => by rw [h.catalog_ok] at hc; cases hc

omit [ExprDebug] [Bincode] in
theorem carried_of_storage {e e' : Executor} (hst : e.storage.poisoned = true) : Carried e e' :=
  fun h => by rw [h.storage_ok] at hst; cases hst

omit [ExprDebug] [Bincode] in
theorem reproduced_of_entry {env : Env} {e e' : Executor} {entry : WalEntry}
    (hok : env.appendOk = true) (hwal : e'.wal = e.wal ++ env.logged entry)
    (hsame : (e.memory.applyEntry entry).2.SameTables e'.memory) : Reproduced e e' := by
  refine ⟨[entry], ?_, hsame⟩
  rw [hwal, Env.logged, if_pos hok]

omit [ExprDebug] [Bincode] in
/-- A statement that appended one entry. -/
theorem carried_of_entry {env : Env} {e e' : Executor} {entry : WalEntry}
    (hok : env.appendOk = true) (hwal : e'.wal = e.wal ++ env.logged entry)
    (hhealthy : Healthy e → Healthy e')
    (hsame : Healthy e → (e.memory.applyEntry entry).2.SameTables e'.memory) : Carried e e' :=
  fun h => ⟨hhealthy h, reproduced_of_entry hok hwal (hsame h)⟩

omit [ExprDebug] in
/-- CREATE TABLE in `srrdb` is replayed as it went, whether it failed or not. -/
theorem createTable_reproduced {env : Env} {db tableName : String} {columns : List Column}
    {e e' : Executor} {r : Outcome ExecuteResult} (hdb : SameName db "srrdb")
    (hok : env.appendOk = true) (hc : e.catalog.poisoned = false)
    (h : CreateTableOutcome env db tableName columns e r e') : Reproduced e e' := by
  have hsame := (Memory.SameTables.refl e.memory).tryCatalog
    (Catalog.createTable_databases (c := e.catalog.value) rfl hdb.symm tableName columns)
  cases h with
  | locked hp => rw [hc] at hp; cases hp
  | rejected _ h =>
    rw [h] at hsame
    exact reproduced_of_entry hok rfl hsame
  | created _ h =>
    rw [h] at hsame
    exact reproduced_of_entry hok rfl hsame

omit [ExprDebug] in
theorem createTable_carried {env : Env} {db tableName : String} {columns : List Column}
    {e e' : Executor} {r : Outcome ExecuteResult} (hdb : SameName db "srrdb")
    (hok : env.appendOk = true) (h : CreateTableOutcome env db tableName columns e r e') :
    Carried e e' := by
  intro he
  refine ⟨?_, createTable_reproduced hdb hok he.catalog_ok h⟩
  cases h <;> exact he.of_eq rfl rfl (.refl _)

omit [ExprDebug] in
theorem dropTable_carried {env : Env} {db tn : String} {e e' : Executor}
    {r : Outcome ExecuteResult} (hdb : SameName db "srrdb") (hok : env.appendOk = true)
    (h : DropTableOutcome env db tn e r e') : Carried e e' := by
  have hsame := (Memory.SameTables.refl e.memory).dropTable hdb.symm tn
  cases h with
  | locked hc => exact carried_of_catalog hc
  | rejected hc h =>
    simp only [Executor.memory_catalog, h] at hsame
    exact carried_of_entry hok rfl (fun he => he.of_eq rfl rfl (.refl _)) fun _ => hsame
  | uncleared hc h hst => exact carried_of_storage hst
  | dropped hc h hst =>
    simp only [Executor.memory_catalog, h] at hsame
    refine carried_of_entry hok rfl (fun he => ?_) fun _ => hsame
    exact ⟨he.catalog_ok, he.storage_ok, he.consistent.clearTable tn⟩

omit [ExprDebug] in
/-- The entry of an INSERT is replayed with the ids the INSERT got: they
follow the counter, which is the same. -/
theorem insertDone_reproduced {env : Env} {tableName : String} {columns : List Column}
    {rows filled : List Row} {last : Nat} {e : Executor} {c : Catalog}
    (hf : fillRows env.now tableName columns 0 rows 0 e.catalog.value = (.ok (filled, last), c))
    (indexes : List IndexDef) :
    (e.memory.applyEntry (.insertRows tableName filled)).2.SameTables
      (insertDone (((e.setCatalog c).append env (.insertRows tableName filled)).setStorage
        (e.storage.value.insertRows tableName filled).2) tableName indexes columns
        (e.storage.value.insertRows tableName filled).1).memory := by
  obtain ⟨-, rfl, -⟩ := fillRows_eq_ok hf
  have hrows := insertDone_sameRows
    (((e.setCatalog (e.catalog.value.draw tableName (drawnRows columns rows))).append env
      (.insertRows tableName filled)).setStorage (e.storage.value.insertRows tableName filled).2)
    tableName indexes columns (e.storage.value.insertRows tableName filled).1
  refine ⟨?_, hrows⟩
  simp [Memory.applyEntry]

theorem insert_carried {env : Env} {db tableName : String} {cols : List String}
    {source : Option Query} {e e' : Executor} {r : Outcome ExecuteResult}
    (hok : env.appendOk = true) (hr : r ≠ .error .panic)
    (h : InsertOutcome env db tableName cols source e r e') : Carried e e' := by
  cases h with
  | locked hc => exact carried_of_catalog hc
  | noTable hc h => exact carried_refl e
  | badSource hc h hs => exact carried_refl e
  | panicked hc h hs hf => exact absurd rfl hr
  | unstored hc h hs hf hst => exact carried_of_storage hst
  | @stored tableDef rows filled last c hc h hs hf hst =>
    have hsame := insertDone_reproduced hf (c.getTableIndexes db tableName)
    refine carried_of_entry hok (?_ : _ = e.wal ++ env.logged (.insertRows tableName filled))
      (fun he => ?_) fun _ => hsame
    · simp
    · exact ⟨by simpa using he.catalog_ok, by simpa using he.storage_ok,
        hsame.rows.consistent (he.consistent.insertRows tableName filled)⟩

/-- The snapshot of a DELETE or UPDATE brings the table back. A statement that
selected no row logs nothing and changes no row. -/
theorem change_carried {env : Env} {tableName : String} {columns : List Column}
    {selection : Option Expr} {change : Storage → List Row → Storage}
    {rewrite : List Row → Table → Table} {e e' : Executor} {r : Outcome ExecuteResult}
    (hok : env.appendOk = true) (hr : r ≠ .error .panic)
    (hrw : Rewrites tableName change rewrite)
    (h : ChangeOutcome env tableName columns selection change e r e') : Carried e e' := by
  cases h with
  | locked hst => exact carried_of_storage hst
  | noEntry hst ht => exact carried_refl e
  | panicked hst ht hsel => exact absurd rfl hr
  | @changed t rows hst ht hsel =>
    cases rows with
    | nil =>
      intro he
      have hsame := (hrw.sameRows_nil ht).symm
      exact ⟨he.of_eq rfl rfl hsame, [], (List.append_nil _).symm, rfl, hsame⟩
    | cons row rest =>
      refine carried_of_entry hok rfl (fun he => ?_) fun he => ⟨rfl, ?_⟩
      · exact ⟨he.catalog_ok, he.storage_ok, hrw.consistent he.consistent _⟩
      · exact hrw.restoreRows ht he.consistent _

theorem delete_carried {env : Env} {db tableName : String} {selection : Option Expr}
    {e e' : Executor} {r : Outcome ExecuteResult} (hok : env.appendOk = true)
    (hr : r ≠ .error .panic) (h : DeleteOutcome env db tableName selection e r e') :
    Carried e e' := by
  cases h with
  | locked hc => exact carried_of_catalog hc
  | noTable hc h => exact carried_refl e
  | ran hc h hch => exact change_carried hok hr (deleteRows_rewrites tableName _ _) hch

theorem update_carried {env : Env} {db tableName : String} {assignments : List Assignment}
    {selection : Option Expr} {e e' : Executor} {r : Outcome ExecuteResult}
    (hok : env.appendOk = true) (hr : r ≠ .error .panic)
    (h : UpdateOutcome env db tableName assignments selection e r e') : Carried e e' := by
  cases h with
  | locked hc => exact carried_of_catalog hc
  | noTable hc h => exact carried_refl e
  | badAssignment hc h ha => exact carried_refl e
  | ran hc h ha hch => exact change_carried hok hr (updateRows_rewrites tableName _ _ _) hch

omit [ExprDebug] [Bincode] in
theorem applyEntry_createIndex {m : Memory} {db : String} {indexDef : IndexDef} {c : Catalog}
    (h : m.catalog.createIndex db indexDef = .ok c) :
    (m.applyEntry (.createIndex db indexDef)).2 = ⟨c, m.storage⟩ := by
  rw [Memory.applyEntry, h]
  rfl

omit [ExprDebug] [Bincode] in
theorem applyEntry_dropIndex {m : Memory} {db indexName tableName : String} {c : Catalog}
    (h : m.catalog.dropIndex db indexName tableName = .ok c) :
    (m.applyEntry (.dropIndex db indexName tableName)).2 = ⟨c, m.storage⟩ := by
  rw [Memory.applyEntry, h]
  rfl

omit [ExprDebug] in
theorem createIndex_carried {env : Env} {db tableName : String} {indexDef : IndexDef}
    {e e' : Executor} {r : Outcome ExecuteResult} (hok : env.appendOk = true)
    (h : CreateIndexOutcome env db tableName indexDef e r e') : Carried e e' := by
  cases h with
  | locked hc => exact carried_of_catalog hc
  | rejected hc h => exact carried_refl e
  | unbuilt hc h ht hst => exact carried_of_storage hst
  | duplicate hc h ht hst hb | built hc h ht hst hb =>
    refine carried_of_entry hok rfl (fun he => he.of_eq rfl rfl ⟨rfl, rfl⟩) fun _ => ?_
    rw [applyEntry_createIndex h]
    exact ⟨rfl, rfl, rfl⟩

omit [ExprDebug] [Bincode] in
theorem dropIndex_carried {env : Env} {db indexName tableName : String} {e e' : Executor}
    {r : Outcome ExecuteResult} (hok : env.appendOk = true)
    (h : DropIndexOutcome env db indexName tableName e r e') : Carried e e' := by
  cases h with
  | locked hc => exact carried_of_catalog hc
  | rejected hc h => exact carried_refl e
  | undropped hc h hst => exact carried_of_storage hst
  | dropped hc h hst =>
    refine carried_of_entry hok rfl (fun he => he.of_eq rfl rfl ⟨rfl, rfl⟩) fun _ => ?_
    rw [applyEntry_dropIndex h]
    exact ⟨rfl, rfl, rfl⟩

/-! ## Runs in the database `srrdb` -/

/-- The statements on tables and indexes. -/
def onTables : Statement → Bool
  | .createTable _ | .insert _ | .delete _ | .update .. | .createIndex _ => true
  | .drop .table _ _ | .drop .index _ _ => true
  | _ => false

/-- A statement on a table or index of `srrdb` whose append succeeds and that
does not panic. -/
structure LoggedCall (e : Executor) (call : Call) : Prop where
  db : SameName call.db "srrdb"
  stmt : onTables call.stmt = true
  appendOk : call.env.appendOk = true
  returns : call.result e ≠ .error .panic

instance (e : Executor) (call : Call) : Decidable (LoggedCall e call) :=
  decidable_of_iff (SameName call.db "srrdb" ∧ onTables call.stmt = true ∧
      call.env.appendOk = true ∧ call.result e ≠ .error .panic)
    ⟨fun h => ⟨h.1, h.2.1, h.2.2.1, h.2.2.2⟩, fun h => ⟨h.1, h.2, h.3, h.4⟩⟩

theorem loggedCall_carried {e : Executor} {call : Call} (h : LoggedCall e call) :
    Carried e (e.after call) := by
  obtain ⟨hdb, hstmt, hok, hr⟩ := h
  have heffect := call.effect e
  obtain ⟨env, db, stmt⟩ := call
  generalize Call.result ⟨env, db, stmt⟩ e = r, e.after ⟨env, db, stmt⟩ = e' at hr heffect ⊢
  cases heffect with
  | none r h => exact carried_refl e
  | createTable h => exact createTable_carried hdb hok h
  | insert h => exact insert_carried hok hr h
  | delete h => exact delete_carried hok hr h
  | update h => exact update_carried hok hr h
  | dropTable h => exact dropTable_carried hdb hok h
  | dropIndex hfind h => exact dropIndex_carried hok h
  | createIndex hcols h => exact createIndex_carried hok h
  | createDatabase h | dropDatabase h => cases hstmt

/-- A healthy server whose log leads from the empty memory to its own. -/
structure LogInv (e : Executor) : Prop where
  healthy : Healthy e
  replayed : (Memory.new.applyAll e.wal).SameTables e.memory

omit [ExprDebug] [Bincode] in
theorem logInv_start (p : Option Persistence) : LogInv (.ofMemory .new p) :=
  ⟨⟨rfl, rfl, .new⟩, .refl _⟩

theorem LogInv.after {e : Executor} (he : LogInv e) {call : Call} (h : LoggedCall e call) :
    LogInv (e.after call) := by
  obtain ⟨hhealthy, entries, hwal, hsame⟩ := loggedCall_carried h he.healthy
  refine ⟨hhealthy, ?_⟩
  rw [hwal, Memory.applyAll_append]
  exact (he.replayed.applyAll entries).trans hsame

/-- After any run of statements in `srrdb` the log alone brings back the
databases, the rows under their ids, and the row-id counters. -/
theorem log_reproduces_run (p : Option Persistence) (calls : List Call)
    (h : Every Executor.after LoggedCall (.ofMemory .new p) calls) :
    let e := calls.foldl Executor.after (.ofMemory .new p)
    (Memory.new.applyAll e.wal).SameTables e.memory :=
  (h.foldl_invariant (fun _ _ he hc => he.after hc) (logInv_start p)).replayed

end Theory

section Concrete

attribute [local instance] asciiHost plainDebug bincode1

/-- Inserts, a failing statement, an update, a delete and an index. -/
def mixedRun : List Call :=
  [intTable "t" ["a"], insertNumbers "t" [["1"], ["2"]], intTable "t" ["a"],
    updateSet "t" "a" "3" (some (columnIs "a" "1")), indexOn false "i" "t" ["a"],
    deleteFrom "t" (some (columnIs "a" "2")), insertNumbers "t" [["4"]]].map (callIn "srrdb")

theorem mixedRun_reproduced :
    let e := mixedRun.foldl Executor.after (.ofMemory .new none)
    (Memory.new.applyAll e.wal).SameTables e.memory :=
  log_reproduces_run none mixedRun (by decide +kernel)

end Concrete

end Srrdb.Engine

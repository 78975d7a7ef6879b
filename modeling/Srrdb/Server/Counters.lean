/-
Srrdb.Server.Counters — what a restart makes of the AUTO_INCREMENT counters.

The counters are in the catalog file, which only statements that define
something write, and the log does not speak of them: its rows are replayed
with the values they got, and a CREATE TABLE or DROP TABLE that takes effect in
a replay sets the counter of its name back. A session is a server with the log
it found at its start and, as ghost state, the values generated so far
(`Session.generated`); `applyAll_sequence` says what a replay leaves of a
counter, and `counters_continue_iff` when that is enough.
-/
import Srrdb.Server.AutoIncrement
import Srrdb.Server.Restart

namespace Srrdb.Server

open Srrdb.Engine Srrdb.Sql Srrdb.Lib

section Theory

variable [Host]

/-! ## Replay and the counters -/

/-- A DROP TABLE of the name. -/
def drops (name : String) : WalEntry → Bool
  | .dropTable tableName => normalize tableName == normalize name
  | _ => false

/-- A CREATE TABLE of the name. -/
def creates (name : String) : WalEntry → Bool
  | .createTable tableName _ => normalize tableName == normalize name
  | _ => false

/-- Replaying the log on the catalog sets the counter of the name back: there
is a DROP TABLE for a table that `srrdb` has, or a CREATE TABLE for one that it
has not. -/
def resets (c : Catalog) (log : List WalEntry) (name : String) : Bool :=
  if c.tableExists "srrdb" name then log.any (drops name)
  else c.databaseExists "srrdb" && log.any (creates name)

/-- Two catalogs that agree on the table `name` of `srrdb` and its counter. -/
structure SameCounter (name : String) (c c' : Catalog) : Prop where
  database : c'.databaseExists "srrdb" = c.databaseExists "srrdb"
  table : c'.tableExists "srrdb" name = c.tableExists "srrdb" name
  sequence : c'.sequence name = c.sequence name

theorem SameCounter.resets {name : String} {c c' : Catalog} (h : SameCounter name c c')
    (log : List WalEntry) : resets c' log name = Server.resets c log name := by
  simp only [Server.resets, h.database, h.table]

theorem resets_cons {entry : WalEntry} {name : String} (hdrops : drops name entry = false)
    (hcreates : creates name entry = false) (c : Catalog) (log : List WalEntry) :
    resets c (entry :: log) name = resets c log name := by
  simp [resets, hdrops, hcreates]

/-- A DDL entry of another name, or of an index. -/
theorem tryCatalog_sameCounter {m : Memory} {name : String} {r : Except String Catalog}
    (h : ∀ c, r = .ok c → SameCounter name m.catalog c) :
    SameCounter name m.catalog (m.tryCatalog r).2.catalog := by
  cases r with
  | error msg => exact ⟨rfl, rfl, rfl⟩
  | ok c => exact h c rfl

theorem createTable_sameCounter {c c' : Catalog} {tableName name : String} {columns : List Column}
    (h : c.createTable "srrdb" tableName columns = .ok c') (hname : ¬ SameName tableName name) :
    SameCounter name c c' := by
  refine ⟨Catalog.databaseExists_createTable h, ?_, ?_⟩
  · rw [Catalog.tableExists_eq, Catalog.findTable_createTable h, if_neg fun hs => hname hs.2]
    rfl
  · rw [Catalog.sequence_createTable h, if_neg hname]

theorem dropTable_sameCounter {c c' : Catalog} {tableName name : String}
    (h : c.dropTable "srrdb" tableName = .ok c') (hname : ¬ SameName tableName name) :
    SameCounter name c c' := by
  refine ⟨Catalog.databaseExists_dropTable h, ?_, ?_⟩
  · rw [Catalog.tableExists_eq, Catalog.findTable_dropTable h, if_neg fun hs => hname hs.2]
    rfl
  · rw [Catalog.sequence_dropTable h, if_neg hname]

/-- An entry that resets nothing leaves the question to the rest of the log. -/
theorem SameCounter.resets_cons {entry : WalEntry} {name : String} {c c' : Catalog}
    (h : SameCounter name c c') (hdrops : drops name entry = false)
    (hcreates : creates name entry = false) (log : List WalEntry) :
    Server.resets c (entry :: log) name = Server.resets c' log name ∧
      c'.sequence name = c.sequence name := by
  rw [Server.resets_cons hdrops hcreates, h.resets]
  exact ⟨rfl, h.sequence⟩

/-- CREATE TABLE replayed sets the counter of its table back unless `srrdb` has
the table already. -/
theorem createTable_counter (m : Memory) (tableName : String) (columns : List Column)
    (log : List WalEntry) (name : String) :
    (resets m.catalog (.createTable tableName columns :: log) name = true ∧
        (m.applyEntry (.createTable tableName columns)).2.catalog.sequence name = 1) ∨
      (resets m.catalog (.createTable tableName columns :: log) name =
          resets (m.applyEntry (.createTable tableName columns)).2.catalog log name ∧
        (m.applyEntry (.createTable tableName columns)).2.catalog.sequence name =
          m.catalog.sequence name) := by
  rw [Memory.applyEntry]
  by_cases hname : SameName tableName name
  · cases h : m.catalog.createTable "srrdb" tableName columns with
    | ok c =>
      obtain ⟨hdb, htable⟩ := Catalog.createTable_isOk.mp ⟨c, h⟩
      rw [Catalog.tableExists_sameName rfl hname] at htable
      left
      refine ⟨by simp [resets, creates, hdb, htable, hname], ?_⟩
      show c.sequence name = 1
      rw [Catalog.sequence_createTable h, if_pos hname]
    | error msg =>
      have hno := Catalog.createTable_rejected h
      rw [Catalog.tableExists_sameName rfl hname] at hno
      right
      refine ⟨?_, rfl⟩
      show resets m.catalog _ name = resets m.catalog log name
      cases htable : m.catalog.tableExists "srrdb" name with
      | true => simp [resets, drops, htable]
      | false =>
        have hdb : m.catalog.databaseExists "srrdb" = false :=
          Bool.eq_false_iff.mpr fun hdb => hno ⟨hdb, htable⟩
        simp [resets, htable, hdb]
  · have hsame := tryCatalog_sameCounter fun c (h : m.catalog.createTable "srrdb" tableName columns =
      .ok c) => createTable_sameCounter h hname
    exact .inr (hsame.resets_cons rfl (by simpa [creates] using hname) log)

/-- DROP TABLE replayed sets the counter of its table back if `srrdb` has it. -/
theorem dropTable_counter (m : Memory) (tableName : String) (log : List WalEntry) (name : String) :
    (resets m.catalog (.dropTable tableName :: log) name = true ∧
        (m.applyEntry (.dropTable tableName)).2.catalog.sequence name = 1) ∨
      (resets m.catalog (.dropTable tableName :: log) name =
          resets (m.applyEntry (.dropTable tableName)).2.catalog log name ∧
        (m.applyEntry (.dropTable tableName)).2.catalog.sequence name =
          m.catalog.sequence name) := by
  rw [Memory.applyEntry]
  cases h : m.catalog.dropTable "srrdb" tableName with
  | ok c =>
    by_cases hname : SameName tableName name
    · have htable := Catalog.dropTable_isOk.mp ⟨c, h⟩
      rw [Catalog.tableExists_sameName rfl hname] at htable
      left
      refine ⟨by simp [resets, drops, htable, hname], ?_⟩
      show c.sequence name = 1
      rw [Catalog.sequence_dropTable h, if_pos hname]
    · exact .inr ((dropTable_sameCounter h hname).resets_cons (by simpa [drops] using hname) rfl log)
  | error msg =>
    have htable := Catalog.dropTable_rejected h
    right
    refine ⟨?_, rfl⟩
    show resets m.catalog _ name = resets m.catalog log name
    by_cases hname : SameName tableName name
    · rw [Catalog.tableExists_sameName rfl hname] at htable
      simp [resets, creates, htable]
    · exact resets_cons (by simpa [drops] using hname) rfl m.catalog log

/-- One entry: the counter is set back if the entry is one that does so, and
then stays there; any other entry leaves the question to the rest of the log. -/
theorem applyEntry_counter (m : Memory) (entry : WalEntry) (log : List WalEntry) (name : String) :
    (resets m.catalog (entry :: log) name = true ∧
        (m.applyEntry entry).2.catalog.sequence name = 1) ∨
      (resets m.catalog (entry :: log) name = resets (m.applyEntry entry).2.catalog log name ∧
        (m.applyEntry entry).2.catalog.sequence name = m.catalog.sequence name) := by
  have hother : drops name entry = false → creates name entry = false →
      SameCounter name m.catalog (m.applyEntry entry).2.catalog →
      resets m.catalog (entry :: log) name = resets (m.applyEntry entry).2.catalog log name ∧
        (m.applyEntry entry).2.catalog.sequence name = m.catalog.sequence name :=
    fun hdrops hcreates hsame => hsame.resets_cons hdrops hcreates log
  cases entry with
  | createTable tableName columns => exact createTable_counter m tableName columns log name
  | dropTable tableName => exact dropTable_counter m tableName log name
  | createIndex dbName indexDef =>
    refine .inr (hother rfl rfl (tryCatalog_sameCounter fun c h => ⟨?_, ?_, ?_⟩))
    · exact Catalog.databaseExists_createIndex h
    · rw [Catalog.tableExists_eq, Catalog.findTable_createIndex h]
      rfl
    · exact Catalog.sequence_createIndex h name
  | dropIndex dbName indexName tableName =>
    refine .inr (hother rfl rfl (tryCatalog_sameCounter fun c h => ⟨?_, ?_, ?_⟩))
    · exact Catalog.databaseExists_dropIndex h
    · rw [Catalog.tableExists_eq, Catalog.findTable_dropIndex h]
      rfl
    · exact Catalog.sequence_dropIndex h name
  | insertRows tableName rows => exact .inr (hother rfl rfl ⟨rfl, rfl, rfl⟩)
  | tableSnapshot tableName rows => exact .inr (hother rfl rfl ⟨rfl, rfl, rfl⟩)
  | checkpoint => exact .inr (hother rfl rfl ⟨rfl, rfl, rfl⟩)

/-- A replay leaves a counter as it finds it or sets it back to 1. -/
theorem applyAll_sequence (log : List WalEntry) (m : Memory) (name : String) :
    (m.applyAll log).catalog.sequence name =
      if resets m.catalog log name then 1 else m.catalog.sequence name := by
  induction log generalizing m with
  | nil => simp [resets]
  | cons entry log ih =>
    rw [Memory.applyAll_cons, ih]
    rcases applyEntry_counter m entry log name with ⟨hreset, hone⟩ | ⟨hsame, hseq⟩
    · rw [hreset, hone, if_pos rfl, ite_self]
    · rw [hsame, hseq]

/-! ## Sessions -/

omit [Host] in
/-- A value that an INSERT generated for a table. -/
structure Generated where
  db : String
  table : String
  value : Int64
  deriving DecidableEq

/-- A server, the entries its log held when it started, and the values that
were generated so far for the tables it has, in this session or an earlier
one. -/
structure Session where
  before : List WalEntry
  server : Executor
  generated : List Generated

/-- What happens to a server: a statement, or a clean stop and a start. -/
inductive Event where
  | call (call : Call)
  | restart (order : List String → List String)

variable [ExprDebug] [Bincode]

/-- The values an INSERT generates: what `next_row_id` hands out while it runs,
stored as `i64`. -/
def generatedBy (e : Executor) (call : Call) : List Generated :=
  match call.stmt with
  | .insert ins =>
    let name := tableObjectName ins.table
    let lo := e.catalog.value.sequence name
    let hi := (e.after call).catalog.value.sequence name
    (List.range' lo (hi - lo)).map fun id => ⟨call.db, name, Int64.ofNat id⟩
  | _ => []

omit [ExprDebug] [Bincode] in
/-- The values for tables that still exist. -/
def ofTables (c : Catalog) (values : List Generated) : List Generated :=
  values.filter fun g => c.tableExists g.db g.table

namespace Session

omit [ExprDebug] [Bincode] in
/-- A server on an empty data directory. -/
def fresh : Session := ⟨[], .ofMemory .new (some .empty), []⟩

omit [Host] [ExprDebug] [Bincode] in
/-- The entries in the log file. -/
def log (s : Session) : List WalEntry := s.before ++ s.server.wal

omit [Host] [ExprDebug] [Bincode] in
/-- The data directory. -/
def files (s : Session) : Persistence := s.server.persistence.getD .empty

omit [ExprDebug] in
/-- A clean stop and the startup path. -/
def restarted (order : List String → List String) (s : Session) : Outcome Executor :=
  recover order s.files (logBytes s.log)

/-- One event. Values for tables that are gone after it are forgotten. -/
def step (s : Session) : Event → Session
  | .call call =>
    let e := s.server.after call
    ⟨s.before, e, ofTables e.catalog.value (s.generated ++ generatedBy s.server call)⟩
  | .restart order =>
    match s.restarted order with
    | .ok e => ⟨s.log, e, ofTables e.catalog.value s.generated⟩
    | .error _ => s

/-- The session after some events. -/
def after (events : List Event) : Session := events.foldl step fresh

omit [ExprDebug] in
/-- The server starts, and the next value generated for a table is greater
than every value generated for it before. -/
def Continues (order : List String → List String) (s : Session) : Prop :=
  ∃ e, s.restarted order = .ok e ∧
    ∀ g ∈ s.generated, g.value < Int64.ofNat (e.catalog.value.sequence g.table)

omit [ExprDebug] in
/-- The catalog file holds a counter above every value generated for a table,
and the log does not set it back: then it is 1, which only values that have
passed the range of `i64` are below. -/
def CountersSaved (s : Session) : Prop :=
  let c := s.files.loadCatalog.getD .new
  ∀ g ∈ s.generated,
    if resets c s.log g.table then g.value < 1 else g.value < Int64.ofNat (c.sequence g.table)

omit [ExprDebug] in
instance (s : Session) : Decidable s.CountersSaved :=
  inferInstanceAs (Decidable (∀ g ∈ s.generated,
    if resets (s.files.loadCatalog.getD .new) s.log g.table then g.value < 1
    else g.value < Int64.ofNat ((s.files.loadCatalog.getD .new).sequence g.table)))

end Session

/-! ## The values are the stored ones -/

/-- An INSERT whose row loop ends leaves the catalog of the loop. -/
theorem after_insert_catalog {e : Executor} {env : Env} {db : String} {ins : Insert}
    {tableDef : TableDef} {rows filled : List Row} {last : Nat} {c : Catalog}
    (hc : e.catalog.poisoned = false)
    (ht : e.catalog.value.getTable db (tableObjectName ins.table) = .ok tableDef)
    (hs : sourceRows tableDef.columns ins.columns ins.source = .ok rows)
    (hf : fillRows env.now (tableObjectName ins.table) tableDef.columns 0 rows 0
      e.catalog.value = (.ok (filled, last), c)) :
    (e.after ⟨env, db, .insert ins⟩).catalog.value = c := by
  have hout := executeInsert_outcome env db (tableObjectName ins.table) ins.columns ins.source e
  show ((executeInsert env db (tableObjectName ins.table) ins.columns ins.source).run
    e).2.catalog.value = c
  generalize (executeInsert env db (tableObjectName ins.table) ins.columns ins.source).run e = p
    at hout ⊢
  obtain ⟨r, e'⟩ := p
  simp only at hout ⊢
  cases hout with
  | locked hp => simp [hc] at hp
  | noTable _ h => simp [ht] at h
  | badSource _ h hs' =>
    rw [ht] at h
    cases h
    simp [hs] at hs'
  | panicked _ h hs' hf' =>
    rw [ht] at h
    cases h
    rw [hs] at hs'
    cases hs'
    rw [hf] at hf'
    cases hf'
  | unstored _ h hs' hf' hst =>
    rw [ht] at h
    cases h
    rw [hs] at hs'
    cases hs'
    rw [hf] at hf'
    cases hf'
    rfl
  | stored _ h hs' hf' hst =>
    rw [ht] at h
    cases h
    rw [hs] at hs'
    cases hs'
    rw [hf] at hf'
    cases hf'
    rw [insertDone_catalog]
    rfl

/-- What an INSERT stores for a NULL in an AUTO_INCREMENT column is among the
values it generates. -/
theorem mem_generatedBy_of_null {e : Executor} {env : Env} {db : String} {ins : Insert}
    {tableDef : TableDef} {rows filled : List Row} {last : Nat} {c : Catalog}
    (hc : e.catalog.poisoned = false)
    (ht : e.catalog.value.getTable db (tableObjectName ins.table) = .ok tableDef)
    (hs : sourceRows tableDef.columns ins.columns ins.source = .ok rows)
    (hf : fillRows env.now (tableObjectName ins.table) tableDef.columns 0 rows 0
      e.catalog.value = (.ok (filled, last), c))
    {k j : Nat} {row row' : Row} {col : Column} (hrow : rows[k]? = some row)
    (hrow' : filled[k]? = some row') (hcol : tableDef.columns[j]? = some col)
    (hauto : col.autoIncrement = true) (hnull : row.values[j]? = some .null) :
    ∃ v, row'.values[j]? = some (.int v) ∧
      ⟨db, tableObjectName ins.table, v⟩ ∈ generatedBy e ⟨env, db, .insert ins⟩ := by
  obtain ⟨-, hrows⟩ := fillRows_completed env.now (tableObjectName ins.table) hf
  rcases (hrows k row row' hrow hrow' j col hcol).keptOrDrawn hauto with
    ⟨hne, -⟩ | ⟨-, id, hlo, hhi, hv⟩
  · exact absurd hnull hne
  · refine ⟨Int64.ofNat id, hv, ?_⟩
    simp only [generatedBy, after_insert_catalog hc ht hs hf]
    refine List.mem_map.mpr ⟨id, ?_, rfl⟩
    rw [List.mem_range'_1]
    omega

/-! ## What a session logs -/

omit [Host] [ExprDebug] [Bincode] in
theorem mem_append_logged {env : Env} {wal : List WalEntry} {entry entry' : WalEntry}
    (h : entry' ∈ wal ++ env.logged entry) : entry' ∈ wal ∨ entry' = entry := by
  unfold Env.logged at h
  split at h
  · simpa using h
  · exact .inl (by simpa using h)

/-- No statement logs a checkpoint. -/
theorem after_logs_no_checkpoint {e : Executor} (h : WalEntry.checkpoint ∉ e.wal) (call : Call) :
    WalEntry.checkpoint ∉ (e.after call).wal := by
  have happend : ∀ {env : Env} {e' : Executor} {entry : WalEntry},
      e'.wal = e.wal ++ env.logged entry → entry ≠ .checkpoint →
        WalEntry.checkpoint ∉ e'.wal := by
    intro env e' entry hwal hne hmem
    rw [hwal] at hmem
    rcases mem_append_logged hmem with hmem | heq
    · exact h hmem
    · exact hne heq.symm
  have hchange : ∀ {env : Env} {tableName : String} {columns : List Column}
      {selection : Option Expr} {change : Storage → List Row → Storage} {e' : Executor}
      {r : Outcome ExecuteResult}, ChangeOutcome env tableName columns selection change e r e' →
        WalEntry.checkpoint ∉ e'.wal := by
    intro env tableName columns selection change e' r hch
    cases hch with
    | @changed t rows hst ht hsel =>
      cases rows with
      | nil => exact h
      | cons row rest => exact happend rfl (by simp)
    | _ => exact h
  obtain ⟨env, db, stmt⟩ := call
  have heff := Call.effect ⟨env, db, stmt⟩ e
  generalize e.after ⟨env, db, stmt⟩ = e' at heff ⊢
  generalize Call.result ⟨env, db, stmt⟩ e = r at heff
  cases heff with
  | none r hskip => exact h
  | createTable hout =>
    cases hout with
    | locked hc => exact h
    | _ => exact happend rfl (by simp)
  | dropTable hout =>
    cases hout with
    | locked hc => exact happend rfl (by simp)
    | _ => exact happend rfl (by simp)
  | @insert ins r e' hout =>
    cases hout with
    | unstored hc ht hs hf hst => exact happend rfl (by simp)
    | @stored tableDef rows filled last c hc ht hs hf hst =>
      refine happend (?_ : _ = e.wal ++ env.logged (.insertRows (tableObjectName ins.table) filled))
        (by simp)
      simp
    | _ => exact h
  | delete hout =>
    cases hout with
    | ran hc ht hch => exact hchange hch
    | _ => exact h
  | update hout =>
    cases hout with
    | ran hc ht ha hch => exact hchange hch
    | _ => exact h
  | createIndex hcols hout =>
    cases hout with
    | locked hc => exact h
    | rejected hc hrej => exact h
    | _ => exact happend rfl (by simp)
  | dropIndex hfind hout =>
    cases hout with
    | locked hc => exact h
    | rejected hc hrej => exact h
    | _ => exact happend rfl (by simp)
  | createDatabase hout => cases hout <;> exact h
  | dropDatabase hout => cases hout <;> exact h

/-! ## Restarts -/

namespace Session

omit [ExprDebug] in
theorem restarted_wal {order : List String → List String} {s : Session} {e : Executor}
    (h : s.restarted order = .ok e) : e.wal = [] := by
  unfold restarted recover at h
  cases hm : recoverMemory order s.files (logBytes s.log) with
  | error x =>
    rw [hm] at h
    cases h
  | ok m =>
    rw [hm] at h
    cases h
    show ((Executor.ofMemory m (some s.files)).rebuildIndexes order).wal = []
    rfl

/-- The log of a session is made of the entries of statements. -/
theorem log_no_checkpoint (events : List Event) : WalEntry.checkpoint ∉ (after events).log := by
  refine foldl_keeps (I := fun s : Session => WalEntry.checkpoint ∉ s.log) (fun s event _ h => ?_)
    (by simp [fresh, log, Executor.ofMemory])
  simp only [log, List.mem_append, not_or] at h ⊢
  cases event with
  | call call => exact ⟨h.1, after_logs_no_checkpoint h.2 call⟩
  | restart order =>
    simp only [step]
    split
    · next e he =>
      rw [restarted_wal he]
      simp [log, h.1, h.2]
    · exact h

omit [ExprDebug] in
/-- The counters after a start. -/
theorem restarted_sequence {s : Session} (hfit : ∀ entry ∈ s.log, entry.Fits)
    (hlog : WalEntry.checkpoint ∉ s.log) (order : List String → List String) :
    ∃ e, s.restarted order = .ok e ∧ ∀ name, e.catalog.value.sequence name =
      if resets (s.files.loadCatalog.getD .new) s.log name then 1
      else (s.files.loadCatalog.getD .new).sequence name := by
  have hmemory := recoverMemory_logBytes hfit hlog order s.files
  unfold restarted recover
  rw [hmemory]
  refine ⟨_, rfl, fun name => ?_⟩
  have hsame := (rebuildIndexes_sameContent order (Executor.ofMemory
    (if s.files.hasExistingData then (loadFiles order s.files).applyAll s.log else .new)
    (some s.files))).catalog
  simp only [Executor.memory_catalog] at hsame
  rw [hsame]
  show (if s.files.hasExistingData then (loadFiles order s.files).applyAll s.log
    else Memory.new).catalog.sequence name = _
  cases hdata : s.files.hasExistingData with
  | true => exact applyAll_sequence s.log _ name
  | false =>
    -- without a catalog file every counter is 1
    have hfile : s.files.files[catalogPath]? = none :=
      Option.isNone_iff_eq_none.mp (Option.isSome_eq_false_iff.mp hdata)
    have hnone : s.files.loadCatalog = none := by simp [Persistence.loadCatalog, hfile]
    rw [hnone, Option.getD_none]
    have hone : Catalog.new.sequence name = 1 := by simp [Catalog.sequence, Catalog.new]
    rw [hone, ite_self]
    exact hone

end Session

/-- AUTO_INCREMENT goes on where it was exactly when the counters are saved. -/
theorem counters_continue_iff {events : List Event}
    (hfit : ∀ entry ∈ (Session.after events).log, entry.Fits)
    (order : List String → List String) :
    (Session.after events).Continues order ↔ (Session.after events).CountersSaved := by
  have hlog := Session.log_no_checkpoint events
  obtain ⟨e, he, hseq⟩ := Session.restarted_sequence hfit hlog order
  have hvalue : ∀ g : Generated, g.value < Int64.ofNat (e.catalog.value.sequence g.table) ↔
      if resets ((Session.after events).files.loadCatalog.getD .new) (Session.after events).log
        g.table then g.value < 1
      else g.value < Int64.ofNat
        (((Session.after events).files.loadCatalog.getD .new).sequence g.table) := by
    intro g
    rw [hseq]
    split <;> rfl
  constructor
  · rintro ⟨e', he', hless⟩ g hg
    obtain rfl := Except.ok.inj (he'.symm.trans he)
    exact (hvalue g).mp (hless g hg)
  · intro hsaved
    exact ⟨e, he, fun g hg => (hvalue g).mpr (hsaved g hg)⟩

end Theory

/-! ## A counter that was not saved, and one that was -/

section Concrete

attribute [local instance] asciiHost plainDebug bincode1

/-- The table `t` is created and gets one generated value. -/
def oneGenerated : List Event :=
  [.call (callIn "srrdb" (serialTable "t")), .call (callIn "srrdb" (insertNulls "t" 1))]

/-- After the restart the value 1 is generated again. -/
theorem oneGenerated_rewinds :
    (∀ entry ∈ (Session.after oneGenerated).log, entry.Fits) ∧
      (Session.after oneGenerated).generated = [⟨"srrdb", "t", 1⟩] ∧
      ¬ (Session.after oneGenerated).Continues id ∧
      (Session.after (oneGenerated ++
        [.restart id, .call (callIn "srrdb" (insertNulls "t" 1))])).generated =
        [⟨"srrdb", "t", 1⟩, ⟨"srrdb", "t", 1⟩] := by
  have hfit : ∀ entry ∈ (Session.after oneGenerated).log, entry.Fits := by decide +kernel
  have hlog := Session.log_no_checkpoint oneGenerated
  obtain ⟨e, he, hseq⟩ := Session.restarted_sequence hfit hlog id
  refine ⟨hfit, by decide +kernel, ?_, by decide +kernel⟩
  rintro ⟨e', he', hless⟩
  obtain rfl := Except.ok.inj (he'.symm.trans he)
  have hmem : ⟨"srrdb", "t", 1⟩ ∈ (Session.after oneGenerated).generated := by decide +kernel
  have hlt := hless _ hmem
  rw [hseq] at hlt
  revert hlt
  decide +kernel

/-- The same, and then an index is created: the catalog is saved. -/
def oneSaved : List Event :=
  oneGenerated ++ [.call (callIn "srrdb" (indexOn false "i" "t" ["id"]))]

theorem oneSaved_continues : (Session.after oneSaved).Continues id := by
  have hfit : ∀ entry ∈ (Session.after oneSaved).log, entry.Fits := by decide +kernel
  exact (counters_continue_iff hfit id).mpr (by decide +kernel)

end Concrete

end Srrdb.Server

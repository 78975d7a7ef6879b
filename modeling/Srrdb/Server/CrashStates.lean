/-
Srrdb.Server.CrashStates — the files a crash leaves.

Every durable step of a recoverable statement keeps the data directory settled
beside the log: the entry is appended before a file changes, a table file is
written after the log has overwritten the rows of the table (or while there are
none), and a catalog is saved after its entry. So the files are settled
wherever the statement is stopped (`call_crash`).
-/
import Srrdb.Server.LoggedChanges

namespace Srrdb.Server

open Srrdb.Engine Srrdb.Sql Srrdb.Lib

section Theory

variable [Host] [Bincode] {bare : Prop}

/-! ## Settled servers -/

/-- The files of the server are settled beside its log. -/
def FilesSettled (bare : Prop) (e : Executor) : Prop :=
  ∃ p, e.persistence = some p ∧ Settled bare p e.wal

/-- A change of the memory, or an append. -/
theorem FilesSettled.grown {e e' : Executor} (h : FilesSettled bare e)
    (hp : e'.persistence = e.persistence) (hwal : e.wal <+: e'.wal) : FilesSettled bare e' := by
  obtain ⟨p, hfiles, hsettled⟩ := h
  obtain ⟨log', hlog⟩ := hwal
  exact ⟨p, hp.trans hfiles, hlog ▸ hsettled.append log'⟩

theorem FilesSettled.append {e : Executor} (h : FilesSettled bare e) (env : Env)
    (entry : WalEntry) : FilesSettled bare (e.append env entry) :=
  h.grown rfl (List.prefix_append _ _)

/-- A write that keeps the data directory settled. -/
theorem FilesSettled.persist {e : Executor} (h : FilesSettled bare e)
    {f : Persistence → Persistence} (hf : ∀ p, Settled bare p e.wal → Settled bare (f p) e.wal) :
    FilesSettled bare (e.persist f) := by
  obtain ⟨p, hfiles, hsettled⟩ := h
  exact ⟨f p, by simp [hfiles], hf p hsettled⟩

theorem FilesSettled.save {e : Executor} (h : FilesSettled bare e)
    (hc : Follows e.catalog.value e.wal) : FilesSettled bare e.save := by
  refine h.persist fun p hp => ?_
  split
  · exact hp
  · exact hp.saveCatalog hc

theorem FilesSettled.saveTable {e : Executor} (h : FilesSettled bare e) {tableName : String}
    (hfile : isFileName (normalize tableName) = true)
    (hrows : overwritten tableName e.wal = true ∨ rowValues e.storage.value tableName = []) :
    FilesSettled bare (e.saveTable tableName) := by
  refine h.persist fun p hp => ?_
  split
  · exact hp
  · exact hp.tableFiles hfile hrows

theorem steady_filesSettled : Steady (FilesSettled bare) where
  poisonCatalog _ he := he
  poisonStorage _ he := he

/-! ## Sections that read -/

section Reads

variable {α β : Type} {P : Executor → Prop} {e : Executor}

omit [Host] [Bincode] in
/-- A section that reads the catalog, and what follows it. -/
theorem during_readCatalog {f : Catalog → Except String α} {k : α → Exec β} (he : P e)
    (hk : ∀ a, e.catalog.poisoned = false → f e.catalog.value = .ok a →
      Handler.During P (k a) e) : Handler.During P (readCatalog f >>= k) e := by
  have hsame : P ((readCatalog f).run e).2 := by
    rw [run_readCatalog_snd]
    exact he
  refine Handler.during_bind.mpr ⟨Handler.during_sec.mpr ⟨he, hsame⟩, fun a ha => ?_⟩
  rw [run_readCatalog_snd]
  cases hc : e.catalog.poisoned with
  | true =>
    rw [run_readCatalog_poisoned hc] at ha
    cases ha
  | false =>
    rw [run_readCatalog f hc] at ha
    cases hf : f e.catalog.value with
    | error msg =>
      rw [hf] at ha
      cases ha
    | ok b =>
      rw [hf] at ha
      cases ha
      exact hk _ hc hf

omit [Host] [Bincode] in
theorem during_liftOutcome {o : Outcome α} {k : α → Exec β} (he : P e)
    (hk : ∀ a, o = .ok a → Handler.During P (k a) e) :
    Handler.During P (liftOutcome o >>= k) e := by
  cases o with
  | error x => exact Handler.during_bind_error (Handler.run_throw x e) (Handler.during_throw.mpr he)
  | ok a => exact Handler.during_bind_ok (Handler.run_pure a e) (Handler.during_pure.mpr he) (hk a rfl)

omit [Bincode] in
/-- What DELETE and UPDATE read of the catalog. -/
theorem readTable_ok {c : Catalog} {db tableName : String} {read : List Column × List IndexDef}
    (h : (do
      let tableDef ← c.getTable db tableName
      pure (tableDef.columns, c.getTableIndexes db tableName) : Except String _) = .ok read) :
    ∃ tableDef, c.getTable db tableName = .ok tableDef ∧
      (tableDef.columns, c.getTableIndexes db tableName) = read := by
  cases ht : c.getTable db tableName with
  | error msg =>
    rw [ht] at h
    cases h
  | ok tableDef =>
    rw [ht] at h
    exact ⟨tableDef, rfl, Except.ok.inj h⟩

omit [Host] [Bincode] in
/-- A question to the catalog, and what follows either answer. -/
theorem during_askCatalog_ite {f : Catalog → Bool} {h k : Exec α} (he : P e)
    (hyes : (!e.catalog.poisoned && f e.catalog.value) = true → Handler.During P h e)
    (hno : (!e.catalog.poisoned && f e.catalog.value) = false → Handler.During P k e) :
    Handler.During P (do if ← askCatalog f then h else k) e := by
  refine Handler.during_bind_ok (run_askCatalog f e) (Handler.during_sec.mpr ⟨he, he⟩) ?_
  cases hanswer : !e.catalog.poisoned && f e.catalog.value with
  | true => exact hyes hanswer
  | false => exact hno hanswer

omit [Host] [Bincode] in
/-- Under IF NOT EXISTS a statement that is not skipped runs as without it. -/
theorem during_ifNotExists {ifNotExists : Bool} {f : Catalog → Bool} {h : Exec ExecuteResult}
    (he : P e) (hh : (ifNotExists && !e.catalog.poisoned && f e.catalog.value) = false →
      Handler.During P h e) :
    Handler.During P (do
      if ifNotExists then
        if ← askCatalog f then pure .ok else h
      else h) e := by
  cases ifNotExists with
  | false => exact hh rfl
  | true =>
    exact during_askCatalog_ite he (fun _ => Handler.during_pure.mpr he) fun hno =>
      hh (by simpa using hno)

omit [Host] [Bincode] in
/-- Under IF EXISTS a statement that is not skipped runs as without it. -/
theorem during_ifExists {ifExists : Bool} {f : Catalog → Bool} {h : Exec ExecuteResult}
    (he : P e) (hh : (ifExists && !(!e.catalog.poisoned && f e.catalog.value)) = false →
      Handler.During P h e) :
    Handler.During P (do
      if ifExists then
        if ← askCatalog f then h else pure .ok
      else h) e := by
  cases ifExists with
  | false => exact hh rfl
  | true =>
    exact during_askCatalog_ite he (fun hyes => hh (by simpa using hyes)) fun _ =>
      Handler.during_pure.mpr he

end Reads

/-! ## Catalogs that are saved -/

/-- A statement that changes the catalog and saves it. -/
theorem saved_crash {h : Exec Unit} (hkeeps : Handler.Keeps (FilesSettled bare) h) {e : Executor}
    (he : FilesSettled bare e) {r : ExecuteResult}
    (htracked : Tracked (Handler.run (do h; save; pure r) e).2) :
    Handler.During (FilesSettled bare) (do h; save; pure r) e := by
  refine Handler.during_bind.mpr ⟨hkeeps.during he, fun a ha => ?_⟩
  have hrun : h.run e = (.ok a, (h.run e).2) := Prod.ext ha rfl
  rw [Handler.run_bind_ok hrun] at htracked
  have hchanged : FilesSettled bare (h.run e).2 := hkeeps.run he
  have hsaved : FilesSettled bare (h.run e).2.save := hchanged.save htracked.follows
  exact Handler.during_bind_ok run_save (Handler.during_sec.mpr ⟨hchanged, hsaved⟩)
    (Handler.during_pure.mpr hsaved)

variable [ExprDebug]

theorem createTable_crash {env : Env} {db : String} {ct : CreateTable} {e : Executor}
    (he : FilesSettled bare e) (htracked : Tracked ((executeCreateTable env db ct).run e).2) :
    Handler.During (FilesSettled bare) (executeCreateTable env db ct) e := by
  refine saved_crash (keeps_catalogSection steady_filesSettled fun e he => ?_) he htracked
  exact createTableSection_keeps env db _ (fun e he => he.append env _)
    (fun e c he => he.grown rfl List.prefix_rfl) he

omit [ExprDebug] in
theorem database_crash {change : Catalog → Except String Catalog} {e : Executor}
    (he : FilesSettled bare e)
    (htracked : Tracked
      (Handler.run (do writeCatalog change; save; pure ExecuteResult.ok) e).2) :
    Handler.During (FilesSettled bare) (do writeCatalog change; save; pure ExecuteResult.ok) e :=
  saved_crash (keeps_writeCatalog steady_filesSettled fun _ _ he _ => he.grown rfl List.prefix_rfl)
    he htracked

omit [ExprDebug] in
/-- DROP TABLE: the log, the memory, the table file, the catalog. -/
theorem dropTable_crash {env : Env} {db tableName : String} {e : Executor}
    (he : FilesSettled bare e) (hhome : HomeTables e.catalog.value)
    (htracked : Tracked ((executeDropTable env db tableName).run e).2) :
    Handler.During (FilesSettled bare) (executeDropTable env db tableName) e := by
  unfold executeDropTable at htracked ⊢
  generalize toLowercase tableName = tn at htracked ⊢
  have happended := he.append env (.dropTable tn)
  refine Handler.during_bind_ok (run_logWal env _) (Handler.during_sec.mpr ⟨he, happended⟩) ?_
  rw [Handler.run_bind_ok (run_logWal env _)] at htracked
  have hdropped : FilesSettled bare
      ((Handler.sec (dropTableSection db tn) : Exec Unit).run (e.append env (.dropTable tn))).2 :=
    dropTableSection_keeps steady_filesSettled db tn (fun e c he => he.grown rfl List.prefix_rfl)
      (fun e he => he.grown rfl List.prefix_rfl) happended
  refine Handler.during_bind.mpr ⟨Handler.during_sec.mpr ⟨happended, hdropped⟩, fun a ha => ?_⟩
  -- the table was there
  have hfile : isFileName (normalize tn) = true := by
    cases hdrop : e.catalog.value.dropTable db tn with
    | ok c =>
      have hexists := Catalog.dropTable_isOk.mp ⟨c, hdrop⟩
      rw [Catalog.tableExists_eq, Option.isSome_iff_exists] at hexists
      obtain ⟨t, ht⟩ := hexists
      exact (hhome.found ht).2
    | error msg =>
      simp only [Handler.run_sec, dropTableSection, lockCatalog, Executor.append_catalog,
        hdrop] at ha
      split at ha <;> cases ha
  obtain ⟨x, hrun⟩ : ∃ x, (Handler.sec (dropTableSection db tn) : Exec Unit).run
      (e.append env (.dropTable tn)) = (.ok a, x) := ⟨_, Prod.ext ha rfl⟩
  rw [Handler.run_bind_ok hrun] at htracked
  rw [hrun] at hdropped ⊢
  -- from here on the catalog and the log are those at the end
  have hfollows : Follows x.catalog.value x.wal := by
    have hsame : Handler.Keeps (fun y => y.catalog.value = x.catalog.value ∧ y.wal = x.wal)
        (do dropTableFiles tn; pure ExecuteResult.ok) :=
      (dropTableFiles_keeps ⟨fun _ h => h, fun _ h => h⟩ tn (fun _ h => h) fun _ h => h).bind
        fun _ => Handler.keeps_pure _
    obtain ⟨hcatalog, hwal⟩ := hsame.run (s := x) ⟨rfl, rfl⟩
    rw [← hcatalog, ← hwal]
    exact htracked.follows
  have hkeeps : Handler.Keeps
      (fun y => FilesSettled bare y ∧ Follows y.catalog.value y.wal)
      (do dropTableFiles tn; pure ExecuteResult.ok) := by
    refine (dropTableFiles_keeps ⟨fun _ h => h, fun _ h => h⟩ tn (fun y hy => ?_)
      fun y hy => ?_).bind fun _ => Handler.keeps_pure _
    · exact ⟨hy.1.persist fun p hp => hp.removeTableData hfile, hy.2⟩
    · exact ⟨hy.1.persist fun p hp => (hp.saveCatalog hy.2).removeIndexFiles tn, hy.2⟩
  exact (hkeeps.during ⟨hdropped, hfollows⟩).imp fun _ h => h.1

/-! ## Rows -/

/-- INSERT into a table that the log has overwritten. Where it does not get to
storing rows it writes nothing. -/
theorem insert_crash {env : Env} {db tableName : String} {cols : List String}
    {source : Option Query} {e : Executor} (he : FilesSettled bare e)
    (hhome : HomeTables e.catalog.value)
    (hover : e.catalog.poisoned = false → ∀ tableDef rows,
      e.catalog.value.getTable db tableName = .ok tableDef →
      sourceRows tableDef.columns cols source = .ok rows → Wide tableDef.columns rows →
      overwritten tableName e.wal = true) :
    Handler.During (FilesSettled bare) (executeInsert env db tableName cols source) e := by
  refine during_readCatalog he fun tableDef hc ht => during_liftOutcome he fun rows hs => ?_
  have hs : sourceRows tableDef.columns cols source = .ok rows := by
    cases hrows : sourceRows tableDef.columns cols source with
    | error msg =>
      rw [hrows] at hs
      cases hs
    | ok rows' =>
      rw [hrows] at hs
      cases hs
      rfl
  have hfill : Handler.Keeps (FilesSettled bare) (fillSection env tableName tableDef.columns rows) :=
    keeps_catalogSection steady_filesSettled fun e he => he.grown rfl List.prefix_rfl
  refine Handler.during_bind.mpr ⟨hfill.during he, fun a ha => ?_⟩
  rcases hf : fillRows env.now tableName tableDef.columns 0 rows 0 e.catalog.value with
    ⟨x | ⟨filled, last⟩, c⟩
  · obtain rfl : x = .panic := fillRows_error (congrArg Prod.fst hf)
    have hrun : (fillSection env tableName tableDef.columns rows).run e =
        (.error .panic, (e.setCatalog c).poisonCatalog) := run_catalogSection_panic hc (by rw [hf])
    rw [hrun] at ha
    cases ha
  · have hrun : (fillSection env tableName tableDef.columns rows).run e =
        (.ok (filled, last), e.setCatalog c) := run_catalogSection_ok hc (by rw [hf])
    rw [hrun] at ha ⊢
    cases ha
    -- the table is overwritten before any file changes, and stays so
    have hfile := (hhome.found (Catalog.getTable_ok_iff.mp ht)).2
    have hstart := hover hc tableDef rows ht hs (fillRows_eq_ok hf).1
    have htail := insertTail_keeps
      (I := fun x => FilesSettled bare x ∧ overwritten tableName x.wal = true)
      ⟨fun _ h => h, fun _ h => h⟩ env db tableName filled
      (fun x hx => ⟨hx.1.append env _, by
        rw [Executor.append_wal, overwritten_append, hx.2, Bool.true_or]⟩)
      (fun x s hx _ => ⟨hx.1.grown rfl List.prefix_rfl, hx.2⟩)
      (fun x hx => ⟨hx.1.saveTable hfile (.inl hx.2), hx.2⟩) tableDef.columns last
    have hready : FilesSettled bare (e.setCatalog c) ∧ overwritten tableName (e.setCatalog c).wal = true :=
      ⟨he.grown rfl List.prefix_rfl, hstart⟩
    exact (htail.during hready).imp fun _ h => h.1

/-- DELETE and UPDATE log a snapshot before they write the table file, unless
they have selected nothing. -/
theorem change_crash {env : Env} {tableName : String} {columns : List Column}
    {selection : Option Expr} {change : Storage → List Row → Storage}
    {rewrite : List Row → Table → Table} (hrw : Rewrites tableName change rewrite)
    (hok : env.appendOk = true) (hfile : isFileName (normalize tableName) = true) {e : Executor}
    (he : FilesSettled bare e) (hcovered : Covered tableName e) :
    Handler.During (FilesSettled bare) (changeTail env tableName columns selection change) e := by
  have hkeeps : Handler.Keeps (fun x => FilesSettled bare x ∧ Covered tableName x)
      (changeTail env tableName columns selection change) := by
    refine changeTail_keeps ⟨fun _ h => h, fun _ h => h⟩ env tableName (fun x t rows ht hx => ?_)
      fun x hx => ⟨hx.1.saveTable hfile hx.2, hx.2⟩
    cases rows with
    | nil =>
      refine ⟨hx.1.grown rfl List.prefix_rfl, hx.2.imp id fun hnil => ?_⟩
      exact (rowValues_sameRows (hrw.sameRows_nil ht) tableName).trans hnil
    | cons row rest =>
      refine ⟨hx.1.grown rfl (List.prefix_append _ _), .inl ?_⟩
      simp [logSnapshot, Env.logged, hok, overwritten, redoLog, redo, Redo.overwrites]
  exact (hkeeps.during ⟨he, hcovered⟩).imp fun _ h => h.1

/-! ## Indexes -/

omit [ExprDebug] in
theorem createIndex_crash {env : Env} {db tableName : String} {ci : CreateIndex} {e : Executor}
    (he : FilesSettled bare e) (hfollows : Follows e.catalog.value e.wal)
    (hfile : isFileName (normalize tableName) = true) (hcovered : Covered tableName e) :
    Handler.During (FilesSettled bare) (executeCreateIndex env db tableName ci) e := by
  have hkeeps : Handler.Keeps
      (fun x => FilesSettled bare x ∧ Covered tableName x ∧ Follows x.catalog.value x.wal)
      (executeCreateIndex env db tableName ci) := by
    refine executeCreateIndex_keeps ⟨fun _ h => h, fun _ h => h⟩ env db tableName ci
      (fun x c hx hc => ⟨hx.1.grown rfl List.prefix_rfl, hx.2.1, hx.2.2.createIndex hc⟩)
      (fun x hx => ⟨hx.1.append env _, hx.2.1.imp (fun hover => ?_) id, hx.2.2.append _⟩)
      (fun x s hx hs => ⟨hx.1.grown rfl List.prefix_rfl, hx.2.1.imp id fun hnil => ?_, hx.2.2⟩)
      (fun x hx => ⟨hx.1.saveTable hfile hx.2.1, hx.2⟩)
      fun x hx => ⟨hx.1.save hx.2.2, hx.2⟩
    · rw [Executor.append_wal, overwritten_append, hover, Bool.true_or]
    · exact (rowValues_sameRows hs tableName).symm.trans hnil
  exact (hkeeps.during ⟨he, hcovered, hfollows⟩).imp fun _ h => h.1

omit [ExprDebug] in
theorem dropIndex_crash {env : Env} {db indexName tableName : String} {e : Executor}
    (he : FilesSettled bare e) :
    Handler.During (FilesSettled bare) (executeDropIndex env db indexName tableName) e := by
  refine (executeDropIndex_keeps steady_filesSettled env db tableName indexName
    (fun x c hx => hx.grown rfl List.prefix_rfl) (fun x hx => hx.append env _)
    (fun x s hx _ => hx.grown rfl List.prefix_rfl) fun x hx => ?_).during he
  exact hx.persist fun p hp => hp.removeIndexData _

/-! ## Every statement -/

/-- Wherever a recoverable statement is stopped, the files are settled. -/
theorem call_crash {e : Executor} (he : FilesSettled bare e) (htracked : Tracked e)
    (hcovered : ∀ name, Covered name e) {call : Call} (h : Recoverable e call) :
    call.program.During (FilesSettled bare) e := by
  obtain ⟨hloggable, hover⟩ := h
  have hafter := htracked.after hloggable
  obtain ⟨env, db, stmt⟩ := call
  have hok : env.appendOk = true := hloggable.1
  show Handler.During (FilesSettled bare) (execute env db stmt) e
  cases stmt with
  | createTable ct =>
    refine during_ifNotExists he fun hskip => ?_
    have hrun := execute_createTable env db ct e
    rw [hskip, if_neg (by decide)] at hrun
    exact createTable_crash he (hrun ▸ hafter)
  | insert ins =>
    exact insert_crash he htracked.home fun hc tableDef rows ht hs hw =>
      hover _ ⟨rfl, hc, tableDef, rows, ht, hs, hw⟩
  | delete del =>
    refine during_readCatalog he fun read hc hread => ?_
    obtain ⟨tableDef, ht, rfl⟩ := readTable_ok hread
    exact change_crash (deleteRows_rewrites _ _ _) hok
      (htracked.home.found (Catalog.getTable_ok_iff.mp ht)).2 he (hcovered _)
  | update table assignments selection =>
    refine during_readCatalog he fun read hc hread => ?_
    obtain ⟨tableDef, ht, rfl⟩ := readTable_ok hread
    refine during_readCatalog he fun assigns _ _ => ?_
    exact change_crash (updateRows_rewrites _ _ _ _) hok
      (htracked.home.found (Catalog.getTable_ok_iff.mp ht)).2 he (hcovered _)
  | drop objectType names ifExists =>
    cases objectType with
    | table =>
      refine during_ifExists he fun hskip => ?_
      have hrun := execute_dropTable env db names ifExists e
      rw [hskip, if_neg (by decide)] at hrun
      exact dropTable_crash he htracked.home (hrun ▸ hafter)
    | database =>
      refine during_ifExists he fun hskip => ?_
      have hrun := execute_dropDatabase env db names ifExists e
      rw [hskip, if_neg (by decide)] at hrun
      exact database_crash he (hrun ▸ hafter)
    | index =>
      refine during_readCatalog he fun tableName hc hfind => ?_
      have hdrop : Handler.During (FilesSettled bare)
          (executeDropIndex env db (firstName names) tableName) e := dropIndex_crash he
      cases ifExists with
      | false => exact hdrop
      | true =>
        exact during_askCatalog_ite he (fun _ => hdrop) fun _ => Handler.during_pure.mpr he
    | other => exact Handler.during_throw.mpr he
  | createDatabase dbName ifNotExists =>
    refine during_ifNotExists he fun hskip => ?_
    have hrun := execute_createDatabase env db dbName ifNotExists e
    rw [hskip, if_neg (by decide)] at hrun
    exact database_crash he (hrun ▸ hafter)
  | createIndex ci =>
    refine during_askCatalog_ite he (fun hyes => ?_) fun _ => Handler.during_throw.mpr he
    rw [Bool.and_eq_true, Catalog.tableExists_eq, Option.isSome_iff_exists] at hyes
    obtain ⟨-, t, ht⟩ := hyes
    exact createIndex_crash he htracked.follows (htracked.home.found ht).2 (hcovered _)
  | query _ | showDatabases | showTables | use _ | explainTable _ | other =>
    exact (execute_readOnly_keeps steady_filesSettled env db rfl).during he

end Theory

end Srrdb.Server

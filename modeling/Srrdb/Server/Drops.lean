/-
Srrdb.Server.Drops — whether DROP does what it reports.

DROP takes the first name of its list and leaves the others alone. DROP INDEX
looks for the index in all tables of the database and removes one; it does so
before it looks at IF EXISTS. A poisoned catalog answers IF EXISTS as if the
table or database were gone, a poisoned storage makes DROP TABLE and DROP
INDEX fail half way. `DropComplete` collects what must be the case for none of
this to show, and `dropsReported_run_iff` says that it is exact.
-/
import Srrdb.Server.IndexNames

namespace Srrdb.Server

open Srrdb.Engine Srrdb.Sql Srrdb.Lib

section Theory

variable [Host]

/-! ## The law -/

/-- The object of a DROP is there. -/
def ObjectExists (c : Catalog) (db : String) : ObjectType → String → Prop
  | .table, name => c.tableExists db name = true
  | .database, name => c.databaseExists name = true
  | .index, name => ∃ key, hasIndex (indexesAt c db key) name = true
  | .other, _ => False

/-- None of the named objects is there. -/
def NoneExists (c : Catalog) (db : String) (kind : ObjectType) (names : List ObjectName) : Prop :=
  ∀ name ∈ names, ¬ ObjectExists c db kind (nameToString name)

omit [Host] in
/-- The first name is one of the list. -/
theorem exists_firstName {names : List ObjectName} (h : names ≠ []) :
    ∃ name ∈ names, nameToString name = firstName names := by
  cases names with
  | nil => exact absurd rfl h
  | cons name rest => exact ⟨name, List.mem_cons_self, rfl⟩

variable [ExprDebug] [Bincode]

/-- If the DROP returns Ok, none of the named objects is there afterwards. With
IF EXISTS it returns Ok, and once more, it changes nothing. -/
structure DropReported (e : Executor) (call : Call) (kind : ObjectType)
    (names : List ObjectName) (ifExists : Bool) : Prop where
  gone : ∀ r, call.result e = .ok r → NoneExists (e.after call).catalog.value call.db kind names
  returns : ifExists = true → ∃ r, call.result e = .ok r
  twice : ifExists = true → names ≠ [] → ∀ env,
    (e.after call).after ⟨env, call.db, call.stmt⟩ = e.after call

/-- A DROP in a database that exists does what it reports. -/
def DropsReported (e : Executor) (call : Call) : Prop :=
  ∀ kind names ifExists, kind ≠ .other → call.stmt = .drop kind names ifExists →
    e.catalog.value.databaseExists call.db = true → DropReported e call kind names ifExists

/-! ## When it holds -/

omit [ExprDebug] [Bincode] in
/-- The index found on the table is the only one in the database with a name
from the list. -/
def OnlyIndex (c : Catalog) (db tableName first : String) (names : List ObjectName) : Prop :=
  ∀ name ∈ names, ∀ (key : String) (i : Nat) (idx : IndexDef),
    (indexesAt c db key)[i]? = some idx → eqIgnoreAsciiCase idx.name (nameToString name) = true →
    key = normalize tableName ∧
      i = (c.getTableIndexes db tableName).findIdx fun x => eqIgnoreAsciiCase x.name first

omit [ExprDebug] [Bincode] in
/-- The DROP names one object, or nothing that is there, and no mutex it needs
is poisoned; DROP INDEX IF EXISTS finds an index. -/
def DropComplete (e : Executor) (env : Env) (db : String) (names : List ObjectName)
    (ifExists : Bool) : ObjectType → Prop
  | .table =>
    if e.catalog.poisoned = false ∧ e.catalog.value.tableExists db (firstName names) = true then
      if e.storage.poisoned = true then ifExists = false
      else ∀ name ∈ names, e.catalog.value.tableExists db (nameToString name) = true →
        SameName (firstName names) (nameToString name)
    else ifExists = true → NoneExists e.catalog.value db .table names
  | .database =>
    if e.catalog.poisoned = false ∧ e.catalog.value.databaseExists (firstName names) = true then
      ∀ name ∈ names, e.catalog.value.databaseExists (nameToString name) = true →
        SameName (firstName names) (nameToString name)
    else ifExists = true → NoneExists e.catalog.value db .database names
  | .index =>
    if e.catalog.poisoned = true then ifExists = false
    else match findIndexTable env db (firstName names) e.catalog.value with
      | none => ifExists = false
      | some tableName =>
        -- the key of the table is a folded name, unless the catalog was made by hand
        if hasIndex (e.catalog.value.getTableIndexes db tableName) (firstName names) = true then
          if e.storage.poisoned = true then ifExists = false
          else OnlyIndex e.catalog.value db tableName (firstName names) names
        else ifExists = true → NoneExists e.catalog.value db .index names
  | .other => True

omit [ExprDebug] [Bincode] in
/-- A DROP in a database that exists is complete. -/
def DropsComplete (e : Executor) (call : Call) : Prop :=
  ∀ kind names ifExists, kind ≠ .other → call.stmt = .drop kind names ifExists →
    e.catalog.value.databaseExists call.db = true →
    DropComplete e call.env call.db names ifExists kind

/-! ## The ways a DROP ends -/

variable {e e' : Executor} {env : Env} {db : String} {kind : ObjectType}
  {names : List ObjectName} {ifExists : Bool}

/-- A DROP that fails does what it reports unless it says IF EXISTS. -/
theorem dropReported_of_error {x : Stop}
    (h : (execute env db (.drop kind names ifExists)).run e = (.error x, e')) :
    DropReported e ⟨env, db, .drop kind names ifExists⟩ kind names ifExists ↔
      ifExists = false := by
  have hresult : (Call.mk env db (.drop kind names ifExists)).result e = .error x :=
    congrArg Prod.fst h
  constructor
  · intro hrep
    by_contra hif
    obtain ⟨r, hr⟩ := hrep.returns (by simpa using hif)
    rw [hresult] at hr
    cases hr
  · rintro rfl
    have hfalse : ¬ false = true := by decide
    refine ⟨fun r hr => ?_, fun hif => absurd hif hfalse, fun hif => absurd hif hfalse⟩
    rw [hresult] at hr
    cases hr

/-- A DROP that returns Ok does what it reports when it leaves nothing behind. -/
theorem dropReported_of_ok {r : ExecuteResult}
    (h : (execute env db (.drop kind names ifExists)).run e = (.ok r, e'))
    (htwice : ifExists = true → ¬ ObjectExists e'.catalog.value db kind (firstName names) →
      ∀ env', ((execute env' db (.drop kind names ifExists)).run e').2 = e') :
    DropReported e ⟨env, db, .drop kind names ifExists⟩ kind names ifExists ↔
      NoneExists e'.catalog.value db kind names := by
  have hresult : (Call.mk env db (.drop kind names ifExists)).result e = .ok r :=
    congrArg Prod.fst h
  have hafter : e.after ⟨env, db, .drop kind names ifExists⟩ = e' := congrArg Prod.snd h
  constructor
  · intro hrep
    have hgone := hrep.gone r hresult
    rwa [hafter] at hgone
  · intro hnone
    refine ⟨fun _ _ => by rwa [hafter], fun _ => ⟨r, hresult⟩, fun hif hnames env' => ?_⟩
    obtain ⟨name, hmem, hfirst⟩ := exists_firstName hnames
    rw [hafter]
    exact htwice hif (hfirst ▸ hnone name hmem) env'

/-- With IF EXISTS a DROP that changes nothing does what it reports when there
is nothing to drop. -/
theorem dropReported_of_skipped {r : ExecuteResult}
    (h : ∀ env, (execute env db (.drop kind names true)).run e = (.ok r, e)) :
    DropReported e ⟨env, db, .drop kind names true⟩ kind names true ↔
      (true = true → NoneExists e.catalog.value db kind names) := by
  rw [dropReported_of_ok (h env) fun _ _ env' => congrArg Prod.snd (h env')]
  exact ⟨fun hnone _ => hnone, fun hnone => hnone rfl⟩

/-! ## DROP TABLE -/

/-- IF EXISTS skips a table that is not there. -/
theorem run_dropTable_missing
    (h : ¬ (e.catalog.poisoned = false ∧
      e.catalog.value.tableExists db (firstName names) = true)) :
    (execute env db (.drop .table names true)).run e = (.ok .ok, e) := by
  rw [execute_dropTable, if_pos]
  cases hc : e.catalog.poisoned with
  | true => rfl
  | false => simpa [hc] using h

omit [ExprDebug] [Bincode] in
/-- The tables that are left when one is dropped. -/
theorem noneExists_dropTable {c c' : Catalog} {first : String}
    (h : c.dropTable db (toLowercase first) = .ok c') :
    NoneExists c' db .table names ↔ ∀ name ∈ names,
      c.tableExists db (nameToString name) = true → SameName first (nameToString name) := by
  have hfold : SameName (toLowercase first) first := normalize_toLowercase _
  refine forall₂_congr fun name _ => ?_
  rw [ObjectExists, Catalog.tableExists_eq, Catalog.findTable_dropTable h]
  by_cases hsame : SameName first (nameToString name)
  · rw [if_pos ⟨rfl, hfold.trans hsame⟩]
    exact iff_of_true (by simp) fun _ => hsame
  · rw [if_neg fun hs => hsame (hfold.symm.trans hs.2)]
    exact ⟨fun hleft hold => absurd hold hleft, fun hall hold => hsame (hall hold)⟩

theorem dropTable_reported_iff :
    DropReported e ⟨env, db, .drop .table names ifExists⟩ .table names ifExists ↔
      DropComplete e env db names ifExists .table := by
  have hfold : SameName (toLowercase (firstName names)) (firstName names) :=
    normalize_toLowercase _
  have hrun := execute_dropTable env db names ifExists e
  have hout := executeDropTable_outcome env db (firstName names) e
  generalize (executeDropTable env db (firstName names)).run e = p at hrun hout
  obtain ⟨r, e'⟩ := p
  rw [DropComplete]
  by_cases hfound : e.catalog.poisoned = false ∧
      e.catalog.value.tableExists db (firstName names) = true
  · rw [if_pos hfound]
    rw [if_neg (by simp [hfound.1, hfound.2])] at hrun
    cases hout with
    | locked hc =>
      rw [hfound.1] at hc
      cases hc
    | rejected hc h =>
      have hmissing := Catalog.dropTable_rejected h
      rw [Catalog.tableExists_sameName rfl hfold, hfound.2] at hmissing
      cases hmissing
    | uncleared hc h hst =>
      rw [if_pos hst]
      exact dropReported_of_error hrun
    | @dropped c hc h hst =>
      rw [if_neg (by simp [hst]), dropReported_of_ok hrun]
      · exact noneExists_dropTable h
      · intro hif hmissing env'
        subst hif
        exact congrArg Prod.snd (run_dropTable_missing fun h => hmissing h.2)
  · rw [if_neg hfound]
    cases ifExists with
    | true => exact dropReported_of_skipped fun env' => run_dropTable_missing hfound
    | false =>
      rw [if_neg (by simp)] at hrun
      cases hout with
      | locked hc =>
        rw [dropReported_of_error hrun]
        simp
      | rejected hc h =>
        rw [dropReported_of_error hrun]
        simp
      | @uncleared c hc h hst | @dropped c hc h hst =>
        have hexists := Catalog.dropTable_isOk.mp ⟨c, h⟩
        rw [Catalog.tableExists_sameName rfl hfold] at hexists
        exact absurd ⟨hc, hexists⟩ hfound

/-! ## DROP DATABASE -/

theorem run_dropDatabase_missing
    (h : ¬ (e.catalog.poisoned = false ∧
      e.catalog.value.databaseExists (firstName names) = true)) :
    (execute env db (.drop .database names true)).run e = (.ok .ok, e) := by
  rw [execute_dropDatabase, if_pos]
  cases hc : e.catalog.poisoned with
  | true => rfl
  | false => simpa [hc] using h

omit [ExprDebug] [Bincode] in
theorem removeDatabase_isSome {c : Catalog} {name : String} (h : c.databaseExists name = true) :
    ∃ c', c.removeDatabase name = some c' := by
  rw [Catalog.removeDatabase, if_pos h]
  exact ⟨_, rfl⟩

omit [ExprDebug] in
theorem run_executeDropDatabase {c : Catalog} {name : String} (hc : e.catalog.poisoned = false)
    (h : e.catalog.value.removeDatabase name = some c) :
    (executeDropDatabase name).run e = (.ok .ok, (e.setCatalog c).save) := by
  unfold executeDropDatabase
  rw [Handler.run_bind_ok (run_writeCatalog_ok hc (by rw [h]))]
  rfl

omit [ExprDebug] in
theorem run_executeDropDatabase_missing {name : String}
    (h : ¬ (e.catalog.poisoned = false ∧ e.catalog.value.databaseExists name = true)) :
    ∃ x, (executeDropDatabase name).run e = (.error x, e) := by
  unfold executeDropDatabase
  cases hc : e.catalog.poisoned with
  | true => exact ⟨_, Handler.run_bind_error (run_writeCatalog_poisoned hc)⟩
  | false =>
    have hnone : e.catalog.value.removeDatabase name = none := by
      rw [Catalog.removeDatabase, if_neg fun hexists => h ⟨hc, hexists⟩]
    exact ⟨_, Handler.run_bind_error (run_writeCatalog_failed hc (by rw [hnone]))⟩

omit [ExprDebug] [Bincode] in
/-- The databases that are left when one is dropped. -/
theorem noneExists_removeDatabase {c c' : Catalog} {first : String}
    (h : c.removeDatabase first = some c') :
    NoneExists c' db .database names ↔ ∀ name ∈ names,
      c.databaseExists (nameToString name) = true → SameName first (nameToString name) := by
  refine forall₂_congr fun name _ => ?_
  show ¬ (c'.getDatabase (nameToString name)).isSome = true ↔ _
  rw [Catalog.getDatabase_removeDatabase h]
  by_cases hsame : SameName first (nameToString name)
  · rw [if_pos hsame]
    exact iff_of_true (by simp) fun _ => hsame
  · rw [if_neg hsame]
    exact ⟨fun hleft hold => absurd hold hleft, fun hall hold => hsame (hall hold)⟩

theorem dropDatabase_reported_iff :
    DropReported e ⟨env, db, .drop .database names ifExists⟩ .database names ifExists ↔
      DropComplete e env db names ifExists .database := by
  have hrun := execute_dropDatabase env db names ifExists e
  rw [DropComplete]
  by_cases hfound : e.catalog.poisoned = false ∧
      e.catalog.value.databaseExists (firstName names) = true
  · obtain ⟨c, h⟩ := removeDatabase_isSome hfound.2
    rw [if_neg (by simp [hfound.1, hfound.2]), run_executeDropDatabase hfound.1 h] at hrun
    rw [if_pos hfound, dropReported_of_ok hrun]
    · exact noneExists_removeDatabase h
    · intro hif hmissing env'
      subst hif
      exact congrArg Prod.snd (run_dropDatabase_missing fun h => hmissing h.2)
  · rw [if_neg hfound]
    cases ifExists with
    | true => exact dropReported_of_skipped fun env' => run_dropDatabase_missing hfound
    | false =>
      obtain ⟨x, hfailed⟩ := run_executeDropDatabase_missing hfound
      rw [if_neg (by simp), hfailed] at hrun
      rw [dropReported_of_error hrun]
      simp

/-! ## DROP INDEX -/

omit [ExprDebug] [Bincode] in
/-- The indexes that are left when one is dropped. -/
theorem indexesAt_dropIndex {c c' : Catalog} {indexName tableName : String}
    (h : c.dropIndex db indexName tableName = .ok c') (key : String) :
    indexesAt c' db key = if key = normalize tableName then
        (indexesAt c db key).eraseIdx ((c.getTableIndexes db tableName).findIdx fun x =>
          eqIgnoreAsciiCase x.name indexName)
      else indexesAt c db key := by
  split
  · next hkey =>
    have hdrop := Catalog.getTableIndexes_dropIndex h db tableName
    rw [if_pos ⟨rfl, rfl⟩] at hdrop
    rw [hkey]
    exact hdrop
  · next hkey =>
    obtain ⟨d, pos, hd, hpos, rfl⟩ := Catalog.dropIndex_ok h
    rw [indexesAt_setDatabase, if_pos rfl, indexesAt_of_database hd, Std.ExtTreeMap.getD_insert,
      if_neg (by simpa using Ne.symm hkey)]

omit [ExprDebug] [Bincode] in
theorem noneExists_dropIndex {c c' : Catalog} {first tableName : String}
    (h : c.dropIndex db first tableName = .ok c') :
    NoneExists c' db .index names ↔ OnlyIndex c db tableName first names := by
  have hleft : ∀ key idx, idx ∈ indexesAt c' db key ↔ ∃ i, (indexesAt c db key)[i]? = some idx ∧
      ¬ (key = normalize tableName ∧ i = (c.getTableIndexes db tableName).findIdx fun x =>
        eqIgnoreAsciiCase x.name first) := by
    intro key idx
    rw [indexesAt_dropIndex h]
    split
    · next hkey =>
      rw [List.mem_eraseIdx_iff_getElem?]
      simp [hkey, and_comm]
    · next hkey => simp [hkey, List.mem_iff_getElem?]
  refine forall₂_congr fun name _ => ?_
  constructor
  · intro hnone key i idx hidx heq
    by_contra hother
    exact hnone ⟨key, hasIndex_iff.mpr ⟨idx, (hleft key idx).mpr ⟨i, hidx, hother⟩, heq⟩⟩
  · rintro honly ⟨key, hkey⟩
    obtain ⟨idx, hmem, heq⟩ := hasIndex_iff.mp hkey
    obtain ⟨i, hidx, hother⟩ := (hleft key idx).mp hmem
    exact hother (honly key i idx hidx heq)

omit [ExprDebug] [Bincode] in
/-- An index that is not there is not found, in any order. -/
theorem findIndexTable_eq_none {c : Catalog} {name : String}
    (h : ¬ ObjectExists c db .index name) (env : Env) : findIndexTable env db name c = none := by
  unfold findIndexTable
  cases hd : c.getDatabase db with
  | none => rfl
  | some d =>
    refine List.find?_eq_none.mpr fun key _ hkey => h ⟨key, ?_⟩
    rwa [indexesAt_of_database hd]

/-- DROP INDEX of an index that is not there changes nothing. -/
theorem after_dropIndex_missing
    (h : ¬ ObjectExists e.catalog.value db .index (firstName names)) (env : Env) :
    ((execute env db (.drop .index names ifExists)).run e).2 = e := by
  rw [execute_dropIndex, findIndexTable_eq_none h]
  split <;> rfl

theorem dropIndex_reported_iff :
    DropReported e ⟨env, db, .drop .index names ifExists⟩ .index names ifExists ↔
      DropComplete e env db names ifExists .index := by
  have hrun := execute_dropIndex env db names ifExists e
  rw [DropComplete]
  by_cases hc : e.catalog.poisoned = true
  · rw [if_pos hc] at hrun ⊢
    exact dropReported_of_error hrun
  · rw [if_neg hc] at hrun ⊢
    cases hfind : findIndexTable env db (firstName names) e.catalog.value with
    | none =>
      rw [hfind] at hrun
      exact dropReported_of_error hrun
    | some tableName =>
      rw [hfind] at hrun
      simp only at hrun ⊢
      have hout := executeDropIndex_outcome env db (firstName names) tableName e
      generalize (executeDropIndex env db (firstName names) tableName).run e = p at hrun hout
      obtain ⟨r, e'⟩ := p
      by_cases hhas : hasIndex (e.catalog.value.getTableIndexes db tableName)
          (firstName names) = true
      · rw [if_pos hhas]
        rw [if_neg (by simp [hhas])] at hrun
        cases hout with
        | locked hc' => exact absurd hc' hc
        | rejected _ h => exact absurd hhas (Catalog.dropIndex_rejected h)
        | undropped _ h hst =>
          rw [if_pos hst]
          exact dropReported_of_error hrun
        | dropped _ h hst =>
          rw [if_neg (by simp [hst]), dropReported_of_ok hrun]
          · exact noneExists_dropIndex h
          · exact fun _ hmissing env' => after_dropIndex_missing hmissing env'
      · rw [if_neg hhas]
        cases ifExists with
        | true =>
          rw [if_pos (by simp [hhas])] at hrun
          rw [dropReported_of_ok hrun fun _ hmissing env' => after_dropIndex_missing hmissing env']
          exact ⟨fun hnone _ => hnone, fun hnone => hnone rfl⟩
        | false =>
          rw [if_neg (by simp)] at hrun
          cases hout with
          | locked hc' => exact absurd hc' hc
          | rejected _ h =>
            rw [dropReported_of_error hrun]
            simp
          | undropped _ h | dropped _ h => exact absurd (Catalog.dropIndex_isOk.mp ⟨_, h⟩) hhas

/-! ## Runs -/

/-- In a run, every DROP does what it reports exactly when each names one object
at most, finds no mutex it needs poisoned and, if it is a DROP INDEX IF EXISTS,
finds an index. -/
theorem dropsReported_run_iff (e : Executor) (calls : List Call) :
    Every Executor.after DropsReported e calls ↔ Every Executor.after DropsComplete e calls := by
  refine Every.congr fun e call => forall₃_congr fun kind names ifExists => ?_
  obtain ⟨env, db, stmt⟩ := call
  refine forall₃_congr fun hkind hstmt _ => ?_
  obtain rfl : stmt = .drop kind names ifExists := hstmt
  cases kind with
  | table => exact dropTable_reported_iff
  | database => exact dropDatabase_reported_iff
  | index => exact dropIndex_reported_iff
  | other => exact absurd rfl hkind

end Theory

/-! ## On a concrete server -/

section Concrete

attribute [local instance] asciiHost plainDebug bincode1

/-- A fresh server after `CREATE TABLE t (a INT)` and `CREATE TABLE u (a INT)`. -/
def tablesTU : Executor :=
  ((Executor.ofMemory .new none).after (callIn "srrdb" (intTable "t" ["a"]))).after
    (callIn "srrdb" (intTable "u" ["a"]))

/-- `DROP TABLE t, u` returns Ok and leaves `u`; `DROP INDEX IF EXISTS i` fails
where there is no such index. -/
theorem tablesTU_drops_not_reported :
    Reachable tablesTU ∧
      ¬ DropsReported tablesTU (callIn "srrdb" (.drop .table [["t"], ["u"]] false)) ∧
      ¬ DropsReported tablesTU (callIn "srrdb" (.drop .index [["i"]] true)) := by
  have hdb : tablesTU.catalog.value.databaseExists "srrdb" = true := by decide +kernel
  refine ⟨((Reachable.fresh none).after _).after _, fun h => ?_, fun h => ?_⟩
  · have hresult : (callIn "srrdb" (.drop .table [["t"], ["u"]] false)).result tablesTU =
        .ok .ok := by decide +kernel
    have hleft : (tablesTU.after (callIn "srrdb"
        (.drop .table [["t"], ["u"]] false))).catalog.value.tableExists "srrdb" "u" = true := by
      decide +kernel
    exact (h _ _ _ (by decide) rfl hdb).gone _ hresult ["u"] (by decide) hleft
  · have hresult : (callIn "srrdb" (.drop .index [["i"]] true)).result tablesTU =
        failed "Unknown index: i" := by decide +kernel
    obtain ⟨r, hr⟩ := (h _ _ _ (by decide) rfl hdb).returns rfl
    rw [hresult] at hr
    cases hr

end Concrete

end Srrdb.Server

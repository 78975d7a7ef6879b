/-
Srrdb.Server.LogOrder — the log and the rows when statements run at the same
time.

An INSERT appends its entry before it stores its rows; in between, the rows
are in the log and not in memory. UPDATE and DELETE append a snapshot of the
whole table while they hold the storage. `Balanced` is the invariant: replaying
the log gives the rows in memory and those the unfinished INSERTs still have to
store. Only a snapshot logged in between (`Overtakes`) breaks it, since its
replay throws away rows that memory is yet to get.
-/
import Srrdb.Engine.Places
import Srrdb.Lib.Run
import Srrdb.Server.Reachable

namespace Srrdb.Server

open Srrdb.Engine Srrdb.Sql Srrdb.Lib

/-! ## Row values -/

section Values

variable [Host]

/-- The values of the rows stored under a name. -/
def rowValues (s : Storage) (name : String) : List (List Value) :=
  (s.table name).rows.map (·.values)

/-- The rows that go to a table. -/
def rowsFor (name tableName : String) (rows : List Row) : List Row :=
  if SameName tableName name then rows else []

theorem rowValues_sameRows {s s' : Storage} (h : s.SameRows s') (name : String) :
    rowValues s name = rowValues s' name := by
  rw [rowValues, rowValues, Storage.table_congr h.tables]

/-- New rows are added to those of their table. -/
theorem rowValues_insertRows {s : Storage} (hs : s.Sound) (tableName : String) {rows : List Row}
    (hz : ∀ row ∈ rows, row.id = 0) (name : String) :
    (rowValues (s.insertRows tableName rows).2 name).Perm
      ((rowsFor name tableName rows).map (·.values) ++ rowValues s name) := by
  rw [rowValues, Storage.table_insertRows, rowsFor]
  split
  · next hname =>
    rw [rowValues, ← Storage.table_sameName s hname]
    exact Storage.insertLoop_rows_perm hz (hs tableName)
  · exact .refl _

/-- The replay of a snapshot puts its rows in place of the table, whatever was
there. -/
theorem rowValues_restoreRows (s : Storage) (tableName : String) {t : Table} {next : Nat}
    (ht : t.Sound next) (name : String) :
    (rowValues (s.restoreRows tableName t.rows) name).Perm
      (if SameName tableName name then t.rows.map (·.values) else rowValues s name) := by
  have hcleared : ∀ name, (s.modifyTable tableName fun _ => ∅).table name =
      if SameName tableName name then ∅ else s.table name :=
    Storage.table_modifyTable s tableName rfl
  unfold Storage.restoreRows
  simp only
  cases hrows : t.rows.isEmpty with
  | true =>
    rw [if_pos rfl, rowValues, hcleared]
    split
    · rw [List.isEmpty_iff.mp hrows, Table.rows_empty]
    · exact .refl _
  | false =>
    rw [if_neg (by decide), rowValues, Storage.table_insertRows]
    split
    · rw [hcleared, if_pos rfl]
      have hnz : ∀ row ∈ t.rows, row.id ≠ 0 := fun row hr =>
        Nat.ne_of_gt (ht.id_pos row.id row (ht.keyed.mem_rows.mp hr))
      have hperm := Storage.insertLoop_explicit hnz ht.keyed.nodup_rows
        (fun _ _ => Std.ExtTreeMap.getElem?_empty)
        ((s.modifyTable tableName fun _ => ∅).nextId tableName)
      rw [Table.rows_empty, List.append_nil] at hperm
      exact hperm.map _
    · next hname =>
      rw [hcleared, if_neg hname]
      exact .refl _

end Values

section Theory

variable [Host] [ExprDebug] [Bincode]

/-! ## Rows on their way -/

omit [ExprDebug] [Bincode] in
/-- The rows for a table that an INSERT has logged and is to store. -/
def unstored (name : String) : Place → List Row
  | .storing _ tableName _ rows _ => rowsFor name tableName rows
  | _ => []

omit [ExprDebug] [Bincode] in
theorem unstored_sameName {name name' : String} (h : SameName name name') (q : Place) :
    unstored name q = unstored name' q := by
  cases q <;> first | rfl | (unfold unstored rowsFor SameName; rw [h])

omit [Host] [ExprDebug] [Bincode] in
/-- The rows an INSERT brings have no ids yet. -/
def NewRows : Place → Prop
  | .filling _ _ _ _ rows | .logging _ _ _ _ rows _ | .storing _ _ _ rows _ =>
    ∀ row ∈ rows, row.id = 0
  | _ => True

/-! ## The log, the rows and what is pending -/

omit [ExprDebug] [Bincode] in
/-- What a replay of the entries logged since `e₀` makes of the memory then. -/
def replayed (e₀ e : Executor) : Memory := e₀.memory.applyAll (e.wal.drop e₀.wal.length)

omit [ExprDebug] [Bincode] in
theorem replayed_append {e₀ e e' : Executor} (hlog : e₀.wal <+: e.wal) {entry : WalEntry}
    (hwal : e'.wal = e.wal ++ [entry]) :
    replayed e₀ e' = ((replayed e₀ e).applyEntry entry).2 := by
  rw [replayed, replayed, hwal, List.drop_append_of_le_length hlog.length_le,
    Memory.applyAll_append]
  rfl

omit [ExprDebug] [Bincode] in
theorem replayed_congr {e₀ e e' : Executor} (hwal : e'.wal = e.wal) :
    replayed e₀ e' = replayed e₀ e := by
  rw [replayed, replayed, hwal]

omit [ExprDebug] [Bincode] in
/-- A replay of the log gives the rows of the table and those still to store. -/
structure Balanced (e₀ : Executor) (name : String) (e : Executor) (pend : List Row) : Prop where
  log : e₀.wal <+: e.wal
  live : e.storage.value.Consistent
  replay : (replayed e₀ e).storage.Consistent
  rows : (rowValues (replayed e₀ e).storage name).Perm
    (pend.map (·.values) ++ rowValues e.storage.value name)

omit [ExprDebug] [Bincode] in
theorem Balanced.perm {e₀ e : Executor} {name : String} {pend pend' : List Row}
    (h : Balanced e₀ name e pend) (hp : pend.Perm pend') : Balanced e₀ name e pend' :=
  ⟨h.log, h.live, h.replay, h.rows.trans ((hp.map _).append_right _)⟩

omit [ExprDebug] [Bincode] in
/-- Neither the log nor the rows change. -/
theorem Balanced.still {e₀ e e' : Executor} {name : String} {pend : List Row}
    (h : Balanced e₀ name e pend) (hwal : e'.wal = e.wal)
    (hrows : e'.storage.value.SameRows e.storage.value) : Balanced e₀ name e' pend := by
  refine ⟨hwal ▸ h.log, hrows.symm.consistent h.live, ?_, ?_⟩
  · rw [replayed_congr hwal]
    exact h.replay
  · rw [replayed_congr hwal, rowValues_sameRows hrows]
    exact h.rows

omit [ExprDebug] [Bincode] in
/-- The entry of a CREATE INDEX is not about rows. -/
theorem Balanced.loggedIndex {e₀ e : Executor} {name : String} {pend : List Row}
    (h : Balanced e₀ name e pend) (env : Env) (db : String) (indexDef : IndexDef) :
    Balanced e₀ name (e.append env (.createIndex db indexDef)) pend := by
  cases hok : env.appendOk with
  | false =>
    refine h.still ?_ (.refl _)
    rw [Executor.append_wal, Env.logged, hok]
    exact List.append_nil _
  | true =>
    have hwal : (e.append env (.createIndex db indexDef)).wal =
        e.wal ++ [.createIndex db indexDef] := by
      rw [Executor.append_wal, Env.logged, if_pos hok]
    have hreplay : (replayed e₀ (e.append env (.createIndex db indexDef))).storage =
        (replayed e₀ e).storage := by
      rw [replayed_append h.log hwal, Memory.applyEntry, Memory.tryCatalog_storage]
    refine ⟨?_, h.live, ?_, ?_⟩
    · rw [hwal]
      exact h.log.trans (List.prefix_append _ _)
    · rw [hreplay]
      exact h.replay
    · rw [hreplay]
      exact h.rows

omit [ExprDebug] [Bincode] in
/-- The append of an INSERT: its rows are pending. -/
theorem Balanced.logged {e₀ e : Executor} {name : String} {pend : List Row}
    (h : Balanced e₀ name e pend) {env : Env} (hok : env.appendOk = true) (tableName : String)
    {rows : List Row} (hz : ∀ row ∈ rows, row.id = 0) :
    Balanced e₀ name (e.append env (.insertRows tableName rows))
      (rowsFor name tableName rows ++ pend) := by
  have hwal : (e.append env (.insertRows tableName rows)).wal =
      e.wal ++ [.insertRows tableName rows] := by
    rw [Executor.append_wal, Env.logged, if_pos hok]
  have hreplay : (replayed e₀ (e.append env (.insertRows tableName rows))).storage =
      ((replayed e₀ e).storage.insertRows tableName rows).2 := by
    rw [replayed_append h.log hwal]
    rfl
  refine ⟨?_, h.live, ?_, ?_⟩
  · rw [hwal]
    exact h.log.trans (List.prefix_append _ _)
  · rw [hreplay]
    exact h.replay.insertRows tableName rows
  · rw [hreplay, List.map_append, List.append_assoc]
    exact (rowValues_insertRows h.replay.sound tableName hz name).trans (h.rows.append_left _)

omit [ExprDebug] [Bincode] in
/-- The store of an INSERT: its rows are no longer pending. -/
theorem Balanced.stored {e₀ e : Executor} {name tableName : String} {rows pend : List Row}
    (h : Balanced e₀ name e (rowsFor name tableName rows ++ pend))
    (hz : ∀ row ∈ rows, row.id = 0) :
    Balanced e₀ name (e.setStorage (e.storage.value.insertRows tableName rows).2) pend := by
  refine ⟨h.log, h.live.insertRows tableName rows, h.replay, ?_⟩
  refine h.rows.trans ?_
  rw [List.map_append]
  have hstore := rowValues_insertRows h.live.sound tableName hz name
  refine List.Perm.trans ?_ (hstore.append_left (pend.map (·.values))).symm
  rw [List.append_assoc]
  exact List.perm_append_comm_assoc _ _ _

omit [ExprDebug] [Bincode] in
/-- The change of rows and its snapshot, with nothing pending for the table. -/
theorem Balanced.changed {e₀ e e' : Executor} {name : String} {pend : List Row}
    (h : Balanced e₀ name e pend) {tableName : String}
    {change : Storage → List Row → Storage} {rewrite : List Row → Table → Table} {table : Table}
    (rows : List Row) (hre : Rewrites tableName change rewrite)
    (hget : e.storage.value.getTable? tableName = some table)
    (hs : e'.storage.value = change e.storage.value rows)
    (hwal : e'.wal = e.wal ++ [.tableSnapshot tableName (e'.storage.value.getRows tableName)])
    (hnone : SameName tableName name → pend = []) : Balanced e₀ name e' pend := by
  have hsound : (rewrite rows table).Sound (e.storage.value.nextId tableName) := by
    refine hre.sound rows table _ ?_
    rw [← Storage.table_of_getTable? hget]
    exact h.live.sound tableName
  have hreplay : (replayed e₀ e').storage =
      (replayed e₀ e).storage.restoreRows tableName (rewrite rows table).rows := by
    rw [replayed_append h.log hwal, hs, hre.getRows hget]
    rfl
  refine ⟨?_, hs ▸ hre.consistent h.live rows, ?_, ?_⟩
  · rw [hwal]
    exact h.log.trans (List.prefix_append _ _)
  · rw [hreplay]
    exact h.replay.restoreRows tableName _
  · rw [hreplay, hs]
    refine (rowValues_restoreRows _ tableName hsound name).trans ?_
    split
    · next hname =>
      rw [hnone hname, rowValues, ← Storage.getRows_eq]
      have hlive : (change e.storage.value rows).getRows name =
          (change e.storage.value rows).getRows tableName := by
        rw [Storage.getRows, Storage.getRows, hname]
      rw [hlive, hre.getRows hget]
      exact .refl _
    · next hname =>
      have hlive : rowValues (change e.storage.value rows) name =
          rowValues e.storage.value name := by
        rw [rowValues_sameRows (hre.sameRows e.storage.value rows) name, rowValues,
          Storage.table_modifyTable _ _ (hre.empty rows), if_neg hname, rowValues]
      rw [hlive]
      exact h.rows

/-! ## Turns -/

/-- The step loses rows: the log does not get what it is about to append, or
it gets a snapshot of a table for which another thread has logged rows and not
stored them. -/
def LosesRows (p : Floor Executor Place) (i : Nat) : Prop :=
  match p.places[i]? with
  | some (.logging env _ _ _ rows _) => env.appendOk = false ∧ rows ≠ []
  | some (.changing env tableName columns _ selection _) =>
    selectedRows p.shared tableName columns selection ≠ [] ∧
      (env.appendOk = false ∨ ∃ q ∈ p.places, unstored tableName q ≠ [])
  | _ => False

/-- The balance after the turn of a thread, given what the others have pending. -/
theorem Balanced.turn {e₀ e e' : Executor} {name : String} {q q' : Place} {rest : List Row}
    (ht : Turns q e q' e') (hnew : NewRows q) (h : Balanced e₀ name e (unstored name q ++ rest))
    (hlog : ∀ {env db tableName columns rows last},
      q = .logging env db tableName columns rows last → env.appendOk = true ∨ rows = [])
    (hchange : ∀ {env tableName columns indexes selection change},
      q = .changing env tableName columns indexes selection change →
      selectedRows e tableName columns selection ≠ [] →
      env.appendOk = true ∧ (SameName tableName name → rest = [])) :
    (∃ x, q' = .over (.error x)) ∨ (NewRows q' ∧ Balanced e₀ name e' (unstored name q' ++ rest)) := by
  cases ht with
  | failed hs hx hwhy => exact .inl ⟨_, rfl⟩
  | duplicate => exact .inl ⟨_, rfl⟩
  | prepared ht hs => exact .inr ⟨sourceRows_id_eq_zero hs, h⟩
  | filled hsup hc => exact .inr ⟨hsup.id_eq_zero hnew, h.still rfl (.refl _)⟩
  | @logged env db tableName columns rows last =>
    refine .inr ⟨hnew, ?_⟩
    rcases hlog rfl with hok | rfl
    · exact h.logged hok tableName hnew
    · cases hok : env.appendOk with
      | true => exact h.logged hok tableName hnew
      | false =>
        have hpend : rowsFor name tableName [] = [] := by
          unfold rowsFor
          split <;> rfl
        show Balanced _ _ _ (rowsFor name tableName [] ++ rest)
        rw [hpend]
        refine h.still ?_ (.refl _)
        rw [Executor.append_wal, Env.logged, hok]
        exact List.append_nil _
  | stored hst => exact .inr ⟨trivial, h.stored hnew⟩
  | indexed hst => exact .inr ⟨trivial, h.still rfl ⟨rfl, rfl⟩⟩
  | @changed env tableName columns indexes selection change _ t rows hst hget hsel =>
    refine .inr ⟨trivial, ?_⟩
    have hre := change.rewrites tableName columns indexes
    have hselected := selectedRows_eq hget hsel
    by_cases hrows : rows = []
    · subst hrows
      refine h.still rfl ?_
      rw [logSnapshot_storage]
      exact hre.sameRows_nil hget
    · obtain ⟨hok, hnone⟩ := hchange rfl (hselected ▸ hrows)
      refine h.changed rows hre hget ?_ ?_ hnone
      · rw [logSnapshot_storage]
        rfl
      · rw [logSnapshot_wal hok tableName hrows, logSnapshot_storage]
        rfl
  | loggedIndex => exact .inr ⟨trivial, h.loggedIndex _ _ _⟩
  | built hst hb => exact .inr ⟨trivial, h.still rfl ⟨rfl, rfl⟩⟩
  | savedRows | listed | unlisted | deleting | updating | assigned | savedChange | found
  | registered | tableRead | savedIndex | savedCatalog =>
    exact .inr ⟨trivial, h.still rfl (.refl _)⟩

/-! ## Runs -/

/-- Some thread failed, or the log and the rows are balanced. -/
def LogInvariant (e₀ : Executor) (name : String) (p : Floor Executor Place) : Prop :=
  (∃ x, .over (.error x) ∈ p.places) ∨
    ((∀ q ∈ p.places, NewRows q) ∧ Balanced e₀ name p.shared (p.places.flatMap (unstored name)))

theorem logInvariant_step {e₀ : Executor} {name : String} {p : Floor Executor Place} {i : Nat}
    (h : LogInvariant e₀ name p) (hno : ¬ LosesRows p i) :
    LogInvariant e₀ name (machine.step p i) := by
  rcases machine.step_cases p i with hstep | ⟨q, hget, hres, hstep⟩
  · rw [hstep]
    exact h
  rw [hstep]
  obtain ⟨rest, hperm, hset⟩ := exists_perm_set hget
  have hset := hset (machine.turn q p.shared).1
  rcases h with ⟨x, hx⟩ | ⟨hnew, hbal⟩
  · -- a thread that failed stays where it is
    refine .inl ⟨x, hset.mem_iff.mpr ?_⟩
    rcases List.mem_cons.mp (hperm.mem_iff.mp hx) with rfl | hx
    · cases hres
    · exact List.mem_cons_of_mem _ hx
  · have hbal := hbal.perm (hperm.flatMap_right _)
    rw [List.flatMap_cons] at hbal
    have hlog : ∀ {env db tableName columns rows last},
        q = .logging env db tableName columns rows last → env.appendOk = true ∨ rows = [] := by
      rintro env db tableName columns rows last rfl
      simp only [LosesRows, hget, not_and, not_not] at hno
      cases hok : env.appendOk with
      | true => exact .inl rfl
      | false => exact .inr (hno hok)
    have hchange : ∀ {env tableName columns indexes selection change},
        q = .changing env tableName columns indexes selection change →
        selectedRows p.shared tableName columns selection ≠ [] →
        env.appendOk = true ∧ (SameName tableName name → rest.flatMap (unstored name) = []) := by
      rintro env tableName columns indexes selection change rfl hrows
      simp only [LosesRows, hget, not_and, not_or, not_exists, not_not] at hno
      obtain ⟨hok, hstored⟩ := hno hrows
      refine ⟨by simpa using hok, fun hname => List.flatMap_eq_nil_iff.mpr fun q₁ hq₁ => ?_⟩
      rw [← unstored_sameName hname]
      exact hstored q₁ (hperm.mem_iff.mpr (List.mem_cons_of_mem _ hq₁))
    have hq := hnew q (List.mem_of_getElem? hget)
    rcases hbal.turn (q.turns p.shared hres) hq hlog hchange with ⟨x, hx⟩ | ⟨hq', hbal'⟩
    · exact .inl ⟨x, hset.mem_iff.mpr (hx ▸ List.mem_cons_self)⟩
    · refine .inr ⟨fun q₁ hq₁ => ?_, ?_⟩
      · rcases List.mem_cons.mp (hset.mem_iff.mp hq₁) with rfl | hq₁
        · exact hq'
        · exact hnew q₁ (hperm.mem_iff.mpr (List.mem_cons_of_mem _ hq₁))
      · refine Balanced.perm ?_ (hset.flatMap_right _).symm
        rw [List.flatMap_cons]
        exact hbal'

/-- Statements that run at the same time, on any tables and in any order of
their sections, and no step of which loses rows. When all have succeeded, the
log gives the rows that are in memory. The statements of one connection are
threads of which one starts after the other. -/
theorem log_agrees {e : Executor} (he : Reachable e) {calls : List Call} {places : List Place}
    (hcalls : calls.map Call.start = places.map some) {schedule : List Nat}
    (hno : Every machine.step (fun p i => ¬ LosesRows p i) ⟨places, e⟩ schedule)
    (hdone : ∃ results : List ExecuteResult,
      ((Pool.mk (calls.map Call.program) e).run schedule).results = some (results.map .ok))
    (name : String) :
    (rowValues (replayed e (serve e calls schedule)).storage name).Perm
      (rowValues (serve e calls schedule).storage.value name) := by
  have hstarts : ∀ q ∈ places, NewRows q ∧ unstored name q = [] := by
    intro q hq
    have hmem : some q ∈ calls.map Call.start := hcalls ▸ List.mem_map_of_mem hq
    obtain ⟨call, -, hstart⟩ := List.mem_map.mp hmem
    obtain ⟨env, db, stmt⟩ := call
    cases stmt <;> cases hstart <;> exact ⟨trivial, rfl⟩
  have hstart : LogInvariant e name ⟨places, e⟩ := by
    refine .inr ⟨fun q hq => (hstarts q hq).1, ?_⟩
    have hnil : places.flatMap (unstored name) = [] :=
      List.flatMap_eq_nil_iff.mpr fun q hq => (hstarts q hq).2
    have hreplayed : replayed e e = e.memory := by
      rw [replayed, List.drop_length]
      rfl
    rw [hnil]
    refine ⟨List.prefix_refl _, he.consistent, ?_, ?_⟩
    · rw [hreplayed]
      exact he.consistent
    · rw [hreplayed]
      exact .refl _
  have hend : LogInvariant e name (machine.run ⟨places, e⟩ schedule) :=
    Every.foldl_invariant (fun p i hp hno => logInvariant_step hp hno) hstart hno
  have hshows := (shows_calls hcalls e).run schedule
  obtain ⟨results, hdone⟩ := hdone
  have hover : ∀ q ∈ (machine.run ⟨places, e⟩ schedule).places, ∃ r, q = .over (.ok r) := by
    intro q hq
    obtain ⟨r, hr, rfl⟩ := over_of_results hshows hdone q hq
    obtain ⟨res, -, rfl⟩ := List.mem_map.mp hr
    exact ⟨res, rfl⟩
  rcases hend with ⟨x, hx⟩ | ⟨-, hbal⟩
  · obtain ⟨r, hr⟩ := hover _ hx
    cases hr
  · have hnil : (machine.run ⟨places, e⟩ schedule).places.flatMap (unstored name) = [] := by
      rw [List.flatMap_eq_nil_iff]
      intro q hq
      obtain ⟨r, rfl⟩ := hover q hq
      rfl
    rw [hnil] at hbal
    have hrows := hbal.rows
    rw [hshows.shared] at hrows
    exact hrows

instance (p : Floor Executor Place) (i : Nat) : Decidable (LosesRows p i) := by
  unfold LosesRows
  split <;> infer_instance

end Theory

section Concrete

attribute [local instance] asciiHost plainDebug bincode1

/-- A table `t` with the row `1`. -/
def oneRow : Executor :=
  ((Executor.ofMemory .new none).after (callIn "srrdb" (intTable "t" ["a"]))).after
    (callIn "srrdb" (insertNumbers "t" [["1"]]))

theorem oneRow_reachable : Reachable oneRow := ((Reachable.fresh none).after _).after _

/-- An INSERT and a DELETE of everything on two connections. -/
def insertBesideDelete : List Call :=
  [callIn "srrdb" (insertNumbers "t" [["2"]]), callIn "srrdb" (deleteFrom "t" none)]

/-- The DELETE logs its snapshot between the append and the store of the
INSERT: the new row is in memory, and a replay of the log loses it. -/
theorem insertBesideDelete_not_agrees :
    Reachable oneRow ∧
      ((Pool.mk (insertBesideDelete.map Call.program) oneRow).run
        [0, 0, 0, 1, 1, 1, 0, 0, 0]).results = some [.ok (.affected 1 0), .ok (.affected 1 0)] ∧
      rowValues (serve oneRow insertBesideDelete [0, 0, 0, 1, 1, 1, 0, 0, 0]).storage.value "t" =
        [[.int 2]] ∧
      rowValues (replayed oneRow
        (serve oneRow insertBesideDelete [0, 0, 0, 1, 1, 1, 0, 0, 0])).storage "t" = [] := by
  refine ⟨oneRow_reachable, ?_, ?_, ?_⟩
  · decide +kernel
  · decide +kernel
  · decide +kernel

/-- The DELETE runs after the store of the INSERT, before the INSERT is over. -/
theorem insertBesideDelete_agrees :
    (rowValues (replayed oneRow
      (serve oneRow insertBesideDelete [0, 0, 0, 0, 1, 1, 1, 0, 0])).storage "t").Perm
      (rowValues (serve oneRow insertBesideDelete [0, 0, 0, 0, 1, 1, 1, 0, 0]).storage.value "t") := by
  have hcalls : insertBesideDelete.map Call.start =
      [.insert plainEnv "srrdb" "t" [] (some ⟨.values [[numberExpr "2"]], none, none, none⟩),
        .delete plainEnv "srrdb" "t" none].map some := rfl
  exact log_agrees oneRow_reachable hcalls (by decide +kernel)
    ⟨[.affected 1 0, .affected 2 0], by decide +kernel⟩ "t"

end Concrete

end Srrdb.Server

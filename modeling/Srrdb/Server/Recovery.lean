/-
Srrdb.Server.Recovery — when a restart brings back what was there.

A start reads the table files, which every statement rewrites, and replays the
log on top of them, which nothing truncates. The documentation has a startup
take a checkpoint and truncate the log after the replay; there is no such step,
so a row that is in its table file and in the log comes back twice, unless the
log overwrites the table later on. Runs that insert only into tables the log
has overwritten before are recovered exactly, wherever the server is stopped
(`recovery_exact`).
-/
import Srrdb.Server.CrashStates

namespace Srrdb.Server

open Srrdb.Engine Srrdb.Sql Srrdb.Lib

section Theory

variable [Host]

/-! ## Restarts -/

/-- A server started on an empty data directory. -/
def emptyServer : Executor := .ofMemory .new (some .empty)

/-- The same tables with the same definitions, and the same rows in some order. -/
structure SameData (e e' : Executor) : Prop where
  tables : ∀ db name, e.catalog.value.findTable db name = e'.catalog.value.findTable db name
  rows : ∀ name, (rowValues e.storage.value name).Perm (rowValues e'.storage.value name)

/-- A server that has the tables of the log has those of the server that wrote it. -/
theorem Tracked.sameData {e r : Executor} (h : Tracked e) (hr : HasLogged r e.wal) :
    SameData r e where
  tables db name := by
    by_cases hdb : SameName "srrdb" db
    · rw [← Catalog.findTable_sameName hdb rfl, ← Catalog.findTable_sameName hdb rfl]
      exact (hr.1 name).definition.trans (h.tables name).definition.symm
    · rw [hr.2 db hdb name, h.home.elsewhere hdb name]
  rows name := (hr.1 name).contents.trans (h.tables name).contents.symm

/-- Where there are no tables there are no rows. -/
theorem Tracked.sameData_tableless {e r : Executor} (h : Tracked e) (hbare : Tableless e)
    (hr : HasLogged r []) : SameData r e where
  tables db name := by
    by_cases hdb : SameName "srrdb" db
    · rw [← Catalog.findTable_sameName hdb rfl, ← Catalog.findTable_sameName hdb rfl]
      exact (hr.1 name).definition.trans (hbare name).symm
    · rw [hr.2 db hdb name, h.home.elsewhere hdb name]
  rows name := by
    have hnone : (logged name e.wal).definition = none :=
      (h.tables name).definition.symm.trans (hbare name)
    have htidy : (logged name e.wal).Tidy := Object.tidy_replay (fun _ => rfl) (h.happens name)
    have hnil : (rowValues e.storage.value name).Perm [] :=
      (h.tables name).contents.trans (.of_eq (htidy hnone))
    exact (hr.1 name).contents.trans hnil.symm

variable [Bincode]

/-- A start on the files and the log that a server leaves. -/
def restart (order : List String → List String) (e : Executor) : Outcome Executor :=
  recover order (e.persistence.getD .empty) (logBytes e.wal)

/-! ## Runs -/

/-- A server between two statements: its tables are those of its log, rows are
only where the log has overwritten the table, and its files are settled. -/
structure Ready (e : Executor) : Prop where
  tracked : Tracked e
  covered : ∀ name, Covered name e
  files : FilesSettled (Tableless e) e

theorem ready_start : Ready emptyServer where
  tracked := tracked_start _
  covered name := .inr (rowValues_new name)
  files := by
    refine ⟨.empty, rfl, .inl ⟨?_, findTable_new "srrdb"⟩, fun name _ _ rows hload => ?_⟩
    · simp [Persistence.hasExistingData, Persistence.empty]
    · simp [Persistence.loadTableData, Persistence.empty] at hload

variable [ExprDebug]

theorem Ready.after {e : Executor} (h : Ready e) {call : Call} (hcall : Recoverable e call) :
    Ready (e.after call) where
  tracked := h.tracked.after hcall.1
  covered name := by
    obtain ⟨entries, hstep⟩ := after_advances h.tracked.home h.tracked.consistent hcall.1
    exact (h.covered name).advance hstep (hcall.2 name)
  files := by
    obtain ⟨p, hp, hsettled⟩ := (call_crash h.files h.tracked h.covered hcall).run
    obtain ⟨entries, hstep⟩ := after_advances h.tracked.home h.tracked.consistent hcall.1
    refine ⟨p, hp, hsettled.imp fun hdata hbare => ?_⟩
    rcases hstep.saved hbare with hbare' | hsaved
    · exact hbare'
    · rw [hsaved p hp] at hdata
      cases hdata

/-- A statement that is stopped has appended its entry or has not. -/
theorem wal_crash {stored : String → Prop} {e : Executor} {call : Call} {entries : List WalEntry}
    (hstep : Advances stored e (e.after call) entries) (k : Nat) :
    (Prog.prefixRun k call.program e).2.wal = e.wal ∨
      (Prog.prefixRun k call.program e).2.wal = (e.after call).wal := by
  have hkeeps := fun wal => execute_keeps (closed_wal wal) call.env call.db call.stmt
  have hgrown : e.wal <+: (Prog.prefixRun k call.program e).2.wal :=
    (hkeeps e.wal).during List.prefix_rfl k
  -- what is left of the statement only appends
  have hrest : (Prog.prefixRun k call.program e).2.wal <+: (e.after call).wal := by
    have hend := (Prog.Keeps.prefixRun (hkeeps _) k e).run
      (s := (Prog.prefixRun k call.program e).2) List.prefix_rfl
    exact (congrArg (fun r => r.2.wal) (Prog.run_prefixRun k call.program e)) ▸ hend
  obtain ⟨done, hdone⟩ := hgrown
  rw [← hdone, hstep.wal] at hrest ⊢
  have hpart : done <+: entries := (List.prefix_append_right_inj e.wal).mp hrest
  cases done with
  | nil => exact .inl (List.append_nil e.wal)
  | cons entry rest =>
    have hshort := hstep.short
    have hlength : entries.length ≤ (entry :: rest).length := by
      simp only [List.length_cons]
      omega
    exact .inr (congrArg (e.wal ++ ·) (hpart.eq_of_length_le hlength))

/-! ## Stops and crashes -/

omit [ExprDebug] in
/-- A start after the server was stopped between two statements. -/
theorem Ready.restart {order : List String → List String} (horder : ∀ names, (order names).Perm names)
    {e : Executor} (h : Ready e) (hfit : ∀ entry ∈ e.wal, entry.Fits) :
    ∃ r, restart order e = .ok r ∧ SameData r e := by
  obtain ⟨p, hp, hsettled⟩ := h.files
  obtain ⟨r, hr, hdata⟩ := recovered (fun names name => (horder names).mem_iff.mp) hsettled hfit
    h.tracked.plain h.tracked.happens
  refine ⟨r, by rw [Server.restart, hp, Option.getD_some, hr], ?_⟩
  rcases hdata with hlogged | ⟨hbare, hnone⟩
  · exact h.tracked.sameData hlogged
  · exact h.tracked.sameData_tableless hbare hnone

/-- A start after a crash in the middle of a statement. -/
theorem Ready.crash {order : List String → List String} (horder : ∀ names, (order names).Perm names)
    {e : Executor} (h : Ready e) {call : Call} (hcall : Recoverable e call)
    (hfit : ∀ entry ∈ (e.after call).wal, entry.Fits) (k : Nat) :
    ∃ r, Server.restart order (Prog.prefixRun k call.program e).2 = .ok r ∧
      (SameData r e ∨ SameData r (e.after call)) := by
  obtain ⟨p, hp, hsettled⟩ := call_crash h.files h.tracked h.covered hcall k
  obtain ⟨entries, hstep⟩ := after_advances h.tracked.home h.tracked.consistent hcall.1
  have hafter := h.tracked.after hcall.1
  have horder : ∀ names, ∀ name ∈ order names, name ∈ names := fun names name =>
    (horder names).mem_iff.mp
  have hstart : Server.restart order (Prog.prefixRun k call.program e).2 =
      recover order p (logBytes (Prog.prefixRun k call.program e).2.wal) := by
    rw [Server.restart, hp, Option.getD_some]
  rw [hstart]
  rcases wal_crash hstep k with hwal | hwal <;> rw [hwal] at hsettled ⊢
  · -- the entry was not appended
    have hfit : ∀ entry ∈ e.wal, entry.Fits := fun entry hmem =>
      hfit entry (hstep.wal ▸ List.mem_append_left entries hmem)
    obtain ⟨r, hr, hdata⟩ := recovered horder hsettled hfit h.tracked.plain h.tracked.happens
    refine ⟨r, hr, .inl ?_⟩
    rcases hdata with hlogged | ⟨hbare, hnone⟩
    · exact h.tracked.sameData hlogged
    · exact h.tracked.sameData_tableless hbare hnone
  · -- the entry was appended: the statement counts if there is a catalog file
    obtain ⟨r, hr, hdata⟩ := recovered horder hsettled hfit hafter.plain hafter.happens
    refine ⟨r, hr, ?_⟩
    rcases hdata with hlogged | ⟨hbare, hnone⟩
    · exact .inr (hafter.sameData hlogged)
    · exact .inl (h.tracked.sameData_tableless hbare hnone)

/-- Recovery is exact in runs whose statements are recoverable: after a stop
between two statements a start yields the tables and rows there were, and after
a crash in the middle of one, those before it or those after it. -/
theorem recovery_exact {order : List String → List String}
    (horder : ∀ names, (order names).Perm names) {calls : List Call}
    (h : Every Executor.after Recoverable emptyServer calls) :
    let e := calls.foldl Executor.after emptyServer
    ((∀ entry ∈ e.wal, entry.Fits) → ∃ r, restart order e = .ok r ∧ SameData r e) ∧
      ∀ call, Recoverable e call → (∀ entry ∈ (e.after call).wal, entry.Fits) → ∀ k,
        ∃ r, restart order (Prog.prefixRun k call.program e).2 = .ok r ∧
          (SameData r e ∨ SameData r (e.after call)) := by
  have hready : Ready (calls.foldl Executor.after emptyServer) :=
    h.foldl_invariant (fun _ _ hr hcall => hr.after hcall) ready_start
  exact ⟨fun hfit => hready.restart horder hfit, fun call hcall hfit k =>
    hready.crash horder hcall hfit k⟩

end Theory

section Concrete

attribute [local instance] asciiHost plainDebug bincode1

/-- CREATE TABLE and one INSERT. -/
def insertedOnce : Executor :=
  [callIn "srrdb" (intTable "t" ["a"]), callIn "srrdb" (insertNumbers "t" [["1"]])].foldl
    Executor.after emptyServer

/-- The row is in the file of the table and in the log: it comes back twice. -/
theorem insertedOnce_doubled :
    (∀ entry ∈ insertedOnce.wal, entry.Fits) ∧
      rowValues insertedOnce.storage.value "t" = [[.int 1]] ∧
      (restart id insertedOnce).map (fun r => rowValues r.storage.value "t") =
        .ok [[.int 1], [.int 1]] ∧
      ¬ ∃ r, restart id insertedOnce = .ok r ∧ SameData r insertedOnce := by
  have hrows : rowValues insertedOnce.storage.value "t" = [[.int 1]] := by decide +kernel
  have hdoubled : (restart id insertedOnce).map (fun r => rowValues r.storage.value "t") =
      .ok [[.int 1], [.int 1]] := by decide +kernel
  refine ⟨by decide +kernel, hrows, hdoubled, ?_⟩
  rintro ⟨r, hr, hsame⟩
  rw [hr] at hdoubled
  have htwice : rowValues r.storage.value "t" = [[.int 1], [.int 1]] := Except.ok.inj hdoubled
  have hlength := (hsame.rows "t").length_eq
  rw [htwice, hrows] at hlength
  cases hlength

/-- A table created again after it was dropped, with one row. -/
def recreated : List Call :=
  [callIn "srrdb" (intTable "t" ["a"]), callIn "srrdb" (dropTableNamed "t"),
    callIn "srrdb" (intTable "t" ["a"]), callIn "srrdb" (insertNumbers "t" [["1"]])]

theorem recreated_recoverable : Every Executor.after Recoverable emptyServer recreated := by
  have hname : SameName "srrdb" "srrdb" ∧ isFileName (normalize (nameToString ["t"])) = true := by
    decide +kernel
  refine ⟨⟨⟨rfl, hname⟩, fun _ h => h.elim⟩, ⟨⟨rfl, rfl, ?_⟩, fun _ h => h.elim⟩,
    ⟨⟨rfl, hname⟩, fun _ h => h.elim⟩, ⟨⟨rfl, fun _ => ?_⟩, fun name h => ?_⟩, trivial⟩
  · decide +kernel
  · decide +kernel
  · rw [overwritten, ← redoLog_sameName h.1]
    decide +kernel

/-- The INSERT of a second row is stopped between the log and the file of the
table. -/
theorem recreated_exact :
    Recoverable (recreated.foldl Executor.after emptyServer)
        (callIn "srrdb" (insertNumbers "t" [["2"]])) ∧
      (∃ r, restart id (recreated.foldl Executor.after emptyServer) = .ok r ∧
        SameData r (recreated.foldl Executor.after emptyServer)) ∧
      ∃ r, restart id (Prog.prefixRun 3 (callIn "srrdb" (insertNumbers "t" [["2"]])).program
          (recreated.foldl Executor.after emptyServer)).2 = .ok r ∧
        (SameData r (recreated.foldl Executor.after emptyServer) ∨
          SameData r ((recreated.foldl Executor.after emptyServer).after
            (callIn "srrdb" (insertNumbers "t" [["2"]])))) := by
  have hinsert : Recoverable (recreated.foldl Executor.after emptyServer)
      (callIn "srrdb" (insertNumbers "t" [["2"]])) := by
    refine ⟨⟨rfl, fun _ => by decide +kernel⟩, fun name h => ?_⟩
    rw [overwritten, ← redoLog_sameName h.1]
    decide +kernel
  have horder : ∀ names : List String, (id names).Perm names := fun names => .refl _
  obtain ⟨hstop, hcrash⟩ := recovery_exact horder recreated_recoverable
  exact ⟨hinsert, hstop (by decide +kernel), hcrash _ hinsert (by decide +kernel) 3⟩

end Concrete

end Srrdb.Server

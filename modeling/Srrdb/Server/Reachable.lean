/-
Srrdb.Server.Reachable — the servers that can come about.

A server starts empty or recovers from a data directory and a log, whatever
these hold. From then on any number of statements run, their sections
interleaved by some schedule. A statement run alone is one such schedule.
Every reachable server has a consistent storage.
-/
import Srrdb.Engine.Consistency
import Srrdb.Lib.Run
import Srrdb.Server.Listener

namespace Srrdb.Server

open Srrdb.Engine Srrdb.Sql Srrdb.Lib

variable [Host]

/-! ## Recovery -/

theorem applyEntry_consistent {m : Memory} (h : m.storage.Consistent) (entry : WalEntry) :
    (m.applyEntry entry).2.storage.Consistent := by
  cases entry with
  | createTable tableName columns | createIndex dbName indexDef
  | dropIndex dbName indexName tableName =>
    rw [Memory.applyEntry, Memory.tryCatalog_storage]
    exact h
  | dropTable tableName =>
    rw [Memory.applyEntry]
    split
    · exact h.clearTable tableName
    · exact h
  | insertRows tableName rows => exact h.insertRows tableName rows
  | tableSnapshot tableName rows => exact h.restoreRows tableName rows
  | checkpoint => exact h

variable [Bincode]

theorem replayLoop_consistent {fuel : Nat} {bytes : List UInt8} {count : Nat} {m : Memory}
    (h : m.storage.Consistent) {result : Nat × Memory}
    (hr : replayLoop fuel bytes count m = .ok result) : result.2.storage.Consistent := by
  induction fuel generalizing bytes count m with
  | zero =>
    cases hr
    exact h
  | succ fuel ih =>
    unfold replayLoop at hr
    split at hr
    · cases hr
      exact h
    · split at hr
      · cases hr
        exact h
      · split at hr
        · cases hr
          exact h
        · split at hr
          · cases hr
          · split at hr
            · cases hr
              exact h
            · exact ih h hr
            · exact ih (applyEntry_consistent h _) hr

theorem checkpointTables_consistent {count : Nat} {bytes : List UInt8} {s s' : Storage}
    (h : s.Consistent) (hr : checkpointTables count bytes s = some s') : s'.Consistent := by
  induction count generalizing bytes s with
  | zero =>
    cases hr
    exact h
  | succ count ih =>
    unfold checkpointTables at hr
    split at hr
    · cases hr
      exact h
    · obtain ⟨⟨tableName, rest⟩, -, hr⟩ := Option.bind_eq_some_iff.mp hr
      simp only at hr
      split at hr
      · cases hr
        exact h
      · obtain ⟨rows, -, hr⟩ := Option.bind_eq_some_iff.mp hr
        exact ih (h.insertRows tableName rows) hr

theorem replayCheckpoint_consistent {data : List UInt8} {m : Memory}
    (hr : replayCheckpoint data = .ok m) : m.storage.Consistent := by
  unfold replayCheckpoint at hr
  split at hr
  · cases hr
  · split at hr
    · cases hr
    · split at hr
      · cases hr
      · simp only at hr
        split at hr
        · cases hr
        · split at hr
          · cases hr
            exact .new
          · split at hr
            · cases hr
            · split at hr
              · cases hr
              · next hs =>
                cases hr
                exact checkpointTables_consistent .new hs

theorem loadFiles_consistent (order : List String → List String) (p : Persistence) :
    (loadFiles order p).storage.Consistent := by
  refine foldl_keeps (fun s dbName _ h => ?_) Storage.Consistent.new
  split
  · refine foldl_keeps (fun s tableName _ h => ?_) h
    split
    · exact h.insertRows _ _
    · exact h
  · exact h

omit [Bincode] in
theorem rebuildStorage_consistent (order : List String → List String) (c : Catalog) {s : Storage}
    (h : s.Consistent) : (rebuildStorage order c s).Consistent := by
  refine foldl_keeps (fun s dbName _ h => ?_) h
  split
  · refine foldl_keeps (fun s tableName _ h => ?_) h
    split
    · exact foldl_keeps (fun s idx _ h => h.putIndex _ _) h
    · exact h
  · exact h

theorem recoverMemory_consistent {order : List String → List String} {p : Persistence}
    {wal : List UInt8} {m : Memory} (hr : recoverMemory order p wal = .ok m) :
    m.storage.Consistent := by
  unfold recoverMemory at hr
  split at hr
  · split at hr
    · cases hr
      exact loadFiles_consistent order p
    · split at hr
      · next hcp =>
        cases hr
        exact replayCheckpoint_consistent hcp
      · cases hr
      · cases hrep : replay wal (loadFiles order p) with
        | error x => rw [hrep] at hr; cases hr
        | ok result =>
          rw [hrep] at hr
          cases hr
          exact replayLoop_consistent (loadFiles_consistent order p) hrep
  · cases hr
    exact .new

theorem recover_consistent {order : List String → List String} {p : Persistence}
    {wal : List UInt8} {e : Executor} (hr : recover order p wal = .ok e) :
    e.storage.value.Consistent := by
  unfold recover at hr
  cases hm : recoverMemory order p wal with
  | error x => rw [hm] at hr; cases hr
  | ok m =>
    rw [hm] at hr
    cases hr
    exact rebuildStorage_consistent order _ (recoverMemory_consistent hm)

/-! ## Reachable servers -/

variable [ExprDebug]

/-- The statements run as the schedule says, section by section. -/
def serve (e : Executor) (calls : List Call) (schedule : List Nat) : Executor :=
  ((Pool.mk (calls.map Call.program) e).run schedule).shared

/-- The servers that can come about. -/
inductive Reachable : Executor → Prop
  | fresh (p : Option Persistence) : Reachable (.ofMemory .new p)
  | recovered {order : List String → List String} {p : Persistence} {wal : List UInt8}
      {e : Executor} (h : recover order p wal = .ok e) : Reachable e
  | served {e : Executor} (h : Reachable e) (calls : List Call) (schedule : List Nat) :
      Reachable (serve e calls schedule)

theorem Reachable.after {e : Executor} (h : Reachable e) (call : Call) :
    Reachable (e.after call) := by
  obtain ⟨n, hn⟩ := Pool.exists_run_alone call.program e
  have hserve : serve e [call] (List.replicate n 0) = e.after call := by
    rw [serve, List.map_singleton, hn]
    rfl
  rw [← hserve]
  exact h.served [call] _

/-- Every reachable server has a consistent storage. -/
theorem Reachable.consistent {e : Executor} (h : Reachable e) : e.storage.value.Consistent := by
  induction h with
  | fresh p => exact .new
  | recovered h => exact recover_consistent h
  | @served e h calls schedule ih =>
    have hthreads : ∀ t ∈ calls.map Call.program, t.Keeps StorageConsistent := by
      intro t ht
      obtain ⟨call, -, rfl⟩ := List.mem_map.mp ht
      exact execute_keeps closed_storageConsistent call.env call.db call.stmt
    have hstart : StorageConsistent e := ih
    exact Pool.keeps_run (p := ⟨calls.map Call.program, e⟩) hthreads hstart schedule

end Srrdb.Server

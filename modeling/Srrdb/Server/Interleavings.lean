/-
Srrdb.Server.Interleavings — connections that run one lock operation at a time.

Everything proved about interleaved sections rests on reading each section as
one step. Here nothing is one step but a lock operation or the code between
two of them. A connection is a `Script`: a statement, and the rest of the
script once the result is known. Whatever the threads of the connections do,
the results and the memory are those of some interleaving of sections
(`operate_refines`), and however they have run so far, they can all be run to
their end: no statement waits for ever (`no_deadlock`). The memory they leave is
that of a reachable server (`operate_reachable`).
-/
import Srrdb.Engine.LockingTheorems
import Srrdb.Lib.Calls
import Srrdb.Server.Reachable

namespace Srrdb.Server

open Srrdb.Engine Srrdb.Sql Srrdb.Lib

section Theory

variable [Host] [ExprDebug] [Bincode]

/-! ## Connections -/

/-- What a connection asks of the executor. The next statement, and the
database it runs in, may depend on the results so far. -/
inductive Script where
  | finish
  | ask (call : Call) (next : Outcome ExecuteResult → Script)

namespace Script

/-- The connection's thread, by its lock operations: the results in order. -/
def stepwise : Script → Locked Executor Lock (List (Outcome ExecuteResult))
  | finish => .done []
  | ask call next =>
    (ExceptT.run (Stepwise.execute call.env call.db call.stmt)).bind fun result =>
      (next result).stepwise.bind fun results => .done (result :: results)

/-- The connection's thread, by its sections. -/
def sections : Script → Prog Executor (List (Outcome ExecuteResult))
  | finish => .done []
  | ask call next => call.program.bind fun result =>
      (next result).sections.bind fun results => .done (result :: results)

theorem twoPhase (script : Script) : TwoPhase guards script.stepwise script.sections := by
  induction script with
  | finish => exact .done
  | ask call next ih =>
    exact (implements_execute call.env call.db call.stmt).twoPhase.bind fun result =>
      (ih result).bind fun results => Follows.done

theorem ranked (script : Script) : script.stepwise.Ranked Lock.rank ∅ ∅ := by
  induction script with
  | finish => exact rfl
  | ask call next ih =>
    exact (implements_execute call.env call.db call.stmt).ranked.bind fun result =>
      (ih result).bind fun results => rfl

end Script

/-- The threads of some connections, each lock operation when the schedule
says so. -/
def operate (scripts : List Script) (e : Executor) (schedule : List Nat) :
    Crew Executor Lock (List (Outcome ExecuteResult)) :=
  (Crew.start (scripts.map Script.stepwise) e).run schedule

/-- The same, each section when the schedule says so. -/
def interleave (scripts : List Script) (e : Executor) (schedule : List Nat) :
    Pool Executor (List (Outcome ExecuteResult)) :=
  (Pool.mk (scripts.map Script.sections) e).run schedule

/-! ## Refinement -/

theorem operate_simulates (scripts : List Script) (e : Executor) (schedule : List Nat) :
    ∃ coarse, Simulates guards (operate scripts e schedule) (interleave scripts e coarse) := by
  have hthreads : List.Forall₂ (TwoPhase guards) (scripts.map Script.stepwise)
      (scripts.map Script.sections) := by
    induction scripts with
    | nil => exact .nil
    | cons script rest ih => exact .cons script.twoPhase ih
  exact (Simulates.start hthreads e).run schedule

/-- Whatever the schedule of lock operations, some schedule of sections gives
the connections that have finished the same results, leaves the same behind
every free mutex, and the same memory and log once all have finished. -/
theorem operate_refines (scripts : List Script) (e : Executor) (schedule : List Nat) :
    ∃ coarse,
      (∀ (i : Nat) (results : List (Outcome ExecuteResult)),
        (operate scripts e schedule).threads[i]? = some (Locked.done results) →
        (interleave scripts e coarse).threads[i]? = some (Prog.done results)) ∧
      (∀ lock, (operate scripts e schedule).owner lock = none →
        guards.part lock (interleave scripts e coarse).shared =
          guards.part lock (operate scripts e schedule).shared) ∧
      ((∀ t ∈ (operate scripts e schedule).threads, t.isDone = true) →
        (interleave scripts e coarse).shared.catalog = (operate scripts e schedule).shared.catalog ∧
        (interleave scripts e coarse).shared.storage = (operate scripts e schedule).shared.storage ∧
        (interleave scripts e coarse).shared.wal = (operate scripts e schedule).shared.wal) := by
  obtain ⟨coarse, hsim⟩ := operate_simulates scripts e schedule
  exact ⟨coarse, fun i results hi => (hsim.done hi).1, hsim.free,
    fun hall => (alike_iff.mp (hsim.alike hall)).2⟩

/-! ## Progress -/

/-- However the connections have run, they can all be run to their end. -/
theorem no_deadlock (scripts : List Script) (e : Executor) (schedule : List Nat) :
    ∃ rest, ∀ t ∈ (operate scripts e (schedule ++ rest)).threads, t.isDone = true := by
  have hstart : (Crew.start (scripts.map Script.stepwise) e).Ordered Lock.rank := by
    refine Crew.ordered_start (fun t ht => ?_) e
    obtain ⟨script, -, rfl⟩ := List.mem_map.mp ht
    exact script.ranked
  obtain ⟨rest, hrest⟩ := (hstart.run schedule).exists_completion
  exact ⟨rest, by rwa [operate, Crew.run_append]⟩

/-! ## Reachable servers -/

theorem Script.makes (script : Script) : Makes Call.program script.sections := by
  induction script with
  | finish => exact .done []
  | ask call next ih =>
    exact .call call fun result => (ih result).bind fun results => .done _

/-- What connections leave in memory, a reachable server has in memory: what
holds in every reachable server holds however lock operations interleave. -/
theorem operate_reachable {e : Executor} (he : Reachable e) (scripts : List Script)
    (schedule : List Nat) : ∃ e', Reachable e' ∧ ∀ lock,
      (operate scripts e schedule).owner lock = none →
        guards.part lock e' = guards.part lock (operate scripts e schedule).shared := by
  obtain ⟨coarse, hsim⟩ := operate_simulates scripts e schedule
  have hmakes : ∀ t ∈ scripts.map Script.sections, Makes Call.program t := by
    intro t ht
    obtain ⟨script, -, rfl⟩ := List.mem_map.mp ht
    exact script.makes
  obtain ⟨calls, schedule', hcalls⟩ := Pool.exists_calls hmakes e coarse
  refine ⟨serve e calls schedule', he.served calls schedule', fun lock hfree => ?_⟩
  rw [serve, hcalls]
  exact hsim.free lock hfree

end Theory

/-! ## On a concrete run -/

section Concrete

attribute [local instance] asciiHost plainDebug bincode1

/-- Two connections that create the same table. -/
def createTwice : List Script :=
  List.replicate 2 (.ask (callIn "srrdb" (intTable "t" ["a"])) fun _ => .finish)

/-- The second waits for the catalog while the first holds it and takes the log. -/
theorem createTwice_reachable : ∃ e', Reachable e' ∧
    e'.catalog.value.tableExists "srrdb" "t" = true := by
  have hfree : (operate createTwice (.ofMemory .new none)
      [0, 0, 1, 0, 1, 0, 0, 0, 0, 1, 1, 1, 1, 1, 1, 1, 0, 1]).owner .catalog = none := by
    decide +kernel
  have htable : (operate createTwice (.ofMemory .new none)
      [0, 0, 1, 0, 1, 0, 0, 0, 0, 1, 1, 1, 1, 1, 1, 1, 0, 1]).shared.catalog.value.tableExists
        "srrdb" "t" = true := by
    decide +kernel
  obtain ⟨e', he', hsame⟩ := operate_reachable (.fresh none) createTwice
    [0, 0, 1, 0, 1, 0, 0, 0, 0, 1, 1, 1, 1, 1, 1, 1, 0, 1]
  have hcatalog := congrArg Mutex.value (hsame .catalog hfree)
  exact ⟨e', he', (congrArg (·.tableExists "srrdb" "t") hcatalog).trans htable⟩

end Concrete

end Srrdb.Server

/-
Srrdb.Server.Restart — what a start recovers.

The startup path tries the log as a checkpoint first and looks at nothing
behind it; only a log that does not start with a checkpoint is replayed.
-/
import Srrdb.Engine.Checkpoint
import Srrdb.Server.RegisteredIndexes

namespace Srrdb.Server

open Srrdb.Engine Srrdb.Lib

section Theory

variable [Host] [Bincode]

/-! ## Recovered memories -/

omit [Host] [Bincode] in
/-- The same catalog and the same rows. -/
structure SameContent (m m' : Memory) : Prop where
  catalog : m.catalog = m'.catalog
  tables : m.storage.tables = m'.storage.tables

omit [Host] [Bincode] in
theorem SameContent.symm {m m' : Memory} (h : SameContent m m') : SameContent m' m :=
  ⟨h.catalog.symm, h.tables.symm⟩

omit [Host] [Bincode] in
theorem SameContent.trans {m m' m'' : Memory} (h : SameContent m m') (h' : SameContent m' m'') :
    SameContent m m'' :=
  ⟨h.catalog.trans h'.catalog, h.tables.trans h'.tables⟩

omit [Bincode] in
theorem rebuildIndexes_sameContent (order : List String → List String) (e : Executor) :
    SameContent (e.rebuildIndexes order).memory e.memory := by
  unfold Executor.rebuildIndexes
  split
  · exact ⟨rfl, rfl⟩
  · exact ⟨rfl, (rebuildStorage_sameRows order _ _).tables⟩

/-- The startup path succeeds with the catalog and the rows of a memory. -/
def Recovers (order : List String → List String) (p : Persistence) (wal : List UInt8)
    (m : Memory) : Prop :=
  ∃ e, recover order p wal = .ok e ∧ SameContent e.memory m

theorem recovers_iff {order : List String → List String} {p : Persistence} {wal : List UInt8}
    {m m' : Memory} (h : recoverMemory order p wal = .ok m') :
    Recovers order p wal m ↔ SameContent m' m := by
  have hrecover : recover order p wal =
      .ok ((Executor.ofMemory m' (some p)).rebuildIndexes order) := by
    rw [recover, h]
    rfl
  have hsame := rebuildIndexes_sameContent order (Executor.ofMemory m' (some p))
  constructor
  · rintro ⟨e, he, hcontent⟩
    rw [hrecover] at he
    cases he
    exact hsame.symm.trans hcontent
  · intro hcontent
    exact ⟨_, hrecover, hsame.trans hcontent⟩

/-! ## Checkpoint and tail -/

/-- A log that starts with a checkpoint is the checkpoint. -/
theorem recoverMemory_checkpoint {order : List String → List String} {p : Persistence}
    {m : Memory} (hfit : (truncateWal m).length < 2 ^ 32) (rest : List UInt8) :
    recoverMemory order p (truncateWal m ++ rest) =
      .ok (if p.hasExistingData then m.reloaded else .new) := by
  have hne : (truncateWal m ++ rest).isEmpty = false := by
    rw [List.isEmpty_eq_false_iff]
    exact List.append_ne_nil_of_left_ne_nil (by simp [truncateWal, buildCheckpointData, frame, magic]) _
  unfold recoverMemory
  cases p.hasExistingData with
  | false => rfl
  | true =>
    simp only [if_true, hne, Bool.false_eq_true, if_false]
    rw [truncateWal, replayCheckpoint_append hfit]

/-- A checkpoint and entries appended behind it. The startup path yields the
checkpoint with the entries applied exactly when the entries together change
nothing: it reads the checkpoint alone, and without a catalog file not even
that. -/
theorem checkpoint_tail_iff {m : Memory} (hfiled : m.storage.Filed)
    (hfit : (truncateWal m).length < 2 ^ 32) (order : List String → List String) (p : Persistence)
    (entries : List WalEntry) :
    Recovers order p (entries.foldl appendWal (truncateWal m)) (m.applyAll entries) ↔
      SameContent (m.applyAll entries) (if p.hasExistingData then m else .new) := by
  rw [foldl_appendWal, recovers_iff (recoverMemory_checkpoint hfit (logBytes entries))]
  have hreloaded : SameContent m.reloaded m := ⟨rfl, reloadTables_toList hfiled⟩
  cases p.hasExistingData with
  | false => exact ⟨SameContent.symm, SameContent.symm⟩
  | true =>
    simp only [if_true]
    exact ⟨fun h => h.symm.trans hreloaded, fun h => hreloaded.trans h.symm⟩

/-! ## Entries without a checkpoint -/

/-- A log of entries, none of them a checkpoint, is replayed on top of the
files. -/
theorem recoverMemory_logBytes {entries : List WalEntry} (hfit : ∀ entry ∈ entries, entry.Fits)
    (hentries : WalEntry.checkpoint ∉ entries) (order : List String → List String)
    (p : Persistence) :
    recoverMemory order p (logBytes entries) =
      .ok (if p.hasExistingData then (loadFiles order p).applyAll entries else .new) := by
  unfold recoverMemory
  cases p.hasExistingData with
  | false => rfl
  | true =>
    simp only [if_true]
    cases entries with
    | nil => rfl
    | cons entry rest =>
      have hother : entry ≠ .checkpoint := fun h => hentries (h ▸ List.mem_cons_self)
      have hne : (logBytes (entry :: rest)).isEmpty = false := by
        simp [logBytes, WalEntry.serialize, frame, magic]
      have hcheckpoint : replayCheckpoint (logBytes (entry :: rest)) =
          .error (.err "Not a checkpoint") := by
        rw [logBytes, List.flatMap_cons]
        exact replayCheckpoint_entry hother _
      rw [hne, hcheckpoint, replay_logBytes hfit]
      rfl

end Theory

section Concrete

attribute [local instance] asciiHost bincode1

/-- A data directory with a catalog file. -/
def savedCatalog : Persistence := Persistence.empty.saveCatalog .new

/-- The row inserted after the checkpoint is not recovered. -/
theorem checkpoint_loses_tail :
    savedCatalog.hasExistingData = true ∧ twoTables.storage.Filed ∧
      ((recover id savedCatalog ([insertOne 4 8].foldl appendWal (truncateWal twoTables))).map
        fun e => e.storage.value.getRows "t") = .ok [⟨3, [.int 7]⟩] ∧
      (twoTables.applyAll [insertOne 4 8]).storage.getRows "t" =
        [⟨3, [.int 7]⟩, ⟨4, [.int 8]⟩] :=
  ⟨by decide +kernel, twoTables_filed, by decide +kernel, by decide +kernel⟩

/-- What an UPDATE logs that writes what stands in the table. -/
def writtenAgain : WalEntry := .tableSnapshot "t" [⟨3, [.int 7]⟩]

/-- A tail that changes nothing is none. -/
theorem idleTail_recovered :
    Recovers id savedCatalog ([writtenAgain].foldl appendWal (truncateWal twoTables))
      (twoTables.applyAll [writtenAgain]) := by
  refine (checkpoint_tail_iff twoTables_filed (by decide +kernel) id savedCatalog
    [writtenAgain]).mpr ?_
  rw [if_pos (by decide +kernel)]
  exact ⟨rfl, Std.ExtTreeMap.ext_toList (by decide +kernel)⟩

end Concrete

end Srrdb.Server

/-
Srrdb.Engine.CounterOverflow — row-id counters of 64 bits in a replay.

Row ids and the counters behind them are `u64`. Elsewhere they are natural
numbers; here `insert_rows`, `apply_entry` and `Wal::replay` stand with the
arithmetic of the source, which panics at the end of the range in a build with
overflow checks and wraps around in one without. As long as the counters have
room for the rows of each entry (`HasRoom`) this replay is the replay of natural
numbers (`replayU64_eq_replay`), and with checks the replay of a cut log succeeds
only then (`replay_cut_iff`).
-/
import Srrdb.Engine.LogFormat
import Srrdb.Engine.StorageTheorems

namespace Srrdb.Engine

open Srrdb.Lib

/-! ## The source -/

/-- `n + 1` in `u64`, in a build with or without overflow checks. -/
def succU64 (checks : Bool) (n : Nat) : Outcome Nat :=
  if n + 1 < 2 ^ 64 then .ok (n + 1) else if checks then .error .panic else .ok ((n + 1) % 2 ^ 64)

/-- The id of a row and the counter after it, in the loop of `insert_rows`. -/
def Storage.numberU64 (checks : Bool) (next : Nat) (row : Row) : Outcome (Nat × Nat) :=
  if row.id = 0 then (succU64 checks next).map (next, ·)
  else if next ≤ row.id then (succU64 checks row.id).map (row.id, ·)
  else .ok (row.id, next)

/-- The loop of `insert_rows`. -/
def Storage.insertLoopU64 (checks : Bool) : Table → Nat → List Row →
    Outcome (Table × Nat × List Nat)
  | t, next, [] => .ok (t, next, [])
  | t, next, row :: rows => do
    let (id, after) ← numberU64 checks next row
    let (t', next', ids) ← insertLoopU64 checks (t.insert id ⟨id, row.values⟩) after rows
    .ok (t', next', id :: ids)

section Source

variable [Host]

/-- `Storage::insert_rows`. -/
def Storage.insertRowsU64 (checks : Bool) (s : Storage) (tableName : String) (rows : List Row) :
    Outcome (List Nat × Storage) := do
  let tn := normalize tableName
  let (t, next, ids) ← insertLoopU64 checks (s.tables.getD tn ∅) (s.nextIds.getD tn 1) rows
  .ok (ids, { s with tables := s.tables.insert tn t, nextIds := s.nextIds.insert tn next })

/-- `apply_entry`. Only entries with rows have to do with counters. -/
def Memory.applyEntryU64 (checks : Bool) (m : Memory) : WalEntry → Outcome (Bool × Memory)
  | .insertRows tableName rows => do
    let (_, storage) ← m.storage.insertRowsU64 checks tableName rows
    .ok (true, { m with storage })
  | .tableSnapshot tableName rows =>
    let storage := m.storage.modifyTable tableName fun _ => ∅
    if rows.isEmpty then .ok (true, { m with storage })
    else do
      let (_, storage) ← storage.insertRowsU64 checks tableName rows
      .ok (true, { m with storage })
  | entry => .ok (m.applyEntry entry)

variable [Bincode]

/-- The loop of `Wal::replay`. -/
def replayLoopU64 (checks : Bool) : Nat → List UInt8 → Nat → Memory → Outcome (Nat × Memory)
  | 0, _, count, m => .ok (count, m)
  | fuel + 1, bytes, count, m =>
    if bytes.length < entryHeaderSize then .ok (count, m)
    else if bytes.take 2 ≠ magic then .ok (count, m)
    else if bytes.length < entryLength bytes then .ok (count, m)
    else if entryLength bytes < entryHeaderSize then .error .panic
    else
      match WalEntry.deserialize (bytes.getD 6 0)
          ((bytes.take (entryLength bytes)).drop entryHeaderSize) with
      | none => .ok (count, m)
      | some none => replayLoopU64 checks fuel (bytes.drop (entryLength bytes)) (count + 1) m
      | some (some entry) => do
        let (applied, m') ← m.applyEntryU64 checks entry
        replayLoopU64 checks fuel (bytes.drop (entryLength bytes))
          (if applied then count + 1 else count) m'

/-- `Wal::replay` of a log with these bytes. -/
def replayU64 (checks : Bool) (bytes : List UInt8) (m : Memory) : Outcome (Nat × Memory) :=
  replayLoopU64 checks bytes.length bytes 0 m

end Source

/-! ## Rows -/

namespace Storage

variable {checks : Bool} {row : Row}

/-- The id a row is stored under, and the counter after it. -/
def number (next : Nat) (row : Row) : Nat × Nat :=
  if row.id = 0 then (next, next + 1)
  else if next ≤ row.id then (row.id, row.id + 1)
  else (row.id, next)

theorem insertLoop_cons (t : Table) (next : Nat) (row : Row) (rows : List Row) :
    insertLoop t next (row :: rows) =
      let rest := insertLoop (t.insert (number next row).1 ⟨(number next row).1, row.values⟩)
        (number next row).2 rows
      (rest.1, rest.2.1, (number next row).1 :: rest.2.2) := by
  rw [insertLoop, number]
  by_cases hid : row.id = 0
  · rw [if_pos hid, if_pos hid]
  · rw [if_neg hid, if_neg hid]
    by_cases hge : next ≤ row.id
    · rw [if_pos hge, if_pos hge]
    · rw [if_neg hge, if_neg hge]

/-- How many rows get their id from the counter. -/
def unnumbered (rows : List Row) : Nat := rows.countP (·.id = 0)

/-- A counter at `next` stays in range while the rows come in: behind it there is
room for all of them without an id, and behind each id for those that follow it. -/
def HasRoom (next : Nat) (rows : List Row) : Prop :=
  next + unnumbered rows < 2 ^ 64 ∧
    ∀ row after, row :: after <:+ rows → row.id ≠ 0 → row.id + 1 + unnumbered after < 2 ^ 64

theorem HasRoom.lt {next : Nat} {rows : List Row} (h : HasRoom next rows) : next < 2 ^ 64 :=
  Nat.lt_of_le_of_lt (Nat.le_add_right _ _) h.1

theorem hasRoom_nil {next : Nat} : HasRoom next [] ↔ next < 2 ^ 64 := by
  refine ⟨HasRoom.lt, fun h => ⟨h, fun row after hsuffix => ?_⟩⟩
  exact absurd (List.suffix_nil.mp hsuffix) (List.cons_ne_nil _ _)

/-- Row by row. -/
theorem hasRoom_cons {next : Nat} {rows : List Row} :
    HasRoom next (row :: rows) ↔ HasRoom (number next row).2 rows := by
  have hbehind : (∀ row' after, row' :: after <:+ row :: rows → row'.id ≠ 0 →
        row'.id + 1 + unnumbered after < 2 ^ 64) ↔
      (row.id ≠ 0 → row.id + 1 + unnumbered rows < 2 ^ 64) ∧
        ∀ row' after, row' :: after <:+ rows → row'.id ≠ 0 →
          row'.id + 1 + unnumbered after < 2 ^ 64 := by
    constructor
    · intro h
      exact ⟨h row rows (List.suffix_refl _),
        fun row' after hsuffix => h row' after (hsuffix.trans (List.suffix_cons row rows))⟩
    · rintro ⟨hrow, hrows⟩ row' after hsuffix
      rcases List.suffix_cons_iff.mp hsuffix with heq | hsuffix
      · cases heq
        exact hrow
      · exact hrows row' after hsuffix
  rw [HasRoom, HasRoom, hbehind]
  unfold number
  by_cases hid : row.id = 0
  · have hcount : unnumbered (row :: rows) = unnumbered rows + 1 :=
      List.countP_cons_of_pos (decide_eq_true hid)
    rw [if_pos hid, hcount]
    simp only [hid, ne_eq, not_true_eq_false, false_implies, true_and]
    refine and_congr_left' ?_
    omega
  · have hcount : unnumbered (row :: rows) = unnumbered rows :=
      List.countP_cons_of_neg (by simpa using hid)
    rw [if_neg hid, hcount, forall_prop_of_true hid, ← and_assoc]
    refine and_congr_left' ?_
    split <;> omega

theorem numberU64_of_lt {next : Nat} (h : (number next row).2 < 2 ^ 64) :
    numberU64 checks next row = .ok (number next row) := by
  unfold number at h
  unfold numberU64 number succU64
  split
  · next hid =>
    rw [if_pos hid] at h
    rw [if_pos h]
    rfl
  · next hid =>
    rw [if_neg hid] at h
    split
    · next hge =>
      rw [if_pos hge] at h
      rw [if_pos h]
      rfl
    · rfl

theorem numberU64_panics {next : Nat} (hnext : next < 2 ^ 64)
    (h : ¬ (number next row).2 < 2 ^ 64) : numberU64 true next row = .error .panic := by
  unfold number at h
  unfold numberU64 succU64
  split
  · next hid =>
    rw [if_pos hid] at h
    rw [if_neg h]
    rfl
  · next hid =>
    rw [if_neg hid] at h
    split
    · next hge =>
      rw [if_pos hge] at h
      rw [if_neg h]
      rfl
    · next hlt =>
      rw [if_neg hlt] at h
      exact absurd hnext h

/-- With room for the rows the counters are natural numbers. -/
theorem insertLoopU64_of_hasRoom {t : Table} {next : Nat} {rows : List Row}
    (h : HasRoom next rows) : insertLoopU64 checks t next rows = .ok (insertLoop t next rows) := by
  induction rows generalizing t next with
  | nil => rfl
  | cons row rest ih =>
    have hrest := hasRoom_cons.mp h
    rw [insertLoop_cons, insertLoopU64, numberU64_of_lt hrest.lt]
    simp only [bind, Except.bind, ih hrest]

theorem insertLoop_lt {t : Table} {next : Nat} {rows : List Row} (h : HasRoom next rows) :
    (insertLoop t next rows).2.1 < 2 ^ 64 := by
  induction rows generalizing t next with
  | nil => exact h.lt
  | cons row rest ih =>
    rw [insertLoop_cons]
    exact ih (hasRoom_cons.mp h)

/-- Without it a build with checks stops. -/
theorem insertLoopU64_panics {t : Table} {next : Nat} {rows : List Row} (hnext : next < 2 ^ 64)
    (h : ¬ HasRoom next rows) : insertLoopU64 true t next rows = .error .panic := by
  induction rows generalizing t next with
  | nil => exact absurd (hasRoom_nil.mpr hnext) h
  | cons row rest ih =>
    rw [hasRoom_cons] at h
    rw [insertLoopU64]
    by_cases hnumber : (number next row).2 < 2 ^ 64
    · rw [numberU64_of_lt hnumber]
      simp only [bind, Except.bind, ih hnumber h]
    · rw [numberU64_panics hnext hnumber]
      rfl

variable [Host] {s : Storage} {tableName : String} {rows : List Row}

theorem insertRowsU64_of_hasRoom (h : HasRoom (s.nextId tableName) rows) :
    s.insertRowsU64 checks tableName rows = .ok (s.insertRows tableName rows) := by
  rw [insertRowsU64, ← nextId, insertLoopU64_of_hasRoom h]
  rfl

theorem nextId_insertRows_lt (h : HasRoom (s.nextId tableName) rows)
    (hs : ∀ name, s.nextId name < 2 ^ 64) (name : String) :
    (s.insertRows tableName rows).2.nextId name < 2 ^ 64 := by
  rw [nextId_insertRows]
  split
  · exact insertLoop_lt h
  · exact hs name

theorem insertRowsU64_panics (hs : ∀ name, s.nextId name < 2 ^ 64)
    (h : ¬ HasRoom (s.nextId tableName) rows) :
    s.insertRowsU64 true tableName rows = .error .panic := by
  rw [insertRowsU64, ← nextId, insertLoopU64_panics (hs tableName) h]
  rfl

end Storage

/-! ## Entries -/

section Theory

variable [Host] {checks : Bool} {m : Memory}

/-- Every row-id counter is a `u64`. -/
def Memory.CountersFit (m : Memory) : Prop := ∀ name, m.storage.nextId name < 2 ^ 64

theorem new_countersFit : Memory.new.CountersFit := by
  intro name
  have hnext : Memory.new.storage.nextId name = 1 := by
    simp [Memory.new, Storage.nextId, Storage.new]
  rw [hnext]
  decide

/-- The counter of the table has room for the rows the entry brings. -/
def Memory.HasRoom (m : Memory) : WalEntry → Prop
  | .insertRows tableName rows => Storage.HasRoom (m.storage.nextId tableName) rows
  | .tableSnapshot tableName rows => Storage.HasRoom (m.storage.nextId tableName) rows
  | _ => True

namespace Memory

theorem applyEntryU64_of_hasRoom {entry : WalEntry} (h : m.HasRoom entry) :
    m.applyEntryU64 checks entry = .ok (m.applyEntry entry) := by
  cases entry with
  | insertRows tableName rows =>
    rw [applyEntryU64, Storage.insertRowsU64_of_hasRoom h]
    rfl
  | tableSnapshot tableName rows =>
    rw [HasRoom, ← Storage.nextId_modifyTable m.storage tableName fun _ => ∅] at h
    rw [applyEntryU64, applyEntry]
    simp only
    split
    · rfl
    · rw [Storage.insertRowsU64_of_hasRoom h]
      rfl
  | _ => rfl

/-- An entry keeps the counters in range if there is room for its rows. -/
theorem countersFit_applyEntry (hm : m.CountersFit) {entry : WalEntry} (h : m.HasRoom entry) :
    (m.applyEntry entry).2.CountersFit := by
  have htry : ∀ r, (m.tryCatalog r).2.CountersFit := by
    intro r name
    rw [tryCatalog_storage]
    exact hm name
  cases entry with
  | insertRows tableName rows => exact Storage.nextId_insertRows_lt h hm
  | tableSnapshot tableName rows =>
    have hclear : ∀ name, (m.storage.modifyTable tableName fun _ => ∅).nextId name < 2 ^ 64 := by
      intro name
      rw [Storage.nextId_modifyTable]
      exact hm name
    rw [HasRoom, ← Storage.nextId_modifyTable m.storage tableName fun _ => ∅] at h
    rw [applyEntry]
    simp only
    split
    · exact hclear
    · exact Storage.nextId_insertRows_lt h hclear
  | dropTable tableName =>
    intro name
    rw [applyEntry]
    split
    · simp only [Storage.nextId_clearTable]
      split
      · decide
      · exact hm name
    · exact hm name
  | createTable tableName columns => exact htry _
  | createIndex dbName indexDef => exact htry _
  | dropIndex dbName indexName tableName => exact htry _
  | checkpoint => exact hm

theorem applyEntryU64_panics (hm : m.CountersFit) {entry : WalEntry} (h : ¬ m.HasRoom entry) :
    m.applyEntryU64 true entry = .error .panic := by
  cases entry with
  | insertRows tableName rows =>
    rw [applyEntryU64, Storage.insertRowsU64_panics hm h]
    rfl
  | tableSnapshot tableName rows =>
    have hrows : ¬ rows.isEmpty = true := by
      intro hempty
      rw [HasRoom, List.isEmpty_iff.mp hempty, Storage.hasRoom_nil] at h
      exact h (hm tableName)
    rw [HasRoom, ← Storage.nextId_modifyTable m.storage tableName fun _ => ∅] at h
    rw [applyEntryU64]
    simp only
    rw [if_neg hrows, Storage.insertRowsU64_panics (fun name => ?_) h]
    · rfl
    · rw [Storage.nextId_modifyTable]
      exact hm name
  | _ => exact absurd trivial h

end Memory

/-! ## Replay -/

variable [Bincode]

/-- A record applied. -/
def applyRecordU64 (checks : Bool) : Nat × Memory → Option WalEntry → Outcome (Nat × Memory)
  | (count, m), none => .ok (count + 1, m)
  | (count, m), some entry => do
    let (applied, m') ← m.applyEntryU64 checks entry
    .ok (if applied then count + 1 else count, m')

omit [Bincode] in
/-- Records that find room, one after the other. -/
theorem foldlM_applyRecordU64 {records : List (Option WalEntry)} {r : Nat × Memory}
    (hroom : ∀ i entry, records[i]? = some (some entry) →
      ((records.take i).foldl applyRecord r).2.HasRoom entry) :
    records.foldlM (applyRecordU64 checks) r = .ok (records.foldl applyRecord r) := by
  induction records generalizing r with
  | nil => rfl
  | cons record rest ih =>
    have hstep : applyRecordU64 checks r record = .ok (applyRecord r record) := by
      obtain ⟨count, m⟩ := r
      cases record with
      | none => rfl
      | some entry =>
        have hfirst : m.HasRoom entry := hroom 0 entry rfl
        rw [applyRecordU64, Memory.applyEntryU64_of_hasRoom hfirst]
        rfl
    rw [List.foldlM_cons, hstep]
    exact ih fun i => hroom (i + 1)

/-- Where reading does not break, a replay applies the records of the log. -/
theorem replayLoopU64_eq {fuel offset : Nat} {bytes : List UInt8}
    {records : List (Nat × Option WalEntry)}
    (h : walReader.recordsLoop fuel offset bytes = some records) (count : Nat) (m : Memory) :
    replayLoopU64 checks fuel bytes count m =
      (records.map Prod.snd).foldlM (applyRecordU64 checks) (count, m) := by
  induction fuel generalizing offset bytes records count m with
  | zero =>
    cases h
    rfl
  | succ fuel ih =>
    rw [RecordReader.recordsLoop, walReader_front, frontRecord] at h
    rw [replayLoopU64]
    by_cases hshort : bytes.length < entryHeaderSize
    · simp only [if_pos hshort] at h ⊢
      cases h
      rfl
    by_cases hmagic : bytes.take 2 ≠ magic
    · simp only [if_neg hshort, if_pos hmagic] at h ⊢
      cases h
      rfl
    by_cases htruncated : bytes.length < entryLength bytes
    · simp only [if_neg hshort, if_neg hmagic, if_pos htruncated] at h ⊢
      cases h
      rfl
    by_cases hbroken : entryLength bytes < entryHeaderSize
    · simp only [if_neg hshort, if_neg hmagic, if_neg htruncated, if_pos hbroken] at h
      cases h
    simp only [if_neg hshort, if_neg hmagic, if_neg htruncated, if_neg hbroken] at h ⊢
    cases hdes : WalEntry.deserialize (bytes.getD 6 0)
        ((bytes.take (entryLength bytes)).drop entryHeaderSize) with
    | none =>
      simp only [hdes] at h
      cases h
      rfl
    | some entry =>
      simp only [hdes, Option.map_eq_some_iff] at h
      obtain ⟨rest, hrest, rfl⟩ := h
      rw [List.map_cons, List.foldlM_cons]
      cases entry with
      | none => exact ih hrest (count + 1) m
      | some entry =>
        simp only [applyRecordU64]
        cases m.applyEntryU64 checks entry with
        | error x => rfl
        | ok r => exact ih hrest _ r.2

theorem replayU64_eq {bytes : List UInt8} {records : List (Nat × Option WalEntry)}
    (h : walReader.records 0 bytes = some records) :
    replayU64 checks bytes m = (records.map Prod.snd).foldlM (applyRecordU64 checks) (0, m) :=
  replayLoopU64_eq h 0 m

/-- A log read to its end whose entries all find room is replayed as with natural
numbers. -/
theorem replayU64_eq_replay {bytes : List UInt8} {records : List (Nat × Option WalEntry)}
    (h : walReader.records 0 bytes = some records)
    (hroom : ∀ i entry, (records.map Prod.snd)[i]? = some (some entry) →
      (((records.map Prod.snd).take i).foldl applyRecord (0, m)).2.HasRoom entry) :
    replayU64 checks bytes m = replay bytes m := by
  rw [replayU64_eq h, replay_eq, h]
  exact foldlM_applyRecordU64 hroom

omit [Bincode] in
/-- The first entry that does not find room stops the replay. -/
theorem foldlM_applyRecordU64_panics {entries : List WalEntry} {count : Nat} (hm : m.CountersFit)
    (h : ¬ ∀ i entry, entries[i]? = some entry → (m.applyAll (entries.take i)).HasRoom entry) :
    (entries.map some).foldlM (applyRecordU64 true) (count, m) = .error .panic := by
  induction entries generalizing count m with
  | nil => exact absurd (fun _ _ hentry => nomatch hentry) h
  | cons first rest ih =>
    rw [List.map_cons, List.foldlM_cons, applyRecordU64]
    by_cases hfirst : m.HasRoom first
    · rw [Memory.applyEntryU64_of_hasRoom hfirst]
      refine ih (Memory.countersFit_applyEntry hm hfirst) fun hrest => h fun i entry hentry => ?_
      cases i with
      | zero =>
        obtain rfl : first = entry := Option.some.inj hentry
        exact hfirst
      | succ i => exact hrest i entry hentry
    · rw [Memory.applyEntryU64_panics hm hfirst]
      rfl

/-! ## Cut logs -/

/-- The replay of a log cut at a byte applies the entries that lie wholly before
the cut, in order and unchanged, and nothing else. -/
def CutReplayed (checks : Bool) (entries : List WalEntry) (cut : Nat) (m : Memory) : Prop :=
  ∃ n ≤ entries.length,
    (∀ i < entries.length, i < n ↔ (logBytes (entries.take (i + 1))).length ≤ cut) ∧
    replayU64 checks ((logBytes entries).take cut) m =
      .ok (m.appliedCount (entries.take n), m.applyAll (entries.take n)) ∧
    ∀ entry ∈ entries.take n,
      WalEntry.deserialize entry.entryType entry.payload = some (some entry)

/-- Every entry before the cut finds room, behind those before it. -/
def FindRoom (entries : List WalEntry) (cut : Nat) (m : Memory) : Prop :=
  ∀ i entry, entries[i]? = some entry → (logBytes (entries.take (i + 1))).length ≤ cut →
    (m.applyAll (entries.take i)).HasRoom entry

theorem findRoom_iff {entries : List WalEntry} {cut n : Nat}
    (hcomplete : ∀ i < entries.length, i < n ↔ (logBytes (entries.take (i + 1))).length ≤ cut) :
    FindRoom entries cut m ↔ ∀ i entry, (entries.take n)[i]? = some entry →
      (m.applyAll ((entries.take n).take i)).HasRoom entry := by
  have hbefore : ∀ i entry, (entries.take n)[i]? = some entry ↔
      entries[i]? = some entry ∧ (logBytes (entries.take (i + 1))).length ≤ cut := by
    intro i entry
    rw [List.getElem?_take]
    constructor
    · intro h
      split at h
      · next hi => exact ⟨h, (hcomplete i (List.getElem?_eq_some_iff.mp h).1).mp hi⟩
      · cases h
    · rintro ⟨h, hcut⟩
      rw [if_pos ((hcomplete i (List.getElem?_eq_some_iff.mp h).1).mpr hcut)]
      exact h
  have htake : ∀ i entry, (entries.take n)[i]? = some entry →
      (entries.take n).take i = entries.take i := by
    intro i entry hentry
    have hi := (List.getElem?_eq_some_iff.mp hentry).1
    rw [List.length_take] at hi
    rw [List.take_take, Nat.min_eq_left (by omega)]
  constructor
  · intro h i entry hentry
    obtain ⟨hthere, hcut⟩ := (hbefore i entry).mp hentry
    rw [htake i entry hentry]
    exact h i entry hthere hcut
  · intro h i entry hthere hcut
    have hentry := (hbefore i entry).mpr ⟨hthere, hcut⟩
    have hroom := h i entry hentry
    rwa [htake i entry hentry] at hroom

/-- With overflow checks the replay of a cut log applies the entries before the
cut exactly when there is room for their rows; without checks it does so then. -/
theorem replay_cut_iff {entries : List WalEntry} (hfit : ∀ entry ∈ entries, entry.Fits)
    (hm : m.CountersFit) (cut : Nat) :
    (CutReplayed true entries cut m ↔ FindRoom entries cut m) ∧
      (FindRoom entries cut m → CutReplayed false entries cut m) := by
  obtain ⟨n, hn, hcomplete, hrecords⟩ := records_cut hfit cut
  have hroom := findRoom_iff (m := m) hcomplete
  have hreplayed : ∀ checks, FindRoom entries cut m → CutReplayed checks entries cut m := by
    intro checks h
    refine ⟨n, hn, hcomplete, ?_, fun entry _ => entry.deserialize_payload⟩
    have hrecordsRoom : ∀ i entry,
        ((entriesAt 0 (entries.take n)).map Prod.snd)[i]? = some (some entry) →
        ((((entriesAt 0 (entries.take n)).map Prod.snd).take i).foldl applyRecord
          (0, m)).2.HasRoom entry := by
      intro i entry hentry
      rw [map_snd_entriesAt] at hentry ⊢
      rw [← List.map_take, foldl_applyRecord]
      rw [List.getElem?_map, Option.map_eq_some_iff] at hentry
      obtain ⟨_, hentry, heq⟩ := hentry
      cases heq
      exact hroom.mp h i entry hentry
    rw [replayU64_eq_replay hrecords hrecordsRoom]
    exact replay_of_entriesAt hrecords m
  refine ⟨⟨fun h => ?_, hreplayed true⟩, hreplayed false⟩
  by_contra hnot
  have hpanic : replayU64 true ((logBytes entries).take cut) m = _ := replayU64_eq hrecords
  rw [map_snd_entriesAt, foldlM_applyRecordU64_panics hm (mt hroom.mpr hnot)] at hpanic
  obtain ⟨_, _, _, hreplay, _⟩ := h
  cases hpanic.symm.trans hreplay

end Theory

/-! ## On concrete logs -/

section Concrete

attribute [local instance] asciiHost bincode1

/-- The row with the id 2^64 - 2, and a row that asks for the next id. -/
def lastIds : WalEntry := .insertRows "t" [⟨2 ^ 64 - 2, [.int 1]⟩, ⟨0, [.int 2]⟩]

/-- The second row gets the id 2^64 - 1, and there is no counter after it: a
replay panics, or goes on with the counter 0. -/
theorem lastIds_not_replayed :
    lastIds.Fits ∧ Memory.new.CountersFit ∧
      (replayU64 true (logBytes [lastIds]) .new).map Prod.fst = .error .panic ∧
      (replayU64 false (logBytes [lastIds]) .new).map (fun r => r.2.storage.nextId "t") = .ok 0 ∧
      ¬ CutReplayed true [lastIds] (logBytes [lastIds]).length .new := by
  have hpanic : (replayU64 true (logBytes [lastIds]) .new).map Prod.fst = .error .panic := by
    decide +kernel
  refine ⟨by decide +kernel, new_countersFit, hpanic, by decide +kernel, ?_⟩
  rintro ⟨_, _, _, hreplay, _⟩
  rw [List.take_length] at hreplay
  rw [hreplay] at hpanic
  cases hpanic

/-- A cut in the second of two entries leaves the first. -/
theorem secondCut_replayed :
    (CutReplayed true [insertOne 1 7, insertOne 2 8] 70 .new ↔
        FindRoom [insertOne 1 7, insertOne 2 8] 70 .new) ∧
      (FindRoom [insertOne 1 7, insertOne 2 8] 70 .new →
        CutReplayed false [insertOne 1 7, insertOne 2 8] 70 .new) :=
  replay_cut_iff (by decide +kernel) new_countersFit 70

end Concrete

end Srrdb.Engine

/-
Srrdb.Engine.LogFormat — what a replay reads of the bytes of a log.

`walReader` is the reader of one record, as the loop of `Wal::replay` reads
it; `replay_eq` says that a replay applies the records of the log in order.
What an entry is serialized to is a written record (`serialize_written`), so
the laws of record logs apply: a log cut at any byte is replayed up to the
last complete entry, and a length field below the header size is all that can
break the reader.
-/
import Srrdb.Engine.Wal
import Srrdb.Lib.RecordLog

namespace Srrdb.Engine

open Srrdb.Lib

section Theory

variable [Bincode]

/-! ## One record -/

/-- What `Wal::replay` finds at the front of the bytes it has left. -/
def frontRecord (bytes : List UInt8) : Front (Option WalEntry) :=
  if bytes.length < entryHeaderSize then .stop
  else if bytes.take 2 ≠ magic then .stop
  else if bytes.length < entryLength bytes then .stop
  else if entryLength bytes < entryHeaderSize then .broken
  else
    match WalEntry.deserialize (bytes.getD 6 0)
        ((bytes.take (entryLength bytes)).drop entryHeaderSize) with
    | none => .stop
    | some entry => .record entry (entryLength bytes)

/-- A record at the front is a whole one that can be deserialized. -/
theorem frontRecord_eq_record {bytes : List UInt8} {entry : Option WalEntry} {size : Nat}
    (h : frontRecord bytes = .record entry size) :
    bytes.take 2 = magic ∧ entryHeaderSize ≤ size ∧ size ≤ bytes.length ∧
      size = entryLength bytes ∧
      WalEntry.deserialize (bytes.getD 6 0) ((bytes.take size).drop entryHeaderSize) =
        some entry := by
  unfold frontRecord at h
  split at h
  · cases h
  · split at h
    · cases h
    · next hmagic =>
      split at h
      · cases h
      · split at h
        · cases h
        · split at h
          · cases h
          · next hdes =>
            cases h
            exact ⟨not_not.mp hmagic, by omega, by omega, rfl, hdes⟩

/-- The reader breaks on a header whose length field is below the header size. -/
theorem frontRecord_eq_broken {bytes : List UInt8} :
    frontRecord bytes = .broken ↔ entryHeaderSize ≤ bytes.length ∧ bytes.take 2 = magic ∧
      entryLength bytes < entryHeaderSize := by
  unfold frontRecord
  constructor
  · intro h
    split at h
    · cases h
    · split at h
      · cases h
      · next hmagic =>
        split at h
        · cases h
        · split at h
          · exact ⟨by omega, not_not.mp hmagic, by assumption⟩
          · split at h <;> cases h
  · rintro ⟨hlen, hmagic, hshort⟩
    rw [if_neg (by omega), if_neg (not_not.mpr hmagic), if_neg (by omega), if_pos hshort]

/-- The reader of `Wal::replay`. -/
def walReader : RecordReader (Option WalEntry) where
  front := frontRecord
  front_nil := rfl
  size_pos h := by
    have := (frontRecord_eq_record h).2.1
    unfold entryHeaderSize at this
    omega
  size_le h := (frontRecord_eq_record h).2.2.1

theorem walReader_front (bytes : List UInt8) : walReader.front bytes = frontRecord bytes := rfl

/-! ## Replay -/

variable [Host]

/-- A record of the log applied: the entries counted so far and the memory.
An entry of an unknown type counts and does nothing. -/
def applyRecord : Nat × Memory → Option WalEntry → Nat × Memory
  | (count, m), none => (count + 1, m)
  | (count, m), some entry =>
    let (applied, m') := m.applyEntry entry
    (if applied then count + 1 else count, m')

theorem replayLoop_eq (fuel offset : Nat) (bytes : List UInt8) (count : Nat) (m : Memory) :
    replayLoop fuel bytes count m =
      match walReader.recordsLoop fuel offset bytes with
      | none => .error .panic
      | some records => .ok ((records.map Prod.snd).foldl applyRecord (count, m)) := by
  induction fuel generalizing offset bytes count m with
  | zero => rfl
  | succ fuel ih =>
    rw [replayLoop, RecordReader.recordsLoop]
    rw [walReader_front, frontRecord]
    split
    · rfl
    · split
      · rfl
      · split
        · rfl
        · split
          · rfl
          · cases WalEntry.deserialize (bytes.getD 6 0)
                ((bytes.take (entryLength bytes)).drop entryHeaderSize) with
            | none => rfl
            | some entry =>
              cases entry with
              | none =>
                simp only
                rw [ih (offset + entryLength bytes)]
                cases walReader.recordsLoop fuel (offset + entryLength bytes)
                  (bytes.drop (entryLength bytes)) <;> rfl
              | some entry =>
                simp only
                rw [ih (offset + entryLength bytes)]
                cases walReader.recordsLoop fuel (offset + entryLength bytes)
                  (bytes.drop (entryLength bytes)) <;> rfl

/-- A replay applies the records of the log, and panics where reading breaks. -/
theorem replay_eq (bytes : List UInt8) (m : Memory) :
    replay bytes m = match walReader.records 0 bytes with
      | none => .error .panic
      | some records => .ok ((records.map Prod.snd).foldl applyRecord (0, m)) :=
  replayLoop_eq bytes.length 0 bytes 0 m

/-- How many of the entries can be applied when all are, in order. -/
def Memory.appliedCount : Memory → List WalEntry → Nat
  | _, [] => 0
  | m, entry :: entries =>
    (if (m.applyEntry entry).1 then 1 else 0) + (m.applyEntry entry).2.appliedCount entries

omit [Bincode] in
theorem foldl_applyRecord (entries : List WalEntry) (count : Nat) (m : Memory) :
    (entries.map some).foldl applyRecord (count, m) =
      (count + m.appliedCount entries, m.applyAll entries) := by
  induction entries generalizing count m with
  | nil => rfl
  | cons entry entries ih =>
    rw [List.map_cons, List.foldl_cons, Memory.applyAll_cons, Memory.appliedCount, applyRecord]
    simp only
    rw [ih]
    congr 1
    split <;> omega

omit [Host]

/-! ## Serialized entries -/

/-- The whole of the entry fits the 4-byte length field. -/
def WalEntry.Fits (entry : WalEntry) : Prop := entryHeaderSize + entry.payload.length < 2 ^ 32

omit [Bincode] in
theorem length_frame (entryType : UInt8) (payload : List UInt8) :
    (frame entryType payload).length = entryHeaderSize + payload.length := by
  simp [frame, magic, entryHeaderSize]
  omega

omit [Bincode] in
/-- The length field of a frame, when the length fits it. -/
theorem entryLength_frame (entryType : UInt8) {payload : List UInt8}
    (h : entryHeaderSize + payload.length < 2 ^ 32) (rest : List UInt8) :
    entryLength (frame entryType payload ++ rest) = entryHeaderSize + payload.length := by
  have hfield : ((frame entryType payload ++ rest).drop 2).take 4 =
      Codec.leBytes 4 (entryHeaderSize + payload.length) := by
    simp [frame, magic, List.append_assoc]
  rw [entryLength, hfield, Codec.leValue_leBytes_of_lt (by omega)]

omit [Bincode] in
/-- The length field is read from the header alone. -/
theorem entryLength_take {k : Nat} (h : 6 ≤ k) (bytes : List UInt8) :
    entryLength (bytes.take k) = entryLength bytes := by
  rw [entryLength, entryLength, List.drop_take, List.take_take, Nat.min_eq_left (by omega)]

omit [Bincode] in
/-- The parts of a frame. -/
theorem frame_parts (entryType : UInt8) (payload rest : List UInt8) :
    (frame entryType payload ++ rest).take 2 = magic ∧
      (frame entryType payload ++ rest).getD 6 0 = entryType ∧
      ((frame entryType payload ++ rest).take (entryHeaderSize + payload.length)).drop
        entryHeaderSize = payload := by
  refine ⟨by simp [frame, magic], ?_, ?_⟩
  · simp [frame, magic, List.getD_eq_getElem?_getD]
  · rw [List.take_append_of_le_length (length_frame entryType payload).ge,
      List.take_of_length_le (length_frame entryType payload).le]
    have hheader : (magic ++ Codec.leBytes 4 (entryHeaderSize + payload.length) ++
        [entryType]).length = entryHeaderSize := by
      simp [magic, entryHeaderSize]
    rw [frame, List.drop_left' hheader]

/-- A frame whose payload can be deserialized is a written record. -/
theorem frame_written {entryType : UInt8} {payload : List UInt8} {entry : Option WalEntry}
    (hfit : entryHeaderSize + payload.length < 2 ^ 32)
    (hdes : WalEntry.deserialize entryType payload = some entry) :
    walReader.Written (frame entryType payload) entry where
  read rest := by
    obtain ⟨hmagic, htype, hpayload⟩ := frame_parts entryType payload rest
    have hlen : (frame entryType payload ++ rest).length =
        entryHeaderSize + payload.length + rest.length := by
      rw [List.length_append, length_frame]
    rw [walReader_front, frontRecord, if_neg (by omega), if_neg (not_not.mpr hmagic), entryLength_frame entryType hfit,
      if_neg (by omega), if_neg (by omega), htype, hpayload, hdes, length_frame]
  cut k hk := by
    have hframe := length_frame entryType payload
    have hlen : ((frame entryType payload).take k).length = k := by
      rw [List.length_take]
      omega
    rw [walReader_front, frontRecord]
    by_cases hheader : k < entryHeaderSize
    · rw [if_pos (by omega)]
    · have hfield : entryLength ((frame entryType payload).take k) =
          entryHeaderSize + payload.length := by
        have hwhole := entryLength_frame entryType hfit []
        rw [List.append_nil] at hwhole
        rw [entryLength_take (by unfold entryHeaderSize at hheader; omega), hwhole]
      rw [if_neg (by omega)]
      split
      · rfl
      · rw [if_pos (by omega)]

/-- `deserialize` undoes `serialize`. -/
theorem WalEntry.deserialize_payload (entry : WalEntry) :
    WalEntry.deserialize entry.entryType entry.payload = some (some entry) := by
  cases entry <;>
    simp [WalEntry.deserialize, WalEntry.entryType, WalEntry.payload, deserializeString]

theorem serialize_written {entry : WalEntry} (h : entry.Fits) :
    walReader.Written entry.serialize (some entry) :=
  frame_written h entry.deserialize_payload

/-! ## Cut logs -/

/-- A log of entries as it is on disk. -/
def logBytes (entries : List WalEntry) : List UInt8 := entries.flatMap WalEntry.serialize

@[simp] theorem logBytes_nil : logBytes [] = [] := rfl

/-- Where the entries of a log stand that starts at an offset. -/
def entriesAt (offset : Nat) (entries : List WalEntry) : List (Nat × Option WalEntry) :=
  RecordReader.placed WalEntry.serialize some offset entries

theorem map_snd_entriesAt (offset : Nat) (entries : List WalEntry) :
    (entriesAt offset entries).map Prod.snd = entries.map some :=
  RecordReader.map_snd_placed WalEntry.serialize some offset entries

/-- Where just these entries are read, a replay applies just them. -/
theorem replay_of_entriesAt [Host] {bytes : List UInt8} {entries : List WalEntry}
    (h : walReader.records 0 bytes = some (entriesAt 0 entries)) (m : Memory) :
    replay bytes m = .ok (m.appliedCount entries, m.applyAll entries) := by
  rw [replay_eq, h]
  simp only [map_snd_entriesAt, foldl_applyRecord, Nat.zero_add]

/-- A whole log: the replay applies its entries in order. -/
theorem replay_logBytes [Host] {entries : List WalEntry} (hfit : ∀ entry ∈ entries, entry.Fits)
    (m : Memory) :
    replay (logBytes entries) m = .ok (m.appliedCount entries, m.applyAll entries) := by
  refine replay_of_entriesAt ?_ m
  have hend : ∀ offset, walReader.records offset [] = some [] := RecordReader.records_stop rfl
  have happend := RecordReader.records_append (fun e h => serialize_written (hfit e h)) 0 []
  rw [List.append_nil, hend, Option.map_some, List.append_nil] at happend
  exact happend

/-- Of a log cut at any byte, the entries that lie wholly before the cut are read. -/
theorem records_cut {entries : List WalEntry} (hfit : ∀ entry ∈ entries, entry.Fits) (cut : Nat) :
    ∃ n ≤ entries.length,
      (∀ i < entries.length, i < n ↔ (logBytes (entries.take (i + 1))).length ≤ cut) ∧
      walReader.records 0 ((logBytes entries).take cut) =
        some (entriesAt 0 (entries.take n)) :=
  RecordReader.records_take (fun entry h => serialize_written (hfit entry h)) 0 cut

/-! ## Length fields below the header size -/

omit [Bincode] in
/-- Bytes with the magic and their own length are a frame. -/
theorem eq_frame {bytes : List UInt8} (hmagic : bytes.take 2 = magic)
    (hlen : entryHeaderSize ≤ entryLength bytes) (hle : entryLength bytes ≤ bytes.length) :
    bytes = frame (bytes.getD 6 0) ((bytes.take (entryLength bytes)).drop entryHeaderSize) ++
        bytes.drop (entryLength bytes) ∧
      entryHeaderSize + ((bytes.take (entryLength bytes)).drop entryHeaderSize).length < 2 ^ 32 := by
  unfold entryHeaderSize at hlen
  have hpayload : ((bytes.take (entryLength bytes)).drop entryHeaderSize).length =
      entryLength bytes - entryHeaderSize := by
    rw [List.length_drop, List.length_take, Nat.min_eq_left hle]
  have hfield : ((bytes.drop 2).take 4).length = 4 := by
    rw [List.length_take, List.length_drop]
    omega
  have hlt : entryLength bytes < 256 ^ 4 := by
    have := Codec.leValue_lt ((bytes.drop 2).take 4)
    rwa [hfield] at this
  have hbytes : Codec.leBytes 4 (entryLength bytes) = (bytes.drop 2).take 4 :=
    Codec.leBytes_leValue hfield
  have htype : [bytes.getD 6 0] = (bytes.drop 6).take 1 := by
    have hget : bytes[6]? = some (bytes.getD 6 0) := by
      rw [List.getD_eq_getElem?_getD]
      cases hget : bytes[6]? with
      | none => rw [List.getElem?_eq_none_iff] at hget; omega
      | some b => rfl
    rw [List.take_one, List.head?_drop, hget]
    rfl
  have hsum : entryHeaderSize + (entryLength bytes - entryHeaderSize) = entryLength bytes := by
    unfold entryHeaderSize
    omega
  refine ⟨?_, by rw [hpayload, hsum]; omega⟩
  have hsplit : ∀ i k, (bytes.drop i).take k ++ bytes.drop (i + k) = bytes.drop i := by
    intro i k
    rw [← List.drop_drop, List.take_append_drop]
  have hlast : 7 + (entryLength bytes - 7) = entryLength bytes := by omega
  have hrest := hsplit 7 (entryLength bytes - 7)
  rw [hlast, ← List.drop_take] at hrest
  rw [frame, hpayload, hsum, hbytes, htype, ← hmagic]
  simp only [List.append_assoc, entryHeaderSize]
  rw [hrest, hsplit 6 1, hsplit 2 4, List.take_append_drop]

/-- Reading a record leaves what stands behind a frame. -/
theorem frontRecord_frame {bytes : List UInt8} {entry : Option WalEntry} {size : Nat}
    (h : frontRecord bytes = .record entry size) :
    ∃ entryType payload, entryHeaderSize + payload.length < 2 ^ 32 ∧
      WalEntry.deserialize entryType payload = some entry ∧
      bytes = frame entryType payload ++ bytes.drop size := by
  obtain ⟨hmagic, hheader, hle, rfl, hdes⟩ := frontRecord_eq_record h
  obtain ⟨hframe, hfit⟩ := eq_frame hmagic hheader hle
  exact ⟨_, _, hfit, hdes, hframe⟩

/-- A complete record that can be deserialized, by its type and its payload. -/
def Readable (r : UInt8 × List UInt8) : Prop :=
  entryHeaderSize + r.2.length < 2 ^ 32 ∧ ∃ entry, WalEntry.deserialize r.1 r.2 = some entry

/-- Records one after the other. -/
def framesBytes (rs : List (UInt8 × List UInt8)) : List UInt8 := rs.flatMap fun r => frame r.1 r.2

/-- The walk over a log passes over readable records. -/
theorem reaches_iff {bytes rest : List UInt8} :
    walReader.Reaches bytes rest ↔ ∃ rs, (∀ r ∈ rs, Readable r) ∧ bytes = framesBytes rs ++ rest := by
  constructor
  · intro h
    induction h with
    | refl bytes => exact ⟨[], List.forall_mem_nil _, rfl⟩
    | @step bytes rest entry size hfront _ ih =>
      obtain ⟨rs, hrs, heq⟩ := ih
      obtain ⟨entryType, payload, hfit, hdes, hframe⟩ := frontRecord_frame hfront
      refine ⟨(entryType, payload) :: rs, List.forall_mem_cons.mpr ⟨⟨hfit, entry, hdes⟩, hrs⟩, ?_⟩
      rw [framesBytes, List.flatMap_cons, List.append_assoc, ← framesBytes, ← heq]
      exact hframe
  · rintro ⟨rs, hrs, rfl⟩
    induction rs with
    | nil => exact .refl _
    | cons r rs ih =>
      obtain ⟨⟨hfit, entry, hdes⟩, hrs⟩ := List.forall_mem_cons.mp hrs
      rw [framesBytes, List.flatMap_cons, ← framesBytes, List.append_assoc]
      refine .step ((frame_written hfit hdes).read (framesBytes rs ++ rest)) ?_
      rw [List.drop_left]
      exact ih hrs

/-- Readable records, and behind them a header whose length field is below the
size of the header. -/
def ShortLength (bytes : List UInt8) : Prop :=
  ∃ rs n rest, (∀ r ∈ rs, Readable r) ∧ n < entryHeaderSize ∧ rest ≠ [] ∧
    bytes = framesBytes rs ++ (magic ++ Codec.leBytes 4 n ++ rest)

/-- The bytes the reader breaks on. -/
theorem broken_iff {bytes : List UInt8} :
    frontRecord bytes = .broken ↔
      ∃ n rest, n < entryHeaderSize ∧ rest ≠ [] ∧ bytes = magic ++ Codec.leBytes 4 n ++ rest := by
  rw [frontRecord_eq_broken]
  constructor
  · rintro ⟨hlen, hmagic, hshort⟩
    unfold entryHeaderSize at hlen
    have hfield : ((bytes.drop 2).take 4).length = 4 := by
      rw [List.length_take, List.length_drop]
      omega
    refine ⟨entryLength bytes, bytes.drop 6, hshort, ?_, ?_⟩
    · rw [ne_eq, List.drop_eq_nil_iff]
      omega
    · have hsix : (bytes.drop 2).drop 4 = bytes.drop 6 := List.drop_drop
      rw [entryLength, Codec.leBytes_leValue hfield, ← hmagic, List.append_assoc, ← hsix,
        List.take_append_drop, List.take_append_drop]
  · rintro ⟨n, rest, hn, hrest, rfl⟩
    have hpos : 0 < rest.length := List.length_pos_iff.mpr hrest
    refine ⟨?_, by simp [magic], ?_⟩
    · simp [magic, entryHeaderSize]
      omega
    · have hfield : ((magic ++ Codec.leBytes 4 n ++ rest).drop 2).take 4 = Codec.leBytes 4 n := by
        simp [magic]
      unfold entryHeaderSize at hn ⊢
      rw [entryLength, hfield, Codec.leValue_leBytes_of_lt (by omega)]
      exact hn

/-- A replay panics on the logs with a short length field, and on no others. -/
theorem replay_panics_iff [Host] {bytes : List UInt8} (m : Memory) :
    replay bytes m = .error .panic ↔ ShortLength bytes := by
  have hpanic : replay bytes m = .error .panic ↔ walReader.records 0 bytes = none := by
    rw [replay_eq]
    cases walReader.records 0 bytes <;> simp
  rw [hpanic, RecordReader.records_eq_none_iff]
  constructor
  · rintro ⟨rest, hreach, hbroken⟩
    obtain ⟨rs, hrs, rfl⟩ := reaches_iff.mp hreach
    obtain ⟨n, rest, hn, hrest, rfl⟩ := broken_iff.mp hbroken
    exact ⟨rs, n, rest, hrs, hn, hrest, rfl⟩
  · rintro ⟨rs, n, rest, hrs, hn, hrest, rfl⟩
    exact ⟨_, reaches_iff.mpr ⟨rs, hrs, rfl⟩, broken_iff.mpr ⟨n, rest, hn, hrest, rfl⟩⟩

/-- The checkpoint reader panics on a short length field of the first record
only. -/
theorem shortLength_of_replayCheckpoint [Host] {bytes : List UInt8}
    (h : replayCheckpoint bytes = .error .panic) : ShortLength bytes := by
  unfold replayCheckpoint at h
  split at h
  · cases h
  · next hheader =>
    push Not at hheader
    split at h
    · cases h
    · split at h
      · next hshort =>
        have hbroken : frontRecord bytes = .broken := by
          refine frontRecord_eq_broken.mpr ⟨hheader.1, hheader.2, ?_⟩
          have := hheader.1
          omega
        obtain ⟨n, rest, hn, hrest, heq⟩ := broken_iff.mp hbroken
        exact ⟨[], n, rest, List.forall_mem_nil _, hn, hrest, heq⟩
      · simp only at h
        split at h
        · cases h
        · split at h
          · cases h
          · split at h
            · cases h
            · split at h <;> cases h

/-- Neither reader of the log panics, on whatever memory, exactly when no
length field is too short. -/
theorem startup_survives_iff [Host] (bytes : List UInt8) :
    ((∀ m, replay bytes m ≠ .error .panic) ∧ replayCheckpoint bytes ≠ .error .panic) ↔
      ¬ ShortLength bytes := by
  constructor
  · rintro ⟨hreplay, -⟩ hshort
    exact hreplay .new ((replay_panics_iff .new).mpr hshort)
  · intro hshort
    exact ⟨fun m hpanic => hshort ((replay_panics_iff m).mp hpanic),
      fun hpanic => hshort (shortLength_of_replayCheckpoint hpanic)⟩

/-! ## Appending after a crash -/

omit [Bincode] in
/-- `Wal::open`: the file at its end, created when there is none. -/
def openWal (file : Option (List UInt8)) : List UInt8 := file.getD []

/-- `Wal::append`. -/
def appendWal (file : List UInt8) (entry : WalEntry) : List UInt8 := file ++ entry.serialize

theorem foldl_appendWal (entries : List WalEntry) (file : List UInt8) :
    entries.foldl appendWal file = file ++ logBytes entries := by
  induction entries generalizing file with
  | nil => rw [logBytes_nil, List.append_nil, List.foldl_nil]
  | cons entry entries ih =>
    rw [List.foldl_cons, ih, appendWal, logBytes, logBytes, List.flatMap_cons, List.append_assoc]

/-- The entries that were complete before a crash, what the crash left of one
more entry, and the entries appended after the restart. A replay reads all of
them where they were written exactly when none was appended: the torn bytes
stay in front of the later entries. -/
theorem torn_tail [Host] {before after : List WalEntry} {entry : WalEntry} {torn : List UInt8}
    (hbefore : ∀ e ∈ before, e.Fits) (hentry : entry.Fits) (htorn : torn <+: entry.serialize)
    (hne : torn ≠ []) (hstrict : torn ≠ entry.serialize) :
    (walReader.records 0 (after.foldl appendWal (openWal (some (logBytes before ++ torn)))) =
        some (entriesAt 0 before ++ entriesAt (logBytes before ++ torn).length after) ↔
      after = []) ∧
    (after = [] → ∀ m,
      replay (after.foldl appendWal (openWal (some (logBytes before ++ torn)))) m =
        .ok (m.appliedCount (before ++ after), m.applyAll (before ++ after))) := by
  have hrecords : ∀ rest, walReader.records 0 (logBytes before ++ rest) =
      (walReader.records (logBytes before).length rest).map (entriesAt 0 before ++ ·) := by
    intro rest
    have := RecordReader.records_append (fun e h => serialize_written (hbefore e h)) 0 rest
    rwa [Nat.zero_add] at this
  -- alone, the torn bytes are not read
  have hstop : walReader.front torn = .stop := by
    have hlen : torn.length < entry.serialize.length :=
      lt_of_le_of_ne htorn.length_le fun h => hstrict (htorn.eq_of_length h)
    have := (serialize_written hentry).cut torn.length hlen
    rwa [← List.prefix_iff_eq_take.mp htorn] at this
  rw [foldl_appendWal, openWal, Option.getD_some, List.append_assoc]
  constructor
  · rw [hrecords, Option.map_eq_some_iff]
    constructor
    · rintro ⟨records, hread, heq⟩
      obtain rfl := List.append_cancel_left heq
      cases after with
      | nil => rfl
      | cons e rest =>
        -- whatever is read behind the complete entries starts at the torn bytes
        have hhead := RecordReader.head_records hread
        have hpos : 0 < torn.length := List.length_pos_iff.mpr hne
        rw [List.length_append] at hhead
        simp only at hhead
        omega
    · rintro rfl
      refine ⟨[], ?_, rfl⟩
      rw [logBytes_nil, List.append_nil]
      exact RecordReader.records_stop hstop _
  · rintro rfl m
    rw [logBytes_nil, List.append_nil, List.append_nil]
    refine replay_of_entriesAt ?_ m
    rw [hrecords, RecordReader.records_stop hstop, Option.map_some, List.append_nil]

end Theory

section Concrete

attribute [local instance] asciiHost bincode1

/-- A row `n` of the table `t`, inserted. -/
def insertOne (id : Nat) (n : Int64) : WalEntry := .insertRows "t" [⟨id, [.int n]⟩]

instance (entry : WalEntry) : Decidable entry.Fits := inferInstanceAs (Decidable (_ < _))

/-- A length field of 6 in the first record stops the replay, and one behind
the type of a checkpoint also the checkpoint reader. -/
theorem shortLength_panics :
    replay [0x53, 0x44, 6, 0, 0, 0, 1] .new = .error .panic ∧
      replayCheckpoint [0x53, 0x44, 6, 0, 0, 0, 255] = .error .panic :=
  ⟨rfl, rfl⟩

/-- Eight bytes of an entry are left by a crash; of the entries appended after
the restart the replay applies none, where it should apply the second row. -/
theorem torn_tail_swallows :
    (insertOne 2 8).Fits ∧ (insertOne 2 8).serialize.take 8 ≠ [] ∧
      (insertOne 2 8).serialize.take 8 ≠ (insertOne 2 8).serialize ∧
      (replay ([insertOne 2 9].foldl appendWal
          (openWal (some (logBytes [insertOne 1 7] ++ (insertOne 2 8).serialize.take 8))))
          .new).map (fun r => (r.1, r.2.storage.getRows "t")) = .ok (1, [⟨1, [.int 7]⟩]) ∧
      (Memory.new.applyAll ([insertOne 1 7] ++ [insertOne 2 9])).storage.getRows "t" =
        [⟨1, [.int 7]⟩, ⟨2, [.int 9]⟩] := by
  decide +kernel

theorem torn_tail_alone :
    (walReader.records 0 (([] : List WalEntry).foldl appendWal
        (openWal (some (logBytes [insertOne 1 7] ++ (insertOne 2 8).serialize.take 8)))) =
        some (entriesAt 0 [insertOne 1 7] ++
          entriesAt (logBytes [insertOne 1 7] ++ (insertOne 2 8).serialize.take 8).length []) ↔
      ([] : List WalEntry) = []) ∧
    (([] : List WalEntry) = [] → ∀ m,
      replay (([] : List WalEntry).foldl appendWal
          (openWal (some (logBytes [insertOne 1 7] ++ (insertOne 2 8).serialize.take 8)))) m =
        .ok (m.appliedCount ([insertOne 1 7] ++ []), m.applyAll ([insertOne 1 7] ++ []))) :=
  torn_tail (by decide +kernel) (by decide +kernel) (List.take_prefix 8 _) (by decide +kernel)
    (by decide +kernel)

end Concrete

end Srrdb.Engine

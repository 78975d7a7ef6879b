/-
Srrdb.Client.ResultSets — result sets from the server to the client.

The client takes apart what the server put together: numbers and texts behind
their length (`parseLenencStr_lenencStr`), column definitions, rows. A length
below 2^24 never starts with 0xFE, which is why a row is not taken for the end
of the rows, and no length starts with 0xFB, which stands for NULL. The packets
of a result set are read in order, up to the last and no further
(`resultSet_round_trip`).
-/
import Srrdb.Client.Truncation
import Srrdb.Server.Connection

namespace Srrdb.Client

open Srrdb.Lib Srrdb.Protocol Srrdb.Engine Srrdb.Connection

/-! ## Numbers and texts -/

/-- The client reads a number as the server wrote it, and no byte more. -/
theorem parseLenencInt_lenencIntBytes (v : UInt64) (rest : List UInt8) :
    parseLenencInt (lenencIntBytes v ++ rest) = .ok (v, (lenencIntBytes v).length) := by
  have hread := readNumber_of_announces (announces_lenencIntBytes 0 v) rest
  rw [← parseLenencInt_eq] at hread
  cases hparse : parseLenencInt (lenencIntBytes v ++ rest) with
  | error x =>
    rw [hparse] at hread
    cases hread
  | ok r =>
    rw [hparse] at hread
    obtain ⟨hvalue, hlength⟩ := Prod.mk.inj (Except.ok.inj hread)
    rw [← hlength, ← UInt64.toNat_inj.mp hvalue]

/-- The first byte of a number tells it from NULL, an error, and, when the
number is not large, from an OK and the end of the rows. -/
theorem lenencIntBytes_head (v : UInt64) :
    ∃ first tail, lenencIntBytes v = first :: tail ∧ first ≠ 0xFB ∧ first ≠ 0xFF ∧
      (0 < v.toNat → first ≠ 0x00) ∧ (v.toNat < 2 ^ 24 → first ≠ 0xFE) := by
  unfold lenencIntBytes
  split_ifs with h1 h2 h3
  · have hv : v.toNat < 251 := UInt64.lt_iff_toNat_lt.mp h1
    have hne : ∀ b : UInt8, b.toNat ≠ v.toNat → v.toUInt8 ≠ b := by
      intro b hb heq
      apply hb
      rw [← heq, UInt64.toNat_toUInt8]
      omega
    have hlarge : ∀ b : UInt8, 251 ≤ b.toNat → v.toUInt8 ≠ b := fun b hb => hne b (by omega)
    have hnull := hlarge 0xFB (by decide)
    have herr := hlarge 0xFF (by decide)
    have heof := hlarge 0xFE (by decide)
    exact ⟨_, [], rfl, hnull, herr, fun hpos => hne 0x00 (Nat.ne_of_lt hpos), fun _ => heof⟩
  · exact ⟨0xFC, _, rfl, by decide, by decide, fun _ => by decide, fun _ => by decide⟩
  · exact ⟨0xFD, _, rfl, by decide, by decide, fun _ => by decide, fun _ => by decide⟩
  · have hv : ¬ v.toNat < 16777216 := fun h => h3 (UInt64.lt_iff_toNat_lt.mpr h)
    exact ⟨0xFE, _, rfl, by decide, by decide, fun _ => by decide, fun h => absurd h hv⟩

theorem toNat_length {data : List UInt8} (h : data.length < 2 ^ 64) :
    (UInt64.ofNat data.length).toNat = data.length := by
  rw [UInt64.toNat_ofNat', Nat.mod_eq_of_lt h]

theorem parseLenencStr_lenencStr {data : List UInt8} (h : data.length < 2 ^ 64)
    (rest : List UInt8) :
    parseLenencStr (lenencStr data ++ rest) = .ok (data, (lenencStr data).length) := by
  have hint := parseLenencInt_lenencIntBytes (.ofNat data.length) (data ++ rest)
  have hslice : slice (lenencIntBytes (.ofNat data.length) ++ data ++ rest)
      (lenencIntBytes (.ofNat data.length)).length data.length = .ok data :=
    slice_append _ rest rfl rfl
  rw [← List.append_assoc] at hint
  simp only [parseLenencStr, lenencStr, hint, bind, Except.bind, toNat_length h, hslice, pure,
    Except.pure, List.length_append]

/-! ## Columns and rows -/

/-- A column definition starts with six texts, of which the client keeps the
fifth. -/
theorem parseColumnDef_append {catalog schema table orgTable name : List UInt8}
    (hcatalog : catalog.length < 2 ^ 64) (hschema : schema.length < 2 ^ 64)
    (htable : table.length < 2 ^ 64) (horgTable : orgTable.length < 2 ^ 64)
    (hname : name.length < 2 ^ 64) (rest : List UInt8) :
    parseColumnDef (lenencStr catalog ++ (lenencStr schema ++ (lenencStr table ++
      (lenencStr orgTable ++ (lenencStr name ++ rest))))) = .ok ⟨name⟩ := by
  generalize hdata : lenencStr catalog ++ _ = data
  -- what is left at each of the five positions
  have h1 : sliceFrom data 0 = .ok data := sliceFrom_append [] data
  have h2 := sliceFrom_append (lenencStr catalog) (lenencStr schema ++
    (lenencStr table ++ (lenencStr orgTable ++ (lenencStr name ++ rest))))
  have h3 := sliceFrom_append (lenencStr catalog ++ lenencStr schema)
    (lenencStr table ++ (lenencStr orgTable ++ (lenencStr name ++ rest)))
  have h4 := sliceFrom_append (lenencStr catalog ++ lenencStr schema ++ lenencStr table)
    (lenencStr orgTable ++ (lenencStr name ++ rest))
  have h5 := sliceFrom_append (lenencStr catalog ++ lenencStr schema ++ lenencStr table ++
    lenencStr orgTable) (lenencStr name ++ rest)
  simp only [List.append_assoc, hdata, List.length_append] at h2 h3 h4 h5
  simp only [← Nat.add_assoc] at h3 h4 h5
  have hfirst : parseLenencStr data = .ok (catalog, (lenencStr catalog).length) :=
    hdata ▸ parseLenencStr_lenencStr hcatalog _
  simp only [parseColumnDef, bind, Except.bind, h1, hfirst, Nat.zero_add, h2, h3, h4, h5,
    parseLenencStr_lenencStr, hschema, htable, horgTable, hname, pure, Except.pure]

theorem length_le_lenencStr (data : List UInt8) : data.length ≤ (lenencStr data).length := by
  rw [lenencStr, List.length_append]
  omega

/-- The client keeps the name of a column. -/
theorem parseColumnDef_columnDefinitionPayload {column : Column}
    (h : (columnDefinitionPayload column).length < 2 ^ 24) :
    parseColumnDef (columnDefinitionPayload column) = .ok ⟨asBytes column.name⟩ := by
  have htable := length_le_lenencStr (asBytes column.table)
  have hname := length_le_lenencStr (asBytes column.name)
  simp only [columnDefinitionPayload, List.append_assoc, List.length_append] at h ⊢
  exact parseColumnDef_append (by decide) (by decide) (by omega) (by omega) (by omega) _

/-- A cell that is not NULL does not start like one. -/
theorem cellPayload_head (cell : Option (List UInt8)) :
    ∃ first tail, cellPayload cell = first :: tail ∧ (first = 0xFB ↔ cell = none) := by
  cases cell with
  | none => exact ⟨0xFB, [], rfl, by simp⟩
  | some text =>
    obtain ⟨first, tail, hhead, hnull, -⟩ := lenencIntBytes_head (.ofNat text.length)
    refine ⟨first, tail ++ text, ?_, iff_of_false hnull (by simp)⟩
    rw [cellPayload, lenencStr, hhead, List.cons_append]

/-- The client takes a row apart into the cells it was made of. -/
theorem parseCells_flatMap {payload : List UInt8} {cells : List (Option (List UInt8))}
    {fuel pos : Nat} (hdrop : payload.drop pos = cells.flatMap cellPayload)
    (hshort : ∀ text, some text ∈ cells → text.length < 2 ^ 64) (hfuel : cells.length ≤ fuel) :
    parseCells payload fuel pos = .ok cells := by
  induction cells generalizing fuel pos with
  | nil =>
    cases fuel with
    | zero => rfl
    | succ fuel => rw [parseCells, hdrop]; rfl
  | cons cell cells ih =>
    obtain ⟨fuel, rfl⟩ : ∃ k, fuel = k + 1 := ⟨fuel - 1, by simp at hfuel; omega⟩
    have hrest : payload.drop (pos + (cellPayload cell).length) = cells.flatMap cellPayload := by
      rw [← List.drop_drop, hdrop, List.flatMap_cons, List.drop_left]
    have hparsed := ih hrest (fun text hmem => hshort text (List.mem_cons_of_mem _ hmem))
      (Nat.le_of_succ_le_succ hfuel)
    obtain ⟨first, tail, hhead, hnull⟩ := cellPayload_head cell
    rw [List.flatMap_cons] at hdrop
    rw [parseCells, hdrop, hhead, List.cons_append]
    by_cases hnone : cell = none
    · subst hnone
      rw [cellPayload, List.length_singleton] at hparsed
      simp only [if_pos (hnull.mpr rfl), hparsed, bind, Except.bind, pure, Except.pure]
    · obtain ⟨text, rfl⟩ := Option.ne_none_iff_exists'.mp hnone
      have htext := parseLenencStr_lenencStr (hshort text List.mem_cons_self)
        (cells.flatMap cellPayload)
      rw [show lenencStr text = first :: tail from hhead, List.cons_append] at htext
      rw [hhead] at hparsed
      simp only [if_neg (fun h => hnone (hnull.mp h)), htext, hparsed, bind, Except.bind, pure,
        Except.pure]

/-! ## Packets -/

theorem reads_nextPacket (seq : UInt8) {payload : List UInt8} (h : payload.length < 2 ^ 24) :
    Reader.Reads nextPacket (writePacket seq payload) ⟨seq, payload⟩ := by
  intro rest
  rw [nextPacket, readPacket_writePacket seq h]
  rfl

theorem reads_readColumn {column : Column} (seq : UInt8)
    (h : (columnDefinitionPayload column).length < 2 ^ 24) :
    Reader.Reads readColumn (writePacket seq (columnDefinitionPayload column))
      ⟨asBytes column.name⟩ := by
  have hread : Reader.Reads readColumn
      (writePacket seq (columnDefinitionPayload column) ++ []) ⟨asBytes column.name⟩ := by
    refine (reads_nextPacket seq h).bind ?_
    exact Reader.reads_lift (parseColumnDef_columnDefinitionPayload h)
  rwa [List.append_nil] at hread

/-- The cells the client makes of a row. -/
def rowCells (row : Row) : List (Option (List UInt8)) := row.values.map textForm

theorem textRowPayload_eq (row : Row) :
    textRowPayload row.values = (rowCells row).flatMap cellPayload := by
  rw [textRowPayload, rowCells, List.flatMap_map]

theorem length_le_of_mem_cells {cells : List (Option (List UInt8))} {text : List UInt8}
    (h : some text ∈ cells) : text.length ≤ (cells.flatMap cellPayload).length := by
  have hcell : (cellPayload (some text)).length ≤ (cells.flatMap cellPayload).length := by
    rw [List.flatMap_def]
    exact (List.sublist_flatten_of_mem (List.mem_map_of_mem h)).length_le
  exact (length_le_lenencStr text).trans hcell

theorem length_le_flatMap_cells (cells : List (Option (List UInt8))) :
    cells.length ≤ (cells.flatMap cellPayload).length := by
  induction cells with
  | nil => exact Nat.zero_le _
  | cons cell cells ih =>
    obtain ⟨first, tail, hhead, -⟩ := cellPayload_head cell
    rw [List.flatMap_cons, hhead, List.length_append, List.length_cons, List.length_cons]
    omega

theorem parseCells_textRowPayload {row : Row} (h : (textRowPayload row.values).length < 2 ^ 24) :
    parseCells (textRowPayload row.values) (textRowPayload row.values).length 0 =
      .ok (rowCells row) := by
  rw [textRowPayload_eq] at h ⊢
  refine parseCells_flatMap rfl (fun text hmem => ?_) (length_le_flatMap_cells _)
  have hle := length_le_of_mem_cells hmem
  omega

/-- A row of at least one value is not taken for the end of the rows. -/
theorem textRowPayload_head {row : Row} (hne : row.values ≠ [])
    (h : (textRowPayload row.values).length < 2 ^ 24) :
    endsRows (textRowPayload row.values) = false := by
  obtain ⟨value, values, hvalues⟩ := List.exists_cons_of_ne_nil hne
  rw [textRowPayload, hvalues, List.flatMap_cons] at h ⊢
  cases hcell : textForm value with
  | none => rfl
  | some text =>
    rw [hcell, cellPayload, List.length_append] at h
    have hle := length_le_lenencStr text
    obtain ⟨first, tail, hhead, -, -, -, hend⟩ := lenencIntBytes_head (.ofNat text.length)
    have hlt : (UInt64.ofNat text.length).toNat < 2 ^ 24 := by
      rw [toNat_length (by omega)]
      omega
    rw [cellPayload, lenencStr, hhead]
    simp [endsRows, hend hlt]

/-! ## The rows -/

theorem numbered_cons (seq : UInt8) (payload : List UInt8) (rest : List (List UInt8)) :
    writePackets (numbered seq (payload :: rest)) =
      writePacket seq payload ++ writePackets (numbered (seq + 1) rest) := rfl

theorem reads_readRows {rows : List Row} {seq : UInt8} {fuel : Nat}
    (hne : ∀ row ∈ rows, row.values ≠ [])
    (hshort : ∀ row ∈ rows, (textRowPayload row.values).length < 2 ^ 24)
    (hfuel : rows.length < fuel) :
    Reader.Reads (readRows fuel)
      (writePackets (numbered seq (rows.map (fun row => textRowPayload row.values) ++
        [eofPayload])))
      (rows.map rowCells) := by
  induction rows generalizing seq fuel with
  | nil =>
    obtain ⟨fuel, rfl⟩ : ∃ k, fuel = k + 1 := ⟨fuel - 1, by omega⟩
    have heof : eofPayload.length < 2 ^ 24 := by decide
    rw [List.map_nil, List.nil_append, numbered_cons, readRows]
    refine (reads_nextPacket seq heof).bind ?_
    show Reader.Reads (if endsRows eofPayload then _ else _) _ _
    rw [if_pos (by decide)]
    exact Reader.reads_pure []
  | cons row rows ih =>
    obtain ⟨fuel, rfl⟩ : ∃ k, fuel = k + 1 := ⟨fuel - 1, by omega⟩
    obtain ⟨hrow, hrows⟩ := List.forall_mem_cons.mp hshort
    obtain ⟨hrowNe, hrowsNe⟩ := List.forall_mem_cons.mp hne
    rw [List.map_cons, List.cons_append, numbered_cons, readRows]
    refine (reads_nextPacket seq hrow).bind ?_
    show Reader.Reads (if endsRows (textRowPayload row.values) then _ else _) _ _
    rw [textRowPayload_head hrowNe hrow]
    refine Reader.Reads.bind_lift (parseCells_textRowPayload hrow) ?_
    exact (ih hrowsNe hrows (Nat.lt_of_succ_lt_succ hfuel)).map fun rest => rowCells row :: rest

/-- Every packet of a stream takes bytes of it. -/
theorem length_le_writePackets (packets : List Packet) :
    packets.length ≤ (writePackets packets).length := by
  induction packets with
  | nil => exact Nat.zero_le _
  | cons p ps ih =>
    rw [writePackets, List.flatMap_cons, List.length_append, List.length_cons]
    have hp : 1 ≤ (writePacket p.seqId p.payload).length := by
      simp [writePacket, packetHeader]
    have hps : ps.length ≤ (ps.flatMap fun p => writePacket p.seqId p.payload).length := ih
    omega

@[simp] theorem length_numbered (seq : UInt8) (payloads : List (List UInt8)) :
    (numbered seq payloads).length = payloads.length := by
  induction payloads generalizing seq with
  | nil => rfl
  | cons payload rest ih => rw [numbered, List.length_cons, ih, List.length_cons]

theorem reads_readAllRows {rows : List Row} {seq : UInt8} (hne : ∀ row ∈ rows, row.values ≠ [])
    (hshort : ∀ row ∈ rows, (textRowPayload row.values).length < 2 ^ 24) :
    Reader.Reads readAllRows
      (writePackets (numbered seq (rows.map (fun row => textRowPayload row.values) ++
        [eofPayload])))
      (rows.map rowCells) := by
  intro rest
  refine reads_readRows hne hshort ?_ rest
  have hle := length_le_writePackets (numbered seq
    (rows.map (fun row => textRowPayload row.values) ++ [eofPayload]))
  rw [length_numbered, List.length_append, List.length_map, List.length_singleton] at hle
  rw [List.length_append]
  omega

/-! ## The whole result set -/

theorem numbered_append (seq : UInt8) (payloads rest : List (List UInt8)) :
    numbered seq (payloads ++ rest) =
      numbered seq payloads ++ numbered (seq + UInt8.ofNat payloads.length) rest := by
  induction payloads generalizing seq with
  | nil => simp [numbered]
  | cons payload payloads ih =>
    have hseq : seq + 1 + UInt8.ofNat payloads.length =
        seq + UInt8.ofNat (payloads.length + 1) := by
      rw [UInt8.ofNat_add, UInt8.add_assoc, UInt8.add_comm 1]
      rfl
    rw [List.cons_append, numbered, ih, numbered, List.cons_append, hseq, List.length_cons]

theorem writePackets_append (packets rest : List Packet) :
    writePackets (packets ++ rest) = writePackets packets ++ writePackets rest :=
  List.flatMap_append ..

@[simp] theorem numbered_payloads (seq : UInt8) (payloads : List (List UInt8)) :
    (numbered seq payloads).map (·.payload) = payloads := by
  induction payloads generalizing seq with
  | nil => rfl
  | cons payload rest ih => rw [numbered, List.map_cons, ih]

/-- Sequence ids rise by one and start again after 255. -/
theorem numbered_seqId {seq : UInt8} {payloads : List (List UInt8)} {i : Nat} {p : Packet}
    (h : (numbered seq payloads)[i]? = some p) : p.seqId.toNat = (seq.toNat + i) % 256 := by
  induction payloads generalizing seq i with
  | nil => cases h
  | cons payload rest ih =>
    cases i with
    | zero =>
      cases h
      exact (Nat.mod_eq_of_lt seq.toNat_lt).symm
    | succ i =>
      rw [ih h, UInt8.toNat_add]
      show ((seq.toNat + 1) % 256 + i) % 256 = _
      omega

theorem reads_columns {columns : List Column} (seq : UInt8)
    (h : ∀ column ∈ columns, (columnDefinitionPayload column).length < 2 ^ 24) :
    Reader.Reads (Reader.replicate readColumn columns.length)
      (writePackets (numbered seq (columns.map columnDefinitionPayload)))
      (columns.map fun column => ⟨asBytes column.name⟩) := by
  have hall : ∀ seq, List.Forall₂ (Reader.Reads readColumn)
      ((numbered seq (columns.map columnDefinitionPayload)).map fun p =>
        writePacket p.seqId p.payload)
      (columns.map fun column => ⟨asBytes column.name⟩) := by
    induction columns with
    | nil => exact fun _ => .nil
    | cons column columns ih =>
      obtain ⟨hcolumn, hcolumns⟩ := List.forall_mem_cons.mp h
      exact fun seq => .cons (reads_readColumn seq hcolumn) (ih hcolumns (seq + 1))
  have hread := Reader.reads_replicate (hall seq)
  rwa [List.length_map, ← List.flatMap_def] at hread

theorem reads_readResultSet {columns : List Column} {rows : List Row} (seq : UInt8)
    (hcount : columns.length < 2 ^ 24) (hne : ∀ row ∈ rows, row.values ≠ [])
    (hcolumns : ∀ column ∈ columns, (columnDefinitionPayload column).length < 2 ^ 24)
    (hrows : ∀ row ∈ rows, (textRowPayload row.values).length < 2 ^ 24) :
    Reader.Reads (readResultSet (columnCountPayload columns.length))
      (writePackets (numbered seq (columns.map columnDefinitionPayload ++
        eofPayload :: (rows.map (fun row => textRowPayload row.values) ++ [eofPayload]))))
      (.resultSet (columns.map fun column => ⟨asBytes column.name⟩) (rows.map rowCells)) := by
  have hparsed : parseLenencInt (columnCountPayload columns.length) =
      .ok (.ofNat columns.length, (lenencIntBytes (.ofNat columns.length)).length) := by
    have h := parseLenencInt_lenencIntBytes (.ofNat columns.length) []
    rwa [List.append_nil] at h
  have heof : eofPayload.length < 2 ^ 24 := by decide
  rw [numbered_append, writePackets_append, numbered_cons, readResultSet]
  refine Reader.Reads.bind_lift hparsed ?_
  show Reader.Reads (Reader.replicate readColumn (UInt64.ofNat columns.length).toNat >>= _) _ _
  rw [UInt64.toNat_ofNat', Nat.mod_eq_of_lt (by omega)]
  refine (reads_columns seq hcolumns).bind ?_
  refine (reads_nextPacket _ heof).bind ?_
  exact (reads_readAllRows hne hrows).map (QueryResult.resultSet _)

/-- The payloads of a result set with columns. -/
theorem resultPayloads_rows {columns : List Column} (h : columns ≠ []) (rows : List Row) :
    resultPayloads (.rows columns rows) = columnCountPayload columns.length ::
      (columns.map columnDefinitionPayload ++
        eofPayload :: (rows.map (fun row => textRowPayload row.values) ++ [eofPayload])) := by
  have hempty : columns.isEmpty = false := List.isEmpty_eq_false_iff.mpr h
  rw [resultPayloads, hempty]
  simp

/-- A count of columns starts a result set. -/
theorem reads_readResponse_rows {columns : List Column} {rows : List Row} {seq : UInt8}
    (hcolumns : columns ≠ []) (hcount : columns.length < 2 ^ 24)
    (hne : ∀ row ∈ rows, row.values ≠ [])
    (hshort : ∀ payload ∈ resultPayloads (.rows columns rows), payload.length < 2 ^ 24) :
    Reader.Reads readResponse
      (writePackets (numbered seq (resultPayloads (.rows columns rows))))
      (.resultSet (columns.map fun column => ⟨asBytes column.name⟩) (rows.map rowCells)) := by
  rw [resultPayloads_rows hcolumns] at hshort ⊢
  obtain ⟨hfirst, hrest⟩ := List.forall_mem_cons.mp hshort
  have hcolumnsShort : ∀ column ∈ columns, (columnDefinitionPayload column).length < 2 ^ 24 :=
    fun column hmem => hrest _ (List.mem_append_left _ (List.mem_map_of_mem hmem))
  have hrowsShort : ∀ row ∈ rows, (textRowPayload row.values).length < 2 ^ 24 := fun row hmem =>
    hrest _ (List.mem_append_right _ (List.mem_cons_of_mem _
      (List.mem_append_left _ (List.mem_map_of_mem hmem))))
  have hlength : (UInt64.ofNat columns.length).toNat = columns.length := by
    rw [UInt64.toNat_ofNat', Nat.mod_eq_of_lt (by omega)]
  obtain ⟨first, tail, hhead, -, herror, hok, heof⟩ := lenencIntBytes_head (.ofNat columns.length)
  rw [hlength] at hok heof
  have hset := reads_readResultSet (seq + 1) hcount hne hcolumnsShort hrowsShort
  rw [numbered_cons, readResponse]
  refine (reads_nextPacket seq hfirst).bind ?_
  rw [show columnCountPayload columns.length = first :: tail from hhead] at hset ⊢
  show Reader.Reads (if first = 0x00 then _ else _) _ _
  rw [if_neg (hok (List.length_pos_iff.mpr hcolumns)), if_neg herror, if_neg (heof hcount)]
  exact hset

/-- What `handle_query` writes for a result set, the client reads as its names
and its cells, to the last byte and none beyond it. -/
theorem resultSet_round_trip (columns : List Column) (rows : List Row) (hcolumns : columns ≠ [])
    (hcount : columns.length < 2 ^ 24)
    (hwidth : ∀ row ∈ rows, row.values.length = columns.length)
    (hshort : ∀ payload ∈ resultPayloads (.rows columns rows), payload.length < 2 ^ 24)
    (c : Conn) (request : Packet) :
    ∃ packets, (Conn.answer { c with seq := request.seqId + 1 } (.rows columns rows)).written =
        c.written ++ packets ∧
      packets.map (·.payload) = columnCountPayload columns.length ::
        (columns.map columnDefinitionPayload ++
          eofPayload :: (rows.map (fun row => textRowPayload row.values) ++ [eofPayload])) ∧
      (∀ i p, packets[i]? = some p → p.seqId.toNat = (request.seqId.toNat + 1 + i) % 256) ∧
      ∀ rest, readResponse (writePackets packets ++ rest) =
        some (.ok (.resultSet (columns.map fun column => ⟨asBytes column.name⟩)
          (rows.map fun row => row.values.map textForm)), rest) := by
  have hne : ∀ row ∈ rows, row.values ≠ [] := by
    intro row hmem hnil
    have hlength := hwidth row hmem
    rw [hnil] at hlength
    exact hcolumns (List.length_eq_zero_iff.mp hlength.symm)
  refine ⟨numbered (request.seqId + 1) (resultPayloads (.rows columns rows)), ?_, ?_, ?_, ?_⟩
  · show (Conn.sendAll _ _).written = _
    rw [Conn.sendAll_eq]
  · rw [numbered_payloads, resultPayloads_rows hcolumns]
  · intro i p hp
    rw [numbered_seqId hp, UInt8.toNat_add]
    show ((request.seqId.toNat + 1) % 256 + i) % 256 = _
    omega
  · exact reads_readResponse_rows hcolumns hcount hne hshort

section Concrete

attribute [local instance] asciiHost

/-- A column `a`, a row with 1 and a row with NULL, asked for by packet 254. -/
theorem numberAndNull_round_trip :
    ∃ packets,
      (Conn.answer ⟨.newWithUser ⟨"root", none⟩, 255, [], [], .ofMemory .new none, true⟩
        (.rows [.new "a" "t" .long] [⟨0, [.int 1]⟩, ⟨1, [.null]⟩])).written = [] ++ packets ∧
      packets.map (·.payload) = columnCountPayload 1 ::
        ([columnDefinitionPayload (.new "a" "t" .long)] ++
          eofPayload :: ([textRowPayload [.int 1], textRowPayload [.null]] ++ [eofPayload])) ∧
      (∀ i p, packets[i]? = some p → p.seqId.toNat = (254 + 1 + i) % 256) ∧
      ∀ rest, readResponse (writePackets packets ++ rest) =
        some (.ok (.resultSet [⟨asBytes "a"⟩] [[some (asBytes "1")], [none]]), rest) :=
  resultSet_round_trip [.new "a" "t" .long] [⟨0, [.int 1]⟩, ⟨1, [.null]⟩] (by decide) (by decide)
    (by decide) (by decide +kernel)
    ⟨.newWithUser ⟨"root", none⟩, 255, [], [], .ofMemory .new none, true⟩ ⟨254, []⟩

end Concrete

end Srrdb.Client

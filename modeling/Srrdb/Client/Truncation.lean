/-
Srrdb.Client.Truncation — what the client makes of bytes that stop too early.

Every parser of `client.rs` reads by position: it returns exactly when its
payload is complete, and panics otherwise. A length that is too large for the
payload counts as a payload that is too short. The loops end on all bytes: a
cell that is read takes a byte at least, and a packet takes its header, so no
round runs out of fuel (`parseCells_fuel`, `readRows_fuel`). The loop over the
rows panics at the first row that is not complete (`returns_readRows_iff`).
-/
import Srrdb.Client.Login
import Srrdb.Client.Query
import Srrdb.Protocol.Truncation

namespace Srrdb.Client

open Srrdb.Lib Srrdb.Protocol

/-! ## Numbers and texts -/

/-- The client reads 0xFB as 0; its numbers fit their width. -/
theorem parseLenencInt_eq (data : List UInt8) :
    (parseLenencInt data).map (fun r => (r.1.toNat, r.2)) = readNumber 0 data := by
  have hwide : ∀ (w n : Nat), w ≤ 8 →
      ((fromLeBytes data 1 w).map fun v => (UInt64.ofNat v, n)).map (fun r => (r.1.toNat, r.2)) =
        (fromLeBytes data 1 w).map fun v => (v, n) := by
    intro w n hw
    unfold fromLeBytes
    cases hslice : slice data 1 w with
    | error x => rfl
    | ok bytes =>
      obtain ⟨hle, hbytes⟩ := slice_eq_ok.mp hslice
      have hlength : bytes.length ≤ 8 := by
        rw [← hbytes, List.length_take]
        omega
      have hlt : Codec.leValue bytes < 2 ^ 64 :=
        (Codec.leValue_lt bytes).trans_le (Nat.pow_le_pow_right (by decide) hlength)
      simp only [Except.map, UInt64.toNat_ofNat', Nat.mod_eq_of_lt hlt]
  unfold parseLenencInt readNumber
  cases data with
  | nil => rfl
  | cons first rest =>
    simp only
    split
    · rfl
    · split
      · exact hwide 2 3 (by decide)
      · split
        · exact hwide 3 4 (by decide)
        · split
          · exact hwide 8 9 (by decide)
          · simp [Except.map]

theorem parseLenencStr_eq (data : List UInt8) : parseLenencStr data = readText 0 data := by
  unfold parseLenencStr readText
  rw [← parseLenencInt_eq]
  cases parseLenencInt data with
  | error x => rfl
  | ok r => rfl

theorem returns_parseLenencInt_iff (data : List UInt8) :
    Returns (parseLenencInt data) ↔ ∃ rest, Number 0 data rest := by
  rw [← returns_readNumber_iff, ← parseLenencInt_eq, returns_map_iff]

theorem returns_parseLenencStr_iff (data : List UInt8) :
    Returns (parseLenencStr data) ↔ ∃ rest, Text 0 data rest := by
  rw [← returns_readText_iff, parseLenencStr_eq]

theorem number_of_parseLenencInt {data : List UInt8} {v : UInt64} {n : Nat}
    (h : parseLenencInt data = .ok (v, n)) :
    n ≤ data.length ∧ Number 0 data (data.drop n) := by
  refine number_of_readNumber (v := v.toNat) ?_
  rw [← parseLenencInt_eq, h]
  rfl

theorem parseLenencInt_of_number {data rest : List UInt8} (h : Number 0 data rest) :
    ∃ v n, parseLenencInt data = .ok (v, n) ∧ data.drop n = rest := by
  obtain ⟨v, n, hread, hdrop⟩ := readNumber_of_number h
  rw [← parseLenencInt_eq] at hread
  cases hparse : parseLenencInt data with
  | error x =>
    rw [hparse] at hread
    cases hread
  | ok r =>
    rw [hparse] at hread
    cases hread
    exact ⟨r.1, r.2, rfl, hdrop⟩

/-! ## One packet -/

/-- Texts one behind the other, so many of them. -/
def Texts : Nat → List UInt8 → Prop
  | 0, _ => True
  | n + 1, data => ∃ rest, Text 0 data rest ∧ Texts n rest

/-- A text is read at a position, and what comes next is read behind it. -/
theorem returns_text_bind_iff {α : Type} {data : List UInt8} {pos : Nat} (hpos : pos ≤ data.length)
    {f : List UInt8 × Nat → Outcome α} {P : List UInt8 → Prop}
    (hf : ∀ text n, pos + n ≤ data.length → (Returns (f (text, n)) ↔ P (data.drop (pos + n)))) :
    Returns (sliceFrom data pos >>= fun tail => parseLenencStr tail >>= f) ↔
      ∃ rest, Text 0 (data.drop pos) rest ∧ P rest := by
  rw [returns_bind_of_ok (sliceFrom_eq_ok.mpr ⟨hpos, rfl⟩), parseLenencStr_eq]
  constructor
  · intro h
    obtain ⟨hread, h⟩ := returns_bind_iff.mp h
    obtain ⟨rest, htext⟩ := returns_readText_iff.mp hread
    obtain ⟨text, n, hok, hdrop⟩ := readText_of_text htext
    have hle := (text_of_readText hok).1
    rw [List.length_drop] at hle
    refine ⟨rest, htext, ?_⟩
    rw [← hdrop, List.drop_drop]
    exact (hf text n (by omega)).mp (h _ hok)
  · rintro ⟨rest, htext, hP⟩
    obtain ⟨text, n, hok, hdrop⟩ := readText_of_text htext
    have hle := (text_of_readText hok).1
    rw [List.length_drop] at hle
    rw [hok, ok_bind, hf text n (by omega), ← List.drop_drop, hdrop]
    exact hP

/-- A column definition needs its first five texts. -/
theorem returns_parseColumnDef_iff (data : List UInt8) :
    Returns (parseColumnDef data) ↔ Texts 5 data := by
  unfold parseColumnDef
  refine returns_text_bind_iff (Nat.zero_le _) fun _ n1 h1 => ?_
  refine returns_text_bind_iff h1 fun _ n2 h2 => ?_
  refine returns_text_bind_iff h2 fun _ n3 h3 => ?_
  refine returns_text_bind_iff h3 fun _ n4 h4 => ?_
  refine returns_text_bind_iff h4 fun _ n5 h5 => ?_
  exact iff_of_true (returns_ok _) trivial

/-- An OK payload needs its two numbers. -/
theorem returns_okResult_iff (first : UInt8) (body : List UInt8) :
    Returns (okResult (first :: body)) ↔
      ∃ middle rest, Number 0 body middle ∧ Number 0 middle rest := by
  unfold okResult
  have hone : 1 ≤ (first :: body).length := by simp
  rw [returns_bind_of_ok (sliceFrom_eq_ok.mpr ⟨hone, rfl⟩), List.drop_succ_cons, List.drop_zero]
  have hsecond : ∀ {v : UInt64} {n : Nat}, parseLenencInt body = .ok (v, n) →
      (Returns (sliceFrom (first :: body) (1 + n) >>= fun tail => parseLenencInt tail >>=
        fun r => pure (QueryResult.ok v r.1)) ↔ ∃ rest, Number 0 (body.drop n) rest) := by
    intro v n hread
    have hle := (number_of_parseLenencInt hread).1
    have hfits : 1 + n ≤ (first :: body).length := by
      rw [List.length_cons]
      omega
    have hdrop : (first :: body).drop (1 + n) = body.drop n := by
      rw [Nat.add_comm, List.drop_succ_cons]
    rw [returns_bind_of_ok (sliceFrom_eq_ok.mpr ⟨hfits, hdrop⟩), returns_bind_iff,
      returns_parseLenencInt_iff]
    exact and_iff_left fun _ _ => returns_ok _
  constructor
  · intro h
    obtain ⟨hread, h⟩ := returns_bind_iff.mp h
    obtain ⟨middle, hmiddle⟩ := (returns_parseLenencInt_iff body).mp hread
    obtain ⟨v, n, hok, hdrop⟩ := parseLenencInt_of_number hmiddle
    obtain ⟨rest, hrest⟩ := (hsecond hok).mp (h _ hok)
    exact ⟨middle, rest, hmiddle, hdrop ▸ hrest⟩
  · rintro ⟨middle, rest, hmiddle, hrest⟩
    obtain ⟨v, n, hok, hdrop⟩ := parseLenencInt_of_number hmiddle
    rw [returns_bind_of_ok hok]
    exact (hsecond hok).mpr ⟨rest, hdrop ▸ hrest⟩

/-- An error payload needs the two bytes of its code. -/
theorem returns_errorResult_iff (first : UInt8) (body : List UInt8) :
    Returns (errorResult (first :: body)) ↔ 2 ≤ body.length := by
  unfold errorResult
  rw [returns_bind_iff, returns_fromLeBytes_iff, List.length_cons]
  constructor
  · intro h
    omega
  · intro h
    refine ⟨by omega, fun code _ => ?_⟩
    rw [returns_bind_iff, returns_sliceFrom_iff, List.length_cons]
    exact ⟨by omega, fun _ _ => returns_ok _⟩

/-! ## The greeting -/

/-- The capabilities a server states, of what follows its version. -/
def greetingCapabilities (rest : List UInt8) : UInt32 :=
  UInt32.ofNat (Codec.leValue ((rest.drop 18).take 2)) <<< 16 |||
    UInt32.ofNat (Codec.leValue ((rest.drop 13).take 2))

/-- The packet is not empty and, if a version that is a text ends in it, has
the twenty bytes behind it, and the length of the scramble for a plugin. -/
def GreetingComplete (payload : List UInt8) : Prop :=
  payload ≠ [] ∧ ∀ (version : String) (rest : List UInt8), 0 ∉ asBytes version →
    payload.drop 1 = asBytes version ++ 0 :: rest →
      20 ≤ rest.length ∧ (greetingCapabilities rest &&& clientPluginAuth ≠ 0 → 21 ≤ rest.length)

/-- The fields behind the version are at fixed positions from it. -/
theorem returns_greetingFields_iff {α : Type} {payload : List UInt8} {pos : Nat}
    {make : Nat → List UInt8 → Nat → UInt8 → Nat → UInt8 → Outcome α}
    (hmake : ∀ connId first lower charset upper len,
      Returns (make connId first lower charset upper len)) :
    Returns (fromLeBytes payload pos 4 >>= fun connId => slice payload (pos + 4) 8 >>= fun first =>
      fromLeBytes payload (pos + 4 + 8 + 1) 2 >>= fun lower =>
      byteAt payload (pos + 4 + 8 + 1 + 2) >>= fun charset =>
      fromLeBytes payload (pos + 4 + 8 + 1 + 2 + 1 + 2) 2 >>= fun upper =>
      if (UInt32.ofNat upper <<< 16 ||| UInt32.ofNat lower) &&& clientPluginAuth ≠ 0 then
        byteAt payload (pos + 4 + 8 + 1 + 2 + 1 + 2 + 2) >>= make connId first lower charset upper
      else pure 0 >>= make connId first lower charset upper) ↔
    20 ≤ (payload.drop pos).length ∧
      (greetingCapabilities (payload.drop pos) &&& clientPluginAuth ≠ 0 →
        21 ≤ (payload.drop pos).length) := by
  rw [List.length_drop]
  by_cases hlen : pos + 20 ≤ payload.length
  · rw [and_iff_right (by omega), returns_bind_of_ok (fromLeBytes_eq_ok (by omega)),
      returns_bind_of_ok (slice_eq_ok.mpr ⟨by omega, rfl⟩),
      returns_bind_of_ok (fromLeBytes_eq_ok (by omega)),
      returns_bind_of_ok (byteAt_eq_ok (by omega)),
      returns_bind_of_ok (fromLeBytes_eq_ok (by omega))]
    simp only [greetingCapabilities, List.drop_drop, Nat.add_assoc, Nat.reduceAdd]
    split
    · next hplugin =>
      rw [returns_bind_iff, and_iff_left fun len _ => hmake _ _ _ _ _ len, returns_byteAt_iff,
        forall_prop_of_true hplugin]
      omega
    · next hplugin => exact iff_of_true (hmake _ _ _ _ _ 0) fun h => absurd h hplugin
  · refine iff_of_false (fun h => hlen ?_) fun h => hlen (by omega)
    obtain ⟨h0, h⟩ := returns_bind_iff.mp h
    obtain ⟨h1, h⟩ := returns_bind_iff.mp (h _ (fromLeBytes_eq_ok (returns_fromLeBytes_iff.mp h0)))
    have h1 := returns_slice_iff.mp h1
    obtain ⟨h2, h⟩ := returns_bind_iff.mp (h _ (slice_eq_ok.mpr ⟨h1, rfl⟩))
    obtain ⟨h3, h⟩ := returns_bind_iff.mp (h _ (fromLeBytes_eq_ok (returns_fromLeBytes_iff.mp h2)))
    obtain ⟨h4, -⟩ := returns_bind_iff.mp (h _ (byteAt_eq_ok (returns_byteAt_iff.mp h3)))
    have h4 := returns_fromLeBytes_iff.mp h4
    omega

/-- The parser of the greeting returns exactly for complete packets. -/
theorem returns_parseServerHandshake_iff (payload : List UInt8) :
    Returns (parseServerHandshake payload) ↔ GreetingComplete payload := by
  unfold parseServerHandshake
  rw [GreetingComplete, returns_bind_iff, returns_byteAt_iff, List.length_pos_iff]
  refine and_congr_right fun hne => ?_
  have hone : 1 ≤ payload.length := List.length_pos_iff.mpr hne
  constructor
  · intro h version rest hnul hdrop
    have hread : nulTerminated payload 1 "missing null terminator for server version" =
        .ok (asBytes version, 1 + (asBytes version).length + 1) :=
      nulTerminated_of_drop hnul hone hdrop
    have h := (returns_bind_of_ok hread).mp (h _ (byteAt_eq_ok hone))
    have h := (returns_bind_of_ok (fromUtf8_asBytes version)).mp h
    dsimp only at h
    have hfields := (returns_greetingFields_iff (by intros; exact returns_ok _)).mp h
    rwa [drop_after_text hdrop] at hfields
  · intro h protocol _
    rw [returns_bind_iff, and_iff_right (returns_nulTerminated_iff.mpr hone)]
    rintro ⟨version, pos⟩ hread
    obtain ⟨hnul, rest, hdrop, rfl⟩ := nulTerminated_eq_ok hread
    rw [returns_bind_iff]
    refine ⟨returns_fromUtf8 _, fun text htext => ?_⟩
    obtain rfl := asBytes_of_fromUtf8 htext
    dsimp only
    refine (returns_greetingFields_iff (by intros; exact returns_ok _)).mpr ?_
    rw [drop_after_text hdrop]
    exact h text rest hnul hdrop

/-! ## Rows -/

/-- Cells one behind the other, to the end. -/
inductive Cells : List UInt8 → Prop
  | nil : Cells []
  | cons {data rest : List UInt8} (hne : data ≠ []) (h : Text 0 data rest) (hrest : Cells rest) :
      Cells data

/-- A cell that is read takes a byte at least. -/
theorem one_le_of_readText {mark n : Nat} {first : UInt8} {tail text : List UInt8}
    (h : readText mark (first :: tail) = .ok (text, n)) : 1 ≤ n := by
  obtain ⟨⟨len, start⟩, hread, h⟩ := bind_eq_ok_iff.mp h
  obtain ⟨part, -, h⟩ := bind_eq_ok_iff.mp h
  cases h
  rcases announces_of_readNumber hread with ⟨hnil, -⟩ | ⟨header, rest, hheader, -, rfl⟩
  · cases hnil
  · have hpos : 1 ≤ header.length := by
      cases hheader <;> simp
    omega

/-- NULL is a text of no bytes to the reader. -/
theorem readText_null (tail : List UInt8) : readText 0 (0xFB :: tail) = .ok ([], 1) := by
  simp [readText, readNumber, slice, bind, Except.bind, pure, Except.pure]

/-- One round of the loop over the cells. -/
theorem returns_parseCells_succ {payload tail : List UInt8} {fuel pos : Nat} {first : UInt8}
    (hdrop : payload.drop pos = first :: tail) :
    Returns (parseCells payload (fuel + 1) pos) ↔
      Returns (readText 0 (first :: tail)) ∧ ∀ text n, readText 0 (first :: tail) = .ok (text, n) →
        Returns (parseCells payload fuel (pos + n)) := by
  rw [parseCells, hdrop]
  simp only
  split
  · next hnull =>
    subst hnull
    rw [returns_bind_iff, readText_null]
    simp
  · rw [returns_bind_iff, parseLenencStr_eq]
    refine and_congr_right fun _ => ?_
    constructor
    · intro h text n hread
      exact (returns_bind_iff.mp (h _ hread)).1
    · rintro h ⟨text, n⟩ hread
      exact returns_bind_iff.mpr ⟨h text n hread, fun _ _ => returns_ok _⟩

/-- A row is taken apart exactly when it is cells to its end. -/
theorem returns_parseCells_iff {payload : List UInt8} {fuel pos : Nat}
    (hfuel : (payload.drop pos).length ≤ fuel) :
    Returns (parseCells payload fuel pos) ↔ Cells (payload.drop pos) := by
  induction fuel generalizing pos with
  | zero =>
    have hnil : payload.drop pos = [] := List.eq_nil_of_length_eq_zero (Nat.le_zero.mp hfuel)
    rw [hnil]
    exact iff_of_true (returns_ok _) .nil
  | succ fuel ih =>
    cases hdrop : payload.drop pos with
    | nil =>
      rw [parseCells, hdrop]
      exact iff_of_true (returns_ok _) .nil
    | cons first tail =>
      rw [returns_parseCells_succ hdrop]
      have hnext : ∀ {text : List UInt8} {n : Nat}, readText 0 (first :: tail) = .ok (text, n) →
          (Returns (parseCells payload fuel (pos + n)) ↔ Cells ((first :: tail).drop n)) := by
        intro text n hread
        have hn := one_le_of_readText hread
        have hle := (text_of_readText hread).1
        rw [← hdrop, List.drop_drop]
        refine ih ?_
        rw [hdrop] at hfuel
        rw [← List.drop_drop, hdrop, List.length_drop]
        omega
      constructor
      · rintro ⟨hread, h⟩
        obtain ⟨rest, htext⟩ := returns_readText_iff.mp hread
        obtain ⟨text, n, hok, rfl⟩ := readText_of_text htext
        exact .cons (List.cons_ne_nil _ _) htext ((hnext hok).mp (h _ _ hok))
      · intro h
        cases h with
        | cons hne htext hrest =>
          refine ⟨returns_readText_iff.mpr ⟨_, htext⟩, fun text n hok => ?_⟩
          obtain ⟨text', n', hok', rfl⟩ := readText_of_text htext
          cases hok'.symm.trans hok
          exact (hnext hok).mpr hrest

/-- The loop over the cells ends: no more fuel changes it. -/
theorem parseCells_fuel {payload : List UInt8} {fuel fuel' pos : Nat}
    (hfuel : (payload.drop pos).length ≤ fuel) (hfuel' : (payload.drop pos).length ≤ fuel') :
    parseCells payload fuel pos = parseCells payload fuel' pos := by
  induction fuel generalizing fuel' pos with
  | zero =>
    have hnil : payload.drop pos = [] := List.eq_nil_of_length_eq_zero (Nat.le_zero.mp hfuel)
    cases fuel' with
    | zero => rfl
    | succ fuel' => simp only [parseCells, hnil]
  | succ fuel ih =>
    cases hdrop : payload.drop pos with
    | nil =>
      cases fuel' with
      | zero => simp only [parseCells, hdrop]
      | succ fuel' => simp only [parseCells, hdrop]
    | cons first tail =>
      rw [hdrop, List.length_cons] at hfuel hfuel'
      obtain ⟨fuel', rfl⟩ : ∃ k, fuel' = k + 1 := ⟨fuel' - 1, by omega⟩
      have hnext : ∀ n, 1 ≤ n →
          parseCells payload fuel (pos + n) = parseCells payload fuel' (pos + n) := by
        intro n hn
        have hlength : (payload.drop (pos + n)).length ≤ tail.length := by
          rw [← List.drop_drop, hdrop, List.length_drop, List.length_cons]
          omega
        exact ih (by omega) (by omega)
      simp only [parseCells, hdrop, hnext 1 le_rfl]
      split
      · rfl
      · cases hread : parseLenencStr (first :: tail) with
        | error x => rfl
        | ok r =>
          obtain ⟨text, n⟩ := r
          rw [parseLenencStr_eq] at hread
          simp only [bind, Except.bind, hnext n (one_le_of_readText hread)]

/-! ## The packets of the rows -/

/-- A packet takes its header from the stream. -/
theorem length_lt_of_nextPacket {stream rest : List UInt8} {r : Except Stop Packet}
    (h : nextPacket stream = some (r, rest)) : rest.length < stream.length := by
  unfold nextPacket readPacket at h
  split at h
  · next b0 b1 b2 seqId tail =>
    rw [Option.map_map, Option.map_eq_some_iff] at h
    obtain ⟨⟨payload, left⟩, htake, heq⟩ := h
    cases heq
    unfold Codec.takeBytes at htake
    split at htake
    · cases htake
      simp only [List.length_drop, List.length_cons]
      omega
    · cases htake
  · cases h

/-- A packet that has arrived is a packet. -/
theorem nextPacket_ok {stream rest : List UInt8} {r : Except Stop Packet}
    (h : nextPacket stream = some (r, rest)) : ∃ pkt, r = .ok pkt := by
  obtain ⟨p, -, heq⟩ := Option.map_eq_some_iff.mp h
  cases heq
  exact ⟨p.1, rfl⟩

section Round

variable {stream rest : List UInt8} {pkt : Packet} (fuel : Nat)

theorem readRows_waiting (h : nextPacket stream = none) : readRows (fuel + 1) stream = none := by
  show Reader.andThen _ _ _ = _
  rw [Reader.andThen, h]

theorem readRows_ended (h : nextPacket stream = some (.ok pkt, rest))
    (hend : endsRows pkt.payload = true) : readRows (fuel + 1) stream = some (.ok [], rest) := by
  show Reader.andThen _ _ _ = _
  rw [Reader.andThen, h]
  simp only [hend, if_true]
  rfl

/-- A packet that does not end the rows is a row, and the rest follows. -/
theorem readRows_cells (h : nextPacket stream = some (.ok pkt, rest))
    (hrow : endsRows pkt.payload = false) :
    readRows (fuel + 1) stream =
      (Reader.lift (parseCells pkt.payload pkt.payload.length 0) >>= fun row =>
        readRows fuel >>= fun rows => pure (row :: rows)) rest := by
  show Reader.andThen _ _ _ = _
  rw [Reader.andThen, h]
  simp only [hrow, Bool.false_eq_true, if_false]

theorem readRows_badRow (h : nextPacket stream = some (.ok pkt, rest))
    (hrow : endsRows pkt.payload = false) {x : Stop}
    (hcells : parseCells pkt.payload pkt.payload.length 0 = .error x) :
    readRows (fuel + 1) stream = some (.error x, rest) := by
  rw [readRows_cells fuel h hrow, hcells]
  rfl

theorem readRows_row (h : nextPacket stream = some (.ok pkt, rest))
    (hrow : endsRows pkt.payload = false) {row : List (Option (List UInt8))}
    (hcells : parseCells pkt.payload pkt.payload.length 0 = .ok row) :
    readRows (fuel + 1) stream =
      (readRows fuel rest).map fun p => (p.1.map fun rows => row :: rows, p.2) := by
  rw [readRows_cells fuel h hrow, hcells]
  show Reader.andThen _ _ _ = _
  rw [Reader.andThen, Reader.lift]
  show Reader.andThen _ _ _ = _
  rw [Reader.andThen]
  rcases readRows fuel rest with _ | ⟨_ | rows, left⟩ <;> rfl

end Round

/-- The loop over the packets ends: no more fuel changes it. -/
theorem readRows_fuel {stream : List UInt8} {fuel fuel' : Nat} (hfuel : stream.length ≤ fuel)
    (hfuel' : stream.length ≤ fuel') : readRows fuel stream = readRows fuel' stream := by
  induction fuel generalizing fuel' stream with
  | zero =>
    obtain rfl : stream = [] := List.eq_nil_of_length_eq_zero (Nat.le_zero.mp hfuel)
    cases fuel' with
    | zero => rfl
    | succ fuel' => rfl
  | succ fuel ih =>
    cases fuel' with
    | zero =>
      obtain rfl : stream = [] := List.eq_nil_of_length_eq_zero (Nat.le_zero.mp hfuel')
      rfl
    | succ fuel' =>
      cases hnext : nextPacket stream with
      | none => rw [readRows_waiting fuel hnext, readRows_waiting fuel' hnext]
      | some p =>
        obtain ⟨r, rest⟩ := p
        obtain ⟨pkt, rfl⟩ := nextPacket_ok hnext
        have hlt := length_lt_of_nextPacket hnext
        cases hend : endsRows pkt.payload with
        | true => rw [readRows_ended fuel hnext hend, readRows_ended fuel' hnext hend]
        | false =>
          cases hcells : parseCells pkt.payload pkt.payload.length 0 with
          | error x =>
            rw [readRows_badRow fuel hnext hend hcells, readRows_badRow fuel' hnext hend hcells]
          | ok row =>
            have hrest : readRows fuel rest = readRows fuel' rest := ih (by omega) (by omega)
            rw [readRows_row fuel hnext hend hcells, readRows_row fuel' hnext hend hcells, hrest]

/-- The packets that have arrived are complete rows, up to the one that ends
them. -/
inductive Rows : List UInt8 → Prop
  | waiting {stream : List UInt8} (h : nextPacket stream = none) : Rows stream
  | ended {stream rest : List UInt8} {pkt : Packet} (h : nextPacket stream = some (.ok pkt, rest))
      (hend : endsRows pkt.payload = true) : Rows stream
  | row {stream rest : List UInt8} {pkt : Packet} (h : nextPacket stream = some (.ok pkt, rest))
      (hrow : endsRows pkt.payload = false) (hcells : Cells pkt.payload) (hrest : Rows rest) :
      Rows stream

/-- A computation that fails in no other way than by a panic. -/
def OnlyPanics {α : Type} (o : Outcome α) : Prop := ∀ x, o = .error x → x = .panic

section OnlyPanics

variable {α β : Type} {o : Outcome α}

theorem onlyPanics_ok (a : α) : OnlyPanics (.ok a) := fun _ h => by cases h

theorem OnlyPanics.bind {f : α → Outcome β} (ho : OnlyPanics o) (hf : ∀ a, OnlyPanics (f a)) :
    OnlyPanics (o >>= f) := by
  cases o with
  | ok a => exact hf a
  | error stop =>
    obtain rfl := ho stop rfl
    intro x h
    cases h
    rfl

theorem onlyPanics_slice (data : List UInt8) (start len : Nat) :
    OnlyPanics (slice data start len) := by
  intro x h
  unfold slice at h
  split at h
  · cases h
  · cases h
    rfl

theorem onlyPanics_fromLeBytes (data : List UInt8) (start w : Nat) (f : Nat → β) :
    OnlyPanics ((fromLeBytes data start w).map f) := by
  intro x h
  unfold fromLeBytes at h
  cases hslice : slice data start w with
  | ok bytes =>
    rw [hslice] at h
    cases h
  | error stop =>
    rw [hslice] at h
    cases h
    exact onlyPanics_slice data start w _ hslice

end OnlyPanics

theorem onlyPanics_readText (mark : Nat) (data : List UInt8) : OnlyPanics (readText mark data) := by
  have hnumber : OnlyPanics (readNumber mark data) := by
    unfold readNumber
    split
    · exact onlyPanics_ok _
    · split
      · exact onlyPanics_ok _
      · split
        · exact onlyPanics_fromLeBytes _ _ _ _
        · split
          · exact onlyPanics_fromLeBytes _ _ _ _
          · split
            · exact onlyPanics_fromLeBytes _ _ _ _
            · exact onlyPanics_ok _
  exact hnumber.bind fun _ => (onlyPanics_slice _ _ _).bind fun _ => onlyPanics_ok _

/-- Cells are taken apart or panic. -/
theorem onlyPanics_parseCells (payload : List UInt8) (fuel pos : Nat) :
    OnlyPanics (parseCells payload fuel pos) := by
  induction fuel generalizing pos with
  | zero => exact onlyPanics_ok _
  | succ fuel ih =>
    rw [parseCells]
    split
    · exact onlyPanics_ok _
    · split
      · exact (ih _).bind fun _ => onlyPanics_ok _
      · rw [parseLenencStr_eq]
        exact (onlyPanics_readText _ _).bind fun _ => (ih _).bind fun _ => onlyPanics_ok _

/-- The loop over the packets panics on none of its rows exactly when they are
complete. -/
theorem returns_readRows_iff {stream : List UInt8} {fuel : Nat} (hfuel : stream.length ≤ fuel) :
    (∀ r rest, readRows fuel stream = some (r, rest) → Returns r) ↔ Rows stream := by
  induction fuel generalizing stream with
  | zero =>
    obtain rfl : stream = [] := List.eq_nil_of_length_eq_zero (Nat.le_zero.mp hfuel)
    exact iff_of_true (fun r rest h => by cases h) (.waiting rfl)
  | succ fuel ih =>
    cases hnext : nextPacket stream with
    | none =>
      rw [readRows_waiting fuel hnext]
      exact iff_of_true (fun r rest h => by cases h) (.waiting hnext)
    | some p =>
      obtain ⟨r, rest⟩ := p
      obtain ⟨pkt, rfl⟩ := nextPacket_ok hnext
      have hlt := length_lt_of_nextPacket hnext
      cases hend : endsRows pkt.payload with
      | true =>
        rw [readRows_ended fuel hnext hend]
        refine iff_of_true (fun r left h => ?_) (.ended hnext hend)
        cases h
        exact returns_ok _
      | false =>
        have hcells : Returns (parseCells pkt.payload pkt.payload.length 0) ↔ Cells pkt.payload :=
          returns_parseCells_iff (by rw [List.drop_zero])
        have hrows : Rows stream ↔ Cells pkt.payload ∧ Rows rest := by
          constructor
          · intro h
            cases h with
            | waiting h => rw [hnext] at h; cases h
            | ended h hend' =>
              cases hnext.symm.trans h
              rw [hend] at hend'
              cases hend'
            | row h _ hpayload hrest =>
              cases hnext.symm.trans h
              exact ⟨hpayload, hrest⟩
          · exact fun h => .row hnext hend h.1 h.2
        rw [hrows, ← hcells]
        cases hparse : parseCells pkt.payload pkt.payload.length 0 with
        | error x =>
          obtain rfl := onlyPanics_parseCells _ _ _ x hparse
          rw [readRows_badRow fuel hnext hend hparse]
          exact iff_of_false (fun h => not_returns_panic (h _ _ rfl)) fun h => not_returns_panic h.1
        | ok row =>
          rw [readRows_row fuel hnext hend hparse, ← ih (by omega), and_iff_right (returns_ok row)]
          constructor
          · intro h r left hread
            exact returns_map_iff.mp (h _ left (by rw [hread]; rfl))
          · intro h r left hread
            obtain ⟨p, hp, heq⟩ := Option.map_eq_some_iff.mp hread
            cases heq
            exact returns_map_iff.mpr (h p.1 p.2 hp)

/-! ## All of them -/

/-- Each parser of the client returns exactly when the payload is a complete one
of its kind, and the loops over cells and rows end on all bytes. -/
theorem client_returns_iff (payload : List UInt8) :
    (Returns (parseServerHandshake payload) ↔ GreetingComplete payload) ∧
    (Returns (parseLenencInt payload) ↔ ∃ rest, Number 0 payload rest) ∧
    (Returns (parseLenencStr payload) ↔ ∃ rest, Text 0 payload rest) ∧
    (Returns (parseColumnDef payload) ↔ Texts 5 payload) ∧
    (Returns (okResult (0x00 :: payload)) ↔
      ∃ middle rest, Number 0 payload middle ∧ Number 0 middle rest) ∧
    (Returns (errorResult (0xFF :: payload)) ↔ 2 ≤ payload.length) ∧
    (Returns (parseCells payload payload.length 0) ↔ Cells payload) ∧
    ((∀ r rest, readAllRows payload = some (r, rest) → Returns r) ↔ Rows payload) ∧
    (∀ fuel, payload.length ≤ fuel →
      parseCells payload fuel 0 = parseCells payload payload.length 0) ∧
    ∀ fuel, payload.length ≤ fuel → readRows fuel payload = readRows payload.length payload := by
  have hlen : (payload.drop 0).length ≤ payload.length := le_rfl
  exact ⟨returns_parseServerHandshake_iff payload, returns_parseLenencInt_iff payload,
    returns_parseLenencStr_iff payload, returns_parseColumnDef_iff payload,
    returns_okResult_iff 0x00 payload, returns_errorResult_iff 0xFF payload,
    returns_parseCells_iff hlen, returns_readRows_iff le_rfl,
    fun fuel h => parseCells_fuel (hlen.trans h) hlen, fun fuel h => readRows_fuel h le_rfl⟩

/-- A single 0xFC, which announces two more bytes, stops every one of them. -/
theorem announcement_panics : ¬ ∀ payload : List UInt8,
    Returns (parseServerHandshake payload) ∧ Returns (parseLenencInt payload) ∧
      Returns (parseLenencStr payload) ∧ Returns (parseColumnDef payload) ∧
      Returns (okResult (0x00 :: payload)) ∧ Returns (errorResult (0xFF :: payload)) ∧
      Returns (parseCells payload payload.length 0) := by
  intro h
  exact not_returns_panic (h [0xFC]).2.1

end Srrdb.Client

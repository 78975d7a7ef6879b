/-
Srrdb.Protocol.Truncation — payloads that stop too early.

Both parsers of the login and the parsers of the client read by position and
panic where the payload does not have what they ask for. A sum of a position
and a length that does not fit a `usize` panics as well, and is past the end
of every payload. `Announces`, `Number` and `Text` are the grammar of the
length-encoded numbers and texts, apart from any parser; a reader of one
returns exactly when the payload starts with one (`returns_readNumber_iff`,
`returns_readText_iff`). The first packet of a client is complete in this
sense exactly when the server's parser returns
(`returns_parseHandshakeResponse_iff`).
-/
import Srrdb.Protocol.Handshake

namespace Srrdb.Protocol

open Srrdb.Lib

/-! ## Returning -/

section Returns

variable {α β : Type}

/-- The computation ends with a value or with an `Err`. -/
def Returns (o : Outcome α) : Prop := o ≠ .error .panic

@[simp] theorem returns_ok (a : α) : Returns (.ok a) := by simp [Returns]

@[simp] theorem returns_pure (a : α) : Returns (pure a) := returns_ok a

@[simp] theorem returns_err (msg : String) : Returns (.error (.err msg) : Outcome α) := by
  simp [Returns]

@[simp] theorem not_returns_panic : ¬ Returns (.error .panic : Outcome α) := by simp [Returns]

theorem returns_bind_iff {o : Outcome α} {f : α → Outcome β} :
    Returns (o >>= f) ↔ Returns o ∧ ∀ a, o = .ok a → Returns (f a) := by
  cases o with
  | ok a => simp [bind, Except.bind]
  | error stop => cases stop <;> simp [bind, Except.bind]

theorem ok_bind (a : α) (f : α → Outcome β) : (Except.ok a : Outcome α) >>= f = f a := rfl

theorem returns_bind_of_ok {o : Outcome α} {f : α → Outcome β} {a : α} (h : o = .ok a) :
    Returns (o >>= f) ↔ Returns (f a) := by
  rw [h]
  rfl

theorem bind_eq_ok_iff {o : Outcome α} {f : α → Outcome β} {b : β} :
    o >>= f = .ok b ↔ ∃ a, o = .ok a ∧ f a = .ok b := by
  cases o <;> simp [bind, Except.bind]

theorem returns_map_iff {o : Outcome α} {f : α → β} : Returns (o.map f) ↔ Returns o := by
  cases o with
  | ok a => simp [Except.map]
  | error stop => cases stop <;> simp [Except.map]

end Returns

/-! ## Reading by position -/

theorem returns_byteAt_iff {data : List UInt8} {pos : Nat} :
    Returns (byteAt data pos) ↔ pos < data.length := by
  unfold byteAt
  by_cases h : pos < data.length
  · simp [h]
  · simp [h]

theorem returns_sliceFrom_iff {data : List UInt8} {start : Nat} :
    Returns (sliceFrom data start) ↔ start ≤ data.length := by
  unfold sliceFrom
  split <;> simp [*]

theorem returns_slice_iff {data : List UInt8} {start len : Nat} :
    Returns (slice data start len) ↔ start + len ≤ data.length := by
  unfold slice
  split <;> simp [*]

theorem returns_fromLeBytes_iff {data : List UInt8} {start w : Nat} :
    Returns (fromLeBytes data start w) ↔ start + w ≤ data.length :=
  returns_map_iff.trans returns_slice_iff

theorem byteAt_eq_ok {data : List UInt8} {pos : Nat} (h : pos < data.length) :
    byteAt data pos = .ok data[pos] := by
  simp [byteAt, List.getElem?_eq_getElem h]

theorem fromLeBytes_eq_ok {data : List UInt8} {start w : Nat} (h : start + w ≤ data.length) :
    fromLeBytes data start w = .ok (Codec.leValue ((data.drop start).take w)) := by
  rw [fromLeBytes, slice, if_pos h]
  rfl

theorem sliceFrom_eq_ok {data tail : List UInt8} {start : Nat} :
    sliceFrom data start = .ok tail ↔ start ≤ data.length ∧ data.drop start = tail := by
  unfold sliceFrom
  split <;> simp [*]

theorem slice_eq_ok {data part : List UInt8} {start len : Nat} :
    slice data start len = .ok part ↔
      start + len ≤ data.length ∧ (data.drop start).take len = part := by
  unfold slice
  split <;> simp [*]

/-- A part after a position is a part of what is left there. -/
theorem slice_drop (data : List UInt8) {start pos len : Nat} (h : start ≤ data.length) :
    slice (data.drop start) pos len = slice data (start + pos) len := by
  have hfit : pos + len ≤ data.length - start ↔ start + pos + len ≤ data.length := by omega
  simp only [slice, List.length_drop, List.drop_drop, hfit]

theorem returns_nulTerminated_iff {payload : List UInt8} {pos : Nat} {missing : String} :
    Returns (nulTerminated payload pos missing) ↔ pos ≤ payload.length := by
  rw [nulTerminated, returns_bind_iff, returns_sliceFrom_iff]
  refine and_iff_left fun tail _ => ?_
  split <;> simp [throw, throwThe, MonadExceptOf.throw]

theorem nulTerminated_eq_ok {payload text : List UInt8} {pos stop : Nat} {missing : String}
    (h : nulTerminated payload pos missing = .ok (text, stop)) :
    0 ∉ text ∧ ∃ rest, payload.drop pos = text ++ 0 :: rest ∧ stop = pos + text.length + 1 := by
  obtain ⟨tail, hslice, h⟩ := bind_eq_ok_iff.mp h
  obtain ⟨-, htail⟩ := sliceFrom_eq_ok.mp hslice
  split at h
  · cases h
  · next n hfind =>
    cases h
    obtain ⟨hn, hzero, hbefore⟩ := List.findIdx?_eq_some_iff_getElem.mp hfind
    have hget : tail[n] = 0 := of_decide_eq_true hzero
    refine ⟨fun hmem => ?_, tail.drop (n + 1), ?_, ?_⟩
    · obtain ⟨i, hi, heq⟩ := List.mem_iff_getElem.mp hmem
      rw [List.getElem_take] at heq
      rw [List.length_take] at hi
      exact absurd (decide_eq_true heq) (hbefore i (by omega))
    · rw [htail, ← hget, List.getElem_cons_drop, List.take_append_drop]
    · rw [List.length_take, Nat.min_eq_left hn.le]

/-- A text that ends at a position is read from there. -/
theorem nulTerminated_of_drop {payload text rest : List UInt8} {pos : Nat} (hnul : 0 ∉ text)
    (hpos : pos ≤ payload.length) (h : payload.drop pos = text ++ 0 :: rest) {missing : String} :
    nulTerminated payload pos missing = .ok (text, pos + text.length + 1) := by
  have hprefix : payload.take pos ++ text ++ [0] <+: payload := by
    refine ⟨rest, ?_⟩
    rw [List.append_assoc, List.append_assoc, List.singleton_append, ← h, List.take_append_drop]
  have hr := nulTerminated_of_prefix hnul hprefix missing
  rwa [List.length_take_of_le hpos] at hr

theorem returns_fromUtf8 (bytes : List UInt8) : Returns (fromUtf8 bytes) := by
  unfold fromUtf8
  split <;> simp

theorem asBytes_of_fromUtf8 {bytes : List UInt8} {s : String} (h : fromUtf8 bytes = .ok s) :
    bytes = asBytes s := by
  unfold fromUtf8 at h
  split at h
  · next s' heq =>
    cases h
    unfold String.fromUTF8? at heq
    split at heq
    · cases heq
      simp [asBytes, String.fromUTF8]
    · cases heq
  · cases h

/-! ## Length-encoded numbers and texts

A first byte of 0xFB is a number of one byte for the server and the mark of
NULL for the client, which reads no bytes behind it; `mark` is what it stands
for. No bytes at all are read as the number 0. -/

/-- The bytes are a length-encoded number. -/
inductive Announces (mark : Nat) : List UInt8 → Nat → Prop
  | byte {b : UInt8} (h : b ≠ 0xFB ∧ b ≠ 0xFC ∧ b ≠ 0xFD ∧ b ≠ 0xFE) :
      Announces mark [b] b.toNat
  | mark : Announces mark [0xFB] mark
  | two {bytes : List UInt8} (h : bytes.length = 2) :
      Announces mark (0xFC :: bytes) (Codec.leValue bytes)
  | three {bytes : List UInt8} (h : bytes.length = 3) :
      Announces mark (0xFD :: bytes) (Codec.leValue bytes)
  | eight {bytes : List UInt8} (h : bytes.length = 8) :
      Announces mark (0xFE :: bytes) (Codec.leValue bytes)

/-- The data starts with a number, or there is none; `rest` is left. -/
inductive Number (mark : Nat) : List UInt8 → List UInt8 → Prop
  | none : Number mark [] []
  | some {header : List UInt8} {n : Nat} (h : Announces mark header n) (rest : List UInt8) :
      Number mark (header ++ rest) rest

/-- The data starts with a text behind its length, or there is none; `rest` is
left. -/
inductive Text (mark : Nat) : List UInt8 → List UInt8 → Prop
  | none : Text mark [] []
  | some {header text : List UInt8} (h : Announces mark header text.length)
      (rest : List UInt8) : Text mark (header ++ text ++ rest) rest

/-- The reader behind `lenenc_int` and `parse_lenenc_int`: the number and how
many bytes it takes. -/
def readNumber (mark : Nat) (data : List UInt8) : Outcome (Nat × Nat) :=
  match data with
  | [] => .ok (0, 0)
  | first :: _ =>
    if first = 0xFB then .ok (mark, 1)
    else if first = 0xFC then (fromLeBytes data 1 2).map fun v => (v, 3)
    else if first = 0xFD then (fromLeBytes data 1 3).map fun v => (v, 4)
    else if first = 0xFE then (fromLeBytes data 1 8).map fun v => (v, 9)
    else .ok (first.toNat, 1)

/-- A number, and as many bytes as it says. -/
def readText (mark : Nat) (data : List UInt8) : Outcome (List UInt8 × Nat) := do
  let (len, n) ← readNumber mark data
  let text ← slice data n len
  return (text, n + len)

/-- `lenenc_int` reads 0xFB as itself. -/
theorem lenencInt_eq (data : List UInt8) : lenencInt data = readNumber 0xFB data := by
  unfold lenencInt readNumber
  cases data with
  | nil => rfl
  | cons first rest =>
    by_cases h : first = 0xFB
    · subst h
      rfl
    · simp only [h, if_false]

/-- A number of so many bytes behind its first one. -/
theorem wide_eq_ok {first : UInt8} {rest : List UInt8} {w v n : Nat}
    (h : ((fromLeBytes (first :: rest) 1 w).map fun v => (v, w + 1)) = .ok (v, n)) :
    ∃ bytes rest', bytes.length = w ∧ rest = bytes ++ rest' ∧ v = Codec.leValue bytes ∧
      n = w + 1 := by
  unfold fromLeBytes at h
  cases hslice : slice (first :: rest) 1 w with
  | error x =>
    rw [hslice] at h
    cases h
  | ok bytes =>
    rw [hslice] at h
    cases h
    obtain ⟨hle, rfl⟩ := slice_eq_ok.mp hslice
    rw [List.length_cons] at hle
    have hw : (rest.take w).length = w := by
      rw [List.length_take]
      omega
    exact ⟨rest.take w, rest.drop w, hw, (List.take_append_drop ..).symm, rfl, rfl⟩

/-- What is read is announced. -/
theorem announces_of_readNumber {mark v n : Nat} {data : List UInt8}
    (h : readNumber mark data = .ok (v, n)) :
    (data = [] ∧ v = 0 ∧ n = 0) ∨
      ∃ header rest, Announces mark header v ∧ data = header ++ rest ∧ n = header.length := by
  cases data with
  | nil =>
    cases h
    exact .inl ⟨rfl, rfl, rfl⟩
  | cons first rest =>
    right
    simp only [readNumber] at h
    split at h
    · next hb =>
      cases h
      exact ⟨[first], rest, hb ▸ .mark, rfl, rfl⟩
    · next hb =>
      split at h
      · next hc =>
        obtain ⟨bytes, rest', hlen, rfl, rfl, rfl⟩ := wide_eq_ok h
        exact ⟨first :: bytes, rest', hc ▸ .two hlen, rfl, by rw [List.length_cons, hlen]⟩
      · next hc =>
        split at h
        · next hd =>
          obtain ⟨bytes, rest', hlen, rfl, rfl, rfl⟩ := wide_eq_ok h
          exact ⟨first :: bytes, rest', hd ▸ .three hlen, rfl, by rw [List.length_cons, hlen]⟩
        · next hd =>
          split at h
          · next he =>
            obtain ⟨bytes, rest', hlen, rfl, rfl, rfl⟩ := wide_eq_ok h
            exact ⟨first :: bytes, rest', he ▸ .eight hlen, rfl, by rw [List.length_cons, hlen]⟩
          · next he =>
            cases h
            exact ⟨[first], rest, .byte ⟨hb, hc, hd, he⟩, rfl, rfl⟩

/-- What is announced is read. -/
theorem readNumber_of_announces {mark n : Nat} {header : List UInt8} (h : Announces mark header n)
    (rest : List UInt8) : readNumber mark (header ++ rest) = .ok (n, header.length) := by
  have hwide : ∀ (first : UInt8) (bytes : List UInt8),
      fromLeBytes (first :: (bytes ++ rest)) 1 bytes.length = .ok (Codec.leValue bytes) := by
    intro first bytes
    have hslice : slice ([first] ++ bytes ++ rest) 1 bytes.length = .ok bytes :=
      slice_append [first] rest rfl rfl
    exact congrArg (Except.map Codec.leValue) hslice
  cases h with
  | byte h => simp [readNumber, h]
  | mark => rfl
  | @two bytes h =>
    have hread := hwide 0xFC bytes
    rw [h] at hread
    simp [readNumber, hread, Except.map, h]
  | @three bytes h =>
    have hread := hwide 0xFD bytes
    rw [h] at hread
    simp [readNumber, hread, Except.map, h]
  | @eight bytes h =>
    have hread := hwide 0xFE bytes
    rw [h] at hread
    simp [readNumber, hread, Except.map, h]

/-- The encoding starts with none of the marks of a shorter or a wider one. -/
theorem announces_lenencIntBytes (mark : Nat) (v : UInt64) :
    Announces mark (lenencIntBytes v) v.toNat := by
  unfold lenencIntBytes
  split_ifs with h1 h2 h3
  · have hv : v.toNat < 251 := UInt64.lt_iff_toNat_lt.mp h1
    have hbyte : v.toUInt8.toNat = v.toNat := by
      rw [UInt64.toNat_toUInt8]
      omega
    have hne : ∀ b : UInt8, 251 ≤ b.toNat → v.toUInt8 ≠ b := by
      intro b hb heq
      rw [← heq] at hb
      omega
    have hannounced : Announces mark [v.toUInt8] v.toUInt8.toNat :=
      .byte ⟨hne 0xFB (by decide), hne 0xFC (by decide), hne 0xFD (by decide), hne 0xFE (by decide)⟩
    rwa [hbyte] at hannounced
  · have hv : v.toNat < 256 ^ 2 := UInt64.lt_iff_toNat_lt.mp h2
    have hannounced : Announces mark (0xFC :: Codec.leBytes 2 v.toNat) _ := .two (by simp)
    rwa [Codec.leValue_leBytes_of_lt hv] at hannounced
  · have hv : v.toNat < 256 ^ 3 := UInt64.lt_iff_toNat_lt.mp h3
    have hannounced : Announces mark (0xFD :: Codec.leBytes 3 v.toNat) _ := .three (by simp)
    rwa [Codec.leValue_leBytes_of_lt hv] at hannounced
  · have hv : v.toNat < 256 ^ 8 := v.toNat_lt
    have hannounced : Announces mark (0xFE :: Codec.leBytes 8 v.toNat) _ := .eight (by simp)
    rwa [Codec.leValue_leBytes_of_lt hv] at hannounced

/-- The server reads a number as it wrote it. -/
theorem lenencInt_lenencIntBytes (v : UInt64) (rest : List UInt8) :
    lenencInt (lenencIntBytes v ++ rest) = .ok (v.toNat, (lenencIntBytes v).length) := by
  rw [lenencInt_eq]
  exact readNumber_of_announces (announces_lenencIntBytes 0xFB v) rest

theorem number_of_readNumber {mark v n : Nat} {data : List UInt8}
    (h : readNumber mark data = .ok (v, n)) :
    n ≤ data.length ∧ Number mark data (data.drop n) := by
  rcases announces_of_readNumber h with ⟨rfl, -, rfl⟩ | ⟨header, rest, hheader, rfl, rfl⟩
  · exact ⟨le_rfl, .none⟩
  · rw [List.drop_left]
    exact ⟨by simp, .some hheader rest⟩

theorem readNumber_of_number {mark : Nat} {data rest : List UInt8} (h : Number mark data rest) :
    ∃ v n, readNumber mark data = .ok (v, n) ∧ data.drop n = rest := by
  cases h with
  | none => exact ⟨0, 0, rfl, rfl⟩
  | @some header n h =>
    exact ⟨n, header.length, readNumber_of_announces h rest, List.drop_left⟩

/-- Nothing but the end of the data stops a reader of numbers. -/
theorem readNumber_error {mark : Nat} {data : List UInt8} {x : Stop}
    (h : readNumber mark data = .error x) : x = .panic := by
  have hwide : ∀ {start w n : Nat}, (fromLeBytes data start w).map (fun v => (v, n)) = .error x →
      x = .panic := by
    intro start w n h
    unfold fromLeBytes slice at h
    split at h
    · cases h
    · cases h
      rfl
  unfold readNumber at h
  split at h
  · cases h
  · split at h
    · cases h
    · split at h
      · exact hwide h
      · split at h
        · exact hwide h
        · split at h
          · exact hwide h
          · cases h

theorem returns_readNumber_iff {mark : Nat} {data : List UInt8} :
    Returns (readNumber mark data) ↔ ∃ rest, Number mark data rest := by
  constructor
  · intro h
    cases hread : readNumber mark data with
    | ok r => exact ⟨_, (number_of_readNumber hread).2⟩
    | error x =>
      rw [hread, readNumber_error hread] at h
      exact absurd h not_returns_panic
  · rintro ⟨rest, h⟩
    obtain ⟨v, n, hread, -⟩ := readNumber_of_number h
    rw [hread]
    exact returns_ok _

theorem text_of_readText {mark n : Nat} {data text : List UInt8}
    (h : readText mark data = .ok (text, n)) :
    n ≤ data.length ∧ Text mark data (data.drop n) := by
  obtain ⟨⟨len, start⟩, hread, h⟩ := bind_eq_ok_iff.mp h
  obtain ⟨part, hslice, h⟩ := bind_eq_ok_iff.mp h
  cases h
  obtain ⟨hle, hpart⟩ := slice_eq_ok.mp hslice
  refine ⟨hle, ?_⟩
  rcases announces_of_readNumber hread with ⟨rfl, rfl, rfl⟩ | ⟨header, rest, hheader, rfl, rfl⟩
  · exact .none
  · rw [List.drop_left] at hpart
    rw [List.length_append] at hle
    have hlen : text.length = len := by
      rw [← hpart, List.length_take]
      omega
    subst hlen
    have hrest : rest = text ++ rest.drop text.length := by
      conv_lhs => rw [← List.take_append_drop text.length rest, hpart]
    rw [List.drop_append, Nat.add_sub_cancel_left, List.drop_of_length_le (by omega),
      List.nil_append]
    conv => arg 2; rw [hrest, ← List.append_assoc]
    exact .some hheader _

theorem readText_of_text {mark : Nat} {data rest : List UInt8} (h : Text mark data rest) :
    ∃ text n, readText mark data = .ok (text, n) ∧ data.drop n = rest := by
  cases h with
  | none => exact ⟨[], 0, rfl, rfl⟩
  | @some header text h =>
    refine ⟨text, header.length + text.length, ?_, ?_⟩
    · simp only [readText, List.append_assoc, readNumber_of_announces h, bind, Except.bind]
      rw [← List.append_assoc, slice_append header rest rfl rfl]
      rfl
    · rw [← List.length_append, List.drop_left]

theorem readText_error {mark : Nat} {data : List UInt8} {x : Stop}
    (h : readText mark data = .error x) : x = .panic := by
  unfold readText at h
  cases hread : readNumber mark data with
  | error y =>
    rw [hread] at h
    cases h
    exact readNumber_error hread
  | ok r =>
    rw [hread] at h
    simp only [bind, Except.bind, slice] at h
    split at h
    · next hslice =>
      cases h
      split at hslice
      · cases hslice
      · cases hslice
        rfl
    · cases h

theorem returns_readText_iff {mark : Nat} {data : List UInt8} :
    Returns (readText mark data) ↔ ∃ rest, Text mark data rest := by
  constructor
  · intro h
    cases hread : readText mark data with
    | ok r => exact ⟨_, (text_of_readText hread).2⟩
    | error x =>
      rw [hread, readText_error hread] at h
      exact absurd h not_returns_panic
  · rintro ⟨rest, h⟩
    obtain ⟨text, n, hread, -⟩ := readText_of_text h
    rw [hread]
    exact returns_ok _

/-! ## The first packet of a client -/

/-- The capabilities a client states. -/
def statedCapabilities (payload : List UInt8) : UInt32 :=
  .ofNat (Codec.leValue (payload.take 4))

/-- The authentication data is all there, in the encoding the capabilities say.
Data that ends with a 0 may lack it: that is an `Err`. -/
def AuthComplete (capabilities : UInt32) (rest : List UInt8) : Prop :=
  if capabilities &&& clientPluginAuthLenencClientData ≠ 0 then ∃ after, Text 0xFB rest after
  else if capabilities &&& clientSecureConnection ≠ 0 then
    ∃ len data, rest = len :: data ∧ len.toNat ≤ data.length
  else True

/-- The packet has its 32 bytes in front of the name and, if a name that is a
text ends there, the authentication data behind it. -/
def LoginComplete (payload : List UInt8) : Prop :=
  32 ≤ payload.length ∧ ∀ (username : String) (rest : List UInt8), 0 ∉ asBytes username →
    payload.drop 32 = asBytes username ++ 0 :: rest →
      AuthComplete (statedCapabilities payload) rest

/-- The authentication data is read when it is complete, and the parser does
not step over the end. -/
theorem returns_authField_iff {capabilities : UInt32} {payload : List UInt8} {pos : Nat}
    (hpos : pos ≤ payload.length) :
    Returns (authField capabilities payload pos) ↔
      AuthComplete capabilities (payload.drop pos) := by
  unfold authField AuthComplete
  split
  · -- behind a number
    rw [returns_bind_of_ok (sliceFrom_eq_ok.mpr ⟨hpos, rfl⟩), ← returns_readText_iff, readText,
      lenencInt_eq, returns_bind_iff, returns_bind_iff]
    refine and_congr_right fun _ => forall_congr' fun r => imp_congr_right fun _ => ?_
    rw [returns_bind_iff, returns_bind_iff, slice_drop payload hpos]
    simp only [returns_pure, implies_true]
  · split
    · -- behind one byte
      rw [returns_bind_iff, returns_byteAt_iff]
      constructor
      · rintro ⟨hlt, hdata⟩
        have hbyte : byteAt payload pos = .ok payload[pos] := by
          simp [byteAt, List.getElem?_eq_getElem hlt]
        have hslice := (returns_bind_iff.mp (hdata _ hbyte)).1
        rw [returns_slice_iff] at hslice
        refine ⟨payload[pos], payload.drop (pos + 1), (List.getElem_cons_drop ..).symm, ?_⟩
        rw [List.length_drop]
        omega
      · rintro ⟨len, data, hdrop, hlen⟩
        have hlt : pos < payload.length := by
          have h := congrArg List.length hdrop
          rw [List.length_drop, List.length_cons] at h
          omega
        refine ⟨hlt, fun b hb => ?_⟩
        have hget : payload[pos] = len := by
          have h := List.getElem_cons_drop hlt
          rw [hdrop] at h
          exact (List.cons.inj h).1
        have hbyte : b = len := by
          rw [← hget]
          simpa [byteAt, List.getElem?_eq_getElem hlt] using hb.symm
        subst hbyte
        have hlength := congrArg List.length hdrop
        rw [List.length_drop, List.length_cons] at hlength
        rw [returns_bind_iff, returns_slice_iff]
        exact ⟨by omega, fun _ _ => returns_ok _⟩
    · exact iff_of_true (returns_nulTerminated_iff.mpr hpos) trivial

theorem nulTerminated_stop_le {payload text : List UInt8} {pos stop : Nat} {missing : String}
    (h : nulTerminated payload pos missing = .ok (text, stop)) : stop ≤ payload.length := by
  have hpos : pos ≤ payload.length := by
    have hreturns : Returns (nulTerminated payload pos missing) := by
      rw [h]
      exact returns_ok _
    exact returns_nulTerminated_iff.mp hreturns
  obtain ⟨-, rest, hdrop, rfl⟩ := nulTerminated_eq_ok h
  have hlength := congrArg List.length hdrop
  rw [List.length_drop, List.length_append, List.length_cons] at hlength
  omega

theorem authField_stop_le {capabilities : UInt32} {payload data : List UInt8} {pos stop : Nat}
    (h : authField capabilities payload pos = .ok (data, stop)) : stop ≤ payload.length := by
  unfold authField at h
  split at h
  · obtain ⟨tail, -, h⟩ := bind_eq_ok_iff.mp h
    obtain ⟨⟨len, n⟩, -, h⟩ := bind_eq_ok_iff.mp h
    obtain ⟨part, hslice, h⟩ := bind_eq_ok_iff.mp h
    cases h
    exact (slice_eq_ok.mp hslice).1
  · split at h
    · obtain ⟨len, -, h⟩ := bind_eq_ok_iff.mp h
      obtain ⟨part, hslice, h⟩ := bind_eq_ok_iff.mp h
      cases h
      exact (slice_eq_ok.mp hslice).1
    · exact nulTerminated_stop_le h

theorem returns_optionalText {capabilities flag : UInt32} {payload : List UInt8} {pos : Nat}
    {missing : String} (h : pos ≤ payload.length) :
    Returns (optionalText capabilities flag payload pos missing) := by
  unfold optionalText
  split
  · rw [returns_bind_iff]
    refine ⟨returns_nulTerminated_iff.mpr h, fun r _ => ?_⟩
    rw [returns_bind_iff]
    exact ⟨returns_fromUtf8 _, fun _ _ => returns_ok _⟩
  · exact returns_ok _

theorem optionalText_stop_le {capabilities flag : UInt32} {payload : List UInt8} {pos stop : Nat}
    {missing : String} {text : Option String} (hpos : pos ≤ payload.length)
    (h : optionalText capabilities flag payload pos missing = .ok (text, stop)) :
    stop ≤ payload.length := by
  unfold optionalText at h
  split at h
  · obtain ⟨⟨bytes, next⟩, hread, h⟩ := bind_eq_ok_iff.mp h
    obtain ⟨s, -, h⟩ := bind_eq_ok_iff.mp h
    cases h
    exact nulTerminated_stop_le hread
  · cases h
    exact hpos

theorem drop_after_text {payload text rest : List UInt8} {pos : Nat}
    (h : payload.drop pos = text ++ 0 :: rest) : payload.drop (pos + text.length + 1) = rest := by
  rw [Nat.add_assoc, ← List.drop_drop, h, ← List.drop_drop, List.drop_left]
  rfl

/-- The parser of the login returns exactly for complete packets. -/
theorem returns_parseHandshakeResponse_iff (payload : List UInt8) :
    Returns (parseHandshakeResponse payload) ↔ LoginComplete payload := by
  have hfixed : Returns (parseHandshakeResponse payload) → 32 ≤ payload.length := by
    intro h
    obtain ⟨h0, h⟩ := returns_bind_iff.mp h
    rw [returns_fromLeBytes_iff] at h0
    obtain ⟨h1, h⟩ := returns_bind_iff.mp (h _ (fromLeBytes_eq_ok h0))
    rw [returns_fromLeBytes_iff] at h1
    obtain ⟨h2, h⟩ := returns_bind_iff.mp (h _ (fromLeBytes_eq_ok h1))
    rw [returns_byteAt_iff] at h2
    exact returns_nulTerminated_iff.mp (returns_bind_iff.mp (h _ (byteAt_eq_ok h2))).1
  rw [LoginComplete]
  by_cases hlen : 32 ≤ payload.length
  · rw [and_iff_right hlen, parseHandshakeResponse,
      returns_bind_of_ok (fromLeBytes_eq_ok (by omega)),
      returns_bind_of_ok (fromLeBytes_eq_ok (by omega)),
      returns_bind_of_ok (byteAt_eq_ok (by omega)), returns_bind_iff,
      and_iff_right (returns_nulTerminated_iff.mpr hlen)]
    constructor
    · intro h username rest hnul hdrop
      have hread : nulTerminated payload 32 "expected null-terminated username" =
          .ok (asBytes username, 32 + (asBytes username).length + 1) :=
        nulTerminated_of_drop hnul hlen hdrop
      have hauth := (returns_bind_iff.mp
        ((returns_bind_of_ok (fromUtf8_asBytes username)).mp (h _ hread))).1
      have hstop := nulTerminated_stop_le hread
      rw [returns_authField_iff hstop] at hauth
      rwa [drop_after_text hdrop] at hauth
    · rintro h ⟨name, pos⟩ hname
      obtain ⟨hnul, rest, hdrop, rfl⟩ := nulTerminated_eq_ok hname
      rw [returns_bind_iff]
      refine ⟨returns_fromUtf8 _, fun username hutf8 => ?_⟩
      obtain rfl := asBytes_of_fromUtf8 hutf8
      have hstop := nulTerminated_stop_le hname
      rw [returns_bind_iff]
      refine ⟨(returns_authField_iff hstop).mpr ?_, fun r hr => ?_⟩
      · rw [drop_after_text hdrop]
        exact h username rest hnul hdrop
      · -- the optional texts only start at a position that is there
        rw [returns_bind_iff]
        refine ⟨returns_optionalText (authField_stop_le hr), fun q hq => ?_⟩
        rw [returns_bind_iff]
        exact ⟨returns_optionalText (optionalText_stop_le (authField_stop_le hr) hq),
          fun _ _ => returns_ok _⟩
  · exact iff_of_false (fun h => hlen (hfixed h)) fun h => hlen h.1

/-- No bytes at all make the server's thread panic. -/
theorem emptyLogin_panics : ¬ ∀ payload, Returns (parseHandshakeResponse payload) := by
  intro h
  exact not_returns_panic (h [])

end Srrdb.Protocol

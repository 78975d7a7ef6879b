/-
Srrdb.Protocol.Frame — packets on a byte stream (`protocol/frame.rs`).

A packet is a length in three bytes, a sequence id and the payload. A stream
is the bytes that have been written and not read yet; `readPacket` is `none`
while they do not hold a whole packet, and a reader waits then. The length
goes through a `u32` of which three bytes are kept, so a payload from 2^24
bytes on is written behind a length that is not its own. The source neither
splits such a payload nor puts one together. What the MySQL protocol prescribes
for a payload of 2^24 - 1 bytes or more is `prescribedPackets`.
-/
import Srrdb.Lib.Codec

namespace Srrdb.Protocol

open Srrdb.Lib

/-! ## Packets -/

/-- `struct Packet`. -/
structure Packet where
  seqId : UInt8
  payload : List UInt8
  deriving DecidableEq, Repr

/-- The header of `write_packet`. -/
def packetHeader (seqId : UInt8) (length : Nat) : List UInt8 :=
  let len := UInt32.ofNat length
  [(len &&& 0xFF).toUInt8, ((len >>> 8) &&& 0xFF).toUInt8, ((len >>> 16) &&& 0xFF).toUInt8, seqId]

/-- `write_packet`. -/
def writePacket (seqId : UInt8) (payload : List UInt8) : List UInt8 :=
  packetHeader seqId payload.length ++ payload

/-- `read_packet`, and what is left of the stream. -/
def readPacket (stream : List UInt8) : Option (Packet × List UInt8) :=
  match stream with
  | b0 :: b1 :: b2 :: seqId :: rest =>
    (Codec.takeBytes (Codec.leValue [b0, b1, b2]) rest).map fun (payload, rest) =>
      (⟨seqId, payload⟩, rest)
  | _ => none

/-- One packet after the other. -/
def writePackets (packets : List Packet) : List UInt8 :=
  packets.flatMap fun p => writePacket p.seqId p.payload

/-- `read_packet` called so many times. -/
def readPackets : Nat → List UInt8 → Option (List Packet × List UInt8)
  | 0, stream => some ([], stream)
  | n + 1, stream => do
    let (p, stream) ← readPacket stream
    let (ps, stream) ← readPackets n stream
    some (p :: ps, stream)

/-! ## One packet -/

theorem lowByte_eq (n : Nat) : (UInt32.ofNat n &&& 0xFF).toUInt8 = UInt8.ofNat n := by
  apply UInt8.toNat_inj.mp
  simp only [UInt32.toNat_toUInt8, UInt32.toNat_and, UInt32.toNat_ofNat', UInt8.toNat_ofNat']
  rw [show (255 : UInt32).toNat = 2 ^ 8 - 1 from rfl, Nat.and_two_pow_sub_one_eq_mod]
  omega

theorem secondByte_eq (n : Nat) :
    ((UInt32.ofNat n >>> 8) &&& 0xFF).toUInt8 = UInt8.ofNat (n / 256) := by
  apply UInt8.toNat_inj.mp
  simp only [UInt32.toNat_toUInt8, UInt32.toNat_and, UInt32.toNat_shiftRight, UInt32.toNat_ofNat',
    UInt8.toNat_ofNat']
  rw [show (255 : UInt32).toNat = 2 ^ 8 - 1 from rfl, Nat.and_two_pow_sub_one_eq_mod,
    show (8 : UInt32).toNat % 32 = 8 from rfl, Nat.shiftRight_eq_div_pow]
  omega

theorem thirdByte_eq (n : Nat) :
    ((UInt32.ofNat n >>> 16) &&& 0xFF).toUInt8 = UInt8.ofNat (n / 256 / 256) := by
  apply UInt8.toNat_inj.mp
  simp only [UInt32.toNat_toUInt8, UInt32.toNat_and, UInt32.toNat_shiftRight, UInt32.toNat_ofNat',
    UInt8.toNat_ofNat']
  rw [show (255 : UInt32).toNat = 2 ^ 8 - 1 from rfl, Nat.and_two_pow_sub_one_eq_mod,
    show (16 : UInt32).toNat % 32 = 16 from rfl, Nat.shiftRight_eq_div_pow]
  omega

/-- The header is the length modulo 2^24, little endian, and the sequence id. -/
theorem packetHeader_eq (seqId : UInt8) (n : Nat) :
    packetHeader seqId n = Codec.leBytes 3 n ++ [seqId] := by
  simp only [packetHeader, lowByte_eq, secondByte_eq, thirdByte_eq, Codec.leBytes,
    List.cons_append, List.nil_append]

/-- A reader takes as many bytes as the header has kept of the length. -/
theorem readPacket_header (seqId : UInt8) (n : Nat) (stream : List UInt8) :
    readPacket (packetHeader seqId n ++ stream) =
      (Codec.takeBytes (n % 2 ^ 24) stream).map fun (payload, rest) => (⟨seqId, payload⟩, rest) := by
  rw [packetHeader_eq]
  show (Codec.takeBytes (Codec.leValue (Codec.leBytes 3 n)) stream).map _ = _
  rw [Codec.leValue_leBytes, show 256 ^ 3 = 2 ^ 24 by norm_num]

/-- A payload below 2^24 bytes is read as it was written. -/
theorem readPacket_writePacket (seqId : UInt8) {payload : List UInt8}
    (h : payload.length < 2 ^ 24) (rest : List UInt8) :
    readPacket (writePacket seqId payload ++ rest) = some (⟨seqId, payload⟩, rest) := by
  rw [writePacket, List.append_assoc, readPacket_header, Nat.mod_eq_of_lt h,
    Codec.takeBytes_append rfl]
  rfl

/-! ## A stream of packets -/

theorem readPackets_succ (n : Nat) (stream : List UInt8) :
    readPackets (n + 1) stream = (readPacket stream).bind fun r =>
      (readPackets n r.2).map fun rs => (r.1 :: rs.1, rs.2) := by
  cases hread : readPacket stream with
  | none => simp only [readPackets, hread, Option.bind_eq_bind, Option.bind_none]
  | some r =>
    cases hreads : readPackets n r.2 <;>
      simp [readPackets, hread, hreads]

theorem readPackets_writePackets {packets : List Packet}
    (h : ∀ p ∈ packets, p.payload.length < 2 ^ 24) (rest : List UInt8) :
    readPackets packets.length (writePackets packets ++ rest) = some (packets, rest) := by
  induction packets with
  | nil => rfl
  | cons p ps ih =>
    obtain ⟨hp, hps⟩ := List.forall_mem_cons.mp h
    rw [List.length_cons, readPackets_succ, writePackets, List.flatMap_cons, List.append_assoc,
      readPacket_writePacket p.seqId hp, Option.bind_some]
    show (readPackets ps.length (writePackets ps ++ rest)).map _ = _
    rw [ih hps]
    rfl

/-! ## What the protocol prescribes -/

/-- The greatest payload of a packet. -/
def maxPayload : Nat := 2 ^ 24 - 1

/-- A payload of 2^24 - 1 bytes or more goes in packets of that many bytes under
consecutive sequence ids; a shorter one, perhaps empty, ends it. -/
def prescribedPackets (p : Packet) : List Packet :=
  if p.payload.length < maxPayload then [p]
  else ⟨p.seqId, p.payload.take maxPayload⟩ ::
    prescribedPackets ⟨p.seqId + 1, p.payload.drop maxPayload⟩
termination_by p.payload.length
decreasing_by
  rw [List.length_drop]
  unfold maxPayload at *
  omega

/-- The logical payloads of packets: one of 2^24 - 1 bytes goes on in the next. -/
def logicalPayloads : List Packet → List (List UInt8)
  | [] => []
  | p :: ps =>
    if p.payload.length < maxPayload then p.payload :: logicalPayloads ps
    else match logicalPayloads ps with
      | [] => [p.payload]
      | payload :: payloads => (p.payload ++ payload) :: payloads

theorem prescribedPackets_short {p : Packet} (h : p.payload.length < maxPayload) :
    prescribedPackets p = [p] := by
  rw [prescribedPackets, if_pos h]

theorem prescribedPackets_long {p : Packet} (h : ¬ p.payload.length < maxPayload) :
    prescribedPackets p = ⟨p.seqId, p.payload.take maxPayload⟩ ::
      prescribedPackets ⟨p.seqId + 1, p.payload.drop maxPayload⟩ := by
  rw [prescribedPackets, if_neg h]

/-- Split and put together again, a payload is the same. -/
theorem logicalPayloads_prescribed (p : Packet) (ps : List Packet) :
    logicalPayloads (prescribedPackets p ++ ps) = p.payload :: logicalPayloads ps := by
  induction p using prescribedPackets.induct with
  | case1 p h => rw [prescribedPackets_short h, List.singleton_append, logicalPayloads, if_pos h]
  | case2 p h ih =>
    have hfull : ¬ (p.payload.take maxPayload).length < maxPayload := by
      rw [List.length_take]
      omega
    rw [prescribedPackets_long h, List.cons_append, logicalPayloads, if_neg hfull, ih]
    simp only [List.take_append_drop]

theorem logicalPayloads_flatMap (packets : List Packet) :
    logicalPayloads (packets.flatMap prescribedPackets) = packets.map (·.payload) := by
  induction packets with
  | nil => rfl
  | cons p ps ih => rw [List.flatMap_cons, logicalPayloads_prescribed, ih, List.map_cons]

theorem flatMap_prescribed_short {packets : List Packet}
    (h : ∀ p ∈ packets, p.payload.length < maxPayload) :
    packets.flatMap prescribedPackets = packets := by
  induction packets with
  | nil => rfl
  | cons p ps ih =>
    obtain ⟨hp, hps⟩ := List.forall_mem_cons.mp h
    rw [List.flatMap_cons, prescribedPackets_short hp, ih hps, List.singleton_append]

theorem length_writePacket (p : Packet) :
    (writePacket p.seqId p.payload).length = 4 + p.payload.length := by
  simp [writePacket, packetHeader]
  omega

theorem writePackets_append (ps qs : List Packet) :
    writePackets (ps ++ qs) = writePackets ps ++ writePackets qs := List.flatMap_append

/-- Each packet of a split payload has a header of its own. -/
theorem length_writePackets_prescribed (p : Packet) :
    4 + p.payload.length ≤ (writePackets (prescribedPackets p)).length ∧
      (¬ p.payload.length < maxPayload →
        4 + p.payload.length < (writePackets (prescribedPackets p)).length) := by
  induction p using prescribedPackets.induct with
  | case1 p h =>
    rw [prescribedPackets_short h, writePackets, List.flatMap_singleton, length_writePacket]
    exact ⟨Nat.le_refl _, fun hnot => absurd h hnot⟩
  | case2 p h ih =>
    have hlen := length_writePacket ⟨p.seqId, p.payload.take maxPayload⟩
    have hrest := ih.1
    rw [prescribedPackets_long h, writePackets, List.flatMap_cons, List.length_append, hlen]
    simp only [List.length_take, List.length_drop, writePackets] at hrest ⊢
    exact ⟨by omega, fun _ => by omega⟩

/-! ## Framing -/

/-- What is written is split as prescribed, and reading it gives the logical
payloads back, in order, and stops where the next packet begins. -/
def FramedWithoutLoss (packets : List Packet) (rest : List UInt8) : Prop :=
  writePackets packets = writePackets (packets.flatMap prescribedPackets) ∧
  (readPackets (packets.flatMap prescribedPackets).length (writePackets packets ++ rest)).map
      (fun read => (logicalPayloads read.1, read.2)) =
    some (packets.map (·.payload), rest)

/-- What is written without a split is short. -/
theorem short_of_prescribed {packets : List Packet}
    (h : writePackets packets = writePackets (packets.flatMap prescribedPackets)) :
    ∀ p ∈ packets, p.payload.length < maxPayload := by
  have hlengths : ∀ ps : List Packet,
      (writePackets ps).length ≤ (writePackets (ps.flatMap prescribedPackets)).length := by
    intro ps
    induction ps with
    | nil => exact Nat.le_refl 0
    | cons p ps ih =>
      rw [List.flatMap_cons, writePackets_append, List.length_append]
      show (writePacket p.seqId p.payload ++ writePackets ps).length ≤ _
      rw [List.length_append, length_writePacket]
      exact Nat.add_le_add (length_writePackets_prescribed p).1 ih
  induction packets with
  | nil => exact List.forall_mem_nil _
  | cons p ps ih =>
    have hlen := congrArg List.length h
    rw [List.flatMap_cons, writePackets_append, List.length_append] at hlen
    change (writePacket p.seqId p.payload ++ writePackets ps).length = _ at hlen
    rw [List.length_append, length_writePacket] at hlen
    have hp : p.payload.length < maxPayload := by
      by_contra hnot
      have hlong := (length_writePackets_prescribed p).2 hnot
      have hothers := hlengths ps
      omega
    refine List.forall_mem_cons.mpr ⟨hp, ih ?_⟩
    rw [List.flatMap_cons, prescribedPackets_short hp] at h
    exact List.append_cancel_left h

/-- Framing loses nothing exactly when every payload is shorter than 2^24 - 1. -/
theorem framing_lossless_iff (packets : List Packet) (rest : List UInt8) :
    FramedWithoutLoss packets rest ↔ ∀ p ∈ packets, p.payload.length < 2 ^ 24 - 1 := by
  constructor
  · intro h
    exact short_of_prescribed h.1
  · intro h
    have hsplit : packets.flatMap prescribedPackets = packets := flatMap_prescribed_short h
    have hread := readPackets_writePackets (fun p hp => Nat.lt_of_lt_pred (h p hp)) rest
    refine ⟨by rw [hsplit], ?_⟩
    rw [hsplit, hread, Option.map_some]
    have hlogical := logicalPayloads_flatMap packets
    rw [hsplit] at hlogical
    rw [hlogical]

/-- A payload of 2^24 bytes, all zero: the header says length 0, and the bytes
are read as further packets. One of 2^24 - 1 bytes is not split either. -/
theorem longPayload_lost :
    ¬ FramedWithoutLoss [⟨0, List.replicate (2 ^ 24) 0⟩] [] ∧
      readPacket (writePackets [⟨0, List.replicate (2 ^ 24) 0⟩]) =
        some (⟨0, []⟩, List.replicate (2 ^ 24) 0) ∧
      ¬ FramedWithoutLoss [⟨0, List.replicate (2 ^ 24 - 1) 0⟩] [] := by
  refine ⟨fun h => ?_, ?_, fun h => ?_⟩
  · have hlt := short_of_prescribed h.1 _ List.mem_cons_self
    simp only [List.length_replicate, maxPayload] at hlt
    omega
  · rw [writePackets, List.flatMap_singleton, writePacket, readPacket_header,
      List.length_replicate, Nat.mod_self]
    generalize List.replicate (2 ^ 24) (0 : UInt8) = bytes
    simp [Codec.takeBytes]
  · have hlt := short_of_prescribed h.1 _ List.mem_cons_self
    simp only [List.length_replicate, maxPayload] at hlt
    omega

end Srrdb.Protocol

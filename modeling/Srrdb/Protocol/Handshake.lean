/-
Srrdb.Protocol.Handshake — the login of the server (`protocol/handshake.rs`).

The server sends a scramble and its capabilities, the client answers with a
user name, a proof of its password and a database, as far as the capabilities
of the answer say so. SHA-1 comes from a crate and is a parameter, of which
only the length of a digest is fixed. What the server keeps of a password is
the digest of its digest.
-/
import Srrdb.Protocol.Payload

namespace Srrdb.Protocol

open Srrdb.Lib

/-! ## SHA-1 -/

/-- `Sha1::digest`; `update` twice is a digest of both parts in a row. -/
class Sha1 where
  sha1 : List UInt8 → List UInt8
  length_sha1 : ∀ data, (sha1 data).length = 20

export Sha1 (sha1)

attribute [simp] Sha1.length_sha1

/-! ## Texts in a payload -/

/-- What `Utf8Error` says of the bytes from position `start` on. -/
def utf8ErrorText : Nat → Nat → List Nat → String
  | 0, start, _ | _ + 1, start, [] => s!"incomplete utf-8 byte sequence from index {start}"
  | fuel + 1, start, lead :: rest =>
    match continuationCount lead with
    | none => s!"invalid utf-8 sequence of 1 bytes from index {start}"
    | some n =>
      let tail := acceptedTail lead n rest
      if tail.length = n then utf8ErrorText fuel (start + 1 + n) (rest.drop n)
      else if tail.length = rest.length then
        s!"incomplete utf-8 byte sequence from index {start}"
      else s!"invalid utf-8 sequence of {1 + tail.length} bytes from index {start}"

/-- `String::from_utf8`. -/
def fromUtf8 (bytes : List UInt8) : Outcome String :=
  match String.fromUTF8? ⟨bytes.toArray⟩ with
  | some s => .ok s
  | none => .error (.err (utf8ErrorText bytes.length 0 (bytes.map UInt8.toNat)))

/-- The bytes from `pos` up to the next 0, and the position after it. -/
def nulTerminated (payload : List UInt8) (pos : Nat) (missing : String) :
    Outcome (List UInt8 × Nat) := do
  let tail ← sliceFrom payload pos
  match tail.findIdx? (· = 0) with
  | none => throw (.err missing)
  | some stop => return (tail.take stop, pos + stop + 1)

theorem fromUtf8_asBytes (s : String) : fromUtf8 (asBytes s) = .ok s := by
  have h : String.fromUTF8? ⟨(asBytes s).toArray⟩ = some s := by
    simp [asBytes, String.fromUTF8?, String.fromUTF8, s.isValidUTF8]
  rw [fromUtf8, h]

/-- A text without a 0 in it ends at the first one. -/
theorem nulTerminated_of_prefix {pre text data : List UInt8} (hnul : 0 ∉ text)
    (h : pre ++ text ++ [0] <+: data) (missing : String) :
    nulTerminated data pre.length missing = .ok (text, pre.length + text.length + 1) := by
  obtain ⟨rest, rfl⟩ := h
  have hfind : (text ++ 0 :: rest).findIdx? (· = 0) = some text.length := by
    have hnone : text.findIdx? (· = (0 : UInt8)) = none := by
      rw [List.findIdx?_eq_none_iff]
      exact fun b hb => decide_eq_false fun h => hnul (h ▸ hb)
    rw [List.findIdx?_append, hnone]
    simp [List.findIdx?_cons]
  rw [nulTerminated, List.append_assoc, List.append_assoc, List.singleton_append,
    sliceFrom_append]
  simp only [bind, Except.bind, hfind, List.take_left, pure, Except.pure]

/-! ## Capabilities -/

def clientLongPassword : UInt32 := 1
def clientConnectWithDb : UInt32 := 8
def clientProtocol41 : UInt32 := 512
def clientTransactions : UInt32 := 8192
def clientSecureConnection : UInt32 := 32768
def clientMultiResults : UInt32 := 131072
def clientPsMultiResults : UInt32 := 262144
def clientPluginAuth : UInt32 := 524288
def clientPluginAuthLenencClientData : UInt32 := 2097152

/-! ## The two packets -/

/-- `[u8; SCRAMBLE_LEN]`. -/
structure Scramble where
  bytes : List UInt8
  length_eq : bytes.length = 20

/-- `build_handshake`. -/
def buildHandshake (connId : UInt32) (scramble : Scramble) (capabilities : UInt32)
    (charset : UInt8) : List UInt8 :=
  10 :: asBytes "srrdb 0.2.0\x00" ++ Codec.leBytes 4 connId.toNat ++ scramble.bytes.take 8 ++
    0x00 :: Codec.leBytes 2 capabilities.toUInt16.toNat ++ charset :: Codec.leBytes 2 2 ++
    Codec.leBytes 2 (capabilities >>> 16).toUInt16.toNat ++
    (if capabilities &&& clientPluginAuth ≠ 0 then 20 + 1 else 0) :: List.replicate 10 0 ++
    (if capabilities &&& clientSecureConnection ≠ 0 then scramble.bytes.drop 8 ++ [0x00] else []) ++
    (if capabilities &&& clientPluginAuth ≠ 0 then asBytes "mysql_native_password\x00" else [])

/-- `struct HandshakeResponse`. -/
structure HandshakeResponse where
  capabilities : UInt32
  maxPacketSize : UInt32
  charset : UInt8
  username : String
  authResponse : List UInt8
  database : Option String
  authPlugin : Option String
  deriving DecidableEq, Repr

/-- `lenenc_int` of the server. -/
def lenencInt (data : List UInt8) : Outcome (Nat × Nat) :=
  match data with
  | [] => .ok (0, 0)
  | first :: _ =>
    if first = 0xFC then (fromLeBytes data 1 2).map fun v => (v, 3)
    else if first = 0xFD then (fromLeBytes data 1 3).map fun v => (v, 4)
    else if first = 0xFE then (fromLeBytes data 1 8).map fun v => (v, 9)
    else .ok (first.toNat, 1)

/-- The authentication data of a response, and the position after it. -/
def authField (capabilities : UInt32) (payload : List UInt8) (pos : Nat) :
    Outcome (List UInt8 × Nat) :=
  if capabilities &&& clientPluginAuthLenencClientData ≠ 0 then do
    let (len, n) ← lenencInt (← sliceFrom payload pos)
    let data ← slice payload (pos + n) len
    return (data, pos + n + len)
  else if capabilities &&& clientSecureConnection ≠ 0 then do
    let len ← byteAt payload pos
    let data ← slice payload (pos + 1) len.toNat
    return (data, pos + 1 + len.toNat)
  else nulTerminated payload pos "expected null-terminated auth response"

/-- A text that is there when the capability is, and the position after it. -/
def optionalText (capabilities flag : UInt32) (payload : List UInt8) (pos : Nat)
    (missing : String) : Outcome (Option String × Nat) :=
  if capabilities &&& flag ≠ 0 then do
    let (text, pos) ← nulTerminated payload pos missing
    return (some (← fromUtf8 text), pos)
  else return (none, pos)

/-- `parse_handshake_response`. -/
def parseHandshakeResponse (payload : List UInt8) : Outcome HandshakeResponse := do
  let capabilities := UInt32.ofNat (← fromLeBytes payload 0 4)
  let maxPacketSize := UInt32.ofNat (← fromLeBytes payload 4 4)
  let charset ← byteAt payload 8
  let (name, pos) ← nulTerminated payload (9 + 23) "expected null-terminated username"
  let username ← fromUtf8 name
  let (authResponse, pos) ← authField capabilities payload pos
  let (database, pos) ← optionalText capabilities clientConnectWithDb payload pos
    "expected null-terminated database"
  let (authPlugin, _) ← optionalText capabilities clientPluginAuth payload pos
    "expected null-terminated auth plugin"
  return ⟨capabilities, maxPacketSize, charset, username, authResponse, database, authPlugin⟩

/-! ## Passwords -/

variable [Sha1]

/-- `a.iter().zip(b).map(|(a, b)| a ^ b)`. -/
def xorBytes (a b : List UInt8) : List UInt8 := List.zipWith (· ^^^ ·) a b

/-- `verify_native_password`. -/
def verifyNativePassword (password : String) (scramble : Scramble)
    (authResponse : List UInt8) : Bool :=
  let passwordHash := sha1 (asBytes password)
  let doubleHash := sha1 passwordHash
  let hash := sha1 (scramble.bytes ++ doubleHash)
  let expected := xorBytes passwordHash hash
  authResponse == expected

/-- `hash_native_password`. -/
def hashNativePassword (password : String) : List UInt8 := sha1 (sha1 (asBytes password))

/-- `verify_native_password_hash`. -/
def verifyNativePasswordHash (storedDoubleHash : List UInt8) (scramble : Scramble)
    (authResponse : List UInt8) : Bool :=
  let hash := sha1 (scramble.bytes ++ storedDoubleHash)
  let expectedPasswordHash := xorBytes authResponse hash
  sha1 expectedPasswordHash == storedDoubleHash

end Srrdb.Protocol

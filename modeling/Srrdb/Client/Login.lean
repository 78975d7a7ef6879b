/-
Srrdb.Client.Login — the login of the built-in client (`client.rs`,
`parse_server_handshake` to `build_handshake_response`).

The client takes the scramble and the capabilities out of the server's first
packet by position and answers with what both sides can do. An empty password
is answered with no bytes at all.
-/
import Srrdb.Protocol.Handshake

namespace Srrdb.Client

open Srrdb.Lib Srrdb.Protocol

/-- `struct ServerHandshake`. -/
structure ServerHandshake where
  protocolVersion : UInt8
  serverVersion : String
  connectionId : UInt32
  scramble : List UInt8
  capabilities : UInt32
  charset : UInt8
  authPlugin : Option String
  deriving DecidableEq, Repr

/-- `from_utf8(bytes).ok()`. -/
def fromUtf8Ok (bytes : List UInt8) : Option String :=
  match fromUtf8 bytes with
  | .ok s => some s
  | .error _ => none

/-- `scramble[8..8 + copy_len].copy_from_slice(..)`, where the payload has it. -/
def secondPart (capabilities : UInt32) (authPluginDataLen : UInt8) (payload : List UInt8)
    (pos : Nat) : List UInt8 :=
  let part2Len := authPluginDataLen.toNat - 9
  let copyLen := min part2Len 12
  if capabilities &&& clientSecureConnection ≠ 0 ∧ 0 < part2Len ∧
      pos + part2Len ≤ payload.length then
    (payload.drop pos).take copyLen ++ List.replicate (12 - copyLen) 0
  else List.replicate 12 0

/-- The plugin name: what stands before the next 0, or all that is left. -/
def pluginName (capabilities : UInt32) (payload : List UInt8) (pos : Nat) : Option String :=
  if capabilities &&& clientPluginAuth ≠ 0 ∧ pos < payload.length then
    fromUtf8Ok ((payload.drop pos).takeWhile (· ≠ 0))
  else none

/-- `parse_server_handshake`. -/
def parseServerHandshake (payload : List UInt8) : Outcome ServerHandshake := do
  let protocolVersion ← byteAt payload 0
  let (version, pos) ← nulTerminated payload 1 "missing null terminator for server version"
  let serverVersion ← fromUtf8 version
  let connectionId := UInt32.ofNat (← fromLeBytes payload pos 4)
  let pos := pos + 4
  let firstPart ← slice payload pos 8
  let pos := pos + 8 + 1
  let capabilitiesLower ← fromLeBytes payload pos 2
  let pos := pos + 2
  let charset ← byteAt payload pos
  let pos := pos + 1 + 2
  let capabilitiesUpper ← fromLeBytes payload pos 2
  let pos := pos + 2
  let capabilities := UInt32.ofNat capabilitiesUpper <<< 16 ||| UInt32.ofNat capabilitiesLower
  let authPluginDataLen ←
    if capabilities &&& clientPluginAuth ≠ 0 then byteAt payload pos else pure 0
  let pos := pos + 1 + 10
  let scramble := firstPart ++ secondPart capabilities authPluginDataLen payload pos
  let authPlugin := pluginName capabilities payload pos
  return ⟨protocolVersion, serverVersion, connectionId, scramble, capabilities, charset, authPlugin⟩

/-- What the client can do. -/
def clientCapabilities : UInt32 :=
  clientProtocol41 ||| clientSecureConnection ||| clientPluginAuth |||
    clientPluginAuthLenencClientData ||| clientTransactions ||| clientConnectWithDb

variable [Sha1]

/-- `compute_auth_response`. -/
def computeAuthResponse (password scramble : List UInt8) : List UInt8 :=
  let passwordHash := sha1 password
  let doubleHash := sha1 passwordHash
  xorBytes passwordHash (sha1 (scramble ++ doubleHash))

/-- The authentication data `build_handshake_response` sends. -/
def authOf (password : String) (scramble : List UInt8) : List UInt8 :=
  if password.isEmpty then [] else computeAuthResponse (asBytes password) scramble

/-- `build_handshake_response`. -/
def buildHandshakeResponse (handshake : ServerHandshake) (username password : String) :
    List UInt8 :=
  let caps := clientCapabilities &&& handshake.capabilities
  let auth := authOf password handshake.scramble
  Codec.leBytes 4 caps.toNat ++ Codec.leBytes 4 16777215 ++ 255 :: List.replicate 23 0 ++
    asBytes username ++ 0 :: UInt8.ofNat auth.length :: auth ++
    asBytes "srrdb" ++ 0 :: asBytes "mysql_native_password" ++ [0]

end Srrdb.Client

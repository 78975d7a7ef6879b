/-
Srrdb.Server.Authentication — the login of the built-in client.

The parsers find the scramble and the authentication data in what the other
side wrote (`Client.parseServerHandshake_buildHandshake`,
`Client.parseHandshakeResponse_answer`), so the server checks exactly the bytes
the client has computed from the scramble that was sent. The client answers an
empty password with no bytes; the server compares the digest of no bytes with
what it has stored, also when what it has stored is the empty password. A wrong
password is accepted only when two digests differ in the same bits as two
others.
-/
import Srrdb.Client.LoginPackets
import Srrdb.Server.Connection
import Srrdb.Lib.Sha1

namespace Srrdb.Connection

open Srrdb.Lib Srrdb.Protocol Srrdb.Client

section Answer

variable [Sha1]

/-! ## The exchange -/

/-- The whole login: whether the server accepts the client's password `q` when
its own is `p`. -/
def exchange (scramble : Scramble) (username p q : String) : Outcome Bool := do
  let handshake ← parseServerHandshake (serverHandshake scramble)
  let response ← parseHandshakeResponse (buildHandshakeResponse handshake username q)
  return (authenticate (some p) scramble response).isSome

/-- The server checks what the client has computed. -/
theorem exchange_eq (scramble : Scramble) {username : String} (hnul : 0 ∉ asBytes username)
    (p q : String) :
    exchange scramble username p q =
      .ok (verifyNativePasswordHash (hashNativePassword p) scramble (authOf q scramble.bytes)) := by
  have hplugin : serverCapabilities &&& clientPluginAuth ≠ 0 := by decide
  have hsecure : serverCapabilities &&& clientSecureConnection ≠ 0 := by decide
  rw [exchange, serverHandshake, parseServerHandshake_buildHandshake 1 scramble 45 hplugin hsecure,
    ok_bind, parseHandshakeResponse_answer hnul (.inr (.inl hsecure)), ok_bind]
  simp only [pure, Except.pure, authenticate, User.withPassword]
  by_cases h : verifyNativePasswordHash (hashNativePassword p) scramble
      (authOf q scramble.bytes) = true
  · simp [h]
  · simp [h]

/-! ## Digests -/

/-- What is hashed in the exchange. -/
def hashedInputs (scramble : Scramble) (p q : String) : List (List UInt8) :=
  [asBytes p, sha1 (asBytes p), scramble.bytes ++ hashNativePassword p,
    xorBytes (authOf q scramble.bytes) (sha1 (scramble.bytes ++ hashNativePassword p))] ++
  if q.isEmpty then []
  else [asBytes q, sha1 (asBytes q), scramble.bytes ++ hashNativePassword q]

/-- No two of the inputs have the same digest. -/
def CollisionFree (inputs : List (List UInt8)) : Prop :=
  ∀ x ∈ inputs, ∀ y ∈ inputs, sha1 x = sha1 y → x = y

instance (inputs : List (List UInt8)) : Decidable (CollisionFree inputs) :=
  inferInstanceAs (Decidable (∀ x ∈ inputs, ∀ y ∈ inputs, sha1 x = sha1 y → x = y))

/-- The digests of two passwords differ exactly where those of the scrambles
with them do. -/
def Coincide (scramble : Scramble) (p q : String) : Prop :=
  xorBytes (sha1 (asBytes q)) (sha1 (scramble.bytes ++ hashNativePassword q)) =
    xorBytes (sha1 (asBytes p)) (sha1 (scramble.bytes ++ hashNativePassword p))

omit [Sha1] in
theorem xorBytes_cancel {a b : List UInt8} (h : a.length = b.length) :
    xorBytes (xorBytes a b) b = a := by
  induction a generalizing b with
  | nil => rfl
  | cons x a ih =>
    cases b with
    | nil => cases h
    | cons y b =>
      simp only [xorBytes, List.zipWith_cons_cons, List.cons.injEq]
      exact ⟨by rw [UInt8.xor_assoc, UInt8.xor_self, UInt8.xor_zero], ih (Nat.succ.inj h)⟩

omit [Sha1] in
theorem length_xorBytes (a b : List UInt8) : (xorBytes a b).length = min a.length b.length :=
  List.length_zipWith

/-- Without collisions the server accepts when it finds the digest of its
password. -/
theorem verify_iff {scramble : Scramble} {p q : String}
    (hfree : CollisionFree (hashedInputs scramble p q)) :
    verifyNativePasswordHash (hashNativePassword p) scramble (authOf q scramble.bytes) = true ↔
      xorBytes (authOf q scramble.bytes) (sha1 (scramble.bytes ++ hashNativePassword p)) =
        sha1 (asBytes p) := by
  rw [verifyNativePasswordHash, beq_iff_eq]
  constructor
  · intro h
    exact hfree _ (by simp [hashedInputs]) _ (by simp [hashedInputs]) h
  · intro h
    rw [h]
    rfl

/-- No bytes are no digest: the server refuses an empty password. -/
theorem verify_empty {scramble : Scramble} {p : String}
    (hfree : CollisionFree (hashedInputs scramble p "")) :
    verifyNativePasswordHash (hashNativePassword p) scramble (authOf "" scramble.bytes) = false := by
  rw [← Bool.not_eq_true, verify_iff hfree]
  intro h
  have hlength := congrArg List.length h
  rw [Sha1.length_sha1] at hlength
  cases hlength

/-- The server accepts another password than the empty one when it coincides
with its own. -/
theorem verify_nonempty {scramble : Scramble} {p q : String} (hq : q ≠ "")
    (hfree : CollisionFree (hashedInputs scramble p q)) :
    verifyNativePasswordHash (hashNativePassword p) scramble (authOf q scramble.bytes) = true ↔
      Coincide scramble p q := by
  have hauth : authOf q scramble.bytes =
      xorBytes (sha1 (asBytes q)) (sha1 (scramble.bytes ++ hashNativePassword q)) := by
    rw [authOf, if_neg (by simpa using hq)]
    rfl
  rw [verify_iff hfree, hauth, Coincide]
  constructor
  · intro h
    rw [← h, xorBytes_cancel]
    rw [length_xorBytes, Sha1.length_sha1, Sha1.length_sha1, Sha1.length_sha1]
    rfl
  · intro h
    rw [h, xorBytes_cancel]
    rw [Sha1.length_sha1, Sha1.length_sha1]

/-- Where SHA-1 does not collide, the login accepts exactly the right password
if and only if not both are empty and no wrong one coincides with it. -/
theorem exchange_accepts_iff {scramble : Scramble} {username p q : String}
    (hnul : 0 ∉ asBytes username) (hfree : CollisionFree (hashedInputs scramble p q)) :
    (exchange scramble username p q = .ok true ↔ p = q) ↔
      ¬ (p = "" ∧ q = "") ∧ ¬ (p ≠ q ∧ q ≠ "" ∧ Coincide scramble p q) := by
  rw [exchange_eq scramble hnul, Except.ok.injEq]
  by_cases hq : q = ""
  · subst hq
    rw [verify_empty hfree]
    simp
  · rw [verify_nonempty hq hfree]
    by_cases hpq : p = q
    · subst hpq
      have hsame : Coincide scramble p p := rfl
      simp [hsame, hq]
    · simp [hpq, hq]

end Answer

/-! ## With SHA-1 itself -/

section Concrete

/-- SHA-1 as it is. -/
@[reducible] def realSha1 : Sha1 where
  sha1 := Lib.Sha1.digest
  length_sha1 := Lib.Sha1.length_digest

attribute [local instance] realSha1

/-- A scramble of twenty ones. -/
def onesScramble : Scramble := ⟨List.replicate 20 1, rfl⟩

/-- The password `secret`, on both sides. -/
theorem secret_accepted :
    (exchange onesScramble "root" "secret" "secret" = .ok true ↔ "secret" = "secret") ↔
      ¬ ("secret" = "" ∧ "secret" = "") ∧
        ¬ ("secret" ≠ "secret" ∧ "secret" ≠ "" ∧ Coincide onesScramble "secret" "secret") :=
  exchange_accepts_iff (by decide +kernel) (by decide +kernel)

/-- The empty password, on both sides, is refused. -/
theorem emptyPassword_refused :
    CollisionFree (hashedInputs onesScramble "" "") ∧
      ¬ (exchange onesScramble "root" "" "" = .ok true ↔ "" = "") := by
  have hfree : CollisionFree (hashedInputs onesScramble "" "") := by decide +kernel
  have hrefused : exchange onesScramble "root" "" "" = .ok false := by decide +kernel
  refine ⟨hfree, ?_⟩
  rw [hrefused]
  simp

end Concrete

end Srrdb.Connection

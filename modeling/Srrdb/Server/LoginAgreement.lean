/-
Srrdb.Server.LoginAgreement — where the two sides of the login agree.

The server has two verifiers of a proof of a password. The one that knows the
password compares the whole proof; the one that knows its double digest, which
guards the login, takes from a longer proof only as many bytes as a digest has
(`verifiers_agree_iff`). The answer of the client is read as it was meant for
the capabilities that suit what the client writes whatever they are
(`answer_parsesBack_iff`).
-/
import Srrdb.Server.Authentication

namespace Srrdb.Connection

open Srrdb.Lib Srrdb.Protocol Srrdb.Client

/-! ## The two verifiers -/

section Verifiers

variable [Sha1]

/-- What the two verifiers hash. -/
def verifierInputs (password : String) (scramble : Scramble) (authResponse : List UInt8) :
    List (List UInt8) :=
  [asBytes password, sha1 (asBytes password), scramble.bytes ++ hashNativePassword password,
    xorBytes authResponse (sha1 (scramble.bytes ++ hashNativePassword password))]

omit [Sha1] in
/-- `zip` takes no more bytes than the shorter side has. -/
theorem xorBytes_take (a b : List UInt8) : xorBytes (a.take b.length) b = xorBytes a b := by
  induction b generalizing a with
  | nil => simp [xorBytes]
  | cons y b ih =>
    cases a with
    | nil => rfl
    | cons x a =>
      rw [List.length_cons, List.take_succ_cons]
      simp only [xorBytes, List.zipWith_cons_cons, List.cons.injEq, true_and]
      exact ih a

omit [Sha1] in
/-- The bytes that give the digest back are the answer, and what comes after it
is not looked at. -/
theorem xorBytes_eq_iff {response hash digest : List UInt8} (h : digest.length = hash.length) :
    xorBytes response hash = digest ↔ ∃ extra, response = xorBytes digest hash ++ extra := by
  constructor
  · intro hx
    refine ⟨response.drop hash.length, ?_⟩
    have hlength := congrArg List.length hx
    rw [length_xorBytes, h] at hlength
    have htake : (response.take hash.length).length = hash.length := by
      rw [List.length_take]
      omega
    have hanswer : xorBytes digest hash = response.take hash.length := by
      rw [← hx, ← xorBytes_take response, xorBytes_cancel htake]
    rw [hanswer, List.take_append_drop]
  · rintro ⟨extra, rfl⟩
    have hlength : (xorBytes digest hash).length = hash.length := by
      rw [length_xorBytes, h, Nat.min_self]
    rw [← xorBytes_take, List.take_append_of_le_length hlength.ge,
      List.take_of_length_le hlength.le, xorBytes_cancel h]

theorem verifyNativePassword_iff (password : String) (scramble : Scramble)
    (authResponse : List UInt8) :
    verifyNativePassword password scramble authResponse = true ↔
      authResponse = computeAuthResponse (asBytes password) scramble.bytes :=
  beq_iff_eq

/-- Without collisions the guard of the login accepts what begins with the right
answer. -/
theorem verifyNativePasswordHash_iff {password : String} {scramble : Scramble}
    {authResponse : List UInt8}
    (hfree : CollisionFree (verifierInputs password scramble authResponse)) :
    verifyNativePasswordHash (hashNativePassword password) scramble authResponse = true ↔
      ∃ extra, authResponse = computeAuthResponse (asBytes password) scramble.bytes ++ extra := by
  have hlength : (sha1 (asBytes password)).length =
      (sha1 (scramble.bytes ++ hashNativePassword password)).length := by
    rw [Sha1.length_sha1, Sha1.length_sha1]
  have hdigest : verifyNativePasswordHash (hashNativePassword password) scramble authResponse =
        true ↔
      xorBytes authResponse (sha1 (scramble.bytes ++ hashNativePassword password)) =
        sha1 (asBytes password) := by
    rw [verifyNativePasswordHash, beq_iff_eq]
    constructor
    · intro h
      exact hfree _ (by simp [verifierInputs]) _ (by simp [verifierInputs]) h
    · intro h
      rw [h]
      rfl
  exact hdigest.trans (xorBytes_eq_iff hlength)

/-- The verifiers agree on every response but the right answer with more bytes
behind it. -/
theorem verifiers_agree_iff {password : String} {scramble : Scramble} {authResponse : List UInt8}
    (hfree : CollisionFree (verifierInputs password scramble authResponse)) :
    verifyNativePassword password scramble authResponse =
        verifyNativePasswordHash (hashNativePassword password) scramble authResponse ↔
      ¬ ∃ extra, extra ≠ [] ∧
        authResponse = computeAuthResponse (asBytes password) scramble.bytes ++ extra := by
  rw [Bool.eq_iff_iff, verifyNativePassword_iff, verifyNativePasswordHash_iff hfree]
  constructor
  · rintro h ⟨extra, hne, heq⟩
    have hright := h.mpr ⟨extra, heq⟩
    rw [hright] at heq
    exact hne (List.self_eq_append_right.mp heq)
  · intro h
    constructor
    · intro heq
      exact ⟨[], by rw [heq, List.append_nil]⟩
    · rintro ⟨extra, heq⟩
      by_cases hextra : extra = []
      · rw [heq, hextra, List.append_nil]
      · exact absurd ⟨extra, hextra, heq⟩ h

end Verifiers

section Concrete

attribute [local instance] realSha1

/-- The answer to the scramble of ones, for the password `secret`. -/
theorem secretAnswer_agrees :
    verifyNativePassword "secret" onesScramble
          (computeAuthResponse (asBytes "secret") onesScramble.bytes) =
        verifyNativePasswordHash (hashNativePassword "secret") onesScramble
          (computeAuthResponse (asBytes "secret") onesScramble.bytes) ↔
      ¬ ∃ extra, extra ≠ [] ∧ computeAuthResponse (asBytes "secret") onesScramble.bytes =
        computeAuthResponse (asBytes "secret") onesScramble.bytes ++ extra :=
  verifiers_agree_iff (by decide +kernel)

/-- The same answer and one more byte: the guard of the login accepts it. -/
theorem longAnswer_disagrees :
    ¬ ∀ (password : String) (scramble : Scramble) (authResponse : List UInt8),
      CollisionFree (verifierInputs password scramble authResponse) →
        verifyNativePassword password scramble authResponse =
          verifyNativePasswordHash (hashNativePassword password) scramble authResponse := by
  intro h
  have hagree := h "secret" onesScramble
    (computeAuthResponse (asBytes "secret") onesScramble.bytes ++ [0]) (by decide +kernel)
  have hplain : verifyNativePassword "secret" onesScramble
      (computeAuthResponse (asBytes "secret") onesScramble.bytes ++ [0]) = false := by
    decide +kernel
  have hguard : verifyNativePasswordHash (hashNativePassword "secret") onesScramble
      (computeAuthResponse (asBytes "secret") onesScramble.bytes ++ [0]) = true := by
    decide +kernel
  rw [hplain, hguard] at hagree
  cases hagree

end Concrete

/-! ## The answer of the client -/

section Answer

variable [Sha1]

/-- The server reads what the client has meant to write. -/
def AnswerParsesBack (handshake : ServerHandshake) (username password : String) : Prop :=
  ∃ response,
    parseHandshakeResponse (buildHandshakeResponse handshake username password) = .ok response ∧
    response.capabilities = answeredCapabilities handshake ∧ response.username = username ∧
    response.authResponse = authOf password handshake.scramble ∧
    (response.database = some "srrdb" ↔
      answeredCapabilities handshake &&& clientConnectWithDb ≠ 0) ∧
    (response.authPlugin = some "mysql_native_password" ↔
      answeredCapabilities handshake &&& clientPluginAuth ≠ 0)

/-- The answer is read as it was meant if the server has asked for a length in
front of the authentication data, or there is none, and for a database where it
has asked for a plugin. -/
theorem answer_parsesBack_iff (handshake : ServerHandshake) {username : String}
    (hnul : 0 ∉ asBytes username) (password : String) :
    AnswerParsesBack handshake username password ↔
      (handshake.capabilities &&& clientPluginAuthLenencClientData ≠ 0 ∨
        handshake.capabilities &&& clientSecureConnection ≠ 0 ∨ password = "") ∧
      (handshake.capabilities &&& clientPluginAuth ≠ 0 →
        handshake.capabilities &&& clientConnectWithDb ≠ 0) := by
  have hdb : answeredCapabilities handshake &&& clientConnectWithDb =
      handshake.capabilities &&& clientConnectWithDb := answeredCapabilities_and (by decide) _
  have hplugin : answeredCapabilities handshake &&& clientPluginAuth =
      handshake.capabilities &&& clientPluginAuth := answeredCapabilities_and (by decide) _
  by_cases hencoded : handshake.capabilities &&& clientPluginAuthLenencClientData ≠ 0 ∨
      handshake.capabilities &&& clientSecureConnection ≠ 0 ∨ password = ""
  · have hne : ¬ "srrdb" = "mysql_native_password" := by decide
    simp only [AnswerParsesBack, parseHandshakeResponse_answer hnul hencoded, hencoded, true_and,
      Except.ok.injEq, hdb, hplugin]
    constructor
    · rintro ⟨_, rfl, -, -, -, -, hname⟩ hp
      by_contra hd
      have hread := hname.mpr hp
      simp only [if_pos hp, if_neg (not_not_intro hd)] at hread
      exact hne (Option.some.inj hread)
    · intro h
      refine ⟨_, rfl, rfl, rfl, rfl, ?_, ?_⟩
      · by_cases hd : handshake.capabilities &&& clientConnectWithDb ≠ 0 <;> simp [hd]
      · by_cases hp : handshake.capabilities &&& clientPluginAuth ≠ 0
        · simp [hp, h hp]
        · simp [hp]
  · refine iff_of_false ?_ fun h => hencoded h.1
    rintro ⟨response, hparse, -, -, hauth, -⟩
    rw [not_or, not_or] at hencoded
    exact authResponse_ne hnul hencoded.1 hencoded.2.1 hencoded.2.2 hparse hauth

end Answer

section Concrete

attribute [local instance] realSha1

/-- The greeting of a server with the capabilities. -/
def greetingWith (capabilities : UInt32) : ServerHandshake :=
  ⟨10, "srrdb 0.2.0", 1, onesScramble.bytes, capabilities, 45, none⟩

/-- A server that asks for everything the client knows. -/
theorem fullAnswer_parsesBack_iff :
    AnswerParsesBack (greetingWith clientCapabilities) "root" "secret" ↔
      ((greetingWith clientCapabilities).capabilities &&& clientPluginAuthLenencClientData ≠ 0 ∨
        (greetingWith clientCapabilities).capabilities &&& clientSecureConnection ≠ 0 ∨
        "secret" = "") ∧
      ((greetingWith clientCapabilities).capabilities &&& clientPluginAuth ≠ 0 →
        (greetingWith clientCapabilities).capabilities &&& clientConnectWithDb ≠ 0) :=
  answer_parsesBack_iff (greetingWith clientCapabilities) (by decide +kernel) "secret"

/-- A server that asks for a plugin and for no database reads the database as
the plugin. -/
theorem pluginWithoutDatabase_misread :
    ¬ ∀ (handshake : ServerHandshake) (username password : String),
      handshake.capabilities &&& clientProtocol41 ≠ 0 → 0 ∉ asBytes username →
        AnswerParsesBack handshake username password := by
  intro h
  obtain ⟨response, hparse, -, -, -, -, hplugin⟩ :=
    h (greetingWith (clientProtocol41 ||| clientSecureConnection ||| clientPluginAuth)) "root" ""
      (by decide) (by decide +kernel)
  have hread : (parseHandshakeResponse (buildHandshakeResponse
      (greetingWith (clientProtocol41 ||| clientSecureConnection ||| clientPluginAuth))
      "root" "")).map (·.authPlugin) = .ok (some "srrdb") := by
    decide +kernel
  rw [hparse] at hread
  have hname := hplugin.mpr (by decide)
  rw [Except.map, hname] at hread
  simp at hread

end Concrete

end Srrdb.Connection

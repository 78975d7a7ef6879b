/-
Srrdb.Client.LoginPackets — each side's parser on the other side's packet.

The greeting of the server and the answer of the client are written and read
by position, so a parser is followed field by field along the beginnings of
the packet. The client finds everything the server states except the plugin
name: it looks for it where the second part of the scramble begins
(`parseServerHandshake_buildHandshake`), so it never gets the name
(`greeting_never_parsesBack`). The client writes its database and its plugin
whatever the capabilities are, and the server takes the first text it is owed
for the first one it reads (`parseHandshakeResponse_answer`).
-/
import Srrdb.Client.Login
import Srrdb.Protocol.Truncation

namespace Srrdb.Client

open Srrdb.Lib Srrdb.Protocol

/-! ## The greeting of the server -/

/-- The two halves of the capabilities make the whole. -/
theorem capabilities_halves (capabilities : UInt32) :
    UInt32.ofNat (capabilities >>> 16).toUInt16.toNat <<< 16 |||
      UInt32.ofNat capabilities.toUInt16.toNat = capabilities := by
  have h := capabilities.toNat_lt
  have hhigh : (capabilities >>> 16).toUInt16.toNat = capabilities.toNat / 2 ^ 16 := by
    rw [UInt32.toNat_toUInt16, UInt32.toNat_shiftRight,
      show (16 : UInt32).toNat % 32 = 16 from rfl, Nat.shiftRight_eq_div_pow]
    omega
  have hlow : capabilities.toUInt16.toNat = capabilities.toNat % 2 ^ 16 :=
    UInt32.toNat_toUInt16 _
  apply UInt32.toNat_inj.mp
  rw [UInt32.toNat_or, UInt32.toNat_shiftLeft, UInt32.toNat_ofNat', UInt32.toNat_ofNat', hhigh,
    hlow, show (16 : UInt32).toNat % 32 = 16 from rfl]
  have hfit : (capabilities.toNat / 2 ^ 16 % 2 ^ 32) <<< 16 % 2 ^ 32 =
      (capabilities.toNat / 2 ^ 16) <<< 16 := by
    rw [Nat.shiftLeft_eq, Nat.shiftLeft_eq]
    omega
  rw [hfit, Nat.mod_eq_of_lt (by omega : capabilities.toNat % 2 ^ 16 < 2 ^ 32),
    ← Nat.shiftLeft_add_eq_or_of_lt (by omega), Nat.shiftLeft_eq]
  omega

/-- What stands before the first 0 ends there. -/
theorem takeWhile_append_zero (text rest : List UInt8) :
    (text ++ 0 :: rest).takeWhile (· ≠ 0) = text.takeWhile (· ≠ 0) := by
  induction text with
  | nil => rfl
  | cons b text ih =>
    by_cases hb : b = 0
    · subst hb
      rfl
    · simp only [List.cons_append, List.takeWhile_cons, hb, ne_eq, not_false_eq_true,
        decide_true, if_true, ih]

/-- The second part of the scramble is taken as a whole. -/
theorem secondPart_of_prefix {capabilities : UInt32}
    (hsecure : capabilities &&& clientSecureConnection ≠ 0) {before part data : List UInt8}
    (hpart : part.length = 12) (h : before ++ part <+: data) :
    secondPart capabilities (20 + 1) data before.length = part := by
  have hfits : before.length + 12 ≤ data.length := by
    have hle := h.length_le
    rwa [List.length_append, hpart] at hle
  have hslice := slice_of_prefix h
  rw [hpart, slice, if_pos hfits] at hslice
  simp only [secondPart, show (20 + 1 : UInt8).toNat = 21 from rfl]
  rw [if_pos ⟨hsecure, by decide, hfits⟩]
  simpa using Except.ok.inj hslice

/-- The name is looked for where the second part of the scramble begins. -/
theorem pluginName_of_append {capabilities : UInt32}
    (hplugin : capabilities &&& clientPluginAuth ≠ 0) {before part plugin data : List UInt8}
    (h : before ++ part ++ ([0x00] ++ plugin) = data) :
    pluginName capabilities data before.length = fromUtf8Ok (part.takeWhile (· ≠ 0)) := by
  have hrest : data.drop before.length = part ++ 0 :: plugin := by
    rw [← h, List.append_assoc, List.drop_left]
    rfl
  have hfits : before.length < data.length := by
    have hlt := congrArg List.length hrest
    rw [List.length_drop, List.length_append, List.length_cons] at hlt
    omega
  rw [pluginName, if_pos ⟨hplugin, hfits⟩, hrest, takeWhile_append_zero]

/-- The client finds what the server states; the plugin name it reads out of
the scramble. -/
theorem parseServerHandshake_buildHandshake (connId : UInt32) (scramble : Scramble)
    {capabilities : UInt32} (charset : UInt8)
    (hplugin : capabilities &&& clientPluginAuth ≠ 0)
    (hsecure : capabilities &&& clientSecureConnection ≠ 0) :
    parseServerHandshake (buildHandshake connId scramble capabilities charset) =
      .ok ⟨10, "srrdb 0.2.0", connId, scramble.bytes, capabilities, charset,
        fromUtf8Ok ((scramble.bytes.drop 8).takeWhile (· ≠ 0))⟩ := by
  have hbytes : scramble.bytes = scramble.bytes.take 8 ++ scramble.bytes.drop 8 :=
    (List.take_append_drop 8 _).symm
  have hfirst : (scramble.bytes.take 8).length = 8 := by
    rw [List.length_take, scramble.length_eq]
    rfl
  have hsecond : (scramble.bytes.drop 8).length = 12 := by
    rw [List.length_drop, scramble.length_eq]
  have hversion : asBytes "srrdb 0.2.0\x00" = asBytes "srrdb 0.2.0" ++ [0] := by decide +kernel
  have hnul : (0 : UInt8) ∉ asBytes "srrdb 0.2.0" := by decide +kernel
  have hlength : (asBytes "srrdb 0.2.0").length = 11 := by decide +kernel
  rw [buildHandshake, if_pos hplugin, if_pos hsecure, if_pos hplugin, hversion]
  generalize asBytes "mysql_native_password\x00" = plugin
  generalize hpart1 : scramble.bytes.take 8 = part1 at *
  generalize hpart2 : scramble.bytes.drop 8 = part2 at *
  have hconn : connId.toNat < 256 ^ 4 := connId.toNat_lt
  have hlow : capabilities.toUInt16.toNat < 256 ^ 2 := capabilities.toUInt16.toNat_lt
  have hhigh : (capabilities >>> 16).toUInt16.toNat < 256 ^ 2 :=
    (capabilities >>> 16).toUInt16.toNat_lt
  -- what stands before each of the fields, and that all of it is there
  let before1 := [10] ++ asBytes "srrdb 0.2.0" ++ [0]
  let before2 := before1 ++ Codec.leBytes 4 connId.toNat
  let before3 := before2 ++ part1 ++ [0x00]
  let before4 := before3 ++ Codec.leBytes 2 capabilities.toUInt16.toNat
  let before5 := before4 ++ [charset] ++ Codec.leBytes 2 2
  let before6 := before5 ++ Codec.leBytes 2 (capabilities >>> 16).toUInt16.toNat
  let before7 := before6 ++ [20 + 1] ++ List.replicate 10 0
  generalize hdata : 10 :: (asBytes "srrdb 0.2.0" ++ [0]) ++ Codec.leBytes 4 connId.toNat ++
    part1 ++ 0x00 :: Codec.leBytes 2 capabilities.toUInt16.toNat ++ charset :: Codec.leBytes 2 2 ++
    Codec.leBytes 2 (capabilities >>> 16).toUInt16.toNat ++ (20 + 1) :: List.replicate 10 0 ++
    (part2 ++ [0x00]) ++ plugin = data
  have hwhole : before7 ++ part2 ++ ([0x00] ++ plugin) = data := by
    rw [← hdata]
    simp only [before7, before6, before5, before4, before3, before2, before1, List.append_assoc,
      List.cons_append, List.nil_append]
  have h8 : before7 ++ part2 <+: data := ⟨_, hwhole⟩
  have h7 : before7 <+: data := (List.prefix_append ..).trans h8
  have h6 : before6 ++ [20 + 1] <+: data := (List.prefix_append ..).trans h7
  have h5 : before6 <+: data := (List.prefix_append ..).trans h6
  have h4 : before4 ++ [charset] <+: data :=
    (List.prefix_append ..).trans ((List.prefix_append ..).trans h5)
  have h3 : before4 <+: data := (List.prefix_append ..).trans h4
  have h2 : before2 ++ part1 <+: data :=
    (List.prefix_append ..).trans ((List.prefix_append ..).trans h3)
  have h1 : before2 <+: data := (List.prefix_append ..).trans h2
  have h0 : before1 <+: data := (List.prefix_append ..).trans h1
  have hver : [10] ++ asBytes "srrdb 0.2.0" ++ [0] <+: data := h0
  have hprotocol : [] ++ [10] <+: data :=
    (List.prefix_append ..).trans ((List.prefix_append ..).trans hver)
  have hpos1 : before1.length = 13 := by simp [before1, hlength]
  have hpos2 : before2.length = 17 := by simp [before2, hpos1]
  have hpos3 : before3.length = 26 := by simp [before3, hpos2, hfirst]
  have hpos4 : before4.length = 28 := by simp [before4, hpos3]
  have hpos5 : before5.length = 31 := by simp [before5, hpos4]
  have hpos6 : before6.length = 33 := by simp [before6, hpos5]
  have hpos7 : before7.length = 44 := by simp [before7, hpos6]
  have r0 := byteAt_of_prefix hprotocol
  have r1 := nulTerminated_of_prefix hnul hver "missing null terminator for server version"
  have r2 := fromLeBytes_of_prefix h1 hconn
  have r3 := slice_of_prefix h2
  have r4 := fromLeBytes_of_prefix h3 hlow
  have r5 := byteAt_of_prefix h4
  have r6 := fromLeBytes_of_prefix h5 hhigh
  have r7 := byteAt_of_prefix h6
  rw [hpos1] at r2
  rw [hpos2, hfirst] at r3
  rw [hpos3] at r4
  rw [hpos4] at r5
  rw [hpos5] at r6
  rw [hpos6] at r7
  rw [hlength] at r1
  have hsecondPart := secondPart_of_prefix hsecure hsecond h8
  have hpluginName := pluginName_of_append hplugin hwhole
  rw [hpos7] at hsecondPart hpluginName
  simp only [List.length_nil, List.length_singleton] at r0 r1
  simp only [parseServerHandshake, bind, Except.bind, pure, Except.pure, r0, r1, r2, r3, r4, r5, r6,
    r7, fromUtf8_asBytes, capabilities_halves, if_pos hplugin, Nat.reduceAdd]
  rw [hsecondPart, hpluginName, ← hbytes, UInt32.ofNat_toNat]

/-- The greeting is read as it was written. -/
def GreetingParsesBack (connId : UInt32) (scramble : Scramble) (capabilities : UInt32)
    (charset : UInt8) : Prop :=
  ∃ handshake,
    parseServerHandshake (buildHandshake connId scramble capabilities charset) = .ok handshake ∧
    handshake.connectionId = connId ∧ handshake.scramble = scramble.bytes ∧
    handshake.capabilities = capabilities ∧ handshake.charset = charset ∧
    handshake.authPlugin = some "mysql_native_password"

/-- The plugin name is longer than what the client looks at. -/
theorem greeting_never_parsesBack (connId : UInt32) (scramble : Scramble) (capabilities : UInt32)
    (charset : UInt8) (hsecure : capabilities &&& clientSecureConnection ≠ 0)
    (hplugin : capabilities &&& clientPluginAuth ≠ 0) :
    ¬ GreetingParsesBack connId scramble capabilities charset := by
  rintro ⟨handshake, hparse, -, -, -, -, hname⟩
  rw [parseServerHandshake_buildHandshake connId scramble charset hplugin hsecure] at hparse
  cases hparse
  unfold fromUtf8Ok at hname
  split at hname
  · next s hs =>
    cases hname
    have hlength := congrArg List.length (asBytes_of_fromUtf8 hs)
    have hle := (scramble.bytes.drop 8).takeWhile_sublist (· ≠ 0) |>.length_le
    have hname : (asBytes "mysql_native_password").length = 21 := by decide +kernel
    rw [hname] at hlength
    rw [hlength, List.length_drop, scramble.length_eq] at hle
    omega
  · cases hname

/-- A scramble of twenty letters. -/
def lettersScramble : Scramble := ⟨List.replicate 20 97, rfl⟩

/-- The greeting with that scramble. -/
theorem lettersGreeting_never :
    ¬ GreetingParsesBack 1 lettersScramble (clientSecureConnection ||| clientPluginAuth) 45 :=
  greeting_never_parsesBack 1 lettersScramble (clientSecureConnection ||| clientPluginAuth) 45
    (by decide) (by decide)

/-- The name the client gets is twelve letters of the scramble. -/
theorem lettersGreeting_name :
    ¬ ∀ (connId : UInt32) (scramble : Scramble) (capabilities : UInt32) (charset : UInt8),
      capabilities &&& clientSecureConnection ≠ 0 → capabilities &&& clientPluginAuth ≠ 0 →
        GreetingParsesBack connId scramble capabilities charset := by
  intro h
  obtain ⟨handshake, hparse, -, -, -, -, hname⟩ :=
    h 1 lettersScramble (clientSecureConnection ||| clientPluginAuth) 45 (by decide) (by decide)
  have hread : parseServerHandshake (buildHandshake 1 lettersScramble
      (clientSecureConnection ||| clientPluginAuth) 45) =
        .ok ⟨10, "srrdb 0.2.0", 1, lettersScramble.bytes,
          clientSecureConnection ||| clientPluginAuth, 45, some "aaaaaaaaaaaa"⟩ := by
    decide +kernel
  rw [hread] at hparse
  cases hparse
  simp at hname

/-! ## The answer of the client -/

/-- What both sides can do. -/
def answeredCapabilities (handshake : ServerHandshake) : UInt32 :=
  clientCapabilities &&& handshake.capabilities

/-- The client can do what is asked of it here, so the server's flag decides. -/
theorem answeredCapabilities_and {flag : UInt32} (h : clientCapabilities &&& flag = flag)
    (handshake : ServerHandshake) :
    answeredCapabilities handshake &&& flag = handshake.capabilities &&& flag := by
  rw [answeredCapabilities, UInt32.and_comm clientCapabilities, UInt32.and_assoc, h]

/-- The parser up to the name. -/
theorem parseHandshakeResponse_start {capabilities maxPacketSize : UInt32} {charset : UInt8}
    {username : String} (hnul : 0 ∉ asBytes username) {filler data : List UInt8}
    (hfiller : filler.length = 23)
    (h : Codec.leBytes 4 capabilities.toNat ++ Codec.leBytes 4 maxPacketSize.toNat ++ [charset] ++
      filler ++ asBytes username ++ [0] <+: data) :
    parseHandshakeResponse data =
      (authField capabilities data (32 + (asBytes username).length + 1) >>= fun auth =>
        optionalText capabilities clientConnectWithDb data auth.2
          "expected null-terminated database" >>= fun database =>
        optionalText capabilities clientPluginAuth data database.2
          "expected null-terminated auth plugin" >>= fun plugin =>
        pure ⟨capabilities, maxPacketSize, charset, username, auth.1, database.1, plugin.1⟩) := by
  let before1 := Codec.leBytes 4 capabilities.toNat
  let before2 := before1 ++ Codec.leBytes 4 maxPacketSize.toNat
  let before3 := before2 ++ [charset] ++ filler
  have h3 : before3 ++ asBytes username ++ [0] <+: data := h
  have h2 : before2 ++ [charset] <+: data :=
    (List.prefix_append ..).trans ((List.prefix_append ..).trans ((List.prefix_append ..).trans h3))
  have h1 : before1 ++ Codec.leBytes 4 maxPacketSize.toNat <+: data :=
    (List.prefix_append ..).trans h2
  have h0 : [] ++ Codec.leBytes 4 capabilities.toNat <+: data := (List.prefix_append ..).trans h1
  have hpos1 : before1.length = 4 := by simp [before1]
  have hpos2 : before2.length = 8 := by simp [before2, hpos1]
  have hpos3 : before3.length = 32 := by simp [before3, hpos2, hfiller]
  have r0 := fromLeBytes_of_prefix h0 capabilities.toNat_lt
  have r1 := fromLeBytes_of_prefix h1 maxPacketSize.toNat_lt
  have r2 := byteAt_of_prefix h2
  have r3 := nulTerminated_of_prefix hnul h3 "expected null-terminated username"
  rw [hpos1] at r1
  rw [hpos2] at r2
  rw [hpos3] at r3
  simp only [List.length_nil] at r0
  simp only [parseHandshakeResponse, bind, Except.bind, r0, r1, r2, r3, fromUtf8_asBytes,
    UInt32.ofNat_toNat, Nat.reduceAdd]

/-- One length byte is a length-encoded number as well. -/
theorem authField_of_length {capabilities : UInt32} {before auth data : List UInt8} {len : UInt8}
    (hlen : len.toNat = auth.length) (hsmall : auth.length < 251)
    (h : before ++ [len] ++ auth <+: data)
    (hflag : capabilities &&& clientPluginAuthLenencClientData ≠ 0 ∨
      capabilities &&& clientSecureConnection ≠ 0) :
    authField capabilities data before.length = .ok (auth, before.length + 1 + auth.length) := by
  have hbyte := byteAt_of_prefix ((List.prefix_append ..).trans h)
  have hslice := slice_of_prefix h
  rw [List.length_append, List.length_singleton] at hslice
  unfold authField
  split
  · obtain ⟨rest, rfl⟩ := h
    have htail : sliceFrom (before ++ [len] ++ auth ++ rest) before.length =
        .ok ([len] ++ (auth ++ rest)) := by
      rw [List.append_assoc, List.append_assoc]
      exact sliceFrom_append before _
    have hplain : len ≠ 0xFB ∧ len ≠ 0xFC ∧ len ≠ 0xFD ∧ len ≠ 0xFE := by
      refine ⟨?_, ?_, ?_, ?_⟩ <;> (rintro rfl; simp at hlen; omega)
    have hnumber : lenencInt ([len] ++ (auth ++ rest)) = .ok (auth.length, 1) := by
      rw [lenencInt_eq, readNumber_of_announces (.byte hplain), hlen]
      rfl
    simp only [htail, hnumber, hslice, bind, Except.bind, pure, Except.pure]
  · rw [if_pos (hflag.resolve_left ‹_›)]
    simp only [hbyte, hlen, hslice, bind, Except.bind, pure, Except.pure]

/-- A 0 is no data in every encoding. -/
theorem authField_of_zero (capabilities : UInt32) {before data : List UInt8}
    (h : before ++ [0] <+: data) :
    authField capabilities data before.length = .ok ([], before.length + 1) := by
  by_cases hflag : capabilities &&& clientPluginAuthLenencClientData ≠ 0 ∨
      capabilities &&& clientSecureConnection ≠ 0
  · have h' : before ++ [0] ++ [] <+: data := by rwa [List.append_nil]
    exact authField_of_length rfl (by decide) h' hflag
  · rw [not_or] at hflag
    rw [authField, if_neg hflag.1, if_neg hflag.2]
    have h' : before ++ [] ++ [0] <+: data := by rwa [List.append_nil]
    exact nulTerminated_of_prefix List.not_mem_nil h' _

/-- Data that ends with a 0 is not what stands behind a length byte. -/
theorem authField_ne_of_length {capabilities : UInt32} {before auth more data text : List UInt8}
    {len : UInt8} {stop : Nat} (hlen : len ≠ 0) (h : before ++ len :: (auth ++ more) = data)
    (hlenenc : ¬ capabilities &&& clientPluginAuthLenencClientData ≠ 0)
    (hsecure : ¬ capabilities &&& clientSecureConnection ≠ 0)
    (hread : authField capabilities data before.length = .ok (text, stop)) : text ≠ auth := by
  rw [authField, if_neg hlenenc, if_neg hsecure] at hread
  obtain ⟨-, rest, hdrop, -⟩ := nulTerminated_eq_ok hread
  rw [← h, List.drop_left] at hdrop
  rintro rfl
  -- the text read up to the 0 has one 0 fewer than the same bytes behind the length
  have hfront := congrArg (List.take (text.length + 1)) hdrop
  rw [List.take_succ_cons, List.take_left, List.take_append, List.take_of_length_le (by omega),
    Nat.add_sub_cancel_left, List.take_succ_cons, List.take_zero] at hfront
  have hcount := congrArg (List.count 0) hfront
  rw [List.count_cons_of_ne hlen, List.count_append, List.count_singleton_self] at hcount
  omega

/-! ### The database and the plugin -/

theorem optionalText_there {capabilities flag : UInt32} (hflag : capabilities &&& flag ≠ 0)
    {text : String} (hnul : 0 ∉ asBytes text) {before data : List UInt8}
    (h : before ++ asBytes text ++ [0] <+: data) (missing : String) :
    optionalText capabilities flag data before.length missing =
      .ok (some text, (before ++ asBytes text ++ [0]).length) := by
  rw [optionalText, if_pos hflag, nulTerminated_of_prefix hnul h]
  simp only [bind, Except.bind, fromUtf8_asBytes, pure, Except.pure, List.length_append,
    List.length_singleton]

theorem optionalText_of_absent {capabilities flag : UInt32} (hflag : ¬ capabilities &&& flag ≠ 0)
    (data : List UInt8) (pos : Nat) (missing : String) :
    optionalText capabilities flag data pos missing = .ok (none, pos) := by
  rw [optionalText, if_neg hflag]
  rfl

/-- The client's two texts, as the capabilities let the server read them. -/
theorem optionalTexts_behind {capabilities : UInt32} {behind data : List UInt8}
    (h : behind ++ (asBytes "srrdb" ++ 0 :: asBytes "mysql_native_password" ++ [0]) = data)
    (make : Option String → Option String → HandshakeResponse) :
    (optionalText capabilities clientConnectWithDb data behind.length
        "expected null-terminated database" >>= fun database =>
      optionalText capabilities clientPluginAuth data database.2
        "expected null-terminated auth plugin" >>= fun plugin =>
      pure (make database.1 plugin.1)) =
      .ok (make
        (if capabilities &&& clientConnectWithDb ≠ 0 then some "srrdb" else none)
        (if capabilities &&& clientPluginAuth ≠ 0 then
          if capabilities &&& clientConnectWithDb ≠ 0 then some "mysql_native_password"
          else some "srrdb"
        else none)) := by
  have hdbNul : (0 : UInt8) ∉ asBytes "srrdb" := by decide +kernel
  have hpluginNul : (0 : UInt8) ∉ asBytes "mysql_native_password" := by decide +kernel
  have hdb : behind ++ asBytes "srrdb" ++ [0] <+: data := by
    refine ⟨asBytes "mysql_native_password" ++ [0], ?_⟩
    rw [← h]
    simp only [List.append_assoc, List.cons_append, List.nil_append]
  have hname : behind ++ asBytes "srrdb" ++ [0] ++ asBytes "mysql_native_password" ++ [0] <+:
      data := by
    refine ⟨[], ?_⟩
    rw [← h]
    simp only [List.append_assoc, List.cons_append, List.nil_append, List.append_nil]
  by_cases hdatabase : capabilities &&& clientConnectWithDb ≠ 0
  · rw [optionalText_there hdatabase hdbNul hdb, ok_bind, if_pos hdatabase]
    by_cases hplugin : capabilities &&& clientPluginAuth ≠ 0
    · rw [optionalText_there hplugin hpluginNul hname, ok_bind, if_pos hplugin,
        if_pos hdatabase]
      rfl
    · rw [optionalText_of_absent hplugin, ok_bind, if_neg hplugin]
      rfl
  · rw [optionalText_of_absent hdatabase, ok_bind, if_neg hdatabase]
    by_cases hplugin : capabilities &&& clientPluginAuth ≠ 0
    · rw [optionalText_there hplugin hdbNul hdb, ok_bind, if_pos hplugin, if_neg hdatabase]
      rfl
    · rw [optionalText_of_absent hplugin, ok_bind, if_neg hplugin]
      rfl

/-! ### The whole answer -/

section Answer

variable [Sha1]

theorem length_authOf (password : String) (scramble : List UInt8) :
    (authOf password scramble).length = if password.isEmpty then 0 else 20 := by
  unfold authOf
  split
  · rfl
  · simp [computeAuthResponse, xorBytes]

/-- What stands before the length of the authentication data. -/
def answerHead (capabilities : UInt32) (username : String) : List UInt8 :=
  Codec.leBytes 4 capabilities.toNat ++ Codec.leBytes 4 16777215 ++ [255] ++
    List.replicate 23 0 ++ asBytes username ++ [0]

omit [Sha1] in
theorem length_answerHead (capabilities : UInt32) (username : String) :
    (answerHead capabilities username).length = 32 + (asBytes username).length + 1 := by
  simp [answerHead]
  omega

theorem buildHandshakeResponse_eq (handshake : ServerHandshake) (username password : String) :
    buildHandshakeResponse handshake username password =
      answerHead (answeredCapabilities handshake) username ++
        UInt8.ofNat (authOf password handshake.scramble).length ::
          (authOf password handshake.scramble ++
            (asBytes "srrdb" ++ 0 :: asBytes "mysql_native_password" ++ [0])) := by
  simp only [buildHandshakeResponse, answerHead, answeredCapabilities, List.append_assoc,
    List.cons_append, List.nil_append]

/-- The answer of a client, whose authentication data the server's encoding
suits. Without a database the plugin name is what the client wrote for one. -/
theorem parseHandshakeResponse_answer {handshake : ServerHandshake} {username : String}
    (hnul : 0 ∉ asBytes username) {password : String}
    (hencoded : handshake.capabilities &&& clientPluginAuthLenencClientData ≠ 0 ∨
      handshake.capabilities &&& clientSecureConnection ≠ 0 ∨ password = "") :
    parseHandshakeResponse (buildHandshakeResponse handshake username password) =
      .ok ⟨answeredCapabilities handshake, 16777215, 255, username,
        authOf password handshake.scramble,
        if answeredCapabilities handshake &&& clientConnectWithDb ≠ 0 then some "srrdb" else none,
        if answeredCapabilities handshake &&& clientPluginAuth ≠ 0 then
          if answeredCapabilities handshake &&& clientConnectWithDb ≠ 0 then
            some "mysql_native_password"
          else some "srrdb"
        else none⟩ := by
  have hlen := length_authOf password handshake.scramble
  have hempty : password = "" → authOf password handshake.scramble = [] := by
    rintro rfl
    rfl
  generalize hdata : buildHandshakeResponse handshake username password = data
  rw [buildHandshakeResponse_eq] at hdata
  generalize authOf password handshake.scramble = auth at *
  have hlenByte : (UInt8.ofNat auth.length).toNat = auth.length := by
    rw [hlen]
    split <;> rfl
  have hsmall : auth.length < 251 := by
    rw [hlen]
    split <;> decide
  let before := answerHead (answeredCapabilities handshake) username
  let behind := before ++ [UInt8.ofNat auth.length] ++ auth
  have hwhole :
      behind ++ (asBytes "srrdb" ++ 0 :: asBytes "mysql_native_password" ++ [0]) = data := by
    rw [← hdata]
    simp only [behind, before, List.append_assoc, List.cons_append, List.nil_append]
  have hbehind : behind <+: data := ⟨_, hwhole⟩
  have hlength : behind.length = before.length + 1 + auth.length := by
    simp only [behind, List.length_append, List.length_singleton]
  have hauth : authField (answeredCapabilities handshake) data before.length =
      .ok (auth, behind.length) := by
    rw [hlength]
    rcases or_assoc.mpr hencoded with hflag | hpassword
    · refine authField_of_length hlenByte hsmall hbehind ?_
      rwa [answeredCapabilities_and (by decide), answeredCapabilities_and (by decide)]
    · obtain rfl := hempty hpassword
      exact authField_of_zero _ ((List.prefix_append ..).trans hbehind)
  have hname : Codec.leBytes 4 (answeredCapabilities handshake).toNat ++
      Codec.leBytes 4 (16777215 : UInt32).toNat ++ [255] ++ List.replicate 23 0 ++
      asBytes username ++ [0] <+: data :=
    (List.prefix_append ..).trans ((List.prefix_append ..).trans hbehind)
  rw [parseHandshakeResponse_start hnul (List.length_replicate ..) hname,
    ← length_answerHead (answeredCapabilities handshake) username, hauth, ok_bind]
  exact optionalTexts_behind hwhole _

/-- Data that ends with a 0 is not the client's, which stands behind its
length. -/
theorem authResponse_ne {handshake : ServerHandshake} {username password : String}
    (hnul : 0 ∉ asBytes username)
    (hlenenc : ¬ handshake.capabilities &&& clientPluginAuthLenencClientData ≠ 0)
    (hsecure : ¬ handshake.capabilities &&& clientSecureConnection ≠ 0) (hpassword : password ≠ "")
    {response : HandshakeResponse}
    (h : parseHandshakeResponse (buildHandshakeResponse handshake username password) =
      .ok response) : response.authResponse ≠ authOf password handshake.scramble := by
  have hlen : (authOf password handshake.scramble).length = 20 := by
    rw [length_authOf, if_neg (by simpa using hpassword)]
  generalize hdata : buildHandshakeResponse handshake username password = data at h
  rw [buildHandshakeResponse_eq, hlen] at hdata
  have hname : Codec.leBytes 4 (answeredCapabilities handshake).toNat ++
      Codec.leBytes 4 (16777215 : UInt32).toNat ++ [255] ++ List.replicate 23 0 ++
      asBytes username ++ [0] <+: data := ⟨_, hdata⟩
  rw [parseHandshakeResponse_start hnul (List.length_replicate ..) hname,
    ← length_answerHead (answeredCapabilities handshake) username] at h
  obtain ⟨⟨text, stop⟩, hauth, h⟩ := bind_eq_ok_iff.mp h
  obtain ⟨database, -, h⟩ := bind_eq_ok_iff.mp h
  obtain ⟨plugin, -, h⟩ := bind_eq_ok_iff.mp h
  cases h
  refine authField_ne_of_length (by decide) hdata ?_ ?_ hauth
  · rwa [answeredCapabilities_and (by decide)]
  · rwa [answeredCapabilities_and (by decide)]

end Answer

end Srrdb.Client

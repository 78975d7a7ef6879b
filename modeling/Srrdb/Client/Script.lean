/-
Srrdb.Client.Script — a file run by `source`.

The parser takes a file as statements with semicolons between them, and
whatever stands in a literal, a quoted identifier or a comment belongs to the
stretch it is in (`AcceptedAs`). The client cuts at every semicolon. Cut by cut
its pieces are those of the stretches (`sourceQueries_joined`), so the file runs
as written exactly if no stretch of a statement has a semicolon inside, and the
other stretches are blank (`source_sends_iff`).
-/
import Srrdb.Client.Alignment
import Srrdb.Client.Shell

namespace Srrdb.Client

open Srrdb.Lib Srrdb.Protocol Srrdb.Engine Srrdb.Sql Srrdb.Connection

/-! ## Lists of pieces -/

theorem length_flatMap_le {α β : Type} {f g : α → List β} {ts : List α}
    (hle : ∀ t ∈ ts, (g t).length ≤ (f t).length) :
    (ts.flatMap g).length ≤ (ts.flatMap f).length := by
  induction ts with
  | nil => exact Nat.le_refl _
  | cons t ts ih =>
    obtain ⟨ht, hts⟩ := List.forall_mem_cons.mp hle
    rw [List.flatMap_cons, List.flatMap_cons, List.length_append, List.length_append]
    exact Nat.add_le_add ht (ih hts)

/-- Where every part of one row is at least as long as that of the other, the
rows are the same exactly when the parts are. -/
theorem flatMap_eq_iff {α β : Type} {f g : α → List β} {ts : List α}
    (hle : ∀ t ∈ ts, (g t).length ≤ (f t).length) :
    ts.flatMap f = ts.flatMap g ↔ ∀ t ∈ ts, f t = g t := by
  induction ts with
  | nil => exact iff_of_true rfl nofun
  | cons t ts ih =>
    obtain ⟨ht, hts⟩ := List.forall_mem_cons.mp hle
    rw [List.flatMap_cons, List.flatMap_cons, List.forall_mem_cons, ← ih hts]
    constructor
    · intro h
      have hlength := congrArg List.length h
      rw [List.length_append, List.length_append] at hlength
      have hrest := length_flatMap_le hts
      exact List.append_inj h (by omega)
    · rintro ⟨hfirst, hrest⟩
      rw [hfirst, hrest]

/-! ## Cutting -/

theorem sourceQueries_eq (content : String) :
    sourceQueries content = (pieces ';' isWhitespace content.toList).map .ofList := by
  have htrim : (fun statement => trim (.ofList statement)) =
      String.ofList ∘ strip isWhitespace := by
    funext piece
    rw [trim, String.toList_ofList, Function.comp_apply]
  have hempty : (fun stmt => !stmt.isEmpty) ∘ String.ofList =
      fun piece : List Char => !piece.isEmpty := by
    funext piece
    cases piece <;> simp [String.isEmpty_iff]
  rw [sourceQueries, pieces, htrim, ← hempty, ← List.map_map, List.filter_map]

/-- The pieces of a text with semicolons between its stretches are those of the
stretches, in order. -/
theorem sourceQueries_joined {content : String} {stretches : List String}
    (h : content.toList = [';'].intercalate (stretches.map String.toList)) :
    sourceQueries content = stretches.flatMap sourceQueries := by
  rw [sourceQueries_eq, h, pieces_intercalate, List.flatMap_map, List.map_flatMap]
  exact List.flatMap_congr fun text _ => (sourceQueries_eq text).symm

/-- A text without the blanks and semicolons at its ends. -/
def core (text : String) : String :=
  .ofList (strip (blankOrSep ';' isWhitespace) text.toList)

theorem sourceQueries_eq_nil_iff {text : String} : sourceQueries text = [] ↔ core text = "" := by
  rw [sourceQueries_eq, List.map_eq_nil_iff, pieces_eq_nil_iff, ← strip_eq_nil_iff, core,
    String.ofList_eq_empty_iff]

/-- A text is one piece exactly when there is no semicolon in it but at its ends. -/
theorem sourceQueries_eq_singleton_iff {text query : String} :
    sourceQueries text = [query] ↔ query ≠ "" ∧ core text = query ∧ ';' ∉ query.toList := by
  have hsame : sourceQueries text = [query] ↔
      pieces ';' isWhitespace text.toList = [query.toList] := by
    rw [sourceQueries_eq, List.map_eq_singleton_iff]
    simp only [String.ofList_eq, exists_eq_right]
  rw [hsame, pieces_eq_singleton_iff, core, String.ofList_eq, Ne, Ne, String.toList_eq_nil_iff]

section Theory

variable [Host] [ExprDebug] [Bincode] [SqlParser]

/-! ## Sending -/

/-- A text that the client does not panic on is sent. -/
theorem request_sends (hhost : BoundaryAfterUse) {s : Shell} (hs : s.running = true)
    (r : Request) : (s.request r).sent = s.sent ++ [r.sql] ∧ (s.request r).running = true := by
  obtain ⟨db, hdb⟩ : ∃ db, r.usedDb = .ok db := by
    unfold Request.usedDb
    split
    · exact parseUseDb_ok hhost r.sql
    · exact ⟨none, rfl⟩
  rw [Shell.request, hs, hdb]
  exact ⟨rfl, rfl⟩

theorem sent_foldl_request (hhost : BoundaryAfterUse) (texts : List Request) {s : Shell}
    (hs : s.running = true) :
    (texts.foldl Shell.request s).sent = s.sent ++ texts.map Request.sql := by
  induction texts generalizing s with
  | nil => simp
  | cons r texts ih =>
    obtain ⟨hsent, hrunning⟩ := request_sends hhost hs r
    rw [List.foldl_cons, ih hrunning, hsent, List.append_assoc, List.map_cons]
    rfl

theorem sent_source (hhost : BoundaryAfterUse) {s : Shell} (hs : s.running = true) (e : Entry)
    (content : String) : (s.source e content).sent = s.sent ++ sourceQueries content := by
  have hsqls : (e.texts true (sourceQueries content)).map Request.sql = sourceQueries content := by
    refine List.ext_getElem? fun i => ?_
    rw [Entry.texts, List.getElem?_map, List.getElem?_mapIdx, Option.map_map]
    exact Option.map_id'
  rw [Shell.source, sent_foldl_request hhost _ hs, hsqls]

/-! ## Running as written -/

/-- The parser takes a text as statements with semicolons between them: the text
is cut into stretches, and each is a statement or none, alone and in its place. -/
structure AcceptedAs (content : String) (stretches : List (String × Option Statement)) : Prop where
  joined : content.toList = [';'].intercalate (stretches.map fun t => t.1.toList)
  alone : ∀ t ∈ stretches, parseSql t.1 = .ok t.2.toList
  inPlace : parseSql content = .ok (stretches.flatMap fun t => t.2.toList)

/-- The queries that `source` sends parse to the statements, one each, in order. -/
def SourceSends (s : Shell) (e : Entry) (content : String) (statements : List Statement) : Prop :=
  ∃ queries, (s.source e content).sent = s.sent ++ queries ∧
    queries.map parseSql = statements.map fun stmt => .ok [stmt]

/-- A stretch with a statement has no semicolon but at its ends, and is the same
statement without these and the blanks there; one without a statement is blank. -/
def Uncut (t : String × Option Statement) : Prop :=
  match t.2 with
  | none => core t.1 = ""
  | some stmt => ';' ∉ (core t.1).toList ∧ parseSql (core t.1) = .ok [stmt]

omit [Host] [ExprDebug] [Bincode] in
theorem uncut_iff (hblank : ∀ text, core text = "" → ∀ stmt, parseSql text ≠ .ok [stmt])
    {t : String × Option Statement} :
    (sourceQueries t.1).map parseSql = (t.2.toList.map fun stmt => .ok [stmt]) ↔ Uncut t := by
  unfold Uncut
  cases t.2 with
  | none => exact List.map_eq_nil_iff.trans sourceQueries_eq_nil_iff
  | some stmt =>
    refine List.map_eq_singleton_iff.trans ⟨?_, ?_⟩
    · rintro ⟨query, hquery, hparse⟩
      obtain ⟨-, rfl, hmem⟩ := sourceQueries_eq_singleton_iff.mp hquery
      exact ⟨hmem, hparse⟩
    · rintro ⟨hmem, hparse⟩
      have hne : core t.1 ≠ "" := by
        intro hnil
        rw [hnil] at hparse
        exact hblank "" rfl stmt hparse
      exact ⟨core t.1, sourceQueries_eq_singleton_iff.mpr ⟨hne, rfl, hmem⟩, hparse⟩

/-- A file runs as written exactly when no stretch of it is cut. -/
theorem source_sends_iff (hhost : BoundaryAfterUse)
    (hblank : ∀ text, core text = "" → ∀ stmt, parseSql text ≠ .ok [stmt])
    {content : String} {stretches : List (String × Option Statement)}
    (haccepted : AcceptedAs content stretches) {s : Shell} (hs : s.running = true) (e : Entry) :
    SourceSends s e content (stretches.flatMap fun t => t.2.toList) ↔
      ∀ t ∈ stretches, Uncut t := by
  have hsent : ∀ queries, (s.source e content).sent = s.sent ++ queries ↔
      queries = sourceQueries content := by
    intro queries
    rw [sent_source hhost hs, List.append_right_inj]
    exact eq_comm
  have hcut : sourceQueries content = stretches.flatMap fun t => sourceQueries t.1 := by
    have hjoined : content.toList =
        [';'].intercalate ((stretches.map (·.1)).map String.toList) := by
      rw [haccepted.joined, List.map_map]
      rfl
    rw [sourceQueries_joined hjoined, List.flatMap_map]
  have hle : ∀ t ∈ stretches, (t.2.toList.map fun stmt => Except.ok (ε := String) [stmt]).length ≤
      ((sourceQueries t.1).map parseSql).length := by
    intro t ht
    have hparse := haccepted.alone t ht
    cases h2 : t.2 with
    | none => exact Nat.zero_le _
    | some stmt =>
      rw [h2] at hparse
      rw [List.length_map, List.length_map]
      refine List.length_pos_iff.mpr fun hnil => ?_
      exact hblank t.1 (sourceQueries_eq_nil_iff.mp hnil) stmt hparse
  simp only [SourceSends, hsent, exists_eq_left, hcut, List.map_flatMap]
  rw [flatMap_eq_iff hle]
  exact forall₂_congr fun t _ => uncut_iff hblank

end Theory

/-! ## Two files -/

section Concrete

attribute [local instance] asciiHost plainDebug bincode1

/-- Uppercase of one ASCII character for another keeps the bytes in their places. -/
theorem boundaryAfterUse_ascii : BoundaryAfterUse := by
  have hsize : ∀ c : Char, c.toUpper.toNat < 128 → c.utf8Size = 1 := by
    intro c h
    rw [Char.utf8Size_eq_one_iff, UInt32.le_iff_toNat_le]
    change c.toNat ≤ 127
    unfold Char.toUpper at h
    split at h
    · next hrange =>
      have hle : c.toNat ≤ 122 := UInt32.le_iff_toNat_le.mp hrange.2
      omega
    · omega
  intro s h
  rw [startsWith, List.isPrefixOf_iff_prefix] at h
  have htext : (toUppercase s).toList = s.toList.map Char.toUpper := String.toList_ofList
  rw [htext] at h
  obtain ⟨c₁, c₂, c₃, c₄, rest, hs, h₁, h₂, h₃, h₄⟩ : ∃ c₁ c₂ c₃ c₄ rest,
      s.toList = c₁ :: c₂ :: c₃ :: c₄ :: rest ∧ c₁.toUpper = 'U' ∧ c₂.toUpper = 'S' ∧
        c₃.toUpper = 'E' ∧ c₄.toUpper = ' ' := by
    obtain ⟨tail, htail⟩ := h
    obtain ⟨c₁, cs, hcs, h₁, htail⟩ := List.map_eq_cons_iff.mp htail.symm
    obtain ⟨c₂, cs₂, rfl, h₂, htail⟩ := List.map_eq_cons_iff.mp htail
    obtain ⟨c₃, cs₃, rfl, h₃, htail⟩ := List.map_eq_cons_iff.mp htail
    obtain ⟨c₄, cs₄, rfl, h₄, -⟩ := List.map_eq_cons_iff.mp htail
    exact ⟨c₁, c₂, c₃, c₄, cs₄, hcs, h₁, h₂, h₃, h₄⟩
  have hrest : charsFrom s.toList 4 = some rest := by
    rw [hs]
    simp [charsFrom, hsize c₁ (by rw [h₁]; decide), hsize c₂ (by rw [h₂]; decide),
      hsize c₃ (by rw [h₃]; decide), hsize c₄ (by rw [h₄]; decide)]
  exact ⟨_, by rw [strFrom, hrest]⟩

/-- `INSERT INTO t VALUES ('x; DROP TABLE t; ')`. -/
def insertQuoted : Statement :=
  .insert ⟨.tableName ["t"], [], some ⟨.values [[.value (.singleQuotedString "x; DROP TABLE t; ")]],
    none, none, none⟩⟩

/-- `INSERT INTO t VALUES ('x')`. -/
def insertX : Statement :=
  .insert ⟨.tableName ["t"], [], some ⟨.values [[.value (.singleQuotedString "x")]],
    none, none, none⟩⟩

/-- A parser of these texts. -/
@[reducible] def scriptParser : SqlParser where
  parseSql sql :=
    if sql = "DROP TABLE t" ∨ sql = "\nDROP TABLE t" then .ok [dropTableNamed "t"]
    else if sql = "INSERT INTO t VALUES ('x')" then .ok [insertX]
    else if sql = "INSERT INTO t VALUES ('x');\nDROP TABLE t;\n" then
      .ok [insertX, dropTableNamed "t"]
    else if sql = "INSERT INTO t VALUES ('x; DROP TABLE t; ')" then .ok [insertQuoted]
    else if sql = "\n" then .ok []
    else .error "sql parser error: Expected: an SQL statement"

attribute [local instance] scriptParser

/-- The client at its first prompt. -/
def firstPrompt : Shell := .start freshConn

/-- `source script`, with nothing else going on. -/
def sourceScript (content : String) : Entry where
  line := "source script"
  readFile _ := some content
  tables := []
  turns _ _ _ := ⟨plainEnv, fun _ e => e⟩

theorem insertScript_accepted : AcceptedAs "INSERT INTO t VALUES ('x');\nDROP TABLE t;\n"
    [("INSERT INTO t VALUES ('x')", some insertX),
      ("\nDROP TABLE t", some (dropTableNamed "t")), ("\n", none)] where
  joined := by decide +kernel
  alone := by
    intro t ht
    simp only [List.mem_cons, List.not_mem_nil, or_false] at ht
    rcases ht with rfl | rfl | rfl
    · rfl
    · rfl
    · rfl
  inPlace := rfl

theorem insertQuoted_accepted : AcceptedAs "INSERT INTO t VALUES ('x; DROP TABLE t; ')"
    [("INSERT INTO t VALUES ('x; DROP TABLE t; ')", some insertQuoted)] where
  joined := by decide +kernel
  alone := by
    intro t ht
    obtain rfl := List.mem_singleton.mp ht
    rfl
  inPlace := rfl

/-- No blank text is a statement of these. -/
theorem scriptParser_blank {text : String} (hblank : core text = "")
    (stmt : Statement) : parseSql text ≠ .ok [stmt] := by
  have hnot : ∀ sql : String, core sql ≠ "" → text ≠ sql := by
    rintro sql hsql rfl
    exact hsql hblank
  have hdrop : ¬ (text = "DROP TABLE t" ∨ text = "\nDROP TABLE t") :=
    not_or.mpr ⟨hnot _ (by decide +kernel), hnot _ (by decide +kernel)⟩
  intro hparse
  change (if _ then _ else if _ then _ else if _ then _ else if _ then _ else if _ then _ else _) =
    _ at hparse
  rw [if_neg hdrop, if_neg (hnot _ (by decide +kernel)), if_neg (hnot _ (by decide +kernel)),
    if_neg (hnot _ (by decide +kernel))] at hparse
  split at hparse
  · cases hparse
  · cases hparse

/-- A file of two statements runs as written. -/
theorem insertScript_sent :
    SourceSends firstPrompt (sourceScript "INSERT INTO t VALUES ('x');\nDROP TABLE t;\n")
      "INSERT INTO t VALUES ('x');\nDROP TABLE t;\n" [insertX, dropTableNamed "t"] := by
  refine (source_sends_iff boundaryAfterUse_ascii (fun _ => scriptParser_blank)
    insertScript_accepted rfl _).mpr ?_
  intro t ht
  simp only [List.mem_cons, List.not_mem_nil, or_false] at ht
  rcases ht with rfl | rfl | rfl
  · have hcore : core "INSERT INTO t VALUES ('x')" = "INSERT INTO t VALUES ('x')" := by
      decide +kernel
    change ';' ∉ (core "INSERT INTO t VALUES ('x')").toList ∧ _
    rw [hcore]
    exact ⟨by decide +kernel, rfl⟩
  · have hcore : core "\nDROP TABLE t" = "DROP TABLE t" := by decide +kernel
    change ';' ∉ (core "\nDROP TABLE t").toList ∧ _
    rw [hcore]
    exact ⟨by decide +kernel, rfl⟩
  · change core "\n" = ""
    decide +kernel

/-- A semicolon in a literal makes three queries of one statement, and the second
of them drops the table. -/
theorem quotedSemicolon_cut :
    AcceptedAs "INSERT INTO t VALUES ('x; DROP TABLE t; ')"
      [("INSERT INTO t VALUES ('x; DROP TABLE t; ')", some insertQuoted)] ∧
    sourceQueries "INSERT INTO t VALUES ('x; DROP TABLE t; ')" =
      ["INSERT INTO t VALUES ('x", "DROP TABLE t", "')"] ∧
    parseSql "DROP TABLE t" = .ok [dropTableNamed "t"] ∧
    ¬ SourceSends firstPrompt (sourceScript "INSERT INTO t VALUES ('x; DROP TABLE t; ')")
      "INSERT INTO t VALUES ('x; DROP TABLE t; ')" [insertQuoted] := by
  have hpieces : sourceQueries "INSERT INTO t VALUES ('x; DROP TABLE t; ')" =
      ["INSERT INTO t VALUES ('x", "DROP TABLE t", "')"] := by decide +kernel
  refine ⟨insertQuoted_accepted, hpieces, rfl, ?_⟩
  rintro ⟨queries, hsent, hparse⟩
  rw [sent_source boundaryAfterUse_ascii rfl, List.append_right_inj, hpieces] at hsent
  subst hsent
  exact absurd (congrArg List.length hparse) (by decide)

end Concrete

end Srrdb.Client

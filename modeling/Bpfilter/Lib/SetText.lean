/-
# Lib.SetText -- comments in set payloads

The lexer takes the payload of a set as one token, comments included, and the set
parser knows no comments: a line that starts with `#` is an element that no parser
accepts.  `comments_ignored_iff` says for which payloads this makes no difference.
-/
import Bpfilter.Lib.SetParse

namespace Bpfilter

set_option autoImplicit false

open Ebpf (Byte)
open Cstr (isspace strtok strtoul)

/-! ## Lines -/

/-- A comment: the first character that is not blank is `#`, and there is no closing brace. -/
def IsComment (line : List Char) : Bool :=
  (line.dropWhile isspace).head? = some '#' ∧ '}' ∉ line

/-- The lines of a text. -/
def linesOf (s : List Char) : List (List Char) := s.splitOn '\n'

/-- A text without its comments. -/
def stripComments (s : List Char) : List Char :=
  ['\n'].intercalate ((linesOf s).filter fun line => !IsComment line)

/-- A text has a comment. -/
def HasComment (s : List Char) : Prop := ∃ line ∈ linesOf s, IsComment line = true

theorem stripComments_of_none {s : List Char} (none : ¬ HasComment s) : stripComments s = s := by
  have all : (linesOf s).filter (fun line => !IsComment line) = linesOf s := by
    rw [List.filter_eq_self]
    intro line mem
    cases comment : IsComment line with
    | true => exact absurd ⟨line, mem, comment⟩ none
    | false => rfl
  rw [stripComments, all]
  exact List.intercalate_splitOn '\n'

theorem newline_isElemSep : isElemSep '\n' = true := by decide

theorem segments_linesOf (s : List Char) : segments s = (linesOf s).flatMap segments := by
  have whole : ['\n'].intercalate (linesOf s) = s := List.intercalate_splitOn '\n'
  conv => lhs; rw [← whole]
  exact Cstr.tokens_flatMap_intercalate newline_isElemSep _

theorem segments_stripComments (s : List Char) :
    segments (stripComments s) =
      ((linesOf s).filter fun line => !IsComment line).flatMap segments :=
  Cstr.tokens_flatMap_intercalate newline_isElemSep _

/-- Lines have no line feed in them. -/
theorem no_newline_of_mem {s line : List Char} (mem : line ∈ linesOf s) : '\n' ∉ line := by
  induction s generalizing line with
  | nil =>
      rw [List.mem_singleton.mp mem]
      exact List.not_mem_nil
  | cons c cs ih =>
      rw [linesOf, List.splitOn_cons_eq_if_modifyHead] at mem
      split at mem
      · rcases List.mem_cons.mp mem with rfl | mem
        · exact List.not_mem_nil
        · exact ih mem
      · rename_i other
        obtain ⟨l, ls, cut⟩ := List.exists_cons_of_ne_nil (List.splitOn_ne_nil '\n' cs)
        rw [cut, List.modifyHead_cons] at mem
        have tail : ∀ line ∈ l :: ls, '\n' ∉ line := fun line inside => ih (by rwa [linesOf, cut])
        rcases List.mem_cons.mp mem with rfl | mem
        · intro inside
          rcases List.mem_cons.mp inside with rfl | inside
          · exact other (beq_self_eq_true _)
          · exact tail l (List.mem_cons_self ..) inside
        · exact tail line (List.mem_cons_of_mem _ mem)

/-! ## Comments are segments -/

/-- Trimming keeps a first character that is not blank. -/
theorem bfTrim_cons {c : Char} {cs : List Char} (plain : isspace c = false) :
    ∃ rest, bfTrim (c :: cs) = c :: rest := by
  have kept : (c :: cs).dropWhile isspace = c :: cs :=
    List.dropWhile_cons_of_neg (Bool.eq_false_iff.mp plain)
  have cut : ∀ t : List Char, ∃ rest,
      ((c :: t).reverse.dropWhile isspace).reverse = c :: rest := by
    intro t
    rw [List.reverse_cons]
    by_cases blank : t.reverse.dropWhile isspace = []
    · rw [List.dropWhile_append, blank]
      simp [plain]
    · rw [List.dropWhile_append]
      simp only [List.isEmpty_iff, blank, if_false]
      rw [List.reverse_append]
      exact ⟨_, rfl⟩
  rw [bfTrim, kept]
  exact cut cs

/-- Blanks in front are trimmed. -/
theorem bfTrim_append {blanks s : List Char} (blank : ∀ c ∈ blanks, isspace c = true) :
    bfTrim (blanks ++ s) = bfTrim s := by
  rw [bfTrim, List.dropWhile_append_of_pos blank, bfTrim]

/-- The first segment of a comment starts with `#`. -/
theorem segments_comment {line : List Char} (comment : IsComment line = true)
    (noNewline : '\n' ∉ line) :
    ∃ seg rest, segments line = seg :: rest ∧ (bfTrim seg).head? = some '#' := by
  have start := (of_decide_eq_true comment).1
  have whole := (List.takeWhile_append_dropWhile (p := isspace) (l := line)).symm
  have blank : ∀ c ∈ line.takeWhile isspace, isspace c = true := fun c => List.mem_takeWhile_imp
  obtain ⟨text, hash⟩ : ∃ text, line.dropWhile isspace = '#' :: text := by
    cases left : line.dropWhile isspace with
    | nil =>
        rw [left] at start
        cases start
    | cons c cs =>
        rw [left] at start
        cases start
        exact ⟨cs, rfl⟩
  generalize line.takeWhile isspace = blanks at whole blank
  rw [hash] at whole
  -- White space other than the line feed separates nothing.
  have plain : ∀ c ∈ blanks ++ ['#'], isElemSep c = false := by
    intro c mem
    rcases List.mem_append.mp mem with mem | mem
    · have space := Cstr.isspace_iff.mp (blank c mem)
      have other : c ≠ '\n' := by
        rintro rfl
        rw [whole] at noNewline
        exact noNewline (List.mem_append_left _ mem)
      rw [isElemSep, decide_eq_false_iff_not]
      simp only [List.mem_cons, List.not_mem_nil, or_false, not_or]
      refine ⟨?_, ?_, ?_, other⟩
      all_goals
        rintro rfl
        revert space
        decide
    · rw [List.mem_singleton.mp mem]
      decide
  have all : ∀ c ∈ blanks ++ ['#'], (!isElemSep c) = true := fun c mem => by
    rw [plain c mem]
    rfl
  have split : line = (blanks ++ ['#']) ++ text := by
    rw [whole, List.append_assoc, List.singleton_append]
  have head : ∀ c ∈ line.head?, isElemSep c = false := by
    intro c first
    refine plain c ?_
    rw [split] at first
    cases blanks with
    | nil =>
        cases first
        exact List.mem_singleton_self _
    | cons b bs =>
        cases first
        exact List.mem_append_left _ (List.mem_cons_self ..)
  have some : line ≠ [] := by
    rw [whole]
    simp
  rw [segments_eq, Cstr.strtok_of_head some head]
  refine ⟨_, _, rfl, ?_⟩
  rw [split, List.takeWhile_append_of_pos all, List.append_assoc, List.singleton_append,
    bfTrim_append blank]
  obtain ⟨rest, trimmed⟩ := @bfTrim_cons '#' (text.takeWhile fun c => !isElemSep c) (by decide)
  rw [trimmed]
  rfl

/-! ## Components do not start with `#` -/

section Hash

variable {names : Names} {cs : List Char}

theorem strtoul_hash (base : Nat) : (strtoul base ('#' :: cs)).endptr ≠ [] := by
  rw [Cstr.strtoul_of_head rfl (by decide)]
  exact List.cons_ne_nil _ _

theorem bfParseAddr_hash {size textLen : Nat} {start : Char → Bool} (inet : Inet size textLen start)
    (other : start '#' = false) : bfParseAddr inet.pton ('#' :: cs) = .error .einval := by
  unfold bfParseAddr
  split
  · rename_i addr address
    have starts := inet.starts address
    rw [List.head?_cons, Option.any_some, other] at starts
    cases starts
  · rfl

theorem bfParseByte_hash : bfParseByte ('#' :: cs) = .error .einval := by
  rw [bfParseByte, if_neg fun h => strtoul_hash 10 h.1, if_neg fun h => strtoul_hash 16 h.1]

theorem textOps_hash {type : BfMatcherType} {ops : PayloadOps}
    (supported : bfMatcherGetTextOps names type .inSet = some ops) :
    ops.parse ('#' :: cs) = .error .einval := by
  cases type <;> cases supported <;> first
    | exact bfParseAddr_hash names.inet4 rfl
    | exact bfParseAddr_hash names.inet6 rfl
    | exact @bfParseByte_hash cs

/-- No component starts with `#`. -/
theorem setParseOps_hash {type : BfMatcherType}
    {bytes : { bytes : List Byte // bytes.length = parsedSize type }} :
    setParseOps names type ('#' :: cs) ≠ .ok bytes := by
  unfold setParseOps
  split
  · exact nofun
  · rename_i ops supported
    have refused := @textOps_hash names cs type ops supported
    split
    · exact nofun
    · rename_i accepted
      rw [refused] at accepted
      cases accepted

/-- No element starts with `#`. -/
theorem not_elemText_hash {key : List BfMatcherType} (some : key ≠ []) {seg : List Char}
    (hash : seg.head? = .some '#') : ¬ ElemText (setParseOps names) key seg := by
  intro text
  obtain ⟨type, key, rfl⟩ := List.exists_cons_of_ne_nil some
  obtain ⟨cs, rfl⟩ : ∃ cs, seg = '#' :: cs := by
    cases seg with
    | nil => cases hash
    | cons c cs =>
        cases hash
        exact ⟨cs, rfl⟩
  have first : ∃ t rest, strtokR [','] ('#' :: cs) = ('#' :: t) :: rest := by
    have tokens := @Cstr.tokens_eq Char (· ∈ [',']) _ ('#' :: cs)
    have plain : ∀ c ∈ ('#' :: cs).head?, decide (c ∈ [',']) = false := by
      intro c start
      cases start
      decide
    rw [Cstr.strtok_of_head (List.cons_ne_nil _ _) plain,
      List.takeWhile_cons_of_pos (by decide)] at tokens
    exact ⟨_, _, tokens⟩
  obtain ⟨t, rest, tokens⟩ := first
  rw [ElemText, tokens, List.forall₂_cons] at text
  obtain ⟨⟨bytes, accepted⟩, -⟩ := text
  obtain ⟨rest, trimmed⟩ := @bfTrim_cons '#' t (by decide)
  rw [trimmed] at accepted
  exact setParseOps_hash accepted

end Hash

/-! ## Comments -/

/-- Two payloads are parsed alike: both or neither return, and they make the same sets. -/
def SameResult (names : Names) (fresh : Nat → Nat → Byte) (name : Option String)
    (rawKey s s' : List Char) : Prop :=
  ((∃ fuel, (bfSetNewFromRaw (setParseOps names) fresh fuel name rawKey s).isSome = true) ↔
      ∃ fuel, (bfSetNewFromRaw (setParseOps names) fresh fuel name rawKey s').isSome = true) ∧
    ∀ set, (∃ fuel, bfSetNewFromRaw (setParseOps names) fresh fuel name rawKey s =
        some (.ok set)) ↔
      ∃ fuel, bfSetNewFromRaw (setParseOps names) fresh fuel name rawKey s' = some (.ok set)

/-- The elements of a payload have the components of a key. -/
def ElemsText (names : Names) (rawKey s : List Char) : Prop :=
  ∃ key, KeyText rawKey key ∧ ∀ seg ∈ elemTexts s, ElemText (setParseOps names) key seg

section Comments

variable {names : Names} {fresh : Nat → Nat → Byte} {name : Option String} {rawKey s : List Char}

/-- A payload with a comment makes no set. -/
theorem not_elemsText_of_comment (comment : HasComment s) : ¬ ElemsText names rawKey s := by
  rintro ⟨key, text, all⟩
  obtain ⟨line, mem, comment⟩ := comment
  obtain ⟨seg, rest, cut, hash⟩ := segments_comment comment (no_newline_of_mem mem)
  have inside : bfTrim seg ∈ elemTexts s := by
    rw [elemTexts, List.mem_filter, segments_linesOf]
    refine ⟨List.mem_map_of_mem (List.mem_flatMap.mpr ⟨line, mem, ?_⟩), ?_⟩
    · rw [cut]
      exact List.mem_cons_self ..
    · rw [decide_eq_true_iff]
      intro empty
      rw [empty] at hash
      cases hash
  exact not_elemText_hash text.2.nonempty hash (all _ inside)

/-- A blank first segment is not in a comment. -/
theorem blankStart_stripComments (blank : BlankStart s) : BlankStart (stripComments s) := by
  obtain ⟨seg, first, none⟩ := blank
  refine ⟨seg, ?_, none⟩
  rw [segments_linesOf] at first
  rw [segments_stripComments]
  have noNewline := fun line => @no_newline_of_mem s line
  generalize linesOf s = lines at first noNewline
  induction lines with
  | nil => cases first
  | cons line lines ih =>
      have plain : IsComment line = false := by
        cases comment : IsComment line with
        | false => rfl
        | true =>
            obtain ⟨t, rest, cut, hash⟩ :=
              segments_comment comment (noNewline line (List.mem_cons_self ..))
            rw [List.flatMap_cons, cut] at first
            cases first
            rw [none] at hash
            cases hash
      rw [List.filter_cons_of_pos (by simp [plain]), List.flatMap_cons]
      rw [List.flatMap_cons] at first
      cases cut : segments line with
      | nil =>
          rw [cut] at first
          exact ih first fun l mem => noNewline l (List.mem_cons_of_mem _ mem)
      | cons t rest =>
          rw [cut] at first
          exact first

/-- A payload makes a set when it returns and has the components of the key. -/
theorem makesSet_iff : (∃ set fuel,
    bfSetNewFromRaw (setParseOps names) fresh fuel name rawKey s = some (.ok set)) ↔
      ¬ BlankStart s ∧ ElemsText names rawKey s := by
  constructor
  · rintro ⟨set, fuel, made⟩
    obtain ⟨key, text, all⟩ := (returned_isOk_iff made).mp ⟨set, rfl⟩
    refine ⟨fun blank => ?_, key, text, all⟩
    rw [neverReturns_iff.mpr ⟨⟨key, text⟩, blank⟩] at made
    cases made
  · rintro ⟨plain, key, text, all⟩
    obtain ⟨empty, -, -, returned⟩ :=
      bfSetNewFromRaw_plain text plain (setParseOps names) fresh name
    obtain ⟨set, made⟩ := (returned_isOk_iff returned).mpr ⟨key, text, all⟩
    exact ⟨set, _, returned.trans (congrArg some made)⟩

end Comments

/-- **Comments.**  Dropping the comments of a payload does not change the result exactly if there
are none, the key is refused, parsing does not return with them, or it returns an error
without them. -/
theorem comments_ignored_iff (names : Names) (fresh : Nat → Nat → Byte) (name : Option String)
    (rawKey s : List Char) :
    SameResult names fresh name rawKey s (stripComments s) ↔
      ¬ HasComment s ∨ (¬ ∃ key, KeyText rawKey key) ∨ BlankStart s ∨
        (¬ BlankStart (stripComments s) ∧ ¬ ElemsText names rawKey (stripComments s)) := by
  by_cases comment : HasComment s
  swap
  · refine iff_of_true ?_ (.inl comment)
    rw [stripComments_of_none comment]
    exact ⟨Iff.rfl, fun _ => Iff.rfl⟩
  -- With a comment no set is made, so neither must there be one without it.
  have never : ∀ set, ¬ ∃ fuel,
      bfSetNewFromRaw (setParseOps names) fresh fuel name rawKey s = some (.ok set) :=
    fun set made => not_elemsText_of_comment comment (makesSet_iff.mp ⟨set, made⟩).2
  have same : SameResult names fresh name rawKey s (stripComments s) ↔
      (¬ ((∃ key, KeyText rawKey key) ∧ BlankStart s) ↔
        ¬ ((∃ key, KeyText rawKey key) ∧ BlankStart (stripComments s))) ∧
      ¬ (¬ BlankStart (stripComments s) ∧ ElemsText names rawKey (stripComments s)) := by
    rw [SameResult]
    simp only [← Option.ne_none_iff_isSome, ne_eq, ← not_forall, neverReturns_iff]
    refine and_congr_right fun _ => ?_
    rw [← @makesSet_iff names fresh name]
    constructor
    · rintro all ⟨set, made⟩
      exact never set ((all set).mpr made)
    · intro none set
      exact iff_of_false (never set) fun made => none ⟨set, made⟩
  have blank : BlankStart s → BlankStart (stripComments s) := blankStart_stripComments
  have keyed : ElemsText names rawKey (stripComments s) → ∃ key, KeyText rawKey key :=
    fun ⟨key, text, _⟩ => ⟨key, text⟩
  rw [same]
  constructor
  · rintro ⟨returns, none⟩
    by_cases here : BlankStart s
    · exact .inr (.inr (.inl here))
    by_cases key : ∃ key, KeyText rawKey key
    · have there : ¬ BlankStart (stripComments s) :=
        fun h => returns.mp (fun h' => here h'.2) ⟨key, h⟩
      exact .inr (.inr (.inr ⟨there, fun text => none ⟨there, text⟩⟩))
    · exact .inr (.inl key)
  · rintro (none | key | here | ⟨there, text⟩)
    · exact absurd comment none
    · exact ⟨iff_of_true (fun h => key h.1) (fun h => key h.1), fun h => key (keyed h.2)⟩
    · exact ⟨not_congr (and_congr_right fun _ => iff_of_true here (blank here)),
        fun h => h.1 (blank here)⟩
    · exact ⟨iff_of_true (fun h => there (blank h.2)) (fun h => there h.2), fun h => text h.2⟩

/-- A comment in front of the only element makes the set of one address unreadable. -/
theorem commentedSet_not_same :
    ¬ SameResult plainNames (fun _ _ => 0) none "(ip4.saddr)".toList
      "\x7b\n# web\n10.0.0.1\n\x7d".toList (stripComments "\x7b\n# web\n10.0.0.1\n\x7d".toList) := by
  intro same
  have stripped : stripComments "\x7b\n# web\n10.0.0.1\n\x7d".toList =
      "\x7b\n10.0.0.1\n\x7d".toList := by decide
  rw [stripped] at same
  have made : bfSetNewFromRaw (setParseOps plainNames) (fun _ _ => 0) 9 none "(ip4.saddr)".toList
      "\x7b\n10.0.0.1\n\x7d".toList =
        some (.ok ⟨none, [.ip4Saddr], 4, [[10, 0, 0, 1]], false⟩) := by decide +kernel
  obtain ⟨fuel, made'⟩ := (same.2 _).mpr ⟨9, made⟩
  obtain ⟨-, text⟩ := makesSet_iff.mp ⟨_, fuel, made'⟩
  have comment : HasComment "\x7b\n# web\n10.0.0.1\n\x7d".toList :=
    ⟨"# web".toList, by decide, by decide⟩
  exact not_elemsText_of_comment comment text

end Bpfilter

/-
# Lib.SetPrint -- printed sets are parsed back

`bfc_chain_dump` prints the key of a set between parentheses, and its elements line by line
between braces.  What it prints of a component is one word (`Word`): no separator of sets, no
comma and no blank.  So the tokens of a printed element are its components again, and
`printedSet_parsed` follows with the round trips of the callbacks.
-/
import Bpfilter.Lib.PayloadPrint
import Bpfilter.Lib.SetText

namespace Bpfilter

set_option autoImplicit false

open Ebpf (Byte)
open Cstr

/-! ## Printing -/

/-- `meta->ops[BF_MATCHER_IN].print`; sets have no type without it. -/
def bfcPrintComponent (names : Names) (type : BfMatcherType) (payload : List Byte) : List Char :=
  match bfMatcherGetTextOps names type .inSet with
  | some ops => ops.print payload
  | none => []

/-- The components of an element, from `payload + payload_idx` on. -/
def bfcPrintComponents (names : Names) : List BfMatcherType → List Byte → List (List Char)
  | [], _ => []
  | type :: key, payload =>
      bfcPrintComponent names type payload ::
        bfcPrintComponents names key (payload.drop (componentSize type))

/-- A line of elements. -/
def bfcPrintElem (names : Names) (key : List BfMatcherType) (payload : List Byte) : List Char :=
  [',', ' '].intercalate (bfcPrintComponents names key payload)

/-- The key of a set. -/
def bfcPrintKey (key : List BfMatcherType) : List Char :=
  '(' :: ([',', ' '].intercalate (key.map bfMatcherTypeToStr) ++ [')'])

/-- How far the elements of a set and its closing brace are indented: sets with a name are printed
before the rules, the others in their rule. -/
def bfcIndent : Option String → Nat × Nat
  | some _ => (8, 4)
  | none => (12, 8)

/-- The elements of a set. -/
def bfcPrintElems (names : Names) (set : BfSet) : List Char :=
  '{' :: '\n' ::
    (set.elems.flatMap (fun payload =>
        List.replicate (bfcIndent set.name).1 ' ' ++ bfcPrintElem names set.key payload ++ ['\n']) ++
      (List.replicate (bfcIndent set.name).2 ' ' ++ ['}']))

/-! ## Words -/

/-- What separates elements, components or names, and blanks. -/
def marks : List Char :=
  ['{', '}', ';', '\n', '(', ')', ',', ' ', '\t', Char.ofNat 11, Char.ofNat 12, '\r']

/-- A text with no mark in it. -/
def Word (s : List Char) : Prop := s ≠ [] ∧ ∀ c ∈ s, c ∉ marks

theorem isspace_marks {c : Char} (blank : isspace c = true) : c ∈ marks := by
  have codes : c.toNat ∈ [9, 10, 11, 12, 13, 32] := by
    rcases isspace_iff.mp blank with code | ⟨low, high⟩
    · simp [code]
    · simp only [List.mem_cons, List.not_mem_nil, or_false]
      omega
  have named : ∀ n ∈ [9, 10, 11, 12, 13, 32], Char.ofNat n ∈ marks := by decide
  rw [← Char.ofNat_toNat c]
  exact named c.toNat codes

section Words

variable {s t : List Char} {c : Char}

theorem Word.of_all {p : Char → Bool} (some : s ≠ []) (all : ∀ c ∈ s, p c = true)
    (plain : ∀ c ∈ marks, p c = false) : Word s := by
  refine ⟨some, fun c mem mark => ?_⟩
  have yes := all c mem
  rw [plain c mark] at yes
  cases yes

theorem Word.append (first : Word s) (second : Word t) : Word (s ++ t) := by
  refine ⟨List.append_ne_nil_of_left_ne_nil first.1 t, fun c mem => ?_⟩
  rcases List.mem_append.mp mem with mem | mem
  · exact first.2 c mem
  · exact second.2 c mem

theorem word_fmtDec (n : Nat) : Word (fmtDec n) :=
  .of_all (decimal_fmtDec n).1 (decimal_fmtDec n).2 (by decide)

/-- Addresses are words. -/
theorem word_ntop {size textLen : Nat} {start : Char → Bool} (inet : Inet size textLen start)
    {addr : List Byte} (length : addr.length = size) : Word (inet.ntop addr) := by
  have inverse := inet.pton_ntop length
  refine .of_all ?_ (inet.spelled inverse) (by decide)
  intro empty
  have starts := inet.starts inverse
  rw [empty] at starts
  cases starts

theorem word_net {size textLen : Nat} {start : Char → Bool} (inet : Inet size textLen start)
    {payload : List Byte} (length : 4 + size ≤ payload.length) :
    Word (bfPrintNet inet.ntop size payload) := by
  have addr : ((payload.drop 4).take size).length = size := by
    rw [List.length_take, List.length_drop]
    omega
  have slash : Word ['/'] := ⟨List.cons_ne_nil _ _, by decide⟩
  exact (word_ntop inet addr).append (slash.append (word_fmtDec _))

theorem word_namedByte {table : NameTable}
    (plain : ∀ entry ∈ table, entry.2.toList ≠ [] ∧ ∀ c ∈ entry.2.toList, c ∉ marks)
    (payload : List Byte) : Word (bfPrintNamedByte table payload) := by
  unfold bfPrintNamedByte
  cases named : table.toStr (u8At payload) with
  | some name =>
      obtain ⟨string, found, rfl⟩ := Option.map_eq_some_iff.mp named
      exact plain _ (mem_of_lookup found)
  | none => exact word_fmtDec _

theorem word_typeToStr (type : BfMatcherType) : Word (bfMatcherTypeToStr type) := by
  cases type <;> exact ⟨by decide, by decide⟩

end Words

/-- What is printed of a component is a word. -/
theorem textOps_in_word {names : Names} {type : BfMatcherType} {ops : PayloadOps}
    (supported : bfMatcherGetTextOps names type .inSet = some ops) {payload : List Byte}
    (length : parsedSize type ≤ payload.length) : Word (ops.print payload) := by
  have taken : ∀ {n : Nat}, n ≤ payload.length → (payload.take n).length = n := by
    intro n le
    rw [List.length_take, Nat.min_eq_left le]
  cases type <;> cases supported <;> first
    | exact word_ntop names.inet4 (taken length)
    | exact word_ntop names.inet6 (taken length)
    | exact word_net names.inet4 length
    | exact word_net names.inet6 length
    | exact word_namedByte (by decide) payload
    | exact word_fmtDec _

/-! ## Trimming -/

/-- The ends of a text are not blank. -/
def Trimmed (s : List Char) : Prop :=
  (∃ c ∈ s.head?, isspace c = false) ∧ ∃ c ∈ s.getLast?, isspace c = false

section Trim

variable {s t : List Char}

theorem Trimmed.append (first : Trimmed s) (second : Trimmed t) (mid : List Char) :
    Trimmed (s ++ (mid ++ t)) := by
  obtain ⟨c, head, plain⟩ := first.1
  obtain ⟨d, last, plain'⟩ := second.2
  refine ⟨⟨c, ?_, plain⟩, d, ?_, plain'⟩
  · rw [List.head?_append_of_ne_nil _ (by rintro rfl; cases head)]
    exact head
  · rw [List.getLast?_append_of_ne_nil _ (by simp; rintro - rfl; cases last),
      List.getLast?_append_of_ne_nil _ (by rintro rfl; cases last)]
    exact last

theorem Word.trimmed (word : Word s) : Trimmed s := by
  have plain : ∀ c ∈ s, isspace c = false := fun c mem =>
    Bool.eq_false_iff.mpr fun blank => word.2 c mem (isspace_marks blank)
  refine ⟨⟨s.head word.1, List.head?_eq_some_head word.1, plain _ (List.head_mem _)⟩, ?_⟩
  exact ⟨s.getLast word.1, List.getLast?_eq_some_getLast word.1, plain _ (List.getLast_mem _)⟩

theorem Trimmed.bfTrim (trimmed : Trimmed s) : bfTrim s = s := by
  obtain ⟨⟨c, head, plain⟩, d, last, plain'⟩ := trimmed
  have front : s.dropWhile isspace = s := by
    cases s with
    | nil => rfl
    | cons e es =>
        cases head
        exact List.dropWhile_cons_of_neg (Bool.eq_false_iff.mp plain)
  have back : s.reverse.dropWhile isspace = s.reverse := by
    rw [← List.head?_reverse] at last
    cases reversed : s.reverse with
    | nil => rfl
    | cons e es =>
        rw [reversed] at last
        cases last
        exact List.dropWhile_cons_of_neg (Bool.eq_false_iff.mp plain')
  rw [Bpfilter.bfTrim, front, back, List.reverse_reverse]

end Trim

/-! ## Words between commas -/

section Joined

variable {w : List Char} {ws : List (List Char)}

/-- With a blank behind each comma, the pieces after the first start with it. -/
theorem intercalate_spaced :
    [',', ' '].intercalate (w :: ws) = [','].intercalate (w :: ws.map (' ' :: ·)) := by
  induction ws generalizing w with
  | nil => rfl
  | cons v vs ih =>
      have moved : [','].intercalate ((' ' :: v) :: vs.map (' ' :: ·)) =
          ' ' :: [','].intercalate (v :: vs.map (' ' :: ·)) := by
        cases vs with
        | nil => rfl
        | cons u us => rw [List.map_cons, List.intercalate_cons_cons, List.intercalate_cons_cons]; rfl
      rw [List.intercalate_cons_cons, ih, List.map_cons, List.intercalate_cons_cons, moved]
      simp only [List.append_assoc, List.cons_append, List.nil_append]

/-- **The tokens of joined words, trimmed, are the words.** -/
theorem tokens_joined {sep : Char → Bool} (comma : sep ',' = true) (blank : sep ' ' = false)
    (marked : ∀ c, sep c = true → c ∈ marks) (words : ∀ w ∈ ws, Word w) :
    (tokens sep ([',', ' '].intercalate ws)).map bfTrim = ws := by
  cases ws with
  | nil => exact congrArg _ tokens_nil
  | cons w ws =>
      have plain : ∀ v ∈ w :: ws, ∀ c ∈ v, sep c = false := fun v mem c inside =>
        Bool.eq_false_iff.mpr fun cut => (words v mem).2 c inside (marked c cut)
      have some : ∀ v ∈ w :: ws.map (' ' :: ·), v ≠ [] := by
        intro v mem
        rcases List.mem_cons.mp mem with rfl | mem
        · exact (words v (List.mem_cons_self ..)).1
        · obtain ⟨u, -, rfl⟩ := List.mem_map.mp mem
          exact List.cons_ne_nil _ _
      have clear : ∀ v ∈ w :: ws.map (' ' :: ·), ∀ c ∈ v, sep c = false := by
        intro v mem c inside
        rcases List.mem_cons.mp mem with rfl | mem
        · exact plain v (List.mem_cons_self ..) c inside
        · obtain ⟨u, here, rfl⟩ := List.mem_map.mp mem
          rcases List.mem_cons.mp inside with rfl | inside
          · exact blank
          · exact plain u (List.mem_cons_of_mem _ here) c inside
      rw [intercalate_spaced, tokens_intercalate comma some clear, List.map_cons, List.map_map]
      have first := (words w (List.mem_cons_self ..)).trimmed.bfTrim
      have others : ws.map (bfTrim ∘ (' ' :: ·)) = ws := by
        refine (List.map_congr_left ?_).trans (List.map_id ws)
        intro v mem
        have front := @bfTrim_append [' '] v (by decide)
        exact front.trans (words v (List.mem_cons_of_mem _ mem)).trimmed.bfTrim
      rw [first, others]

/-- Joined words have no blank ends. -/
theorem trimmed_joined (words : ∀ v ∈ w :: ws, Word v) :
    Trimmed ([',', ' '].intercalate (w :: ws)) := by
  induction ws generalizing w with
  | nil =>
      rw [List.intercalate_singleton]
      exact (words w (List.mem_cons_self ..)).trimmed
  | cons v vs ih =>
      rw [List.intercalate_cons_cons, List.append_assoc]
      exact (words w (List.mem_cons_self ..)).trimmed.append
        (ih fun u mem => words u (List.mem_cons_of_mem _ mem)) [',', ' ']

/-- Joined words have no separator of elements. -/
theorem joined_plain (words : ∀ w ∈ ws, Word w) :
    ∀ c ∈ [',', ' '].intercalate ws, isElemSep c = false := by
  have word : ∀ {v : List Char}, Word v → ∀ c ∈ v, isElemSep c = false := by
    intro v fine c mem
    have sep : isElemSep c = true → c ∈ marks := by
      intro cut
      have among : ∀ d ∈ ['{', '}', ';', '\n'], d ∈ marks := by decide
      exact among c (of_decide_eq_true cut)
    exact Bool.eq_false_iff.mpr fun cut => fine.2 c mem (sep cut)
  induction ws with
  | nil => exact fun c mem => nomatch mem
  | cons w ws ih =>
      have first := word (words w (List.mem_cons_self ..))
      have rest := ih fun u mem => words u (List.mem_cons_of_mem _ mem)
      cases ws with
      | nil =>
          rw [List.intercalate_singleton]
          exact first
      | cons v vs =>
          have between : ∀ c ∈ [',', ' '], isElemSep c = false := by decide
          intro c mem
          rw [List.intercalate_cons_cons, List.append_assoc] at mem
          rcases List.mem_append.mp mem with mem | mem
          · exact first c mem
          · rcases List.mem_append.mp mem with mem | mem
            · exact between c mem
            · exact rest c mem

end Joined

/-! ## Keys -/

/-- A printed key is the text of that key. -/
theorem keyText_bfcPrintKey {key : List BfMatcherType} (accepted : AcceptedKey key) :
    KeyText (bfcPrintKey key) key := by
  refine ⟨?_, accepted⟩
  have words : ∀ w ∈ key.map bfMatcherTypeToStr, Word w := by
    intro w mem
    obtain ⟨type, -, rfl⟩ := List.mem_map.mp mem
    exact word_typeToStr type
  have among : ∀ d ∈ ['(', ')', ','], d ∈ marks := by decide
  have names := @tokens_joined (key.map bfMatcherTypeToStr) (· ∈ ['(', ')', ',']) (by decide)
    (by decide) (fun c cut => among c (of_decide_eq_true cut)) words
  have opened : keyTokens (bfcPrintKey key) =
      tokens (· ∈ ['(', ')', ',']) ([',', ' '].intercalate (key.map bfMatcherTypeToStr)) := by
    show tokens (· ∈ ['(', ')', ',']) ('(' :: (_ ++ [')'])) = _
    rw [tokens_cons_sep (by decide), tokens_append_sep (by decide), tokens_nil, List.append_nil]
  rw [opened, names]

/-! ## Elements -/

/-- Elements with the same components: they differ at most where no parser writes. -/
inductive SameComponents : List BfMatcherType → List Byte → List Byte → Prop
  | nil : SameComponents [] [] []
  | cons {type : BfMatcherType} {key : List BfMatcherType} {bytes pad pad' elem elem' : List Byte}
      (written : bytes.length = parsedSize type)
      (size : bytes.length + pad.length = componentSize type)
      (size' : bytes.length + pad'.length = componentSize type)
      (rest : SameComponents key elem elem') :
      SameComponents (type :: key) (bytes ++ pad ++ elem) (bytes ++ pad' ++ elem')

/-- A set as the parser makes it. -/
structure ParsedSet (names : Names) (set : BfSet) : Prop where
  accepted : AcceptedKey set.key
  parsed : ∀ elem ∈ set.elems, ∃ tokens, ElemOf (setParseOps names) set.key tokens elem

theorem setParseOps_ok_iff {names : Names} {type : BfMatcherType} {s : List Char}
    {bytes : { bytes : List Byte // bytes.length = parsedSize type }} :
    setParseOps names type s = .ok bytes ↔
      ∃ ops, bfMatcherGetTextOps names type .inSet = some ops ∧ ops.parse s = .ok bytes.val := by
  unfold setParseOps
  split
  · rename_i none
    refine ⟨fun ok => (nomatch ok), ?_⟩
    rintro ⟨ops, supported, -⟩
    rw [none] at supported
    cases supported
  · rename_i ops supported
    constructor
    · intro ok
      split at ok
      · cases ok
      · rename_i bytes' accepted
        cases ok
        exact ⟨ops, supported, accepted⟩
    · rintro ⟨ops', supported', accepted⟩
      rw [supported] at supported'
      cases supported'
      split
      · rename_i e refused
        rw [accepted] at refused
        cases refused
      · rename_i bytes' accepted'
        rw [accepted] at accepted'
        cases accepted'
        rfl

section Elements

variable {names : Names} {key : List BfMatcherType} {tokens : List (List Char)}
  {elem elem' : List Byte}

/-- A component that was parsed is printed as a word, which is parsed to the same bytes. -/
theorem printed_component {type : BfMatcherType} {s : List Char}
    {bytes : { bytes : List Byte // bytes.length = parsedSize type }}
    (accepted : setParseOps names type s = .ok bytes) (tail : List Byte) :
    Word (bfcPrintComponent names type (bytes.val ++ tail)) ∧
      setParseOps names type (bfcPrintComponent names type (bytes.val ++ tail)) = .ok bytes := by
  obtain ⟨ops, supported, parsed⟩ := setParseOps_ok_iff.mp accepted
  have notIface : type ≠ .metaIface := by
    rintro rfl
    cases supported
  have long : parsedSize type ≤ (bytes.val ++ tail).length := by
    rw [List.length_append, bytes.property]
    exact Nat.le_add_right ..
  have same : bfcPrintComponent names type (bytes.val ++ tail) = ops.print (bytes.val ++ tail) := by
    rw [bfcPrintComponent, supported]
  rw [same]
  refine ⟨textOps_in_word supported long, setParseOps_ok_iff.mpr ⟨ops, supported, ?_⟩⟩
  exact textOps_roundTrip notIface supported s bytes.val tail parsed

/-- An element that was parsed is printed in words, one for each type of the key. -/
theorem printed_words (laid : ElemOf (setParseOps names) key tokens elem) :
    ∀ w ∈ bfcPrintComponents names key elem, Word w := by
  induction laid with
  | nil => exact fun w mem => nomatch mem
  | @cons type key token tokens bytes pad elem parsed size rest ih =>
      have skipped : (bytes.val ++ pad ++ elem).drop (componentSize type) = elem := by
        rw [← size, ← List.length_append]
        exact List.drop_left
      intro w mem
      rw [bfcPrintComponents, skipped] at mem
      rcases List.mem_cons.mp mem with rfl | mem
      · rw [List.append_assoc]
        exact (printed_component parsed _).1
      · exact ih w mem

/-- The components of a printed element are parsed, to the same bytes. -/
theorem printed_parsed (laid : ElemOf (setParseOps names) key tokens elem)
    {tokens' : List (List Char)} (printed : tokens'.map bfTrim = bfcPrintComponents names key elem) :
    List.Forall₂ (fun type token => ∃ bytes, setParseOps names type (bfTrim token) = .ok bytes) key
        tokens' ∧
      ∀ elem', ElemOf (setParseOps names) key tokens' elem' → SameComponents key elem elem' := by
  induction laid generalizing tokens' with
  | nil =>
      obtain rfl := List.map_eq_nil_iff.mp printed
      refine ⟨.nil, fun elem' laid' => ?_⟩
      cases laid'
      exact .nil
  | @cons type key token tokens bytes pad elem parsed size rest ih =>
      have skipped : (bytes.val ++ pad ++ elem).drop (componentSize type) = elem := by
        rw [← size, ← List.length_append]
        exact List.drop_left
      rw [bfcPrintComponents, skipped, List.append_assoc] at printed
      obtain ⟨token', tokens', rfl, first, others⟩ := List.map_eq_cons_iff.mp printed
      have again := (printed_component parsed (pad ++ elem)).2
      rw [← first] at again
      obtain ⟨accepted, same⟩ := ih others
      refine ⟨.cons ⟨bytes, again⟩ accepted, fun elem' laid' => ?_⟩
      cases laid' with
      | @cons _ _ _ _ bytes' pad' elem' parsed' size' rest' =>
          rw [again] at parsed'
          cases parsed'
          exact .cons bytes.property size size' (same elem' rest')

/-- Where the parsers write all bytes, elements with the same components are equal. -/
theorem SameComponents.eq (same : SameComponents key elem elem')
    (full : ∀ type ∈ key, parsedSize type = componentSize type) : elem' = elem := by
  induction same with
  | nil => rfl
  | @cons type key bytes pad pad' elem elem' written size size' rest ih =>
      have all := full type (List.mem_cons_self ..)
      obtain rfl : pad = [] := List.eq_nil_of_length_eq_zero (by omega)
      obtain rfl : pad' = [] := List.eq_nil_of_length_eq_zero (by omega)
      rw [ih fun t mem => full t (List.mem_cons_of_mem _ mem)]

end Elements

/-! ## Sets -/

/-- A set that the parser returns. -/
theorem parsedSet_of_made {names : Names} {fresh : Nat → Nat → Byte} {fuel : Nat}
    {name : Option String} {rawKey rawPayload : List Char} {set : BfSet}
    (made : bfSetNewFromRaw (setParseOps names) fresh fuel name rawKey rawPayload =
      some (.ok set)) : ParsedSet names set := by
  obtain ⟨text, -, -, laid⟩ := madeSet_spec made
  refine ⟨text.2, fun elem mem => ?_⟩
  obtain ⟨seg, -, here⟩ := exists_of_forall₂ laid mem
  exact ⟨_, here⟩

section Sets

variable {names : Names} {set : BfSet}

/-- A printed element, with its indentation. -/
def printedLine (names : Names) (set : BfSet) (payload : List Byte) : List Char :=
  List.replicate (bfcIndent set.name).1 ' ' ++ bfcPrintElem names set.key payload

theorem ParsedSet.words (parsed : ParsedSet names set) {elem : List Byte} (mem : elem ∈ set.elems) :
    ∀ w ∈ bfcPrintComponents names set.key elem, Word w := by
  obtain ⟨tokens, laid⟩ := parsed.parsed elem mem
  exact printed_words laid

theorem ParsedSet.trimmed (parsed : ParsedSet names set) {elem : List Byte}
    (mem : elem ∈ set.elems) : Trimmed (bfcPrintElem names set.key elem) := by
  have words := parsed.words mem
  obtain ⟨type, key, shape⟩ := List.exists_cons_of_ne_nil parsed.accepted.nonempty
  rw [bfcPrintElem]
  rw [shape, bfcPrintComponents] at words ⊢
  exact trimmed_joined words

/-- Trimming a line leaves the element. -/
theorem ParsedSet.bfTrim_line (parsed : ParsedSet names set) {elem : List Byte}
    (mem : elem ∈ set.elems) :
    bfTrim (printedLine names set elem) = bfcPrintElem names set.key elem := by
  have blanks : ∀ c ∈ List.replicate (bfcIndent set.name).1 ' ', isspace c = true := by
    intro c inside
    rw [(List.mem_replicate.mp inside).2]
    rfl
  rw [printedLine, bfTrim_append blanks]
  exact (parsed.trimmed mem).bfTrim

/-- The segments of printed elements are their lines, and what stands before the closing brace. -/
theorem ParsedSet.segments_printed (parsed : ParsedSet names set) :
    segments (bfcPrintElems names set) = set.elems.map (printedLine names set) ++
      [List.replicate (bfcIndent set.name).2 ' '] := by
  have blanks : ∀ n, ∀ c ∈ List.replicate n ' ', isElemSep c = false := by
    intro n c inside
    rw [(List.mem_replicate.mp inside).2]
    rfl
  have some : ∀ elem ∈ set.elems, printedLine names set elem ≠ [] := by
    intro elem mem empty
    rw [printedLine, List.append_eq_nil_iff] at empty
    obtain ⟨⟨c, head, -⟩, -⟩ := parsed.trimmed mem
    rw [empty.2] at head
    cases head
  have plain : ∀ elem ∈ set.elems, ∀ c ∈ printedLine names set elem, isElemSep c = false := by
    intro elem mem c inside
    rcases List.mem_append.mp inside with inside | inside
    · exact blanks _ c inside
    · exact joined_plain (parsed.words mem) c inside
  have close : List.replicate (bfcIndent set.name).2 ' ' ≠ [] := by
    cases set.name <;> exact List.cons_ne_nil _ _
  have closed : tokens isElemSep (List.replicate (bfcIndent set.name).2 ' ' ++ ['}']) =
      [List.replicate (bfcIndent set.name).2 ' '] := by
    rw [tokens_cons close (blanks _) (by decide), tokens_nil]
  rw [segments, bfcPrintElems, tokens_cons_sep (by decide), tokens_cons_sep (by decide)]
  exact (tokens_flatMap set.elems (printedLine names set) newline_isElemSep some plain).trans
    (congrArg _ closed)

/-- The texts of the elements are those that were printed. -/
theorem ParsedSet.elemTexts_printed (parsed : ParsedSet names set) :
    elemTexts (bfcPrintElems names set) = set.elems.map (bfcPrintElem names set.key) := by
  have lines : (set.elems.map (printedLine names set)).map bfTrim =
      set.elems.map (bfcPrintElem names set.key) := by
    rw [List.map_map]
    exact List.map_congr_left fun elem mem => parsed.bfTrim_line mem
  have blank : bfTrim (List.replicate (bfcIndent set.name).2 ' ') = [] := by
    have short : bfTrim (List.replicate 4 ' ') = [] ∧ bfTrim (List.replicate 8 ' ') = [] := by
      decide
    cases set.name
    · exact short.2
    · exact short.1
  have kept : ∀ seg ∈ set.elems.map (bfcPrintElem names set.key), decide (seg ≠ []) = true := by
    intro seg mem
    obtain ⟨elem, inside, rfl⟩ := List.mem_map.mp mem
    rw [decide_eq_true_iff]
    intro empty
    obtain ⟨⟨c, head, -⟩, -⟩ := parsed.trimmed inside
    rw [empty] at head
    cases head
  rw [elemTexts, parsed.segments_printed, List.map_append, lines, List.map_singleton, blank,
    List.filter_append, List.filter_eq_self.mpr kept]
  exact List.append_nil _

/-- Printed elements do not start with a blank segment. -/
theorem ParsedSet.not_blankStart (parsed : ParsedSet names set) (some : set.elems ≠ []) :
    ¬ BlankStart (bfcPrintElems names set) := by
  rintro ⟨seg, first, blank⟩
  obtain ⟨elem, elems, shape⟩ := List.exists_cons_of_ne_nil some
  have mem : elem ∈ set.elems := by
    rw [shape]
    exact List.mem_cons_self ..
  rw [parsed.segments_printed, shape] at first
  cases first
  obtain ⟨⟨c, head, -⟩, -⟩ := parsed.trimmed mem
  rw [parsed.bfTrim_line mem] at blank
  rw [blank] at head
  cases head

/-- The components of a printed element. -/
theorem ParsedSet.tokens_printed (parsed : ParsedSet names set) {elem : List Byte}
    (mem : elem ∈ set.elems) :
    (strtokR [','] (bfcPrintElem names set.key elem)).map bfTrim =
      bfcPrintComponents names set.key elem := by
  have among : ∀ d ∈ [','], d ∈ marks := by decide
  exact @tokens_joined (bfcPrintComponents names set.key elem) (· ∈ [',']) (by decide) (by decide)
    (fun c cut => among c (of_decide_eq_true cut)) (parsed.words mem)

/-- **Printed sets are parsed back**, with the same key and the same elements in order. -/
theorem ParsedSet.print_parse (parsed : ParsedSet names set) (some : set.elems ≠ [])
    (fresh : Nat → Nat → Byte) (name : Option String) :
    ∃ fuel set', bfSetNewFromRaw (setParseOps names) fresh fuel name (bfcPrintKey set.key)
        (bfcPrintElems names set) = .some (.ok set') ∧
      set'.key = set.key ∧ List.Forall₂ (SameComponents set.key) set.elems set'.elems := by
  have text := keyText_bfcPrintKey parsed.accepted
  have accepted : ∀ seg ∈ elemTexts (bfcPrintElems names set),
      ElemText (setParseOps names) set.key seg := by
    intro seg mem
    rw [parsed.elemTexts_printed] at mem
    obtain ⟨elem, inside, rfl⟩ := List.mem_map.mp mem
    obtain ⟨tokens, laid⟩ := parsed.parsed elem inside
    exact (printed_parsed laid (parsed.tokens_printed inside)).1
  obtain ⟨set', fuel, made⟩ := (@makesSet_iff names fresh name (bfcPrintKey set.key)
    (bfcPrintElems names set)).mpr ⟨parsed.not_blankStart some, set.key, text, accepted⟩
  obtain ⟨text', -, -, laid'⟩ := madeSet_spec made
  have key := text'.unique text
  rw [key, parsed.elemTexts_printed, List.forall₂_map_left_iff] at laid'
  refine ⟨fuel, set', made, key, ?_⟩
  have inside := (List.forall₂_and_left set.elems set'.elems).mpr ⟨fun elem mem => mem, laid'⟩
  refine inside.imp ?_
  rintro elem elem' ⟨inside, here⟩
  obtain ⟨tokens, laid⟩ := parsed.parsed elem inside
  exact (printed_parsed laid (parsed.tokens_printed inside)).2 elem' here

end Sets

/-- **Print, then parse.**  Payloads of every type but interfaces and sets with an element are
parsed to what they were printed from; every set the parser returns is such a set.  Of an
element, all bytes that a parser writes are the same. -/
theorem printed_isParsedBack (names : Names) :
    (∀ type op ops, type ≠ .metaIface → bfMatcherGetTextOps names type op = some ops →
      RoundTrip ops) ∧
    (∀ set fresh name, ParsedSet names set → set.elems ≠ [] →
      ∃ fuel set', bfSetNewFromRaw (setParseOps names) fresh fuel name (bfcPrintKey set.key)
          (bfcPrintElems names set) = some (.ok set') ∧
        set'.key = set.key ∧ List.Forall₂ (SameComponents set.key) set.elems set'.elems ∧
        ((∀ type ∈ set.key, parsedSize type = componentSize type) → set'.elems = set.elems)) ∧
    ∀ fresh fuel name rawKey rawPayload set,
      bfSetNewFromRaw (setParseOps names) fresh fuel name rawKey rawPayload = some (.ok set) →
        ParsedSet names set := by
  refine ⟨?_, ?_, ?_⟩
  · intro type op ops notIface supported
    exact textOps_roundTrip notIface supported
  · intro set fresh name parsed some
    obtain ⟨fuel, set', made, key, same⟩ := parsed.print_parse some fresh name
    refine ⟨fuel, set', made, key, same, fun full => ?_⟩
    have equal := same.imp fun elem elem' here => (here.eq full).symm
    exact (List.forall₂_eq_eq_eq ▸ equal : set.elems = set'.elems).symm
  · intro fresh fuel name rawKey rawPayload set made
    exact parsedSet_of_made made

/-- A mark, and the set of two addresses with a port. -/
theorem mark_and_addrPortSet_parsedBack :
    bfParseMarkText (bfPrintMark [0x2a, 0, 0, 0, 7]) = .ok [0x2a, 0, 0, 0] ∧
      ∃ fuel set', bfSetNewFromRaw (setParseOps plainNames) (fun _ _ => 0) fuel (some "web")
          (bfcPrintKey [.ip4Saddr, .tcpDport]) (bfcPrintElems plainNames
            ⟨some "web", [.ip4Saddr, .tcpDport], 6,
              [[10, 0, 0, 1, 0, 80], [10, 0, 0, 2, 1, 187]], false⟩) = some (.ok set') ∧
        set'.elems = [[10, 0, 0, 1, 0, 80], [10, 0, 0, 2, 1, 187]] := by
  obtain ⟨callbacks, sets, made⟩ := printed_isParsedBack plainNames
  have mark := callbacks .metaMark .eq markTextOps nofun rfl "42".toList [0x2a, 0, 0, 0] [7]
    (by decide +kernel)
  have parsed := made (fun _ _ => 0) 9 (some "web") "(ip4.saddr, tcp.dport)".toList
    "{10.0.0.1, 80; 10.0.0.2,443}".toList
    ⟨some "web", [.ip4Saddr, .tcpDport], 6, [[10, 0, 0, 1, 0, 80], [10, 0, 0, 2, 1, 187]], false⟩
    (by decide +kernel)
  obtain ⟨fuel, set', again, -, -, equal⟩ :=
    sets _ (fun _ _ => 0) (some "web") parsed (List.cons_ne_nil _ _)
  exact ⟨mark, fuel, set', again, equal (by decide)⟩

end Bpfilter

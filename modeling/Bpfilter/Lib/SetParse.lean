/-
# Lib.SetParse -- sets from their text

`bf_set_new_from_raw` parses the key, creates the set, and cuts the payload into
segments with `strtok_r`.  Its loop gives `strtok_r` the buffer again until a segment
was parsed: after a blank segment the buffer, which ends behind that segment by then,
is cut once more, and the same segment comes back.  `bfSetNewFromRaw_returns_iff` says
when the loop ends.

Where it ends, the parser implements a grammar: `KeyText` for keys, `ElemText` for
elements (`bfSetNewFromRaw_grammar`).
-/
import Bpfilter.Lib.InetText
import Bpfilter.Lib.Set

namespace Bpfilter

set_option autoImplicit false

open Ebpf (Byte)
open Cstr (isspace strtok)

/-! ## Keys -/

/-- `_bf_matcher_type_strs`, in the order of the types. -/
def bfMatcherTypeStrs : List (BfMatcherType × String) :=
  [(.metaIface, "meta.iface"), (.metaL3Proto, "meta.l3_proto"), (.metaL4Proto, "meta.l4_proto"),
    (.metaProbability, "meta.probability"), (.metaSport, "meta.sport"),
    (.metaDport, "meta.dport"), (.metaMark, "meta.mark"), (.ip4Saddr, "ip4.saddr"),
    (.ip4Snet, "ip4.snet"), (.ip4Daddr, "ip4.daddr"), (.ip4Dnet, "ip4.dnet"),
    (.ip4Proto, "ip4.proto"), (.ip6Saddr, "ip6.saddr"), (.ip6Snet, "ip6.snet"),
    (.ip6Daddr, "ip6.daddr"), (.ip6Dnet, "ip6.dnet"), (.ip6Nexthdr, "ip6.nexthdr"),
    (.tcpSport, "tcp.sport"), (.tcpDport, "tcp.dport"), (.tcpFlags, "tcp.flags"),
    (.udpSport, "udp.sport"), (.udpDport, "udp.dport"), (.icmpType, "icmp.type"),
    (.icmpCode, "icmp.code"), (.icmpv6Type, "icmpv6.type"), (.icmpv6Code, "icmpv6.code"),
    (.set, "<set>")]

/-- `bf_matcher_type_to_str` -/
def bfMatcherTypeToStr (type : BfMatcherType) : List Char :=
  ((bfMatcherTypeStrs.lookup type).getD "<invalid>").toList

/-- `bf_matcher_type_from_str` -/
def bfMatcherTypeFromStr (s : List Char) : Option BfMatcherType :=
  (bfMatcherTypeStrs.find? fun entry => entry.2.toList = s).map Prod.fst

/-- The loop of `_bf_set_parse_key`. -/
def parseKeyLoop : List (List Char) → List BfMatcherType → Except Errno (List BfMatcherType)
  | [], key => if key.length = 0 then .error .einval else .ok key
  | token :: rest, key =>
      if key.length = bfSetMaxNComps then .error .e2big
      else
        match bfMatcherTypeFromStr (bfTrim token) with
        | none => .error .einval
        | some type => parseKeyLoop rest (key ++ [type])

/-- The tokens of a key. -/
def keyTokens (rawKey : List Char) : List (List Char) := strtokR ['(', ')', ','] rawKey

/-- `_bf_set_parse_key` -/
def bfSetParseKey (rawKey : List Char) : Except Errno (List BfMatcherType) :=
  parseKeyLoop (keyTokens rawKey) []

/-! ## Component parsers -/

section Components

variable {names : Names} {s : List Char} {bytes : List Byte}

theorem bfParseAddr_length {size textLen : Nat} {start : Char → Bool} (inet : Inet size textLen start)
    (accepted : bfParseAddr inet.pton s = .ok bytes) : bytes.length = size := by
  unfold bfParseAddr at accepted
  split at accepted
  · rename_i addr address
    cases accepted
    exact inet.size_eq address
  · cases accepted

theorem bfParseNet_inv {size textLen len limit : Nat} {start : Char → Bool}
    (inet : Inet size textLen start)
    (accepted : bfParseNet len start limit inet.pton s = .ok bytes) :
    ∃ prefixlen addr, bytes = leBytes32 prefixlen ++ addr ∧ addr.length = size ∧
      prefixlen.toNat ≤ limit := by
  simp only [bfParseNet] at accepted
  split_ifs at accepted
  split at accepted
  · cases accepted
  · split_ifs at accepted
    · split at accepted <;> cases accepted
    · split at accepted
      · cases accepted
      · rename_i fine _ addr address
        cases accepted
        exact ⟨_, addr, rfl, inet.size_eq address, not_lt.mp fun tooLong => fine (.inr tooLong)⟩

theorem bfParseNet_length {size textLen len limit : Nat} {start : Char → Bool}
    (inet : Inet size textLen start)
    (accepted : bfParseNet len start limit inet.pton s = .ok bytes) :
    bytes.length = 4 + size := by
  obtain ⟨prefixlen, addr, rfl, sized, -⟩ := bfParseNet_inv inet accepted
  rw [List.length_append, sized]
  rfl

theorem bfParseByte_length (accepted : bfParseByte s = .ok bytes) : bytes.length = 1 := by
  unfold bfParseByte at accepted
  split_ifs at accepted <;>
    · cases accepted
      rfl

theorem bfParseNamedByte_length {table : NameTable}
    (accepted : bfParseNamedByte table s = .ok bytes) : bytes.length = 1 := by
  unfold bfParseNamedByte at accepted
  split at accepted
  · cases accepted
    rfl
  · exact bfParseByte_length accepted

theorem bfParseL4ProtoText_length (accepted : bfParseL4ProtoText s = .ok bytes) :
    bytes.length = 1 := by
  unfold bfParseL4ProtoText bfParseL4Proto at accepted
  split at accepted
  · cases accepted
    rfl
  · split_ifs at accepted
    cases accepted
    rfl

theorem bfParseL4PortText_length (accepted : bfParseL4PortText s = .ok bytes) :
    bytes.length = 2 := by
  rw [(bfParseL4Port_inv accepted).2]
  rfl

end Components

/-- The parsers of the operator `in` write as many bytes as they should. -/
theorem textOps_in_length {names : Names} {type : BfMatcherType} {ops : PayloadOps}
    (supported : bfMatcherGetTextOps names type .inSet = some ops) {s : List Char}
    {bytes : List Byte} (accepted : ops.parse s = .ok bytes) : bytes.length = parsedSize type := by
  cases type <;> cases supported <;> first
    | exact bfParseAddr_length names.inet4 accepted
    | exact bfParseAddr_length names.inet6 accepted
    | exact bfParseNet_length names.inet4 accepted
    | exact bfParseNet_length names.inet6 accepted
    | exact bfParseL4ProtoText_length accepted
    | exact bfParseL4PortText_length accepted
    | exact bfParseNamedByte_length accepted
    | exact bfParseByte_length accepted

/-- `ops->parse` of the operator `in`; types that do not support it are never parsed. -/
def setParseOps (names : Names) : ParseOps := fun type s =>
  match supported : bfMatcherGetTextOps names type .inSet with
  | none => .error .einval
  | some ops =>
      match accepted : ops.parse s with
      | .error e => .error e
      | .ok bytes => .ok ⟨bytes, textOps_in_length supported accepted⟩

/-! ## Elements -/

/-- What separates the elements of a payload. -/
def isElemSep (c : Char) : Bool := c ∈ ['{', '}', ';', '\n']

/-- The segments of a payload. -/
def segments (rawPayload : List Char) : List (List Char) := Cstr.tokens isElemSep rawPayload

/-- What `malloc` returns for the next element of a set. -/
def freshElem (fresh : Nat → Nat → Byte) (set : BfSet) : List Byte :=
  (List.range set.elemSize).map (fresh set.elems.length)

/-- The loop of `bf_set_new_from_raw`.  `tmp` is what `strtok_r` is given, and null once a segment
was parsed; `saveptr` is where it goes on otherwise.  A call ends its token in the buffer, so
that a buffer given again has only the separators and the token in it. -/
def rawElemLoop (parse : ParseOps) (fresh : Nat → Nat → Byte) :
    Nat → BfSet → Option (List Char) → List Char → Option (Except Errno BfSet)
  | 0, _, _, _ => none
  | fuel + 1, set, tmp, saveptr =>
      match strtok isElemSep (tmp.getD saveptr) with
      | none => some (.ok set)
      | some (rawElem, rest) =>
          if bfTrim rawElem = [] then
            rawElemLoop parse fresh fuel set
              (tmp.map fun buf => buf.takeWhile isElemSep ++ rawElem) rest
          else
            match bfSetParseElem parse (freshElem fresh set) set (bfTrim rawElem) with
            | .error e => some (.error e)
            | .ok set => rawElemLoop parse fresh fuel set none rest

/-- `bf_set_new_from_raw`, with fuel for its loop. -/
def bfSetNewFromRaw (parse : ParseOps) (fresh : Nat → Nat → Byte) (fuel : Nat)
    (name : Option String) (rawKey rawPayload : List Char) : Option (Except Errno BfSet) :=
  match bfSetParseKey rawKey with
  | .error e => some (.error e)
  | .ok key =>
      match bfSetNew name key with
      | .error e => some (.error e)
      | .ok set => rawElemLoop parse fresh fuel set (some rawPayload) []

/-! ## The grammar -/

/-- The names of a key, trimmed, and what `bf_set_new` asks of it. -/
def KeyText (rawKey : List Char) (key : List BfMatcherType) : Prop :=
  (keyTokens rawKey).map bfTrim = key.map bfMatcherTypeToStr ∧ AcceptedKey key

/-- An element has a component for each type of the key, which its parser accepts. -/
def ElemText (parse : ParseOps) (key : List BfMatcherType) (seg : List Char) : Prop :=
  List.Forall₂ (fun type token => ∃ bytes, parse type (bfTrim token) = .ok bytes) key
    (strtokR [','] seg)

/-- The segments that are not blank, trimmed. -/
def elemTexts (rawPayload : List Char) : List (List Char) :=
  ((segments rawPayload).map bfTrim).filter (· ≠ [])

/-- The components of an element one after the other, each filled up to its size. -/
inductive ElemOf (parse : ParseOps) : List BfMatcherType → List (List Char) → List Byte → Prop
  | nil : ElemOf parse [] [] []
  | cons {type : BfMatcherType} {key : List BfMatcherType} {token : List Char}
      {tokens : List (List Char)} {bytes : { bytes : List Byte // bytes.length = parsedSize type }}
      {pad elem : List Byte} (parsed : parse type (bfTrim token) = .ok bytes)
      (size : bytes.val.length + pad.length = componentSize type)
      (rest : ElemOf parse key tokens elem) :
      ElemOf parse (type :: key) (token :: tokens) (bytes.val ++ pad ++ elem)

/-! ## Parsing keys -/

theorem bfMatcherTypeFromStr_eq_some {s : List Char} {type : BfMatcherType} :
    bfMatcherTypeFromStr s = some type ↔ s = bfMatcherTypeToStr type := by
  constructor
  · intro found
    obtain ⟨entry, here, rfl⟩ := Option.map_eq_some_iff.mp found
    have named := List.find?_some here
    have all : ∀ e ∈ bfMatcherTypeStrs, bfMatcherTypeToStr e.1 = e.2.toList := by decide
    rw [all entry (List.mem_of_find?_eq_some here)]
    exact (of_decide_eq_true named).symm
  · rintro rfl
    cases type <;> rfl

theorem parseKeyLoop_ok_iff {tokens : List (List Char)} {done key : List BfMatcherType}
    (short : done.length ≤ bfSetMaxNComps) :
    parseKeyLoop tokens done = .ok key ↔
      ∃ types, key = done ++ types ∧ tokens.map bfTrim = types.map bfMatcherTypeToStr ∧
        key ≠ [] ∧ key.length ≤ bfSetMaxNComps := by
  induction tokens generalizing done with
  | nil =>
      rw [parseKeyLoop]
      split_ifs with none
      · constructor
        · intro absurd
          cases absurd
        · rintro ⟨types, rfl, names, some, -⟩
          obtain rfl := List.eq_nil_of_length_eq_zero none
          obtain rfl := List.map_eq_nil_iff.mp names.symm
          exact absurd rfl some
      · constructor
        · intro ok
          cases ok
          exact ⟨[], (List.append_nil _).symm, rfl, fun empty => none (by rw [empty]; rfl), short⟩
        · rintro ⟨types, rfl, names, -, -⟩
          obtain rfl := List.map_eq_nil_iff.mp names.symm
          rw [List.append_nil]
  | cons token rest ih =>
      rw [parseKeyLoop]
      split_ifs with full
      · constructor
        · intro absurd
          cases absurd
        · rintro ⟨types, rfl, names, -, le⟩
          have count := congrArg List.length names
          simp only [List.length_map, List.length_cons, List.length_append] at count le
          omega
      · have room : done.length + 1 ≤ bfSetMaxNComps := by omega
        cases type : bfMatcherTypeFromStr (bfTrim token) with
        | none =>
            constructor
            · intro absurd
              cases absurd
            · rintro ⟨types, rfl, names, -, -⟩
              cases types with
              | nil => cases names
              | cons type' types =>
                  have first := (List.cons.inj names).1
                  rw [bfMatcherTypeFromStr_eq_some.mpr first] at type
                  cases type
        | some type' =>
            have first := bfMatcherTypeFromStr_eq_some.mp type
            show parseKeyLoop rest (done ++ [type']) = _ ↔ _
            rw [ih (by rw [List.length_append]; exact room)]
            constructor
            · rintro ⟨types, rfl, names, some, le⟩
              refine ⟨type' :: types, by simp, ?_, some, le⟩
              rw [List.map_cons, List.map_cons, first, names]
            · rintro ⟨types, rfl, names, some, le⟩
              cases types with
              | nil => cases names
              | cons type'' types =>
                  obtain ⟨same, others⟩ := List.cons.inj names
                  have equal := bfMatcherTypeFromStr_eq_some.mpr same
                  rw [type] at equal
                  cases equal
                  exact ⟨types, by simp, others, some, le⟩

/-- A key that `bf_set_new` accepts. -/
theorem bfSetNew_of_accepted {key : List BfMatcherType} (accepted : AcceptedKey key)
    (name : Option String) : ∃ set, bfSetNew name key = .ok set := by
  have sizes : ∀ {types : List BfMatcherType},
      (∀ type ∈ types, (bfMatcherGetOps type .inSet).isSome) →
      ∃ n, bfSetElemSize types = .ok n := by
    intro types supported
    induction types with
    | nil => exact ⟨0, rfl⟩
    | cons type rest ih =>
        obtain ⟨n, total⟩ := ih fun t mem => supported t (List.mem_cons_of_mem _ mem)
        obtain ⟨size, ops⟩ := Option.isSome_iff_exists.mp (supported type (List.mem_cons_self ..))
        exact ⟨size + n, by simp only [bfSetElemSize, ops, total]⟩
  obtain ⟨n, total⟩ := sizes accepted.supported
  have pos := List.length_pos_iff.mpr accepted.nonempty
  unfold bfSetNew
  rw [if_neg (by omega), if_neg (Nat.not_lt.mpr accepted.short), total]
  refine ⟨_, if_neg ?_⟩
  rintro ⟨many, net⟩
  obtain ⟨type, mem, isNet⟩ := List.any_eq_true.mp net
  rw [accepted.alone many type mem] at isNet
  cases isNet

/-- The key of a text, when there is one, and the set it makes. -/
theorem newSet_ok_iff {rawKey : List Char} {name : Option String} {set : BfSet} :
    (∃ key, bfSetParseKey rawKey = .ok key ∧ bfSetNew name key = .ok set) ↔
      ∃ key, KeyText rawKey key ∧ bfSetNew name key = .ok set := by
  refine exists_congr fun key => and_congr_left fun made => ?_
  rw [bfSetParseKey, parseKeyLoop_ok_iff (Nat.zero_le _)]
  obtain ⟨accepted, -⟩ := bfSetNew_inv made
  constructor
  · rintro ⟨types, rfl, names, -, -⟩
    exact ⟨names, accepted⟩
  · rintro ⟨names, -⟩
    exact ⟨key, rfl, names, accepted.nonempty, accepted.short⟩

/-! ## The element loop -/

/-- The loop over segments, once the buffer is not given again. -/
def segmentLoop (parse : ParseOps) (fresh : Nat → Nat → Byte) :
    List (List Char) → BfSet → Except Errno BfSet
  | [], set => .ok set
  | rawElem :: rest, set =>
      if bfTrim rawElem = [] then segmentLoop parse fresh rest set
      else
        match bfSetParseElem parse (freshElem fresh set) set (bfTrim rawElem) with
        | .error e => .error e
        | .ok set => segmentLoop parse fresh rest set

section Loop

variable {parse : ParseOps} {fresh : Nat → Nat → Byte} {fuel : Nat} {set : BfSet}
  {buf saveptr rawPayload : List Char} {result : Except Errno BfSet}

theorem segments_eq (s : List Char) :
    segments s =
      match strtok isElemSep s with
      | none => []
      | some (t, rest) => t :: segments rest := by
  rw [segments, Cstr.tokens_eq]
  cases strtok isElemSep s <;> rfl

/-- Going on from the save pointer, the loop sees the segments that are left. -/
theorem rawElemLoop_rest (returned : rawElemLoop parse fresh fuel set none saveptr = some result) :
    result = segmentLoop parse fresh (segments saveptr) set := by
  induction fuel generalizing set saveptr with
  | zero => cases returned
  | succ fuel ih =>
      rw [segments_eq]
      simp only [rawElemLoop, Option.getD_none] at returned
      cases found : strtok isElemSep saveptr with
      | none =>
          simp only [found] at returned
          cases returned
          rfl
      | some pair =>
          obtain ⟨rawElem, rest⟩ := pair
          simp only [found] at returned
          show _ = segmentLoop parse fresh (rawElem :: segments rest) set
          rw [segmentLoop]
          split_ifs at returned ⊢ with blank
          · exact ih returned
          · cases parsed : bfSetParseElem parse (freshElem fresh set) set (bfTrim rawElem) with
            | error e =>
                simp only [parsed] at returned
                cases returned
                rfl
            | ok set' =>
                simp only [parsed] at returned
                exact ih returned

/-- It ends, as the string gets shorter. -/
theorem rawElemLoop_rest_returns (enough : saveptr.length < fuel) :
    rawElemLoop parse fresh fuel set none saveptr =
      some (segmentLoop parse fresh (segments saveptr) set) := by
  have returns : ∃ result, rawElemLoop parse fresh fuel set none saveptr = some result := by
    induction fuel generalizing set saveptr with
    | zero => omega
    | succ fuel ih =>
        simp only [rawElemLoop, Option.getD_none]
        cases found : strtok isElemSep saveptr with
        | none => exact ⟨_, rfl⟩
        | some pair =>
            obtain ⟨rawElem, rest⟩ := pair
            have shorter := Cstr.strtok_length found
            show ∃ result, (if bfTrim rawElem = [] then _ else _) = some result
            split_ifs with blank
            · exact ih (by omega)
            · cases bfSetParseElem parse (freshElem fresh set) set (bfTrim rawElem) with
              | error e => exact ⟨_, rfl⟩
              | ok set' => exact ih (by omega)
  obtain ⟨result, returned⟩ := returns
  rw [returned, rawElemLoop_rest returned]

/-- A buffer given again after a blank segment yields that segment again. -/
theorem strtok_again {rawElem rest : List Char} (found : strtok isElemSep buf = some (rawElem, rest)) :
    strtok isElemSep (buf.takeWhile isElemSep ++ rawElem) = some (rawElem, []) ∧
      (buf.takeWhile isElemSep ++ rawElem).takeWhile isElemSep = buf.takeWhile isElemSep := by
  obtain ⟨some, plain, -⟩ := Cstr.strtok_some found
  have seps : ∀ c ∈ buf.takeWhile isElemSep, isElemSep c = true := fun c => List.mem_takeWhile_imp
  obtain ⟨c, cs, rfl⟩ := List.exists_cons_of_ne_nil some
  have stop : ¬ isElemSep c = true := Bool.eq_false_iff.mp (plain c (List.mem_cons_self ..))
  refine ⟨?_, ?_⟩
  · have whole := Cstr.strtok_whole some plain
    have dropped : (buf.takeWhile isElemSep ++ c :: cs).dropWhile isElemSep =
        (c :: cs).dropWhile isElemSep := List.dropWhile_append_of_pos seps
    rw [strtok, dropped]
    exact whole
  · rw [List.takeWhile_append_of_pos seps, List.takeWhile_cons_of_neg stop, List.append_nil]

/-- **A blank first segment comes back for ever.** -/
theorem rawElemLoop_blank {rawElem rest : List Char}
    (found : strtok isElemSep buf = some (rawElem, rest)) (blank : bfTrim rawElem = []) :
    rawElemLoop parse fresh fuel set (some buf) saveptr = none := by
  induction fuel generalizing buf saveptr rest with
  | zero => rfl
  | succ fuel ih =>
      obtain ⟨again, -⟩ := strtok_again found
      simp only [rawElemLoop, Option.getD_some, found, if_pos blank, Option.map_some]
      exact ih again

/-- The loop on the whole payload, unless its first segment is blank. -/
theorem rawElemLoop_first
    (plain : ∀ rawElem ∈ (segments rawPayload).head?, bfTrim rawElem ≠ []) :
    (rawElemLoop parse fresh fuel set (some rawPayload) saveptr = some result →
        result = segmentLoop parse fresh (segments rawPayload) set) ∧
      (rawPayload.length + 1 < fuel →
        rawElemLoop parse fresh fuel set (some rawPayload) saveptr =
          some (segmentLoop parse fresh (segments rawPayload) set)) := by
  rw [segments_eq] at plain ⊢
  cases fuel with
  | zero => exact ⟨nofun, fun h => absurd h (by omega)⟩
  | succ fuel =>
      simp only [rawElemLoop, Option.getD_some]
      cases found : strtok isElemSep rawPayload with
      | none =>
          refine ⟨fun returned => ?_, fun _ => rfl⟩
          cases returned
          rfl
      | some pair =>
          obtain ⟨rawElem, rest⟩ := pair
          rw [found] at plain
          have some := plain rawElem rfl
          have shorter := Cstr.strtok_length found
          simp only [segmentLoop, if_neg some]
          cases bfSetParseElem parse (freshElem fresh set) set (bfTrim rawElem) with
          | error e =>
              refine ⟨fun returned => ?_, fun _ => rfl⟩
              cases returned
              rfl
          | ok set' =>
              exact ⟨rawElemLoop_rest, fun enough => rawElemLoop_rest_returns (by omega)⟩

end Loop

/-! ## Termination -/

/-- The first segment of a payload is blank. -/
def BlankStart (rawPayload : List Char) : Prop :=
  ∃ rawElem ∈ (segments rawPayload).head?, bfTrim rawElem = []

theorem strtok_of_blankStart {rawPayload : List Char} (blank : BlankStart rawPayload) :
    ∃ rawElem rest, strtok isElemSep rawPayload = some (rawElem, rest) ∧ bfTrim rawElem = [] := by
  obtain ⟨rawElem, first, blank⟩ := blank
  rw [segments_eq] at first
  cases found : strtok isElemSep rawPayload with
  | none =>
      rw [found] at first
      cases first
  | some pair =>
      obtain ⟨t, rest⟩ := pair
      rw [found] at first
      cases first
      exact ⟨_, rest, rfl, blank⟩

section Runs

variable {parse : ParseOps} {fresh : Nat → Nat → Byte} {fuel : Nat} {name : Option String}
  {rawKey rawPayload : List Char} {key : List BfMatcherType}

/-- What is not a key is refused before the payload is looked at. -/
theorem bfSetNewFromRaw_refused (refused : ¬ ∃ key, KeyText rawKey key) :
    ∃ e, bfSetNewFromRaw parse fresh fuel name rawKey rawPayload = some (.error e) := by
  cases parsed : bfSetParseKey rawKey with
  | error e => exact ⟨e, by simp only [bfSetNewFromRaw, parsed]⟩
  | ok key =>
      cases made : bfSetNew name key with
      | error e => exact ⟨e, by simp only [bfSetNewFromRaw, parsed, made]⟩
      | ok set =>
          obtain ⟨key', text, -⟩ := newSet_ok_iff.mp ⟨key, parsed, made⟩
          exact absurd ⟨key', text⟩ refused

/-- A key starts the loop with the empty set of its components. -/
theorem bfSetNewFromRaw_keyed (text : KeyText rawKey key) (parse : ParseOps)
    (fresh : Nat → Nat → Byte) (name : Option String) (rawPayload : List Char) :
    ∃ set, bfSetNew name key = .ok set ∧ ∀ fuel,
      bfSetNewFromRaw parse fresh fuel name rawKey rawPayload =
        rawElemLoop parse fresh fuel set (some rawPayload) [] := by
  obtain ⟨set, made⟩ := bfSetNew_of_accepted text.2 name
  obtain ⟨key', parsed, made'⟩ := newSet_ok_iff.mpr ⟨key, text, made⟩
  refine ⟨set, made, fun fuel => ?_⟩
  simp only [bfSetNewFromRaw, parsed, made']

/-- Without a blank first segment the loop goes through the segments, once each. -/
theorem bfSetNewFromRaw_plain (text : KeyText rawKey key) (plain : ¬ BlankStart rawPayload)
    (parse : ParseOps) (fresh : Nat → Nat → Byte) (name : Option String) :
    ∃ set, bfSetNew name key = .ok set ∧
      (∀ {fuel result}, bfSetNewFromRaw parse fresh fuel name rawKey rawPayload = some result →
        segmentLoop parse fresh (segments rawPayload) set = result) ∧
      bfSetNewFromRaw parse fresh (rawPayload.length + 2) name rawKey rawPayload =
        some (segmentLoop parse fresh (segments rawPayload) set) := by
  obtain ⟨set, made, runs⟩ := bfSetNewFromRaw_keyed text parse fresh name rawPayload
  have first : ∀ rawElem ∈ (segments rawPayload).head?, bfTrim rawElem ≠ [] :=
    fun rawElem first blank => plain ⟨rawElem, first, blank⟩
  refine ⟨set, made, fun {fuel result} returned => ?_, ?_⟩
  · rw [runs] at returned
    exact ((rawElemLoop_first first).1 returned).symm
  · rw [runs]
    exact (@rawElemLoop_first parse fresh (rawPayload.length + 2) set [] rawPayload
      (.error .einval) first).2 (by omega)

/-- With a key and a blank first segment no amount of fuel is enough. -/
theorem neverReturns_iff : (∀ fuel,
    bfSetNewFromRaw parse fresh fuel name rawKey rawPayload = none) ↔
      (∃ key, KeyText rawKey key) ∧ BlankStart rawPayload := by
  constructor
  · intro never
    by_cases keyed : ∃ key, KeyText rawKey key
    swap
    · obtain ⟨e, returned⟩ := @bfSetNewFromRaw_refused parse fresh 0 name rawKey rawPayload keyed
      rw [never] at returned
      cases returned
    refine ⟨keyed, Classical.byContradiction fun plain => ?_⟩
    obtain ⟨key, text⟩ := keyed
    obtain ⟨set, -, -, returned⟩ := bfSetNewFromRaw_plain text plain parse fresh name
    rw [never] at returned
    cases returned
  · rintro ⟨⟨key, text⟩, blank⟩ fuel
    obtain ⟨set, -, runs⟩ := bfSetNewFromRaw_keyed text parse fresh name rawPayload
    obtain ⟨rawElem, rest, found, none⟩ := strtok_of_blankStart blank
    rw [runs, rawElemLoop_blank found none]

end Runs

/-- **Termination.**  Parsing returns unless the key is accepted and the first segment of the
payload is blank. -/
theorem bfSetNewFromRaw_returns_iff (parse : ParseOps) (fresh : Nat → Nat → Byte)
    (name : Option String) (rawKey rawPayload : List Char) :
    (∃ fuel, (bfSetNewFromRaw parse fresh fuel name rawKey rawPayload).isSome = true) ↔
      ¬ ((∃ key, KeyText rawKey key) ∧ BlankStart rawPayload) := by
  rw [← @neverReturns_iff parse fresh name, not_forall]
  simp only [Option.isSome_iff_ne_none, ne_eq]

/-- `(ip4.saddr) in { }` is cut for ever. -/
theorem blankSet_never_returns :
    ¬ ∃ fuel, (bfSetNewFromRaw (setParseOps plainNames) (fun _ _ => 0) fuel none
      "(ip4.saddr)".toList "{ }".toList).isSome = true := by
  rintro ⟨fuel, returned⟩
  have key : bfSetParseKey "(ip4.saddr)".toList = .ok [.ip4Saddr] := by decide
  have made : bfSetNew none [.ip4Saddr] = .ok ⟨none, [.ip4Saddr], 4, [], false⟩ := rfl
  have found : strtok isElemSep "{ }".toList = some ([' '], []) := by decide
  rw [bfSetNewFromRaw, key] at returned
  simp only [made, rawElemLoop_blank found (by decide)] at returned
  cases returned

/-! ## What is parsed -/

theorem parsedSize_le {type : BfMatcherType} (supported : (bfMatcherGetOps type .inSet).isSome) :
    parsedSize type ≤ componentSize type := by
  cases type <;> first
    | decide
    | exact absurd supported (by decide)

section Elements

variable {parse : ParseOps} {fresh : Nat → Nat → Byte} {key : List BfMatcherType}

/-- An element is as long as its key says. -/
theorem ElemOf.length {tokens : List (List Char)} {elem : List Byte}
    (laid : ElemOf parse key tokens elem) : elem.length = keySize key := by
  induction laid with
  | nil => rfl
  | cons parsed size rest ih =>
      rw [List.length_append, List.length_append, size, ih]
      rfl

theorem parseComponents_ok {tokens : List (List Char)} {offset : Nat} {buf buf' : List Byte}
    (supported : ∀ type ∈ key, (bfMatcherGetOps type .inSet).isSome)
    (size : buf.length = offset + keySize key)
    (ok : parseComponents parse key tokens offset buf = .ok buf') :
    ∃ elem, ElemOf parse key tokens elem ∧ buf' = buf.take offset ++ elem := by
  induction key generalizing tokens offset buf with
  | nil =>
      cases tokens with
      | nil =>
          cases ok
          refine ⟨[], .nil, ?_⟩
          rw [List.append_nil, List.take_of_length_le]
          rw [size]
          exact Nat.le_refl _
      | cons _ _ => cases ok
  | cons type key ih =>
      cases tokens with
      | nil => cases ok
      | cons token tokens =>
          have supports := supported type (List.mem_cons_self ..)
          obtain ⟨n, ops⟩ := Option.isSome_iff_exists.mp supports
          have sizeN : componentSize type = n := by rw [componentSize, ops, Option.getD_some]
          have total : keySize (type :: key) = n + keySize key := by simp [keySize, sizeN]
          simp only [parseComponents, ops] at ok
          cases parsed : parse type (bfTrim token) with
          | error e => simp [parsed] at ok
          | ok bytes =>
              simp only [parsed] at ok
              have narrow : bytes.val.length ≤ n := by
                rw [bytes.property, ← sizeN]
                exact parsedSize_le supports
              let pad := (buf.drop (offset + bytes.val.length)).take (n - bytes.val.length)
              have padSize : pad.length = n - bytes.val.length := by
                simp only [pad, List.length_take, List.length_drop]
                omega
              have before : (buf.take offset ++ bytes.val).length = offset + bytes.val.length := by
                rw [List.length_append, List.length_take, Nat.min_eq_left (by omega)]
              have written : (writeAt buf offset bytes).length = offset + n + keySize key := by
                simp only [writeAt, List.length_append, List.length_take, List.length_drop]
                omega
              have kept : (writeAt buf offset bytes).take (offset + n) =
                  buf.take offset ++ bytes.val ++ pad := by
                rw [writeAt, List.take_append, before, List.take_of_length_le (by omega),
                  show offset + n - (offset + bytes.val.length) = n - bytes.val.length by omega]
              obtain ⟨elem, laid, whole⟩ := ih
                (fun t mem => supported t (List.mem_cons_of_mem _ mem)) written ok
              refine ⟨bytes.val ++ pad ++ elem, .cons parsed (by omega) laid, ?_⟩
              rw [whole, kept]
              simp only [List.append_assoc]

/-- A key accepts its components whatever the buffer held. -/
theorem parseComponents_isOk_iff {tokens : List (List Char)} {offset : Nat} {buf : List Byte}
    (supported : ∀ type ∈ key, (bfMatcherGetOps type .inSet).isSome) :
    (∃ buf', parseComponents parse key tokens offset buf = .ok buf') ↔
      List.Forall₂ (fun type token => ∃ bytes, parse type (bfTrim token) = .ok bytes) key
        tokens := by
  induction key generalizing tokens offset buf with
  | nil =>
      cases tokens with
      | nil => exact iff_of_true ⟨_, rfl⟩ .nil
      | cons token tokens => simp [parseComponents]
  | cons type key ih =>
      cases tokens with
      | nil => simp [parseComponents]
      | cons token tokens =>
          obtain ⟨n, ops⟩ := Option.isSome_iff_exists.mp (supported type (List.mem_cons_self ..))
          rw [List.forall₂_cons]
          simp only [parseComponents, ops]
          cases parsed : parse type (bfTrim token) with
          | error e => simp
          | ok bytes =>
              have tail := @ih tokens (offset + n) (writeAt buf offset bytes)
                (fun t mem => supported t (List.mem_cons_of_mem _ mem))
              exact tail.trans ⟨fun all => ⟨⟨bytes, rfl⟩, all⟩, And.right⟩

/-- One element is parsed when it has the components of the key, and is appended. -/
theorem bfSetParseElem_spec {set : BfSet} {seg : List Char}
    (supported : ∀ type ∈ set.key, (bfMatcherGetOps type .inSet).isSome)
    (size : set.elemSize = keySize set.key) :
    ((∃ set', bfSetParseElem parse (freshElem fresh set) set seg = .ok set') ↔
        ElemText parse set.key seg) ∧
      ∀ set', bfSetParseElem parse (freshElem fresh set) set seg = .ok set' →
        ∃ elem, set' = { set with elems := set.elems ++ [elem] } ∧
          ElemOf parse set.key (strtokR [','] seg) elem := by
  have length : (freshElem fresh set).length = 0 + keySize set.key := by
    rw [freshElem, List.length_map, List.length_range, size, Nat.zero_add]
  have accepts := @parseComponents_isOk_iff parse set.key (strtokR [','] seg) 0
    (freshElem fresh set) supported
  unfold bfSetParseElem
  cases parsed : parseComponents parse set.key (strtokR [','] seg) 0 (freshElem fresh set) with
  | error e =>
      rw [parsed] at accepts
      refine ⟨?_, fun _ ok => nomatch ok⟩
      exact iff_of_false (fun h => nomatch h.choose_spec)
        fun text => nomatch (accepts.mpr text).choose_spec
  | ok elem =>
      obtain ⟨elem', laid, whole⟩ := parseComponents_ok supported length parsed
      rw [List.take_zero, List.nil_append] at whole
      subst whole
      refine ⟨iff_of_true ⟨_, rfl⟩ (accepts.mp ⟨_, parsed⟩), ?_⟩
      intro set' ok
      cases ok
      exact ⟨elem, rfl, laid⟩

/-- The loop over segments succeeds when all that are not blank do, and appends an element for
each of them. -/
theorem segmentLoop_spec {segs : List (List Char)} {set : BfSet}
    (supported : ∀ type ∈ set.key, (bfMatcherGetOps type .inSet).isSome)
    (size : set.elemSize = keySize set.key) :
    ((∃ set', segmentLoop parse fresh segs set = .ok set') ↔
        ∀ seg ∈ (segs.map bfTrim).filter (· ≠ []), ElemText parse set.key seg) ∧
      ∀ set', segmentLoop parse fresh segs set = .ok set' →
        ∃ elems, set' = { set with elems := set.elems ++ elems } ∧
          List.Forall₂ (fun seg elem => ElemOf parse set.key (strtokR [','] seg) elem)
            ((segs.map bfTrim).filter (· ≠ [])) elems := by
  induction segs generalizing set with
  | nil =>
      refine ⟨iff_of_true ⟨_, rfl⟩ (fun seg mem => nomatch mem), ?_⟩
      intro set' ok
      cases ok
      exact ⟨[], by simp, .nil⟩
  | cons rawElem segs ih =>
      rw [List.map_cons]
      by_cases blank : bfTrim rawElem = []
      · have skips : (bfTrim rawElem :: segs.map bfTrim).filter (· ≠ []) =
            (segs.map bfTrim).filter (· ≠ []) := List.filter_cons_of_neg (by simp [blank])
        rw [skips]
        simp only [segmentLoop, if_pos blank]
        exact ih supported size
      · have keeps : (bfTrim rawElem :: segs.map bfTrim).filter (· ≠ []) =
            bfTrim rawElem :: (segs.map bfTrim).filter (· ≠ []) :=
          List.filter_cons_of_pos (by simp [blank])
        rw [keeps]
        simp only [segmentLoop, if_neg blank]
        obtain ⟨accepts, appends⟩ :=
          @bfSetParseElem_spec parse fresh set (bfTrim rawElem) supported size
        cases parsed : bfSetParseElem parse (freshElem fresh set) set (bfTrim rawElem) with
        | error e =>
            rw [parsed] at accepts
            refine ⟨iff_of_false (fun h => nomatch h.choose_spec) ?_, fun _ ok => nomatch ok⟩
            intro all
            exact nomatch (accepts.mpr (all _ (List.mem_cons_self ..))).choose_spec
        | ok next =>
            obtain ⟨elem, rfl, laid⟩ := appends next parsed
            obtain ⟨restAccepts, restAppends⟩ :=
              @ih { set with elems := set.elems ++ [elem] } supported size
            have first := accepts.mp ⟨_, parsed⟩
            refine ⟨?_, ?_⟩
            · refine restAccepts.trans ⟨fun all seg mem => ?_, fun all seg mem => ?_⟩
              · rcases List.mem_cons.mp mem with rfl | mem
                · exact first
                · exact all seg mem
              · exact all seg (List.mem_cons_of_mem _ mem)
            · intro set' ok
              obtain ⟨elems, rfl, laidAll⟩ := restAppends set' ok
              exact ⟨elem :: elems, by simp, .cons laid laidAll⟩

end Elements

/-- Two keys are read from different texts. -/
theorem KeyText.unique {rawKey : List Char} {key key' : List BfMatcherType}
    (text : KeyText rawKey key) (text' : KeyText rawKey key') : key = key' := by
  refine List.map_injective_iff.mpr ?_ (text.1.symm.trans text'.1)
  intro a b same
  have read := bfMatcherTypeFromStr_eq_some.mpr same
  rw [bfMatcherTypeFromStr_eq_some.mpr rfl] at read
  exact Option.some.inj read

section Made

variable {parse : ParseOps} {fresh : Nat → Nat → Byte} {fuel : Nat} {name : Option String}
  {rawKey rawPayload : List Char} {set : BfSet}

/-- The loop that a result comes from. -/
theorem bfSetNewFromRaw_inv {result : Except Errno BfSet}
    (returned : bfSetNewFromRaw parse fresh fuel name rawKey rawPayload = some result) :
    ((¬ ∃ key, KeyText rawKey key) ∧ ∃ e, result = .error e) ∨
      ∃ key empty, KeyText rawKey key ∧ bfSetNew name key = .ok empty ∧
        segmentLoop parse fresh (segments rawPayload) empty = result := by
  by_cases keyed : ∃ key, KeyText rawKey key
  swap
  · obtain ⟨e, refused⟩ := @bfSetNewFromRaw_refused parse fresh fuel name rawKey rawPayload keyed
    rw [refused] at returned
    exact .inl ⟨keyed, e, (Option.some.inj returned).symm⟩
  have plain : ¬ BlankStart rawPayload := by
    intro blank
    rw [neverReturns_iff.mpr ⟨keyed, blank⟩] at returned
    cases returned
  obtain ⟨key, text⟩ := keyed
  obtain ⟨empty, made, loops, -⟩ := bfSetNewFromRaw_plain text plain parse fresh name
  exact .inr ⟨key, empty, text, made, loops returned⟩

/-- The loop succeeds over segments with the components of the key, and appends to nothing. -/
theorem segmentLoop_of_new {key : List BfMatcherType} {empty : BfSet} {segs : List (List Char)}
    (text : KeyText rawKey key) (made : bfSetNew name key = .ok empty) :
    ((∃ set, segmentLoop parse fresh segs empty = .ok set) ↔
        ∀ seg ∈ (segs.map bfTrim).filter (· ≠ []), ElemText parse key seg) ∧
      ∀ set, segmentLoop parse fresh segs empty = .ok set →
        set.key = key ∧ set.name = name ∧ set.elemSize = keySize key ∧
          List.Forall₂ (fun seg elem => ElemOf parse key (strtokR [','] seg) elem)
            ((segs.map bfTrim).filter (· ≠ [])) set.elems := by
  obtain ⟨-, shape⟩ := bfSetNew_inv made
  have keyIs : empty.key = key := by rw [shape]
  have size : empty.elemSize = keySize empty.key := by rw [shape]
  obtain ⟨accepts, appends⟩ :=
    @segmentLoop_spec parse fresh segs empty (keyIs ▸ text.2.supported) size
  subst keyIs
  refine ⟨accepts, fun set ok => ?_⟩
  obtain ⟨elems, rfl, laid⟩ := appends set ok
  have none : empty.elems = [] := by rw [shape]
  refine ⟨rfl, by rw [shape], size, ?_⟩
  rw [none, List.nil_append]
  exact laid

/-- A set that is returned: its key, and an element for each segment. -/
theorem madeSet_spec
    (made : bfSetNewFromRaw parse fresh fuel name rawKey rawPayload = some (.ok set)) :
    KeyText rawKey set.key ∧ set.name = name ∧ set.elemSize = keySize set.key ∧
      List.Forall₂ (fun seg elem => ElemOf parse set.key (strtokR [','] seg) elem)
        (elemTexts rawPayload) set.elems := by
  rcases bfSetNewFromRaw_inv made with ⟨-, e, refused⟩ | ⟨key, empty, text, new, loops⟩
  · cases refused
  obtain ⟨rfl, named, size, laid⟩ := (segmentLoop_of_new text new).2 set loops
  exact ⟨text, named, size, laid⟩

/-- Where parsing returns, it is with a set when the payload is text of its key. -/
theorem returned_isOk_iff {result : Except Errno BfSet}
    (returned : bfSetNewFromRaw parse fresh fuel name rawKey rawPayload = some result) :
    (∃ set, result = .ok set) ↔
      ∃ key, KeyText rawKey key ∧ ∀ seg ∈ elemTexts rawPayload, ElemText parse key seg := by
  rcases bfSetNewFromRaw_inv returned with ⟨none, e, rfl⟩ | ⟨key, empty, text, new, rfl⟩
  · refine iff_of_false (fun h => nomatch h.choose_spec) ?_
    rintro ⟨key, text, -⟩
    exact none ⟨key, text⟩
  refine (segmentLoop_of_new text new).1.trans ⟨fun all => ⟨key, text, all⟩, ?_⟩
  rintro ⟨key', text', all⟩
  rw [← text'.unique text]
  exact all

end Made

/-- **The grammar of sets.**  Where parsing returns, it succeeds for an accepted key and
elements that have its components, and the set has one element for each segment that is not
blank, in order. -/
theorem bfSetNewFromRaw_grammar {parse : ParseOps} {fresh : Nat → Nat → Byte} {fuel : Nat}
    {name : Option String} {rawKey rawPayload : List Char} {result : Except Errno BfSet}
    (returned : bfSetNewFromRaw parse fresh fuel name rawKey rawPayload = some result) :
    ((∃ set, result = .ok set) ↔
        ∃ key, KeyText rawKey key ∧ ∀ seg ∈ elemTexts rawPayload, ElemText parse key seg) ∧
      ∀ set, result = .ok set →
        KeyText rawKey set.key ∧ set.name = name ∧ set.elemSize = keySize set.key ∧
          (∀ elem ∈ set.elems, elem.length = set.elemSize) ∧
          List.Forall₂ (fun seg elem => ElemOf parse set.key (strtokR [','] seg) elem)
            (elemTexts rawPayload) set.elems := by
  refine ⟨returned_isOk_iff returned, ?_⟩
  rintro set rfl
  obtain ⟨text, named, size, laid⟩ := madeSet_spec returned
  refine ⟨text, named, size, ?_, laid⟩
  intro elem mem
  obtain ⟨seg, -, here⟩ := Cstr.exists_of_forall₂ laid mem
  exact here.length.trans size.symm

/-- Two elements of an address and a port. -/
theorem addrPortSet_grammar :
    ∃ set, bfSetNewFromRaw (setParseOps plainNames) (fun _ _ => 0xaa) 9 none
        "(ip4.saddr, tcp.dport)".toList "{10.0.0.1, 80; 10.0.0.2,443}".toList = some (.ok set) ∧
      set.elems = [[10, 0, 0, 1, 0, 80], [10, 0, 0, 2, 1, 187]] ∧
      List.Forall₂ (fun seg elem => ElemOf (setParseOps plainNames) set.key (strtokR [','] seg) elem)
        (elemTexts "{10.0.0.1, 80; 10.0.0.2,443}".toList) set.elems := by
  have returned : bfSetNewFromRaw (setParseOps plainNames) (fun _ _ => 0xaa) 9 none
      "(ip4.saddr, tcp.dport)".toList "{10.0.0.1, 80; 10.0.0.2,443}".toList =
        some (.ok ⟨none, [.ip4Saddr, .tcpDport], 6,
          [[10, 0, 0, 1, 0, 80], [10, 0, 0, 2, 1, 187]], false⟩) := by decide +kernel
  obtain ⟨-, -, -, -, laid⟩ := (bfSetNewFromRaw_grammar returned).2 _ rfl
  exact ⟨_, returned, rfl, laid⟩

end Bpfilter

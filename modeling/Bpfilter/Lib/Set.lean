/-
# Lib.Set -- the layout of a set element

An element of a set is the concatenation of its components in key order.  Its
size is computed by `bf_set_new`, and `_bf_set_parse_elem` writes each component
at a running offset; `keyOffset` and `componentSize` are that layout, and
`bfSetParseElem_inv` says that a parsed element follows it.

The parse callbacks of the matcher table are a parameter: a callback returns the
bytes it writes, as many as `parsedSize` says.
-/
import Bpfilter.Cstr.Number
import Bpfilter.Lib.Chain

namespace Bpfilter

set_option autoImplicit false

open Ebpf (Byte)
open Cstr (isspace)

/-! ## Accepted keys -/

/-- `bf_matcher_get_ops(type, BF_MATCHER_IN)->ref_payload_size` -/
def componentSize (type : BfMatcherType) : Nat := (bfMatcherGetOps type .inSet).getD 0

/-- The size of an element. -/
def keySize (key : List BfMatcherType) : Nat := (key.map componentSize).sum

theorem bfSetElemSize_eq {key : List BfMatcherType} {n : Nat} (ok : bfSetElemSize key = .ok n) :
    n = keySize key ∧ ∀ type ∈ key, (bfMatcherGetOps type .inSet).isSome := by
  induction key generalizing n with
  | nil =>
      cases ok
      exact ⟨rfl, nofun⟩
  | cons type rest ih =>
      unfold bfSetElemSize at ok
      cases ops : bfMatcherGetOps type .inSet with
      | none => simp [ops] at ok
      | some size =>
          cases sizes : bfSetElemSize rest with
          | error e => simp [ops, sizes] at ok
          | ok total =>
              simp only [ops, sizes, Except.ok.injEq] at ok
              obtain ⟨sum, supported⟩ := ih sizes
              refine ⟨?_, ?_⟩
              · rw [← ok, sum]
                simp [keySize, componentSize, ops]
              · intro type' mem
                rcases List.mem_cons.mp mem with rfl | mem
                · simp [ops]
                · exact supported type' mem

/-- What `bf_set_new` makes sure of. -/
structure AcceptedKey (key : List BfMatcherType) : Prop where
  nonempty : key ≠ []
  short : key.length ≤ bfSetMaxNComps
  supported : ∀ type ∈ key, (bfMatcherGetOps type .inSet).isSome
  alone : 1 < key.length → ∀ type ∈ key, type.isNet = false

theorem bfSetNew_inv {name : Option String} {key : List BfMatcherType} {set : BfSet}
    (ok : bfSetNew name key = .ok set) :
    AcceptedKey key ∧ set =
      { name, key, elemSize := keySize key, elems := []
        useTrie := key.length == 1 && key.any (·.isNet) } := by
  unfold bfSetNew at ok
  split at ok
  · cases ok
  · rename_i some
    split at ok
    · cases ok
    · rename_i short
      cases sizes : bfSetElemSize key with
      | error e => simp [sizes] at ok
      | ok total =>
          obtain ⟨sum, supported⟩ := bfSetElemSize_eq sizes
          simp only [sizes] at ok
          split at ok
          · cases ok
          · rename_i mixed
            cases ok
            refine ⟨⟨?_, Nat.le_of_not_lt short, supported, ?_⟩, by rw [sum]⟩
            · rintro rfl
              exact some rfl
            · intro many type mem
              rw [not_and] at mixed
              have none := mixed many
              rw [Bool.not_eq_true, List.any_eq_false] at none
              exact Bool.eq_false_iff.mpr (none type mem)

/-- A key that is not looked up in a trie has no network. -/
theorem AcceptedKey.no_net {key : List BfMatcherType} (accepted : AcceptedKey key)
    (hash : (key.length == 1 && key.any (·.isNet)) = false) {type : BfMatcherType}
    (mem : type ∈ key) : type.isNet = false := by
  by_cases one : key.length = 1
  · simp only [one, beq_self_eq_true, Bool.true_and, List.any_eq_false] at hash
    exact Bool.eq_false_iff.mpr (hash type mem)
  · have pos := List.length_pos_of_ne_nil accepted.nonempty
    exact accepted.alone (by omega) type mem

/-- A key of a trie is one network. -/
theorem AcceptedKey.trie {key : List BfMatcherType}
    (trie : (key.length == 1 && key.any (·.isNet)) = true) :
    ∃ type, key = [type] ∧ type.isNet = true := by
  simp only [Bool.and_eq_true, beq_iff_eq] at trie
  obtain ⟨type, rfl⟩ := List.length_eq_one_iff.mp trie.1
  exact ⟨type, rfl, by simpa using trie.2⟩

/-- The components of a key are header fields; one that is not a network is in the header as in
the element. -/
theorem component_meta {type : BfMatcherType} (supported : (bfMatcherGetOps type .inSet).isSome) :
    ∃ info, bfMatcherGetMeta type = some info ∧
      (type.isNet = false → info.hdrPayloadSize = componentSize type) ∧
      (info.layer = .layer3 ∨ info.layer = .layer4) ∧
      info.hdrPayloadOffset + info.hdrPayloadSize ≤ 40 := by
  cases type <;> first
    | exact ⟨_, rfl, by decide, by decide, by decide⟩
    | exact absurd supported (by decide)

/-! ## Parsing an element -/

/-- `bf_trim` -/
def bfTrim (s : List Char) : List Char :=
  ((s.dropWhile isspace).reverse.dropWhile isspace).reverse

/-- The tokens of `strtok_r`: empty ones are skipped. -/
def strtokR (delims : List Char) (s : List Char) : List (List Char) :=
  (s.splitOnP (· ∈ delims)).filter (· ≠ [])

/-- The bytes a parse callback of the operator `in` writes. -/
def parsedSize : BfMatcherType → Nat
  | .ip4Saddr | .ip4Daddr => 4
  | .ip4Snet | .ip4Dnet => 8
  | .ip6Saddr | .ip6Daddr => 16
  | .ip6Snet | .ip6Dnet => 20
  | .tcpSport | .tcpDport | .udpSport | .udpDport => 2
  | _ => 1

/-- `ops->parse` for the operator `in`: the bytes written to the payload. -/
abbrev ParseOps :=
  (type : BfMatcherType) → List Char →
    Except Errno { bytes : List Byte // bytes.length = parsedSize type }

/-- Overwrite part of a buffer. -/
def writeAt (buf : List Byte) (offset : Nat) (bytes : List Byte) : List Byte :=
  buf.take offset ++ bytes ++ buf.drop (offset + bytes.length)

/-- The token loop of `_bf_set_parse_elem`, over what is left of the key. -/
def parseComponents (parse : ParseOps) :
    List BfMatcherType → List (List Char) → Nat → List Byte → Except Errno (List Byte)
  | [], [], _, elem => .ok elem
  | [], _ :: _, _, _ => .error .einval
  | _ :: _, [], _, _ => .error .einval
  | type :: key, token :: tokens, offset, elem =>
      match bfMatcherGetOps type .inSet with
      | none => .error .einval
      | some size =>
          match parse type (bfTrim token) with
          | .error e => .error e
          | .ok bytes => parseComponents parse key tokens (offset + size) (writeAt elem offset bytes)

/-- `_bf_set_parse_elem`; `fresh` is what `malloc` returned. -/
def bfSetParseElem (parse : ParseOps) (fresh : List Byte) (set : BfSet) (rawElem : List Char) :
    Except Errno BfSet :=
  match parseComponents parse set.key (strtokR [','] rawElem) 0 fresh with
  | .error e => .error e
  | .ok elem => .ok { set with elems := set.elems ++ [elem] }

/-- Two writes one after the other. -/
theorem writeAt_writeAt {buf first second : List Byte} {offset : Nat}
    (fits : offset + first.length ≤ buf.length) :
    writeAt (writeAt buf offset first) (offset + first.length) second =
      writeAt buf offset (first ++ second) := by
  have before : (buf.take offset ++ first).length = offset + first.length := by
    rw [List.length_append, List.length_take, Nat.min_eq_left (by omega)]
  unfold writeAt
  rw [List.take_left' before, List.drop_append, before, List.drop_of_length_le (by omega),
    List.nil_append, Nat.add_sub_cancel_left, List.drop_drop, List.length_append]
  simp only [List.append_assoc, Nat.add_assoc]

theorem length_writeAt {buf bytes : List Byte} {offset : Nat}
    (fits : offset + bytes.length ≤ buf.length) :
    (writeAt buf offset bytes).length = buf.length := by
  simp only [writeAt, List.length_append, List.length_take, List.length_drop]
  omega

theorem take_writeAt {buf bytes : List Byte} {offset : Nat} (inside : offset ≤ buf.length) :
    (writeAt buf offset bytes).take (offset + bytes.length) = buf.take offset ++ bytes := by
  have before : (buf.take offset ++ bytes).length = offset + bytes.length := by
    rw [List.length_append, List.length_take, Nat.min_eq_left inside]
  rw [writeAt, List.take_left' before]

theorem parsedSize_eq {type : BfMatcherType} (supported : (bfMatcherGetOps type .inSet).isSome)
    (plain : type.isNet = false) : parsedSize type = componentSize type := by
  cases type <;> first
    | decide
    | exact absurd supported (by decide)
    | exact absurd plain (by decide)

end Bpfilter

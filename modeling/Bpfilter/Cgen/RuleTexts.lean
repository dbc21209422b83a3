/-
# Cgen.RuleTexts -- a set is a choice between equalities

A matcher that is made of a text is one the code generator supports (`supported_of_text`).
The text of a set lists elements, and every element has a text for each component of the
key.  The same texts are payloads of `eq` matchers.  A set matcher holds for the packets
for which, for some element, all these `eq` matchers hold (`setText_holds_iff`), so a set
with one element can be written out (`singletons_written_out`).

`ip6.nexthdr` is left out: as a component of a set it is the byte of the IPv6 header, and
as a matcher of its own it is what the walk over the extension headers found.
-/
import Bpfilter.Cgen.Verdict
import Bpfilter.Lib.SetPrint

namespace Bpfilter

set_option autoImplicit false

open Ebpf

variable {chain : BfChain} {v : PacketView} {type : BfMatcherType} {payload bytes pad : List Byte}

/-! ## Payloads -/

section Payloads

variable {names : Names} {fresh : Nat → Byte} {op : BfMatcherOp} {s : List Char} {m : BfMatcher}
  {size : Nat} {ops : PayloadOps}

/-- A matcher that is made of a text. -/
theorem bfMatcherNewFromRaw_inv (made : bfMatcherNewFromRaw names fresh type op s = .ok m) :
    ∃ size ops bytes, bfMatcherGetOps type op = some size ∧
      bfMatcherGetTextOps names type op = some ops ∧ ops.parse s = .ok bytes ∧
      m = ⟨type, op, bytes ++ ((List.range size).map fresh).drop bytes.length⟩ := by
  unfold bfMatcherNewFromRaw at made
  split at made
  · next size ops sized text =>
      split at made
      · cases made
      · next bytes parsed =>
          cases made
          exact ⟨size, ops, bytes, sized, text, parsed, rfl⟩
  · cases made

theorem bfParseIfaceText_length (parsed : bfParseIfaceText names s = .ok bytes) :
    bytes.length = 4 := by
  unfold bfParseIfaceText bfParseIface at parsed
  split_ifs at parsed <;>
    · cases parsed
      rfl

theorem bfParseL3ProtoText_length (parsed : bfParseL3ProtoText s = .ok bytes) :
    bytes.length = 2 := by
  unfold bfParseL3ProtoText bfParseL3Proto at parsed
  split at parsed
  · cases parsed
    rfl
  · split_ifs at parsed <;>
      · cases parsed
        rfl

theorem bfParseL4PortRangeText_length (parsed : bfParseL4PortRangeText s = .ok bytes) :
    bytes.length = 4 := by
  simp only [bfParseL4PortRangeText] at parsed
  split at parsed
  · cases parsed
  · split at parsed
    · cases parsed
    · split at parsed
      · cases parsed
      · rw [(bfParseL4PortRange_inv parsed).2.2]
        rfl

theorem bfParseTcpFlags_length (parsed : bfParseTcpFlags s = .ok bytes) : bytes.length = 1 := by
  unfold bfParseTcpFlags at parsed
  cases flags : tcpFlagsLoop (Cstr.tokens (· = ',') s) 0 with
  | error e =>
      rw [flags] at parsed
      cases parsed
  | ok b =>
      rw [flags] at parsed
      cases parsed
      rfl

/-- How much of a payload of this size the parser of a type writes: one byte of a transport
protocol, and the prefix length and the address of an IPv6 network. -/
def writtenSize (type : BfMatcherType) (size : Nat) : Nat :=
  match type with
  | .metaL4Proto => 1
  | .ip6Snet | .ip6Dnet => 20
  | _ => size

/-- The parsers of the table write the payloads of the table. -/
theorem parsed_length (sized : bfMatcherGetOps type op = some size)
    (text : bfMatcherGetTextOps names type op = some ops) (parsed : ops.parse s = .ok bytes)
    (plain : op ≠ .inSet) : bytes.length = writtenSize type size := by
  cases type <;> cases op <;> cases text <;> cases sized <;> first
    | exact absurd rfl plain
    | exact bfParseIfaceText_length parsed
    | exact bfParseL3ProtoText_length parsed
    | exact bfParseL4ProtoText_length parsed
    | exact bfParseL4PortText_length parsed
    | exact bfParseL4PortRangeText_length parsed
    | exact congrArg List.length (bfParseProbability_inv parsed).2
    | exact congrArg List.length (bfParseMark_inv parsed).2.2
    | exact bfParseAddr_length names.inet4 parsed
    | exact bfParseAddr_length names.inet6 parsed
    | exact bfParseNet_length names.inet4 parsed
    | exact bfParseNet_length names.inet6 parsed
    | exact bfParseTcpFlags_length parsed
    | exact bfParseNamedByte_length parsed
    | exact bfParseByte_length parsed

theorem writtenSize_le (sized : bfMatcherGetOps type op = some size) :
    writtenSize type size ≤ size := by
  cases type <;> cases op <;> cases sized <;> decide

/-- A network is read back from the payload. -/
theorem netText_fits (net : type.isNet = true) (text : bfMatcherGetTextOps names type op = some ops)
    (parsed : ops.parse s = .ok bytes) (pad : List Byte) :
    ((⟨type, op, bytes ++ pad⟩ : BfMatcher).payloadU32 0).toNat ≤
      (⟨type, op, bytes ++ pad⟩ : BfMatcher).addrBits := by
  have reads : ∀ {len textLen limit : Nat} {start : Char → Bool} (inet : Inet len textLen start)
      {room : Nat}, bfParseNet room start limit inet.pton s = .ok bytes →
        ((⟨type, op, bytes ++ pad⟩ : BfMatcher).payloadU32 0).toNat ≤ limit := by
    intro len textLen limit start inet room accepted
    obtain ⟨prefixlen, addr, rfl, -, fits⟩ := bfParseNet_inv inet accepted
    have first : ((leBytes32 prefixlen ++ addr ++ pad).drop (4 * 0)).take 4 =
        leBytes32 prefixlen := by
      rw [List.append_assoc]
      exact List.take_left' rfl
    rw [BfMatcher.payloadU32, first, leBits_leBytes32]
    exact fits
  cases type <;> first
    | exact absurd net (by decide)
    | cases op <;> cases text <;> first
        | exact reads names.inet4 parsed
        | exact reads names.inet6 parsed

/-- **Texts** make matchers that are supported, on the flavors that have the mark of a packet. -/
theorem supported_of_text (made : bfMatcherNewFromRaw names fresh type op s = .ok m)
    (plain : op ≠ .inSet) (marks : type = .metaMark → bfHookToFlavor chain.hook ≠ .xdp) :
    m.Supported chain := by
  obtain ⟨size, ops, bytes, sized, text, parsed, rfl⟩ := bfMatcherNewFromRaw_inv made
  have short := (parsed_length sized text parsed plain).trans_le (writtenSize_le sized)
  refine ⟨fun _ => ⟨plain, ?_⟩, fun is => ?_, fun net => ?_, marks, fun is => ?_⟩
  · rw [sized]
    refine congrArg some ?_
    simp only [List.length_append, List.length_drop, List.length_map, List.length_range]
    omega
  · obtain rfl : type = .metaProbability := is
    cases op <;> cases text
    obtain ⟨percent, rfl⟩ := bfParseProbability_inv parsed
    rw [List.singleton_append, payloadU8_cons, BitVec.toNat_ofNat]
    exact (Nat.mod_le _ _).trans percent
  · exact netText_fits net text parsed _
  · obtain rfl : type = .set := is
    cases sized

/-- Matchers do not read the bytes of a payload that no parser writes. -/
theorem holds_pad {chain' : BfChain} {pad' : List Byte}
    (written : bytes.length = writtenSize type size)
    (length : bytes.length + pad.length = size) (length' : bytes.length + pad'.length = size)
    (plain : type ≠ .set) : BfMatcher.holds chain ⟨type, op, bytes ++ pad⟩ v =
      BfMatcher.holds chain' ⟨type, op, bytes ++ pad'⟩ v := by
  have whole : bytes.length = size → pad = [] ∧ pad' = [] := fun all =>
    ⟨List.eq_nil_of_length_eq_zero (by omega), List.eq_nil_of_length_eq_zero (by omega)⟩
  have first : bytes.length = 1 → (⟨type, op, bytes ++ pad⟩ : BfMatcher).payloadU8 =
      (⟨type, op, bytes ++ pad'⟩ : BfMatcher).payloadU8 := fun one => by
    rw [BfMatcher.payloadU8, BfMatcher.payloadU8, List.take_left' one, List.take_left' one]
  have network : type.isNet = true → bytes.length = 20 →
      (⟨type, op, bytes ++ pad⟩ : BfMatcher).addrTest .v6 =
        (⟨type, op, bytes ++ pad'⟩ : BfMatcher).addrTest .v6 := fun net all => by
    have addr : ∀ q, ((bytes ++ q).drop 4).takeD IpVersion.v6.size 0 = bytes.drop 4 := fun q => by
      have size : (bytes.drop 4).length = IpVersion.v6.size := by
        rw [List.length_drop, all]
        rfl
      rw [List.drop_append_of_le_length (by omega), List.takeD_eq_take _ (by simp [size]),
        List.take_left' size]
    have prefixlen : ∀ q, (⟨type, op, bytes ++ q⟩ : BfMatcher).payloadU32 0 =
        leBits 32 (bytes.take 4) := fun q => by
      rw [BfMatcher.payloadU32]
      exact congrArg _ (List.take_append_of_le_length (by omega))
    simp only [BfMatcher.addrTest, net, if_true, addr, prefixlen]
  cases type with
  | metaL4Proto => simp only [BfMatcher.holds, first written]
  | ip6Snet => simp only [BfMatcher.holds, BfMatcher.fieldTest, network rfl written]
  | ip6Dnet => simp only [BfMatcher.holds, BfMatcher.fieldTest, network rfl written]
  | set => exact absurd rfl plain
  | _ =>
      obtain ⟨rfl, rfl⟩ := whole written
      rfl

/-- What a text asks does not depend on the memory its matcher is made in. -/
theorem holds_made {chain' : BfChain} {fresh' : Nat → Byte} {m' : BfMatcher}
    (made : bfMatcherNewFromRaw names fresh type op s = .ok m)
    (made' : bfMatcherNewFromRaw names fresh' type op s = .ok m') (plain : op ≠ .inSet) :
    m.holds chain v = m'.holds chain' v := by
  obtain ⟨size, ops, bytes, sized, text, parsed, rfl⟩ := bfMatcherNewFromRaw_inv made
  obtain ⟨size', ops', bytes', sized', text', parsed', rfl⟩ := bfMatcherNewFromRaw_inv made'
  cases sized.symm.trans sized'
  cases text.symm.trans text'
  cases parsed.symm.trans parsed'
  have written := parsed_length sized text parsed plain
  have short := writtenSize_le sized
  have fills : ∀ fresh : Nat → Byte,
      bytes.length + (((List.range size).map fresh).drop bytes.length).length = size := by
    intro fresh
    rw [List.length_drop, List.length_map, List.length_range]
    omega
  refine holds_pad written (fills fresh) (fills fresh') ?_
  rintro rfl
  cases sized

end Payloads

/-! ## Equalities -/

/-- The field of a packet is what a payload asks for: the same bytes, or the first bits of a
network. -/
def FieldAgrees (type : BfMatcherType) (payload field : List Byte) : Prop :=
  if type.isNet then prefixCovers payload field else field = payload

/-- A prefix of a trie covers the addresses its test agrees with. -/
theorem prefixCovers_iff_agrees {ip : IpVersion} {t : AddrTest ip} {n : Fin (8 * ip.size + 1)}
    (net : t.prefixlen = some n) (pad : List Byte) {addr : List Byte}
    (sized : addr.length = ip.size) :
    prefixCovers (t.payload ++ pad) addr ↔ t.Agrees addr := by
  have top : 8 * ip.size + 1 < 2 ^ 32 := by cases ip <;> decide
  have bytes : t.payload ++ pad = leBytes32 (BitVec.ofNat 32 n.val) ++ (t.addr ++ pad) := by
    rw [AddrTest.payload, net, List.append_assoc]
  have prefixlen : lpmPrefixlen (t.payload ++ pad) = n.val := by
    have head : (leBytes32 (BitVec.ofNat 32 n.val) ++ (t.addr ++ pad)).take 4 =
        leBytes32 (BitVec.ofNat 32 n.val) := List.take_left' rfl
    rw [lpmPrefixlen, bytes, head, leBits_leBytes32, BitVec.toNat_ofNat,
      Nat.mod_eq_of_lt (by have := n.isLt; omega)]
  have data : (t.payload ++ pad).drop 4 = t.addr ++ pad := by
    rw [bytes]
    rfl
  have fits : n.val ≤ 8 * ip.size := Nat.lt_succ_iff.mp n.isLt
  rw [prefixCovers, prefixlen, data, sized, and_iff_right fits, AddrTest.Agrees, AddrTest.bits, net]
  have inside : ∀ i < n.val, addrBit (t.addr ++ pad) i = addrBit t.addr i :=
    fun i below => addrBit_append (by rw [t.sized]; omega)
  constructor
  · intro covers i below
    rw [← covers i below, inside i below]
  · intro agrees i below
    rw [agrees i below, inside i below]

/-- A matcher of a whole address compares the bytes. -/
theorem wholeAgrees_iff {ip : IpVersion} (plain : type.isNet = false)
    (length : payload.length = ip.size) {field : List Byte} (sized : field.length = ip.size) :
    ((⟨type, .eq, payload⟩ : BfMatcher).addrTest ip).Agrees field ↔
      FieldAgrees type payload field := by
  have whole : ((⟨type, .eq, payload⟩ : BfMatcher).addrTest ip).prefixlen = none := by
    simp only [BfMatcher.addrTest, plain, Bool.false_eq_true, if_false]
  have bytes := @addrTest_whole .eq payload type ip plain length
  rw [AddrTest.payload, whole] at bytes
  simp only at bytes
  rw [← AddrTest.agrees_whole whole sized, bytes, FieldAgrees, plain, if_neg Bool.false_ne_true]

/-- A matcher of a network compares the first bits. -/
theorem netAgrees_iff {ip : IpVersion} (net : type.isNet = true)
    (length : 4 + ip.size ≤ payload.length)
    (fits : ((⟨type, .eq, payload⟩ : BfMatcher).payloadU32 0).toNat ≤ 8 * ip.size)
    {field : List Byte} (sized : field.length = ip.size) :
    ((⟨type, .eq, payload⟩ : BfMatcher).addrTest ip).Agrees field ↔
      FieldAgrees type payload field := by
  have isNet : ((⟨type, .eq, payload⟩ : BfMatcher).addrTest ip).prefixlen =
      some (Fin.ofNat _ ((⟨type, .eq, payload⟩ : BfMatcher).payloadU32 0).toNat) := by
    simp only [BfMatcher.addrTest, net, if_true]
  have covers := prefixCovers_iff_agrees isNet (payload.drop (4 + ip.size)) sized
  rw [@addrTest_net .eq payload type ip net length fits] at covers
  rw [← covers, FieldAgrees, net, if_pos rfl]

/-- A matcher of a port compares the bytes. -/
theorem portHolds_iff (plain : type.isNet = false) (length : payload.length = 2)
    {field : List Byte} (sized : field.length = 2) :
    (⟨type, .eq, payload⟩ : BfMatcher).portTest.Holds (htobe16 (leBits 16 field)) ↔
      FieldAgrees type payload field := by
  have whole : payload.take 2 = payload := List.take_of_length_le (by omega)
  have asked : (⟨type, .eq, payload⟩ : BfMatcher).portTest =
      .eq (htobe16 (leBits 16 payload)) := by
    rw [BfMatcher.portTest]
    simp only [BfMatcher.payloadU16, Nat.mul_zero, List.drop_zero, whole]
  rw [asked, PortTest.Holds, htobe16_inj, FieldAgrees, plain, if_neg Bool.false_ne_true]
  exact @leBits_inj 2 field payload sized length

/-- A matcher of a byte compares it. -/
theorem byteHolds_iff (plain : type.isNet = false) (length : payload.length = 1)
    {field : List Byte} :
    field = [(⟨type, .eq, payload⟩ : BfMatcher).payloadU8] ↔ FieldAgrees type payload field := by
  obtain ⟨b, rfl⟩ := exists_byte length
  rw [payloadU8_singleton, FieldAgrees, plain, if_neg Bool.false_ne_true]

theorem opHolds_eq (b : Bool) : opHolds .eq b = b := by cases b <;> rfl

/-- **An `eq` matcher** of a type that may be a component of a set holds for the packets that carry
the protocol and whose field is what the payload asks for. -/
theorem eq_holds_iff (inKey : (bfMatcherGetOps type .inSet).isSome) (other : type ≠ .ip6Nexthdr)
    (length : payload.length = componentSize type)
    (fits : type.isNet = true → ((⟨type, .eq, payload⟩ : BfMatcher).payloadU32 0).toNat ≤
      (⟨type, .eq, payload⟩ : BfMatcher).addrBits) :
    BfMatcher.holds chain ⟨type, .eq, payload⟩ v = true ↔
      v.carries type = true ∧ FieldAgrees type payload (v.field type) := by
  have meaning : ∀ {b : Bool}, BfMatcher.holds chain ⟨type, .eq, payload⟩ v =
      (v.carries type && opHolds .eq b) → (b = true ↔ FieldAgrees type payload (v.field type)) →
      (BfMatcher.holds chain ⟨type, .eq, payload⟩ v = true ↔
        v.carries type = true ∧ FieldAgrees type payload (v.field type)) := by
    intro b holds same
    rw [holds, Bool.and_eq_true, opHolds_eq, same]
  let m : BfMatcher := ⟨type, .eq, payload⟩
  let field := v.field type
  cases type with
  | ip4Saddr | ip4Daddr =>
      refine meaning (b := (m.addrTest .v4).Agrees field) rfl (decide_eq_true_iff.trans ?_)
      exact wholeAgrees_iff rfl length rfl
  | ip6Saddr | ip6Daddr =>
      refine meaning (b := (m.addrTest .v6).Agrees field) rfl (decide_eq_true_iff.trans ?_)
      exact wholeAgrees_iff rfl length rfl
  | ip4Snet | ip4Dnet =>
      refine meaning (b := (m.addrTest .v4).Agrees field) rfl (decide_eq_true_iff.trans ?_)
      refine netAgrees_iff rfl ?_ (fits rfl) rfl
      rw [length]
      decide
  | ip6Snet | ip6Dnet =>
      refine meaning (b := (m.addrTest .v6).Agrees field) rfl (decide_eq_true_iff.trans ?_)
      refine netAgrees_iff rfl ?_ (fits rfl) rfl
      rw [length]
      decide
  | tcpSport | tcpDport | udpSport | udpDport =>
      refine meaning (b := m.portTest.Holds (htobe16 (leBits 16 field))) ?_
        (decide_eq_true_iff.trans ?_)
      · rw [opHolds_eq]
        rfl
      · exact portHolds_iff rfl length rfl
  | ip4Proto | icmpType | icmpCode | icmpv6Type | icmpv6Code =>
      refine meaning (b := field = [m.payloadU8]) rfl (decide_eq_true_iff.trans ?_)
      exact byteHolds_iff rfl length
  | ip6Nexthdr => exact absurd rfl other
  | _ => exact absurd inKey (by decide)

/-! ## Elements -/

section Elements

variable {names : Names} {fresh : Nat → Byte} {m : BfMatcher}

/-- What a component of a set parses, an `eq` matcher parses to the same bytes. -/
theorem componentText {s : List Char}
    {parsed : { bytes : List Byte // bytes.length = parsedSize type }}
    (accepted : setParseOps names type s = .ok parsed) :
    (bfMatcherGetOps type .inSet).isSome ∧ bfMatcherGetOps type .eq = some (componentSize type) ∧
      ∃ ops, bfMatcherGetTextOps names type .eq = some ops ∧ ops.parse s = .ok parsed.val := by
  obtain ⟨ops, text, parsed⟩ := setParseOps_ok_iff.mp accepted
  cases type <;> cases text <;> exact ⟨rfl, rfl, _, rfl, parsed⟩

theorem equality_made {s : List Char}
    {parsed : { bytes : List Byte // bytes.length = parsedSize type }}
    (accepted : setParseOps names type s = .ok parsed) (fresh : Nat → Byte) :
    ∃ pad : List Byte, parsed.val.length + pad.length = componentSize type ∧
      bfMatcherNewFromRaw names fresh type .eq s = .ok ⟨type, .eq, parsed.val ++ pad⟩ := by
  obtain ⟨inKey, sized, ops, text, bytes⟩ := componentText accepted
  have short := (parsed_length sized text bytes (by decide)).trans_le (writtenSize_le sized)
  refine ⟨_, ?_, bfMatcherNewFromRaw_parsed sized text bytes⟩
  rw [List.length_drop, List.length_map, List.length_range]
  omega

/-- The bytes behind an address do not matter to its network. -/
theorem prefixCovers_pad {addr : List Byte} (wide : 4 + addr.length ≤ bytes.length)
    (pad : List Byte) : prefixCovers (bytes ++ pad) addr ↔ prefixCovers bytes addr := by
  have prefixlen : lpmPrefixlen (bytes ++ pad) = lpmPrefixlen bytes := by
    rw [lpmPrefixlen, lpmPrefixlen, List.take_append_of_le_length (by omega)]
  have data : (bytes ++ pad).drop 4 = bytes.drop 4 ++ pad :=
    List.drop_append_of_le_length (by omega)
  have same : ∀ i < 8 * addr.length, addrBit (bytes.drop 4 ++ pad) i = addrBit (bytes.drop 4) i := by
    intro i below
    exact addrBit_append (by rw [List.length_drop]; omega)
  rw [prefixCovers, prefixCovers, prefixlen, data]
  refine and_congr_right fun fits => forall₂_congr fun i below => ?_
  rw [same i (by omega)]

/-- The equalities that a text of an element stands for, one for each component. -/
def Equalities (names : Names) (key : List BfMatcherType) (tokens : List (List Char))
    (ms : List BfMatcher) : Prop :=
  List.Forall₂ (fun (component : BfMatcherType × List Char) m =>
    ∃ fresh, bfMatcherNewFromRaw names fresh component.1 .eq (bfTrim component.2) = .ok m)
    (key.zip tokens) ms

/-- The field of a component, for the bytes it was parsed to. -/
theorem fieldAgrees_pad {s : List Char}
    {parsed : { bytes : List Byte // bytes.length = parsedSize type }}
    (accepted : setParseOps names type s = .ok parsed) (pad pad' : List Byte)
    (size : parsed.val.length + pad.length = componentSize type)
    (size' : parsed.val.length + pad'.length = componentSize type) :
    FieldAgrees type (parsed.val ++ pad) (v.field type) ↔
      FieldAgrees type (parsed.val ++ pad') (v.field type) := by
  obtain ⟨inKey, -⟩ := componentText accepted
  cases net : type.isNet with
  | false =>
      have whole := parsedSize_eq inKey net
      have bytes := parsed.property
      rw [List.eq_nil_of_length_eq_zero (by omega : pad.length = 0),
        List.eq_nil_of_length_eq_zero (by omega : pad'.length = 0)]
  | true =>
      have wide : 4 + (v.field type).length ≤ parsed.val.length := by
        rw [parsed.property]
        cases type <;> first
          | exact absurd net (by decide)
          | exact le_of_eq rfl
      rw [FieldAgrees, FieldAgrees, net, if_pos rfl, if_pos rfl, prefixCovers_pad wide,
        prefixCovers_pad wide]

/-- An equality holds for the packets with the field. -/
theorem equality_holds {s : List Char}
    {parsed : { bytes : List Byte // bytes.length = parsedSize type }}
    (accepted : setParseOps names type s = .ok parsed) (other : type ≠ .ip6Nexthdr)
    (made : bfMatcherNewFromRaw names fresh type .eq s = .ok m) (pad : List Byte)
    (size : parsed.val.length + pad.length = componentSize type) :
    m.holds chain v = true ↔
      v.carries type = true ∧ FieldAgrees type (parsed.val ++ pad) (v.field type) := by
  obtain ⟨inKey, sized, ops, text, bytes⟩ := componentText accepted
  obtain ⟨pad', size', made'⟩ := equality_made accepted fresh
  cases made.symm.trans made'
  have length : (parsed.val ++ pad').length = componentSize type := by
    rw [List.length_append, size']
  rw [eq_holds_iff inKey other length fun net => netText_fits net text bytes pad',
    fieldAgrees_pad accepted pad' pad size' size]

/-- Every element of a text stands for equalities. -/
theorem equalities_made {key : List BfMatcherType} {tokens : List (List Char)} {elem : List Byte}
    (laid : ElemOf (setParseOps names) key tokens elem) (fresh : Nat → Byte) :
    ∃ ms, Equalities names key tokens ms := by
  induction laid with
  | nil => exact ⟨[], .nil⟩
  | cons parsed size rest ih =>
      obtain ⟨ms, later⟩ := ih
      obtain ⟨pad, -, made⟩ := equality_made parsed fresh
      exact ⟨_ :: ms, .cons ⟨fresh, made⟩ later⟩

/-- The fields of a packet are an element when all its equalities hold. -/
theorem tuple_eq_iff {key : List BfMatcherType} {tokens : List (List Char)} {elem : List Byte}
    (laid : ElemOf (setParseOps names) key tokens elem) (plain : ∀ type ∈ key, type.isNet = false)
    (other : .ip6Nexthdr ∉ key) {ms : List BfMatcher} (equal : Equalities names key tokens ms) :
    (key.all v.carries = true ∧ v.tuple key = elem) ↔ ∀ m ∈ ms, m.holds chain v = true := by
  induction laid generalizing ms with
  | nil =>
      cases equal
      exact iff_of_true ⟨rfl, rfl⟩ fun m mem => (List.not_mem_nil mem).elim
  | @cons type key token tokens bytes pad elem parsed size rest ih =>
      obtain ⟨here, others⟩ := not_or.mp (mt List.mem_cons.mpr other)
      cases equal with
      | cons first later =>
          obtain ⟨fresh, made⟩ := first
          have holds := @equality_holds chain v type names fresh _ _ _ parsed
            (fun is => here is.symm) made pad size
          have net := plain type List.mem_cons_self
          have inKey := (componentText parsed).1
          have rest_ := ih (fun type mem => plain type (List.mem_cons_of_mem _ mem)) others later
          have length : (v.field type).length = (bytes.val ++ pad).length := by
            obtain ⟨info, known, sized, -⟩ := component_meta inKey
            rw [List.length_append, size, ← sized net, PacketView.field, known]
            simp only [List.length_map, List.length_range]
          have split : v.tuple (type :: key) = bytes.val ++ pad ++ elem ↔
              v.field type = bytes.val ++ pad ∧ v.tuple key = elem :=
            ⟨fun same => List.append_inj same length, fun same => congrArg₂ _ same.1 same.2⟩
          rw [List.forall_mem_cons, ← rest_, holds, FieldAgrees, net, if_neg Bool.false_ne_true,
            List.all_cons, Bool.and_eq_true, split]
          tauto

/-- The prefix of an element covers the address of a packet when its equality holds. -/
theorem covers_iff {tokens : List (List Char)} {elem : List Byte}
    (laid : ElemOf (setParseOps names) [type] tokens elem) (net : type.isNet = true)
    {ms : List BfMatcher} (equal : Equalities names [type] tokens ms) :
    ([type].all v.carries = true ∧ prefixCovers elem (v.tuple [type])) ↔
      ∀ m ∈ ms, m.holds chain v = true := by
  have other : type ≠ .ip6Nexthdr := by
    rintro rfl
    cases net
  cases laid with
  | cons parsed size rest =>
      cases rest
      cases equal with
      | cons first later =>
          cases later
          obtain ⟨fresh, made⟩ := first
          have tuple : v.tuple [type] = v.field type := List.append_nil _
          rw [List.forall_mem_singleton, equality_holds parsed other made _ size, FieldAgrees, net,
            if_pos rfl, tuple, List.append_nil]
          simp only [List.all_cons, List.all_nil, Bool.and_true]

end Elements

/-! ## Sets -/

section Sets

variable {names : Names} {fresh : Nat → Nat → Byte} {fuel : Nat} {name : Option String}
  {rawKey rawPayload : List Char} {set : BfSet}

/-- A set that is made of a text is accepted. -/
theorem madeSet_accepted {parse : ParseOps}
    (made : bfSetNewFromRaw parse fresh fuel name rawKey rawPayload = some (.ok set)) :
    SetAccepted set := by
  rcases bfSetNewFromRaw_inv made with ⟨-, e, refused⟩ | ⟨key, empty, text, new, loops⟩
  · cases refused
  obtain ⟨accepted, shape⟩ := bfSetNew_inv new
  obtain ⟨-, appends⟩ := @segmentLoop_spec parse fresh (segments rawPayload) empty
    (by rw [shape]; exact accepted.supported) (by rw [shape])
  obtain ⟨elems, rfl, -⟩ := appends set loops
  exact setAccepted_of_new new _

/-- The fields of a packet are an element, or an element covers its address. -/
def PacketView.agrees (v : PacketView) (set : BfSet) (elem : List Byte) : Prop :=
  set.key.all v.carries = true ∧
    if set.useTrie then prefixCovers elem (v.tuple set.key) else v.tuple set.key = elem

theorem isIn_iff_agrees (set : BfSet) :
    v.isIn set = true ↔ ∃ elem ∈ set.elems, v.agrees set elem := by
  rw [PacketView.isIn, Bool.and_eq_true]
  unfold PacketView.agrees
  cases set.useTrie with
  | true =>
      simp only [if_true, List.any_eq_true, decide_eq_true_eq]
      constructor
      · rintro ⟨all, elem, mem, covers⟩
        exact ⟨elem, mem, all, covers⟩
      · rintro ⟨elem, mem, all, covers⟩
        exact ⟨all, elem, mem, covers⟩
  | false => simp [and_comm]

/-- A packet agrees with an element when all its equalities hold. -/
theorem agrees_iff (accepted : SetAccepted set) (other : .ip6Nexthdr ∉ set.key)
    {tokens : List (List Char)} {elem : List Byte} {ms : List BfMatcher}
    (laid : ElemOf (setParseOps names) set.key tokens elem)
    (equal : Equalities names set.key tokens ms) :
    v.agrees set elem ↔ ∀ m ∈ ms, m.holds chain v = true := by
  unfold PacketView.agrees
  cases trie : set.useTrie with
  | true =>
      obtain ⟨type, one, net⟩ := AcceptedKey.trie (accepted.useTrie.symm.trans trie)
      rw [one] at laid equal ⊢
      exact covers_iff laid net equal
  | false =>
      have hash := accepted.useTrie.symm.trans trie
      exact tuple_eq_iff laid (fun type mem => accepted.key.no_net hash mem) other equal

theorem exists_iff_of_forall₂ {α β : Type} {R : α → β → Prop} {P : α → Prop} {Q : β → Prop}
    {as : List α} {bs : List β} (related : List.Forall₂ R as bs)
    (same : ∀ a b, R a b → (P a ↔ Q b)) : (∃ a ∈ as, P a) ↔ ∃ b ∈ bs, Q b := by
  induction related with
  | nil => exact iff_of_false (by simp) (by simp)
  | cons here rest ih => simp only [List.exists_mem_cons_iff, same _ _ here, ih]

variable {matcher : BfMatcher}

theorem set_holds (isSet : matcher.type = .set)
    (found : bfChainGetSetForMatcher chain matcher = some set) :
    matcher.holds chain v = v.isIn set := by
  simp only [BfMatcher.holds, isSet, found, Option.any_some]

/-- A packet is in a set when, for some element of the text, all the equalities hold that its
components stand for. -/
theorem isIn_iff_equalities
    (made : bfSetNewFromRaw (setParseOps names) fresh fuel name rawKey rawPayload =
      some (.ok set)) (other : .ip6Nexthdr ∉ set.key) :
    v.isIn set = true ↔ ∃ seg ∈ elemTexts rawPayload, ∃ ms,
      Equalities names set.key (strtokR [','] seg) ms ∧ ∀ m ∈ ms, m.holds chain v = true := by
  have accepted := madeSet_accepted made
  obtain ⟨-, -, -, laid⟩ := madeSet_spec made
  rw [isIn_iff_agrees]
  refine (exists_iff_of_forall₂ laid fun seg elem laid => ?_).symm
  obtain ⟨ms, equal⟩ := equalities_made laid fun _ => 0
  constructor
  · rintro ⟨ms, equal, all⟩
    exact (agrees_iff accepted other laid equal).mpr all
  · exact fun agrees => ⟨ms, equal, (agrees_iff accepted other laid equal).mp agrees⟩

/-- **A set is a choice between equalities.**  A set matcher holds for the packets for which, for some
element of the text, all the equalities hold that its components stand for. -/
theorem setText_holds_iff
    (made : bfSetNewFromRaw (setParseOps names) fresh fuel name rawKey rawPayload =
      some (.ok set)) (other : .ip6Nexthdr ∉ set.key) (isSet : matcher.type = .set)
    (found : bfChainGetSetForMatcher chain matcher = some set) :
    matcher.holds chain v = true ↔ ∃ seg ∈ elemTexts rawPayload, ∃ ms,
      Equalities names set.key (strtokR [','] seg) ms ∧ ∀ m ∈ ms, m.holds chain v = true := by
  rw [set_holds isSet found]
  exact isIn_iff_equalities made other

/-- A packet of IPv4 and TCP, from 10.0.0.2 to the port 443. -/
def webView : PacketView where
  ethertype := 0x0800
  protocol := 6
  internet n := if n = 12 then 10 else if n = 15 then 2 else 0
  transport n := if n = 2 then 1 else if n = 3 then 187 else 0
  extensions := 0
  ifindex := 2
  mark := 0
  draws _ := 0

def addrPortSet : BfSet :=
  ⟨none, [.ip4Saddr, .tcpDport], 6, [[10, 0, 0, 1, 0, 80], [10, 0, 0, 2, 1, 187]], false⟩

theorem addrPortSet_made :
    bfSetNewFromRaw (setParseOps plainNames) (fun _ _ => 0xaa) 9 none
      "(ip4.saddr, tcp.dport)".toList "{10.0.0.1, 80; 10.0.0.2,443}".toList =
        some (.ok addrPortSet) := by
  decide +kernel

def addrPortChain : BfChain :=
  bfChainNew "web" .xdp .drop [addrPortSet]
    [{ matchers := [⟨.set, .inSet, [0, 0, 0, 0]⟩], verdict := .accept }]

theorem webView_inAddrPortSet :
    ∃ seg ∈ elemTexts "{10.0.0.1, 80; 10.0.0.2,443}".toList, ∃ ms,
      Equalities plainNames [.ip4Saddr, .tcpDport] (strtokR [','] seg) ms ∧
        ∀ m ∈ ms, m.holds addrPortChain webView = true :=
  (setText_holds_iff addrPortSet_made (by decide) rfl rfl).mp
    (show BfMatcher.holds addrPortChain ⟨.set, .inSet, [0, 0, 0, 0]⟩ webView = true by decide +kernel)

/-- A set of one element is the equalities of its components. -/
theorem singleton_holds_iff {seg : List Char} {ms : List BfMatcher}
    (made : bfSetNewFromRaw (setParseOps names) fresh fuel name rawKey rawPayload =
      some (.ok set)) (other : .ip6Nexthdr ∉ set.key) (isSet : matcher.type = .set)
    (found : bfChainGetSetForMatcher chain matcher = some set) (one : elemTexts rawPayload = [seg])
    (equal : Equalities names set.key (strtokR [','] seg) ms) (chain' : BfChain) :
    matcher.holds chain v = true ↔ ∀ m ∈ ms, m.holds chain' v = true := by
  obtain ⟨-, -, -, laid⟩ := madeSet_spec made
  rw [one] at laid
  obtain ⟨elem, rest, laid, none_, elems⟩ := List.forall₂_cons_left_iff.mp laid
  cases none_
  rw [set_holds isSet found, isIn_iff_agrees, elems, ← agrees_iff (madeSet_accepted made) other laid
    equal]
  simp

end Sets

/-! ## Sets of one element -/

/-- Matchers of two chains with the same meaning: sets of one element may be written out. -/
inductive WrittenOut (names : Names) (chain chain' : BfChain) :
    List BfMatcher → List BfMatcher → Prop
  | nil : WrittenOut names chain chain' [] []
  | same {m : BfMatcher} {ms ms' : List BfMatcher} (plain : m.type ≠ .set)
      (rest : WrittenOut names chain chain' ms ms') :
      WrittenOut names chain chain' (m :: ms) (m :: ms')
  | set {m m' : BfMatcher} {ms ms' : List BfMatcher} (isSet : m.type = .set)
      (isSet' : m'.type = .set)
      (found : bfChainGetSetForMatcher chain m = bfChainGetSetForMatcher chain' m')
      (rest : WrittenOut names chain chain' ms ms') :
      WrittenOut names chain chain' (m :: ms) (m' :: ms')
  | singleton {m : BfMatcher} {ms ms' equal : List BfMatcher} {set : BfSet}
      {fresh : Nat → Nat → Byte} {fuel : Nat} {name : Option String}
      {rawKey rawPayload seg : List Char} (isSet : m.type = .set)
      (found : bfChainGetSetForMatcher chain m = some set)
      (made : bfSetNewFromRaw (setParseOps names) fresh fuel name rawKey rawPayload =
        some (.ok set)) (other : .ip6Nexthdr ∉ set.key) (one : elemTexts rawPayload = [seg])
      (equalities : Equalities names set.key (strtokR [','] seg) equal)
      (rest : WrittenOut names chain chain' ms ms') :
      WrittenOut names chain chain' (m :: ms) (equal ++ ms')

section WrittenOut

variable {names : Names} {chain chain' : BfChain} {ms ms' : List BfMatcher}

/-- Equalities do not change what is seen. -/
theorem Equalities.viewAfter {key : List BfMatcherType} {tokens : List (List Char)}
    (equal : Equalities names key tokens ms) (supported : ∀ type ∈ key,
      (bfMatcherGetOps type .inSet).isSome) : ∀ m ∈ ms, ∀ v, m.viewAfter v = v := by
  induction key generalizing tokens ms with
  | nil =>
      cases equal
      exact fun m mem => (List.not_mem_nil mem).elim
  | cons type key ih =>
      cases tokens with
      | nil =>
          cases equal
          exact fun m mem => (List.not_mem_nil mem).elim
      | cons token tokens =>
          cases equal with
          | cons first later =>
              obtain ⟨fresh, made⟩ := first
              obtain ⟨size, ops, bytes, -, -, -, rfl⟩ := bfMatcherNewFromRaw_inv made
              refine List.forall_mem_cons.mpr ⟨fun v => ?_, ih later fun type mem =>
                supported type (List.mem_cons_of_mem _ mem)⟩
              have inKey := supported type List.mem_cons_self
              cases type <;> first
                | rfl
                | exact absurd inKey (by decide)

theorem attempt_singleton {set : BfSet} {fresh : Nat → Nat → Byte} {fuel : Nat}
    {name : Option String} {rawKey rawPayload seg : List Char} {m : BfMatcher}
    (isSet : m.type = .set) (found : bfChainGetSetForMatcher chain m = some set)
    (made : bfSetNewFromRaw (setParseOps names) fresh fuel name rawKey rawPayload =
      some (.ok set)) (other : .ip6Nexthdr ∉ set.key) (one : elemTexts rawPayload = [seg])
    (equal : Equalities names set.key (strtokR [','] seg) ms) (v : PacketView) :
    (viewMachine chain).attempt m v = (viewMachine chain').attemptAll ms v := by
  have supported := (madeSet_accepted made).key.supported
  have still : ∀ m ∈ ms, ((viewMachine chain').attempt m v).2 = v := fun m mem =>
    equal.viewAfter supported m mem v
  have holds : m.holds chain v = ms.all fun m => m.holds chain' v := by
    rw [Bool.eq_iff_iff, List.all_eq_true]
    exact singleton_holds_iff made other isSet found one equal chain'
  rw [Filter.Machine.attemptAll_pure still]
  refine Prod.ext holds ?_
  simp only [viewMachine, BfMatcher.viewAfter, isSet]

/-- Matchers that are written out end alike. -/
theorem WrittenOut.attemptAll (out : WrittenOut names chain chain' ms ms') (v : PacketView) :
    (viewMachine chain).attemptAll ms v = (viewMachine chain').attemptAll ms' v := by
  induction out generalizing v with
  | nil => rfl
  | @same m ms ms' plain rest ih =>
      have here : (viewMachine chain).attempt m v = (viewMachine chain').attempt m v := by
        obtain ⟨type, op, payload⟩ := m
        cases type <;> first
          | rfl
          | exact absurd rfl plain
      rw [Filter.Machine.attemptAll_cons, Filter.Machine.attemptAll_cons, here, ih]
  | @set m m' ms ms' isSet isSet' found rest ih =>
      have here : (viewMachine chain).attempt m v = (viewMachine chain').attempt m' v := by
        simp only [viewMachine, BfMatcher.holds, BfMatcher.viewAfter, isSet, isSet', found]
      rw [Filter.Machine.attemptAll_cons, Filter.Machine.attemptAll_cons, here, ih]
  | singleton isSet found made other one equal rest ih =>
      rw [Filter.Machine.attemptAll_cons, Filter.Machine.attemptAll_append,
        attempt_singleton isSet found made other one equal, ih]

/-- **Sets of one element** can be written out: a chain whose rules have, in the place of such a set,
an equality for each of its components decides the same about every packet. -/
theorem singletons_written_out (policy : chain.policy = chain'.policy)
    (related : List.Forall₂ (fun rule rule' => WrittenOut names chain chain' rule.matchers
      rule'.matchers ∧ rule' = { rule with matchers := rule'.matchers })
      chain.rules chain'.rules) (v : PacketView) : chain.decide v = chain'.decide v := by
  have last : chain.default = chain'.default := by
    rw [BfChain.default, BfChain.default, policy, related.length_eq]
  have performs : (viewMachine chain).perform = (viewMachine chain').perform := rfl
  rw [BfChain.decide, BfChain.decide, last]
  apply Filter.Machine.run_congr performs
  rw [List.forall₂_map_left_iff, List.forall₂_map_right_iff]
  refine related.imp fun rule rule' here => ?_
  obtain ⟨out, same⟩ := here
  rw [same]
  exact ⟨rfl, rfl, out.attemptAll⟩

def oneSet : BfSet := ⟨none, [.ip4Saddr, .tcpDport], 6, [[10, 0, 0, 2, 1, 187]], false⟩

theorem oneSet_made :
    bfSetNewFromRaw (setParseOps plainNames) (fun _ _ => 0xaa) 9 none
      "(ip4.saddr, tcp.dport)".toList "{10.0.0.2, 443}".toList = some (.ok oneSet) := by
  decide +kernel

def oneSetChain : BfChain :=
  bfChainNew "one" .xdp .drop [oneSet]
    [{ matchers := [⟨.set, .inSet, [0, 0, 0, 0]⟩], verdict := .accept }]

def equalitiesChain : BfChain :=
  bfChainNew "one" .xdp .drop []
    [{ matchers := [⟨.ip4Saddr, .eq, [10, 0, 0, 2]⟩, ⟨.tcpDport, .eq, [1, 187]⟩],
       verdict := .accept }]

theorem oneSet_equalities :
    Equalities plainNames [.ip4Saddr, .tcpDport] (strtokR [','] "10.0.0.2, 443".toList)
      [⟨.ip4Saddr, .eq, [10, 0, 0, 2]⟩, ⟨.tcpDport, .eq, [1, 187]⟩] :=
  .cons ⟨fun _ => 0, by decide +kernel⟩ (.cons ⟨fun _ => 0, by decide +kernel⟩ .nil)

theorem oneSetChain_written_out : oneSetChain.decide webView = equalitiesChain.decide webView := by
  refine @singletons_written_out plainNames oneSetChain equalitiesChain rfl
    (.cons ⟨?_, rfl⟩ .nil) webView
  exact .singleton rfl rfl oneSet_made (by decide) (by decide +kernel) oneSet_equalities .nil

end WrittenOut

end Bpfilter

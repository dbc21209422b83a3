/-
# Cgen.PacketView -- what a rule sees of a packet

A matcher of a rule sees the protocols of the packet, the headers of layers 3 and 4, the
record of its extension headers, its interface and its mark, and it may draw a random
number.  `PacketView` is that and nothing else, and `BfMatcher.holds` is what a matcher
asks of it: the meaning of a matcher, without registers, stack or code.

`Shows` relates a state of the program to a view.  What keeps the state up to the
scratch area keeps the view (`Shows.kept`), and the fields of the table are read from
the bytes of the view (`Shows.fieldBytes`).
-/
import Bpfilter.Cgen.AddrMatch
import Bpfilter.Cgen.FlagMatch
import Bpfilter.Cgen.NexthdrMatch
import Bpfilter.Cgen.SetMatcher

namespace Bpfilter

set_option autoImplicit false

open Ebpf

/-! ## Views -/

/-- A packet as the matchers see it; protocols without a parser are 0. -/
structure PacketView where
  ethertype : BitVec 16
  protocol : BitVec 8
  internet : Nat → Byte
  transport : Nat → Byte
  extensions : BitVec 8
  ifindex : BitVec 32
  mark : BitVec 32
  /-- The random numbers that are still to be drawn. -/
  draws : Nat → BitVec 32

namespace PacketView

variable (v : PacketView)

/-- The bytes of the header of a layer. -/
def header : BfMatcherLayer → Nat → Byte
  | .layer3 => v.internet
  | _ => v.transport

/-- The packet has the protocol a field is read from. -/
def carries (type : BfMatcherType) : Bool :=
  match bfMatcherGetMeta type with
  | none => false
  | some info =>
      match info.layer with
      | .layer3 => v.ethertype = info.hdrId.setWidth 16
      | .layer4 => v.protocol = info.hdrId.setWidth 8
      | _ => false

/-- The bytes of a field. -/
def field (type : BfMatcherType) : List Byte :=
  match bfMatcherGetMeta type with
  | none => []
  | some info => (List.range info.hdrPayloadSize).map fun i =>
      v.header info.layer (info.hdrPayloadOffset + i)

/-- The fields of a key, one after the other. -/
def tuple (key : List BfMatcherType) : List Byte := key.flatMap v.field

/-- A port of the transport header, in the order of the host. -/
def port (offset : Nat) : BitVec 16 :=
  htobe16 (leBits 16 [v.transport offset, v.transport (offset + 1)])

end PacketView

/-! ## The meaning of matchers -/

instance decidablePrefixCovers (elem addr : List Byte) : Decidable (prefixCovers elem addr) :=
  inferInstanceAs (Decidable (_ ∧ _))

/-- The packet is in a set: it has the protocols of the key, and its fields are an element or its
address is in a network. -/
def PacketView.isIn (v : PacketView) (set : BfSet) : Bool :=
  set.key.all v.carries &&
    if set.useTrie then set.elems.any fun elem => decide (prefixCovers elem (v.tuple set.key))
    else set.elems.contains (v.tuple set.key)

namespace BfMatcher

variable (m : BfMatcher)

/-- The ports a matcher asks for. -/
def portTest : PortTest :=
  match m.op with
  | .eq => .eq (htobe16 (m.payloadU16 0))
  | .ne => .ne (htobe16 (m.payloadU16 0))
  | _ => .range (m.payloadU16 0) (m.payloadU16 1)

/-- The address or the network a matcher asks for. -/
def addrTest (v : IpVersion) : AddrTest v :=
  if m.type.isNet then
    ⟨(m.payload.drop 4).takeD v.size 0, List.takeD_length ..,
      some (Fin.ofNat _ (m.payloadU32 0).toNat)⟩
  else ⟨m.payload.takeD v.size 0, List.takeD_length .., none⟩

/-- What a matcher asks of the flags of a TCP header. -/
def flagTest (flags : Byte) : Bool :=
  match m.op with
  | .eq => flags = m.payloadU8
  | .ne => flags ≠ m.payloadU8
  | .any => flags &&& m.payloadU8 ≠ 0
  | .all => flags &&& m.payloadU8 = m.payloadU8
  | _ => false

/-- What a matcher asks of a field of a header. -/
def fieldTest (field : List Byte) : Bool :=
  match m.type with
  | .ip4Saddr | .ip4Daddr | .ip4Snet | .ip4Dnet => opHolds m.op ((m.addrTest .v4).Agrees field)
  | .ip6Saddr | .ip6Daddr | .ip6Snet | .ip6Dnet => opHolds m.op ((m.addrTest .v6).Agrees field)
  | .tcpSport | .tcpDport | .udpSport | .udpDport => m.portTest.Holds (htobe16 (leBits 16 field))
  | .tcpFlags => m.flagTest (leBits 8 field)
  | _ => opHolds m.op (field = [m.payloadU8])

/-- What a metadata matcher asks of a port: packets without ports have none, nor have those whose
port is 0. -/
def metaPortTest (v : PacketView) (offset : Nat) : Bool :=
  (v.protocol = ipprotoTcp ∨ v.protocol = ipprotoUdp) && v.port offset ≠ 0 &&
    m.portTest.Holds (v.port offset)

/-- The value of the next header, where the code looks for it. -/
def nexthdrTest (v : PacketView) : Bool :=
  if bfIpv6EhBit m.payloadU8 ≠ 0 then v.extensions &&& bfIpv6EhBit m.payloadU8 ≠ 0
  else v.protocol = m.payloadU8

/-- **The meaning of a matcher** of a chain. -/
def holds (chain : BfChain) (m : BfMatcher) (v : PacketView) : Bool :=
  match m.type with
  | .metaIface => v.ifindex.toNat % 2 ^ 16 = (m.payloadU32 0).toNat
  | .metaL3Proto => v.ethertype = m.payloadU16 0
  | .metaL4Proto => opHolds m.op (v.protocol = m.payloadU8)
  | .metaProbability => !decide (m.payloadU8.toNat ≤ 50 ∧
      4294967295 * m.payloadU8.toNat / 100 < (v.draws 0).toNat)
  | .metaSport => m.metaPortTest v 0
  | .metaDport => m.metaPortTest v 2
  | .metaMark => opHolds m.op (v.mark = m.payloadU32 0 ∧ (m.payloadU32 0).toNat < 2 ^ 31)
  | .ip6Nexthdr => v.carries .ip6Nexthdr && opHolds m.op (m.nexthdrTest v)
  | .set => (bfChainGetSetForMatcher chain m).any v.isIn
  | _ => v.carries m.type && m.fieldTest (v.field m.type)

/-- A probability matcher draws a number. -/
def viewAfter (v : PacketView) : PacketView :=
  match m.type with
  | .metaProbability => { v with draws := fun n => v.draws (n + 1) }
  | _ => v

/-- The bits of the addresses of a network type. -/
def addrBits : Nat :=
  match m.type with
  | .ip4Snet | .ip4Dnet => 32
  | _ => 128

/-- A matcher the table knows, with a payload of its size; a percentage and a prefix length that
fit, and an existing set whose key fits the scratch area. -/
structure Supported (chain : BfChain) : Prop where
  table : m.type ≠ .set → m.op ≠ .inSet ∧ bfMatcherGetOps m.type m.op = some m.payload.length
  percent : m.type = .metaProbability → m.payloadU8.toNat ≤ 100
  network : m.type.isNet = true → (m.payloadU32 0).toNat ≤ m.addrBits
  mark : m.type = .metaMark → bfHookToFlavor chain.hook ≠ .xdp
  set : m.type = .set → ∃ set, bfChainGetSetForMatcher chain m = some set ∧ SetAccepted set ∧
    (set.useTrie = false → set.elemSize ≤ 64)

end BfMatcher

/-! ## States that show a view -/

variable {W : Type} {host : Host} {flavor : BfFlavor} {others : List (Addr × Nat)}
  {rng : W → Nat → BitVec 32}

/-- The context has the address of a header, whose bytes are there. -/
structure HeaderShown (hdr buffer : RuntimeField) (others : List (Addr × Nat))
    (bytes : Nat → Byte) (len : Nat) (c : Core W) : Prop where
  placed : ∃ copied, Placed (c.regs 10) others buffer copied
    (c.mem.load (ctxAddr (c.regs 10) hdr) 8) len
  bytes : ∀ i < len,
    c.mem (c.mem.load (ctxAddr (c.regs 10) hdr) 8 + BitVec.ofNat 64 i) = bytes i

/-- The mark of the packet is where a program of the flavor finds it, and that is not on its
stack. -/
structure MarkShown (host : Host) (flavor : BfFlavor) (mark : BitVec 32) (c : Core W) : Prop where
  loads : c.mem.load (markAddr host flavor c) 4 = mark.setWidth 64
  apart : Mem.Disjoint (markAddr host flavor c) 4 (c.regs 10 - 512) 512
  pointer : flavor = .nf → Mem.Disjoint (c.mem.load (ctxAddr (c.regs 10) .arg) 8 +
    (host.fieldOff .bpfNfCtxSkb).signExtend 64) 8 (c.regs 10 - 512) 512

/-- The state of a program at its rules, for a packet with this view; `others` is what its rules
may write besides the scratch area. -/
structure Shows (host : Host) (flavor : BfFlavor) (rng : W → Nat → BitVec 32)
    (others : List (Addr × Nat)) (v : PacketView) (c : Core W) : Prop where
  aside : Aside (c.regs 10) others
  ethertype : c.regs 7 = (htobe16 v.ethertype).setWidth 64
  protocol : c.regs 8 = v.protocol.setWidth 64
  internet : ∀ len, l3Len (c.regs 7) = some len →
    HeaderShown .l3Hdr .l2 others v.internet len c
  transport : ∀ len, l4Len (c.regs 8) = some len →
    HeaderShown .l4Hdr .l4 others v.transport len c
  extensions : ehByte c = v.extensions
  ifindex : c.mem.load (ctxAddr (c.regs 10) .ifindex) 4 = v.ifindex.setWidth 64
  mark : flavor ≠ .xdp → MarkShown host flavor v.mark c
  draws : rng c.world = v.draws

section Kept

variable {hdr buffer : RuntimeField} {bytes : Nat → Byte} {len : Nat} {c d : Core W}

/-- A placed header is not written by the rules. -/
theorem Kept.placed (kept : Kept others c d) (aside : Aside (c.regs 10) others) {a : Addr}
    {copied : Bool} (placed : Placed (c.regs 10) others buffer copied a len)
    (below : buffer.offset + len ≤ 176) : ∀ x, Mem.InRange a len x → d.mem x = c.mem x := by
  have fits : RuntimeField.scratch.offset + 64 ≤ sizeofRuntime := by decide
  intro x here
  cases copied with
  | true =>
      obtain rfl : a = ctxAddr (c.regs 10) buffer := placed
      exact kept.field aside below here
  | false =>
      obtain ⟨stack, apart⟩ : Outside (c.regs 10) others a len := placed
      refine kept.mem _ fun r mem => ?_
      rcases List.mem_cons.mp mem with rfl | mem
      · exact disjoint_ctx_of_stack stack .scratch fits _ here
      · exact apart r mem _ here

/-- A header is kept with the state, up to the scratch area and the other ranges. -/
theorem HeaderShown.kept (shown : HeaderShown hdr buffer others bytes len c)
    (kept : Kept others c d) (aside : Aside (c.regs 10) others) (pointer : hdr.offset + 8 ≤ 176)
    (below : buffer.offset + len ≤ 176) : HeaderShown hdr buffer others bytes len d := by
  obtain ⟨⟨copied, placed⟩, same⟩ := shown
  have address : d.mem.load (ctxAddr (d.regs 10) hdr) 8 =
      c.mem.load (ctxAddr (c.regs 10) hdr) 8 := by
    rw [kept.frame]
    exact kept.load aside pointer
  refine ⟨⟨copied, ?_⟩, fun i inside => ?_⟩
  · rw [address, kept.frame]
    exact placed
  · rw [address, kept.placed aside placed below _ (Mem.inRange_add _ _ i inside (by omega))]
    exact same i inside

/-- What is not on the stack is not in the scratch area. -/
theorem load_of_kept (kept : Kept [] c d) {a : Addr} {n : Nat} (small : n ≤ 2 ^ 64)
    (apart : Mem.Disjoint a n (c.regs 10 - 512) 512) : d.mem.load a n = c.mem.load a n := by
  refine Mem.load_congr small fun x inside => kept.mem x fun r mem => ?_
  have fits : RuntimeField.scratch.offset + 64 ≤ sizeofRuntime := by decide
  rw [List.mem_singleton.mp mem]
  exact disjoint_ctx_of_stack apart .scratch fits x inside

theorem MarkShown.kept {mark : BitVec 32} (shown : MarkShown host flavor mark c)
    (kept : Kept [] c d) : MarkShown host flavor mark d := by
  have none : Aside (c.regs 10) [] := fun _ mem => (List.not_mem_nil mem).elim
  have arg : d.mem.load (ctxAddr (d.regs 10) .arg) 8 = c.mem.load (ctxAddr (c.regs 10) .arg) 8 := by
    rw [kept.frame]
    exact kept.load none (by decide)
  have address : markAddr host flavor d = markAddr host flavor c := by
    by_cases nf : flavor = .nf
    · subst nf
      simp only [markAddr, arg]
      rw [load_of_kept kept (by decide) (shown.pointer rfl)]
    · rw [markAddr_of_ne_nf nf, markAddr_of_ne_nf nf, arg]
  refine ⟨?_, ?_, fun nf => ?_⟩
  · rw [address, load_of_kept kept (by decide) shown.apart]
    exact shown.loads
  · rw [address, kept.frame]
    exact shown.apart
  · rw [arg, kept.frame]
    exact shown.pointer nf

variable {v : PacketView}

/-- The layers of a state that keeps the context. -/
theorem Shows.headers_kept (shows_ : Shows host flavor rng others v c) (kept : Kept others c d) :
    (∀ len, l3Len (d.regs 7) = some len → HeaderShown .l3Hdr .l2 others v.internet len d) ∧
      ∀ len, l4Len (d.regs 8) = some len → HeaderShown .l4Hdr .l4 others v.transport len d := by
  rw [kept.l3, kept.l4]
  refine ⟨fun len parsed => ?_, fun len parsed => ?_⟩
  · refine (shows_.internet len parsed).kept kept shows_.aside (by decide) ?_
    rcases l3Len_cases parsed with ⟨-, rfl⟩ | ⟨-, rfl⟩ <;> decide
  · refine (shows_.transport len parsed).kept kept shows_.aside (by decide) ?_
    rcases (l4Len_cases parsed).2 with rfl | rfl <;> decide

theorem ehByte_of_kept (kept : Kept others c d) (aside : Aside (c.regs 10) others) :
    ehByte d = ehByte c := by
  have here := Mem.inRange_add (ctxAddr (c.regs 10) .ipv6Eh) 1 0 (by decide) (by decide)
  rw [show BitVec.ofNat 64 0 = 0 from rfl, add_zero] at here
  rw [ehByte, ehByte, kept.frame]
  exact kept.field aside (by decide) here

/-- What keeps everything but the scratch area keeps the view, up to the draws. -/
theorem Shows.kept (shows_ : Shows host flavor rng others v c) (kept : Kept [] c d)
    {draws : Nat → BitVec 32} (drawn : rng d.world = draws) :
    Shows host flavor rng others { v with draws := draws } d := by
  have more : Kept others c d := kept.more
  have headers := shows_.headers_kept more
  refine ⟨?_, ?_, ?_, headers.1, headers.2, ?_, ?_, ?_, drawn⟩
  · rw [kept.frame]
    exact shows_.aside
  · rw [kept.l3]
    exact shows_.ethertype
  · rw [kept.l4]
    exact shows_.protocol
  · rw [ehByte_of_kept more shows_.aside]
    exact shows_.extensions
  · rw [kept.frame, more.load shows_.aside (by decide)]
    exact shows_.ifindex
  · exact fun reads => (shows_.mark reads).kept kept

theorem Shows.keep (shows_ : Shows host flavor rng others v c) (kept : Kept [] c d)
    (same : rng d.world = rng c.world) : Shows host flavor rng others v d :=
  shows_.kept kept (same.trans shows_.draws)

end Kept

/-! ## Fields -/

section Fields

variable {c : Core W} {type : BfMatcherType} {info : BfMatcherMeta} {v : PacketView}

/-- The buffer for the slice of a layer. -/
def headerBuffer : BfMatcherLayer → RuntimeField
  | .layer3 => .l2
  | _ => .l4

/-- A header of a packet that has the protocol of a field is long enough for it. -/
theorem carried_parsed (known : bfMatcherGetMeta type = some info)
    (carried : carries c type = true) :
    ∃ len, info.hdrPayloadOffset + info.hdrPayloadSize ≤ len ∧
      (headerBuffer info.layer).offset + len ≤ 176 ∧
      ((info.layer = .layer3 ∧ l3Len (c.regs 7) = some len) ∨
        (info.layer = .layer4 ∧ l4Len (c.regs 8) = some len)) := by
  cases type <;> cases known <;> first
    | exact absurd carried Bool.false_ne_true
    | refine ⟨20, by decide, by decide, .inl ⟨rfl, ?_⟩⟩
      rw [show c.regs 7 = ipv4Reg from of_decide_eq_true carried]
      rfl
    | refine ⟨40, by decide, by decide, .inl ⟨rfl, ?_⟩⟩
      rw [show c.regs 7 = ipv6Reg from of_decide_eq_true carried]
      rfl
    | refine ⟨20, by decide, by decide, .inr ⟨rfl, ?_⟩⟩
      rw [show c.regs 8 = ipprotoTcp.setWidth 64 from of_decide_eq_true carried]
      rfl
    | refine ⟨8, by decide, by decide, .inr ⟨rfl, ?_⟩⟩
      rw [show c.regs 8 = ipprotoUdp.setWidth 64 from of_decide_eq_true carried]
      rfl
    | refine ⟨8, by decide, by decide, .inr ⟨rfl, ?_⟩⟩
      rw [show c.regs 8 = ipprotoIcmp.setWidth 64 from of_decide_eq_true carried]
      rfl
    | refine ⟨8, by decide, by decide, .inr ⟨rfl, ?_⟩⟩
      rw [show c.regs 8 = ipprotoIcmpv6.setWidth 64 from of_decide_eq_true carried]
      rfl

theorem Shows.carries (shows_ : Shows host flavor rng others v c) (type : BfMatcherType) :
    carries c type = v.carries type := by
  rw [Bpfilter.carries, PacketView.carries]
  cases bfMatcherGetMeta type with
  | none => rfl
  | some info =>
      simp only
      cases info.layer with
      | layer3 =>
          refine decide_eq_decide.mpr ?_
          rw [shows_.ethertype, setWidth64_inj (by decide), htobe16_inj]
      | layer4 =>
          refine decide_eq_decide.mpr ?_
          rw [shows_.protocol, setWidth64_inj (by decide)]
      | noLayer | layer2 => rfl

/-- The header a field is in. -/
theorem Shows.header (shows_ : Shows host flavor rng others v c)
    (known : bfMatcherGetMeta type = some info) (carried : Bpfilter.carries c type = true) :
    ∃ len, info.hdrPayloadOffset + info.hdrPayloadSize ≤ len ∧
      (headerBuffer info.layer).offset + len ≤ 176 ∧
      HeaderShown (headerField info.layer) (headerBuffer info.layer) others
        (v.header info.layer) len c := by
  obtain ⟨len, long, below, ⟨layer, parsed⟩ | ⟨layer, parsed⟩⟩ := carried_parsed known carried
  · refine ⟨len, long, below, ?_⟩
    rw [layer]
    exact shows_.internet len parsed
  · refine ⟨len, long, below, ?_⟩
    rw [layer]
    exact shows_.transport len parsed

/-- What the code reads of a field is what the view has. -/
theorem Shows.fieldBytes (shows_ : Shows host flavor rng others v c)
    (carried : Bpfilter.carries c type = true) : fieldBytes c type = v.field type := by
  rw [Bpfilter.fieldBytes, PacketView.field]
  cases known : bfMatcherGetMeta type with
  | none => rfl
  | some info =>
      obtain ⟨len, long, -, shown⟩ := shows_.header known carried
      apply List.ext_getElem?
      intro i
      rw [Mem.getElem?_bytesAt, List.getElem?_map]
      by_cases inside : i < info.hdrPayloadSize
      · rw [if_pos inside, List.getElem?_range inside, fieldAddr, add_assoc, ← BitVec.ofNat_add,
          hdrAddr]
        exact congrArg some (shown.bytes _ (by omega))
      · rw [if_neg inside, List.getElem?_eq_none (by rw [List.length_range]; omega)]
        rfl

/-- The key of a set is not written over a header. -/
theorem Shows.scratchApart (shows_ : Shows host flavor rng others v c) {key : List BfMatcherType}
    (carried : ∀ type ∈ key, Bpfilter.carries c type = true) : ScratchApart c key := by
  have fits : RuntimeField.scratch.offset + 64 ≤ sizeofRuntime := by decide
  intro type mem info known
  obtain ⟨len, long, below, ⟨copied, placed⟩, -⟩ := shows_.header known (carried type mem)
  have whole : Mem.Disjoint (hdrAddr c info) len (ctxAddr (c.regs 10) .scratch) 64 := by
    cases copied with
    | true =>
        have at_ : hdrAddr c info = ctxAddr (c.regs 10) (headerBuffer info.layer) := placed
        rw [at_]
        exact disjoint_ctx (c.regs 10) _ .scratch (.inl below) ⟨below.trans (by decide), fits⟩
    | false => exact disjoint_ctx_of_stack placed.1 .scratch fits
  exact (whole.symm.sub _ _ long (by omega)).symm

end Fields

end Bpfilter

/-
# Cgen.Matcher -- code generation for the matchers

One generator per matcher family (`cgen/matcher/*.c`).  A matcher emits code
that falls through when the packet matches and otherwise takes a jump registered
with a `jmpNextRule` fixup.

Registers on entry: `r7` holds the layer 3 protocol in network byte order, `r8`
the layer 4 protocol, `r10` the frame pointer; matchers use `r0` to `r6` freely.
-/
import Bpfilter.Cgen.Flavor

namespace Bpfilter

set_option autoImplicit false

open Ebpf

/-- The jump that leaves the rule: on inequality for `eq`, on equality otherwise. -/
def mismatchJmp (op : BfMatcherOp) : JmpOp := if op = .eq then .ne else .eq

/-! ## IPv4 -/

/-- `_bf_matcher_generate_ip4_addr` -/
def bfMatcherGenerateIp4Addr (m : BfMatcher) : Gen Unit := do
  emit (bpfLdxMem .w 1 6 (if m.type = .ip4Saddr then 12 else 16))
  emit (bpfMov32Imm 2 (m.payloadU32 0))
  emitFixupJmpNextRule (bpfJmpReg (mismatchJmp m.op) 1 2 0)

/-- `_bf_matcher_generate_ip4_proto` -/
def bfMatcherGenerateIp4Proto (m : BfMatcher) : Gen Unit := do
  emit (bpfLdxMem .b 1 6 9)
  emitFixupJmpNextRule (bpfJmpImm (mismatchJmp m.op) 1 (m.payloadU8.setWidth 32) 0)

/-- `_bf_ip4_prefix_to_mask` and `_bf_ip6_prefix_to_mask`, on an `n`-byte mask: whole
bytes first, then the partial one.  A longer prefix writes past the mask. -/
def bfPrefixToMask (n prefixlen : Nat) : Option (List Byte) :=
  if 8 * n < prefixlen then none
  else some ((List.range n).map fun i =>
    if i < prefixlen / 8 then 0xff
    else if i = prefixlen / 8 ∧ prefixlen % 8 ≠ 0 then (0xff : Byte) <<< (8 - prefixlen % 8)
    else 0)

/-- `_bf_matcher_generate_ip4_net` -/
def bfMatcherGenerateIp4Net (m : BfMatcher) : Gen Unit := do
  match bfPrefixToMask 4 (m.payloadU32 0).toNat with
  | none => throw .undefined
  | some maskBytes => do
      let mask := leBits 32 maskBytes
      emit (bpfLdxMem .w 1 6 (if m.type = .ip4Snet then 12 else 16))
      emit (bpfMov32Imm 2 (m.payloadU32 1))
      if mask ≠ 0xffffffff then do
        emit (bpfMov32Imm 3 mask)
        emit (bpfAlu32Reg .and 1 3)
        emit (bpfAlu32Reg .and 2 3)
      emitFixupJmpNextRule (bpfJmpReg (mismatchJmp m.op) 1 2 0)

/-- `bf_matcher_generate_ip4` -/
def bfMatcherGenerateIp4 (m : BfMatcher) : Gen Unit := do
  emitFixupJmpNextRule (bpfJmpImm .ne 7 ((htobe16 ethPIp).setWidth 32) 0)
  emit (bpfLdxMem .dw 6 10 (ctxOff .l3Hdr))
  match m.type with
  | .ip4Saddr => bfMatcherGenerateIp4Addr m
  | .ip4Daddr => bfMatcherGenerateIp4Addr m
  | .ip4Proto => bfMatcherGenerateIp4Proto m
  | .ip4Snet => bfMatcherGenerateIp4Net m
  | .ip4Dnet => bfMatcherGenerateIp4Net m
  | _ => throw (.errno .einval)

/-! ## IPv6 -/

/-- `_bf_make32` -/
def bfMake32 (a b c d : Byte) : BitVec 32 := a ++ b ++ c ++ d

/-- Load eight bytes of an address, from index `i` on, into `r3`; clobbers `r4`. -/
def emitAddrHalf (addr : List Byte) (i : Nat) : Gen Unit := do
  emit (bpfMov32Imm 3
    (bfMake32 (addr.getD (i + 7) 0) (addr.getD (i + 6) 0) (addr.getD (i + 5) 0)
      (addr.getD (i + 4) 0)))
  emit (bpfAlu64Imm .lsh 3 32)
  emit (bpfMov32Imm 4
    (bfMake32 (addr.getD (i + 3) 0) (addr.getD (i + 2) 0) (addr.getD (i + 1) 0)
      (addr.getD i 0)))
  emit (bpfAlu64Reg .or 3 4)

/-- Compare the address halves in `r1` and `r2` to `addr`.  For `eq` both halves
must agree; otherwise a disagreement in either half skips the leaving jump. -/
def emitAddrCompare (op : BfMatcherOp) (addr : List Byte) : Gen Unit := do
  if op = .eq then do
    emitAddrHalf addr 0
    emitFixupJmpNextRule (bpfJmpReg .ne 1 3 0)
    emitAddrHalf addr 8
    emitFixupJmpNextRule (bpfJmpReg .ne 2 3 0)
  else do
    emitAddrHalf addr 0
    let j0 ← bfJmpctxGet (bpfJmpReg .ne 1 3 0)
    emitAddrHalf addr 8
    let j1 ← bfJmpctxGet (bpfJmpReg .ne 2 3 0)
    emitFixupJmpNextRule (bpfJmpA 0)
    bfJmpctxCleanup j0
    bfJmpctxCleanup j1

/-- `_bf_matcher_generate_ip6_addr` -/
def bfMatcherGenerateIp6Addr (m : BfMatcher) : Gen Unit := do
  let offset : Nat := if m.type = .ip6Saddr then 8 else 24
  emit (bpfLdxMem .dw 1 6 (BitVec.ofNat 16 offset))
  emit (bpfLdxMem .dw 2 6 (BitVec.ofNat 16 (offset + 8)))
  emitAddrCompare m.op m.payload

/-- `_bf_matcher_generate_ip6_net` -/
def bfMatcherGenerateIp6Net (m : BfMatcher) : Gen Unit := do
  let offset : Nat := if m.type = .ip6Snet then 8 else 24
  emit (bpfLdxMem .dw 1 6 (BitVec.ofNat 16 offset))
  emit (bpfLdxMem .dw 2 6 (BitVec.ofNat 16 (offset + 8)))
  match bfPrefixToMask 16 (m.payloadU32 0).toNat with
  | none => throw .undefined
  | some mask => do
      if mask.getD 15 0 ≠ 0xff then do
        emitAddrHalf mask 0
        emit (bpfAlu64Reg .and 1 3)
        emitAddrHalf mask 8
        emit (bpfAlu64Reg .and 2 3)
      emitAddrCompare m.op (List.zipWith (· &&& ·) ((m.payload.drop 4).take 16) mask)

/-- The bit of the context's extension header mask a header type is recorded in. -/
def bfIpv6EhBit (hdr : BitVec 8) : BitVec 8 :=
  if hdr = ipprotoHopopts then 1
  else if hdr = ipprotoRouting then 2
  else if hdr = ipprotoFragment then 4
  else if hdr = ipprotoAh then 8
  else if hdr = ipprotoDstopts then 16
  else if hdr = ipprotoMh then 32
  else 0

/-- `_bf_matcher_generate_ip6_nexthdr` -/
def bfMatcherGenerateIp6Nexthdr (m : BfMatcher) : Gen Unit := do
  let ehdr := m.payloadU8
  if m.op ≠ .eq ∧ m.op ≠ .ne then throw (.errno .einval)
  if bfIpv6EhBit ehdr ≠ 0 then do
    emit (bpfLdxMem .dw 1 10 (ctxOff .ipv6Eh))
    emit (bpfAlu64Imm .and 1 ((bfIpv6EhBit ehdr).setWidth 32))
    emitFixupJmpNextRule (bpfJmpImm (if m.op = .eq then .eq else .ne) 1 0 0)
  else
    emitFixupJmpNextRule (bpfJmpImm (mismatchJmp m.op) 8 (ehdr.setWidth 32) 0)

/-- `bf_matcher_generate_ip6` -/
def bfMatcherGenerateIp6 (m : BfMatcher) : Gen Unit := do
  emitFixupJmpNextRule (bpfJmpImm .ne 7 ((htobe16 ethPIpv6).setWidth 32) 0)
  emit (bpfLdxMem .dw 6 10 (ctxOff .l3Hdr))
  match m.type with
  | .ip6Saddr => bfMatcherGenerateIp6Addr m
  | .ip6Daddr => bfMatcherGenerateIp6Addr m
  | .ip6Snet => bfMatcherGenerateIp6Net m
  | .ip6Dnet => bfMatcherGenerateIp6Net m
  | .ip6Nexthdr => bfMatcherGenerateIp6Nexthdr m
  | _ => throw (.errno .einval)

/-! ## Ports, flags and ICMP fields -/

/-- Compare the port in `r1` to the payload; ranges are compared in host order. -/
def emitPortCompare (m : BfMatcher) : Gen Unit :=
  match m.op with
  | .eq => emitFixupJmpNextRule (bpfJmpImm .ne 1 ((m.payloadU16 0).setWidth 32) 0)
  | .ne => emitFixupJmpNextRule (bpfJmpImm .eq 1 ((m.payloadU16 0).setWidth 32) 0)
  | .range => do
      emit (bpfBswap 1 16)
      emitFixupJmpNextRule (bpfJmpImm .lt 1 ((m.payloadU16 0).setWidth 32) 0)
      emitFixupJmpNextRule (bpfJmpImm .gt 1 ((m.payloadU16 1).setWidth 32) 0)
  | _ => throw (.errno .einval)

/-- `_bf_matcher_generate_tcp_flags` -/
def bfMatcherGenerateTcpFlags (m : BfMatcher) : Gen Unit := do
  let flags := m.payloadU8.setWidth 32
  emit (bpfLdxMem .b 1 6 13)
  match m.op with
  | .eq => emitFixupJmpNextRule (bpfJmpImm .ne 1 flags 0)
  | .ne => emitFixupJmpNextRule (bpfJmpImm .eq 1 flags 0)
  | .any => do
      emit (bpfAlu32Imm .and 1 flags)
      emitFixupJmpNextRule (bpfJmpImm .eq 1 0 0)
  | .all => do
      emit (bpfAlu32Imm .and 1 flags)
      emitFixupJmpNextRule (bpfJmpImm .ne 1 flags 0)
  | _ => throw (.errno .einval)

/-- `bf_matcher_generate_tcp` -/
def bfMatcherGenerateTcp (m : BfMatcher) : Gen Unit := do
  emitFixupJmpNextRule (bpfJmpImm .ne 8 (ipprotoTcp.setWidth 32) 0)
  emit (bpfLdxMem .dw 6 10 (ctxOff .l4Hdr))
  match m.type with
  | .tcpSport => do
      emit (bpfLdxMem .h 1 6 0)
      emitPortCompare m
  | .tcpDport => do
      emit (bpfLdxMem .h 1 6 2)
      emitPortCompare m
  | .tcpFlags => bfMatcherGenerateTcpFlags m
  | _ => throw (.errno .einval)

/-- `bf_matcher_generate_udp` -/
def bfMatcherGenerateUdp (m : BfMatcher) : Gen Unit := do
  emitFixupJmpNextRule (bpfJmpImm .ne 8 (ipprotoUdp.setWidth 32) 0)
  emit (bpfLdxMem .dw 6 10 (ctxOff .l4Hdr))
  match m.type with
  | .udpSport => do
      emit (bpfLdxMem .h 1 6 0)
      emitPortCompare m
  | .udpDport => do
      emit (bpfLdxMem .h 1 6 2)
      emitPortCompare m
  | _ => throw (.errno .einval)

/-- `_bf_matcher_generate_icmp4_fields` and `_bf_matcher_generate_icmp6_fields` -/
def bfMatcherGenerateIcmpFields (m : BfMatcher) (proto : BitVec 8) (offset : BitVec 16) :
    Gen Unit := do
  emitFixupJmpNextRule (bpfJmpImm .ne 8 (proto.setWidth 32) 0)
  emit (bpfLdxMem .dw 6 10 (ctxOff .l4Hdr))
  emit (bpfLdxMem .b 1 6 offset)
  match m.op with
  | .eq => emitFixupJmpNextRule (bpfJmpImm .ne 1 (m.payloadU8.setWidth 32) 0)
  | .ne => emitFixupJmpNextRule (bpfJmpImm .eq 1 (m.payloadU8.setWidth 32) 0)
  | _ => throw (.errno .einval)

/-- `bf_matcher_generate_icmp` -/
def bfMatcherGenerateIcmp (m : BfMatcher) : Gen Unit :=
  match m.type with
  | .icmpType => bfMatcherGenerateIcmpFields m ipprotoIcmp 0
  | .icmpCode => bfMatcherGenerateIcmpFields m ipprotoIcmp 1
  | .icmpv6Type => bfMatcherGenerateIcmpFields m ipprotoIcmpv6 0
  | .icmpv6Code => bfMatcherGenerateIcmpFields m ipprotoIcmpv6 1
  | _ => throw (.errno .einval)

/-! ## Metadata -/

/-- `BPF_FUNC_get_prandom_u32` -/
def bpfFuncGetPrandomU32 : BitVec 32 := 7

/-- `(uint32_t)((uint64_t)UINT32_MAX * (proba / 100.0))` -/
def probabilityThreshold (proba : BitVec 8) : BitVec 32 :=
  BitVec.ofNat 32 (4294967295 * proba.toNat / 100)

/-- The switch of `_bf_matcher_generate_meta_port`: both headers start with the
two ports. -/
def metaPortSwich (offset : BitVec 16) : BfSwich where
  reg := 8
  options := [
    ⟨ipprotoTcp.setWidth 32, [bpfLdxMem .h 1 6 offset]⟩,
    ⟨ipprotoUdp.setWidth 32, [bpfLdxMem .h 1 6 offset]⟩]
  defaultOpt := some [bpfMov64Imm 1 0]

/-- `_bf_matcher_generate_meta_port` -/
def bfMatcherGenerateMetaPort (m : BfMatcher) : Gen Unit := do
  emit (bpfLdxMem .dw 6 10 (ctxOff .l4Hdr))
  bfSwichGenerate (metaPortSwich (if m.type = .metaSport then 0 else 2))
  emitFixupJmpNextRule (bpfJmpImm .eq 1 0 0)
  emitPortCompare m

/-- `_bf_matcher_generate_meta_mark`; calling a missing callback is undefined. -/
def bfMatcherGenerateMetaMark (m : BfMatcher) : Gen Unit := do
  match (bfFlavorOpsGet (← get).flavor).genInlineGetMark with
  | none => throw .undefined
  | some getMark => do
      getMark 1
      match m.op with
      | .eq => emitFixupJmpNextRule (bpfJmpImm .ne 1 (m.payloadU32 0) 0)
      | .ne => emitFixupJmpNextRule (bpfJmpImm .eq 1 (m.payloadU32 0) 0)
      | _ => throw (.errno .einval)

/-- `bf_matcher_generate_meta` -/
def bfMatcherGenerateMeta (m : BfMatcher) : Gen Unit :=
  match m.type with
  | .metaIface => do
      emit (bpfLdxMem .h 1 10 (ctxOff .ifindex))
      emitFixupJmpNextRule (bpfJmpImm .ne 1 (m.payloadU32 0) 0)
  | .metaL3Proto =>
      emitFixupJmpNextRule (bpfJmpImm .ne 7 ((htobe16 (m.payloadU16 0)).setWidth 32) 0)
  | .metaL4Proto =>
      emitFixupJmpNextRule (bpfJmpImm (mismatchJmp m.op) 8 (m.payloadU8.setWidth 32) 0)
  | .metaProbability => do
      emit (bpfEmitCall bpfFuncGetPrandomU32)
      emitFixupJmpNextRule (bpfJmpImm .gt 0 (probabilityThreshold m.payloadU8) 0)
  | .metaSport => bfMatcherGenerateMetaPort m
  | .metaDport => bfMatcherGenerateMetaPort m
  | .metaMark => bfMatcherGenerateMetaMark m
  | _ => throw (.errno .einval)

/-! ## Sets -/

/-- `BPF_FUNC_map_lookup_elem` -/
def bpfFuncMapLookupElem : BitVec 32 := 1

/-- Look the key at scratch offset `keyOff` up in set map `index`; leave the rule
when it is absent. -/
def emitSetLookup (index keyOff : Nat) : Gen Unit := do
  emitLoadSetFdFixup 1 index
  emit (bpfMov64Reg 2 10)
  emit (bpfAlu64Imm .add 2 (scrImm keyOff))
  emit (bpfEmitCall bpfFuncMapLookupElem)
  emitFixupJmpNextRule (bpfJmpImm .eq 0 0 0)

/-- `_bf_matcher_generate_set_trie` -/
def bfMatcherGenerateSetTrie (index : Nat) (type : BfMatcherType) : Gen Unit := do
  match bfMatcherGetMeta type with
  | none => throw .undefined
  | some info => do
      bfStubRuleCheckProtocol info
      bfStubLoadHeader info 6
      match type with
      | .ip4Snet | .ip4Dnet => do
          emit (bpfMov64Imm 1 32)
          emit (bpfStxMem .w 10 1 (scrOff 4))
          emit (bpfLdxMem .w 1 6 (BitVec.ofNat 16 info.hdrPayloadOffset))
          emit (bpfStxMem .w 10 1 (scrOff 8))
      | .ip6Snet | .ip6Dnet => do
          emit (bpfMov64Imm 1 128)
          emit (bpfStxMem .w 10 1 (scrOff 4))
          emit (bpfLdxMem .dw 1 6 (BitVec.ofNat 16 info.hdrPayloadOffset))
          emit (bpfStxMem .dw 10 1 (scrOff 8))
          emit (bpfLdxMem .dw 1 6 (BitVec.ofNat 16 (info.hdrPayloadOffset + 8)))
          emit (bpfStxMem .dw 10 1 (scrOff 16))
      | _ => throw (.errno .einval)
      emitSetLookup index 4

/-- First loop of `bf_matcher_generate_set`: the protocols of all components. -/
def setCheckProtocols : List BfMatcherType → Gen Unit
  | [] => pure ()
  | type :: rest => do
      match bfMatcherGetMeta type with
      | none => throw (.errno .enoent)
      | some info => bfStubRuleCheckProtocol info
      setCheckProtocols rest

/-- Second loop of `bf_matcher_generate_set`: copy the components one after the
other into the scratch area. -/
def setBuildKey : Nat → List BfMatcherType → Gen Unit
  | _, [] => pure ()
  | offset, type :: rest => do
      match bfMatcherGetMeta type with
      | none => throw (.errno .enoent)
      | some info => do
          bfStubLoadHeader info 6
          bfStubStxPayload info offset
          setBuildKey (offset + info.hdrPayloadSize) rest

/-- `bf_matcher_generate_set` -/
def bfMatcherGenerateSet (m : BfMatcher) : Gen Unit := do
  match bfChainGetSetForMatcher (← get).chain m with
  | none => throw (.errno .enoent)
  | some set =>
      if set.useTrie then
        match set.key with
        | [] => throw .undefined
        | type :: _ => bfMatcherGenerateSetTrie (m.payloadU32 0).toNat type
      else do
        setCheckProtocols set.key
        setBuildKey 0 set.key
        emitSetLookup (m.payloadU32 0).toNat 0

/-! ## Dispatch -/

/-- The matcher switch of `_bf_program_generate_rule`. -/
def bfMatcherGenerate (m : BfMatcher) : Gen Unit :=
  match m.type with
  | .metaIface | .metaL3Proto | .metaL4Proto | .metaProbability | .metaSport | .metaDport
  | .metaMark => bfMatcherGenerateMeta m
  | .ip4Saddr | .ip4Snet | .ip4Daddr | .ip4Dnet | .ip4Proto => bfMatcherGenerateIp4 m
  | .ip6Saddr | .ip6Snet | .ip6Daddr | .ip6Dnet | .ip6Nexthdr => bfMatcherGenerateIp6 m
  | .tcpSport | .tcpDport | .tcpFlags => bfMatcherGenerateTcp m
  | .udpSport | .udpDport => bfMatcherGenerateUdp m
  | .icmpType | .icmpCode | .icmpv6Type | .icmpv6Code => bfMatcherGenerateIcmp m
  | .set => bfMatcherGenerateSet m

end Bpfilter

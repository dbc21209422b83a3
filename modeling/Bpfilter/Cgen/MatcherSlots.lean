/-
# Cgen.MatcherSlots -- the code of every matcher, slot by slot

`matcherSlots` is what `bfMatcherGenerate` emits for a matcher, whenever it
succeeds (`bfMatcherGenerate_spec`).  It depends on the chain for set matchers
and on the kernel's layout for mark matchers, on nothing else: in particular not
on the program emitted before.
-/
import Bpfilter.Cgen.Assembly

namespace Bpfilter

set_option autoImplicit false

open Ebpf

/-! ## Emission that may fail -/

/-- Whenever the generator succeeds, it has appended `es`. -/
def Emits (host : Host) (chain : BfChain) (gen : Gen Unit) (es : List Emitted) : Prop :=
  ∀ p p', p.Tracked → p.host = host → p.chain = chain → gen p = .ok ((), p') → p' = p.append es

section Emission

variable {host : Host} {chain : BfChain}

theorem Emits.of_eq {gen : Gen Unit} {es : List Emitted}
    (eq : ∀ p, p.Tracked → gen p = .ok ((), p.append es)) : Emits host chain gen es := by
  intro p p' tracked _ _ ran
  cases (eq p tracked).symm.trans ran
  rfl

theorem Emits.throw (e : GenErr) (es : List Emitted) : Emits host chain (throw e) es := by
  intro p p' _ _ _ ran
  cases ran

theorem Emits.bind {x y : Gen Unit} {a b : List Emitted} (first : Emits host chain x a)
    (second : Emits host chain y b) :
    Emits host chain (do
      x
      y) (a ++ b) := by
  intro p p' tracked hostEq chainEq ran
  obtain ⟨_, p₁, ran₁, ran₂⟩ := gen_bind_inv ran
  obtain rfl := first p p₁ tracked hostEq chainEq ran₁
  rw [second _ p' (tracked.append a) hostEq chainEq ran₂, BfProgram.append_append]

theorem Emits.emit (insn : BpfInsn) : Emits host chain (emit insn) [{ insn := insn }] :=
  .of_eq fun p _ => emit_eq insn p

theorem Emits.next (insn : BpfInsn) :
    Emits host chain (emitFixupJmpNextRule insn) [nextSlot insn] :=
  .of_eq fun p _ => emitFixup_eq _ insn p

theorem Emits.emit_bind {y : Gen Unit} {b : List Emitted} (insn : BpfInsn)
    (second : Emits host chain y b) :
    Emits host chain (do
      Bpfilter.emit insn
      y) ({ insn := insn } :: b) :=
  .bind (.emit insn) second

theorem Emits.next_bind {y : Gen Unit} {b : List Emitted} (insn : BpfInsn)
    (second : Emits host chain y b) :
    Emits host chain (do
      emitFixupJmpNextRule insn
      y) (nextSlot insn :: b) :=
  .bind (.next insn) second

theorem Emits.get_bind {f : BfProgram → Gen Unit} {es : List Emitted}
    (rest : ∀ p, p.host = host → p.chain = chain → Emits host chain (f p) es) :
    Emits host chain (do
      let p ← get
      f p) es := by
  intro p p' tracked hostEq chainEq ran
  rw [gen_bind_ok (gen_get p)] at ran
  exact rest p hostEq chainEq p p' tracked hostEq chainEq ran

end Emission

variable {host : Host} {chain : BfChain}

/-! ## IPv4 -/

def ip4AddrSlots (m : BfMatcher) : List Emitted :=
  [bpfLdxMem .w 1 6 (if m.type = .ip4Saddr then 12 else 16), bpfMov32Imm 2 (m.payloadU32 0),
    nextSlot (bpfJmpReg (mismatchJmp m.op) 1 2 0)]

def ip4ProtoSlots (m : BfMatcher) : List Emitted :=
  [bpfLdxMem .b 1 6 9, nextSlot (bpfJmpImm (mismatchJmp m.op) 1 (m.payloadU8.setWidth 32) 0)]

/-- The mask of a prefix length that is not too long. -/
def netMask (n prefixlen : Nat) : List Byte := (bfPrefixToMask n prefixlen).getD []

def ip4MaskSlots (mask : BitVec 32) : List Emitted :=
  if mask ≠ 0xffffffff then
    [bpfMov32Imm 3 mask, bpfAlu32Reg .and 1 3, bpfAlu32Reg .and 2 3]
  else []

def ip4NetSlots (m : BfMatcher) : List Emitted :=
  { insn := bpfLdxMem .w 1 6 (if m.type = .ip4Snet then 12 else 16) } ::
    { insn := bpfMov32Imm 2 (m.payloadU32 1) } ::
    (ip4MaskSlots (leBits 32 (netMask 4 (m.payloadU32 0).toNat)) ++
      [nextSlot (bpfJmpReg (mismatchJmp m.op) 1 2 0)])

def ip4Slots (m : BfMatcher) : List Emitted :=
  nextSlot (bpfJmpImm .ne 7 ((htobe16 ethPIp).setWidth 32) 0) ::
    { insn := bpfLdxMem .dw 6 10 (ctxOff .l3Hdr) } ::
    (match m.type with
      | .ip4Saddr => ip4AddrSlots m
      | .ip4Daddr => ip4AddrSlots m
      | .ip4Proto => ip4ProtoSlots m
      | .ip4Snet => ip4NetSlots m
      | .ip4Dnet => ip4NetSlots m
      | _ => [])

theorem bfMatcherGenerateIp4Addr_emits (m : BfMatcher) :
    Emits host chain (bfMatcherGenerateIp4Addr m) (ip4AddrSlots m) :=
  .emit_bind _ (.emit_bind _ (.next _))

theorem bfMatcherGenerateIp4Proto_emits (m : BfMatcher) :
    Emits host chain (bfMatcherGenerateIp4Proto m) (ip4ProtoSlots m) :=
  .emit_bind _ (.next _)

theorem bfMatcherGenerateIp4Net_emits (m : BfMatcher) :
    Emits host chain (bfMatcherGenerateIp4Net m) (ip4NetSlots m) := by
  unfold bfMatcherGenerateIp4Net ip4NetSlots netMask
  split
  · exact .throw _ _
  · rename_i mask known
    rw [known, Option.getD_some]
    refine .emit_bind _ (.emit_bind _ ?_)
    unfold ip4MaskSlots
    by_cases full : leBits 32 mask = 0xffffffff
    · simp only [full, ne_eq, not_true, if_false]
      exact .next _
    · simp only [full, ne_eq, not_false_eq_true, if_true]
      exact .emit_bind _ (.emit_bind _ (.emit_bind _ (.next _)))

theorem bfMatcherGenerateIp4_emits (m : BfMatcher) :
    Emits host chain (bfMatcherGenerateIp4 m) (ip4Slots m) := by
  refine .next_bind _ (.emit_bind _ ?_)
  cases m.type with
  | ip4Saddr => exact bfMatcherGenerateIp4Addr_emits m
  | ip4Daddr => exact bfMatcherGenerateIp4Addr_emits m
  | ip4Proto => exact bfMatcherGenerateIp4Proto_emits m
  | ip4Snet => exact bfMatcherGenerateIp4Net_emits m
  | ip4Dnet => exact bfMatcherGenerateIp4Net_emits m
  | _ => exact .throw _ _

/-! ## IPv6 -/

def addrHalfSlots (addr : List Byte) (i : Nat) : List Emitted :=
  [bpfMov32Imm 3
      (bfMake32 (addr.getD (i + 7) 0) (addr.getD (i + 6) 0) (addr.getD (i + 5) 0)
        (addr.getD (i + 4) 0)),
    bpfAlu64Imm .lsh 3 32,
    bpfMov32Imm 4
      (bfMake32 (addr.getD (i + 3) 0) (addr.getD (i + 2) 0) (addr.getD (i + 1) 0)
        (addr.getD i 0)),
    bpfAlu64Reg .or 3 4]

def addrCompareSlots (op : BfMatcherOp) (addr : List Byte) : List Emitted :=
  if op = .eq then
    addrHalfSlots addr 0 ++ nextSlot (bpfJmpReg .ne 1 3 0) ::
      (addrHalfSlots addr 8 ++ [nextSlot (bpfJmpReg .ne 2 3 0)])
  else
    addrHalfSlots addr 0 ++ jumpSlot (bpfJmpReg .ne 1 3 0) 6 ::
      (addrHalfSlots addr 8 ++ [jumpSlot (bpfJmpReg .ne 2 3 0) 1, nextSlot (bpfJmpA 0)])

def ip6LoadSlots (offset : Nat) : List Emitted :=
  [bpfLdxMem .dw 1 6 (BitVec.ofNat 16 offset), bpfLdxMem .dw 2 6 (BitVec.ofNat 16 (offset + 8))]

def ip6AddrSlots (m : BfMatcher) : List Emitted :=
  ip6LoadSlots (if m.type = .ip6Saddr then 8 else 24) ++ addrCompareSlots m.op m.payload

def ip6MaskSlots (mask : List Byte) : List Emitted :=
  if mask.getD 15 0 ≠ 0xff then
    addrHalfSlots mask 0 ++ { insn := bpfAlu64Reg .and 1 3 } ::
      (addrHalfSlots mask 8 ++ [{ insn := bpfAlu64Reg .and 2 3 }])
  else []

def ip6NetSlots (m : BfMatcher) : List Emitted :=
  ip6LoadSlots (if m.type = .ip6Snet then 8 else 24) ++
    (ip6MaskSlots (netMask 16 (m.payloadU32 0).toNat) ++
      addrCompareSlots m.op
        (List.zipWith (· &&& ·) ((m.payload.drop 4).take 16) (netMask 16 (m.payloadU32 0).toNat)))

def ip6NexthdrSlots (m : BfMatcher) : List Emitted :=
  if bfIpv6EhBit m.payloadU8 ≠ 0 then
    [bpfLdxMem .dw 1 10 (ctxOff .ipv6Eh),
      bpfAlu64Imm .and 1 ((bfIpv6EhBit m.payloadU8).setWidth 32),
      nextSlot (bpfJmpImm (if m.op = .eq then .eq else .ne) 1 0 0)]
  else [nextSlot (bpfJmpImm (mismatchJmp m.op) 8 (m.payloadU8.setWidth 32) 0)]

def ip6Slots (m : BfMatcher) : List Emitted :=
  nextSlot (bpfJmpImm .ne 7 ((htobe16 ethPIpv6).setWidth 32) 0) ::
    { insn := bpfLdxMem .dw 6 10 (ctxOff .l3Hdr) } ::
    (match m.type with
      | .ip6Saddr => ip6AddrSlots m
      | .ip6Daddr => ip6AddrSlots m
      | .ip6Snet => ip6NetSlots m
      | .ip6Dnet => ip6NetSlots m
      | .ip6Nexthdr => ip6NexthdrSlots m
      | _ => [])

theorem emitAddrHalf_emits (addr : List Byte) (i : Nat) :
    Emits host chain (emitAddrHalf addr i) (addrHalfSlots addr i) :=
  .emit_bind _ (.emit_bind _ (.emit_bind _ (.emit _)))

theorem emitAddrCompare_emits (op : BfMatcherOp) (addr : List Byte) :
    Emits host chain (emitAddrCompare op addr) (addrCompareSlots op addr) := by
  unfold emitAddrCompare addrCompareSlots
  split_ifs with eq
  · exact .bind (emitAddrHalf_emits _ _)
      (.next_bind _ (.bind (emitAddrHalf_emits _ _) (.next _)))
  · refine .of_eq fun p tracked => ?_
    rw [← p.append_nil]
    simp (disch := simp) only [emitAddrHalf, emitFixupJmpNextRule, gen_bind, emit_append,
      emitFixup_append, bfJmpctxGet_append, List.nil_append, List.cons_append,
      BfProgram.append_append, List.length_nil, List.length_cons, Nat.reduceAdd,
      bfJmpctxCleanup_eq p tracked, closeSlot, List.modify_zero_cons, List.modify_succ_cons,
      Nat.reduceSub]
    rfl

theorem bfMatcherGenerateIp6Addr_emits (m : BfMatcher) :
    Emits host chain (bfMatcherGenerateIp6Addr m) (ip6AddrSlots m) :=
  .emit_bind _ (.emit_bind _ (emitAddrCompare_emits _ _))

theorem bfMatcherGenerateIp6Net_emits (m : BfMatcher) :
    Emits host chain (bfMatcherGenerateIp6Net m) (ip6NetSlots m) := by
  refine .emit_bind _ (.emit_bind _ ?_)
  unfold netMask
  split
  · exact .throw _ _
  · rename_i mask known
    rw [known, Option.getD_some]
    show Emits host chain _ (ip6MaskSlots mask ++ _)
    unfold ip6MaskSlots
    by_cases full : mask.getD 15 0 = 0xff
    · simp only [full, ne_eq, not_true, if_false]
      exact emitAddrCompare_emits _ _
    · simp only [full, ne_eq, not_false_eq_true, if_true, List.append_assoc, List.cons_append,
        List.nil_append]
      exact .bind (emitAddrHalf_emits _ _) (.emit_bind _ (.bind (emitAddrHalf_emits _ _)
        (.emit_bind _ (emitAddrCompare_emits _ _))))

theorem bfMatcherGenerateIp6Nexthdr_emits (m : BfMatcher) :
    Emits host chain (bfMatcherGenerateIp6Nexthdr m) (ip6NexthdrSlots m) := by
  unfold bfMatcherGenerateIp6Nexthdr ip6NexthdrSlots
  by_cases known : m.op ≠ .eq ∧ m.op ≠ .ne
  · simp only [known, ne_eq, not_false_eq_true, and_self, if_true]
    intro p p' _ _ _ ran
    simp [gen_bind, gen_throw] at ran
  · simp only [known, if_false]
    by_cases extension : bfIpv6EhBit m.payloadU8 = 0
    · simp only [extension, ne_eq, not_true, if_false]
      exact .next _
    · simp only [extension, ne_eq, not_false_eq_true, if_true]
      exact .emit_bind _ (.emit_bind _ (.next _))

theorem bfMatcherGenerateIp6_emits (m : BfMatcher) :
    Emits host chain (bfMatcherGenerateIp6 m) (ip6Slots m) := by
  refine .next_bind _ (.emit_bind _ ?_)
  cases m.type with
  | ip6Saddr => exact bfMatcherGenerateIp6Addr_emits m
  | ip6Daddr => exact bfMatcherGenerateIp6Addr_emits m
  | ip6Snet => exact bfMatcherGenerateIp6Net_emits m
  | ip6Dnet => exact bfMatcherGenerateIp6Net_emits m
  | ip6Nexthdr => exact bfMatcherGenerateIp6Nexthdr_emits m
  | _ => exact .throw _ _

/-! ## Ports, flags and ICMP fields -/

def portSlots (m : BfMatcher) : List Emitted :=
  match m.op with
  | .eq => [nextSlot (bpfJmpImm .ne 1 ((m.payloadU16 0).setWidth 32) 0)]
  | .ne => [nextSlot (bpfJmpImm .eq 1 ((m.payloadU16 0).setWidth 32) 0)]
  | .range =>
      [bpfBswap 1 16, nextSlot (bpfJmpImm .lt 1 ((m.payloadU16 0).setWidth 32) 0),
        nextSlot (bpfJmpImm .gt 1 ((m.payloadU16 1).setWidth 32) 0)]
  | _ => []

def tcpFlagsSlots (m : BfMatcher) : List Emitted :=
  { insn := bpfLdxMem .b 1 6 13 } ::
    (match m.op with
      | .eq => [nextSlot (bpfJmpImm .ne 1 (m.payloadU8.setWidth 32) 0)]
      | .ne => [nextSlot (bpfJmpImm .eq 1 (m.payloadU8.setWidth 32) 0)]
      | .any => [bpfAlu32Imm .and 1 (m.payloadU8.setWidth 32), nextSlot (bpfJmpImm .eq 1 0 0)]
      | .all =>
          [bpfAlu32Imm .and 1 (m.payloadU8.setWidth 32),
            nextSlot (bpfJmpImm .ne 1 (m.payloadU8.setWidth 32) 0)]
      | _ => [])

/-- The start of every layer 4 matcher. -/
def l4Slots (proto : BitVec 8) (rest : List Emitted) : List Emitted :=
  nextSlot (bpfJmpImm .ne 8 (proto.setWidth 32) 0) ::
    { insn := bpfLdxMem .dw 6 10 (ctxOff .l4Hdr) } :: rest

def tcpSlots (m : BfMatcher) : List Emitted :=
  l4Slots ipprotoTcp
    (match m.type with
      | .tcpSport => { insn := bpfLdxMem .h 1 6 0 } :: portSlots m
      | .tcpDport => { insn := bpfLdxMem .h 1 6 2 } :: portSlots m
      | .tcpFlags => tcpFlagsSlots m
      | _ => [])

def udpSlots (m : BfMatcher) : List Emitted :=
  l4Slots ipprotoUdp
    (match m.type with
      | .udpSport => { insn := bpfLdxMem .h 1 6 0 } :: portSlots m
      | .udpDport => { insn := bpfLdxMem .h 1 6 2 } :: portSlots m
      | _ => [])

def icmpFieldSlots (m : BfMatcher) (proto : BitVec 8) (offset : BitVec 16) : List Emitted :=
  l4Slots proto
    ({ insn := bpfLdxMem .b 1 6 offset } ::
      (match m.op with
        | .eq => [nextSlot (bpfJmpImm .ne 1 (m.payloadU8.setWidth 32) 0)]
        | .ne => [nextSlot (bpfJmpImm .eq 1 (m.payloadU8.setWidth 32) 0)]
        | _ => []))

def icmpSlots (m : BfMatcher) : List Emitted :=
  match m.type with
  | .icmpType => icmpFieldSlots m ipprotoIcmp 0
  | .icmpCode => icmpFieldSlots m ipprotoIcmp 1
  | .icmpv6Type => icmpFieldSlots m ipprotoIcmpv6 0
  | .icmpv6Code => icmpFieldSlots m ipprotoIcmpv6 1
  | _ => []

theorem emitPortCompare_emits (m : BfMatcher) :
    Emits host chain (emitPortCompare m) (portSlots m) := by
  unfold emitPortCompare portSlots
  cases m.op with
  | eq => exact .next _
  | ne => exact .next _
  | range => exact .emit_bind _ (.next_bind _ (.next _))
  | _ => exact .throw _ _

theorem bfMatcherGenerateTcpFlags_emits (m : BfMatcher) :
    Emits host chain (bfMatcherGenerateTcpFlags m) (tcpFlagsSlots m) := by
  refine .emit_bind _ ?_
  cases m.op with
  | eq => exact .next _
  | ne => exact .next _
  | any => exact .emit_bind _ (.next _)
  | all => exact .emit_bind _ (.next _)
  | _ => exact .throw _ _

theorem bfMatcherGenerateTcp_emits (m : BfMatcher) :
    Emits host chain (bfMatcherGenerateTcp m) (tcpSlots m) := by
  refine .next_bind _ (.emit_bind _ ?_)
  cases m.type with
  | tcpSport => exact .emit_bind _ (emitPortCompare_emits m)
  | tcpDport => exact .emit_bind _ (emitPortCompare_emits m)
  | tcpFlags => exact bfMatcherGenerateTcpFlags_emits m
  | _ => exact .throw _ _

theorem bfMatcherGenerateUdp_emits (m : BfMatcher) :
    Emits host chain (bfMatcherGenerateUdp m) (udpSlots m) := by
  refine .next_bind _ (.emit_bind _ ?_)
  cases m.type with
  | udpSport => exact .emit_bind _ (emitPortCompare_emits m)
  | udpDport => exact .emit_bind _ (emitPortCompare_emits m)
  | _ => exact .throw _ _

theorem bfMatcherGenerateIcmpFields_emits (m : BfMatcher) (proto : BitVec 8)
    (offset : BitVec 16) :
    Emits host chain (bfMatcherGenerateIcmpFields m proto offset)
      (icmpFieldSlots m proto offset) := by
  refine .next_bind _ (.emit_bind _ (.emit_bind _ ?_))
  cases m.op with
  | eq => exact .next _
  | ne => exact .next _
  | _ => exact .throw _ _

theorem bfMatcherGenerateIcmp_emits (m : BfMatcher) :
    Emits host chain (bfMatcherGenerateIcmp m) (icmpSlots m) := by
  unfold bfMatcherGenerateIcmp icmpSlots
  cases m.type with
  | icmpType => exact bfMatcherGenerateIcmpFields_emits m _ _
  | icmpCode => exact bfMatcherGenerateIcmpFields_emits m _ _
  | icmpv6Type => exact bfMatcherGenerateIcmpFields_emits m _ _
  | icmpv6Code => exact bfMatcherGenerateIcmpFields_emits m _ _
  | _ => exact .throw _ _

/-! ## Metadata -/

def metaPortSlots (m : BfMatcher) : List Emitted :=
  { insn := bpfLdxMem .dw 6 10 (ctxOff .l4Hdr) } ::
    (swich2Slots 8 (ipprotoTcp.setWidth 32) (ipprotoUdp.setWidth 32)
        (bpfLdxMem .h 1 6 (if m.type = .metaSport then 0 else 2))
        (bpfLdxMem .h 1 6 (if m.type = .metaSport then 0 else 2)) (bpfMov64Imm 1 0) ++
      nextSlot (bpfJmpImm .eq 1 0 0) :: portSlots m)

/-- Load the packet's mark into `r1`. -/
def getMarkSlots (host : Host) : BfFlavor → List Emitted
  | .nf =>
      [bpfLdxMem .dw 1 10 (ctxOff .arg), bpfLdxMem .dw 2 1 (host.fieldOff .bpfNfCtxSkb),
        bpfLdxMem .w 1 2 (host.fieldOff .skBuffMark)]
  | .tc => [bpfLdxMem .dw 1 10 (ctxOff .arg), bpfLdxMem .w 1 1 uSkBuffMark]
  | .cgroup => [bpfLdxMem .dw 1 10 (ctxOff .arg), bpfLdxMem .w 1 1 uSkBuffMark]
  | .xdp => []

def metaMarkSlots (host : Host) (flavor : BfFlavor) (m : BfMatcher) : List Emitted :=
  getMarkSlots host flavor ++
    (match m.op with
      | .eq => [nextSlot (bpfJmpImm .ne 1 (m.payloadU32 0) 0)]
      | .ne => [nextSlot (bpfJmpImm .eq 1 (m.payloadU32 0) 0)]
      | _ => [])

def metaSlots (host : Host) (chain : BfChain) (m : BfMatcher) : List Emitted :=
  match m.type with
  | .metaIface =>
      [bpfLdxMem .h 1 10 (ctxOff .ifindex), nextSlot (bpfJmpImm .ne 1 (m.payloadU32 0) 0)]
  | .metaL3Proto =>
      [nextSlot (bpfJmpImm .ne 7 ((htobe16 (m.payloadU16 0)).setWidth 32) 0)]
  | .metaL4Proto =>
      [nextSlot (bpfJmpImm (mismatchJmp m.op) 8 (m.payloadU8.setWidth 32) 0)]
  | .metaProbability =>
      [bpfEmitCall bpfFuncGetPrandomU32,
        nextSlot (bpfJmpImm .gt 0 (probabilityThreshold m.payloadU8) 0)]
  | .metaSport => metaPortSlots m
  | .metaDport => metaPortSlots m
  | .metaMark => metaMarkSlots host (bfHookToFlavor chain.hook) m
  | _ => []

theorem bfMatcherGenerateMetaPort_emits (m : BfMatcher) :
    Emits host chain (bfMatcherGenerateMetaPort m) (metaPortSlots m) := by
  refine .emit_bind _ (.bind (.of_eq fun p tracked => ?_)
    (.next_bind _ (emitPortCompare_emits m)))
  exact swich2_eq tracked ..

theorem genInlineGetMark_emits {flavor : BfFlavor} {getMark : Reg → Gen Unit}
    (known : (bfFlavorOpsGet flavor).genInlineGetMark = some getMark) :
    Emits host chain (getMark 1) (getMarkSlots host flavor) := by
  cases flavor with
  | xdp => cases known
  | tc =>
      cases known
      exact .emit_bind _ (.emit _)
  | cgroup =>
      cases known
      exact .emit_bind _ (.emit _)
  | nf =>
      cases known
      intro p p' tracked hostEq _ ran
      simp only [bfNfGenInlineGetMark, gen_bind_ok (emit_eq _ _)] at ran
      obtain ⟨skb, _, lookup, ran⟩ := gen_bind_inv ran
      obtain ⟨rfl, rfl⟩ := btfGetFieldOff_inv lookup
      rw [gen_bind_ok (emit_eq _ _)] at ran
      obtain ⟨mark, _, lookup, ran⟩ := gen_bind_inv ran
      obtain ⟨rfl, rfl⟩ := btfGetFieldOff_inv lookup
      rw [emit_eq] at ran
      cases ran
      simp only [BfProgram.append_append, BfProgram.append_host, hostEq]
      rfl

theorem bfMatcherGenerateMetaMark_emits (m : BfMatcher) :
    Emits host chain (bfMatcherGenerateMetaMark m)
      (metaMarkSlots host (bfHookToFlavor chain.hook) m) := by
  refine .get_bind fun p hostEq chainEq => ?_
  rw [BfProgram.flavor, chainEq]
  cases known : (bfFlavorOpsGet (bfHookToFlavor chain.hook)).genInlineGetMark with
  | none => exact .throw _ _
  | some getMark =>
      refine .bind (genInlineGetMark_emits known) ?_
      cases m.op with
      | eq => exact .next _
      | ne => exact .next _
      | _ => exact .throw _ _

theorem bfMatcherGenerateMeta_emits (m : BfMatcher) :
    Emits host chain (bfMatcherGenerateMeta m) (metaSlots host chain m) := by
  unfold bfMatcherGenerateMeta metaSlots
  cases m.type with
  | metaIface => exact .emit_bind _ (.next _)
  | metaL3Proto => exact .next _
  | metaL4Proto => exact .next _
  | metaProbability => exact .emit_bind _ (.next _)
  | metaSport => exact bfMatcherGenerateMetaPort_emits m
  | metaDport => exact bfMatcherGenerateMetaPort_emits m
  | metaMark => exact bfMatcherGenerateMetaMark_emits m
  | _ => exact .throw _ _

/-! ## Sets -/

def checkProtocolSlots (info : BfMatcherMeta) : List Emitted :=
  match info.layer with
  | .layer3 =>
      [nextSlot (bpfJmpImm .ne 7 ((htobe16 (info.hdrId.setWidth 16)).setWidth 32) 0)]
  | .layer4 => [nextSlot (bpfJmpImm .ne 8 ((info.hdrId.setWidth 8).setWidth 32) 0)]
  | _ => []

def loadHeaderSlots (info : BfMatcherMeta) : List Emitted :=
  match info.layer with
  | .layer3 => [bpfLdxMem .dw 6 10 (ctxOff .l3Hdr)]
  | .layer4 => [bpfLdxMem .dw 6 10 (ctxOff .l4Hdr)]
  | _ => []

def stxPayloadSlots (hdrOffset offset src remaining : Nat) : List Emitted :=
  if remaining = 0 then []
  else
    { insn := bpfLdxMem (stxCopySize offset remaining) 1 6 (BitVec.ofNat 16 (hdrOffset + src)) } ::
    { insn := bpfStxMem (stxCopySize offset remaining) 10 1 (scrOff (offset + src)) } ::
    stxPayloadSlots hdrOffset offset (src + (stxCopySize offset remaining).bytes)
      (remaining - (stxCopySize offset remaining).bytes)
termination_by remaining
decreasing_by
  have := stxCopySize_bytes_pos offset remaining
  omega

def setLookupSlots (index keyOff : Nat) : List Emitted :=
  loadFdSlots (.setMapFd index) 1 ++
    ([bpfMov64Reg 2 10, bpfAlu64Imm .add 2 (scrImm keyOff), bpfEmitCall bpfFuncMapLookupElem,
      nextSlot (bpfJmpImm .eq 0 0 0)] : List Emitted)

/-- The key of a trie: the full prefix length, then the address. -/
def trieKeySlots (type : BfMatcherType) (hdrOffset : Nat) : List Emitted :=
  match type with
  | .ip4Snet | .ip4Dnet =>
      [bpfMov64Imm 1 32, bpfStxMem .w 10 1 (scrOff 4),
        bpfLdxMem .w 1 6 (BitVec.ofNat 16 hdrOffset), bpfStxMem .w 10 1 (scrOff 8)]
  | .ip6Snet | .ip6Dnet =>
      [bpfMov64Imm 1 128, bpfStxMem .w 10 1 (scrOff 4),
        bpfLdxMem .dw 1 6 (BitVec.ofNat 16 hdrOffset), bpfStxMem .dw 10 1 (scrOff 8),
        bpfLdxMem .dw 1 6 (BitVec.ofNat 16 (hdrOffset + 8)), bpfStxMem .dw 10 1 (scrOff 16)]
  | _ => []

def setTrieSlots (index : Nat) (type : BfMatcherType) : List Emitted :=
  match bfMatcherGetMeta type with
  | none => []
  | some info =>
      checkProtocolSlots info ++ (loadHeaderSlots info ++
        (trieKeySlots type info.hdrPayloadOffset ++ setLookupSlots index 4))

def setProtocolsSlots : List BfMatcherType → List Emitted
  | [] => []
  | type :: rest =>
      (match bfMatcherGetMeta type with
        | none => []
        | some info => checkProtocolSlots info) ++ setProtocolsSlots rest

def setKeySlots : Nat → List BfMatcherType → List Emitted
  | _, [] => []
  | offset, type :: rest =>
      match bfMatcherGetMeta type with
      | none => []
      | some info =>
          loadHeaderSlots info ++
            (stxPayloadSlots info.hdrPayloadOffset offset 0 info.hdrPayloadSize ++
              setKeySlots (offset + info.hdrPayloadSize) rest)

def setSlots (chain : BfChain) (m : BfMatcher) : List Emitted :=
  match bfChainGetSetForMatcher chain m with
  | none => []
  | some set =>
      if set.useTrie then
        match set.key with
        | [] => []
        | type :: _ => setTrieSlots (m.payloadU32 0).toNat type
      else
        setProtocolsSlots set.key ++
          (setKeySlots 0 set.key ++ setLookupSlots (m.payloadU32 0).toNat 0)

theorem bfStubRuleCheckProtocol_emits (info : BfMatcherMeta) :
    Emits host chain (bfStubRuleCheckProtocol info) (checkProtocolSlots info) := by
  unfold bfStubRuleCheckProtocol checkProtocolSlots
  cases info.layer with
  | layer3 => exact .next _
  | layer4 => exact .next _
  | _ => exact .throw _ _

theorem bfStubLoadHeader_emits (info : BfMatcherMeta) :
    Emits host chain (bfStubLoadHeader info 6) (loadHeaderSlots info) := by
  unfold bfStubLoadHeader loadHeaderSlots
  cases info.layer with
  | layer3 => exact .emit _
  | layer4 => exact .emit _
  | _ => exact .throw _ _

theorem stxPayloadLoop_emits (hdrOffset offset src remaining : Nat) :
    Emits host chain (stxPayloadLoop hdrOffset offset src remaining)
      (stxPayloadSlots hdrOffset offset src remaining) := by
  induction remaining using Nat.strong_induction_on generalizing src with
  | _ remaining ih =>
      unfold stxPayloadLoop stxPayloadSlots
      split
      · exact .of_eq fun p _ => by simp [gen_pure]
      · have smaller : remaining - (stxCopySize offset remaining).bytes < remaining := by
          have := stxCopySize_bytes_pos offset remaining
          omega
        exact .emit_bind _ (.emit_bind _ (ih _ smaller _))

theorem emitSetLookup_emits (index keyOff : Nat) :
    Emits host chain (emitSetLookup index keyOff) (setLookupSlots index keyOff) := by
  have load : Emits host chain (emitLoadSetFdFixup 1 index) (loadFdSlots (.setMapFd index) 1) :=
    .of_eq fun p _ => emitLoadFdFixup_eq _ _ p
  exact .bind load (.emit_bind _ (.emit_bind _ (.emit_bind _ (.next _))))

theorem bfMatcherGenerateSetTrie_emits (index : Nat) (type : BfMatcherType) :
    Emits host chain (bfMatcherGenerateSetTrie index type) (setTrieSlots index type) := by
  unfold bfMatcherGenerateSetTrie setTrieSlots
  cases bfMatcherGetMeta type with
  | none => exact .throw _ _
  | some info =>
      refine .bind (bfStubRuleCheckProtocol_emits info) (.bind (bfStubLoadHeader_emits info) ?_)
      cases type with
      | ip4Snet =>
          exact .emit_bind _ (.emit_bind _ (.emit_bind _ (.emit_bind _ (emitSetLookup_emits _ _))))
      | ip4Dnet =>
          exact .emit_bind _ (.emit_bind _ (.emit_bind _ (.emit_bind _ (emitSetLookup_emits _ _))))
      | ip6Snet =>
          exact .emit_bind _ (.emit_bind _ (.emit_bind _ (.emit_bind _ (.emit_bind _ (.emit_bind _
            (emitSetLookup_emits _ _))))))
      | ip6Dnet =>
          exact .emit_bind _ (.emit_bind _ (.emit_bind _ (.emit_bind _ (.emit_bind _ (.emit_bind _
            (emitSetLookup_emits _ _))))))
      | _ =>
          intro p p' _ _ _ ran
          simp [gen_bind, gen_throw] at ran

theorem setCheckProtocols_emits (key : List BfMatcherType) :
    Emits host chain (setCheckProtocols key) (setProtocolsSlots key) := by
  induction key with
  | nil => exact .of_eq fun p _ => by simp [setCheckProtocols, gen_pure, setProtocolsSlots]
  | cons type rest ih =>
      unfold setCheckProtocols setProtocolsSlots
      cases bfMatcherGetMeta type with
      | none => exact Emits.bind (.throw _ _) ih
      | some info => exact Emits.bind (bfStubRuleCheckProtocol_emits info) ih

theorem setBuildKey_emits (offset : Nat) (key : List BfMatcherType) :
    Emits host chain (setBuildKey offset key) (setKeySlots offset key) := by
  induction key generalizing offset with
  | nil => exact .of_eq fun p _ => by simp [setBuildKey, gen_pure, setKeySlots]
  | cons type rest ih =>
      unfold setBuildKey setKeySlots
      cases bfMatcherGetMeta type with
      | none => exact .throw _ _
      | some info =>
          exact .bind (bfStubLoadHeader_emits info)
            (.bind (stxPayloadLoop_emits _ _ _ _) (ih _))

theorem bfMatcherGenerateSet_emits (m : BfMatcher) :
    Emits host chain (bfMatcherGenerateSet m) (setSlots chain m) := by
  refine .get_bind fun p hostEq chainEq => ?_
  rw [chainEq]
  unfold setSlots
  cases bfChainGetSetForMatcher chain m with
  | none => exact .throw _ _
  | some set =>
      cases trie : set.useTrie with
      | true =>
          simp only [trie, if_true]
          cases set.key with
          | nil => exact .throw _ _
          | cons type _ => exact bfMatcherGenerateSetTrie_emits _ _
      | false =>
          simp only [trie, Bool.false_eq_true, if_false]
          exact .bind (setCheckProtocols_emits _)
            (.bind (setBuildKey_emits _ _) (emitSetLookup_emits _ _))

/-! ## Dispatch -/

/-- The slots of a matcher. -/
def matcherSlots (host : Host) (chain : BfChain) (m : BfMatcher) : List Emitted :=
  match m.type with
  | .metaIface | .metaL3Proto | .metaL4Proto | .metaProbability | .metaSport | .metaDport
  | .metaMark => metaSlots host chain m
  | .ip4Saddr | .ip4Snet | .ip4Daddr | .ip4Dnet | .ip4Proto => ip4Slots m
  | .ip6Saddr | .ip6Snet | .ip6Daddr | .ip6Dnet | .ip6Nexthdr => ip6Slots m
  | .tcpSport | .tcpDport | .tcpFlags => tcpSlots m
  | .udpSport | .udpDport => udpSlots m
  | .icmpType | .icmpCode | .icmpv6Type | .icmpv6Code => icmpSlots m
  | .set => setSlots chain m

/-- **Matchers.**  A matcher that is generated without error appends its slots. -/
theorem bfMatcherGenerate_emits (m : BfMatcher) :
    Emits host chain (bfMatcherGenerate m) (matcherSlots host chain m) := by
  unfold bfMatcherGenerate matcherSlots
  cases m.type <;>
    first
      | exact bfMatcherGenerateMeta_emits m
      | exact bfMatcherGenerateIp4_emits m
      | exact bfMatcherGenerateIp6_emits m
      | exact bfMatcherGenerateTcp_emits m
      | exact bfMatcherGenerateUdp_emits m
      | exact bfMatcherGenerateIcmp_emits m
      | exact bfMatcherGenerateSet_emits m

theorem bfMatcherGenerate_appends (host : Host) (chain : BfChain) :
    AppendsSlots host chain (fun m es => es = matcherSlots host chain m) bfMatcherGenerate := by
  intro m p p' tracked hostEq chainEq ran
  exact ⟨_, rfl, bfMatcherGenerate_emits m p p' tracked hostEq chainEq ran⟩

end Bpfilter

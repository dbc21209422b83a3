/-
# Cgen.Flavor -- the four program flavors

The flavor-specific callbacks of `cgen/nf.c`, `cgen/tc.c`, `cgen/xdp.c` and
`cgen/cgroup.c`.  A prologue stores the packet size and the interface index in
the runtime context, creates the dynamic pointer and parses the headers the hook
can see; XDP and TC start at layer 2, Netfilter and cgroup at layer 3 with the
ethertype derived from the address family.  All epilogues are empty.

XDP has no mark callbacks and Netfilter cannot set the mark; those callbacks are
`none`, the model's null pointer.
-/
import Bpfilter.Cgen.Stub

namespace Bpfilter

set_option autoImplicit false

open Ebpf

/-- `AF_INET` -/
def afInet : BitVec 32 := 2

/-- `AF_INET6` -/
def afInet6 : BitVec 32 := 10

/-- `offsetof(struct __sk_buff, len)` -/
def uSkBuffLen : BitVec 16 := 0

/-- `offsetof(struct __sk_buff, mark)` -/
def uSkBuffMark : BitVec 16 := 8

/-- Ethertype from an address family, for hooks that do not see layer 2. -/
def familySwich (reg : Reg) : BfSwich where
  reg := reg
  options := [
    ⟨afInet, [bpfMov64Imm 7 ((htobe16 ethPIp).setWidth 32)]⟩,
    ⟨afInet6, [bpfMov64Imm 7 ((htobe16 ethPIpv6).setWidth 32)]⟩]
  defaultOpt := some [bpfMov64Imm 7 0]

/-- `_bf_nf_hook_is_ingress` -/
def bfNfHookIsIngress : BfHook → Bool
  | .nfPreRouting => true
  | .nfLocalIn => true
  | .nfForward => true
  | _ => false

/-! ## Prologues -/

/-- `_bf_nf_gen_inline_prologue` -/
def bfNfGenInlinePrologue : Gen Unit := do
  let state ← btfGetFieldOff .bpfNfCtxState
  emit (bpfLdxMem .dw 2 1 state)
  let device ← btfGetFieldOff
    (if bfNfHookIsIngress (← get).chain.hook then .nfHookStateIn else .nfHookStateOut)
  emit (bpfLdxMem .dw 3 2 device)
  let ifindex ← btfGetFieldOff .netDeviceIfindex
  emit (bpfLdxMem .w 4 3 ifindex)
  emit (bpfStxMem .w 10 4 (ctxOff .ifindex))
  let pf ← btfGetFieldOff .nfHookStatePf
  emit (bpfLdxMem .b 3 2 pf)
  bfSwichGenerate (familySwich 3)
  emit (bpfStMem .w 10 (ctxOff .l3Offset) 0)
  let skb ← btfGetFieldOff .bpfNfCtxSkb
  emit (bpfLdxMem .dw 1 1 skb)
  let len ← btfGetFieldOff .skBuffLen
  emit (bpfLdxMem .w 2 1 len)
  emit (bpfAlu64Imm .add 2 (BitVec.ofNat 32 sizeofEthhdr))
  emit (bpfStxMem .dw 10 2 (ctxOff .pktSize))
  bfStubMakeCtxSkbDynptr 1
  bfStubParseL3Hdr
  bfStubParseL4Hdr

/-- `_bf_tc_gen_inline_prologue` -/
def bfTcGenInlinePrologue : Gen Unit := do
  emit (bpfLdxMem .w 3 1 uSkBuffLen)
  emit (bpfStxMem .dw 10 3 (ctxOff .pktSize))
  let ifindex ← btfGetFieldOff .uSkBuffIfindex
  emit (bpfLdxMem .w 2 1 ifindex)
  emit (bpfStxMem .w 10 2 (ctxOff .ifindex))
  bfStubMakeCtxSkbDynptr 1
  bfStubParseL2Ethhdr
  bfStubParseL3Hdr
  bfStubParseL4Hdr

/-- `_bf_xdp_gen_inline_prologue` -/
def bfXdpGenInlinePrologue : Gen Unit := do
  emit (bpfLdxMem .w 2 1 0)
  emit (bpfLdxMem .w 3 1 4)
  emit (bpfAlu64Reg .sub 3 2)
  emit (bpfStxMem .dw 10 3 (ctxOff .pktSize))
  emit (bpfLdxMem .w 2 1 12)
  emit (bpfStxMem .w 10 2 (ctxOff .ifindex))
  bfStubMakeCtxXdpDynptr 1
  bfStubParseL2Ethhdr
  bfStubParseL3Hdr
  bfStubParseL4Hdr

/-- `_bf_cgroup_gen_inline_prologue` -/
def bfCgroupGenInlinePrologue : Gen Unit := do
  emit (bpfLdxMem .w 3 1 uSkBuffLen)
  emit (bpfAlu64Imm .add 3 (BitVec.ofNat 32 sizeofEthhdr))
  emit (bpfStxMem .dw 10 3 (ctxOff .pktSize))
  let ifindex ← btfGetFieldOff .uSkBuffIfindex
  emit (bpfLdxMem .w 2 1 ifindex)
  emit (bpfStxMem .w 10 2 (ctxOff .ifindex))
  let family ← btfGetFieldOff .uSkBuffFamily
  emit (bpfLdxMem .w 2 1 family)
  bfSwichGenerate (familySwich 2)
  emit (bpfStMem .w 10 (ctxOff .l3Offset) 0)
  bfStubMakeCtxSkbDynptr 1
  bfStubParseL3Hdr
  bfStubParseL4Hdr

/-! ## Marks -/

/-- `_bf_tc_gen_inline_set_mark`, also `_bf_cgroup_gen_inline_set_mark` -/
def uSkBuffGenInlineSetMark (mark : BitVec 32) : Gen Unit := do
  emit (bpfLdxMem .dw 1 10 (ctxOff .arg))
  emit (bpfMov64Imm 2 mark)
  emit (bpfStxMem .w 1 2 uSkBuffMark)

/-- `_bf_tc_gen_inline_get_mark`, also `_bf_cgroup_gen_inline_get_mark` -/
def uSkBuffGenInlineGetMark (reg : Reg) : Gen Unit := do
  emit (bpfLdxMem .dw 1 10 (ctxOff .arg))
  emit (bpfLdxMem .w reg 1 uSkBuffMark)

/-- `_bf_nf_gen_inline_get_mark` -/
def bfNfGenInlineGetMark (reg : Reg) : Gen Unit := do
  emit (bpfLdxMem .dw 1 10 (ctxOff .arg))
  let skb ← btfGetFieldOff .bpfNfCtxSkb
  emit (bpfLdxMem .dw 2 1 skb)
  let mark ← btfGetFieldOff .skBuffMark
  emit (bpfLdxMem .w reg 2 mark)

/-! ## Operations -/

structure BfFlavorOps where
  genInlinePrologue : Gen Unit
  genInlineEpilogue : Gen Unit
  genInlineSetMark : Option (BitVec 32 → Gen Unit)
  genInlineGetMark : Option (Reg → Gen Unit)

/-- `bf_flavor_ops_get` -/
def bfFlavorOpsGet : BfFlavor → BfFlavorOps
  | .nf => ⟨bfNfGenInlinePrologue, pure (), none, some bfNfGenInlineGetMark⟩
  | .tc => ⟨bfTcGenInlinePrologue, pure (), some uSkBuffGenInlineSetMark,
      some uSkBuffGenInlineGetMark⟩
  | .xdp => ⟨bfXdpGenInlinePrologue, pure (), none, none⟩
  | .cgroup => ⟨bfCgroupGenInlinePrologue, pure (), some uSkBuffGenInlineSetMark,
      some uSkBuffGenInlineGetMark⟩

end Bpfilter

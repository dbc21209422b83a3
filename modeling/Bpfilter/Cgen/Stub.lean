/-
# Cgen.Stub -- switches, verdict codes and the packet parsing code

The inline code every flavor's prologue is made of (`cgen/stub.c`): creating the
dynamic pointer over the packet, and parsing the layer 2, 3 and 4 headers.  Each
step that can fail at run time ends in the same block, `stubErrorExit`: bump the
error counter, print a message when verbose, and accept the packet.

`bfSwichGenerate` is the switch of `cgen/swich.c`: one comparison per option,
then the bodies, each followed by a jump to the end.
-/
import Bpfilter.Cgen.Runtime
import Bpfilter.Cgen.Program

namespace Bpfilter

set_option autoImplicit false

open Ebpf

/-! ## Switches -/

structure BfSwichOption where
  imm : BitVec 32
  insns : List BpfInsn
  deriving DecidableEq, Repr

structure BfSwich where
  reg : Reg
  options : List BfSwichOption
  defaultOpt : Option (List BpfInsn)
  deriving DecidableEq, Repr

/-- The comparisons of a switch, one jump context per option. -/
def swichCompare (reg : Reg) : List BfSwichOption → Gen (List BfJmpctx)
  | [] => pure []
  | option :: rest => do
      let jmp ← bfJmpctxGet (bpfJmpImm .eq reg option.imm 0)
      let jmps ← swichCompare reg rest
      pure (jmp :: jmps)

def emitAll : List BpfInsn → Gen Unit
  | [] => pure ()
  | insn :: rest => do
      emit insn
      emitAll rest

/-- The bodies of a switch: each closes its comparison and opens a jump to the end. -/
def swichBodies : List (BfSwichOption × BfJmpctx) → Gen (List BfJmpctx)
  | [] => pure []
  | (option, jmp) :: rest => do
      bfJmpctxCleanup jmp
      emitAll option.insns
      let done ← bfJmpctxGet (bpfJmpA 0)
      let others ← swichBodies rest
      pure (done :: others)

def cleanupAll : List BfJmpctx → Gen Unit
  | [] => pure ()
  | jmp :: rest => do
      bfJmpctxCleanup jmp
      cleanupAll rest

/-- `bf_swich_generate` -/
def bfSwichGenerate (swich : BfSwich) : Gen Unit := do
  let jmps ← swichCompare swich.reg swich.options
  match swich.defaultOpt with
  | none => do
      let done ← swichBodies (swich.options.zip jmps)
      cleanupAll done
  | some insns => do
      let defaultJmp ← bfJmpctxGet (bpfJmpA 0)
      let done ← swichBodies (swich.options.zip jmps)
      bfJmpctxCleanup defaultJmp
      emitAll insns
      cleanupAll done

/-! ## Verdict codes -/

/-- The flavors' `get_verdict`: defined for terminal verdicts only. -/
def bfGetVerdict : BfFlavor → BfVerdict → Option (BitVec 32)
  | .nf, .accept => some 1
  | .nf, .drop => some 0
  | .tc, .accept => some 0
  | .tc, .drop => some 2
  | .xdp, .accept => some 2
  | .xdp, .drop => some 1
  | .cgroup, .accept => some 1
  | .cgroup, .drop => some 0
  | _, .continue => none

/-- Return a verdict: load its code and exit.  A verdict without code trips the
assertion of `get_verdict`, or reads past its table. -/
def emitVerdict (verdict : BfVerdict) : Gen Unit := do
  let p ← get
  match bfGetVerdict p.flavor verdict with
  | none => throw (if p.host.ndebug then .undefined else .abort)
  | some code => do
      emit (bpfMov64Imm 0 code)
      emit bpfExitInsn

/-- The counter update: `bf_update_counters(ctx, cmap, idx)`. -/
def emitUpdateCounters (idx : BitVec 32) : Gen Unit := do
  emit (bpfMov64Reg 1 10)
  emit (bpfAlu64Imm .add 1 (ctxImm .arg))
  emitLoadCountersFdFixup 2
  emit (bpfMov32Imm 3 idx)
  emitFixupElfstub .updateCounters

/-- `if (bf_opts_is_verbose(BF_VERBOSE_BPF)) EMIT_PRINT(program, msg)` -/
def emitPrintVerbose (msg : String) : Gen Unit := fun p =>
  if p.host.verboseBpf then emitPrint msg p else .ok ((), p)

/-- The block taken when a parsing step fails. -/
def stubErrorExit (msg : String) : Gen Unit := do
  emitUpdateCounters (BitVec.ofNat 32 (bfProgramErrorCounterIdx (← get)))
  emitPrintVerbose msg
  emitVerdict .accept

/-- The error block under its guard: the jump skips it when the step succeeded. -/
def stubErrorGuard (guard : BpfInsn) (msg : String) : Gen Unit := do
  let jmp ← bfJmpctxGet guard
  stubErrorExit msg
  bfJmpctxCleanup jmp

/-! ## Dynamic pointer and headers -/

/-- `_bf_stub_make_ctx_dynptr`: a zero return value skips the error block. -/
def bfStubMakeCtxDynptr (argReg : Reg) (kfunc : BtfKfunc) : Gen Unit := do
  if argReg ≠ 1 then emit (bpfMov64Imm 1 (BitVec.ofNat 32 argReg.val))
  emit (bpfMov64Imm 2 0)
  emit (bpfMov64Reg 3 10)
  emit (bpfAlu64Imm .add 3 (ctxImm .dynptr))
  emitKfuncCall kfunc
  stubErrorGuard (bpfJmpImm .eq 0 0 0) "failed to create a new dynamic pointer"

def bfStubMakeCtxXdpDynptr (mdReg : Reg) : Gen Unit := bfStubMakeCtxDynptr mdReg .bpfDynptrFromXdp

def bfStubMakeCtxSkbDynptr (skbReg : Reg) : Gen Unit :=
  bfStubMakeCtxDynptr skbReg .bpfDynptrFromSkb

/-- `sizeof(struct ethhdr)`, also `ETH_HLEN` -/
def sizeofEthhdr : Nat := 14

/-- `bf_stub_parse_l2_ethhdr` -/
def bfStubParseL2Ethhdr : Gen Unit := do
  emit (bpfMov64Reg 1 10)
  emit (bpfAlu64Imm .add 1 (ctxImm .dynptr))
  emit (bpfMov64Imm 2 0)
  emit (bpfMov64Reg 3 10)
  emit (bpfAlu64Imm .add 3 (ctxImm .l2))
  emit (bpfMov64Imm 4 (BitVec.ofNat 32 sizeofEthhdr))
  emit (bpfStxMem .b 10 4 (ctxOff .l2Size))
  emitKfuncCall .bpfDynptrSlice
  stubErrorGuard (bpfJmpImm .ne 0 0 0) "failed to create L2 dynamic pointer slice"
  emit (bpfStxMem .dw 10 0 (ctxOff .l2Hdr))
  emit (bpfLdxMem .h 7 0 12)
  emit (bpfStMem .w 10 (ctxOff .l3Offset) (BitVec.ofNat 32 sizeofEthhdr))

/-- `sizeof(struct iphdr)` -/
def sizeofIphdr : Nat := 20

/-- `sizeof(struct ipv6hdr)` -/
def sizeofIpv6hdr : Nat := 40

/-- `_BF_LOW_EH_BITMASK` -/
def bfLowEhBitmask : BitVec 64 := 0x1801800000000801

def l3Swich : BfSwich where
  reg := 7
  options := [
    ⟨(htobe16 ethPIp).setWidth 32, [bpfMov64Imm 4 (BitVec.ofNat 32 sizeofIphdr)]⟩,
    ⟨(htobe16 ethPIpv6).setWidth 32, [bpfMov64Imm 4 (BitVec.ofNat 32 sizeofIpv6hdr)]⟩]
  defaultOpt := some [bpfMov64Imm 7 0]

/-- The IPv4 block of `bf_stub_parse_l3_hdr`: header length and protocol. -/
def stubParseIpv4 : Gen Unit := do
  let jmp ← bfJmpctxGet (bpfJmpImm .ne 7 ((htobe16 ethPIp).setWidth 32) 0)
  emit (bpfLdxMem .b 1 0 0)
  emit (bpfAlu64Imm .and 1 0x0f)
  emit (bpfAlu64Imm .lsh 1 2)
  emit (bpfLdxMem .w 2 10 (ctxOff .l3Offset))
  emit (bpfAlu64Reg .add 1 2)
  emit (bpfStxMem .w 10 1 (ctxOff .l4Offset))
  emit (bpfLdxMem .b 8 0 9)
  bfJmpctxCleanup jmp

/-- The IPv6 block of `bf_stub_parse_l3_hdr`: the next-header test decides whether
the extension headers have to be walked by a stub. -/
def stubParseIpv6 : Gen Unit := do
  let jmp ← bfJmpctxGet (bpfJmpImm .ne 7 ((htobe16 ethPIpv6).setWidth 32) 0)
  emit (bpfLdxMem .b 8 0 6)
  let tcpjmp ← bfJmpctxGet (bpfJmpImm .eq 8 (ipprotoTcp.setWidth 32) 0)
  let udpjmp ← bfJmpctxGet (bpfJmpImm .eq 8 (ipprotoUdp.setWidth 32) 0)
  emit (bpfLdImm64Lo 2 0 bfLowEhBitmask)
  emit (bpfLdImm64Hi bfLowEhBitmask)
  emit (bpfJmpImm .ge 8 64 4)
  emit (bpfMov64Imm 3 1)
  emit (bpfAlu64Reg .lsh 3 8)
  emit (bpfAlu64Reg .and 3 2)
  emit (bpfJmpImm .ne 3 0 4)
  emit (bpfJmpImm .eq 8 135 3)
  emit (bpfJmpImm .eq 8 139 2)
  emit (bpfJmpImm .eq 8 140 1)
  let noehjmp ← bfJmpctxGet (bpfJmpA 0)
  emit (bpfMov64Reg 1 10)
  emit (bpfAlu64Imm .add 1 (ctxImm .arg))
  if (← get).chain.flags.storeNexthdr then emitFixupElfstub .parseIpv6Nh
  else emitFixupElfstub .parseIpv6Eh
  emit (bpfMov64Reg 8 0)
  let ehjmp ← bfJmpctxGet (bpfJmpA 0)
  bfJmpctxCleanup tcpjmp
  bfJmpctxCleanup udpjmp
  bfJmpctxCleanup noehjmp
  emit (bpfLdxMem .w 2 10 (ctxOff .l3Offset))
  emit (bpfAlu64Imm .add 2 (BitVec.ofNat 32 sizeofIpv6hdr))
  emit (bpfStxMem .w 10 2 (ctxOff .l4Offset))
  bfJmpctxCleanup ehjmp
  bfJmpctxCleanup jmp

/-- The part of `bf_stub_parse_l3_hdr` skipped for unsupported protocols.  The
layer 3 slice is given the layer 2 buffer. -/
def stubParseL3Body : Gen Unit := do
  emit (bpfStxMem .b 10 4 (ctxOff .l3Size))
  emit (bpfMov64Reg 1 10)
  emit (bpfAlu64Imm .add 1 (ctxImm .dynptr))
  emit (bpfLdxMem .w 2 10 (ctxOff .l3Offset))
  emit (bpfMov64Reg 3 10)
  emit (bpfAlu64Imm .add 3 (ctxImm .l2))
  emitKfuncCall .bpfDynptrSlice
  stubErrorGuard (bpfJmpImm .ne 0 0 0) "failed to create L3 dynamic pointer slice"
  emit (bpfStxMem .dw 10 0 (ctxOff .l3Hdr))
  stubParseIpv4
  stubParseIpv6

/-- `bf_stub_parse_l3_hdr` -/
def bfStubParseL3Hdr : Gen Unit := do
  bfSwichGenerate l3Swich
  let jmp ← bfJmpctxGet (bpfJmpImm .eq 7 0 0)
  stubParseL3Body
  bfJmpctxCleanup jmp

def l4Swich : BfSwich where
  reg := 8
  options := [
    ⟨ipprotoTcp.setWidth 32, [bpfMov64Imm 4 20]⟩,
    ⟨ipprotoUdp.setWidth 32, [bpfMov64Imm 4 8]⟩,
    ⟨ipprotoIcmp.setWidth 32, [bpfMov64Imm 4 8]⟩,
    ⟨ipprotoIcmpv6.setWidth 32, [bpfMov64Imm 4 8]⟩]
  defaultOpt := some [bpfMov64Imm 8 0]

/-- The part of `bf_stub_parse_l4_hdr` skipped for unsupported protocols. -/
def stubParseL4Body : Gen Unit := do
  emit (bpfStxMem .b 10 4 (ctxOff .l4Size))
  emit (bpfMov64Reg 1 10)
  emit (bpfAlu64Imm .add 1 (ctxImm .dynptr))
  emit (bpfLdxMem .w 2 10 (ctxOff .l4Offset))
  emit (bpfMov64Reg 3 10)
  emit (bpfAlu64Imm .add 3 (ctxImm .l4))
  emitKfuncCall .bpfDynptrSlice
  stubErrorGuard (bpfJmpImm .ne 0 0 0) "failed to create L4 dynamic pointer slice"
  emit (bpfStxMem .dw 10 0 (ctxOff .l4Hdr))

/-- `bf_stub_parse_l4_hdr` -/
def bfStubParseL4Hdr : Gen Unit := do
  bfSwichGenerate l4Swich
  let jmp ← bfJmpctxGet (bpfJmpImm .eq 8 0 0)
  stubParseL4Body
  bfJmpctxCleanup jmp

/-! ## Code shared by matchers -/

/-- `bf_stub_rule_check_protocol`: leave the rule when the packet does not carry
the matcher's protocol. -/
def bfStubRuleCheckProtocol (info : BfMatcherMeta) : Gen Unit :=
  match info.layer with
  | .layer3 =>
      emitFixupJmpNextRule
        (bpfJmpImm .ne 7 ((htobe16 (info.hdrId.setWidth 16)).setWidth 32) 0)
  | .layer4 =>
      emitFixupJmpNextRule (bpfJmpImm .ne 8 ((info.hdrId.setWidth 8).setWidth 32) 0)
  | _ => throw (.errno .einval)

/-- `bf_stub_load_header`: the address of the matcher's header, into `reg`. -/
def bfStubLoadHeader (info : BfMatcherMeta) (reg : Reg) : Gen Unit :=
  match info.layer with
  | .layer3 => emit (bpfLdxMem .dw reg 10 (ctxOff .l3Hdr))
  | .layer4 => emit (bpfLdxMem .dw reg 10 (ctxOff .l4Hdr))
  | _ => throw (.errno .einval)

/-- Access width of one copy step.  The alignment test reads the offset the copy
started at, not the offset it has reached. -/
def stxCopySize (offset remaining : Nat) : Size :=
  if offset % 8 = 0 ∧ 8 ≤ remaining then .dw
  else if offset % 4 = 0 ∧ 4 ≤ remaining then .w
  else if offset % 2 = 0 ∧ 2 ≤ remaining then .h
  else .b

theorem stxCopySize_bytes_pos (offset remaining : Nat) :
    0 < (stxCopySize offset remaining).bytes := by
  cases stxCopySize offset remaining <;> decide

theorem stxCopySize_bytes_le (offset remaining : Nat) (some : 0 < remaining) :
    (stxCopySize offset remaining).bytes ≤ remaining := by
  unfold stxCopySize
  split
  · rename_i h; exact h.2
  · split
    · rename_i h; exact h.2
    · split
      · rename_i h; exact h.2
      · exact some

/-- The copy loop of `bf_stub_stx_payload`. -/
def stxPayloadLoop (hdrOffset offset src remaining : Nat) : Gen Unit :=
  if remaining = 0 then pure ()
  else do
    emit (bpfLdxMem (stxCopySize offset remaining) 1 6 (BitVec.ofNat 16 (hdrOffset + src)))
    emit (bpfStxMem (stxCopySize offset remaining) 10 1 (scrOff (offset + src)))
    stxPayloadLoop hdrOffset offset (src + (stxCopySize offset remaining).bytes)
      (remaining - (stxCopySize offset remaining).bytes)
termination_by remaining
decreasing_by
  have := stxCopySize_bytes_pos offset remaining
  omega

/-- `bf_stub_stx_payload`: copy the matcher's header bytes to the scratch area. -/
def bfStubStxPayload (info : BfMatcherMeta) (offset : Nat) : Gen Unit :=
  stxPayloadLoop info.hdrPayloadOffset offset 0 info.hdrPayloadSize

end Bpfilter

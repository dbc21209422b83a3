/-
# Cgen.Slots -- the code the stubs emit, slot by slot

Each generator of `Cgen.Stub` appends a fixed list of slots to the program; this
module writes the lists down and proves that they are what is emitted.  Where a
block is skipped by a jump, the list is `skipOver jump block`: the jump with the
length of the block as its offset.

Only printing depends on the program: in verbose mode the error blocks print a
message, which is added to the printer (`BfProgram.noted`) and referred to by its
offset.
-/
import Bpfilter.Cgen.Generate

namespace Bpfilter

set_option autoImplicit false

open Ebpf

instance : Coe BpfInsn Emitted := ⟨fun i => { insn := i }⟩

/-- A jump whose context has been closed `d` slots later. -/
def jumpSlot (i : BpfInsn) (d : Nat) : Emitted := { insn := setOff i d, span := some d }

/-- A jump to the next rule, not filled yet. -/
def nextSlot (i : BpfInsn) : Emitted := { insn := i, fixup := some .jmpNextRule }

/-- A call to a stub, not filled yet. -/
def callSlot (id : BfElfstubId) : Emitted :=
  { insn := bpfCallRel 0, fixup := some (.elfstubCall id) }

/-- A jump over a block. -/
def skipOver (jump : BpfInsn) (block : List Emitted) : List Emitted :=
  jumpSlot jump block.length :: block

/-! ## Emission at the end of a program with appended slots -/

theorem emit_append (insn : BpfInsn) (p : BfProgram) (es : List Emitted) :
    emit insn (p.append es) = .ok ((), p.append (es ++ [{ insn := insn }])) := by
  rw [emit_eq, BfProgram.append_append]

theorem emitFixup_append (kind : BfFixupKind) (insn : BpfInsn) (p : BfProgram)
    (es : List Emitted) :
    emitFixup kind insn (p.append es) =
      .ok ((), p.append (es ++ [{ insn := insn, fixup := some kind }])) := by
  rw [emitFixup_eq, BfProgram.append_append]

theorem bfJmpctxGet_append (insn : BpfInsn) (p : BfProgram) (es : List Emitted) :
    bfJmpctxGet insn (p.append es) =
      .ok (⟨p.img.length + es.length⟩, p.append (es ++ [{ insn := insn }])) := by
  rw [bfJmpctxGet_eq, BfProgram.append_append, BfProgram.append_img, List.length_append,
    List.length_map]

/-- A scoped jump context: whatever the body appends is skipped. -/
theorem scope_eq {p q : BfProgram} (tracked : q.Tracked) (same : q.img = p.img)
    {jump : BpfInsn} {body : Gen Unit} {es : List Emitted}
    (emits : body (p.append [{ insn := jump }]) = .ok ((), q.append ({ insn := jump } :: es))) :
    (do
      let jmp ← bfJmpctxGet jump
      body
      bfJmpctxCleanup jmp) p = .ok ((), q.append (skipOver jump es)) := by
  have close := bfJmpctxCleanup_eq q tracked ({ insn := jump } :: es) 0 (by simp)
  rw [Nat.add_zero, same] at close
  simp only [gen_bind, bfJmpctxGet_eq, emits, close]
  rfl

/-! ## Switches -/

/-- A switch of two one-instruction options and a one-instruction default. -/
def swich2Slots (reg : Reg) (i₁ i₂ : BitVec 32) (b₁ b₂ d : BpfInsn) : List Emitted :=
  [jumpSlot (bpfJmpImm .eq reg i₁ 0) 2, jumpSlot (bpfJmpImm .eq reg i₂ 0) 3,
    jumpSlot (bpfJmpA 0) 4, b₁, jumpSlot (bpfJmpA 0) 3, b₂, jumpSlot (bpfJmpA 0) 1, d]

/-- A switch of four one-instruction options and a one-instruction default. -/
def swich4Slots (reg : Reg) (i₁ i₂ i₃ i₄ : BitVec 32) (b₁ b₂ b₃ b₄ d : BpfInsn) :
    List Emitted :=
  [jumpSlot (bpfJmpImm .eq reg i₁ 0) 4, jumpSlot (bpfJmpImm .eq reg i₂ 0) 5,
    jumpSlot (bpfJmpImm .eq reg i₃ 0) 6, jumpSlot (bpfJmpImm .eq reg i₄ 0) 7,
    jumpSlot (bpfJmpA 0) 8, b₁, jumpSlot (bpfJmpA 0) 7, b₂, jumpSlot (bpfJmpA 0) 5,
    b₃, jumpSlot (bpfJmpA 0) 3, b₄, jumpSlot (bpfJmpA 0) 1, d]

section Switches

variable {p : BfProgram} (tracked : p.Tracked) (reg : Reg)

include tracked

theorem swich2_eq (i₁ i₂ : BitVec 32) (b₁ b₂ d : BpfInsn) :
    bfSwichGenerate ⟨reg, [⟨i₁, [b₁]⟩, ⟨i₂, [b₂]⟩], some [d]⟩ p =
      .ok ((), p.append (swich2Slots reg i₁ i₂ b₁ b₂ d)) := by
  rw [← p.append_nil]
  simp (disch := simp) only [bfSwichGenerate, swichCompare, swichBodies, emitAll, cleanupAll,
    gen_bind, gen_pure, emit_append, bfJmpctxGet_append, List.nil_append, List.cons_append,
    BfProgram.append_append, List.length_nil, List.length_cons, Nat.reduceAdd,
    List.zip_cons_cons, List.zip_nil_left, bfJmpctxCleanup_eq p tracked, closeSlot,
    List.modify_zero_cons, List.modify_succ_cons, Nat.reduceSub]
  rfl

theorem swich4_eq (i₁ i₂ i₃ i₄ : BitVec 32) (b₁ b₂ b₃ b₄ d : BpfInsn) :
    bfSwichGenerate ⟨reg, [⟨i₁, [b₁]⟩, ⟨i₂, [b₂]⟩, ⟨i₃, [b₃]⟩, ⟨i₄, [b₄]⟩], some [d]⟩ p =
      .ok ((), p.append (swich4Slots reg i₁ i₂ i₃ i₄ b₁ b₂ b₃ b₄ d)) := by
  rw [← p.append_nil]
  simp (disch := simp) only [bfSwichGenerate, swichCompare, swichBodies, emitAll, cleanupAll,
    gen_bind, gen_pure, emit_append, bfJmpctxGet_append, List.nil_append, List.cons_append,
    BfProgram.append_append, List.length_nil, List.length_cons, Nat.reduceAdd,
    List.zip_cons_cons, List.zip_nil_left, bfJmpctxCleanup_eq p tracked, closeSlot,
    List.modify_zero_cons, List.modify_succ_cons, Nat.reduceSub]
  rfl

end Switches

/-! ## Counters, verdicts and the error block -/

def updateCountersSlots (idx : BitVec 32) : List Emitted :=
  ([bpfMov64Reg 1 10, bpfAlu64Imm .add 1 (ctxImm .arg)] : List Emitted) ++
    loadFdSlots .countersMapFd 2 ++
    ([bpfMov32Imm 3 idx, callSlot .updateCounters] : List Emitted)

theorem emitUpdateCounters_eq (idx : BitVec 32) (p : BfProgram) :
    emitUpdateCounters idx p = .ok ((), p.append (updateCountersSlots idx)) := by
  simp only [emitUpdateCounters, emitLoadCountersFdFixup, emitFixupElfstub, gen_bind, emit_eq,
    emitFixup_eq, emitLoadFdFixup_eq, BfProgram.append_append]
  rfl

def verdictSlots (code : BitVec 32) : List Emitted := [bpfMov64Imm 0 code, bpfExitInsn]

theorem emitVerdict_eq {verdict : BfVerdict} {p : BfProgram} {code : BitVec 32}
    (known : bfGetVerdict p.flavor verdict = some code) :
    emitVerdict verdict p = .ok ((), p.append (verdictSlots code)) := by
  simp only [emitVerdict, gen_bind, gen_get, known, emit_eq, BfProgram.append_append]
  rfl

/-- The code of the accept verdict, which every flavor has. -/
def acceptCode : BfFlavor → BitVec 32
  | .nf => 1
  | .tc => 0
  | .xdp => 2
  | .cgroup => 1

theorem bfGetVerdict_accept (flavor : BfFlavor) :
    bfGetVerdict flavor .accept = some (acceptCode flavor) := by
  cases flavor <;> rfl

def printSlots (msg : BfPrinterMsg) : List Emitted :=
  [{ insn := { bpfLdImm64Lo 1 pseudoMapFd 0 with src := pseudoMapValue }
     fixup := some .printerMapFd },
    ({ bpfLdImm64Hi 0 with imm := BitVec.ofNat 32 msg.offset } : BpfInsn),
    bpfMov64Imm 2 (BitVec.ofNat 32 msg.len), bpfEmitCall bpfFuncTracePrintk]

namespace BfProgram

/-- The program after a message has been printed, in verbose mode. -/
def noted (p : BfProgram) (msg : String) : BfProgram :=
  if p.host.verboseBpf then { p with printer := (bfPrinterAddMsg p.printer msg).2 } else p

variable (p : BfProgram) (msg : String) (es : List Emitted)

theorem noted_append : (p.append es).noted msg = (p.noted msg).append es := by
  cases verbose : p.host.verboseBpf <;> simp [noted, verbose, append]

@[simp] theorem noted_img : (p.noted msg).img = p.img := by unfold noted; split <;> rfl

@[simp] theorem noted_host : (p.noted msg).host = p.host := by unfold noted; split <;> rfl

@[simp] theorem noted_chain : (p.noted msg).chain = p.chain := by unfold noted; split <;> rfl

@[simp] theorem noted_maps : (p.noted msg).maps = p.maps := by unfold noted; split <;> rfl

@[simp] theorem noted_flavor : (p.noted msg).flavor = p.flavor := by simp [flavor]

@[simp] theorem noted_fixups : (p.noted msg).fixups = p.fixups := by unfold noted; split <;> rfl

@[simp] theorem noted_closed : (p.noted msg).closed = p.closed := by unfold noted; split <;> rfl

theorem Tracked.noted {p : BfProgram} (tracked : p.Tracked) (msg : String) :
    (p.noted msg).Tracked := by
  unfold Tracked at tracked ⊢
  simpa using tracked

end BfProgram

def errorExitSlots (p : BfProgram) (msg : String) : List Emitted :=
  updateCountersSlots (BitVec.ofNat 32 (bfProgramErrorCounterIdx p)) ++
    (if p.host.verboseBpf then printSlots (bfPrinterAddMsg p.printer msg).1 else []) ++
    verdictSlots (acceptCode p.flavor)

theorem errorExitSlots_append (p : BfProgram) (es : List Emitted) (msg : String) :
    errorExitSlots (p.append es) msg = errorExitSlots p msg := rfl

theorem emitPrint_eq (msg : String) (p : BfProgram) :
    emitPrint msg p =
      .ok ((), ({ p with printer := (bfPrinterAddMsg p.printer msg).2 } : BfProgram).append
        (printSlots (bfPrinterAddMsg p.printer msg).1)) := by
  simp only [emitPrint, gen_bind, gen_get, gen_modify, emit_eq, emitFixup_eq,
    BfProgram.append_append]
  rfl

theorem emitPrintVerbose_eq (msg : String) (p : BfProgram) :
    emitPrintVerbose msg p =
      .ok ((), (p.noted msg).append
        (if p.host.verboseBpf then printSlots (bfPrinterAddMsg p.printer msg).1 else [])) := by
  unfold emitPrintVerbose
  cases verbose : p.host.verboseBpf with
  | false => simp [BfProgram.noted, verbose]
  | true => simp [BfProgram.noted, verbose, emitPrint_eq]

theorem stubErrorExit_eq (msg : String) (p : BfProgram) :
    stubErrorExit msg p = .ok ((), (p.noted msg).append (errorExitSlots p msg)) := by
  simp only [stubErrorExit, gen_bind, gen_get, emitUpdateCounters_eq, emitPrintVerbose_eq,
    BfProgram.noted_append, BfProgram.append_append]
  rw [emitVerdict_eq (bfGetVerdict_accept _), BfProgram.append_append]
  simp only [errorExitSlots, List.append_assoc, BfProgram.append_flavor, BfProgram.noted_flavor]
  rfl

theorem stubErrorGuard_eq (guard : BpfInsn) (msg : String) {p : BfProgram} (tracked : p.Tracked) :
    stubErrorGuard guard msg p =
      .ok ((), (p.noted msg).append (skipOver guard (errorExitSlots p msg))) := by
  refine scope_eq (tracked.noted msg) (p.noted_img msg) ?_
  rw [stubErrorExit_eq, errorExitSlots_append, BfProgram.noted_append, BfProgram.append_append]
  rfl

/-! ## Dynamic pointer and layer 2 -/

section Parsing

variable {p : BfProgram} (tracked : p.Tracked)

/-- The call slot of a kernel function. -/
def kfuncCall (id : BitVec 32) : BpfInsn := { code := .call, src := pseudoKfuncCall, imm := id }

theorem emitKfuncCall_append {name : BtfKfunc} {id : BitVec 32} (es : List Emitted)
    (known : p.host.btfGetId name = .ok id) :
    emitKfuncCall name (p.append es) = .ok ((), p.append (es ++ [{ insn := kfuncCall id }])) := by
  simp only [emitKfuncCall, gen_bind, gen_get, BfProgram.append_host, known, emit_append]
  rfl

def dynptrMsg : String := "failed to create a new dynamic pointer"

def makeDynptrSlots (p : BfProgram) (id : BitVec 32) : List Emitted :=
  ([bpfMov64Imm 2 0, bpfMov64Reg 3 10, bpfAlu64Imm .add 3 (ctxImm .dynptr), kfuncCall id] :
      List Emitted) ++
    skipOver (bpfJmpImm .eq 0 0 0) (errorExitSlots p dynptrMsg)

include tracked

/-- The argument is in `r1` already, for every flavor. -/
theorem bfStubMakeCtxDynptr_eq {kfunc : BtfKfunc} {id : BitVec 32}
    (known : p.host.btfGetId kfunc = .ok id) :
    bfStubMakeCtxDynptr 1 kfunc p =
      .ok ((), (p.noted dynptrMsg).append (makeDynptrSlots p id)) := by
  rw [← p.append_nil]
  simp only [bfStubMakeCtxDynptr, ne_eq, not_true, if_false, gen_bind, emit_append,
    emitKfuncCall_append _ known, List.nil_append, List.cons_append]
  rw [stubErrorGuard_eq _ _ (tracked.append _), errorExitSlots_append, BfProgram.noted_append,
    BfProgram.append_append, BfProgram.append_nil]
  rfl

def l2Msg : String := "failed to create L2 dynamic pointer slice"

def parseL2Slots (p : BfProgram) (id : BitVec 32) : List Emitted :=
  ([bpfMov64Reg 1 10, bpfAlu64Imm .add 1 (ctxImm .dynptr), bpfMov64Imm 2 0, bpfMov64Reg 3 10,
      bpfAlu64Imm .add 3 (ctxImm .l2), bpfMov64Imm 4 14, bpfStxMem .b 10 4 (ctxOff .l2Size),
      kfuncCall id] : List Emitted) ++
    skipOver (bpfJmpImm .ne 0 0 0) (errorExitSlots p l2Msg) ++
    ([bpfStxMem .dw 10 0 (ctxOff .l2Hdr), bpfLdxMem .h 7 0 12,
      bpfStMem .w 10 (ctxOff .l3Offset) 14] : List Emitted)

theorem bfStubParseL2Ethhdr_eq {id : BitVec 32}
    (known : p.host.btfGetId .bpfDynptrSlice = .ok id) :
    bfStubParseL2Ethhdr p = .ok ((), (p.noted l2Msg).append (parseL2Slots p id)) := by
  rw [← p.append_nil]
  simp only [bfStubParseL2Ethhdr, gen_bind, emit_append, emitKfuncCall_append _ known,
    List.nil_append, List.cons_append]
  rw [stubErrorGuard_eq _ _ (tracked.append _), errorExitSlots_append, BfProgram.noted_append,
    BfProgram.append_append]
  simp only [emit_append, BfProgram.append_nil, List.append_assoc, List.cons_append,
    List.nil_append]
  rfl

/-! ## Layer 3 -/

def parseIpv4Slots : List Emitted :=
  skipOver (bpfJmpImm .ne 7 ((htobe16 ethPIp).setWidth 32) 0)
    [bpfLdxMem .b 1 0 0, bpfAlu64Imm .and 1 0x0f, bpfAlu64Imm .lsh 1 2,
      bpfLdxMem .w 2 10 (ctxOff .l3Offset), bpfAlu64Reg .add 1 2,
      bpfStxMem .w 10 1 (ctxOff .l4Offset), bpfLdxMem .b 8 0 9]

theorem stubParseIpv4_eq : stubParseIpv4 p = .ok ((), p.append parseIpv4Slots) := by
  rw [← p.append_nil]
  simp (disch := simp) only [stubParseIpv4, gen_bind, emit_append, bfJmpctxGet_append,
    List.nil_append, List.cons_append, BfProgram.append_append, List.length_nil,
    bfJmpctxCleanup_eq p tracked]
  rfl

/-- The stub that walks the extension headers. -/
def ipv6Stub (flags : BfChainFlags) : BfElfstubId :=
  if flags.storeNexthdr then .parseIpv6Nh else .parseIpv6Eh

/-- The next-header test: TCP and UDP first, then the mask, then the headers
above 64.  The jumps go to the stub call or past it. -/
def parseIpv6Slots (flags : BfChainFlags) : List Emitted :=
  skipOver (bpfJmpImm .ne 7 ((htobe16 ethPIpv6).setWidth 32) 0)
    [bpfLdxMem .b 8 0 6,
      jumpSlot (bpfJmpImm .eq 8 (ipprotoTcp.setWidth 32) 0) 17,
      jumpSlot (bpfJmpImm .eq 8 (ipprotoUdp.setWidth 32) 0) 16,
      bpfLdImm64Lo 2 0 bfLowEhBitmask, bpfLdImm64Hi bfLowEhBitmask,
      bpfJmpImm .ge 8 64 4, bpfMov64Imm 3 1, bpfAlu64Reg .lsh 3 8, bpfAlu64Reg .and 3 2,
      bpfJmpImm .ne 3 0 4, bpfJmpImm .eq 8 135 3, bpfJmpImm .eq 8 139 2, bpfJmpImm .eq 8 140 1,
      jumpSlot (bpfJmpA 0) 5,
      bpfMov64Reg 1 10, bpfAlu64Imm .add 1 (ctxImm .arg), callSlot (ipv6Stub flags),
      bpfMov64Reg 8 0, jumpSlot (bpfJmpA 0) 3,
      bpfLdxMem .w 2 10 (ctxOff .l3Offset), bpfAlu64Imm .add 2 40,
      bpfStxMem .w 10 2 (ctxOff .l4Offset)]

theorem stubParseIpv6_eq :
    stubParseIpv6 p = .ok ((), p.append (parseIpv6Slots p.chain.flags)) := by
  rw [← p.append_nil]
  cases store : p.chain.flags.storeNexthdr <;>
    simp (disch := simp) only [stubParseIpv6, gen_bind, gen_get, emit_append, bfJmpctxGet_append,
      List.nil_append, List.cons_append, BfProgram.append_append, List.length_nil,
      List.length_cons, Nat.reduceAdd, BfProgram.append_chain, store, emitFixupElfstub,
      emitFixup_append, bfJmpctxCleanup_eq p tracked, closeSlot, List.modify_zero_cons,
      List.modify_succ_cons, Nat.reduceSub, if_true, if_false, Bool.false_eq_true,
      parseIpv6Slots, ipv6Stub] <;>
    rfl

def l3Msg : String := "failed to create L3 dynamic pointer slice"

/-- The slice call shared by layers 3 and 4: offset and buffer are context fields. -/
def sliceSlots (size offset buffer : RuntimeField) (id : BitVec 32) : List Emitted :=
  [bpfStxMem .b 10 4 (ctxOff size), bpfMov64Reg 1 10, bpfAlu64Imm .add 1 (ctxImm .dynptr),
    bpfLdxMem .w 2 10 (ctxOff offset), bpfMov64Reg 3 10, bpfAlu64Imm .add 3 (ctxImm buffer),
    kfuncCall id]

def parseL3BodySlots (p : BfProgram) (id : BitVec 32) : List Emitted :=
  sliceSlots .l3Size .l3Offset .l2 id ++
    skipOver (bpfJmpImm .ne 0 0 0) (errorExitSlots p l3Msg) ++
    ([bpfStxMem .dw 10 0 (ctxOff .l3Hdr)] : List Emitted) ++
    parseIpv4Slots ++ parseIpv6Slots p.chain.flags

theorem stubParseL3Body_eq {id : BitVec 32}
    (known : p.host.btfGetId .bpfDynptrSlice = .ok id) :
    stubParseL3Body p = .ok ((), (p.noted l3Msg).append (parseL3BodySlots p id)) := by
  rw [← p.append_nil]
  simp only [stubParseL3Body, gen_bind, emit_append, emitKfuncCall_append _ known,
    List.nil_append, List.cons_append]
  rw [stubErrorGuard_eq _ _ (tracked.append _), errorExitSlots_append, BfProgram.noted_append,
    BfProgram.append_append]
  simp only [emit_append]
  rw [stubParseIpv4_eq ((tracked.noted _).append _)]
  simp only []
  rw [stubParseIpv6_eq (((tracked.noted _).append _).append _)]
  simp only [BfProgram.append_append, BfProgram.append_nil, BfProgram.append_chain,
    BfProgram.noted_chain, parseL3BodySlots, List.append_assoc]
  rfl

def parseL3Swich : List Emitted :=
  swich2Slots 7 ((htobe16 ethPIp).setWidth 32) ((htobe16 ethPIpv6).setWidth 32)
    (bpfMov64Imm 4 20) (bpfMov64Imm 4 40) (bpfMov64Imm 7 0)

def parseL3Slots (p : BfProgram) (id : BitVec 32) : List Emitted :=
  parseL3Swich ++ skipOver (bpfJmpImm .eq 7 0 0) (parseL3BodySlots p id)

theorem bfStubParseL3Hdr_eq {id : BitVec 32}
    (known : p.host.btfGetId .bpfDynptrSlice = .ok id) :
    bfStubParseL3Hdr p = .ok ((), (p.noted l3Msg).append (parseL3Slots p id)) := by
  have options : bfSwichGenerate l3Swich p = .ok ((), p.append parseL3Swich) :=
    swich2_eq tracked ..
  have body : stubParseL3Body ((p.append parseL3Swich).append [{ insn := bpfJmpImm .eq 7 0 0 }]) =
      .ok ((), ((p.noted l3Msg).append parseL3Swich).append
        ({ insn := bpfJmpImm .eq 7 0 0 } :: parseL3BodySlots p id)) := by
    rw [stubParseL3Body_eq ((tracked.append _).append _) (by simpa using known),
      BfProgram.noted_append, BfProgram.noted_append]
    simp only [BfProgram.append_append, List.append_assoc]
    rfl
  calc bfStubParseL3Hdr p
      = _ := gen_bind_ok options
    _ = _ := scope_eq ((tracked.noted _).append _) (by simp) body
    _ = _ := by rw [BfProgram.append_append, parseL3Slots]

/-! ## Layer 4 -/

def l4Msg : String := "failed to create L4 dynamic pointer slice"

def parseL4BodySlots (p : BfProgram) (id : BitVec 32) : List Emitted :=
  sliceSlots .l4Size .l4Offset .l4 id ++
    skipOver (bpfJmpImm .ne 0 0 0) (errorExitSlots p l4Msg) ++
    ([bpfStxMem .dw 10 0 (ctxOff .l4Hdr)] : List Emitted)

theorem stubParseL4Body_eq {id : BitVec 32}
    (known : p.host.btfGetId .bpfDynptrSlice = .ok id) :
    stubParseL4Body p = .ok ((), (p.noted l4Msg).append (parseL4BodySlots p id)) := by
  rw [← p.append_nil]
  simp only [stubParseL4Body, gen_bind, emit_append, emitKfuncCall_append _ known,
    List.nil_append, List.cons_append]
  rw [stubErrorGuard_eq _ _ (tracked.append _), errorExitSlots_append, BfProgram.noted_append,
    BfProgram.append_append]
  simp only [emit_append, BfProgram.append_nil, parseL4BodySlots]
  rfl

def parseL4Swich : List Emitted :=
  swich4Slots 8 (ipprotoTcp.setWidth 32) (ipprotoUdp.setWidth 32) (ipprotoIcmp.setWidth 32)
    (ipprotoIcmpv6.setWidth 32) (bpfMov64Imm 4 20) (bpfMov64Imm 4 8) (bpfMov64Imm 4 8)
    (bpfMov64Imm 4 8) (bpfMov64Imm 8 0)

def parseL4Slots (p : BfProgram) (id : BitVec 32) : List Emitted :=
  parseL4Swich ++ skipOver (bpfJmpImm .eq 8 0 0) (parseL4BodySlots p id)

theorem bfStubParseL4Hdr_eq {id : BitVec 32}
    (known : p.host.btfGetId .bpfDynptrSlice = .ok id) :
    bfStubParseL4Hdr p = .ok ((), (p.noted l4Msg).append (parseL4Slots p id)) := by
  have options : bfSwichGenerate l4Swich p = .ok ((), p.append parseL4Swich) :=
    swich4_eq tracked ..
  have body : stubParseL4Body ((p.append parseL4Swich).append [{ insn := bpfJmpImm .eq 8 0 0 }]) =
      .ok ((), ((p.noted l4Msg).append parseL4Swich).append
        ({ insn := bpfJmpImm .eq 8 0 0 } :: parseL4BodySlots p id)) := by
    rw [stubParseL4Body_eq ((tracked.append _).append _) (by simpa using known),
      BfProgram.noted_append, BfProgram.noted_append]
    simp only [BfProgram.append_append, List.append_assoc]
    rfl
  calc bfStubParseL4Hdr p
      = _ := gen_bind_ok options
    _ = _ := scope_eq ((tracked.noted _).append _) (by simp) body
    _ = _ := by rw [BfProgram.append_append, parseL4Slots]

end Parsing

end Bpfilter

/-
# Cgen.Generate -- from a chain to an image

`bfProgramGenerate` emits a whole program: the saved argument, the flavor's
prologue, one block per rule, the policy, then the stubs the program calls.  The
jumps of a rule are filled as soon as the rule is complete, the stub calls when
all stubs have been placed, and the map references when the program is loaded
(`bfProgramLoadFixups`).

The generators take the matcher dispatch as an argument, so that results about
the assembly of rules do not depend on what the matchers emit;
`bfProgramGenerate` uses the real dispatch.
-/
import Bpfilter.Cgen.Matcher

namespace Bpfilter

set_option autoImplicit false

open Ebpf

/-! ## Rules -/

/-- The matcher loop of `_bf_program_generate_rule`. -/
def generateMatchers (gen : BfMatcher → Gen Unit) : List BfMatcher → Gen Unit
  | [] => pure ()
  | m :: rest => do
      gen m
      generateMatchers gen rest

/-- Set the mark of a matched packet, on flavors that can. -/
def generateMark : Option (BitVec 32) → Gen Unit
  | none => pure ()
  | some mark => do
      match (bfFlavorOpsGet (← get).flavor).genInlineSetMark with
      | none => throw (.errno .enotsup)
      | some setMark => setMark mark

/-- Log a matched packet: `bf_log(ctx, index, log, l3_proto, l4_proto)`. -/
def generateLog (rule : BfRule) : Gen Unit := do
  emit (bpfMov64Reg 1 10)
  emit (bpfAlu64Imm .add 1 (ctxImm .arg))
  emit (bpfMov64Imm 2 rule.index)
  emit (bpfMov64Imm 3 (rule.log.setWidth 32))
  emit (bpfMov64Reg 4 7)
  emit (bpfMov64Reg 5 8)
  emitFixupElfstub .log

/-- A terminal verdict ends the program; `continue` falls through. -/
def generateVerdict : BfVerdict → Gen Unit
  | .accept => emitVerdict .accept
  | .drop => emitVerdict .drop
  | .continue => pure ()

/-- What a rule does once its matchers have matched. -/
def generateActions (rule : BfRule) : Gen Unit := do
  generateMark rule.mark
  if rule.log ≠ 0 then generateLog rule
  if rule.counters then emitUpdateCounters rule.index
  generateVerdict rule.verdict

/-- `_bf_program_generate_rule` -/
def bfProgramGenerateRuleWith (gen : BfMatcher → Gen Unit) (rule : BfRule) : Gen Unit := do
  generateMatchers gen rule.matchers
  generateActions rule
  bfProgramFixup .jmpNextRule

def generateRules (gen : BfMatcher → Gen Unit) : List BfRule → Gen Unit
  | [] => pure ()
  | rule :: rest => do
      bfProgramGenerateRuleWith gen rule
      generateRules gen rest

/-! ## ELF stubs -/

/-- Point one message load of a stub placed at `start` to the printer map. -/
def placeStubStr (start : Nat) (pstr : Nat × String) : Gen Unit :=
  modify fun p =>
    let added := bfPrinterAddMsg p.printer pstr.2
    let lo := { bpfLdImm64Lo 1 pseudoMapFd 0 with src := pseudoMapValue }
    let hi := { bpfLdImm64Hi 0 with imm := BitVec.ofNat 32 added.1.offset }
    { p with
      printer := added.2
      img := (p.img.set (start + pstr.1) lo).set (start + pstr.1 + 1) hi
      fixups := p.fixups ++ [⟨.printerMapFd, start + pstr.1⟩] }

def placeStubStrs (start : Nat) : List (Nat × String) → Gen Unit
  | [] => pure ()
  | pstr :: rest => do
      placeStubStr start pstr
      placeStubStrs start rest

/-- Record the position of a stub.  The location is a 32-bit field; `stubStart` is
where the stub really is. -/
def BfProgram.located (p : BfProgram) (id : BfElfstubId) (start : Nat) : BfProgram :=
  { p with
    elfstubsLocation := fun id' =>
      if id' = id then BitVec.ofNat 32 start else p.elfstubsLocation id'
    stubStart := fun id' => if id' = id then some start else p.stubStart id' }

/-- One iteration of `_bf_program_generate_elfstubs`: a stub is placed once. -/
def placeElfstub (fixup : BfFixup) : Gen Unit := do
  match fixup.kind with
  | .elfstubCall id => do
      let p ← get
      if p.elfstubsLocation id ≠ 0 then pure ()
      else
        match p.host.getElfstub id with
        | none => throw (.errno .enoent)
        | some stub => do
            emitAll stub.insns
            placeStubStrs p.img.length stub.strs
            modify fun q => q.located id p.img.length
  | _ => pure ()

def placeElfstubs : List BfFixup → Gen Unit
  | [] => pure ()
  | fixup :: rest => do
      placeElfstub fixup
      placeElfstubs rest

/-- `_bf_program_generate_elfstubs`.  The fixups appended while it runs are printer
references, which the loop skips. -/
def bfProgramGenerateElfstubs : Gen Unit := do
  placeElfstubs (← get).fixups

/-! ## Programs -/

/-- Everything before the first rule. -/
def generateHead : Gen Unit := do
  let p ← get
  emit (bpfStxMem .dw 10 1 (ctxOff .arg))
  emit (bpfMov64Imm 7 0)
  emit (bpfMov64Imm 8 0)
  if p.chain.flags.log then do
    emitLoadLogFdFixup 2
    emit (bpfStxMem .dw 10 2 (ctxOff .logMap))
  if p.chain.flags.storeNexthdr then emit (bpfStxMem .dw 10 7 (ctxOff .ipv6Eh))
  (bfFlavorOpsGet p.flavor).genInlinePrologue

/-- Everything after the last rule, up to the stubs. -/
def generatePolicy : Gen Unit := do
  let p ← get
  (bfFlavorOpsGet p.flavor).genInlineEpilogue
  emitUpdateCounters (BitVec.ofNat 32 (bfProgramChainCounterIdx p))
  emitVerdict p.chain.policy

/-- `bf_program_generate` -/
def bfProgramGenerateWith (gen : BfMatcher → Gen Unit) : Gen Unit := do
  generateHead
  generateRules gen (← get).chain.rules
  generatePolicy
  bfProgramGenerateElfstubs
  bfProgramFixup .elfstubCall

def bfProgramGenerate : Gen Unit := bfProgramGenerateWith bfMatcherGenerate

/-- The fixup passes of `bf_program_load`, once the maps have been created. -/
def bfProgramLoadFixups : Gen Unit := do
  bfProgramFixup .setMapFd
  bfProgramFixup .countersMapFd
  bfProgramFixup .printerMapFd
  bfProgramFixup .logMapFd

/-- All stub identifiers. -/
def allElfstubs : List BfElfstubId := [.parseIpv6Eh, .parseIpv6Nh, .updateCounters, .log]

/-- The text the kernel runs, with the entry points of the stubs. -/
def BfProgram.image (p : BfProgram) : Image BfElfstubId where
  insns := p.img
  entry pc := allElfstubs.find? fun id => p.stubStart id == some pc

end Bpfilter

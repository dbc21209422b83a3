/-
# Cgen.Head -- the code before the first rule

`headSlots` is what `generateHead` emits, for each flavor: the saved argument,
the protocol registers, the optional log map and extension header fields, and
the flavor's prologue.  Kernel lookups that fail make generation fail, so a
successful run has found every offset it used (`generateHead_spec`).
-/
import Bpfilter.Cgen.Slots

namespace Bpfilter

set_option autoImplicit false

open Ebpf

/-! ## Kernel lookups -/

/-- Offset of a field, when the lookup succeeds. -/
def Host.fieldOff (host : Host) (field : BtfField) : BitVec 16 :=
  match host.btfGetFieldOff field with
  | .ok off => off
  | .error _ => 0

/-- Identifier of a kernel function, when the lookup succeeds. -/
def Host.kfuncId (host : Host) (name : BtfKfunc) : BitVec 32 :=
  match host.btfGetId name with
  | .ok id => id
  | .error _ => 0

theorem gen_bind_inv {α β : Type} {x : Gen α} {f : α → Gen β} {p : BfProgram}
    {r : β × BfProgram} (ran : (x >>= f) p = .ok r) :
    ∃ a p', x p = .ok (a, p') ∧ f a p' = .ok r := by
  rw [gen_bind] at ran
  cases first : x p with
  | error e => simp [first] at ran
  | ok ap =>
      obtain ⟨a, p'⟩ := ap
      rw [first] at ran
      exact ⟨a, p', rfl, ran⟩

theorem btfGetFieldOff_inv {field : BtfField} {p p' : BfProgram} {off : BitVec 16}
    (ran : btfGetFieldOff field p = .ok (off, p')) : off = p.host.fieldOff field ∧ p' = p := by
  unfold btfGetFieldOff at ran
  rw [gen_bind, gen_get] at ran
  cases known : p.host.btfGetFieldOff field with
  | error e => simp [known, gen_throw] at ran
  | ok o =>
      simp only [known, gen_pure, Except.ok.injEq, Prod.mk.injEq] at ran
      obtain ⟨rfl, rfl⟩ := ran
      simp [Host.fieldOff, known]

theorem emitKfuncCall_error {name : BtfKfunc} {e : Errno} {p : BfProgram} (es : List Emitted)
    (missing : p.host.btfGetId name = .error e) :
    emitKfuncCall name (p.append es) = .error (.errno e) := by
  simp only [emitKfuncCall, gen_bind, gen_get, BfProgram.append_host, missing, gen_throw]

theorem Host.kfuncId_eq {host : Host} {name : BtfKfunc} {id : BitVec 32}
    (known : host.btfGetId name = .ok id) : host.kfuncId name = id := by
  simp [kfuncId, known]

/-! ## The parsing steps, from success -/

section Steps

variable {p p' : BfProgram} (tracked : p.Tracked)

include tracked

theorem bfStubMakeCtxDynptr_spec {kfunc : BtfKfunc}
    (ran : bfStubMakeCtxDynptr 1 kfunc p = .ok ((), p')) :
    p' = (p.noted dynptrMsg).append (makeDynptrSlots p (p.host.kfuncId kfunc)) := by
  cases known : p.host.btfGetId kfunc with
  | error e =>
      simp [bfStubMakeCtxDynptr, gen_bind, emit_eq, emitKfuncCall_error _ known] at ran
  | ok id =>
      rw [bfStubMakeCtxDynptr_eq tracked known] at ran
      cases ran
      rw [Host.kfuncId_eq known]

theorem bfStubParseL2Ethhdr_spec (ran : bfStubParseL2Ethhdr p = .ok ((), p')) :
    p' = (p.noted l2Msg).append (parseL2Slots p (p.host.kfuncId .bpfDynptrSlice)) := by
  cases known : p.host.btfGetId .bpfDynptrSlice with
  | error e =>
      simp [bfStubParseL2Ethhdr, gen_bind, emit_eq, emitKfuncCall_error _ known] at ran
  | ok id =>
      rw [bfStubParseL2Ethhdr_eq tracked known] at ran
      cases ran
      rw [Host.kfuncId_eq known]

theorem bfStubParseL3Hdr_spec (ran : bfStubParseL3Hdr p = .ok ((), p')) :
    p' = (p.noted l3Msg).append (parseL3Slots p (p.host.kfuncId .bpfDynptrSlice)) := by
  cases known : p.host.btfGetId .bpfDynptrSlice with
  | error e =>
      simp [bfStubParseL3Hdr, l3Swich, gen_bind, swich2_eq tracked, bfJmpctxGet_append,
        stubParseL3Body, emit_append, emitKfuncCall_error _ known] at ran
  | ok id =>
      rw [bfStubParseL3Hdr_eq tracked known] at ran
      cases ran
      rw [Host.kfuncId_eq known]

theorem bfStubParseL4Hdr_spec (ran : bfStubParseL4Hdr p = .ok ((), p')) :
    p' = (p.noted l4Msg).append (parseL4Slots p (p.host.kfuncId .bpfDynptrSlice)) := by
  cases known : p.host.btfGetId .bpfDynptrSlice with
  | error e =>
      simp [bfStubParseL4Hdr, l4Swich, gen_bind, swich4_eq tracked, bfJmpctxGet_append,
        stubParseL4Body, emit_append, emitKfuncCall_error _ known] at ran
  | ok id =>
      rw [bfStubParseL4Hdr_eq tracked known] at ran
      cases ran
      rw [Host.kfuncId_eq known]

end Steps

/-! ## Prologues -/

/-- Everything from the dynamic pointer on, starting at layer 3. -/
def fromL3Slots (p : BfProgram) (kfunc : BtfKfunc) : List Emitted :=
  makeDynptrSlots p (p.host.kfuncId kfunc) ++
    parseL3Slots (p.noted dynptrMsg) (p.host.kfuncId .bpfDynptrSlice) ++
    parseL4Slots ((p.noted dynptrMsg).noted l3Msg) (p.host.kfuncId .bpfDynptrSlice)

/-- Everything from the dynamic pointer on, starting at layer 2. -/
def fromL2Slots (p : BfProgram) (kfunc : BtfKfunc) : List Emitted :=
  makeDynptrSlots p (p.host.kfuncId kfunc) ++
    parseL2Slots (p.noted dynptrMsg) (p.host.kfuncId .bpfDynptrSlice) ++
    parseL3Slots ((p.noted dynptrMsg).noted l2Msg) (p.host.kfuncId .bpfDynptrSlice) ++
    parseL4Slots (((p.noted dynptrMsg).noted l2Msg).noted l3Msg) (p.host.kfuncId .bpfDynptrSlice)

def familySlots (reg : Reg) : List Emitted :=
  swich2Slots reg afInet afInet6 (bpfMov64Imm 7 ((htobe16 ethPIp).setWidth 32))
    (bpfMov64Imm 7 ((htobe16 ethPIpv6).setWidth 32)) (bpfMov64Imm 7 0)

/-- The flavor-specific instructions in front of the dynamic pointer. -/
def prologueStart (p : BfProgram) : BfFlavor → List Emitted
  | .nf =>
      ([bpfLdxMem .dw 2 1 (p.host.fieldOff .bpfNfCtxState),
        bpfLdxMem .dw 3 2 (p.host.fieldOff
          (if bfNfHookIsIngress p.chain.hook then .nfHookStateIn else .nfHookStateOut)),
        bpfLdxMem .w 4 3 (p.host.fieldOff .netDeviceIfindex),
        bpfStxMem .w 10 4 (ctxOff .ifindex),
        bpfLdxMem .b 3 2 (p.host.fieldOff .nfHookStatePf)] : List Emitted) ++
        familySlots 3 ++
        ([bpfStMem .w 10 (ctxOff .l3Offset) 0,
          bpfLdxMem .dw 1 1 (p.host.fieldOff .bpfNfCtxSkb),
          bpfLdxMem .w 2 1 (p.host.fieldOff .skBuffLen),
          bpfAlu64Imm .add 2 14, bpfStxMem .dw 10 2 (ctxOff .pktSize)] : List Emitted)
  | .tc =>
      [bpfLdxMem .w 3 1 uSkBuffLen, bpfStxMem .dw 10 3 (ctxOff .pktSize),
        bpfLdxMem .w 2 1 (p.host.fieldOff .uSkBuffIfindex), bpfStxMem .w 10 2 (ctxOff .ifindex)]
  | .xdp =>
      [bpfLdxMem .w 2 1 0, bpfLdxMem .w 3 1 4, bpfAlu64Reg .sub 3 2,
        bpfStxMem .dw 10 3 (ctxOff .pktSize), bpfLdxMem .w 2 1 12,
        bpfStxMem .w 10 2 (ctxOff .ifindex)]
  | .cgroup =>
      ([bpfLdxMem .w 3 1 uSkBuffLen, bpfAlu64Imm .add 3 14, bpfStxMem .dw 10 3 (ctxOff .pktSize),
        bpfLdxMem .w 2 1 (p.host.fieldOff .uSkBuffIfindex), bpfStxMem .w 10 2 (ctxOff .ifindex),
        bpfLdxMem .w 2 1 (p.host.fieldOff .uSkBuffFamily)] : List Emitted) ++
        familySlots 2 ++ ([bpfStMem .w 10 (ctxOff .l3Offset) 0] : List Emitted)

/-- What a prologue emits after its start. -/
def prologueRest (p : BfProgram) : BfFlavor → List Emitted
  | .nf => fromL3Slots p .bpfDynptrFromSkb
  | .tc => fromL2Slots p .bpfDynptrFromSkb
  | .xdp => fromL2Slots p .bpfDynptrFromXdp
  | .cgroup => fromL3Slots p .bpfDynptrFromSkb

/-- The program with the printer messages of a prologue. -/
def prologueNoted (p : BfProgram) : BfFlavor → BfProgram
  | .nf => ((p.noted dynptrMsg).noted l3Msg).noted l4Msg
  | .tc => (((p.noted dynptrMsg).noted l2Msg).noted l3Msg).noted l4Msg
  | .xdp => (((p.noted dynptrMsg).noted l2Msg).noted l3Msg).noted l4Msg
  | .cgroup => ((p.noted dynptrMsg).noted l3Msg).noted l4Msg

section Prologues

variable {p p' : BfProgram} (tracked : p.Tracked)

include tracked

theorem fromL3_spec {kfunc : BtfKfunc} (es : List Emitted)
    (ran : (do
      bfStubMakeCtxDynptr 1 kfunc
      bfStubParseL3Hdr
      bfStubParseL4Hdr) (p.append es) = .ok ((), p')) :
    p' = (((p.noted dynptrMsg).noted l3Msg).noted l4Msg).append (es ++ fromL3Slots p kfunc) := by
  obtain ⟨_, p₁, first, rest⟩ := gen_bind_inv ran
  obtain ⟨_, p₂, second, third⟩ := gen_bind_inv rest
  have t₀ : (p.append es).Tracked := tracked.append es
  have at₁ := bfStubMakeCtxDynptr_spec t₀ first
  have t₁ : p₁.Tracked := at₁ ▸ (t₀.noted _).append _
  have at₂ := bfStubParseL3Hdr_spec t₁ second
  have t₂ : p₂.Tracked := at₂ ▸ (t₁.noted _).append _
  have at₃ := bfStubParseL4Hdr_spec t₂ third
  rw [at₃, at₂, at₁]
  simp only [BfProgram.noted_append, BfProgram.append_append, BfProgram.noted_host,
    BfProgram.append_host, fromL3Slots, List.append_assoc]
  rfl

theorem fromL2_spec {kfunc : BtfKfunc} (es : List Emitted)
    (ran : (do
      bfStubMakeCtxDynptr 1 kfunc
      bfStubParseL2Ethhdr
      bfStubParseL3Hdr
      bfStubParseL4Hdr) (p.append es) = .ok ((), p')) :
    p' = ((((p.noted dynptrMsg).noted l2Msg).noted l3Msg).noted l4Msg).append
      (es ++ fromL2Slots p kfunc) := by
  obtain ⟨_, p₁, first, rest⟩ := gen_bind_inv ran
  obtain ⟨_, p₂, second, rest⟩ := gen_bind_inv rest
  obtain ⟨_, p₃, third, fourth⟩ := gen_bind_inv rest
  have t₀ : (p.append es).Tracked := tracked.append es
  have at₁ := bfStubMakeCtxDynptr_spec t₀ first
  have t₁ : p₁.Tracked := at₁ ▸ (t₀.noted _).append _
  have at₂ := bfStubParseL2Ethhdr_spec t₁ second
  have t₂ : p₂.Tracked := at₂ ▸ (t₁.noted _).append _
  have at₃ := bfStubParseL3Hdr_spec t₂ third
  have t₃ : p₃.Tracked := at₃ ▸ (t₂.noted _).append _
  have at₄ := bfStubParseL4Hdr_spec t₃ fourth
  rw [at₄, at₃, at₂, at₁]
  simp only [BfProgram.noted_append, BfProgram.append_append, BfProgram.noted_host,
    BfProgram.append_host, fromL2Slots, List.append_assoc]
  rfl

theorem bfNfGenInlinePrologue_spec (es : List Emitted)
    (ran : bfNfGenInlinePrologue (p.append es) = .ok ((), p')) :
    p' = (prologueNoted p .nf).append (es ++ (prologueStart p .nf ++ prologueRest p .nf)) := by
  unfold bfNfGenInlinePrologue at ran
  obtain ⟨state, _, lookup, ran⟩ := gen_bind_inv ran
  obtain ⟨rfl, rfl⟩ := btfGetFieldOff_inv lookup
  rw [gen_bind_ok (emit_append _ _ _), gen_bind_ok (gen_get _)] at ran
  obtain ⟨device, _, lookup, ran⟩ := gen_bind_inv ran
  obtain ⟨rfl, rfl⟩ := btfGetFieldOff_inv lookup
  rw [gen_bind_ok (emit_append _ _ _)] at ran
  obtain ⟨ifindex, _, lookup, ran⟩ := gen_bind_inv ran
  obtain ⟨rfl, rfl⟩ := btfGetFieldOff_inv lookup
  rw [gen_bind_ok (emit_append _ _ _), gen_bind_ok (emit_append _ _ _)] at ran
  obtain ⟨pf, _, lookup, ran⟩ := gen_bind_inv ran
  obtain ⟨rfl, rfl⟩ := btfGetFieldOff_inv lookup
  rw [gen_bind_ok (emit_append _ _ _), familySwich, gen_bind_ok (swich2_eq (tracked.append _) ..),
    BfProgram.append_append, gen_bind_ok (emit_append _ _ _)] at ran
  obtain ⟨skb, _, lookup, ran⟩ := gen_bind_inv ran
  obtain ⟨rfl, rfl⟩ := btfGetFieldOff_inv lookup
  rw [gen_bind_ok (emit_append _ _ _)] at ran
  obtain ⟨len, _, lookup, ran⟩ := gen_bind_inv ran
  obtain ⟨rfl, rfl⟩ := btfGetFieldOff_inv lookup
  rw [gen_bind_ok (emit_append _ _ _), gen_bind_ok (emit_append _ _ _),
    gen_bind_ok (emit_append _ _ _)] at ran
  rw [fromL3_spec tracked _ ran]
  simp only [prologueStart, prologueRest, prologueNoted, List.append_assoc,
    BfProgram.append_host, BfProgram.append_chain]
  rfl

theorem bfTcGenInlinePrologue_spec (es : List Emitted)
    (ran : bfTcGenInlinePrologue (p.append es) = .ok ((), p')) :
    p' = (prologueNoted p .tc).append (es ++ (prologueStart p .tc ++ prologueRest p .tc)) := by
  unfold bfTcGenInlinePrologue at ran
  rw [gen_bind_ok (emit_append _ _ _), gen_bind_ok (emit_append _ _ _)] at ran
  obtain ⟨ifindex, _, lookup, ran⟩ := gen_bind_inv ran
  obtain ⟨rfl, rfl⟩ := btfGetFieldOff_inv lookup
  rw [gen_bind_ok (emit_append _ _ _), gen_bind_ok (emit_append _ _ _)] at ran
  rw [fromL2_spec tracked _ ran]
  simp only [prologueStart, prologueRest, prologueNoted, List.append_assoc,
    BfProgram.append_host]
  rfl

theorem bfXdpGenInlinePrologue_spec (es : List Emitted)
    (ran : bfXdpGenInlinePrologue (p.append es) = .ok ((), p')) :
    p' = (prologueNoted p .xdp).append (es ++ (prologueStart p .xdp ++ prologueRest p .xdp)) := by
  unfold bfXdpGenInlinePrologue at ran
  rw [gen_bind_ok (emit_append _ _ _), gen_bind_ok (emit_append _ _ _),
    gen_bind_ok (emit_append _ _ _), gen_bind_ok (emit_append _ _ _),
    gen_bind_ok (emit_append _ _ _), gen_bind_ok (emit_append _ _ _)] at ran
  rw [fromL2_spec tracked _ ran]
  simp only [prologueStart, prologueRest, prologueNoted, List.append_assoc]
  rfl

theorem bfCgroupGenInlinePrologue_spec (es : List Emitted)
    (ran : bfCgroupGenInlinePrologue (p.append es) = .ok ((), p')) :
    p' = (prologueNoted p .cgroup).append
      (es ++ (prologueStart p .cgroup ++ prologueRest p .cgroup)) := by
  unfold bfCgroupGenInlinePrologue at ran
  rw [gen_bind_ok (emit_append _ _ _), gen_bind_ok (emit_append _ _ _),
    gen_bind_ok (emit_append _ _ _)] at ran
  obtain ⟨ifindex, _, lookup, ran⟩ := gen_bind_inv ran
  obtain ⟨rfl, rfl⟩ := btfGetFieldOff_inv lookup
  rw [gen_bind_ok (emit_append _ _ _), gen_bind_ok (emit_append _ _ _)] at ran
  obtain ⟨family, _, lookup, ran⟩ := gen_bind_inv ran
  obtain ⟨rfl, rfl⟩ := btfGetFieldOff_inv lookup
  rw [gen_bind_ok (emit_append _ _ _), familySwich, gen_bind_ok (swich2_eq (tracked.append _) ..),
    BfProgram.append_append, gen_bind_ok (emit_append _ _ _)] at ran
  rw [fromL3_spec tracked _ ran]
  simp only [prologueStart, prologueRest, prologueNoted, List.append_assoc,
    BfProgram.append_host]
  rfl

theorem genInlinePrologue_spec (flavor : BfFlavor) (es : List Emitted)
    (ran : (bfFlavorOpsGet flavor).genInlinePrologue (p.append es) = .ok ((), p')) :
    p' = (prologueNoted p flavor).append
      (es ++ (prologueStart p flavor ++ prologueRest p flavor)) := by
  cases flavor with
  | nf => exact bfNfGenInlinePrologue_spec tracked es ran
  | tc => exact bfTcGenInlinePrologue_spec tracked es ran
  | xdp => exact bfXdpGenInlinePrologue_spec tracked es ran
  | cgroup => exact bfCgroupGenInlinePrologue_spec tracked es ran

end Prologues

/-! ## The head of a program -/

/-- The instructions in front of the prologue. -/
def headStart (flags : BfChainFlags) : List Emitted :=
  ([bpfStxMem .dw 10 1 (ctxOff .arg), bpfMov64Imm 7 0, bpfMov64Imm 8 0] : List Emitted) ++
    (if flags.log then
      loadFdSlots .logMapFd 2 ++ ([bpfStxMem .dw 10 2 (ctxOff .logMap)] : List Emitted)
    else []) ++
    (if flags.storeNexthdr then ([bpfStxMem .dw 10 7 (ctxOff .ipv6Eh)] : List Emitted) else [])

def headSlots (p : BfProgram) : List Emitted :=
  headStart p.chain.flags ++ (prologueStart p p.flavor ++ prologueRest p p.flavor)

theorem generateHead_spec {p p' : BfProgram} (tracked : p.Tracked)
    (ran : generateHead p = .ok ((), p')) :
    p' = (prologueNoted p p.flavor).append (headSlots p) := by
  have started : generateHead p =
      (bfFlavorOpsGet p.flavor).genInlinePrologue (p.append (headStart p.chain.flags)) := by
    cases log : p.chain.flags.log <;> cases store : p.chain.flags.storeNexthdr <;>
      simp [generateHead, headStart, gen_bind, gen_get, emit_eq, emitLoadLogFdFixup,
        emitLoadFdFixup_eq, log, store]
  rw [started] at ran
  exact genInlinePrologue_spec tracked p.flavor _ ran

end Bpfilter

/-
# Cgen.Program -- the program under construction and its fixups

`BfProgram` is the part of `struct bf_program` that code generation reads and
writes: the image, the pending fixups, the printer messages and the stub
locations.  Generators run in `Gen`, a state monad over it that can fail.
Growing the image never fails here, so `emit` always succeeds.

A jump is resolved in one of two ways.  A `BfJmpctx` remembers the position of a
jump and `bfJmpctxCleanup` points it to the current end of the image; a fixup
remembers the position together with what is missing, and `bfProgramFixup` fills
every fixup of one type.  Assertions abort only when `NDEBUG` is not defined
(`Host.ndebug`).

Two fields are the model's own record, read by no generator: `closed` is, for
each instruction, the end of the image at the moment its offset was filled, and
`stubStart` the position a stub was placed at.

Everything a generator emits is described by a list of `Emitted` slots, and
`BfProgram.append` is the program with such a list added at its end.  The lemmas
of the last section say what each emission primitive does to `p.append es`; a
generator's own specification is then of the form `gen p = .ok ((), p.append es)`.
-/
import Bpfilter.Ebpf.Insn
import Bpfilter.Lib.Chain

namespace Bpfilter

set_option autoImplicit false

open Ebpf

/-! ## The environment of code generation -/

inductive BfElfstubId where
  | parseIpv6Eh | parseIpv6Nh | updateCounters | log
  deriving DecidableEq, Repr

/-- A stub compiled from C: its instructions, and the format strings it prints
with the position of the instruction pair that loads each. -/
structure BfElfstub where
  insns : List BpfInsn
  strs : List (Nat × String)

/-- Structure fields whose offset is looked up in the kernel's BTF. -/
inductive BtfField where
  | bpfNfCtxState | bpfNfCtxSkb
  | nfHookStateIn | nfHookStateOut | nfHookStatePf
  | netDeviceIfindex
  | skBuffLen | skBuffMark
  | uSkBuffIfindex | uSkBuffFamily
  deriving DecidableEq, Repr

inductive BtfKfunc where
  | bpfDynptrFromXdp | bpfDynptrFromSkb | bpfDynptrSlice
  deriving DecidableEq, Repr

/-- What the daemon takes from its build and from the running kernel. -/
structure Host where
  btfGetFieldOff : BtfField → Except Errno (BitVec 16)
  btfGetId : BtfKfunc → Except Errno (BitVec 32)
  getElfstub : BfElfstubId → Option BfElfstub
  verboseBpf : Bool
  ndebug : Bool

/-- Why generation stops: an error code, an abort (`bf_abort` or a failed
assertion), or behaviour the C standard leaves undefined. -/
inductive GenErr where
  | errno (e : Errno)
  | abort
  | undefined
  deriving DecidableEq, Repr

/-! ## Printer messages -/

structure BfPrinterMsg where
  offset : Nat
  len : Nat
  str : String
  deriving DecidableEq, Repr

structure BfPrinter where
  msgs : List BfPrinterMsg
  deriving DecidableEq, Repr

/-- `_bf_printer_total_size` -/
def bfPrinterTotalSize (printer : BfPrinter) : Nat :=
  match printer.msgs.getLast? with
  | some msg => msg.offset + msg.len
  | none => 0

/-- `bf_printer_add_msg`: reuse an identical message, or append a new one. -/
def bfPrinterAddMsg (printer : BfPrinter) (str : String) : BfPrinterMsg × BfPrinter :=
  match printer.msgs.find? (·.str == str) with
  | some msg => (msg, printer)
  | none =>
      let msg : BfPrinterMsg :=
        { offset := bfPrinterTotalSize printer, len := str.utf8ByteSize + 1, str }
      (msg, ⟨printer.msgs ++ [msg]⟩)

/-! ## Programs -/

/-- What a fixup waits for. -/
inductive BfFixupKind where
  | jmpNextRule
  | countersMapFd
  | printerMapFd
  | logMapFd
  | setMapFd (setIndex : Nat)
  | elfstubCall (id : BfElfstubId)
  deriving DecidableEq, Repr

inductive BfFixupType where
  | jmpNextRule | countersMapFd | printerMapFd | logMapFd | setMapFd | elfstubCall
  deriving DecidableEq, Repr

def BfFixupKind.type : BfFixupKind → BfFixupType
  | .jmpNextRule => .jmpNextRule
  | .countersMapFd => .countersMapFd
  | .printerMapFd => .printerMapFd
  | .logMapFd => .logMapFd
  | .setMapFd _ => .setMapFd
  | .elfstubCall _ => .elfstubCall

structure BfFixup where
  kind : BfFixupKind
  insn : Nat
  deriving DecidableEq, Repr

/-- File descriptors of the program's maps. -/
structure BfMaps where
  cmap : BitVec 32
  pmap : BitVec 32
  lmap : BitVec 32
  sets : List (BitVec 32)
  deriving DecidableEq, Repr

structure BfProgram where
  host : Host
  chain : BfChain
  maps : BfMaps
  printer : BfPrinter
  elfstubsLocation : BfElfstubId → BitVec 32
  stubStart : BfElfstubId → Option Nat
  img : List BpfInsn
  fixups : List BfFixup
  closed : List (Option Nat)

/-- A program with an empty image, as `bf_program_new` leaves it. -/
def bfProgramNew (host : Host) (chain : BfChain) (maps : BfMaps) : BfProgram :=
  { host, chain, maps, printer := ⟨[]⟩, elfstubsLocation := fun _ => 0,
    stubStart := fun _ => none, img := [], fixups := [], closed := [] }

abbrev Gen (α : Type) := StateT BfProgram (Except GenErr) α

/-- `program->flavor`, derived from the chain's hook. -/
def BfProgram.flavor (p : BfProgram) : BfFlavor := bfHookToFlavor p.chain.hook

def bfProgramChainCounterIdx (p : BfProgram) : Nat := p.chain.rules.length

def bfProgramErrorCounterIdx (p : BfProgram) : Nat := p.chain.rules.length + 1

/-! ## Emission -/

/-- `bf_program_emit` -/
def emit (insn : BpfInsn) : Gen Unit :=
  modify fun p => { p with img := p.img ++ [insn], closed := p.closed ++ [none] }

/-- `bf_program_emit_fixup` -/
def emitFixup (kind : BfFixupKind) (insn : BpfInsn) : Gen Unit := do
  modify fun p => { p with fixups := p.fixups ++ [⟨kind, p.img.length⟩] }
  emit insn

/-- `EMIT_FIXUP_JMP_NEXT_RULE` -/
def emitFixupJmpNextRule (insn : BpfInsn) : Gen Unit := emitFixup .jmpNextRule insn

/-- `bf_program_emit_fixup_elfstub` -/
def emitFixupElfstub (id : BfElfstubId) : Gen Unit := emitFixup (.elfstubCall id) (bpfCallRel 0)

/-- A map reference: the first slot carries the fixup. -/
def emitLoadFdFixup (kind : BfFixupKind) (reg : Reg) : Gen Unit := do
  emitFixup kind (bpfLdImm64Lo reg pseudoMapFd 0)
  emit (bpfLdImm64Hi 0)

/-- `EMIT_LOAD_COUNTERS_FD_FIXUP` -/
def emitLoadCountersFdFixup (reg : Reg) : Gen Unit := emitLoadFdFixup .countersMapFd reg

/-- `EMIT_LOAD_LOG_FD_FIXUP` -/
def emitLoadLogFdFixup (reg : Reg) : Gen Unit := emitLoadFdFixup .logMapFd reg

/-- `EMIT_LOAD_SET_FD_FIXUP` -/
def emitLoadSetFdFixup (reg : Reg) (index : Nat) : Gen Unit := emitLoadFdFixup (.setMapFd index) reg

/-- `bf_program_emit_kfunc_call` -/
def emitKfuncCall (name : BtfKfunc) : Gen Unit := do
  match (← get).host.btfGetId name with
  | .error e => throw (.errno e)
  | .ok id => emit { code := .call, src := pseudoKfuncCall, imm := id }

/-- `BPF_FUNC_trace_printk` -/
def bpfFuncTracePrintk : BitVec 32 := 6

/-- `EMIT_PRINT` -/
def emitPrint (msg : String) : Gen Unit := do
  let added := bfPrinterAddMsg (← get).printer msg
  modify fun p => { p with printer := added.2 }
  emitFixup .printerMapFd { bpfLdImm64Lo 1 pseudoMapFd 0 with src := pseudoMapValue }
  emit { bpfLdImm64Hi 0 with imm := BitVec.ofNat 32 added.1.offset }
  emit (bpfMov64Imm 2 (BitVec.ofNat 32 added.1.len))
  emit (bpfEmitCall bpfFuncTracePrintk)

/-- `bf_btf_get_field_off`, failing the generator on error. -/
def btfGetFieldOff (field : BtfField) : Gen (BitVec 16) := do
  match (← get).host.btfGetFieldOff field with
  | .error e => throw (.errno e)
  | .ok off => pure off

/-! ## Jump contexts -/

structure BfJmpctx where
  insnIdx : Nat
  deriving DecidableEq, Repr

/-- `bf_jmpctx_get` -/
def bfJmpctxGet (insn : BpfInsn) : Gen BfJmpctx := do
  let idx := (← get).img.length
  emit insn
  pure ⟨idx⟩

def setOff (i : BpfInsn) (off : Nat) : BpfInsn := { i with off := BitVec.ofNat 16 off }

/-- `bf_jmpctx_cleanup`: an offset that does not fit only logs a warning. -/
def bfJmpctxCleanup (ctx : BfJmpctx) : Gen Unit :=
  modify fun p =>
    { p with
      img := p.img.modify ctx.insnIdx (setOff · (p.img.length - ctx.insnIdx - 1))
      closed := p.closed.set ctx.insnIdx (some p.img.length) }

/-! ## Fixups -/

/-- `SHRT_MAX` -/
def shrtMax : Int := 32767

/-- The field of an instruction a fixup fills. -/
inductive BfFixupInsn where
  | off | imm
  deriving DecidableEq, Repr

/-- `_bf_program_fixup_insn` -/
def bfProgramFixupInsn (ndebug : Bool) (insn : BpfInsn) (type : BfFixupInsn) (value : BitVec 32) :
    Except GenErr BpfInsn :=
  match type with
  | .off =>
      if !ndebug && insn.off != 0 then .error .abort
      else if !ndebug && !decide (value.toInt < shrtMax) then .error .abort
      else .ok { insn with off := value.setWidth 16 }
  | .imm =>
      if !ndebug && insn.imm != 0 then .error .abort
      else .ok { insn with imm := value }

/-- The offset of a stub call.  In the source it is a `size_t`: a stub in front of
the call gives a value above `INT_MAX`, which is rejected as well. -/
def elfstubCallOffset (location : BitVec 32) (insn : Nat) : Except GenErr (BitVec 32) :=
  let offset : Int := (location.toNat : Int) - insn - 1
  if offset < 0 ∨ (intMax : Int) ≤ offset then .error (.errno .einval)
  else .ok (BitVec.ofInt 32 offset)

/-- The switch of `_bf_program_fixup`: which field gets which value. -/
def bfProgramFixupValue (p : BfProgram) (fixup : BfFixup) :
    Except GenErr (BfFixupInsn × BitVec 32) :=
  match fixup.kind with
  | .jmpNextRule => .ok (.off, BitVec.ofNat 32 (p.img.length - fixup.insn - 1))
  | .countersMapFd => .ok (.imm, p.maps.cmap)
  | .printerMapFd => .ok (.imm, p.maps.pmap)
  | .logMapFd => .ok (.imm, p.maps.lmap)
  | .setMapFd index =>
      match p.maps.sets[index]? with
      | none => .error (.errno .enoent)
      | some fd => .ok (.imm, fd)
  | .elfstubCall id =>
      match elfstubCallOffset (p.elfstubsLocation id) fixup.insn with
      | .error e => .error e
      | .ok offset => .ok (.imm, offset)

/-- One iteration of `_bf_program_fixup`.  A jump's target is recorded in `closed`. -/
def bfProgramFixupOne (type : BfFixupType) (p : BfProgram) (fixup : BfFixup) :
    Except GenErr BfProgram :=
  if fixup.kind.type = type then
    match p.img[fixup.insn]? with
    | none => .error .undefined
    | some insn =>
        match bfProgramFixupValue p fixup with
        | .error e => .error e
        | .ok (field, value) =>
            match bfProgramFixupInsn p.host.ndebug insn field value with
            | .error e => .error e
            | .ok patched =>
                .ok { p with
                  img := p.img.set fixup.insn patched
                  closed :=
                    if type = .jmpNextRule then p.closed.set fixup.insn (some p.img.length)
                    else p.closed }
  else .ok p

/-- `_bf_program_fixup`: fill every fixup of one type; the list is left without them. -/
def bfProgramFixup (type : BfFixupType) : Gen Unit := fun p =>
  match p.fixups.foldlM (bfProgramFixupOne type) p with
  | .error e => .error e
  | .ok p' => .ok ((), { p' with fixups := p.fixups.filter (fun f => f.kind.type != type) })

/-! ## Generated code as a list of slots -/

/-- One emitted slot: the instruction, its fixup if any, and the distance its
jump context was closed at if any. -/
structure Emitted where
  insn : BpfInsn
  fixup : Option BfFixupKind := none
  span : Option Nat := none
  deriving DecidableEq, Repr

/-- The fixups of a list of slots placed at `base`. -/
def fixupsFrom : Nat → List Emitted → List BfFixup
  | _, [] => []
  | base, e :: es =>
      match e.fixup with
      | some kind => ⟨kind, base⟩ :: fixupsFrom (base + 1) es
      | none => fixupsFrom (base + 1) es

/-- The recorded jump targets of a list of slots placed at `base`. -/
def closedFrom : Nat → List Emitted → List (Option Nat)
  | _, [] => []
  | base, e :: es => e.span.map (base + 1 + ·) :: closedFrom (base + 1) es

/-- `p` with the slots `es` added at the end of its image. -/
def BfProgram.append (p : BfProgram) (es : List Emitted) : BfProgram :=
  { p with
    img := p.img ++ es.map (·.insn)
    fixups := p.fixups ++ fixupsFrom p.img.length es
    closed := p.closed ++ closedFrom p.img.length es }

/-- The record of filled offsets is as long as the image. -/
def BfProgram.Tracked (p : BfProgram) : Prop := p.closed.length = p.img.length

/-- Close the jump context opened by slot `k`. -/
def closeSlot (k : Nat) (es : List Emitted) : List Emitted :=
  es.modify k fun e =>
    { e with insn := setOff e.insn (es.length - k - 1), span := some (es.length - k - 1) }

theorem fixupsFrom_append (base : Nat) (a b : List Emitted) :
    fixupsFrom base (a ++ b) = fixupsFrom base a ++ fixupsFrom (base + a.length) b := by
  induction a generalizing base with
  | nil => rfl
  | cons e es ih =>
      have shift : base + 1 + es.length = base + (e :: es).length := by simp; omega
      cases kind : e.fixup <;> simp [fixupsFrom, kind, ih, shift]

theorem closedFrom_append (base : Nat) (a b : List Emitted) :
    closedFrom base (a ++ b) = closedFrom base a ++ closedFrom (base + a.length) b := by
  induction a generalizing base with
  | nil => rfl
  | cons e es ih =>
      have shift : base + 1 + es.length = base + (e :: es).length := by simp; omega
      simp [closedFrom, ih, shift]

theorem closedFrom_length (base : Nat) (es : List Emitted) :
    (closedFrom base es).length = es.length := by
  induction es generalizing base with
  | nil => rfl
  | cons e es ih => simp [closedFrom, ih]

namespace BfProgram

variable (p : BfProgram) (a b : List Emitted)

@[simp] theorem append_nil : p.append [] = p := by
  simp [append, fixupsFrom, closedFrom]

@[simp] theorem append_append : (p.append a).append b = p.append (a ++ b) := by
  simp [append, fixupsFrom_append, closedFrom_append]

@[simp] theorem append_img : (p.append a).img = p.img ++ a.map (·.insn) := rfl

@[simp] theorem append_host : (p.append a).host = p.host := rfl

@[simp] theorem append_chain : (p.append a).chain = p.chain := rfl

@[simp] theorem append_maps : (p.append a).maps = p.maps := rfl

@[simp] theorem append_printer : (p.append a).printer = p.printer := rfl

@[simp] theorem append_flavor : (p.append a).flavor = p.flavor := rfl

@[simp] theorem append_elfstubsLocation :
    (p.append a).elfstubsLocation = p.elfstubsLocation := rfl

@[simp] theorem append_stubStart : (p.append a).stubStart = p.stubStart := rfl

theorem Tracked.append {p : BfProgram} (tracked : p.Tracked) (a : List Emitted) :
    (p.append a).Tracked := by
  unfold Tracked at tracked ⊢
  simp [BfProgram.append, closedFrom_length, tracked]

end BfProgram

/-! ## Emission primitives over appended slots -/

theorem gen_bind {α β : Type} (x : Gen α) (f : α → Gen β) (p : BfProgram) :
    (x >>= f) p =
      match x p with
      | .error e => .error e
      | .ok (a, p') => f a p' := by
  show Except.bind (x p) _ = _
  cases x p <;> rfl

theorem gen_bind_ok {α β : Type} {x : Gen α} {f : α → Gen β} {p p' : BfProgram} {a : α}
    (ran : x p = .ok (a, p')) : (x >>= f) p = f a p' := by
  rw [gen_bind, ran]

theorem gen_pure {α : Type} (a : α) (p : BfProgram) : (pure a : Gen α) p = .ok (a, p) := rfl

theorem gen_throw {α : Type} (e : GenErr) (p : BfProgram) :
    (throw e : Gen α) p = .error e := rfl

theorem gen_get (p : BfProgram) : (get : Gen BfProgram) p = .ok (p, p) := rfl

theorem gen_modify (f : BfProgram → BfProgram) (p : BfProgram) :
    (modify f : Gen Unit) p = .ok ((), f p) := rfl

theorem emit_eq (insn : BpfInsn) (p : BfProgram) :
    emit insn p = .ok ((), p.append [{ insn := insn }]) := by
  show Except.ok ((), _) = _
  simp [BfProgram.append, fixupsFrom, closedFrom]

theorem emitFixup_eq (kind : BfFixupKind) (insn : BpfInsn) (p : BfProgram) :
    emitFixup kind insn p = .ok ((), p.append [{ insn := insn, fixup := some kind }]) := by
  show Except.ok ((), _) = _
  simp [BfProgram.append, fixupsFrom, closedFrom]

/-- The two slots of a map reference. -/
def loadFdSlots (kind : BfFixupKind) (reg : Reg) : List Emitted :=
  [{ insn := bpfLdImm64Lo reg pseudoMapFd 0, fixup := some kind }, { insn := bpfLdImm64Hi 0 }]

theorem emitLoadFdFixup_eq (kind : BfFixupKind) (reg : Reg) (p : BfProgram) :
    emitLoadFdFixup kind reg p = .ok ((), p.append (loadFdSlots kind reg)) := by
  simp only [emitLoadFdFixup, gen_bind, emitFixup_eq, emit_eq, BfProgram.append_append]
  rfl

theorem bfJmpctxGet_eq (insn : BpfInsn) (p : BfProgram) :
    bfJmpctxGet insn p = .ok (⟨p.img.length⟩, p.append [{ insn := insn }]) := by
  simp only [bfJmpctxGet, gen_bind, gen_get, emit_eq, gen_pure]

theorem closedFrom_set (base k : Nat) (es : List Emitted) (d : Nat) (g : Emitted → BpfInsn) :
    closedFrom base (es.modify k fun e => { e with insn := g e, span := some d }) =
      (closedFrom base es).set k (some (base + k + 1 + d)) := by
  induction es generalizing base k with
  | nil => simp [closedFrom]
  | cons e es ih =>
      cases k with
      | zero => simp [closedFrom]
      | succ k =>
          simp only [List.modify_succ_cons, closedFrom, List.set_cons_succ, ih]
          congr 3
          omega

theorem fixupsFrom_modify (base k : Nat) (es : List Emitted) (f : Emitted → Emitted)
    (same : ∀ e, (f e).fixup = e.fixup) :
    fixupsFrom base (es.modify k f) = fixupsFrom base es := by
  induction es generalizing base k with
  | nil => simp [fixupsFrom]
  | cons e es ih =>
      cases k with
      | zero => simp [fixupsFrom, same]
      | succ k => simp [fixupsFrom, ih]

/-- Closing a jump context opened inside `es`. -/
theorem bfJmpctxCleanup_eq (p : BfProgram) (tracked : p.Tracked) (es : List Emitted) (k : Nat)
    (inside : k < es.length) :
    bfJmpctxCleanup ⟨p.img.length + k⟩ (p.append es) = .ok ((), p.append (closeSlot k es)) := by
  have distance : (p.img ++ es.map (·.insn)).length - (p.img.length + k) - 1 =
      es.length - k - 1 := by simp; omega
  have image : (p.img ++ es.map (·.insn)).modify (p.img.length + k)
      (setOff · (es.length - k - 1)) = p.img ++ (closeSlot k es).map (·.insn) := by
    apply List.ext_getElem?
    intro n
    rw [List.getElem?_modify]
    by_cases before : n < p.img.length
    · have other : p.img.length + k ≠ n := by omega
      simp [List.getElem?_append_left before, other]
    · obtain ⟨j, rfl⟩ := Nat.exists_eq_add_of_le (Nat.le_of_not_lt before)
      simp only [List.getElem?_append_right (Nat.le_add_right _ _), Nat.add_sub_cancel_left,
        closeSlot, List.getElem?_map, List.getElem?_modify, Nat.add_left_cancel_iff]
      cases es[j]? <;> simp
      split <;> rfl
  have record : (p.closed ++ closedFrom p.img.length es).set (p.img.length + k)
      (some (p.img ++ es.map (·.insn)).length) =
      p.closed ++ closedFrom p.img.length (closeSlot k es) := by
    unfold closeSlot
    rw [List.set_append_right _ _ (by rw [tracked]; omega), tracked, Nat.add_sub_cancel_left,
      closedFrom_set]
    congr 3
    simp; omega
  have fixups : fixupsFrom p.img.length (closeSlot k es) = fixupsFrom p.img.length es :=
    fixupsFrom_modify _ _ _ _ (fun _ => rfl)
  show Except.ok ((), _) = Except.ok ((), _)
  congr 2
  simp only [BfProgram.append, distance, image, record, fixups]

end Bpfilter

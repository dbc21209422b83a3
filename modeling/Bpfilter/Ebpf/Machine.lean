/-
# Ebpf.Machine -- execution of an eBPF image

`Core` is what an instruction reads and writes: the registers, the memory and
the state `W` of the world outside the program (maps, packets, clocks, …).
`BpfInsn.exec` is the effect of one instruction; it reports where control goes
as an offset from the following instruction, so it never mentions the position
of the instruction.

Callees are kept abstract.  A helper, a kernel function or a subprogram is a
`Callee`: it reads the five argument registers, the memory and the world, and
returns `r0` with a new memory and a new world.  The callee-saved registers
`r6` to `r10` are unchanged by construction and `r1` to `r5` are clobbered
(`Core.call`), as the calling convention states.  `Env` collects the callees and the
addresses behind map references.

`Image` is a program text with the entry points of its subprograms.  `step`
executes one instruction of an image, `Reaches` is its reflexive transitive
closure, and `Returns` says that execution gets to an `exit`.  `run` is the
executable form, with fuel; `returns_iff_run` connects the two.
-/
import Bpfilter.Ebpf.Insn
import Bpfilter.Ebpf.Memory
import Mathlib.Logic.Relation

namespace Ebpf

set_option autoImplicit false

/-! ## State -/

/-- Registers, memory and the world outside the program. -/
structure Core (W : Type) where
  regs : Reg → BitVec 64
  mem : Mem
  world : W

/-- The argument registers `r1` to `r5`. -/
structure Args where
  r1 : BitVec 64
  r2 : BitVec 64
  r3 : BitVec 64
  r4 : BitVec 64
  r5 : BitVec 64

/-- What a callee leaves: the return value, the clobbered argument registers, the
memory and the world. -/
structure Reply (W : Type) where
  r0 : BitVec 64
  clobbered : Args
  mem : Mem
  world : W

abbrev Callee (W : Type) := Args → Mem → W → Reply W

/-- The code a program calls and the addresses its map references stand for. -/
structure Env (W S : Type) where
  helper : BitVec 32 → Callee W
  kfunc : BitVec 32 → Callee W
  sub : S → Callee W
  mapAddr : BitVec 32 → BitVec 64
  mapValueAddr : BitVec 32 → BitVec 32 → BitVec 64

namespace Core

variable {W : Type}

def setReg (c : Core W) (r : Reg) (v : BitVec 64) : Core W :=
  { c with regs := fun r' => if r' = r then v else c.regs r' }

def storeMem (c : Core W) (a : Addr) (size : Nat) (v : BitVec 64) : Core W :=
  { c with mem := c.mem.store a size v }

def args (c : Core W) : Args := ⟨c.regs 1, c.regs 2, c.regs 3, c.regs 4, c.regs 5⟩

/-- Registers after a call. -/
def replyRegs (old : Reg → BitVec 64) (r : Reply W) : Reg → BitVec 64 := fun i =>
  if i = 0 then r.r0
  else if i = 1 then r.clobbered.r1
  else if i = 2 then r.clobbered.r2
  else if i = 3 then r.clobbered.r3
  else if i = 4 then r.clobbered.r4
  else if i = 5 then r.clobbered.r5
  else old i

def call (c : Core W) (f : Callee W) : Core W :=
  let r := f c.args c.mem c.world
  { regs := replyRegs c.regs r, mem := r.mem, world := r.world }

@[simp] theorem setReg_regs (c : Core W) (r r' : Reg) (v : BitVec 64) :
    (c.setReg r v).regs r' = if r' = r then v else c.regs r' := rfl

@[simp] theorem setReg_mem (c : Core W) (r : Reg) (v : BitVec 64) :
    (c.setReg r v).mem = c.mem := rfl

@[simp] theorem setReg_world (c : Core W) (r : Reg) (v : BitVec 64) :
    (c.setReg r v).world = c.world := rfl

@[simp] theorem storeMem_regs (c : Core W) (a : Addr) (n : Nat) (v : BitVec 64) :
    (c.storeMem a n v).regs = c.regs := rfl

@[simp] theorem storeMem_mem (c : Core W) (a : Addr) (n : Nat) (v : BitVec 64) :
    (c.storeMem a n v).mem = c.mem.store a n v := rfl

@[simp] theorem storeMem_world (c : Core W) (a : Addr) (n : Nat) (v : BitVec 64) :
    (c.storeMem a n v).world = c.world := rfl

@[simp] theorem setReg_setReg (c : Core W) (r : Reg) (v w : BitVec 64) :
    (c.setReg r v).setReg r w = c.setReg r w := by
  simp only [setReg, Core.mk.injEq, and_true]
  funext r'
  split <;> rfl

/-- Two states that differ in the given registers at most. -/
structure EqOutside (rs : List Reg) (c d : Core W) : Prop where
  regs : ∀ r, r ∉ rs → c.regs r = d.regs r
  mem : c.mem = d.mem
  world : c.world = d.world

theorem EqOutside.refl (rs : List Reg) (c : Core W) : EqOutside rs c c := ⟨fun _ _ => rfl, rfl, rfl⟩

theorem EqOutside.trans {rs : List Reg} {c d e : Core W} (first : EqOutside rs c d)
    (second : EqOutside rs d e) : EqOutside rs c e :=
  ⟨fun r outside => (first.regs r outside).trans (second.regs r outside),
    first.mem.trans second.mem, first.world.trans second.world⟩

theorem EqOutside.setReg {rs : List Reg} {c d : Core W} (same : EqOutside rs c d) {r : Reg}
    (listed : r ∈ rs) (v : BitVec 64) : EqOutside rs (c.setReg r v) d := by
  refine ⟨fun r' outside => ?_, same.mem, same.world⟩
  have other : r' ≠ r := by
    rintro rfl
    exact outside listed
  rw [setReg_regs, if_neg other, same.regs r' outside]

theorem call_regs_zero (c : Core W) (f : Callee W) :
    (c.call f).regs 0 = (f c.args c.mem c.world).r0 := rfl

/-- Calls preserve `r6` to `r10`. -/
theorem call_regs_saved (c : Core W) (f : Callee W) (r : Reg) (saved : 5 < r) :
    (c.call f).regs r = c.regs r := by
  have h0 : r ≠ 0 := by rintro rfl; exact absurd saved (by decide)
  have h1 : r ≠ 1 := by rintro rfl; exact absurd saved (by decide)
  have h2 : r ≠ 2 := by rintro rfl; exact absurd saved (by decide)
  have h3 : r ≠ 3 := by rintro rfl; exact absurd saved (by decide)
  have h4 : r ≠ 4 := by rintro rfl; exact absurd saved (by decide)
  have h5 : r ≠ 5 := by rintro rfl; exact absurd saved (by decide)
  simp [call, replyRegs, h0, h1, h2, h3, h4, h5]

@[simp] theorem call_mem (c : Core W) (f : Callee W) :
    (c.call f).mem = (f c.args c.mem c.world).mem := rfl

@[simp] theorem call_world (c : Core W) (f : Callee W) :
    (c.call f).world = (f c.args c.mem c.world).world := rfl

end Core

/-! ## One instruction -/

/-- Effect of an ALU operation; shift counts are taken modulo the width. -/
def AluOp.eval {w : Nat} (op : AluOp) (a b : BitVec w) : BitVec w :=
  match op with
  | .add => a + b
  | .sub => a - b
  | .or => a ||| b
  | .and => a &&& b
  | .lsh => a <<< (b.toNat % w)
  | .rsh => a >>> (b.toNat % w)
  | .xor => a ^^^ b
  | .mov => b

/-- A 32-bit operation sees a 32-bit immediate as it is. -/
theorem setWidth_signExtend (x : BitVec 32) : (x.signExtend 64).setWidth 32 = x := by
  ext i inside
  simp [BitVec.getLsbD_signExtend, inside]
  omega

/-- Zero extension loses nothing. -/
theorem setWidth64_inj {w : Nat} (fits : w ≤ 64) (a b : BitVec w) :
    a.setWidth 64 = b.setWidth 64 ↔ a = b := by
  constructor
  · intro same
    have low := congrArg (BitVec.setWidth w) same
    rwa [BitVec.setWidth_setWidth_of_le a fits, BitVec.setWidth_setWidth_of_le b fits,
      BitVec.setWidth_eq, BitVec.setWidth_eq] at low
  · rintro rfl
    rfl

theorem toNat_setWidth64 {w : Nat} (fits : w ≤ 64) (a : BitVec w) :
    (a.setWidth 64).toNat = a.toNat := by
  have top := a.isLt
  have room := Nat.pow_le_pow_right (show 0 < 2 by decide) fits
  rw [BitVec.toNat_setWidth, Nat.mod_eq_of_lt (by omega)]

/-- An immediate below 2^31 reads as itself. -/
theorem signExtend_of_small {v : BitVec 32} (small : v.toNat < 2 ^ 31) :
    v.signExtend 64 = v.setWidth 64 := by
  apply BitVec.signExtend_eq_setWidth_of_msb_false
  rw [BitVec.msb_eq_decide]
  exact decide_eq_false (by omega)

theorem signExtend_narrow {w : Nat} (narrow : w < 32) (v : BitVec w) :
    (v.setWidth 32).signExtend 64 = v.setWidth 64 := by
  have top := v.isLt
  have room : 2 ^ w ≤ 2 ^ 31 := Nat.pow_le_pow_right (by decide) (by omega)
  have value : (v.setWidth 32).toNat = v.toNat := by
    rw [BitVec.toNat_setWidth, Nat.mod_eq_of_lt (by omega)]
  rw [signExtend_of_small (by omega), BitVec.setWidth_setWidth (by omega)]

/-- A byte immediate reads as the byte. -/
theorem signExtend_byte (b : BitVec 8) : (b.setWidth 32).signExtend 64 = b.setWidth 64 :=
  signExtend_narrow (by decide) b

theorem signExtend_half (v : BitVec 16) : (v.setWidth 32).signExtend 64 = v.setWidth 64 :=
  signExtend_narrow (by decide) v

/-- Comparisons are unsigned. -/
def JmpOp.eval (op : JmpOp) (a b : BitVec 64) : Bool :=
  match op with
  | .eq => a == b
  | .ne => a != b
  | .gt => b.toNat < a.toNat
  | .ge => b.toNat ≤ a.toNat
  | .lt => a.toNat < b.toNat
  | .le => a.toNat ≤ b.toNat
  | .set => a &&& b != 0

/-- Reverse the low `n` bytes of a value; the higher bytes become zero. -/
def byteSwap (n : Nat) (v : BitVec 64) : BitVec 64 :=
  BitVec.ofNat 64 (Mem.leValue (((List.range n).map (Mem.byteOf v)).reverse))

/-- Where control goes after one instruction: offsets count from the instruction
that follows. -/
inductive Flow (W : Type) where
  | goto (off : Int) (c : Core W)
  | subcall (off : Int) (c : Core W)
  | exit (c : Core W)
  | fault

namespace BpfInsn

variable {W S : Type}

/-- The second operand: the sign-extended immediate or the source register. -/
def operand (i : BpfInsn) (src : Src) (c : Core W) : BitVec 64 :=
  match src with
  | .k => i.imm.signExtend 64
  | .x => c.regs i.src

/-- A jump instruction whose condition holds. -/
def taken (i : BpfInsn) (c : Core W) : Bool :=
  match i.code with
  | .ja => true
  | .jmp op src => op.eval (c.regs i.dst) (i.operand src c)
  | _ => false

/-- Address of a memory operand relative to `base`. -/
def effAddr (i : BpfInsn) (base : Reg) (c : Core W) : Addr :=
  c.regs base + i.off.signExtend 64

/-- The value a 64-bit immediate load produces. -/
def immValue (env : Env W S) (i : BpfInsn) (hi : BitVec 32) : BitVec 64 :=
  if i.src = pseudoMapFd then env.mapAddr i.imm
  else if i.src = pseudoMapValue then env.mapValueAddr i.imm hi
  else hi ++ i.imm

/-- One instruction.  `hi` is the immediate of the following slot, which only a
64-bit immediate load reads. -/
def exec (env : Env W S) (i : BpfInsn) (hi : Option (BitVec 32)) (c : Core W) : Flow W :=
  match i.code with
  | .alu64 op src => .goto 0 (c.setReg i.dst (op.eval (c.regs i.dst) (i.operand src c)))
  | .alu32 op src =>
      .goto 0 (c.setReg i.dst
        ((op.eval ((c.regs i.dst).setWidth 32) ((i.operand src c).setWidth 32)).setWidth 64))
  | .bswap => .goto 0 (c.setReg i.dst (byteSwap (i.imm.toNat / 8) (c.regs i.dst)))
  | .ldx size => .goto 0 (c.setReg i.dst (c.mem.load (i.effAddr i.src c) size.bytes))
  | .stx size => .goto 0 (c.storeMem (i.effAddr i.dst c) size.bytes (c.regs i.src))
  | .st size => .goto 0 (c.storeMem (i.effAddr i.dst c) size.bytes (i.imm.signExtend 64))
  | .ldImm64 =>
      match hi with
      | some hi => .goto 1 (c.setReg i.dst (i.immValue env hi))
      | none => .fault
  | .ja => .goto i.off.toInt c
  | .jmp _ _ => if i.taken c then .goto i.off.toInt c else .goto 0 c
  | .call =>
      if i.src = pseudoCall then .subcall i.imm.toInt c
      else if i.src = pseudoKfuncCall then .goto 0 (c.call (env.kfunc i.imm))
      else .goto 0 (c.call (env.helper i.imm))
  | .exit => .exit c
  | .reserved => .fault

/-- A jump either goes to its offset or falls through, and changes nothing else. -/
theorem exec_of_isJump (env : Env W S) (i : BpfInsn) (hi : Option (BitVec 32)) (c : Core W)
    (jump : i.isJump = true) :
    i.exec env hi c = if i.taken c then .goto i.off.toInt c else .goto 0 c := by
  unfold isJump at jump
  unfold exec
  split at jump
  · rename_i code
    simp [code, taken]
  · rename_i op src code
    simp only [code]
  · cases jump

end BpfInsn

/-! ## Images -/

/-- A program text and the entry points of its subprograms. -/
structure Image (S : Type) where
  insns : List BpfInsn
  entry : Nat → Option S

inductive Outcome (W : Type) where
  | running (pc : Nat) (c : Core W)
  | done (c : Core W)
  | fault

section Execution

variable {W S : Type} (env : Env W S) (img : Image S)

/-- Execute the instruction at `pc`. -/
def step (pc : Nat) (c : Core W) : Outcome W :=
  match img.insns[pc]? with
  | none => .fault
  | some i =>
      match i.exec env (img.insns[pc + 1]?.map (·.imm)) c with
      | .goto off c' =>
          if 0 ≤ (pc : Int) + 1 + off then .running ((pc : Int) + 1 + off).toNat c' else .fault
      | .subcall off c' =>
          if 0 ≤ (pc : Int) + 1 + off then
            match img.entry ((pc : Int) + 1 + off).toNat with
            | some s => .running (pc + 1) (c'.call (env.sub s))
            | none => .fault
          else .fault
      | .exit c' => .done c'
      | .fault => .fault

/-- One step between two configurations. -/
def Steps (x y : Nat × Core W) : Prop := step env img x.1 x.2 = .running y.1 y.2

/-- Any number of steps. -/
abbrev Reaches : Nat × Core W → Nat × Core W → Prop :=
  Relation.ReflTransGen (Steps env img)

/-- Execution from `pc` gets to an `exit`, in state `final`. -/
def Returns (pc : Nat) (c final : Core W) : Prop :=
  ∃ pc' c', Reaches env img (pc, c) (pc', c') ∧ step env img pc' c' = .done final

/-- Execute until an `exit`, with fuel. -/
def run : Nat → Nat → Core W → Option (Core W)
  | 0, _, _ => none
  | fuel + 1, pc, c =>
      match step env img pc c with
      | .running pc' c' => run fuel pc' c'
      | .done final => some final
      | .fault => none

/-- Execute exactly `n` instructions, none of them an `exit`. -/
def stepN : Nat → Nat × Core W → Option (Nat × Core W)
  | 0, x => some x
  | n + 1, x =>
      match step env img x.1 x.2 with
      | .running pc c => stepN n (pc, c)
      | _ => none

variable {env img}

theorem reaches_of_stepN {n : Nat} {x y : Nat × Core W} (ran : stepN env img n x = some y) :
    Reaches env img x y := by
  induction n generalizing x with
  | zero =>
      cases ran
      exact Relation.ReflTransGen.refl
  | succ n ih =>
      unfold stepN at ran
      split at ran
      · rename_i pc c one
        exact Relation.ReflTransGen.head (b := (pc, c)) one (ih ran)
      · cases ran

theorem Returns.of_reaches {pc pc' : Nat} {c c' final : Core W}
    (reach : Reaches env img (pc, c) (pc', c')) (rest : Returns env img pc' c' final) :
    Returns env img pc c final := by
  obtain ⟨last, cl, tail, done⟩ := rest
  exact ⟨last, cl, reach.trans tail, done⟩

theorem returns_of_run {fuel pc : Nat} {c final : Core W}
    (ran : run env img fuel pc c = some final) : Returns env img pc c final := by
  induction fuel generalizing pc c with
  | zero => cases ran
  | succ fuel ih =>
      unfold run at ran
      split at ran
      · rename_i pc' c' one
        exact Returns.of_reaches (Relation.ReflTransGen.single one) (ih ran)
      · rename_i one
        cases ran
        exact ⟨pc, c, Relation.ReflTransGen.refl, one⟩
      · cases ran

theorem run_of_reaches {x y : Nat × Core W} (reach : Reaches env img x y) {final : Core W}
    (done : ∃ fuel, run env img fuel y.1 y.2 = some final) :
    ∃ fuel, run env img fuel x.1 x.2 = some final := by
  induction reach using Relation.ReflTransGen.head_induction_on with
  | refl => exact done
  | head one _ ih =>
      obtain ⟨fuel, ran⟩ := ih
      refine ⟨fuel + 1, ?_⟩
      unfold Steps at one
      simp only [run, one, ran]

/-- Returning is returning within some number of steps. -/
theorem returns_iff_run {pc : Nat} {c final : Core W} :
    Returns env img pc c final ↔ ∃ fuel, run env img fuel pc c = some final := by
  constructor
  · rintro ⟨last, cl, reach, done⟩
    refine run_of_reaches reach ⟨1, ?_⟩
    simp [run, done]
  · rintro ⟨fuel, ran⟩
    exact returns_of_run ran

/-- The machine is deterministic, so the final state is unique. -/
theorem Returns.unique {pc : Nat} {c final final' : Core W}
    (first : Returns env img pc c final) (second : Returns env img pc c final') :
    final = final' := by
  have mono : ∀ fuel extra pc (c : Core W) out,
      run env img fuel pc c = some out → run env img (fuel + extra) pc c = some out := by
    intro fuel extra
    induction fuel with
    | zero => intro pc c out ran; cases ran
    | succ fuel ih =>
        intro pc c out ran
        rw [Nat.succ_add]
        unfold run at ran ⊢
        split at ran
        · exact ih _ _ _ ran
        · exact ran
        · cases ran
  obtain ⟨f₁, ran₁⟩ := returns_iff_run.mp first
  obtain ⟨f₂, ran₂⟩ := returns_iff_run.mp second
  have same := mono f₁ f₂ pc c final ran₁
  rw [Nat.add_comm, mono f₂ f₁ pc c final' ran₂] at same
  exact (Option.some.inj same).symm

end Execution

end Ebpf

/-
# Ebpf.Insn -- the eBPF instruction word and its constructor macros

An instruction keeps the five fields of `struct bpf_insn`: the operation code,
the two register fields, the signed 16-bit offset and the 32-bit immediate.
Code generators build instructions with the `filter.h` constructor macros
(`bpfMov64Imm`, `bpfJmpImm`, …) and patch the offset and immediate fields later,
so both stay plain fields of every instruction, whatever its operation code.

Only the operation classes a filtering program uses are listed: 64- and 32-bit
ALU operations, the byte swap, loads and stores, 64-bit compare-and-jump, calls,
`exit`, and the two-slot 64-bit immediate load.  `BpfInsn.bytes` is the instruction
as it is stored.
-/
import Mathlib.Data.BitVec

namespace Ebpf

set_option autoImplicit false

/-! ## Fields -/

/-- A register number, `r0` to `r10`.  The source field of a call or of a 64-bit
immediate load holds a pseudo value instead, below 11 as well. -/
abbrev Reg := Fin 11

/-- Register literals wrap around 11. -/
instance (priority := high) regNeZero : NeZero 11 := ⟨by decide⟩

/-- Width of a memory access. -/
inductive Size where
  | b | h | w | dw
  deriving DecidableEq, Repr

/-- Number of bytes an access of this width touches. -/
def Size.bytes : Size → Nat
  | .b => 1
  | .h => 2
  | .w => 4
  | .dw => 8

inductive AluOp where
  | add | sub | or | and | lsh | rsh | xor | mov
  deriving DecidableEq, Repr

inductive JmpOp where
  | eq | ne | gt | ge | lt | le | set
  deriving DecidableEq, Repr

/-- Operand selector: the immediate (`BPF_K`) or the source register (`BPF_X`). -/
inductive Src where
  | k | x
  deriving DecidableEq, Repr

/-- Operation codes.  `reserved` is the zero code of the second slot of a 64-bit
immediate load. -/
inductive Code where
  | alu64 (op : AluOp) (src : Src)
  | alu32 (op : AluOp) (src : Src)
  | bswap
  | ldx (size : Size)
  | stx (size : Size)
  | st (size : Size)
  | ldImm64
  | ja
  | jmp (op : JmpOp) (src : Src)
  | call
  | exit
  | reserved
  deriving DecidableEq, Repr

/-- One instruction slot. -/
structure BpfInsn where
  code : Code
  dst : Reg := 0
  src : Reg := 0
  off : BitVec 16 := 0
  imm : BitVec 32 := 0
  deriving DecidableEq, Repr

/-! ## Pseudo source values -/

/-- `BPF_PSEUDO_MAP_FD`: the immediate is a map file descriptor. -/
def pseudoMapFd : Reg := 1

/-- `BPF_PSEUDO_MAP_VALUE`: the immediate is a map file descriptor, the second
slot an offset into the map's value. -/
def pseudoMapValue : Reg := 2

/-- `BPF_PSEUDO_CALL`: the immediate is an instruction offset. -/
def pseudoCall : Reg := 1

/-- `BPF_PSEUDO_KFUNC_CALL`: the immediate is a BTF identifier. -/
def pseudoKfuncCall : Reg := 2

/-! ## Constructor macros -/

def bpfAlu64Reg (op : AluOp) (dst src : Reg) : BpfInsn := { code := .alu64 op .x, dst, src }

def bpfAlu32Reg (op : AluOp) (dst src : Reg) : BpfInsn := { code := .alu32 op .x, dst, src }

def bpfAlu64Imm (op : AluOp) (dst : Reg) (imm : BitVec 32) : BpfInsn :=
  { code := .alu64 op .k, dst, imm }

def bpfAlu32Imm (op : AluOp) (dst : Reg) (imm : BitVec 32) : BpfInsn :=
  { code := .alu32 op .k, dst, imm }

def bpfBswap (dst : Reg) (len : BitVec 32) : BpfInsn := { code := .bswap, dst, imm := len }

def bpfMov64Reg (dst src : Reg) : BpfInsn := { code := .alu64 .mov .x, dst, src }

def bpfMov64Imm (dst : Reg) (imm : BitVec 32) : BpfInsn := { code := .alu64 .mov .k, dst, imm }

def bpfMov32Imm (dst : Reg) (imm : BitVec 32) : BpfInsn := { code := .alu32 .mov .k, dst, imm }

def bpfLdxMem (size : Size) (dst src : Reg) (off : BitVec 16) : BpfInsn :=
  { code := .ldx size, dst, src, off }

def bpfStxMem (size : Size) (dst src : Reg) (off : BitVec 16) : BpfInsn :=
  { code := .stx size, dst, src, off }

def bpfStMem (size : Size) (dst : Reg) (off : BitVec 16) (imm : BitVec 32) : BpfInsn :=
  { code := .st size, dst, off, imm }

def bpfJmpReg (op : JmpOp) (dst src : Reg) (off : BitVec 16) : BpfInsn :=
  { code := .jmp op .x, dst, src, off }

def bpfJmpImm (op : JmpOp) (dst : Reg) (imm : BitVec 32) (off : BitVec 16) : BpfInsn :=
  { code := .jmp op .k, dst, off, imm }

def bpfJmpA (off : BitVec 16) : BpfInsn := { code := .ja, off }

def bpfCallRel (tgt : BitVec 32) : BpfInsn := { code := .call, src := pseudoCall, imm := tgt }

def bpfEmitCall (func : BitVec 32) : BpfInsn := { code := .call, imm := func }

def bpfExitInsn : BpfInsn := { code := .exit }

/-- First slot of `BPF_LD_IMM64_RAW`: the low half of the value. -/
def bpfLdImm64Lo (dst src : Reg) (value : BitVec 64) : BpfInsn :=
  { code := .ldImm64, dst, src, imm := value.setWidth 32 }

/-- Second slot of `BPF_LD_IMM64_RAW`: the high half, under the reserved code. -/
def bpfLdImm64Hi (value : BitVec 64) : BpfInsn :=
  { code := .reserved, imm := (value >>> 32).setWidth 32 }

/-- An instruction that transfers control by its offset field. -/
def BpfInsn.isJump (i : BpfInsn) : Bool :=
  match i.code with
  | .ja => true
  | .jmp _ _ => true
  | _ => false

/-! ## Layout -/

def AluOp.bits : AluOp → BitVec 8
  | .add => 0x00
  | .sub => 0x10
  | .or => 0x40
  | .and => 0x50
  | .lsh => 0x60
  | .rsh => 0x70
  | .xor => 0xa0
  | .mov => 0xb0

def JmpOp.bits : JmpOp → BitVec 8
  | .eq => 0x10
  | .gt => 0x20
  | .ge => 0x30
  | .set => 0x40
  | .ne => 0x50
  | .lt => 0xa0
  | .le => 0xb0

def Src.bits : Src → BitVec 8
  | .k => 0x00
  | .x => 0x08

def Size.bits : Size → BitVec 8
  | .w => 0x00
  | .h => 0x08
  | .b => 0x10
  | .dw => 0x18

/-- The operation code as it stands in memory. -/
def Code.byte : Code → BitVec 8
  | .alu64 op src => 0x07 ||| op.bits ||| src.bits
  | .alu32 op src => 0x04 ||| op.bits ||| src.bits
  | .bswap => 0xd7
  | .ldx size => 0x61 ||| size.bits
  | .stx size => 0x63 ||| size.bits
  | .st size => 0x62 ||| size.bits
  | .ldImm64 => 0x18
  | .ja => 0x05
  | .jmp op src => 0x05 ||| op.bits ||| src.bits
  | .call => 0x85
  | .exit => 0x95
  | .reserved => 0x00

/-- The eight bytes of an instruction, on a little-endian machine. -/
def BpfInsn.bytes (i : BpfInsn) : List (BitVec 8) :=
  [i.code.byte, BitVec.ofNat 8 (16 * i.src.val + i.dst.val),
    i.off.setWidth 8, (i.off >>> 8).setWidth 8,
    i.imm.setWidth 8, (i.imm >>> 8).setWidth 8, (i.imm >>> 16).setWidth 8,
    (i.imm >>> 24).setWidth 8]

end Ebpf

/-
# Cgen.Runtime -- layout of the runtime context on the stack

Every generated program keeps a `struct bf_runtime` in the topmost bytes of its
stack frame; the generator addresses a field by its offset from the frame
pointer `r10` (`BF_PROG_CTX_OFF`).  `RuntimeField.offset` and `RuntimeField.size`
are the layout a C compiler gives the structure, 240 bytes in all.
-/
import Bpfilter.Ebpf.Machine
import Mathlib.Tactic.Ring

namespace Bpfilter

set_option autoImplicit false

open Ebpf

inductive RuntimeField where
  | arg
  | dynptr
  | logMap
  | pktSize
  | ipv6Eh
  | l2Size
  | l3Size
  | l4Size
  | l3Offset
  | l4Offset
  | ifindex
  | l2Hdr
  | l3Hdr
  | l4Hdr
  | l2
  | l3
  | l4
  | scratch
  deriving DecidableEq, Repr

namespace RuntimeField

/-- `offsetof(struct bf_runtime, field)` -/
def offset : RuntimeField → Nat
  | .arg => 0
  | .dynptr => 8
  | .logMap => 24
  | .pktSize => 32
  | .ipv6Eh => 40
  | .l2Size => 41
  | .l3Size => 42
  | .l4Size => 43
  | .l3Offset => 48
  | .l4Offset => 56
  | .ifindex => 64
  | .l2Hdr => 72
  | .l3Hdr => 80
  | .l4Hdr => 88
  | .l2 => 96
  | .l3 => 112
  | .l4 => 152
  | .scratch => 176

/-- Size of the field in bytes. -/
def size : RuntimeField → Nat
  | .arg => 8
  | .dynptr => 16
  | .logMap => 8
  | .pktSize => 8
  | .ipv6Eh => 1
  | .l2Size => 1
  | .l3Size => 1
  | .l4Size => 1
  | .l3Offset => 4
  | .l4Offset => 4
  | .ifindex => 4
  | .l2Hdr => 8
  | .l3Hdr => 8
  | .l4Hdr => 8
  | .l2 => 16
  | .l3 => 40
  | .l4 => 24
  | .scratch => 64

end RuntimeField

/-- `sizeof(struct bf_runtime)` -/
def sizeofRuntime : Nat := 240

/-- `BF_PROG_CTX_OFF(field)` -/
def bfProgCtxOff (field : RuntimeField) : Int := -(sizeofRuntime : Int) + field.offset

/-- `BF_PROG_SCR_OFF(index)` -/
def bfProgScrOff (index : Nat) : Int :=
  -(sizeofRuntime : Int) + RuntimeField.scratch.offset + index

/-- A context offset in the offset field of an instruction. -/
def ctxOff (field : RuntimeField) : BitVec 16 := BitVec.ofInt 16 (bfProgCtxOff field)

/-- A context offset in the immediate of an instruction. -/
def ctxImm (field : RuntimeField) : BitVec 32 := BitVec.ofInt 32 (bfProgCtxOff field)

/-- A scratch offset in the offset field of an instruction. -/
def scrOff (index : Nat) : BitVec 16 := BitVec.ofInt 16 (bfProgScrOff index)

/-- A scratch offset in the immediate of an instruction. -/
def scrImm (index : Nat) : BitVec 32 := BitVec.ofInt 32 (bfProgScrOff index)

/-- Address of a field, given the frame pointer. -/
def ctxAddr (r10 : BitVec 64) (field : RuntimeField) : Addr :=
  r10 + BitVec.ofInt 64 (bfProgCtxOff field)

theorem ctxOff_signExtend (field : RuntimeField) :
    (ctxOff field).signExtend 64 = BitVec.ofInt 64 (bfProgCtxOff field) := by
  cases field <;> decide

theorem ctxImm_signExtend (field : RuntimeField) :
    (ctxImm field).signExtend 64 = BitVec.ofInt 64 (bfProgCtxOff field) := by
  cases field <;> decide

theorem add_ctxOff (r10 : BitVec 64) (field : RuntimeField) :
    r10 + (ctxOff field).signExtend 64 = ctxAddr r10 field := by
  rw [ctxOff_signExtend, ctxAddr]

theorem add_ctxImm (r10 : BitVec 64) (field : RuntimeField) :
    r10 + (ctxImm field).signExtend 64 = ctxAddr r10 field := by
  rw [ctxImm_signExtend, ctxAddr]

/-- Scratch offsets are offsets from the scratch area. -/
theorem ofInt_scrOff (index : Nat) :
    BitVec.ofInt 64 (bfProgScrOff index) =
      BitVec.ofInt 64 (bfProgCtxOff .scratch) + BitVec.ofNat 64 index := by
  rw [show bfProgScrOff index = bfProgCtxOff .scratch + (index : Int) from rfl, BitVec.ofInt_add,
    BitVec.ofInt_natCast]

theorem add_scrOff (r10 : BitVec 64) {index : Nat} (small : index ≤ 64) :
    r10 + (scrOff index).signExtend 64 = ctxAddr r10 .scratch + BitVec.ofNat 64 index := by
  have wide : (scrOff index).signExtend 64 = BitVec.ofInt 64 (bfProgScrOff index) := by
    have all : ∀ i : Fin 65,
        (scrOff i).signExtend 64 = BitVec.ofInt 64 (bfProgScrOff i) := by decide +kernel
    exact all ⟨index, by omega⟩
  rw [wide, ofInt_scrOff, ctxAddr, add_assoc]

theorem add_scrImm (r10 : BitVec 64) {index : Nat} (small : index ≤ 64) :
    r10 + (scrImm index).signExtend 64 = ctxAddr r10 .scratch + BitVec.ofNat 64 index := by
  have wide : (scrImm index).signExtend 64 = BitVec.ofInt 64 (bfProgScrOff index) := by
    have all : ∀ i : Fin 65,
        (scrImm i).signExtend 64 = BitVec.ofInt 64 (bfProgScrOff i) := by decide +kernel
    exact all ⟨index, by omega⟩
  rw [wide, ofInt_scrOff, ctxAddr, add_assoc]

/-- Fields are at their offsets from the context, which `arg` starts. -/
theorem ctxAddr_eq (r10 : BitVec 64) (field : RuntimeField) :
    ctxAddr r10 field = ctxAddr r10 .arg + BitVec.ofNat 64 field.offset := by
  rw [ctxAddr, ctxAddr, add_assoc]
  congr 1
  cases field <;> decide

/-- The context is inside the stack frame. -/
theorem ctxAddr_arg (r10 : BitVec 64) :
    ctxAddr r10 .arg = r10 - 512 + BitVec.ofNat 64 272 := by
  have shift : BitVec.ofInt 64 (bfProgCtxOff .arg) = BitVec.ofNat 64 272 - 512 := by decide
  rw [ctxAddr, shift]
  ring

/-- Fields that do not overlap are disjoint ranges. -/
theorem disjoint_ctx (r10 : BitVec 64) (f g : RuntimeField) {n k : Nat}
    (apart : f.offset + n ≤ g.offset ∨ g.offset + k ≤ f.offset)
    (small : f.offset + n ≤ sizeofRuntime ∧ g.offset + k ≤ sizeofRuntime) :
    Mem.Disjoint (ctxAddr r10 f) n (ctxAddr r10 g) k := by
  unfold sizeofRuntime at small
  rw [ctxAddr_eq r10 f, ctxAddr_eq r10 g]
  exact Mem.disjoint_offset _ _ _ _ _ apart (by omega) (by omega)

/-- What is outside the stack frame is outside every field. -/
theorem disjoint_ctx_of_stack {r10 : BitVec 64} {a : Addr} {n k : Nat}
    (apart : Mem.Disjoint a n (r10 - 512) 512) (f : RuntimeField)
    (inside : f.offset + k ≤ sizeofRuntime) : Mem.Disjoint a n (ctxAddr r10 f) k := by
  unfold sizeofRuntime at inside
  have sub := apart.sub (272 + f.offset) k (by omega) (by omega)
  rwa [BitVec.ofNat_add, ← add_assoc, ← ctxAddr_arg, ← ctxAddr_eq] at sub

end Bpfilter

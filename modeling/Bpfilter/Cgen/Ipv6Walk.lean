/-
# Cgen.Ipv6Walk -- what the layer 3 code does with an IPv6 packet

The code of `bf_stub_parse_l3_hdr` is executed symbolically on an IPv6 packet:
slice the fixed header, read its next-header value, decide with a bit mask and a
few comparisons whether the extension headers have to be walked, and call a stub
for it (`callsEhStub`).  What is called is described by two structures:
`DynptrSlice` for the kernel's slice function and `Ipv6Stubs` for the compiled
stubs of `Bpf.ParseIpv6`.

`parseL3_runs` gives the protocol register and the layer 4 offset that are left.
They are those of the reference walk when the mask covers the first value and no
fragment header carries a non-zero reserved byte; the mask does not cover routing,
fragment and authentication headers (`maskMisses`).
-/
import Bpfilter.Bpf.ParseIpv6
import Bpfilter.Cgen.Sequencing

namespace Bpfilter

set_option autoImplicit false

open Ebpf

/-! ## Packets and callees -/

/-- The bytes of a packet, by offset. -/
abbrev Packet := BitVec 32 → Byte

/-- The extension header at an offset. -/
def Packet.ext (packet : Packet) (offset : BitVec 32) : Ipv6OptHdr :=
  ⟨packet offset, packet (offset + 1)⟩

section Callees

variable {W : Type}

/-- `bpf_dynptr_slice` on a packet that can be read anywhere: it returns the address of
the requested bytes, which are in the packet or have been copied to the buffer. -/
structure DynptrSlice (env : Env W BfElfstubId) (id : BitVec 32) (packet : W → Packet)
    (r10 : BitVec 64) : Prop where
  found : ∀ args mem world, args.r3 ≠ 0 → (env.kfunc id args mem world).r0 ≠ 0
  bytes : ∀ args mem world (i : Nat), args.r3 ≠ 0 → i < args.r4.toNat →
    (env.kfunc id args mem world).mem ((env.kfunc id args mem world).r0 + BitVec.ofNat 64 i) =
      packet world (args.r2.setWidth 32 + BitVec.ofNat 32 i)
  place : ∀ args mem world, args.r3 ≠ 0 →
    (env.kfunc id args mem world).r0 = args.r3 ∨
      Mem.Disjoint (env.kfunc id args mem world).r0 args.r4.toNat (r10 - 512) 512
  others : ∀ args mem world x, ¬ Mem.InRange args.r3 args.r4.toNat x →
    (env.kfunc id args mem world).mem x = mem x
  world : ∀ args mem world, (env.kfunc id args mem world).world = world

/-- `ctx->l3_offset`, read by a stub. -/
def stubL3Offset (ctx : Addr) (mem : Mem) : BitVec 32 :=
  (mem.load (ctx + BitVec.ofNat 64 RuntimeField.l3Offset.offset) 4).setWidth 32

/-- `((struct ipv6hdr *)ctx->l3_hdr)->nexthdr`, read by a stub. -/
def stubNexthdr (ctx : Addr) (mem : Mem) : BitVec 8 :=
  mem (mem.load (ctx + BitVec.ofNat 64 RuntimeField.l3Hdr.offset) 8 + 6)

/-- The compiled stubs compute what their source does. -/
structure Ipv6Stubs (env : Env W BfElfstubId) (slice : W → Slice) : Prop where
  eh : ∀ args mem world,
    ((env.sub .parseIpv6Eh args mem world).r0,
        (env.sub .parseIpv6Eh args mem world).mem.load
          (args.r1 + BitVec.ofNat 64 RuntimeField.l4Offset.offset) 4) =
      let walked := bfParseIpv6Eh (slice world) (stubL3Offset args.r1 mem)
        (stubNexthdr args.r1 mem)
      (walked.1.setWidth 64, walked.2.setWidth 64)
  nh : ∀ args mem world,
    ((env.sub .parseIpv6Nh args mem world).r0,
        (env.sub .parseIpv6Nh args mem world).mem.load
          (args.r1 + BitVec.ofNat 64 RuntimeField.l4Offset.offset) 4) =
      let walked := bfParseIpv6Nh (slice world) (stubL3Offset args.r1 mem)
        (stubNexthdr args.r1 mem)
      (walked.proto.setWidth 64, walked.l4Offset.setWidth 64)

end Callees

/-! ## The next-header test -/

/-- The emitted test: does the code call a stub for this value? -/
def callsEhStub (nexthdr : BitVec 8) : Bool :=
  if nexthdr = ipprotoTcp ∨ nexthdr = ipprotoUdp then false
  else if 64 ≤ nexthdr.toNat then nexthdr = 135 ∨ nexthdr = 139 ∨ nexthdr = 140
  else ((1 : BitVec 64) <<< nexthdr.toNat) &&& bfLowEhBitmask ≠ 0

/-- The extension headers `_BF_LOW_EH_BITMASK` has no bit for. -/
def maskMisses (nexthdr : BitVec 8) : Bool :=
  nexthdr = ipprotoRouting ∨ nexthdr = ipprotoFragment ∨ nexthdr = ipprotoAh

/-- **The mask.**  The stub is called for every value it walks over, the missing ones apart. -/
theorem callsEhStub_of_walked (nexthdr : BitVec 8) :
    (refAdvance nexthdr 0).isNone = false →
      (callsEhStub nexthdr = true ↔ maskMisses nexthdr = false) := by
  revert nexthdr
  decide +kernel

section Test

variable {W : Type} {env : Env W BfElfstubId} {maps : BfMaps}

/-- The test, from the comparison with TCP to the jump past the stub call. -/
def ehTestSlots : List Emitted :=
  [jumpSlot (bpfJmpImm .eq 8 (ipprotoTcp.setWidth 32) 0) 17,
    jumpSlot (bpfJmpImm .eq 8 (ipprotoUdp.setWidth 32) 0) 16,
    bpfLdImm64Lo 2 0 bfLowEhBitmask, bpfLdImm64Hi bfLowEhBitmask,
    bpfJmpImm .ge 8 64 4, bpfMov64Imm 3 1, bpfAlu64Reg .lsh 3 8, bpfAlu64Reg .and 3 2,
    bpfJmpImm .ne 3 0 4, bpfJmpImm .eq 8 135 3, bpfJmpImm .eq 8 139 2, bpfJmpImm .eq 8 140 1,
    jumpSlot (bpfJmpA 0) 5]

/-- The stub call and the jump over what follows. -/
def ehCallSlots (flags : BfChainFlags) : List Emitted :=
  [bpfMov64Reg 1 10, bpfAlu64Imm .add 1 (ctxImm .arg), callSlot (ipv6Stub flags),
    bpfMov64Reg 8 0, jumpSlot (bpfJmpA 0) 3]

/-- The offset of the layer 4 header when there is no extension header. -/
def noEhSlots : List Emitted :=
  [bpfLdxMem .w 2 10 (ctxOff .l3Offset), bpfAlu64Imm .add 2 40,
    bpfStxMem .w 10 2 (ctxOff .l4Offset)]

theorem parseIpv6Slots_eq (flags : BfChainFlags) :
    parseIpv6Slots flags = skipOver (bpfJmpImm .ne 7 ((htobe16 ethPIpv6).setWidth 32) 0)
      (bpfLdxMem .b 8 0 6 :: (ehTestSlots ++ (ehCallSlots flags ++ noEhSlots))) := rfl

/-- Comparing a zero-extended byte with a constant. -/
theorem taken_byte {c : Core W} {r : Reg} {x : BitVec 8} (holds : c.regs r = x.setWidth 64)
    (k : BitVec 8) (off : BitVec 16) :
    (bpfJmpImm .eq r (k.setWidth 32) off).taken c = decide (x = k) := by
  rw [taken_imm, holds, signExtend_byte, JmpOp.eval, Bool.beq_eq_decide_eq]
  exact decide_eq_decide.mpr (setWidth64_inj (by decide) x k)

/-- The comparison with 64. -/
theorem taken_big {c : Core W} {nexthdr : BitVec 8} (holds : c.regs 8 = nexthdr.setWidth 64)
    (off : BitVec 16) : (bpfJmpImm .ge 8 64 off).taken c = decide (64 ≤ nexthdr.toNat) := by
  have small : nexthdr.toNat % 2 ^ 64 = nexthdr.toNat := Nat.mod_eq_of_lt (by omega)
  simp only [BpfInsn.taken, bpfJmpImm, JmpOp.eval, BpfInsn.operand, holds, BitVec.toNat_setWidth,
    small]
  rfl

/-- The comparisons above 64. -/
def highTestSlots : List Emitted :=
  [bpfJmpImm .eq 8 135 3, bpfJmpImm .eq 8 139 2, bpfJmpImm .eq 8 140 1, jumpSlot (bpfJmpA 0) 5]

theorem eval_highTest {c : Core W} {nexthdr : BitVec 8} (holds : c.regs 8 = nexthdr.setWidth 64) :
    eval env 0 (highTestSlots.map (Emitted.link maps)) c =
      .fall (if nexthdr = 135 ∨ nexthdr = 139 ∨ nexthdr = 140 then 0 else 5) c := by
  have first : (bpfJmpImm .eq 8 135 3).taken c = decide (nexthdr = 135) := taken_byte holds 135 3
  have second : (bpfJmpImm .eq 8 139 2).taken c = decide (nexthdr = 139) := taken_byte holds 139 2
  have third : (bpfJmpImm .eq 8 140 1).taken c = decide (nexthdr = 140) := taken_byte holds 140 1
  simp only [highTestSlots, List.map_cons, List.map_nil, link_insn]
  rw [eval_jump (d := 3) env _ c rfl (by decide) rfl, first]
  by_cases is135 : nexthdr = 135
  · simp [is135]
  rw [decide_eq_false is135, if_neg Bool.false_ne_true,
    eval_jump (d := 2) env _ c rfl (by decide) rfl, second]
  by_cases is139 : nexthdr = 139
  · simp [is139]
  rw [decide_eq_false is139, if_neg Bool.false_ne_true,
    eval_jump (d := 1) env _ c rfl (by decide) rfl, third]
  by_cases is140 : nexthdr = 140
  · simp [is140]
  rw [decide_eq_false is140, if_neg Bool.false_ne_true, eval_jumpSlot rfl (by decide)]
  rw [eval_nil, if_pos (show (bpfJmpA 0).taken c = true from rfl),
    if_neg (not_or.mpr ⟨is135, not_or.mpr ⟨is139, is140⟩⟩)]

/-- The bit test below 64. -/
theorem lowTest_bit (nexthdr : BitVec 8) (small : nexthdr.toNat < 64) :
    (AluOp.and.eval (AluOp.lsh.eval ((1 : BitVec 32).signExtend 64) (nexthdr.setWidth 64))
        bfLowEhBitmask != 0) =
      decide (((1 : BitVec 64) <<< nexthdr.toNat) &&& bfLowEhBitmask ≠ 0) := by
  revert nexthdr
  decide +kernel

/-- `r3 = (1 << r8) & r2`, compared with zero. -/
def lowTestSlots : List Emitted :=
  [bpfMov64Imm 3 1, bpfAlu64Reg .lsh 3 8, bpfAlu64Reg .and 3 2, bpfJmpImm .ne 3 0 4]

theorem eval_lowTest {c : Core W} {nexthdr : BitVec 8} (holds : c.regs 8 = nexthdr.setWidth 64)
    (mask : c.regs 2 = bfLowEhBitmask) (small : nexthdr.toNat < 64) :
    ∃ d, eval env 0 (lowTestSlots.map (Emitted.link maps)) c =
        .fall (if ((1 : BitVec 64) <<< nexthdr.toNat) &&& bfLowEhBitmask ≠ 0 then 4 else 0) d ∧
      d.EqOutside [2, 3] c := by
  have bit := lowTest_bit nexthdr small
  refine ⟨c.setReg 3 (AluOp.and.eval (AluOp.lsh.eval ((1 : BitVec 32).signExtend 64)
    (nexthdr.setWidth 64)) bfLowEhBitmask), ?_, (Core.EqOutside.refl _ c).setReg (by simp) _⟩
  simp only [lowTestSlots, List.map_cons, List.map_nil, link_insn]
  rw [eval_mov64Imm, eval_alu64Reg, eval_alu64Reg, eval_jump (d := 4) env _ _ rfl (by decide) rfl,
    eval_nil]
  simp only [Core.setReg_setReg, Core.setReg_regs, if_true, Fin.reduceEq, if_false, holds, mask]
  congr 1
  simp only [BpfInsn.taken, bpfJmpImm, BpfInsn.operand, Core.setReg_regs, if_true, JmpOp.eval]
  rw [show (0 : BitVec 32).signExtend 64 = 0 from rfl, bit]
  simp only [decide_eq_true_eq]

/-- The test falls through to the stub call, or skips it. -/
theorem eval_ehTest {c : Core W} {nexthdr : BitVec 8} (holds : c.regs 8 = nexthdr.setWidth 64) :
    ∃ d, eval env 0 (ehTestSlots.map (Emitted.link maps)) c =
        .fall (if callsEhStub nexthdr then 0 else 5) d ∧ d.EqOutside [2, 3] c := by
  have tcp : (bpfJmpImm .eq 8 (ipprotoTcp.setWidth 32) 0).taken c = decide (nexthdr = ipprotoTcp) :=
    taken_byte holds ipprotoTcp 0
  have udp : (bpfJmpImm .eq 8 (ipprotoUdp.setWidth 32) 0).taken c = decide (nexthdr = ipprotoUdp) :=
    taken_byte holds ipprotoUdp 0
  simp only [ehTestSlots, List.map_cons, List.map_nil, link_insn]
  rw [eval_jumpSlot rfl (by decide), tcp]
  by_cases isTcp : nexthdr = ipprotoTcp
  · exact ⟨c, by simp [isTcp, callsEhStub], .refl _ c⟩
  rw [decide_eq_false isTcp, if_neg Bool.false_ne_true, eval_jumpSlot rfl (by decide), udp]
  by_cases isUdp : nexthdr = ipprotoUdp
  · exact ⟨c, by simp [isUdp, callsEhStub], .refl _ c⟩
  rw [decide_eq_false isUdp, if_neg Bool.false_ne_true, eval_ldImm64]
  have loaded : (c.setReg 2 bfLowEhBitmask).regs 8 = nexthdr.setWidth 64 := holds
  rw [eval_jump (d := 4) env _ _ rfl (by decide) rfl, taken_big loaded]
  by_cases big : 64 ≤ nexthdr.toNat
  · refine ⟨c.setReg 2 bfLowEhBitmask, ?_, (Core.EqOutside.refl _ c).setReg (by simp) _⟩
    rw [decide_eq_true big, if_pos rfl]
    refine (eval_highTest loaded).trans ?_
    simp [callsEhStub, isTcp, isUdp, big]
  · rw [decide_eq_false big, if_neg Bool.false_ne_true]
    obtain ⟨d, falls, same⟩ := @eval_lowTest W env maps _ _ loaded rfl (by omega)
    have same' : d.EqOutside [2, 3] c :=
      same.trans ((Core.EqOutside.refl _ c).setReg (by simp) _)
    have held : d.regs 8 = nexthdr.setWidth 64 := (same.regs 8 (by simp)).trans loaded
    refine ⟨d, (eval_append_fall (highTestSlots.map (Emitted.link maps)) falls).trans ?_, same'⟩
    have low : ¬ (nexthdr = 135 ∨ nexthdr = 139 ∨ nexthdr = 140) := by
      rintro (rfl | rfl | rfl) <;> exact big (by decide)
    have calls : callsEhStub nexthdr = decide (((1 : BitVec 64) <<< nexthdr.toNat) &&&
        bfLowEhBitmask ≠ 0) := by
      rw [callsEhStub, if_neg (not_or.mpr ⟨isTcp, isUdp⟩), if_neg big]
    by_cases bit : ((1 : BitVec 64) <<< nexthdr.toNat) &&& bfLowEhBitmask ≠ 0
    · rw [calls, decide_eq_true bit, if_pos bit]
      rfl
    · rw [calls, decide_eq_false bit, if_neg bit, eval_highTest held, if_neg low]
      rfl

end Test

/-! ## From the switch to the fixed header -/

section Header

variable {W : Type} {env : Env W BfElfstubId} {maps : BfMaps}

/-- The protocol register of an IPv6 packet. -/
def ipv6Reg : BitVec 64 := (htobe16 ethPIpv6).setWidth 64

/-- The switch loads the size of the fixed header. -/
theorem eval_l3Swich {c : Core W} (ipv6 : c.regs 7 = ipv6Reg) :
    eval env 0 (parseL3Swich.map (Emitted.link maps)) c = .fall 0 (c.setReg 4 40) := by
  have notIp : (bpfJmpImm .eq 7 ((htobe16 ethPIp).setWidth 32) 0).taken c = false := by
    simp only [BpfInsn.taken, bpfJmpImm, BpfInsn.operand, ipv6]
    decide
  have isIpv6 : (bpfJmpImm .eq 7 ((htobe16 ethPIpv6).setWidth 32) 0).taken c = true := by
    simp only [BpfInsn.taken, bpfJmpImm, BpfInsn.operand, ipv6]
    decide
  simp only [parseL3Swich, swich2Slots, List.map_cons, List.map_nil, link_insn]
  rw [eval_jumpSlot rfl (by decide), notIp, if_neg Bool.false_ne_true,
    eval_jumpSlot rfl (by decide), isIpv6, if_pos rfl]
  simp only [eval_skip]
  rw [eval_mov64Imm, eval_jumpSlot rfl (by decide)]
  rfl

/-- The state in which the slice function is called. -/
def sliceCall (c : Core W) (size offset buffer : RuntimeField) : Core W :=
  let stored := c.storeMem (ctxAddr (c.regs 10) size) 1 (c.regs 4)
  ((stored.setReg 1 (ctxAddr (c.regs 10) .dynptr)).setReg 2
    (stored.mem.load (ctxAddr (c.regs 10) offset) 4)).setReg 3 (ctxAddr (c.regs 10) buffer)

theorem sliceCall_world (c : Core W) (size offset buffer : RuntimeField) :
    (sliceCall c size offset buffer).world = c.world := by
  simp only [sliceCall, Core.setReg_world, Core.storeMem_world]

theorem sliceCall_saved (c : Core W) (size offset buffer : RuntimeField) (r : Reg) (saved : 5 < r) :
    (sliceCall c size offset buffer).regs r = c.regs r := by
  have h1 : r ≠ 1 := by rintro rfl; exact absurd saved (by decide)
  have h2 : r ≠ 2 := by rintro rfl; exact absurd saved (by decide)
  have h3 : r ≠ 3 := by rintro rfl; exact absurd saved (by decide)
  simp only [sliceCall, Core.setReg_regs, Core.storeMem_regs, if_neg h1, if_neg h2, if_neg h3]

theorem eval_slice (size offset buffer : RuntimeField) (id : BitVec 32) (c : Core W) :
    eval env 0 ((sliceSlots size offset buffer id).map (Emitted.link maps)) c =
      .fall 0 ((sliceCall c size offset buffer).call (env.kfunc id)) := by
  simp only [sliceSlots, List.map_cons, List.map_nil, link_insn]
  rw [eval_stx, eval_mov64Reg, eval_alu64Imm, eval_ldx, eval_mov64Reg, eval_alu64Imm]
  simp only [Core.setReg_setReg, Core.setReg_regs, Core.setReg_mem, Core.storeMem_regs,
    Core.storeMem_mem, Fin.reduceEq, if_true, if_false, AluOp.eval, add_ctxOff, add_ctxImm]
  rfl

/-- The header has been sliced: its address is in `r0` and in the context. -/
structure HeaderAt (nexthdr : BitVec 8) (l3Offset : BitVec 32) (r10 : BitVec 64) (world : W)
    (c : Core W) : Prop where
  frame : c.regs 10 = r10
  world : c.world = world
  first : c.mem (c.regs 0 + 6) = nexthdr
  stored : c.mem.load (ctxAddr r10 .l3Hdr) 8 = c.regs 0
  offset : (c.mem.load (ctxAddr r10 .l3Offset) 4).setWidth 32 = l3Offset

/-- `ctx->l3_offset` in a state. -/
def l3OffsetOf (c : Core W) : BitVec 32 :=
  (c.mem.load (ctxAddr (c.regs 10) .l3Offset) 4).setWidth 32

variable {id : BitVec 32} {packet : W → Packet} {c : Core W}

/-- The sliced header is outside the field its address is stored in. -/
theorem slice_apart {a : Addr} {r10 : BitVec 64}
    (place : a = ctxAddr r10 .l2 ∨ Mem.Disjoint a 40 (r10 - 512) 512) :
    Mem.Disjoint a 40 (ctxAddr r10 .l3Hdr) 8 := by
  rcases place with rfl | apart
  · exact disjoint_ctx r10 .l2 .l3Hdr (by decide) (by decide)
  · exact disjoint_ctx_of_stack apart .l3Hdr (by decide)

/-- The buffer is not the null pointer. -/
theorem ctxAddr_l2_ne_zero {r10 : BitVec 64} (framed : 512 ≤ r10.toNat) :
    ctxAddr r10 .l2 ≠ 0 := by
  intro zero
  have back : r10 = 144 := by
    have shift : BitVec.ofInt 64 (bfProgCtxOff .l2) = -144 := by decide
    rw [ctxAddr, shift] at zero
    exact add_neg_eq_zero.mp zero
  rw [back] at framed
  exact absurd framed (by decide)

theorem DynptrSlice.nexthdr {r10 : BitVec 64} (slice : DynptrSlice env id packet r10) (args : Args)
    (mem : Mem) (world : W) (buffer : args.r3 ≠ 0) (length : args.r4.toNat = 40) :
    (env.kfunc id args mem world).mem ((env.kfunc id args mem world).r0 + 6) =
      packet world (args.r2.setWidth 32 + 6) :=
  slice.bytes args mem world 6 buffer (by omega)

theorem headerAt_of_slice (slice : DynptrSlice env id packet (c.regs 10))
    (framed : 512 ≤ (c.regs 10).toNat) (size : c.regs 4 = 40) :
    let r := (sliceCall c .l3Size .l3Offset .l2).call (env.kfunc id)
    r.regs 0 ≠ 0 ∧
      HeaderAt (packet c.world (l3OffsetOf c + 6)) (l3OffsetOf c) (c.regs 10) c.world
        (r.storeMem (ctxAddr (c.regs 10) .l3Hdr) 8 (r.regs 0)) := by
  intro r
  let s := sliceCall c .l3Size .l3Offset .l2
  have buffer : s.args.r3 ≠ 0 := ctxAddr_l2_ne_zero framed
  have length : s.args.r4.toNat = 40 := by
    rw [show s.args.r4 = 40 from size]
    rfl
  have kept : (s.mem.load (ctxAddr (c.regs 10) .l3Offset) 4) =
      c.mem.load (ctxAddr (c.regs 10) .l3Offset) 4 :=
    Mem.load_store_disjoint c.mem _
      (disjoint_ctx (c.regs 10) .l3Offset .l3Size (by decide) (by decide)) (by omega)
  have sliced : (r.mem.load (ctxAddr (c.regs 10) .l3Offset) 4) =
      s.mem.load (ctxAddr (c.regs 10) .l3Offset) 4 := by
    refine Mem.load_congr (by omega) fun x inside => slice.others s.args s.mem s.world x ?_
    have apart := disjoint_ctx (c.regs 10) .l3Offset .l2 (n := 4) (k := 40) (by decide) (by decide)
    rw [length]
    exact apart x inside
  have place := slice.place s.args s.mem s.world buffer
  rw [length] at place
  have apart : Mem.Disjoint (r.regs 0) 40 (ctxAddr (c.regs 10) .l3Hdr) 8 := slice_apart place
  have read := slice.nexthdr s.args s.mem s.world buffer length
  have offset : s.args.r2.setWidth 32 = l3OffsetOf c := congrArg (BitVec.setWidth 32) kept
  have here : packet s.world = packet c.world := congrArg packet (sliceCall_world c _ _ _)
  rw [offset, here] at read
  refine ⟨slice.found s.args s.mem s.world buffer, ?_, ?_, ?_, ?_, ?_⟩
  · exact (Core.call_regs_saved s (env.kfunc id) 10 (by decide)).trans
      (sliceCall_saved c _ _ _ 10 (by decide))
  · exact (slice.world s.args s.mem s.world).trans (sliceCall_world c _ _ _)
  · have outside := apart _ (Mem.inRange_add (r.regs 0) 40 6 (by omega) (by omega))
    exact (Mem.store_apply_of_not_inRange r.mem _ _ 8 _ outside).trans read
  · exact Mem.load_store_reg r.mem _ (r.regs 0)
  · refine congrArg (BitVec.setWidth 32) ?_
    refine (Mem.load_store_disjoint r.mem _
      (disjoint_ctx (c.regs 10) .l3Offset .l3Hdr (by decide) (by decide)) (by omega)).trans ?_
    rw [sliced, kept]

end Header

/-! ## The walk -/

/-- What the layer 3 code finds out about an IPv6 packet: protocol, layer 4 offset and, when
rules need them, the extension headers. -/
def ipv6View (flags : BfChainFlags) (slice : Slice) (l3Offset : BitVec 32) (nexthdr : BitVec 8) :
    NhResult :=
  if callsEhStub nexthdr then
    if flags.storeNexthdr then bfParseIpv6Nh slice l3Offset nexthdr
    else
      let walked := bfParseIpv6Eh slice l3Offset nexthdr
      ⟨walked.1, walked.2, 0⟩
  else ⟨nexthdr, l3Offset + 40, 0⟩

section Walk

variable {W : Type} {env : Env W BfElfstubId} {maps : BfMaps} {slice : W → Slice}

/-- `r8` and `ctx->l4_offset` hold a protocol and an offset. -/
def Leaves (walked : BitVec 8 × BitVec 32) (c : Core W) : Prop :=
  (c.regs 8, c.mem.load (ctxAddr (c.regs 10) .l4Offset) 4) =
    (walked.1.setWidth 64, walked.2.setWidth 64)

/-- The called stub computes the view. -/
theorem Ipv6Stubs.call (stubs : Ipv6Stubs env slice) (flags : BfChainFlags) (args : Args)
    (mem : Mem) (world : W) (calls : callsEhStub (stubNexthdr args.r1 mem) = true) :
    ((env.sub (ipv6Stub flags) args mem world).r0,
        (env.sub (ipv6Stub flags) args mem world).mem.load
          (args.r1 + BitVec.ofNat 64 RuntimeField.l4Offset.offset) 4) =
      let view := ipv6View flags (slice world) (stubL3Offset args.r1 mem)
        (stubNexthdr args.r1 mem)
      (view.proto.setWidth 64, view.l4Offset.setWidth 64) := by
  rw [ipv6View, if_pos calls]
  cases store : flags.storeNexthdr with
  | false =>
      rw [ipv6Stub, store]
      exact stubs.eh args mem world
  | true =>
      rw [ipv6Stub, store]
      exact stubs.nh args mem world

/-- The state the fast path leaves. -/
def afterNoEh (c : Core W) : Core W :=
  let l4Offset := c.mem.load (ctxAddr (c.regs 10) .l3Offset) 4 + 40
  (c.setReg 2 l4Offset).storeMem (ctxAddr (c.regs 10) .l4Offset) 4 l4Offset

theorem eval_noEhSlots (c : Core W) :
    eval env 0 (noEhSlots.map (Emitted.link maps)) c = .fall 0 (afterNoEh c) := by
  simp only [noEhSlots, List.map_cons, List.map_nil, link_insn]
  rw [eval_ldx, eval_alu64Imm, eval_stx, eval_nil]
  simp only [Core.setReg_setReg, Core.setReg_regs, Fin.reduceEq, if_true, if_false, AluOp.eval,
    add_ctxOff]
  rfl

/-- The fast path: the layer 4 header follows the fixed header. -/
theorem afterNoEh_leaves {c : Core W} {l3Offset : BitVec 32}
    (offset : (c.mem.load (ctxAddr (c.regs 10) .l3Offset) 4).setWidth 32 = l3Offset) :
    (afterNoEh c).regs 8 = c.regs 8 ∧ (afterNoEh c).regs 10 = c.regs 10 ∧
      (afterNoEh c).mem.load (ctxAddr (c.regs 10) .l4Offset) 4 = (l3Offset + 40).setWidth 64 := by
  refine ⟨rfl, rfl, ?_⟩
  refine (Mem.load_store_same _ _ 4 _ (by omega)).trans ?_
  have wide : (40 : BitVec 64).toNat = 40 := rfl
  have narrow : (40 : BitVec 32).toNat = 40 := rfl
  apply BitVec.eq_of_toNat_eq
  rw [← offset]
  simp only [BitVec.toNat_ofNat, BitVec.toNat_setWidth, BitVec.toNat_add, wide, narrow]
  omega

/-- The slow path: the stub decides. -/
theorem eval_ehCall (flags : BfChainFlags) (c : Core W) :
    let called := c.setReg 1 (ctxAddr (c.regs 10) .arg)
    let back := called.call (env.sub (ipv6Stub flags))
    eval env 0 ((ehCallSlots flags ++ noEhSlots).map (Emitted.link maps)) c =
      .fall 0 (back.setReg 8 (back.regs 0)) := by
  intro called back
  have moved : (c.setReg 1 (c.regs 10)).setReg 1
      ((c.setReg 1 (c.regs 10)).regs 1 + (ctxImm .arg).signExtend 64) = called :=
    setReg_ctx c .arg
  simp only [ehCallSlots, noEhSlots, List.cons_append, List.nil_append, List.map_cons,
    List.map_nil, link_insn]
  rw [eval_mov64Reg, eval_alu64Imm]
  simp only [AluOp.eval, moved]
  rfl

/-- The state a stub call leaves. -/
def afterEh (env : Env W BfElfstubId) (flags : BfChainFlags) (c : Core W) : Core W :=
  let back := (c.setReg 1 (ctxAddr (c.regs 10) .arg)).call (env.sub (ipv6Stub flags))
  back.setReg 8 (back.regs 0)

theorem afterEh_mem (flags : BfChainFlags) (c : Core W) :
    (afterEh env flags c).mem = (env.sub (ipv6Stub flags)
      (c.setReg 1 (ctxAddr (c.regs 10) .arg)).args c.mem c.world).mem := by
  simp only [afterEh, Core.setReg_mem, Core.call_mem, Core.setReg_world]

theorem afterEh_saved (flags : BfChainFlags) (c : Core W) {r : Reg} (saved : 5 < r) (other : r ≠ 8) :
    (afterEh env flags c).regs r = c.regs r := by
  have first : r ≠ 1 := by
    rintro rfl
    exact absurd saved (by decide)
  simp only [afterEh, Core.setReg_regs, if_neg other]
  rw [Core.call_regs_saved _ _ r saved, Core.setReg_regs, if_neg first]

theorem afterNoEh_regs (c : Core W) {r : Reg} (other : r ≠ 2) :
    (afterNoEh c).regs r = c.regs r := by
  simp only [afterNoEh, Core.storeMem_regs, Core.setReg_regs, if_neg other]

/-- The code behind the fixed header takes one of two paths. -/
theorem eval_ipv6_path (flags : BfChainFlags) {c : Core W} {nexthdr : BitVec 8}
    (ipv6 : c.regs 7 = ipv6Reg) (first : c.mem (c.regs 0 + 6) = nexthdr) :
    ∃ d, eval env 0 ((parseIpv6Slots flags).map (Emitted.link maps)) c =
        .fall 0 (if callsEhStub nexthdr then afterEh env flags d else afterNoEh d) ∧
      d.EqOutside [2, 3] (c.setReg 8 (nexthdr.setWidth 64)) := by
  have isIpv6 : (bpfJmpImm .ne 7 ((htobe16 ethPIpv6).setWidth 32) 0).taken c = false := by
    simp only [BpfInsn.taken, bpfJmpImm, BpfInsn.operand, ipv6]
    decide
  have loads : c.mem.load (c.regs 0 + (6 : BitVec 16).signExtend 64) 1 =
      nexthdr.setWidth 64 := by
    rw [show (6 : BitVec 16).signExtend 64 = 6 from rfl, Mem.load_one, first]
  obtain ⟨d, test, same⟩ := @eval_ehTest W env maps
    (c.setReg 8 (nexthdr.setWidth 64)) nexthdr rfl
  refine ⟨d, ?_, same⟩
  rw [parseIpv6Slots_eq, eval_skipOver_idle rfl _ isIpv6, List.map_cons, link_insn, eval_ldx,
    show Size.b.bytes = 1 from rfl, loads, List.map_append, eval_append_fall _ test]
  cases callsEhStub nexthdr with
  | true => exact eval_ehCall flags d
  | false => exact @eval_noEhSlots W env maps d

/-- What the stub is handed. -/
theorem HeaderAt.stubArgs {nexthdr : BitVec 8} {l3Offset : BitVec 32} {r10 : BitVec 64}
    {world : W} {c d : Core W} (header : HeaderAt nexthdr l3Offset r10 world c)
    (same : d.EqOutside [2, 3] (c.setReg 8 (nexthdr.setWidth 64))) :
    let called := d.setReg 1 (ctxAddr (d.regs 10) .arg)
    called.args.r1 = ctxAddr r10 .arg ∧ called.world = world ∧
      stubL3Offset called.args.r1 called.mem = l3Offset ∧
      stubNexthdr called.args.r1 called.mem = nexthdr := by
  intro called
  have frame : d.regs 10 = r10 := (same.regs 10 (by simp)).trans header.frame
  have mem : called.mem = c.mem := same.mem
  have first : called.args.r1 = ctxAddr r10 .arg := congrArg (ctxAddr · .arg) frame
  refine ⟨first, same.world.trans header.world, ?_, ?_⟩
  · rw [stubL3Offset, first, ← ctxAddr_eq, mem, header.offset]
  · rw [stubNexthdr, first, ← ctxAddr_eq, mem, header.stored, header.first]

/-- The code behind the fixed header. -/
theorem eval_ipv6 (stubs : Ipv6Stubs env slice) (flags : BfChainFlags) {c : Core W}
    {nexthdr : BitVec 8} {l3Offset : BitVec 32} {r10 : BitVec 64} {world : W}
    (ipv6 : c.regs 7 = ipv6Reg) (header : HeaderAt nexthdr l3Offset r10 world c) :
    ∃ d, eval env 0 ((parseIpv6Slots flags).map (Emitted.link maps)) c = .fall 0 d ∧
      Leaves ((ipv6View flags (slice world) l3Offset nexthdr).proto,
        (ipv6View flags (slice world) l3Offset nexthdr).l4Offset) d := by
  obtain ⟨d, path, same⟩ := @eval_ipv6_path W env maps flags c nexthdr ipv6 header.first
  have frame : d.regs 10 = r10 := (same.regs 10 (by simp)).trans header.frame
  cases calls : callsEhStub nexthdr with
  | true =>
      rw [calls, if_pos rfl] at path
      refine ⟨_, path, ?_⟩
      let called := d.setReg 1 (ctxAddr (d.regs 10) .arg)
      obtain ⟨first, here, offset, byte⟩ := header.stubArgs same
      have reply := stubs.call flags called.args called.mem called.world (byte ▸ calls)
      rw [offset, byte, first, ← ctxAddr_eq, congrArg slice here] at reply
      have back : (called.call (env.sub (ipv6Stub flags))).regs 10 = r10 :=
        (Core.call_regs_saved called _ 10 (by decide)).trans frame
      refine Eq.trans ?_ reply
      simp only [afterEh, Core.setReg_regs, Core.setReg_mem, Fin.reduceEq, if_true, if_false]
      rw [back]
      rfl
  | false =>
      rw [calls, if_neg Bool.false_ne_true] at path
      refine ⟨_, path, ?_⟩
      have offsetKept :
          (d.mem.load (ctxAddr (d.regs 10) .l3Offset) 4).setWidth 32 = l3Offset := by
        rw [frame, same.mem]
        exact header.offset
      obtain ⟨kept8, kept10, moved⟩ := afterNoEh_leaves offsetKept
      rw [Leaves, ipv6View, calls, kept8, kept10, moved, same.regs 8 (by simp)]
      rfl

/-- The view of a packet that can be read anywhere: either stub computes the EH walk. -/
def l3Walk (packet : Packet) (l3Offset : BitVec 32) : BitVec 8 × BitVec 32 :=
  if callsEhStub (packet (l3Offset + 6)) then
    bfParseIpv6Eh (fun o => some (packet.ext o)) l3Offset (packet (l3Offset + 6))
  else (packet (l3Offset + 6), l3Offset + 40)

theorem ipv6View_total (flags : BfChainFlags) (packet : Packet) (l3Offset : BitVec 32) :
    let view := ipv6View flags (fun o => some (packet.ext o)) l3Offset (packet (l3Offset + 6))
    (view.proto, view.l4Offset) = l3Walk packet l3Offset := by
  have agree := (loops_agree_iff (fun o => some (packet.ext o)) bfIpv6ExtMaxChain
    (packet (l3Offset + 6)) (l3Offset + 40) 0).mpr (by
      intro value cut
      rw [truncatedAt_total] at cut
      cases cut)
  cases calls : callsEhStub (packet (l3Offset + 6)) <;>
    cases store : flags.storeNexthdr <;> simp only [ipv6View, l3Walk, calls, store] <;>
    first | rfl | exact agree

variable {packet : W → Packet}

/-- An IPv6 packet in front of the layer 3 code: the callees behave, `r7` holds the protocol
and the stack frame is not at the bottom of the address space. -/
structure Ipv6Setting (host : Host) (env : Env W BfElfstubId) (packet : W → Packet)
    (c : Core W) : Prop where
  slice : DynptrSlice env (host.kfuncId .bpfDynptrSlice) packet (c.regs 10)
  stubs : Ipv6Stubs env fun w o => some ((packet w).ext o)
  ipv6 : c.regs 7 = ipv6Reg
  framed : 512 ≤ (c.regs 10).toNat

/-- The code falls through and leaves the result of a walk. -/
def Walks (env : Env W BfElfstubId) (items : List (Item BfElfstubId)) (c : Core W)
    (walked : BitVec 8 × BitVec 32) : Prop :=
  ∃ d, Runs env items 0 c (.fall d) ∧ Leaves walked d

theorem Walks.unique {items : List (Item BfElfstubId)} {c : Core W}
    {walked walked' : BitVec 8 × BitVec 32} (first : Walks env items c walked)
    (second : Walks env items c walked') : walked = walked' := by
  obtain ⟨d, ran, leaves⟩ := first
  obtain ⟨d', ran', leaves'⟩ := second
  cases ran.unique ran'
  have same := leaves.symm.trans leaves'
  exact Prod.ext ((setWidth64_inj (by decide) _ _).mp (congrArg Prod.fst same))
    ((setWidth64_inj (by decide) _ _).mp (congrArg Prod.snd same))

/-- The layer 3 code on an IPv6 packet. -/
theorem parseL3_walks (maps : BfMaps) {p : BfProgram} {c : Core W}
    (setting : Ipv6Setting p.host env packet c) :
    Walks env ((parseL3Slots p (p.host.kfuncId .bpfDynptrSlice)).map (Emitted.link maps)) c
      (l3Walk (packet c.world) (l3OffsetOf c)) := by
  have ipv6 := setting.ipv6
  let sized := c.setReg 4 40
  have supported : (bpfJmpImm .eq 7 0 0).taken sized = false := by
    rw [show sized = c.setReg 4 40 from rfl]
    simp only [BpfInsn.taken, bpfJmpImm, BpfInsn.operand, Core.setReg_regs, Fin.reduceEq,
      if_false, ipv6]
    decide
  obtain ⟨found, header⟩ := headerAt_of_slice (c := sized) setting.slice setting.framed rfl
  let r := (sliceCall sized .l3Size .l3Offset .l2).call
    (env.kfunc (p.host.kfuncId .bpfDynptrSlice))
  have guard : (bpfJmpImm .ne 0 0 0).taken r = true := by
    simpa [BpfInsn.taken, bpfJmpImm, BpfInsn.operand, JmpOp.eval] using found
  have frame : r.regs 10 = c.regs 10 :=
    (Core.call_regs_saved _ _ 10 (by decide)).trans (sliceCall_saved sized _ _ _ 10 (by decide))
  have kept : r.regs 7 = ipv6Reg :=
    ((Core.call_regs_saved _ _ 7 (by decide)).trans
      (sliceCall_saved sized _ _ _ 7 (by decide))).trans ipv6
  let e := r.storeMem (ctxAddr (c.regs 10) .l3Hdr) 8 (r.regs 0)
  have store : eval env 0 (([bpfStxMem .dw 10 0 (ctxOff .l3Hdr)] : List Emitted).map
      (Emitted.link maps)) r = .fall 0 e := by
    rw [List.map_cons, link_insn, eval_stx, frame, add_ctxOff]
    rfl
  have notIp : (bpfJmpImm .ne 7 ((htobe16 ethPIp).setWidth 32) 0).taken e = true := by
    simp only [BpfInsn.taken, bpfJmpImm, BpfInsn.operand, e, Core.storeMem_regs, kept]
    decide
  have ipv4 : eval env 0 (parseIpv4Slots.map (Emitted.link maps)) e = .fall 0 e :=
    eval_skipOver_taken rfl _ notIp (by simp)
  obtain ⟨d, falls, leaves⟩ := @eval_ipv6 W env maps _ setting.stubs p.chain.flags e
    _ _ _ _ kept header
  rw [ipv6View_total] at leaves
  refine ⟨d, runs_of_eval (e := .fall d) ?_, leaves⟩
  have short := errorExitSlots_length p l3Msg
  rw [parseL3Slots, List.map_append, eval_append_fall _ (eval_l3Swich ipv6),
    eval_skipOver_idle rfl _ supported, parseL3BodySlots]
  simp only [List.map_append, List.append_assoc]
  rw [eval_append_fall _ (eval_slice ..),
    eval_append_fall _ (eval_skipOver_taken rfl _ guard (by omega)), eval_append_fall _ store,
    eval_append_fall _ ipv4, falls]
  rfl

/-- The reference walk from the fixed header. -/
def refWalkFrom (packet : Packet) (l3Offset : BitVec 32) : BitVec 8 × BitVec 32 :=
  refWalk packet.ext bfIpv6ExtMaxChain (packet (l3Offset + 6)) (l3Offset + 40)

/-- The code's walk is the reference walk when the mask covers the first header and
reserved bytes are zero. -/
theorem l3Walk_eq_refWalkFrom (packet : Packet) (l3Offset : BitVec 32)
    (covered : maskMisses (packet (l3Offset + 6)) = false)
    (plain : fragmentsPlain packet.ext bfIpv6ExtMaxChain (packet (l3Offset + 6))
      (l3Offset + 40) = true) :
    l3Walk packet l3Offset = refWalkFrom packet l3Offset := by
  cases calls : callsEhStub (packet (l3Offset + 6)) with
  | true =>
      rw [l3Walk, calls, if_pos rfl]
      exact ehLoop_eq_refWalk packet.ext _ _ _ plain
  | false =>
      have stops : (refAdvance (packet (l3Offset + 6)) 0).isNone = true := by
        by_contra walked
        have := (callsEhStub_of_walked _ (Bool.eq_false_iff.mpr walked)).mpr covered
        rw [calls] at this
        cases this
      rw [l3Walk, calls, refWalkFrom, refWalk_of_isNone packet.ext _ _ stops]
      rfl

/-- A header the mask misses is not walked over. -/
theorem l3Walk_ne_of_maskMisses (packet : Packet) (l3Offset : BitVec 32)
    (missed : maskMisses (packet (l3Offset + 6)) = true) :
    l3Walk packet l3Offset ≠ refWalkFrom packet l3Offset := by
  have walked : (refAdvance (packet (l3Offset + 6)) 0).isNone = false := by
    revert missed
    generalize packet (l3Offset + 6) = nexthdr
    revert nexthdr
    decide +kernel
  have calls : callsEhStub (packet (l3Offset + 6)) = false := by
    by_contra called
    have := (callsEhStub_of_walked _ walked).mp (Bool.eq_true_of_not_eq_false called)
    rw [missed] at this
    cases this
  rw [l3Walk, calls]
  intro same
  exact refWalk_moves packet.ext _ walked (congrArg Prod.snd same).symm

/-- A marked fragment header at the end of the walk moves the layer 4 header. -/
theorem l3Walk_ne_of_marked (packet : Packet) (l3Offset : BitVec 32)
    (covered : maskMisses (packet (l3Offset + 6)) = false)
    (marked : lastFragmentMarked packet.ext bfIpv6ExtMaxChain (packet (l3Offset + 6))
      (l3Offset + 40) = true) :
    l3Walk packet l3Offset ≠ refWalkFrom packet l3Offset := by
  have walked : (refAdvance (packet (l3Offset + 6)) 0).isNone = false := by
    by_contra stops
    have none := refAdvance_isNone (packet (l3Offset + 6))
      (packet.ext (l3Offset + 40)).hdrlen
    rw [Bool.eq_true_of_not_eq_false stops, Option.isNone_iff_eq_none] at none
    rw [bfIpv6ExtMaxChain, lastFragmentMarked, none] at marked
    cases marked
  rw [l3Walk, (callsEhStub_of_walked _ walked).mpr covered, if_pos rfl]
  exact ehLoop_ne_refWalk packet.ext _ _ _ marked

/-- **IPv6 header walk.**  The emitted code computes the reference walk when the mask covers
the first next-header value and every fragment header passed has a zero reserved byte.  It
does not when the mask misses the first value, nor when the last header passed is a fragment
header with another reserved byte. -/
theorem bfStubParseL3Hdr_walks (maps : BfMaps) {p p' : BfProgram} {c : Core W}
    (tracked : p.Tracked) (ran : bfStubParseL3Hdr p = .ok ((), p'))
    (setting : Ipv6Setting p.host env packet c) :
    ∃ es, p' = (p.noted l3Msg).append es ∧
      (maskMisses (packet c.world (l3OffsetOf c + 6)) = false ∧
          fragmentsPlain (packet c.world).ext bfIpv6ExtMaxChain
            (packet c.world (l3OffsetOf c + 6)) (l3OffsetOf c + 40) = true →
        Walks env (es.map (Emitted.link maps)) c
          (refWalkFrom (packet c.world) (l3OffsetOf c))) ∧
      (maskMisses (packet c.world (l3OffsetOf c + 6)) = true →
        ¬ Walks env (es.map (Emitted.link maps)) c
          (refWalkFrom (packet c.world) (l3OffsetOf c))) ∧
      (maskMisses (packet c.world (l3OffsetOf c + 6)) = false ∧
          lastFragmentMarked (packet c.world).ext bfIpv6ExtMaxChain
            (packet c.world (l3OffsetOf c + 6)) (l3OffsetOf c + 40) = true →
        ¬ Walks env (es.map (Emitted.link maps)) c
          (refWalkFrom (packet c.world) (l3OffsetOf c))) := by
  have walks := parseL3_walks maps setting
  refine ⟨_, bfStubParseL3Hdr_spec tracked ran, ?_, ?_, ?_⟩
  · rintro ⟨covered, plain⟩
    rwa [l3Walk_eq_refWalkFrom _ _ covered plain] at walks
  · intro missed walks'
    exact l3Walk_ne_of_maskMisses _ _ missed (walks.unique walks')
  · rintro ⟨covered, marked⟩ walks'
    exact l3Walk_ne_of_marked _ _ covered marked (walks.unique walks')

end Walk

/-! ## Sample packets -/

section Samples

/-- The slice function copies to the buffer and the stubs compute their source; the world
is the packet. -/
def bufferEnv : Env Packet BfElfstubId where
  helper _ a m w := ⟨0, a, m, w⟩
  kfunc _ a m w :=
    ⟨a.r3, a, fun x => if Mem.InRange a.r3 a.r4.toNat x then
      w (a.r2.setWidth 32 + BitVec.ofNat 32 (x - a.r3).toNat) else m x, w⟩
  sub id a m w :=
    let slice : Slice := fun o => some (w.ext o)
    let leave (proto : BitVec 8) (l4Offset : BitVec 32) : Reply Packet :=
      ⟨proto.setWidth 64, a,
        m.store (a.r1 + BitVec.ofNat 64 RuntimeField.l4Offset.offset) 4 (l4Offset.setWidth 64), w⟩
    match id with
    | .parseIpv6Eh =>
        let walked := bfParseIpv6Eh slice (stubL3Offset a.r1 m) (stubNexthdr a.r1 m)
        leave walked.1 walked.2
    | .parseIpv6Nh =>
        let walked := bfParseIpv6Nh slice (stubL3Offset a.r1 m) (stubNexthdr a.r1 m)
        leave walked.proto walked.l4Offset
    | _ => ⟨0, a, m, w⟩
  mapAddr fd := fd.setWidth 64
  mapValueAddr fd _ := fd.setWidth 64

theorem bufferEnv_slice (id : BitVec 32) (r10 : BitVec 64) :
    DynptrSlice bufferEnv id (fun w => w) r10 where
  found _ _ _ buffer := buffer
  bytes args mem world i _ inside := by
    have bound := args.r4.isLt
    have dist : (args.r3 + BitVec.ofNat 64 i - args.r3).toNat = i := by
      rw [add_sub_cancel_left, BitVec.toNat_ofNat, Nat.mod_eq_of_lt (by omega)]
    have here : Mem.InRange args.r3 args.r4.toNat (args.r3 + BitVec.ofNat 64 i) :=
      Mem.inRange_add _ _ _ inside (by omega)
    simp only [bufferEnv, here, if_true, dist]
  place _ _ _ _ := .inl rfl
  others _ _ _ _ outside := if_neg outside
  world _ _ _ := rfl

theorem bufferEnv_stubs : Ipv6Stubs bufferEnv fun w o => some (Packet.ext w o) := by
  constructor
  · intro args mem world
    exact Prod.ext rfl (Mem.load_store_word _ _ _)
  · intro args mem world
    exact Prod.ext rfl (Mem.load_store_word _ _ _)

/-- Layer 3 parsing of an IPv6 packet at offset 0. -/
def ipv6Core (packet : Packet) : Core Packet where
  regs r := if r = 10 then 8192 else if r = 7 then ipv6Reg else 0
  mem _ := 0
  world := packet

theorem ipv6Core_setting (packet : Packet) :
    Ipv6Setting sampleHost bufferEnv (fun w => w) (ipv6Core packet) where
  slice := bufferEnv_slice _ _
  stubs := bufferEnv_stubs
  ipv6 := rfl
  framed := by
    show 512 ≤ (8192 : BitVec 64).toNat
    decide

/-- A packet with one extension header in front of TCP. -/
def oneHeader (nexthdr : BitVec 8) (reserved : BitVec 8) : Packet := fun o =>
  if o = 6 then nexthdr else if o = 40 then ipprotoTcp else if o = 41 then reserved else 0

def sampleProgram : BfProgram := bfProgramNew sampleHost sampleChain sampleMaps

theorem sampleProgram_parseL3 :
    bfStubParseL3Hdr sampleProgram = .ok ((), (sampleProgram.noted l3Msg).append
      (parseL3Slots sampleProgram (sampleHost.kfuncId .bpfDynptrSlice))) :=
  bfStubParseL3Hdr_eq (bfProgramNew_tracked ..) rfl

/-- A hop-by-hop header is walked over, to TCP at offset 48. -/
theorem hopoptsPacket_walks :
    ∃ es, bfStubParseL3Hdr sampleProgram = .ok ((), (sampleProgram.noted l3Msg).append es) ∧
      Walks bufferEnv (es.map (Emitted.link sampleMaps)) (ipv6Core (oneHeader ipprotoHopopts 0))
        (ipprotoTcp, 48) := by
  obtain ⟨es, emitted, holds, -⟩ := bfStubParseL3Hdr_walks sampleMaps
    (bfProgramNew_tracked ..) sampleProgram_parseL3
    (ipv6Core_setting (oneHeader ipprotoHopopts 0))
  have generated : bfStubParseL3Hdr sampleProgram =
      .ok ((), (sampleProgram.noted l3Msg).append es) := by
    rw [sampleProgram_parseL3, emitted]
    rfl
  exact ⟨es, generated, holds (by decide +kernel)⟩

/-- A routing header is not: TCP is at offset 48, and the code finds protocol 43 at 40. -/
theorem routingPacket_not_walked :
    Ipv6Setting sampleHost bufferEnv (fun w => w) (ipv6Core (oneHeader ipprotoRouting 0)) ∧
      bfStubParseL3Hdr sampleProgram = .ok ((), (sampleProgram.noted l3Msg).append
        (parseL3Slots sampleProgram (sampleHost.kfuncId .bpfDynptrSlice))) ∧
      refWalkFrom (oneHeader ipprotoRouting 0) 0 = (ipprotoTcp, 48) ∧
      Walks bufferEnv ((parseL3Slots sampleProgram (sampleHost.kfuncId .bpfDynptrSlice)).map
        (Emitted.link sampleMaps)) (ipv6Core (oneHeader ipprotoRouting 0)) (ipprotoRouting, 40) ∧
      ¬ Walks bufferEnv ((parseL3Slots sampleProgram (sampleHost.kfuncId .bpfDynptrSlice)).map
        (Emitted.link sampleMaps)) (ipv6Core (oneHeader ipprotoRouting 0)) (ipprotoTcp, 48) := by
  have setting := ipv6Core_setting (oneHeader ipprotoRouting 0)
  have walks : Walks bufferEnv ((parseL3Slots sampleProgram
      (sampleHost.kfuncId .bpfDynptrSlice)).map (Emitted.link sampleMaps))
      (ipv6Core (oneHeader ipprotoRouting 0)) (ipprotoRouting, 40) :=
    parseL3_walks (p := sampleProgram) sampleMaps setting
  refine ⟨setting, sampleProgram_parseL3, by decide +kernel, walks, ?_⟩
  intro other
  exact absurd (walks.unique other) (by decide)

end Samples

end Bpfilter

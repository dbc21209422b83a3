/-
# Cgen.Ip4Match -- what the IPv4 matchers decide

The code of an IPv4 matcher loads a field of the header, masks it when the matcher
is a network, and compares it with its payload.  `ip4Holds` is the decision and
`eval_ip4` executes the code: it falls through when the matcher holds and leaves
for the next rule otherwise, and changes `r1`, `r2`, `r3` and `r6` only.
`eval_ip4s` is the same for all the matchers of a rule.
-/
import Bpfilter.Cgen.MatcherSlots

namespace Bpfilter

set_option autoImplicit false

open Ebpf

/-- The header fields the matchers read, as the host reads them. -/
structure Ip4Packet where
  saddr : BitVec 32
  daddr : BitVec 32
  protocol : BitVec 8
  deriving DecidableEq, Repr

/-! ## Decisions -/

/-- `eq` wants two values to agree, any other operator wants them to differ. -/
def opHolds (op : BfMatcherOp) (agree : Bool) : Bool := agree == (op = .eq)

/-- The mask a network matcher rebuilds from its prefix length. -/
def BfMatcher.netmask (m : BfMatcher) : BitVec 32 := leBits 32 (netMask 4 (m.payloadU32 0).toNat)

def ip4Holds (pkt : Ip4Packet) (m : BfMatcher) : Bool :=
  match m.type with
  | .ip4Saddr => opHolds m.op (pkt.saddr = m.payloadU32 0)
  | .ip4Daddr => opHolds m.op (pkt.daddr = m.payloadU32 0)
  | .ip4Snet => opHolds m.op (pkt.saddr &&& m.netmask = m.payloadU32 1 &&& m.netmask)
  | .ip4Dnet => opHolds m.op (pkt.daddr &&& m.netmask = m.payloadU32 1 &&& m.netmask)
  | .ip4Proto => opHolds m.op (pkt.protocol = m.payloadU8)
  | _ => true

/-- The matchers of this module. -/
def BfMatcherType.isIp4 : BfMatcherType → Bool
  | .ip4Saddr | .ip4Daddr | .ip4Snet | .ip4Dnet | .ip4Proto => true
  | _ => false

/-! ## Execution -/

section Execution

variable {W : Type} {env : Env W BfElfstubId} {maps : BfMaps}

/-- The state of a program at the rules, for an IPv4 packet. -/
structure Ip4At (pkt : Ip4Packet) (c : Core W) : Prop where
  ipv4 : c.regs 7 = (htobe16 ethPIp).setWidth 64
  saddr : c.mem.load (c.mem.load (ctxAddr (c.regs 10) .l3Hdr) 8 + 12) 4 = pkt.saddr.setWidth 64
  daddr : c.mem.load (c.mem.load (ctxAddr (c.regs 10) .l3Hdr) 8 + 16) 4 = pkt.daddr.setWidth 64
  protocol : c.mem.load (c.mem.load (ctxAddr (c.regs 10) .l3Hdr) 8 + 9) 1 =
    pkt.protocol.setWidth 64

/-- The registers the matchers may change. -/
def ip4Clobbers : List Reg := [1, 2, 3, 6]

theorem Ip4At.of_eqOutside {pkt : Ip4Packet} {c d : Core W} (here : Ip4At pkt c)
    (same : d.EqOutside ip4Clobbers c) : Ip4At pkt d := by
  have frame : d.regs 10 = c.regs 10 := same.regs 10 (by decide)
  have proto : d.regs 7 = c.regs 7 := same.regs 7 (by decide)
  constructor
  · rw [proto, here.ipv4]
  · rw [same.mem, frame, here.saddr]
  · rw [same.mem, frame, here.daddr]
  · rw [same.mem, frame, here.protocol]

/-- The comparison that ends a matcher. -/
theorem eval_compare {w : Nat} (fits : w ≤ 64) (op : BfMatcherOp) (jump : JmpOp → BpfInsn)
    (isJump : (jump (mismatchJmp op)).isJump = true) {c : Core W} {a b : BitVec w}
    (taken : (jump (mismatchJmp op)).taken c =
      (mismatchJmp op).eval (a.setWidth 64) (b.setWidth 64)) :
    eval env 0 (([nextSlot (jump (mismatchJmp op))] : List Emitted).map (Emitted.link maps)) c =
      if opHolds op (a = b) then .fall 0 c else .out c := by
  rw [List.map_cons, List.map_nil, eval_nextSlot isJump, eval_nil, taken]
  have same := setWidth64_inj fits a b
  by_cases equal : a = b
  · by_cases eq : op = .eq <;> simp [opHolds, mismatchJmp, eq, equal, JmpOp.eval]
  · have differ := mt same.mp equal
    by_cases eq : op = .eq <;> simp [opHolds, mismatchJmp, eq, equal, differ, JmpOp.eval]

/-- The operands of a comparison: a loaded field in `r1`, a constant in `r2`. -/
theorem eval_ip4Addr {c : Core W} {m : BfMatcher} (off : BitVec 16) {field : BitVec 32}
    (loads : c.mem.load (c.regs 6 + off.signExtend 64) 4 = field.setWidth 64) :
    ∃ d, eval env 0 (([bpfLdxMem .w 1 6 off, bpfMov32Imm 2 (m.payloadU32 0),
          nextSlot (bpfJmpReg (mismatchJmp m.op) 1 2 0)] : List Emitted).map
          (Emitted.link maps)) c =
        (if opHolds m.op (field = m.payloadU32 0) then .fall 0 d else .out d) ∧
      d.EqOutside ip4Clobbers c := by
  let d := (c.setReg 1 (field.setWidth 64)).setReg 2 ((m.payloadU32 0).setWidth 64)
  refine ⟨d, ?_, ((Core.EqOutside.refl _ c).setReg (by decide) _).setReg (by decide) _⟩
  simp only [List.map_cons, link_insn]
  rw [eval_ldx, show Size.w.bytes = 4 from rfl, loads, eval_mov32Imm]
  exact eval_compare (by decide) m.op (fun op => bpfJmpReg op 1 2 0) rfl rfl

theorem and_setWidth32 (a b : BitVec 32) :
    (AluOp.and.eval ((a.setWidth 64).setWidth 32) ((b.setWidth 64).setWidth 32)).setWidth 64 =
      (a &&& b).setWidth 64 := by
  simp only [AluOp.eval, BitVec.setWidth_setWidth_of_le, Nat.reduceLeDiff, BitVec.setWidth_eq]

/-- Both operands are masked, unless the mask keeps everything. -/
theorem eval_ip4Mask (mask : BitVec 32) {c : Core W} {a b : BitVec 32}
    (left : c.regs 1 = a.setWidth 64) (right : c.regs 2 = b.setWidth 64) :
    ∃ d, eval env 0 ((ip4MaskSlots mask).map (Emitted.link maps)) c = .fall 0 d ∧
      d.EqOutside ip4Clobbers c ∧ d.regs 1 = (a &&& mask).setWidth 64 ∧
      d.regs 2 = (b &&& mask).setWidth 64 := by
  unfold ip4MaskSlots
  by_cases full : mask = 0xffffffff
  · refine ⟨c, by simp [full], .refl _ c, ?_, ?_⟩
    · rw [left, full, show (0xffffffff : BitVec 32) = BitVec.allOnes 32 from rfl,
        BitVec.and_allOnes]
    · rw [right, full, show (0xffffffff : BitVec 32) = BitVec.allOnes 32 from rfl,
        BitVec.and_allOnes]
  · rw [if_pos full]
    let d := ((c.setReg 3 (mask.setWidth 64)).setReg 1 ((a &&& mask).setWidth 64)).setReg 2
      ((b &&& mask).setWidth 64)
    refine ⟨d, ?_, ((((Core.EqOutside.refl _ c).setReg (by decide) _).setReg (by decide) _).setReg
      (by decide) _), rfl, rfl⟩
    simp only [List.map_cons, List.map_nil, link_insn]
    rw [eval_mov32Imm, eval_alu32Reg, eval_alu32Reg, eval_nil]
    simp only [Core.setReg_regs, Fin.reduceEq, if_true, if_false, left, right, and_setWidth32]
    rfl

theorem eval_ip4Net {c : Core W} {m : BfMatcher} (off : BitVec 16) {field : BitVec 32}
    (loads : c.mem.load (c.regs 6 + off.signExtend 64) 4 = field.setWidth 64) :
    ∃ d, eval env 0 (({ insn := bpfLdxMem .w 1 6 off } ::
          { insn := bpfMov32Imm 2 (m.payloadU32 1) } ::
          (ip4MaskSlots m.netmask ++ [nextSlot (bpfJmpReg (mismatchJmp m.op) 1 2 0)]) :
            List Emitted).map (Emitted.link maps)) c =
        (if opHolds m.op (field &&& m.netmask = m.payloadU32 1 &&& m.netmask) then .fall 0 d
          else .out d) ∧
      d.EqOutside ip4Clobbers c := by
  let loaded := (c.setReg 1 (field.setWidth 64)).setReg 2 ((m.payloadU32 1).setWidth 64)
  obtain ⟨d, masks, same, left, right⟩ := eval_ip4Mask m.netmask
    (c := loaded) (a := field) (b := m.payloadU32 1) rfl rfl
  have kept : loaded.EqOutside ip4Clobbers c :=
    ((Core.EqOutside.refl _ c).setReg (by decide) _).setReg (by decide) _
  refine ⟨d, ?_, same.trans kept⟩
  simp only [List.map_cons, List.map_append, link_insn]
  rw [eval_ldx, show Size.w.bytes = 4 from rfl, loads, eval_mov32Imm,
    show (c.setReg 1 _).setReg 2 _ = loaded from rfl, eval_append_fall _ masks]
  exact eval_compare (by decide) m.op (fun op => bpfJmpReg op 1 2 0) rfl
    (by rw [taken_reg, left, right])

theorem eval_ip4Proto {c : Core W} {m : BfMatcher} {protocol : BitVec 8}
    (loads : c.mem.load (c.regs 6 + (9 : BitVec 16).signExtend 64) 1 = protocol.setWidth 64) :
    ∃ d, eval env 0 ((ip4ProtoSlots m).map (Emitted.link maps)) c =
        (if opHolds m.op (protocol = m.payloadU8) then .fall 0 d else .out d) ∧
      d.EqOutside ip4Clobbers c := by
  let d := c.setReg 1 (protocol.setWidth 64)
  refine ⟨d, ?_, (Core.EqOutside.refl _ c).setReg (by decide) _⟩
  simp only [ip4ProtoSlots, List.map_cons, link_insn]
  rw [eval_ldx, show Size.b.bytes = 1 from rfl, loads]
  exact eval_compare (by decide) m.op
    (fun op => bpfJmpImm op 1 (m.payloadU8.setWidth 32) 0) rfl
    (by rw [taken_imm, signExtend_byte]; rfl)

/-- **IPv4 matchers.**  The code falls through exactly when the matcher holds. -/
theorem eval_ip4 {pkt : Ip4Packet} {c : Core W} (here : Ip4At pkt c) {m : BfMatcher}
    (known : m.type.isIp4 = true) :
    ∃ d, eval env 0 ((ip4Slots m).map (Emitted.link maps)) c =
        (if ip4Holds pkt m then .fall 0 d else .out d) ∧
      d.EqOutside ip4Clobbers c := by
  have isIpv4 : (bpfJmpImm .ne 7 ((htobe16 ethPIp).setWidth 32) 0).taken c = false := by
    rw [taken_imm, here.ipv4]
    decide
  let e := c.setReg 6 (c.mem.load (ctxAddr (c.regs 10) .l3Hdr) 8)
  have kept : e.EqOutside ip4Clobbers c := (Core.EqOutside.refl _ c).setReg (by decide) _
  have start : ∀ rest : List (Item BfElfstubId),
      eval env 0 ((nextSlot (bpfJmpImm .ne 7 ((htobe16 ethPIp).setWidth 32) 0)).link maps ::
        .insn (bpfLdxMem .dw 6 10 (ctxOff .l3Hdr)) :: rest) c = eval env 0 rest e := by
    intro rest
    rw [eval_nextSlot rfl, isIpv4, if_neg Bool.false_ne_true, eval_ldx, add_ctxOff]
    rfl
  unfold ip4Slots ip4Holds
  simp only [List.map_cons, link_insn, start]
  cases type : m.type with
  | ip4Saddr =>
      obtain ⟨d, ran, same⟩ := @eval_ip4Addr W env maps e m 12 _ here.saddr
      exact ⟨d, by simpa [ip4AddrSlots, type] using ran, same.trans kept⟩
  | ip4Daddr =>
      obtain ⟨d, ran, same⟩ := @eval_ip4Addr W env maps e m 16 _ here.daddr
      exact ⟨d, by simpa [ip4AddrSlots, type] using ran, same.trans kept⟩
  | ip4Snet =>
      obtain ⟨d, ran, same⟩ := @eval_ip4Net W env maps e m 12 _ here.saddr
      exact ⟨d, by simpa [ip4NetSlots, type, BfMatcher.netmask] using ran, same.trans kept⟩
  | ip4Dnet =>
      obtain ⟨d, ran, same⟩ := @eval_ip4Net W env maps e m 16 _ here.daddr
      exact ⟨d, by simpa [ip4NetSlots, type, BfMatcher.netmask] using ran, same.trans kept⟩
  | ip4Proto =>
      obtain ⟨d, ran, same⟩ := @eval_ip4Proto W env maps e m _ here.protocol
      exact ⟨d, ran, same.trans kept⟩
  | _ => simp [BfMatcherType.isIp4, type] at known

/-- The matchers of a rule, one after the other. -/
theorem eval_ip4s {pkt : Ip4Packet} {c : Core W} (here : Ip4At pkt c) (ms : List BfMatcher)
    (known : ∀ m ∈ ms, m.type.isIp4 = true) :
    ∃ d, eval env 0 ((ms.flatMap ip4Slots).map (Emitted.link maps)) c =
        (if ms.all (ip4Holds pkt) then .fall 0 d else .out d) ∧
      d.EqOutside ip4Clobbers c := by
  induction ms generalizing c with
  | nil => exact ⟨c, by simp, .refl _ c⟩
  | cons m ms ih =>
      obtain ⟨d, first, same⟩ := eval_ip4 here
        (known m (List.mem_cons_self ..))
      rw [List.flatMap_cons, List.map_append]
      cases holds : ip4Holds pkt m with
      | true =>
          rw [holds, if_pos rfl] at first
          obtain ⟨e, rest, same'⟩ := ih (here.of_eqOutside same)
            fun m mem => known m (List.mem_cons_of_mem _ mem)
          refine ⟨e, ?_, same'.trans same⟩
          rw [eval_append_fall _ first, rest, List.all_cons, holds, Bool.true_and]
      | false =>
          rw [holds, if_neg Bool.false_ne_true] at first
          refine ⟨d, ?_, same⟩
          rw [eval_append_out _ first, List.all_cons, holds, Bool.false_and]
          rfl

/-- The code of the matchers ends by falling through when they all hold, and only then. -/
theorem runs_ip4s_iff {pkt : Ip4Packet} {c : Core W} (here : Ip4At pkt c) (ms : List BfMatcher)
    (known : ∀ m ∈ ms, m.type.isIp4 = true) :
    (∃ d, Runs env ((ms.flatMap ip4Slots).map (Emitted.link maps)) 0 c (.fall d)) ↔
      ms.all (ip4Holds pkt) = true := by
  obtain ⟨d, ran, -⟩ := eval_ip4s here ms known
  cases all : ms.all (ip4Holds pkt) with
  | true =>
      rw [all, if_pos rfl] at ran
      exact ⟨fun _ => rfl, fun _ => ⟨d, runs_of_eval (e := .fall d) (by rw [ran]; rfl)⟩⟩
  | false =>
      rw [all, if_neg Bool.false_ne_true] at ran
      have leaves := runs_of_eval (e := .out d) (by rw [ran]; rfl)
      constructor
      · rintro ⟨d', falls⟩
        cases leaves.unique falls
      · intro h
        cases h

end Execution

/-! ## Generation -/

/-- A network matcher whose prefix length fits its mask. -/
def BfMatcher.PrefixFits (m : BfMatcher) : Prop :=
  (m.type = .ip4Snet ∨ m.type = .ip4Dnet) → (m.payloadU32 0).toNat ≤ 32

theorem bfMatcherGenerateIp4Net_eq (m : BfMatcher) (fits : (m.payloadU32 0).toNat ≤ 32)
    (p : BfProgram) :
    bfMatcherGenerateIp4Net m p = .ok ((), p.append (ip4NetSlots m)) := by
  have known : bfPrefixToMask 4 (m.payloadU32 0).toNat =
      some (netMask 4 (m.payloadU32 0).toNat) := by
    rw [netMask, bfPrefixToMask, if_neg (by omega)]
    rfl
  unfold bfMatcherGenerateIp4Net ip4NetSlots ip4MaskSlots
  rw [known]
  by_cases full : leBits 32 (netMask 4 (m.payloadU32 0).toNat) = 0xffffffff
  · simp only [full, ne_eq, not_true, if_false, gen_bind, emit_eq, emitFixupJmpNextRule,
      emitFixup_eq, BfProgram.append_append]
    rfl
  · simp only [full, ne_eq, not_false_eq_true, if_true, gen_bind, emit_eq, emitFixupJmpNextRule,
      emitFixup_eq, BfProgram.append_append]
    rfl

/-- Generation succeeds for an IPv4 matcher. -/
theorem bfMatcherGenerate_ip4 {m : BfMatcher} (known : m.type.isIp4 = true) (fits : m.PrefixFits)
    (p : BfProgram) : bfMatcherGenerate m p = .ok ((), p.append (ip4Slots m)) := by
  unfold bfMatcherGenerate ip4Slots bfMatcherGenerateIp4
  cases type : m.type with
  | ip4Saddr =>
      simp only [type, bfMatcherGenerateIp4Addr, gen_bind, emit_eq, emitFixupJmpNextRule,
        emitFixup_eq, BfProgram.append_append, ip4AddrSlots]
      rfl
  | ip4Daddr =>
      simp only [type, bfMatcherGenerateIp4Addr, gen_bind, emit_eq, emitFixupJmpNextRule,
        emitFixup_eq, BfProgram.append_append, ip4AddrSlots]
      rfl
  | ip4Proto =>
      simp only [bfMatcherGenerateIp4Proto, gen_bind, emit_eq, emitFixupJmpNextRule,
        emitFixup_eq, BfProgram.append_append, ip4ProtoSlots]
      rfl
  | ip4Snet =>
      simp only [bfMatcherGenerateIp4Net_eq m (fits (.inl type)), gen_bind, emit_eq,
        emitFixupJmpNextRule, emitFixup_eq, BfProgram.append_append]
      rfl
  | ip4Dnet =>
      simp only [bfMatcherGenerateIp4Net_eq m (fits (.inr type)), gen_bind, emit_eq,
        emitFixupJmpNextRule, emitFixup_eq, BfProgram.append_append]
      rfl
  | _ => simp [BfMatcherType.isIp4, type] at known

theorem generateMatchers_ip4 (ms : List BfMatcher) (known : ∀ m ∈ ms, m.type.isIp4 = true)
    (fits : ∀ m ∈ ms, m.PrefixFits) (p : BfProgram) :
    generateMatchers bfMatcherGenerate ms p = .ok ((), p.append (ms.flatMap ip4Slots)) := by
  induction ms generalizing p with
  | nil => simp [generateMatchers, gen_pure]
  | cons m ms ih =>
      rw [generateMatchers, gen_bind_ok (bfMatcherGenerate_ip4 (known m (List.mem_cons_self ..))
        (fits m (List.mem_cons_self ..)) p), ih (fun m mem => known m (List.mem_cons_of_mem _ mem))
        (fun m mem => fits m (List.mem_cons_of_mem _ mem)), BfProgram.append_append,
        List.flatMap_cons]

end Bpfilter

/-
# Cgen.MetaMatch -- what the metadata matchers decide

The metadata matchers compare a register or a field of the context with an
immediate.  The immediate of a 64-bit comparison is sign-extended, what is loaded
is zero-extended, so a constant from 2^31 on does not compare as itself
(`setWidth_eq_signExtend_iff`).  This decides the thresholds of probability
matchers here and the marks in Cgen.Marks.

The interface matcher loads two bytes of a four-byte index.  Both theorems say for
which values the matcher is exact.
-/
import Bpfilter.Cgen.Ip4Match
import Bpfilter.Cgen.Observed
import Bpfilter.Lib.Payload

namespace Bpfilter

set_option autoImplicit false

open Ebpf

/-! ## Deciding code -/

section Deciding

variable {W : Type} (env : Env W BfElfstubId) (maps : BfMaps) (es : List Emitted) (c : Core W)

/-- The code of a matcher falls through: the rule goes on. -/
def Continues : Prop := ∃ d, Runs env (es.map (Emitted.link maps)) 0 c (.fall d)

/-- The code of a matcher leaves for the next rule. -/
def Skips : Prop := ∃ d, Runs env (es.map (Emitted.link maps)) 0 c (.out d)

variable {env maps es c}

theorem not_continues_and_skips : ¬ (Continues env maps es c ∧ Skips env maps es c) := by
  rintro ⟨⟨d, falls⟩, e, leaves⟩
  cases falls.unique leaves

theorem decides_of_eval {b : Bool} {d : Core W}
    (ran : eval env 0 (es.map (Emitted.link maps)) c = if b then .fall 0 d else .out d) :
    (Continues env maps es c ↔ b = true) ∧ (Skips env maps es c ↔ b = false) := by
  cases b with
  | true =>
      have falls : Continues env maps es c := ⟨d, runs_of_eval (by rw [ran]; rfl)⟩
      refine ⟨iff_of_true falls rfl, iff_of_false (fun leaves => ?_) (by decide)⟩
      exact not_continues_and_skips ⟨falls, leaves⟩
  | false =>
      have leaves : Skips env maps es c := ⟨d, runs_of_eval (by rw [ran]; rfl)⟩
      refine ⟨iff_of_false (fun falls => ?_) (by decide), iff_of_true leaves rfl⟩
      exact not_continues_and_skips ⟨falls, leaves⟩

/-- A jump to the next rule ends the code. -/
theorem eval_lastJump {jump : BpfInsn} (isJump : jump.isJump = true) (c : Core W) :
    eval env 0 (([nextSlot jump] : List Emitted).map (Emitted.link maps)) c =
      if !jump.taken c then .fall 0 c else .out c := by
  rw [List.map_cons, List.map_nil, eval_nextSlot isJump, eval_nil]
  cases jump.taken c <;> rfl

end Deciding

/-! ## Immediates -/

/-- A large immediate is larger than everything that is zero-extended. -/
theorem signExtend_of_big {v : BitVec 32} (big : 2 ^ 31 ≤ v.toNat) :
    2 ^ 32 ≤ (v.signExtend 64).toNat := by
  have msb : v.msb = true := by
    rw [BitVec.msb_eq_decide]
    exact decide_eq_true (by omega)
  rw [BitVec.toNat_signExtend, msb, if_pos rfl]
  omega

/-- A zero-extended value equals an immediate when they agree and the immediate is small. -/
theorem setWidth_eq_signExtend_iff (x v : BitVec 32) :
    x.setWidth 64 = v.signExtend 64 ↔ x = v ∧ v.toNat < 2 ^ 31 := by
  constructor
  · intro same
    have small : v.toNat < 2 ^ 31 := by
      by_contra big
      have far := signExtend_of_big (v := v) (by omega)
      rw [← same, BitVec.toNat_setWidth] at far
      have top := x.isLt
      omega
    rw [signExtend_of_small small] at same
    exact ⟨(setWidth64_inj (by decide) x v).mp same, small⟩
  · rintro ⟨rfl, small⟩
    rw [signExtend_of_small small]

/-! ## Probability -/

section Probability

/-- The comparison with the threshold of a percentage. -/
theorem threshold_lt_iff {proba : Nat} (le : proba ≤ 100) (d : BitVec 32) :
    ((probabilityThreshold (BitVec.ofNat 8 proba)).signExtend 64).toNat < (d.setWidth 64).toNat ↔
      proba ≤ 50 ∧ 4294967295 * proba / 100 < d.toNat := by
  have percent : (BitVec.ofNat 8 proba).toNat = proba := by
    rw [BitVec.toNat_ofNat, Nat.mod_eq_of_lt (by omega)]
  have value : (probabilityThreshold (BitVec.ofNat 8 proba)).toNat = 4294967295 * proba / 100 := by
    rw [probabilityThreshold, percent, BitVec.toNat_ofNat, Nat.mod_eq_of_lt (by omega)]
  have top := d.isLt
  have draw : (d.setWidth 64).toNat = d.toNat := by
    rw [BitVec.toNat_setWidth, Nat.mod_eq_of_lt (by omega)]
  rw [draw]
  by_cases half : proba ≤ 50
  · rw [signExtend_of_small (by omega), BitVec.toNat_setWidth, value, Nat.mod_eq_of_lt (by omega)]
    exact ⟨fun lt => ⟨half, lt⟩, fun h => h.2⟩
  · have far := signExtend_of_big (v := probabilityThreshold (BitVec.ofNat 8 proba)) (by omega)
    exact ⟨fun lt => by omega, fun h => absurd h.1 half⟩

/-- The matcher draws a number, and leaves when it is above the threshold. -/
theorem metaProbability_decides {W : Type} {env : Env W BfElfstubId} {maps : BfMaps}
    {host : Host} {chain : BfChain} {proba : Nat} (le : proba ≤ 100) {c : Core W} {d : BitVec 32}
    (draws : (env.helper bpfFuncGetPrandomU32 c.args c.mem c.world).r0 = d.setWidth 64) :
    Continues env maps (matcherSlots host chain ⟨.metaProbability, .eq, [BitVec.ofNat 8 proba]⟩) c ↔
      ¬ (proba ≤ 50 ∧ 4294967295 * proba / 100 < d.toNat) := by
  let drawn := c.call (env.helper bpfFuncGetPrandomU32)
  have r0 : drawn.regs 0 = d.setWidth 64 := draws
  let jump := bpfJmpImm .gt 0 (probabilityThreshold (BitVec.ofNat 8 proba)) 0
  have taken : jump.taken drawn = decide (proba ≤ 50 ∧ 4294967295 * proba / 100 < d.toNat) := by
    rw [taken_imm, r0, JmpOp.eval]
    exact decide_eq_decide.mpr (threshold_lt_iff le d)
  have ran : eval env 0 ((matcherSlots host chain
      ⟨.metaProbability, .eq, [BitVec.ofNat 8 proba]⟩).map (Emitted.link maps)) c =
      if !jump.taken drawn then .fall 0 drawn else .out drawn := by
    have payload := payloadU8_singleton .metaProbability .eq (BitVec.ofNat 8 proba)
    simp only [matcherSlots, metaSlots, payload]
    exact eval_lastJump (show jump.isJump = true from rfl) drawn
  rw [(decides_of_eval ran).1, taken]
  simp only [Bool.not_eq_true', decide_eq_false_iff_not]

/-- A kernel that draws one number for ever. -/
def drawEnv (d : BitVec 32) : Env Unit BfElfstubId where
  helper _ a m w := ⟨d.setWidth 64, a, m, w⟩
  kfunc _ a m w := ⟨0, a, m, w⟩
  sub _ a m w := ⟨0, a, m, w⟩
  mapAddr _ := 0
  mapValueAddr _ _ := 0

def blankCore : Core Unit := ⟨fun _ => 0, fun _ => 0, ()⟩

/-- For every draw, the rule goes on up to the threshold of the percentage. -/
def ProbabilityExact (es : List Emitted) (proba : Nat) : Prop :=
  ∀ (W : Type) (env : Env W BfElfstubId) (maps : BfMaps) (c : Core W) (d : BitVec 32),
    (env.helper bpfFuncGetPrandomU32 c.args c.mem c.world).r0 = d.setWidth 64 →
    (Continues env maps es c ↔ d.toNat ≤ (2 ^ 32 - 1) * proba / 100)

/-- **Probability.**  The threshold is compared as it is meant up to 50 percent, and at 100. -/
theorem metaProbability_exact_iff {p p' : BfProgram} (tracked : p.Tracked) {proba : Nat}
    {rest : List Char} {payload : List Byte}
    (accepted : bfParseProbability proba rest = .ok payload)
    (generated : bfMatcherGenerate ⟨.metaProbability, .eq, payload⟩ p = .ok ((), p')) :
    ∃ es, p' = p.append es ∧ (ProbabilityExact es proba ↔ proba ≤ 50 ∨ proba = 100) := by
  obtain ⟨le, rfl⟩ := bfParseProbability_inv accepted
  refine ⟨_, bfMatcherGenerate_emits _ p p' tracked rfl rfl generated, ?_⟩
  constructor
  · intro exact_
    by_contra outside
    have decides : Continues (drawEnv 0xffffffff) ⟨0, 0, 0, []⟩ (matcherSlots p.host p.chain
        ⟨.metaProbability, .eq, [BitVec.ofNat 8 proba]⟩) blankCore ↔ _ :=
      metaProbability_decides le (d := 0xffffffff) rfl
    have below := (exact_ Unit (drawEnv 0xffffffff) ⟨0, 0, 0, []⟩ blankCore 0xffffffff rfl).mp
      (decides.mpr fun h => outside (.inl h.1))
    have top : (0xffffffff : BitVec 32).toNat = 4294967295 := rfl
    rw [top] at below
    omega
  · intro fine W env maps c d draws
    rw [metaProbability_decides le draws]
    have top := d.isLt
    omega

/-- The matchers without a search in the layout of the kernel are always generated. -/
theorem bfMatcherGenerate_probability (payload : List Byte) (p : BfProgram) :
    bfMatcherGenerate ⟨.metaProbability, .eq, payload⟩ p =
      .ok ((), p.append (matcherSlots p.host p.chain ⟨.metaProbability, .eq, payload⟩)) := by
  simp only [bfMatcherGenerate, bfMatcherGenerateMeta, gen_bind, emit_eq, emitFixupJmpNextRule,
    emitFixup_eq, BfProgram.append_append]
  rfl

theorem probability30_exact :
    ∃ es, bfMatcherGenerate ⟨.metaProbability, .eq, [30]⟩ sampleProgram =
        .ok ((), sampleProgram.append es) ∧ ProbabilityExact es 30 := by
  have generated := bfMatcherGenerate_probability [30] sampleProgram
  have accepted : bfParseProbability 30 ['%'] = .ok [30] := rfl
  obtain ⟨es, appended, exact_⟩ :=
    metaProbability_exact_iff (bfProgramNew_tracked ..) accepted generated
  refine ⟨es, ?_, exact_.mpr (.inl (by decide))⟩
  exact generated.trans (congrArg (fun q => Except.ok ((), q)) appended)

/-- At 75 percent, the largest draw is above the threshold, and the rule goes on. -/
theorem probability75_not_exact :
    bfParseProbability 75 ['%'] = .ok [75] ∧
      ∃ es, bfMatcherGenerate ⟨.metaProbability, .eq, [75]⟩ sampleProgram =
        .ok ((), sampleProgram.append es) ∧
      Continues (drawEnv 0xffffffff) sampleMaps es blankCore ∧ ¬ ProbabilityExact es 75 := by
  have goesOn : Continues (drawEnv 0xffffffff) sampleMaps (matcherSlots sampleProgram.host
      sampleProgram.chain ⟨.metaProbability, .eq, [75]⟩) blankCore :=
    (metaProbability_decides (show 75 ≤ 100 by decide) (d := 0xffffffff) rfl).mpr
      fun h => absurd h.1 (by decide)
  refine ⟨rfl, _, bfMatcherGenerate_probability [75] sampleProgram, goesOn, fun exact_ => ?_⟩
  exact absurd ((exact_ Unit _ _ _ 0xffffffff rfl).mp goesOn) (by decide)

end Probability

/-! ## Interfaces -/

section Interface

/-- The matcher compares the low half of the index. -/
theorem metaIface_decides {W : Type} {env : Env W BfElfstubId} {maps : BfMaps} {host : Host}
    {chain : BfChain} {v x : BitVec 32} {c : Core W}
    (stored : c.mem.load (ctxAddr (c.regs 10) .ifindex) 4 = x.setWidth 64) :
    Continues env maps (matcherSlots host chain ⟨.metaIface, .eq, leBytes32 v⟩) c ↔
      x.toNat % 2 ^ 16 = v.toNat := by
  let loaded := c.setReg 1 ((x.setWidth 16).setWidth 64)
  let jump := bpfJmpImm .ne 1 v 0
  have narrow : (x.setWidth 64).setWidth 16 = x.setWidth 16 := by
    apply BitVec.eq_of_toNat_eq
    simp only [BitVec.toNat_setWidth]
    omega
  have ran : eval env 0 ((matcherSlots host chain ⟨.metaIface, .eq, leBytes32 v⟩).map
      (Emitted.link maps)) c = if !jump.taken loaded then .fall 0 loaded else .out loaded := by
    have payload := payloadU32_addr .metaIface .eq v
    simp only [matcherSlots, metaSlots, payload, List.map_cons, List.map_nil, link_insn]
    rw [eval_ldx, add_ctxOff, show Size.h.bytes = 2 from rfl, Mem.load_half, stored, narrow]
    exact eval_lastJump (show jump.isJump = true from rfl) loaded
  have low : (x.setWidth 16).setWidth 64 = ((x.setWidth 16).setWidth 32).setWidth 64 := by
    apply BitVec.eq_of_toNat_eq
    simp only [BitVec.toNat_setWidth]
    omega
  have taken : jump.taken loaded = decide (x.toNat % 2 ^ 16 ≠ v.toNat) := by
    rw [taken_ne]
    refine decide_eq_decide.mpr (not_congr ?_)
    rw [Core.setReg_regs, if_pos rfl, low, setWidth_eq_signExtend_iff]
    have half : ((x.setWidth 16).setWidth 32).toNat = x.toNat % 2 ^ 16 := by
      simp only [BitVec.toNat_setWidth]
      omega
    rw [← BitVec.toNat_inj, half]
    omega
  rw [(decides_of_eval ran).1, taken]
  simp

/-- For every stored index that is given, the rule goes on when it is that of the matcher. -/
def IfaceExact (es : List Emitted) (v x : BitVec 32) : Prop :=
  ∀ (W : Type) (env : Env W BfElfstubId) (maps : BfMaps) (c : Core W),
    c.mem.load (ctxAddr (c.regs 10) .ifindex) 4 = x.setWidth 64 →
    (Continues env maps es c ↔ x = v)

/-- A context with an interface index. -/
def ifaceCore (x : BitVec 32) : Core Unit where
  regs _ := 0
  mem := Mem.store (fun _ => 0) (ctxAddr 0 .ifindex) 4 (x.setWidth 64)
  world := ()

theorem ifaceCore_stored (x : BitVec 32) :
    (ifaceCore x).mem.load (ctxAddr ((ifaceCore x).regs 10) .ifindex) 4 = x.setWidth 64 :=
  Mem.load_store_word _ _ x

theorem bfMatcherGenerate_iface (payload : List Byte) (p : BfProgram) :
    bfMatcherGenerate ⟨.metaIface, .eq, payload⟩ p =
      .ok ((), p.append (matcherSlots p.host p.chain ⟨.metaIface, .eq, payload⟩)) := by
  simp only [bfMatcherGenerate, bfMatcherGenerateMeta, gen_bind, emit_eq, emitFixupJmpNextRule,
    emitFixup_eq, BfProgram.append_append]
  rfl

/-- **Interfaces.**  The matcher is exact for the indices that fit two bytes, and for larger ones
that neither are the index of the matcher nor have it as their low half. -/
theorem metaIface_exact_iff {p p' : BfProgram} (tracked : p.Tracked) {idx : Int} {ifindex : Nat}
    {rest : List Char} {payload : List Byte} (int : idx < 2 ^ 31)
    (accepted : bfParseIface idx ifindex rest = .ok payload)
    (generated : bfMatcherGenerate ⟨.metaIface, .eq, payload⟩ p = .ok ((), p')) :
    ∃ v es, payload = leBytes32 v ∧ v ≠ 0 ∧ p' = p.append es ∧
      ∀ x : BitVec 32, IfaceExact es v x ↔
        x.toNat < 2 ^ 16 ∨ (x ≠ v ∧ x.toNat % 2 ^ 16 ≠ v.toNat) := by
  obtain ⟨v, positive, rfl⟩ := bfParseIface_inv int accepted
  refine ⟨v, _, rfl, positive, bfMatcherGenerate_emits _ p p' tracked rfl rfl generated, ?_⟩
  intro x
  have same : (x = v) ↔ x.toNat = v.toNat := BitVec.toNat_inj.symm
  constructor
  · intro exact_
    have decides : Continues (drawEnv 0) ⟨0, 0, 0, []⟩ (matcherSlots p.host p.chain
        ⟨.metaIface, .eq, leBytes32 v⟩) (ifaceCore x) ↔ _ :=
      metaIface_decides (ifaceCore_stored x)
    have meant := (exact_ Unit (drawEnv 0) ⟨0, 0, 0, []⟩ (ifaceCore x)
      (ifaceCore_stored x)).symm.trans decides
    by_cases small : x.toNat < 2 ^ 16
    · exact .inl small
    · right
      have high := v.isLt
      constructor
      · rintro rfl
        have := meant.mp rfl
        omega
      · intro low
        have := same.mp (meant.mpr low)
        omega
  · intro fine W env maps c stored
    rw [metaIface_decides stored, same]
    rcases fine with small | ⟨other, low⟩
    · rw [Nat.mod_eq_of_lt small]
    · exact iff_of_false low (mt same.mpr other)

theorem iface2_exact :
    ∃ es, bfMatcherGenerate ⟨.metaIface, .eq, leBytes32 2⟩ sampleProgram =
        .ok ((), sampleProgram.append es) ∧ IfaceExact es 2 3 := by
  have generated := bfMatcherGenerate_iface (leBytes32 2) sampleProgram
  have accepted : bfParseIface 0 2 [] = .ok (leBytes32 2) := rfl
  obtain ⟨v, es, payload, -, appended, exact_⟩ :=
    metaIface_exact_iff (bfProgramNew_tracked ..) (by decide) accepted generated
  have two : v = 2 := by
    rw [← leBits_leBytes32 v, ← payload]
    decide
  subst two
  refine ⟨es, ?_, (exact_ 3).mpr (.inl (by decide))⟩
  exact generated.trans (congrArg (fun q => Except.ok ((), q)) appended)

/-- Interface 65538 passes for interface 2. -/
theorem iface65538_not_exact :
    bfParseIface 0 2 [] = .ok (leBytes32 2) ∧
      ∃ es, bfMatcherGenerate ⟨.metaIface, .eq, leBytes32 2⟩ sampleProgram =
        .ok ((), sampleProgram.append es) ∧
      Continues (drawEnv 0) sampleMaps es (ifaceCore 65538) ∧ ¬ IfaceExact es 2 65538 := by
  have goesOn : Continues (drawEnv 0) sampleMaps (matcherSlots sampleProgram.host
      sampleProgram.chain ⟨.metaIface, .eq, leBytes32 2⟩) (ifaceCore 65538) :=
    (metaIface_decides (ifaceCore_stored 65538)).mpr (by decide)
  refine ⟨rfl, _, bfMatcherGenerate_iface (leBytes32 2) sampleProgram, goesOn, fun exact_ => ?_⟩
  exact absurd ((exact_ Unit _ _ _ (ifaceCore_stored 65538)).mp goesOn) (by decide)

end Interface

end Bpfilter

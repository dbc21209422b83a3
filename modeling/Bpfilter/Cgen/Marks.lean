/-
# Cgen.Marks -- setting and matching marks

A rule stores its mark in the packet, a mark matcher loads the mark of the packet and
compares it with an immediate.  The store and the load are of 32 bits, the comparison
is of 64 and extends the sign of the immediate: a mark from 2^31 on equals no mark.

`Follows` carries the mark of the packet along the rules of a chain, so that a mark that
was set is the one a later rule sees.  `metaMark_exact_iff` says for which marks the
matchers, and a rule behind one that sets the mark, do what they should.
-/
import Bpfilter.Cgen.MetaMatch

namespace Bpfilter

set_option autoImplicit false

open Ebpf

/-! ## The matchers -/

section Matchers

variable {W : Type} {env : Env W BfElfstubId} {maps : BfMaps} {host : Host} {chain : BfChain}

/-- Where a program of each flavor finds the mark of the packet. -/
def markAddr (host : Host) (flavor : BfFlavor) (c : Core W) : Addr :=
  let arg := c.mem.load (ctxAddr (c.regs 10) .arg) 8
  match flavor with
  | .nf =>
      c.mem.load (arg + (host.fieldOff .bpfNfCtxSkb).signExtend 64) 8 +
        (host.fieldOff .skBuffMark).signExtend 64
  | _ => arg + uSkBuffMark.signExtend 64

theorem markAddr_of_ne_nf {flavor : BfFlavor} (other : flavor ≠ .nf) (c : Core W) :
    markAddr host flavor c =
      c.mem.load (ctxAddr (c.regs 10) .arg) 8 + uSkBuffMark.signExtend 64 := by
  cases flavor with
  | nf => exact absurd rfl other
  | xdp | tc | cgroup => rfl

/-- The mark is loaded to `r1`. -/
theorem eval_getMark {flavor : BfFlavor} (reads : flavor ≠ .xdp) (c : Core W) :
    ∃ d, eval env 0 ((getMarkSlots host flavor).map (Emitted.link maps)) c = .fall 0 d ∧
      d.regs 1 = c.mem.load (markAddr host flavor c) 4 := by
  cases flavor with
  | xdp => exact absurd rfl reads
  | nf =>
      let arg := c.mem.load (ctxAddr (c.regs 10) .arg) 8
      let skb := c.mem.load (arg + (host.fieldOff .bpfNfCtxSkb).signExtend 64) 8
      let mark := c.mem.load (skb + (host.fieldOff .skBuffMark).signExtend 64) 4
      refine ⟨((c.setReg 1 arg).setReg 2 skb).setReg 1 mark, ?_, rfl⟩
      simp only [getMarkSlots, List.map_cons, List.map_nil, link_insn]
      rw [eval_ldx, add_ctxOff, eval_ldx, eval_ldx, eval_nil]
      rfl
  | tc | cgroup =>
      let arg := c.mem.load (ctxAddr (c.regs 10) .arg) 8
      let mark := c.mem.load (arg + uSkBuffMark.signExtend 64) 4
      refine ⟨(c.setReg 1 arg).setReg 1 mark, ?_, rfl⟩
      simp only [getMarkSlots, List.map_cons, List.map_nil, link_insn]
      rw [eval_ldx, add_ctxOff, eval_ldx, eval_nil]
      rfl

/-- What both matchers decide, for a mark of the packet. -/
theorem metaMark_decides (reads : bfHookToFlavor chain.hook ≠ .xdp) {m x : BitVec 32}
    {c : Core W} (mark : c.mem.load (markAddr host (bfHookToFlavor chain.hook) c) 4 = x.setWidth 64) :
    (Continues env maps (matcherSlots host chain ⟨.metaMark, .eq, leBytes32 m⟩) c ↔
      x = m ∧ m.toNat < 2 ^ 31) ∧
    (Continues env maps (matcherSlots host chain ⟨.metaMark, .ne, leBytes32 m⟩) c ↔
      ¬ (x = m ∧ m.toNat < 2 ^ 31)) := by
  obtain ⟨d, loads, loaded⟩ := @eval_getMark W env maps host _ reads c
  rw [mark] at loaded
  have payload := payloadU32_addr .metaMark
  constructor
  · have ran : eval env 0 ((matcherSlots host chain ⟨.metaMark, .eq, leBytes32 m⟩).map
        (Emitted.link maps)) c =
        if !(bpfJmpImm .ne 1 m 0).taken d then .fall 0 d else .out d := by
      simp only [matcherSlots, metaSlots, metaMarkSlots, payload]
      rw [List.map_append, eval_append_fall _ loads]
      exact eval_lastJump rfl d
    rw [(decides_of_eval ran).1, taken_ne, loaded, ← setWidth_eq_signExtend_iff]
    simp
  · have ran : eval env 0 ((matcherSlots host chain ⟨.metaMark, .ne, leBytes32 m⟩).map
        (Emitted.link maps)) c =
        if !(bpfJmpImm .eq 1 m 0).taken d then .fall 0 d else .out d := by
      simp only [matcherSlots, metaSlots, metaMarkSlots, payload]
      rw [List.map_append, eval_append_fall _ loads]
      exact eval_lastJump rfl d
    rw [(decides_of_eval ran).1, taken_eq, loaded, ← setWidth_eq_signExtend_iff]
    simp

end Matchers

/-! ## Marks along the rules -/

section Along

variable {W : Type} {env : Env W BfElfstubId} {maps : BfMaps}

/-- The mark of a packet that had mark `x` before the effects. -/
def markAfter (x : BitVec 32) (effects : List Effect) : BitVec 32 :=
  effects.foldl (fun x e => match e with
    | .mark value => value
    | _ => x) x

theorem markAfter_concat (x : BitVec 32) (effects : List Effect) (e : Effect) :
    markAfter x (effects ++ [e]) = markAfter (markAfter x effects) [e] := by
  rw [markAfter, markAfter, List.foldl_append]
  rfl

/-- What is called for the rules of a chain, its stubs included, writes no memory of the
program: sets and counters are in maps, logs in a ring buffer. -/
structure QuietCalls (env : Env W BfElfstubId) : Prop where
  helpers : QuietHelpers env fun _ => ()
  log : ∀ args mem world, (env.sub .log args mem world).mem = mem
  updateCounters : ∀ args mem world, (env.sub .updateCounters args mem world).mem = mem

/-- The packet of a `struct __sk_buff` has mark `x`. -/
def HasMark (arg : BitVec 64) (x : BitVec 32) (c : Core W) : Prop :=
  c.mem.load (arg + uSkBuffMark.signExtend 64) 4 = x.setWidth 64

/-- What keeps everything but the scratch area keeps the mark. -/
theorem HasMark.of_kept {arg : BitVec 64} {x : BitVec 32} {c d : Core W}
    (kept : Kept [] c d) (aside : Aside (c.regs 10) [markRange arg]) (marked : HasMark arg x c) :
    HasMark arg x d := by
  have apart := aside _ List.mem_cons_self
  have size : RuntimeField.scratch.offset + 64 ≤ sizeofRuntime := by decide
  refine Eq.trans (Mem.load_congr (by omega) fun y inside => ?_) marked
  apply kept.mem y
  intro r mem
  rw [List.mem_singleton.mp mem]
  exact disjoint_ctx_of_stack apart .scratch size y inside

theorem Kept.more {others : List (Addr × Nat)} {c d : Core W} (kept : Kept [] c d) :
    Kept others c d :=
  ⟨kept.frame, kept.l3, kept.l4, kept.mem.mono fun r mem => by
    rw [List.mem_singleton.mp mem]
    exact List.mem_cons_self⟩

/-- The mark is stored. -/
theorem perform_mark_hasMark (value : BitVec 32) (c : Core W) :
    HasMark (c.mem.load (ctxAddr (c.regs 10) .arg) 8) value
      ((Effect.mark value).perform env maps c) := by
  have low : (value.signExtend 64).toNat % 2 ^ 32 = value.toNat := by
    have same := congrArg BitVec.toNat (setWidth_signExtend value)
    rwa [BitVec.toNat_setWidth] at same
  let addr := c.mem.load (ctxAddr (c.regs 10) .arg) 8 + uSkBuffMark.signExtend 64
  show (c.mem.store addr 4 (value.signExtend 64)).load addr 4 = value.setWidth 64
  rw [Mem.load_store_same _ _ _ _ (by omega), show 256 ^ 4 = 2 ^ 32 from rfl, low]
  apply BitVec.eq_of_toNat_eq
  rw [BitVec.toNat_ofNat, BitVec.toNat_setWidth]

/-- From the state `c`, with mark `x`, the context is kept and the packet has the last mark set. -/
structure MarkRun (x : BitVec 32) (c : Core W) (effects : List Effect) (d : Core W) : Prop where
  kept : Kept [markRange (c.mem.load (ctxAddr (c.regs 10) .arg) 8)] c d
  marked : HasMark (c.mem.load (ctxAddr (c.regs 10) .arg) 8) (markAfter x effects) d

/-- An effect that is no mark keeps the mark. -/
theorem MarkRun.quiet {x : BitVec 32} {c d e : Core W} {effects : List Effect} {effect : Effect}
    (aside : Aside (c.regs 10) [markRange (c.mem.load (ctxAddr (c.regs 10) .arg) 8)])
    (run : MarkRun x c effects d) (kept : Kept [] d e) (noMark : ∀ value, effect ≠ .mark value) :
    MarkRun x c (effects ++ [effect]) e := by
  refine ⟨run.kept.trans kept.more, ?_⟩
  have same : markAfter x (effects ++ [effect]) = markAfter x effects := by
    rw [markAfter_concat]
    cases effect with
    | mark value => exact absurd rfl (noMark value)
    | log | counter => rfl
  rw [same]
  exact run.marked.of_kept kept (by rw [run.kept.frame]; exact aside)

/-- The mark of the packet along the rules of a verified program. -/
theorem markRun_follows (quiet : QuietCalls env) {host : Host} {chain : BfChain}
    {rules : List BfRule}
    (bounded : ∀ rule ∈ rules, ∀ m ∈ rule.matchers, StackBounded (matcherSlots host chain m))
    {x : BitVec 32} {c : Core W}
    (aside : Aside (c.regs 10) [markRange (c.mem.load (ctxAddr (c.regs 10) .arg) 8)]) :
    Follows env maps (matcherOutcome env maps host chain) (MarkRun x c) rules where
  matcher rule inRules m inRule effects d run := by
    have kept : Kept [] d (matcherOutcome env maps host chain m d).core :=
      (matcherOutcome_kept quiet.helpers (bounded rule inRules m inRule) d).1
    refine ⟨run.kept.trans kept.more, run.marked.of_kept kept ?_⟩
    rw [run.kept.frame]
    exact aside
  effect rule inRules e inRule effects d run := by
    cases e with
    | mark value =>
        have arg : d.mem.load (ctxAddr (d.regs 10) .arg) 8 =
            c.mem.load (ctxAddr (c.regs 10) .arg) 8 := by
          rw [run.kept.frame]
          exact run.kept.load aside (by decide)
        refine ⟨run.kept.trans (perform_mark_kept value ?_).1, ?_⟩
        · rw [arg]
          exact List.mem_cons_self
        · rw [markAfter_concat, ← arg]
          exact perform_mark_hasMark value d
    | log index headers =>
        exact run.quiet aside (perform_log_kept index headers quiet.log).1 (by simp)
    | counter index =>
        exact run.quiet aside (perform_counter_kept index quiet.updateCounters).1 (by simp)

end Along

/-! ## Exact marks -/

/-- For every mark of a packet, the first fragment goes on when it is `m`, the second when not. -/
def MarkExact (host : Host) (flavor : BfFlavor) (es fs : List Emitted) (m : BitVec 32) : Prop :=
  ∀ (W : Type) (env : Env W BfElfstubId) (maps : BfMaps) (c : Core W) (x : BitVec 32),
    c.mem.load (markAddr host flavor c) 4 = x.setWidth 64 →
    (Continues env maps es c ↔ x = m) ∧ (Continues env maps fs c ↔ x ≠ m)

/-- Where rules can set marks: behind rules of which the last to set a mark set `m`, the fragment
goes on. -/
def MarkSeen (host : Host) (chain : BfChain) (es : List Emitted) (m : BitVec 32) : Prop :=
  (bfFlavorOpsGet (bfHookToFlavor chain.hook)).genInlineSetMark.isSome = true →
  ∀ (W : Type) (env : Env W BfElfstubId) (maps : BfMaps) (rules : List BfRule) (c d : Core W)
    (before after : List Effect), QuietCalls env →
    (∀ rule ∈ rules, ∀ m ∈ rule.matchers, StackBounded (matcherSlots host chain m)) →
    Aside (c.regs 10) [markRange (c.mem.load (ctxAddr (c.regs 10) .arg) 8)] →
    passRules env maps (matcherOutcome env maps host chain) rules c =
      some (before ++ .mark m :: after, d) →
    (∀ value, .mark value ∈ after → value = m) → Continues env maps es d

theorem markAfter_last (x m : BitVec 32) (before after : List Effect)
    (same : ∀ value, .mark value ∈ after → value = m) :
    markAfter x (before ++ .mark m :: after) = m := by
  have rest : ∀ es : List Effect, (∀ value, .mark value ∈ es → value = m) → markAfter m es = m := by
    intro es
    induction es with
    | nil => exact fun _ => rfl
    | cons e es ih =>
        intro marks
        have tail := ih fun value mem => marks value (List.mem_cons_of_mem _ mem)
        cases e with
        | mark value =>
            rw [marks value List.mem_cons_self]
            exact tail
        | log | counter => exact tail
  rw [markAfter, List.foldl_append]
  exact rest after same

section Exact

variable {host : Host} {chain : BfChain}

/-- The last mark that was set is seen, if it is small. -/
theorem markSeen_of_small {m : BitVec 32} (small : m.toNat < 2 ^ 31) :
    MarkSeen host chain (matcherSlots host chain ⟨.metaMark, .eq, leBytes32 m⟩) m := by
  intro sets W env maps rules c d before after quiet bounded aside passed last
  let arg := c.mem.load (ctxAddr (c.regs 10) .arg) 8
  let x := leBits 32 (c.mem.bytesAt (arg + uSkBuffMark.signExtend 64) 4)
  have start : MarkRun x c [] c := ⟨.refl _ c, load_eq_leBits _ _ (by decide)⟩
  have run := (markRun_follows quiet bounded aside).passRules start passed
  have marked := run.marked
  rw [List.nil_append, markAfter_last x m before after last] at marked
  have context : d.mem.load (ctxAddr (d.regs 10) .arg) 8 = arg := by
    rw [run.kept.frame]
    exact run.kept.load aside (by decide)
  have reads : bfHookToFlavor chain.hook ≠ .xdp := by
    intro xdp
    rw [xdp] at sets
    cases sets
  have noNf : bfHookToFlavor chain.hook ≠ .nf := by
    intro nf
    rw [nf] at sets
    cases sets
  refine (metaMark_decides reads ?_).1.mpr ⟨rfl, small⟩
  rw [markAddr_of_ne_nf noNf, context]
  exact marked

/-- A context argument, the pointer behind it and a mark, in memory. -/
def markMem (arg skb : BitVec 64) (x : BitVec 32) : Mem :=
  ((Mem.store (fun _ => 0) 1000 8 arg).store 2000 8 skb).store 3000 4 (x.setWidth 64)

theorem markMem_loads (arg skb : BitVec 64) (x : BitVec 32) :
    (markMem arg skb x).load 1000 8 = arg ∧ (markMem arg skb x).load 2000 8 = skb ∧
      (markMem arg skb x).load 3000 4 = x.setWidth 64 := by
  have apart : ∀ i n j k : Nat, i + n ≤ j → j + k ≤ 2 ^ 64 →
      Mem.Disjoint (BitVec.ofNat 64 i) n (BitVec.ofNat 64 j) k := by
    intro i n j k le fits
    have far := Mem.disjoint_offset 0#64 i n j k (.inl le) (by omega) fits
    rwa [BitVec.zero_add, BitVec.zero_add] at far
  have argMark : Mem.Disjoint (1000 : Addr) 8 3000 4 := apart 1000 8 3000 4 (by decide) (by omega)
  have argSkb : Mem.Disjoint (1000 : Addr) 8 2000 8 := apart 1000 8 2000 8 (by decide) (by omega)
  have skbMark : Mem.Disjoint (2000 : Addr) 8 3000 4 := apart 2000 8 3000 4 (by decide) (by omega)
  unfold markMem
  refine ⟨?_, ?_, Mem.load_store_word _ _ x⟩
  · rw [Mem.load_store_disjoint _ _ argMark (by omega),
      Mem.load_store_disjoint _ _ argSkb (by omega), Mem.load_store_reg]
  · rw [Mem.load_store_disjoint _ _ skbMark (by omega), Mem.load_store_reg]

/-- The argument of a program that finds the mark of `markMem`. -/
def markArg (host : Host) : BfFlavor → BitVec 64
  | .nf => 2000 - (host.fieldOff .bpfNfCtxSkb).signExtend 64
  | _ => 3000 - uSkBuffMark.signExtend 64

/-- A packet with a mark, for a program of any flavor. -/
def markCore (host : Host) (flavor : BfFlavor) (x : BitVec 32) : Core Unit where
  regs r := if r = 10 then 1240 else 0
  mem := markMem (markArg host flavor) (3000 - (host.fieldOff .skBuffMark).signExtend 64) x
  world := ()

theorem markCore_marked (host : Host) (flavor : BfFlavor) (x : BitVec 32) :
    (markCore host flavor x).mem.load (markAddr host flavor (markCore host flavor x)) 4 =
      x.setWidth 64 := by
  obtain ⟨argument, buffer, mark⟩ := markMem_loads (markArg host flavor)
    (3000 - (host.fieldOff .skBuffMark).signExtend 64) x
  have context : (markCore host flavor x).mem.load
      (ctxAddr ((markCore host flavor x).regs 10) .arg) 8 = markArg host flavor := by
    rw [show ctxAddr ((markCore host flavor x).regs 10) .arg = ctxAddr 1240 .arg from rfl,
      show ctxAddr 1240 .arg = 1000 by decide]
    exact argument
  have address : markAddr host flavor (markCore host flavor x) = 3000 := by
    cases flavor with
    | nf =>
        rw [markAddr]
        simp only [context, markArg, BitVec.sub_add_cancel]
        rw [show (markCore host .nf x).mem.load 2000 8 = _ from buffer, BitVec.sub_add_cancel]
    | xdp | tc | cgroup =>
        rw [markAddr_of_ne_nf (by decide), context]
        exact BitVec.sub_add_cancel _ _
  rw [address]
  exact mark

/-- No program is generated where marks cannot be read. -/
theorem bfMatcherGenerateMetaMark_reads {m : BfMatcher} {p p' : BfProgram}
    (generated : bfMatcherGenerateMetaMark m p = .ok ((), p')) : p.flavor ≠ .xdp := by
  intro xdp
  rw [bfMatcherGenerateMetaMark, gen_bind_ok (gen_get p), xdp] at generated
  cases generated

/-- **Marks.**  The matchers are exact, and marks that were set are seen, for the marks below
2^31. -/
theorem metaMark_exact_iff {p q r : BfProgram} (tracked : p.Tracked) {mark : Int}
    {rest : List Char} {payload : List Byte} (accepted : bfParseMark mark rest = .ok payload)
    (eqGenerated : bfMatcherGenerate ⟨.metaMark, .eq, payload⟩ p = .ok ((), q))
    (neGenerated : bfMatcherGenerate ⟨.metaMark, .ne, payload⟩ p = .ok ((), r)) :
    ∃ es fs, q = p.append es ∧ r = p.append fs ∧
      (MarkExact p.host p.flavor es fs (BitVec.ofInt 32 mark) ∧
          MarkSeen p.host p.chain es (BitVec.ofInt 32 mark) ↔ mark < 2 ^ 31) := by
  obtain ⟨nonneg, top, rfl⟩ := bfParseMark_inv accepted
  refine ⟨_, _, bfMatcherGenerate_emits _ p q tracked rfl rfl eqGenerated,
    bfMatcherGenerate_emits _ p r tracked rfl rfl neGenerated, ?_⟩
  have generated : bfMatcherGenerateMetaMark ⟨.metaMark, .eq, leBytes32 (BitVec.ofInt 32 mark)⟩ p =
      .ok ((), q) := eqGenerated
  have reads : p.flavor ≠ .xdp := bfMatcherGenerateMetaMark_reads generated
  have value : (BitVec.ofInt 32 mark).toNat = mark.toNat := by
    rw [BitVec.toNat_ofInt, Int.emod_eq_of_lt nonneg (by omega)]
  constructor
  · rintro ⟨exact_, -⟩
    have marked := markCore_marked p.host p.flavor (BitVec.ofInt 32 mark)
    have both := exact_ Unit (drawEnv 0) ⟨0, 0, 0, []⟩ _ _ marked
    have holds := (metaMark_decides reads marked).1.mp (both.1.mpr rfl)
    omega
  · intro small
    refine ⟨fun W env maps c x marked => ?_, markSeen_of_small (by omega)⟩
    have decides := @metaMark_decides W env maps p.host p.chain reads (BitVec.ofInt 32 mark) x c marked
    have fits : (BitVec.ofInt 32 mark).toNat < 2 ^ 31 := by omega
    rw [decides.1, decides.2, and_iff_left fits]
    exact ⟨Iff.rfl, Iff.rfl⟩

/-- A program for packets that come in through a traffic control hook. -/
def ingressProgram : BfProgram :=
  bfProgramNew sampleHost (bfChainNew "c" .tcIngress .accept [] []) sampleMaps

theorem ingressProgram_mark (payload : List Byte) :
    (∃ q, bfMatcherGenerate ⟨.metaMark, .eq, payload⟩ ingressProgram = .ok ((), q)) ∧
      ∃ r, bfMatcherGenerate ⟨.metaMark, .ne, payload⟩ ingressProgram = .ok ((), r) :=
  ⟨⟨_, rfl⟩, ⟨_, rfl⟩⟩

theorem mark5_exact :
    ∃ es fs, bfMatcherGenerate ⟨.metaMark, .eq, leBytes32 5⟩ ingressProgram =
        .ok ((), ingressProgram.append es) ∧
      bfMatcherGenerate ⟨.metaMark, .ne, leBytes32 5⟩ ingressProgram =
        .ok ((), ingressProgram.append fs) ∧
      MarkExact ingressProgram.host ingressProgram.flavor es fs 5 ∧
      MarkSeen ingressProgram.host ingressProgram.chain es 5 := by
  have accepted : bfParseMark 5 [] = .ok (leBytes32 5) := rfl
  obtain ⟨⟨q, eqGenerated⟩, r, neGenerated⟩ := ingressProgram_mark (leBytes32 5)
  obtain ⟨es, fs, rfl, rfl, exact_⟩ :=
    metaMark_exact_iff (bfProgramNew_tracked ..) accepted eqGenerated neGenerated
  exact ⟨es, fs, eqGenerated, neGenerated, exact_.mpr (by decide)⟩

/-- A packet with mark 0x80000000 passes `not 0x80000000`, and not `eq 0x80000000`. -/
theorem mark80000000_not_exact :
    bfParseMark 0x80000000 [] = .ok (leBytes32 0x80000000) ∧
      ∃ es fs, bfMatcherGenerate ⟨.metaMark, .eq, leBytes32 0x80000000⟩ ingressProgram =
          .ok ((), ingressProgram.append es) ∧
        bfMatcherGenerate ⟨.metaMark, .ne, leBytes32 0x80000000⟩ ingressProgram =
          .ok ((), ingressProgram.append fs) ∧
        ¬ Continues (drawEnv 0) sampleMaps es (markCore sampleHost .tc 0x80000000) ∧
        Continues (drawEnv 0) sampleMaps fs (markCore sampleHost .tc 0x80000000) ∧
        ¬ MarkExact ingressProgram.host ingressProgram.flavor es fs 0x80000000 := by
  obtain ⟨⟨q, eqGenerated⟩, r, neGenerated⟩ := ingressProgram_mark (leBytes32 0x80000000)
  have eqEmits := bfMatcherGenerate_emits _ _ q (bfProgramNew_tracked ..) rfl rfl eqGenerated
  have neEmits := bfMatcherGenerate_emits _ _ r (bfProgramNew_tracked ..) rfl rfl neGenerated
  subst eqEmits neEmits
  have marked := markCore_marked sampleHost .tc 0x80000000
  have reads : bfHookToFlavor ingressProgram.chain.hook ≠ .xdp := by decide
  have decides := @metaMark_decides Unit (drawEnv 0) sampleMaps ingressProgram.host
    ingressProgram.chain reads 0x80000000 0x80000000 _ marked
  have big : ¬ ((0x80000000 : BitVec 32) = 0x80000000 ∧
      (0x80000000 : BitVec 32).toNat < 2 ^ 31) := by decide
  refine ⟨rfl, _, _, eqGenerated, neGenerated, fun h => big (decides.1.mp h),
    decides.2.mpr big, fun exact_ => ?_⟩
  exact big (decides.1.mp ((exact_ Unit _ _ _ _ marked).1.mpr rfl))

end Exact

end Bpfilter

/-
# Cgen.Sequencing -- a generated program decides like its chain

`sequence` is what a chain means: rules are tried in order, a rule whose matchers
all match performs its effects, and the first such rule with a terminal verdict
decides; otherwise the policy counter is updated and the policy decides.

The matchers are a parameter.  `MatcherCode` is what is assumed about them: each
one is a piece of code that either falls through or takes a jump registered for
the next rule, and leaves the core in a state given by `outcome`.  Under this
assumption a generated and loaded program, once its prologue is done, returns
the verdict of `sequence` in the state `sequence` ends in
(`bfProgramGenerateWith_sequence`).
-/
import Bpfilter.Cgen.Assembly

namespace Bpfilter

set_option autoImplicit false

open Ebpf

/-! ## What a chain means -/

/-- How a matcher ends: the packet matches, or the rule is over. -/
inductive Matched (W : Type) where
  | yes (c : Core W)
  | no (c : Core W)

def Matched.toEnd {W : Type} : Matched W → End W
  | .yes c => .fall c
  | .no c => .out c

/-- What a matching rule does besides giving its verdict. -/
inductive Effect where
  | mark (value : BitVec 32)
  | log (index : BitVec 32) (headers : BitVec 8)
  | counter (index : BitVec 32)
  deriving DecidableEq, Repr

/-- The effects of a rule, in the order they are performed. -/
def BfRule.effects (rule : BfRule) : List Effect :=
  (rule.mark.map Effect.mark).toList ++
    ((if rule.log ≠ 0 then [.log rule.index rule.log] else []) ++
      (if rule.counters then [.counter rule.index] else []))

section Meaning

variable {W : Type} (env : Env W BfElfstubId) (maps : BfMaps)

/-- Perform an effect: store the mark in the packet, or call a stub with the context
as its first argument. -/
def Effect.perform : Effect → Core W → Core W
  | .mark value, c =>
      let c₁ := c.setReg 1 (c.mem.load (ctxAddr (c.regs 10) .arg) 8)
      let c₂ := c₁.setReg 2 (value.signExtend 64)
      c₂.storeMem (c₂.regs 1 + uSkBuffMark.signExtend 64) 4 (c₂.regs 2)
  | .log index headers, c =>
      let c₁ := c.setReg 1 (ctxAddr (c.regs 10) .arg)
      let c₂ := c₁.setReg 2 (index.signExtend 64)
      let c₃ := c₂.setReg 3 ((headers.setWidth 32).signExtend 64)
      let c₄ := c₃.setReg 4 (c₃.regs 7)
      (c₄.setReg 5 (c₄.regs 8)).call (env.sub .log)
  | .counter index, c =>
      let c₁ := c.setReg 1 (ctxAddr (c.regs 10) .arg)
      let c₂ := c₁.setReg 2 (env.mapAddr maps.cmap)
      (c₂.setReg 3 (index.setWidth 64)).call (env.sub .updateCounters)

def performAll (effects : List Effect) (c : Core W) : Core W :=
  effects.foldl (fun c effect => effect.perform env maps c) c

/-- Try matchers one after the other, until one does not match. -/
def matchAll (outcome : BfMatcher → Core W → Matched W) : List BfMatcher → Core W → Matched W
  | [], c => .yes c
  | m :: ms, c =>
      match outcome m c with
      | .yes c' => matchAll outcome ms c'
      | .no c' => .no c'

/-- What a chain does to a packet: the effects performed, the deciding verdict and the
state it is given in. -/
structure Sequenced (W : Type) where
  effects : List Effect
  verdict : BfVerdict
  core : Core W

/-- The rules in list order; `index` is the counter of the policy. -/
def sequence (outcome : BfMatcher → Core W → Matched W) (index : BitVec 32)
    (policy : BfVerdict) : List BfRule → Core W → Sequenced W
  | [], c => ⟨[.counter index], policy, (Effect.counter index).perform env maps c⟩
  | rule :: rules, c =>
      match matchAll outcome rule.matchers c with
      | .no c' => sequence outcome index policy rules c'
      | .yes c' =>
          let c'' := performAll env maps rule.effects c'
          if rule.verdict.isTerminal then ⟨rule.effects, rule.verdict, c''⟩
          else
            let rest := sequence outcome index policy rules c''
            { rest with effects := rule.effects ++ rest.effects }

end Meaning

/-! ## Matchers as code -/

/-- A matcher generator whose code ends in one of two ways: by falling through, or by a
jump registered for the next rule. -/
structure MatcherCode {W : Type} (env : Env W BfElfstubId) (host : Host) (chain : BfChain)
    (maps : BfMaps) (gen : BfMatcher → Gen Unit) where
  frag : BfMatcher → List Emitted
  outcome : BfMatcher → Core W → Matched W
  emits : AppendsSlots host chain (fun m es => es = frag m) gen
  calls : ∀ m, ∀ e ∈ frag m, e.CallShaped
  runs : ∀ m c, Runs env ((frag m).map (Emitted.link maps)) 0 c (outcome m c).toEnd

/-- Every jump to the next rule fits its 16-bit offset. -/
def JumpsFit (es : List Emitted) : Prop :=
  ∀ k e, es[k]? = some e → e.fixup = some .jmpNextRule → es.length - k - 1 ≤ 32767

theorem jumpsFit_of_length {es : List Emitted} (short : es.length ≤ 32768) : JumpsFit es := by
  intro k e at_ _
  have inside := (List.getElem?_eq_some_iff.mp at_).1
  omega

/-- The slots of a rule, its jumps still open. -/
def ruleSlots (frag : BfMatcher → List Emitted) (flavor : BfFlavor) (rule : BfRule) :
    List Emitted :=
  rule.matchers.flatMap frag ++ actionSlots flavor rule

theorem matcherSlots_flatMap {frag : BfMatcher → List Emitted} {ms : List BfMatcher}
    {es : List Emitted} (slots : MatcherSlots (fun m es => es = frag m) ms es) :
    es = ms.flatMap frag := by
  induction slots with
  | nil => rfl
  | cons head _ ih => rw [head, ih, List.flatMap_cons]

theorem ruleSlots_of_related {frag : BfMatcher → List Emitted} {flavor : BfFlavor} {rule : BfRule}
    {es : List Emitted} (slots : RuleSlots (fun m es => es = frag m) flavor rule es) :
    es = ruleSlots frag flavor rule := by
  obtain ⟨ms, related, rfl⟩ := slots
  rw [matcherSlots_flatMap related, ruleSlots]

/-! ## Filled jumps -/

theorem getElem?_fillNext (es : List Emitted) (k : Nat) :
    (fillNext es)[k]? = es[k]?.map fun e =>
      if e.fixup = some .jmpNextRule then jumpSlot e.insn (es.length - k - 1) else e := by
  induction es generalizing k with
  | nil => rfl
  | cons e es ih =>
      cases k with
      | zero => simp [fillNext]
      | succ k =>
          rw [fillNext, List.getElem?_cons_succ, ih, List.getElem?_cons_succ, List.length_cons,
            Nat.add_sub_add_right]

/-- An image with the filled slots of a rule contains the open ones, their jumps going
to the end of the rule. -/
theorem embedded_of_fillNext {img : Image BfElfstubId} {maps : BfMaps} {base target : Nat}
    {es : List Emitted} (fits : JumpsFit es)
    (emb : Embedded img base target ((fillNext es).map (Emitted.link maps)))
    (lands : target = base + es.length) :
    Embedded img base target (es.map (Emitted.link maps)) := by
  intro k it fetch
  rw [List.getElem?_map, Option.map_eq_some_iff] at fetch
  obtain ⟨e, at_, rfl⟩ := fetch
  have inside := (List.getElem?_eq_some_iff.mp at_).1
  obtain ⟨i, there, filled⟩ := emb k _ (by
    rw [List.getElem?_map, getElem?_fillNext, at_]
    rfl)
  simp only at filled
  refine ⟨i, there, ?_⟩
  by_cases isOpen : e.fixup = some .jmpNextRule
  · have short := fits k e at_ isOpen
    simp only [if_pos isOpen, jumpSlot, Emitted.link, Item.Filled] at filled
    subst filled
    have offset : (BitVec.ofNat 16 (es.length - k - 1)).toInt = (es.length - k - 1 : Nat) := by
      have low : (BitVec.ofNat 16 (es.length - k - 1)).toNat = es.length - k - 1 := by
        rw [BitVec.toNat_ofNat, Nat.mod_eq_of_lt (by omega)]
      rw [BitVec.toInt_eq_toNat_of_lt (by omega), low]
    simp only [Emitted.link, isOpen, Item.Filled, setOff, offset, true_and]
    omega
  · rwa [if_neg isOpen] at filled

/-! ## Effects as code -/

section Code

variable {W : Type} {env : Env W BfElfstubId} {maps : BfMaps}

theorem eval_mark (value : BitVec 32) (c : Core W) :
    eval env 0 ((markSlots (some value)).map (Emitted.link maps)) c =
      .fall 0 ((Effect.mark value).perform env maps c) := by
  simp only [Effect.perform, ← add_ctxOff]
  rfl

/-- The context as the first argument: a move and an addition. -/
theorem setReg_ctx (c : Core W) (field : RuntimeField) :
    (c.setReg 1 (c.regs 10)).setReg 1
        ((c.setReg 1 (c.regs 10)).regs 1 + (ctxImm field).signExtend 64) =
      c.setReg 1 (ctxAddr (c.regs 10) field) := by
  rw [Core.setReg_setReg, Core.setReg_regs, if_pos rfl, add_ctxImm]

theorem eval_log (rule : BfRule) (c : Core W) :
    eval env 0 ((logSlots rule).map (Emitted.link maps)) c =
      .fall 0 ((Effect.log rule.index rule.log).perform env maps c) := by
  simp only [Effect.perform, ← setReg_ctx]
  rfl

theorem eval_counter (index : BitVec 32) (c : Core W) :
    eval env 0 ((updateCountersSlots index).map (Emitted.link maps)) c =
      .fall 0 ((Effect.counter index).perform env maps c) := by
  have index64 : index.setWidth 64 = ((index.signExtend 64).setWidth 32).setWidth 64 := by
    rw [setWidth_signExtend]
  simp only [Effect.perform, ← setReg_ctx, index64]
  rfl

theorem eval_verdict (code : BitVec 32) (c : Core W) :
    eval env 0 ((verdictSlots code).map (Emitted.link maps)) c =
      .exit (c.setReg 0 (code.signExtend 64)) := rfl

/-- The code behind the matchers performs the effects of the rule, then returns its
verdict if it is terminal. -/
theorem eval_actions (env : Env W BfElfstubId) (maps : BfMaps) (flavor : BfFlavor) (rule : BfRule)
    (c : Core W) :
    eval env 0 ((actionSlots flavor rule).map (Emitted.link maps)) c =
      if rule.verdict.isTerminal then
        .exit ((performAll env maps rule.effects c).setReg 0
          ((verdictCode flavor rule.verdict).signExtend 64))
      else .fall 0 (performAll env maps rule.effects c) := by
  have mark : ∀ d, eval env 0 ((markSlots rule.mark).map (Emitted.link maps)) d =
      .fall 0 (performAll env maps (rule.mark.map Effect.mark).toList d) := by
    intro d
    cases rule.mark with
    | none => rfl
    | some value => exact eval_mark value d
  have log : ∀ d, eval env 0
      ((if rule.log ≠ 0 then logSlots rule else []).map (Emitted.link maps)) d =
      .fall 0 (performAll env maps
        (if rule.log ≠ 0 then [.log rule.index rule.log] else []) d) := by
    intro d
    split
    · exact eval_log rule d
    · rfl
  have counter : ∀ d, eval env 0
      ((if rule.counters then updateCountersSlots rule.index else []).map (Emitted.link maps)) d =
      .fall 0 (performAll env maps (if rule.counters then [.counter rule.index] else []) d) := by
    intro d
    split
    · exact eval_counter rule.index d
    · rfl
  rw [actionSlots, List.map_append, eval_append_fall _ (mark c), List.map_append,
    eval_append_fall _ (log _), List.map_append, eval_append_fall _ (counter _)]
  simp only [BfRule.effects, performAll, List.foldl_append]
  split
  · exact eval_verdict _ _
  · rfl

end Code

/-! ## Simulation -/

section Simulation

variable {W : Type} {env : Env W BfElfstubId} {host : Host} {chain : BfChain} {maps : BfMaps}
  {gen : BfMatcher → Gen Unit} (code : MatcherCode env host chain maps gen)
  {img : Image BfElfstubId}

/-- The matchers of a rule: all match and control gets behind them, or control leaves
through a jump to the next rule. -/
theorem matchers_simulated (ms : List BfMatcher) {base target : Nat} (c : Core W)
    (emb : Embedded img base target ((ms.flatMap code.frag).map (Emitted.link maps))) :
    match matchAll code.outcome ms c with
    | .yes c' => Reaches env img (base, c) (base + (ms.flatMap code.frag).length, c')
    | .no c' => Reaches env img (base, c) (target, c') := by
  induction ms generalizing base c with
  | nil => exact Relation.ReflTransGen.refl
  | cons m ms ih =>
      rw [List.flatMap_cons, List.map_append] at emb
      have first := (code.runs m c).simulated emb.append_left
      have rest := emb.append_right
      rw [List.length_map] at first rest
      simp only [matchAll]
      cases out : code.outcome m c with
      | yes c' =>
          rw [out] at first
          have tail := ih c' rest
          simp only
          split
          · rename_i c'' all
            rw [all] at tail
            rw [List.flatMap_cons, List.length_append, ← Nat.add_assoc]
            exact first.trans tail
          · rename_i c'' failed
            rw [failed] at tail
            exact first.trans tail
      | no c' =>
          rw [out] at first
          exact first

/-- One rule: nothing when it does not match; otherwise its effects, and then the next
rule or its verdict. -/
theorem rule_simulated (flavor : BfFlavor) (rule : BfRule) {base : Nat} (c : Core W)
    (emb : Embedded img base (base + (ruleSlots code.frag flavor rule).length)
      ((ruleSlots code.frag flavor rule).map (Emitted.link maps))) :
    match matchAll code.outcome rule.matchers c with
    | .no c' =>
        Reaches env img (base, c) (base + (ruleSlots code.frag flavor rule).length, c')
    | .yes c' =>
        if rule.verdict.isTerminal then
          Returns env img base c ((performAll env maps rule.effects c').setReg 0
            ((verdictCode flavor rule.verdict).signExtend 64))
        else Reaches env img (base, c) (base + (ruleSlots code.frag flavor rule).length,
          performAll env maps rule.effects c') := by
  have split : (ruleSlots code.frag flavor rule).length =
      (rule.matchers.flatMap code.frag).length + (actionSlots flavor rule).length := by
    rw [ruleSlots, List.length_append]
  have whole := emb
  rw [ruleSlots, List.map_append] at whole
  have matchers := matchers_simulated code rule.matchers c whole.append_left
  have actionsEmb := whole.append_right
  rw [List.length_map] at actionsEmb
  cases all : matchAll code.outcome rule.matchers c with
  | no c' =>
      rw [all] at matchers
      simpa only [ruleSlots] using matchers
  | yes c' =>
      rw [all] at matchers
      have actions := eval_actions env maps flavor rule c'
      simp only
      split_ifs with terminal
      · rw [if_pos terminal] at actions
        have exits := (runs_of_eval (e := .exit _) (by rw [actions]; rfl)).simulated actionsEmb
        exact Returns.of_reaches matchers exits
      · rw [if_neg terminal] at actions
        have falls := (runs_of_eval (e := .fall _) (by rw [actions]; rfl)).simulated actionsEmb
        rw [End.Reached, List.length_map, Nat.add_zero] at falls
        rw [split, ← Nat.add_assoc]
        exact matchers.trans falls

/-- The policy decides when no rule has. -/
theorem policy_simulated {base target : Nat} (c : Core W)
    (emb : Embedded img base target ((policySlots chain).map (Emitted.link maps))) :
    Returns env img base c
      (((Effect.counter (BitVec.ofNat 32 chain.rules.length)).perform env maps c).setReg 0
        ((verdictCode (bfHookToFlavor chain.hook) chain.policy).signExtend 64)) := by
  refine (runs_of_eval (e := .exit _) ?_).simulated emb
  rw [policySlots, List.map_append, eval_append_fall _ (eval_counter _ c), eval_verdict]
  rfl

/-- The state a program returns in. -/
def Sequenced.final (flavor : BfFlavor) (s : Sequenced W) : Core W :=
  s.core.setReg 0 ((verdictCode flavor s.verdict).signExtend 64)

/-- **The rule loop.**  From the first instruction of the remaining rules, the program
does what `sequence` does with them. -/
theorem rules_simulated (rules : List BfRule)
    (fits : ∀ rule ∈ rules, JumpsFit (ruleSlots code.frag (bfHookToFlavor chain.hook) rule))
    {base : Nat} (c : Core W)
    (emb : ∀ target, Embedded img base target
      (((rules.map fun rule =>
        fillNext (ruleSlots code.frag (bfHookToFlavor chain.hook) rule)).flatten ++
          policySlots chain).map (Emitted.link maps))) :
    Returns env img base c
      ((sequence env maps code.outcome (BitVec.ofNat 32 chain.rules.length) chain.policy
        rules c).final (bfHookToFlavor chain.hook)) := by
  induction rules generalizing base c with
  | nil => exact policy_simulated c (emb 0)
  | cons rule rules ih =>
      have apart : ∀ target, Embedded img base target
          ((fillNext (ruleSlots code.frag (bfHookToFlavor chain.hook) rule)).map
            (Emitted.link maps) ++
          ((rules.map fun rule =>
            fillNext (ruleSlots code.frag (bfHookToFlavor chain.hook) rule)).flatten ++
              policySlots chain).map (Emitted.link maps)) := by
        intro target
        have whole := emb target
        rwa [List.map_cons, List.flatten_cons, List.append_assoc, List.map_append] at whole
      have here := rule_simulated code (bfHookToFlavor chain.hook) rule c
        (embedded_of_fillNext (fits rule (by simp)) (apart _).append_left rfl)
      have later : ∀ d, Returns env img
          (base + (ruleSlots code.frag (bfHookToFlavor chain.hook) rule).length) d _ := fun d =>
        ih (fun r mem => fits r (by simp [mem])) d (fun target => by
          have rest := (apart target).append_right
          rwa [List.length_map, fillNext_length] at rest)
      simp only [sequence]
      cases all : matchAll code.outcome rule.matchers c with
      | no c' =>
          rw [all] at here
          exact Returns.of_reaches here (later c')
      | yes c' =>
          rw [all] at here
          simp only at here ⊢
          split_ifs with terminal
          · rw [if_pos terminal] at here
            exact here
          · rw [if_neg terminal] at here
            exact Returns.of_reaches here (later _)

/-- A deciding verdict is terminal when the policy is. -/
theorem sequence_terminal (outcome : BfMatcher → Core W → Matched W) (index : BitVec 32)
    {policy : BfVerdict} (terminal : policy.isTerminal = true) (rules : List BfRule) (c : Core W) :
    (sequence env maps outcome index policy rules c).verdict.isTerminal = true := by
  induction rules generalizing c with
  | nil => exact terminal
  | cons rule rules ih =>
      simp only [sequence]
      split
      · exact ih _
      · split
        · assumption
        · exact ih _

end Simulation

/-! ## Whole programs -/

section Programs

variable {W : Type} {env : Env W BfElfstubId} {host : Host} {chain : BfChain} {maps : BfMaps}
  {gen : BfMatcher → Gen Unit}

/-- The position of the first rule. -/
def rulesStart (host : Host) (chain : BfChain) (maps : BfMaps) : Nat :=
  (headSlots (bfProgramNew host chain maps)).length

theorem callShaped_fillNext {es : List Emitted} (shaped : ∀ e ∈ es, e.CallShaped) :
    ∀ e ∈ fillNext es, e.CallShaped := by
  induction es with
  | nil => simp [fillNext]
  | cons e es ih =>
      intro e' mem
      rcases List.mem_cons.mp mem with rfl | mem
      · split
        · rintro id ⟨⟩
        · exact shaped e (by simp)
      · exact ih (fun e mem => shaped e (by simp [mem])) e' mem

theorem callShaped_of_settled {es : List Emitted} (settled : es.all Emitted.settled = true) :
    ∀ e ∈ es, e.CallShaped := fun e mem =>
  Emitted.callShaped_of_sound (Emitted.sound_of_settled (List.all_eq_true.mp settled e mem))

/-- The stub fixups of a program are on call instructions if those of the matchers are. -/
theorem callShaped_programSlots {frag : BfMatcher → List Emitted} (p : BfProgram)
    (calls : ∀ m, ∀ e ∈ frag m, e.CallShaped) (rules : List BfRule) :
    ∀ e ∈ programSlots p (rules.map (ruleSlots frag p.flavor)), e.CallShaped := by
  intro e mem
  simp only [programSlots, List.mem_append, List.mem_flatten, List.mem_map] at mem
  rcases mem with head | ⟨es, ⟨_, ⟨rule, -, rfl⟩, rfl⟩, inRule⟩ | policy
  · exact callShaped_of_settled (settled_headSlots p) e head
  · refine callShaped_fillNext (fun e mem => ?_) e inRule
    rcases List.mem_append.mp mem with inMatchers | inActions
    · obtain ⟨m, -, mem⟩ := List.mem_flatMap.mp inMatchers
      exact calls m e mem
    · exact callShaped_of_settled (settled_actionSlots _ rule) e inActions
  · exact callShaped_of_settled (settled_policySlots _) e policy

theorem forall₂_ruleSlots {frag : BfMatcher → List Emitted} {flavor : BfFlavor}
    {rules : List BfRule} {blocks : List (List Emitted)}
    (related : List.Forall₂ (RuleSlots (fun m es => es = frag m) flavor) rules blocks) :
    blocks = rules.map (ruleSlots frag flavor) := by
  induction related with
  | nil => rfl
  | cons head _ ih => rw [ruleSlots_of_related head, ih, List.map_cons]

/-- **Rule sequencing.**  A generated and loaded program whose prologue has reached the
rules returns the verdict of the first matching terminal rule, or of the policy, after
the effects of the rules that matched before it. -/
theorem bfProgramGenerateWith_sequence (code : MatcherCode env host chain maps gen)
    (compiled : host.StubsCompiled)
    (fits : ∀ rule ∈ chain.rules, JumpsFit (ruleSlots code.frag (bfHookToFlavor chain.hook) rule))
    {q r : BfProgram}
    (generated : bfProgramGenerateWith gen (bfProgramNew host chain maps) = .ok ((), q))
    (loaded : bfProgramLoadFixups q = .ok ((), r)) {c₀ c : Core W}
    (prologue : Reaches env r.image (0, c₀) (rulesStart host chain maps, c)) :
    ∃ s verdict, s = sequence env maps code.outcome (BitVec.ofNat 32 chain.rules.length)
        chain.policy chain.rules c ∧
      bfGetVerdict (bfHookToFlavor chain.hook) s.verdict = some verdict ∧
      Returns env r.image 0 c₀ (s.core.setReg 0 (verdict.signExtend 64)) := by
  obtain ⟨blocks, made⟩ := bfProgramGenerateWith_spec code.emits generated
  have blocksEq : blocks = chain.rules.map (ruleSlots code.frag (bfHookToFlavor chain.hook)) :=
    forall₂_ruleSlots made.rules
  have shaped : ∀ e ∈ programSlots (bfProgramNew host chain maps) blocks, e.CallShaped := by
    rw [blocksEq]
    exact callShaped_programSlots _ code.calls chain.rules
  refine ⟨_, _, rfl, bfGetVerdict_of_isTerminal _ (sequence_terminal _ _ made.policy _ _), ?_⟩
  refine Returns.of_reaches prologue (rules_simulated code chain.rules fits c fun target => ?_)
  have emb := programSlots_embedded compiled made shaped loaded target
  rw [programSlots, List.map_append] at emb
  have rest := emb.append_right
  rw [Nat.zero_add, List.length_map, blocksEq, List.map_map] at rest
  exact rest

/-! A chain of two rules on an XDP program: both match IPv4 packets, the first one only
counts them, the second one drops them. -/

def sampleStub : BfElfstub := ⟨[bpfMov64Imm 0 0, bpfExitInsn], []⟩

def sampleHost : Host where
  btfGetFieldOff _ := .ok 0
  btfGetId
    | .bpfDynptrSlice => .ok 2
    | _ => .ok 1
  getElfstub _ := some sampleStub
  verboseBpf := false
  ndebug := false

def sampleMaps : BfMaps := ⟨3, 4, 5, []⟩

/-- Packets are at address 4096; the world counts counter updates. -/
def sampleEnv : Env Nat BfElfstubId where
  helper _ a m w := ⟨0, a, m, w⟩
  kfunc id a m w := ⟨if id = 2 then 4096 else 0, a, m, w⟩
  sub id a m w := ⟨0, a, m, if id = .updateCounters then w + 1 else w⟩
  mapAddr fd := fd.setWidth 64
  mapValueAddr fd _ := fd.setWidth 64

/-- An IPv4 packet of unknown protocol. -/
def sampleCore : Core Nat where
  regs r := if r = 10 then 8192 else 0
  mem a := if a = 4108 then 8 else 0
  world := 0

def ipv4Jump : BpfInsn := bpfJmpImm .ne 7 ((htobe16 ethPIp).setWidth 32) 0

def ipv4Code (chain : BfChain) :
    MatcherCode sampleEnv sampleHost chain sampleMaps fun _ => emitFixupJmpNextRule ipv4Jump where
  frag _ := [nextSlot ipv4Jump]
  outcome _ c := if ipv4Jump.taken c then .no c else .yes c
  emits _ p p' _ _ _ ran := by
    cases (emitFixup_eq .jmpNextRule ipv4Jump p).symm.trans ran
    exact ⟨_, rfl, rfl⟩
  calls _ e mem := by
    rw [List.mem_singleton.mp mem]
    exact Emitted.callShaped_of_sound rfl
  runs _ c := by
    refine runs_of_eval ?_
    cases taken : ipv4Jump.taken c <;>
      simp [eval, nextSlot, Emitted.link, Item.exec, taken, Matched.toEnd, Eval.end?,
        show ipv4Jump.isJump = true from rfl]

def sampleChain : BfChain :=
  bfChainNew "sample" .xdp .accept []
    [{ matchers := [⟨.metaL3Proto, .eq, [0, 8]⟩], counters := true, verdict := .continue },
      { matchers := [⟨.metaL3Proto, .eq, [0, 8]⟩], verdict := .drop }]

/-- The program a generator leaves, when it succeeds. -/
def resultOf (gen : Gen Unit) (p : BfProgram) : BfProgram :=
  match gen p with
  | .ok (_, q) => q
  | .error _ => p

theorem gen_resultOf {gen : Gen Unit} {p : BfProgram} (ok : (gen p).isOk = true) :
    gen p = .ok ((), resultOf gen p) := by
  unfold resultOf
  cases ran : gen p with
  | error e => simp [ran, Except.isOk, Except.toBool] at ok
  | ok r => rfl

def sampleGenerated : BfProgram :=
  resultOf (bfProgramGenerateWith fun _ => emitFixupJmpNextRule ipv4Jump)
    (bfProgramNew sampleHost sampleChain sampleMaps)

def sampleLoaded : BfProgram := resultOf bfProgramLoadFixups sampleGenerated

/-- The state in which the sample packet gets to the rules. -/
def sampleReached : Core Nat :=
  ((stepN sampleEnv sampleLoaded.image 55 (0, sampleCore)).map (·.2)).getD sampleCore

theorem sampleLoaded_prologue : Reaches sampleEnv sampleLoaded.image (0, sampleCore)
    (rulesStart sampleHost sampleChain sampleMaps, sampleReached) := by
  have position : (stepN sampleEnv sampleLoaded.image 55 (0, sampleCore)).map (·.1) =
      some (rulesStart sampleHost sampleChain sampleMaps) := by decide +kernel
  refine reaches_of_stepN (n := 55) ?_
  unfold sampleReached
  revert position
  generalize stepN sampleEnv sampleLoaded.image 55 (0, sampleCore) = state
  intro position
  cases state with
  | none => simp at position
  | some x =>
      simp only [Option.map_some, Option.some.injEq] at position
      rw [← position]
      simp only [Option.map_some, Option.getD_some]

/-- The second rule of the sample chain decides: `XDP_DROP`. -/
theorem bfProgramGenerateWith_sequence_drop :
    ∃ final : Core Nat, Returns sampleEnv sampleLoaded.image 0 sampleCore final ∧
      final.regs 0 = 1 := by
  have compiled : sampleHost.StubsCompiled := by
    rintro id stub ⟨⟩
    exact ⟨by decide, by decide⟩
  have short : ∀ rule ∈ sampleChain.rules,
      (ruleSlots (ipv4Code sampleChain).frag (bfHookToFlavor sampleChain.hook) rule).length ≤
        32768 := by decide +kernel
  obtain ⟨s, verdict, meaning, code, returns⟩ :=
    bfProgramGenerateWith_sequence (ipv4Code sampleChain) compiled
      (fun rule mem => jumpsFit_of_length (short rule mem)) (gen_resultOf (by decide +kernel))
      (gen_resultOf (by decide +kernel)) sampleLoaded_prologue
  have drops : s.verdict = .drop := by
    rw [meaning]
    decide +kernel
  rw [drops] at code
  cases code
  exact ⟨_, returns, rfl⟩

end Programs

end Bpfilter

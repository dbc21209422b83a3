/-
# Cgen.Rules -- the code of the rules and of the policy

While a rule is emitted its jumps to the next rule stay open; when the rule is
complete, `_bf_program_fixup` fills them.  On the slots of one rule this is
`fillNext`: every open jump gets the number of slots behind it
(`bfProgramFixup_jmpNextRule`).  A generated program is then one list of slots,
`programSlots`: the head, the filled rules one after the other, the policy
(`generateRules_spec`).

What the matchers emit is left open: the results hold for any matcher generator
that only appends slots (`AppendsSlots`), with any relation between a matcher and
its slots.
-/
import Bpfilter.Cgen.Head

namespace Bpfilter

set_option autoImplicit false

open Ebpf

/-! ## Filling the jumps of a rule -/

/-- Fill every open jump with the number of slots behind it. -/
def fillNext : List Emitted → List Emitted
  | [] => []
  | e :: es =>
      (if e.fixup = some .jmpNextRule then jumpSlot e.insn es.length else e) :: fillNext es

@[simp] theorem fillNext_length (es : List Emitted) : (fillNext es).length = es.length := by
  induction es with
  | nil => rfl
  | cons e es ih => simp [fillNext, ih]

theorem fixupsFrom_fillNext (base : Nat) (es : List Emitted) :
    fixupsFrom base (fillNext es) =
      (fixupsFrom base es).filter (fun f => f.kind.type != .jmpNextRule) := by
  induction es generalizing base with
  | nil => rfl
  | cons e es ih =>
      cases kind : e.fixup with
      | none => simp [fillNext, fixupsFrom, kind, ih]
      | some k => cases k <;> simp [fillNext, fixupsFrom, kind, jumpSlot, ih, BfFixupKind.type]

/-- `p` with another list of fixups. -/
def BfProgram.withFixups (p : BfProgram) (fixups : List BfFixup) : BfProgram :=
  { p with fixups }

/-- No jump to the next rule is open. -/
def BfProgram.NoneOpen (p : BfProgram) : Prop := ∀ f ∈ p.fixups, f.kind.type ≠ .jmpNextRule

/-- What filling one open jump checks when assertions are on. -/
def JumpAsserted (insn : BpfInsn) (distance : Nat) : Prop :=
  insn.off = 0 ∧ (BitVec.ofNat 32 distance).toInt < shrtMax

theorem bfProgramFixupInsn_off_inv {ndebug : Bool} {insn patched : BpfInsn} {distance : Nat}
    (ran : bfProgramFixupInsn ndebug insn .off (BitVec.ofNat 32 distance) = .ok patched) :
    patched = setOff insn distance ∧ (ndebug = false → JumpAsserted insn distance) := by
  simp only [bfProgramFixupInsn] at ran
  split at ran
  · cases ran
  · rename_i fresh
    split at ran
    · cases ran
    · rename_i short
      cases ran
      refine ⟨?_, ?_⟩
      · simp [setOff, BitVec.setWidth_ofNat_of_le]
      · intro debug
        simp only [debug, Bool.not_false, Bool.true_and, bne_iff_ne, ne_eq, not_not] at fresh
        simp only [debug, Bool.not_false, Bool.true_and, Bool.not_eq_true',
          decide_eq_false_iff_not, not_not] at short
        exact ⟨fresh, short⟩

/-- The open jumps of `es` passed their assertions. -/
def OpenAsserted : List Emitted → Prop
  | [] => True
  | e :: es => (e.fixup = some .jmpNextRule → JumpAsserted e.insn es.length) ∧ OpenAsserted es

theorem foldlM_skip {type : BfFixupType} {p : BfProgram} (fixups : List BfFixup)
    (other : ∀ f ∈ fixups, f.kind.type ≠ type) :
    fixups.foldlM (bfProgramFixupOne type) p = .ok p := by
  induction fixups with
  | nil => rfl
  | cons f fs ih =>
      have skip : bfProgramFixupOne type p f = .ok p := by
        simp [bfProgramFixupOne, other f (by simp)]
      rw [List.foldlM_cons, skip]
      exact ih (fun g mem => other g (by simp [mem]))

/-- One open jump in the middle of the slots. -/
theorem bfProgramFixupOne_open {p q : BfProgram} (tracked : p.Tracked) (fixups : List BfFixup)
    (done rest : List Emitted) (e : Emitted)
    (ran : bfProgramFixupOne .jmpNextRule
      ((p.append (done ++ e :: rest)).withFixups fixups)
      ⟨.jmpNextRule, p.img.length + done.length⟩ = .ok q) :
    q = (p.append (done ++ jumpSlot e.insn rest.length :: rest)).withFixups fixups ∧
      (p.host.ndebug = false → JumpAsserted e.insn rest.length) := by
  have fetch : ((p.append (done ++ e :: rest)).withFixups fixups).img[p.img.length + done.length]? =
      some e.insn := by
    simp [BfProgram.withFixups]
  have distance : ((p.append (done ++ e :: rest)).withFixups fixups).img.length -
      (p.img.length + done.length) - 1 = rest.length := by
    simp [BfProgram.withFixups]; omega
  simp only [bfProgramFixupOne, BfFixupKind.type, if_true, fetch, bfProgramFixupValue,
    distance] at ran
  split at ran
  · cases ran
  · rename_i patched patch
    obtain ⟨rfl, asserted⟩ := bfProgramFixupInsn_off_inv patch
    cases ran
    refine ⟨?_, asserted⟩
    have image : (p.img ++ (done ++ e :: rest).map (·.insn)).set (p.img.length + done.length)
        (setOff e.insn rest.length) =
        p.img ++ (done ++ jumpSlot e.insn rest.length :: rest).map (·.insn) := by
      rw [List.set_append_right _ _ (by omega), Nat.add_sub_cancel_left]
      simp [jumpSlot]
    have record : (p.closed ++ closedFrom p.img.length (done ++ e :: rest)).set
        (p.img.length + done.length) (some (p.img ++ (done ++ e :: rest).map (·.insn)).length) =
        p.closed ++ closedFrom p.img.length (done ++ jumpSlot e.insn rest.length :: rest) := by
      rw [List.set_append_right _ _ (by rw [tracked]; omega), tracked, Nat.add_sub_cancel_left,
        closedFrom_append, closedFrom_append,
        List.set_append_right _ _ (by rw [closedFrom_length]), closedFrom_length, Nat.sub_self]
      simp only [closedFrom, List.set_cons_zero, jumpSlot, Option.map_some]
      congr 4
      simp; omega
    simp only [BfProgram.withFixups, BfProgram.append, image, record]

/-- The loop of `_bf_program_fixup` over the slots of a rule. -/
theorem foldlM_open {p q : BfProgram} (tracked : p.Tracked) (fixups : List BfFixup)
    (done es : List Emitted)
    (ran : (fixupsFrom (p.img.length + done.length) es).foldlM
      (bfProgramFixupOne .jmpNextRule) ((p.append (done ++ es)).withFixups fixups) = .ok q) :
    q = (p.append (done ++ fillNext es)).withFixups fixups ∧
      (p.host.ndebug = false → OpenAsserted es) := by
  induction es generalizing done with
  | nil =>
      cases ran
      exact ⟨by simp [fillNext], fun _ => trivial⟩
  | cons e es ih =>
      -- the slot is left alone unless it is an open jump
      have keep : e.fixup ≠ some .jmpNextRule →
          (fixupsFrom (p.img.length + (done ++ [e]).length) es).foldlM
            (bfProgramFixupOne .jmpNextRule)
            ((p.append ((done ++ [e]) ++ es)).withFixups fixups) = .ok q →
          q = (p.append (done ++ fillNext (e :: es))).withFixups fixups ∧
            (p.host.ndebug = false → OpenAsserted (e :: es)) := by
        intro other tail
        obtain ⟨rfl, asserted⟩ := ih _ tail
        refine ⟨by simp [fillNext, other], fun debug =>
          ⟨fun isOpen => absurd isOpen other, asserted debug⟩⟩
      have shift : p.img.length + done.length + 1 = p.img.length + (done ++ [e]).length := by
        simp; omega
      have split : done ++ e :: es = (done ++ [e]) ++ es := by simp
      cases kind : e.fixup with
      | none =>
          simp only [fixupsFrom, kind] at ran
          rw [shift, split] at ran
          exact keep (by simp [kind]) ran
      | some k =>
          simp only [fixupsFrom, kind, List.foldlM_cons] at ran
          by_cases isOpen : k = .jmpNextRule
          · subst isOpen
            cases one : bfProgramFixupOne .jmpNextRule
                ((p.append (done ++ e :: es)).withFixups fixups)
                ⟨.jmpNextRule, p.img.length + done.length⟩ with
            | error err => rw [one] at ran; cases ran
            | ok q' =>
                obtain ⟨rfl, first⟩ := bfProgramFixupOne_open tracked fixups done es e one
                simp only [one, bind, Except.bind] at ran
                have tail := ih (done ++ [jumpSlot e.insn es.length]) (by
                  simpa [shift, Nat.add_assoc] using ran)
                refine ⟨by simpa [fillNext, kind] using tail.1, ?_⟩
                exact fun debug => ⟨fun _ => first debug, tail.2 debug⟩
          · have typed : k.type ≠ .jmpNextRule := by
              intro same
              apply isOpen
              cases k <;> first | rfl | cases same
            have skip : bfProgramFixupOne .jmpNextRule
                ((p.append (done ++ e :: es)).withFixups fixups)
                ⟨k, p.img.length + done.length⟩ =
                .ok ((p.append (done ++ e :: es)).withFixups fixups) := by
              simp [bfProgramFixupOne, typed]
            simp only [skip, bind, Except.bind] at ran
            refine keep (by simp [kind, isOpen]) ?_
            simpa [shift, Nat.add_assoc] using ran

/-- **Closing a rule.**  When nothing was open before, the fixup pass fills the jumps
of the slots just appended and leaves everything else alone. -/
theorem bfProgramFixup_jmpNextRule {p q : BfProgram} (tracked : p.Tracked) (none : p.NoneOpen)
    (es : List Emitted) (ran : bfProgramFixup .jmpNextRule (p.append es) = .ok ((), q)) :
    q = p.append (fillNext es) ∧ (p.host.ndebug = false → OpenAsserted es) := by
  have start : (p.append es).fixups = p.fixups ++ fixupsFrom p.img.length es := rfl
  unfold bfProgramFixup at ran
  rw [start, List.foldlM_append, foldlM_skip p.fixups none] at ran
  split at ran
  · cases ran
  · rename_i r loop
    cases ran
    have body := foldlM_open tracked (p.fixups ++ fixupsFrom p.img.length es) [] es loop
    refine ⟨?_, body.2⟩
    have kept : (p.fixups ++ fixupsFrom p.img.length es).filter
        (fun f => f.kind.type != .jmpNextRule) =
        p.fixups ++ fixupsFrom p.img.length (fillNext es) := by
      rw [List.filter_append, fixupsFrom_fillNext, List.filter_eq_self.mpr]
      intro f mem
      simpa using none f mem
    rw [body.1, kept]
    rfl

/-! ## Actions -/

/-- Set the mark of the packet: only TC and cgroup programs can. -/
def markSlots : Option (BitVec 32) → List Emitted
  | none => []
  | some mark =>
      [bpfLdxMem .dw 1 10 (ctxOff .arg), bpfMov64Imm 2 mark, bpfStxMem .w 1 2 uSkBuffMark]

def logSlots (rule : BfRule) : List Emitted :=
  [bpfMov64Reg 1 10, bpfAlu64Imm .add 1 (ctxImm .arg), bpfMov64Imm 2 rule.index,
    bpfMov64Imm 3 (rule.log.setWidth 32), bpfMov64Reg 4 7, bpfMov64Reg 5 8, callSlot .log]

/-- The code of a terminal verdict. -/
def verdictCode (flavor : BfFlavor) (verdict : BfVerdict) : BitVec 32 :=
  (bfGetVerdict flavor verdict).getD 0

theorem bfGetVerdict_of_isTerminal (flavor : BfFlavor) {verdict : BfVerdict}
    (terminal : verdict.isTerminal = true) :
    bfGetVerdict flavor verdict = some (verdictCode flavor verdict) := by
  cases verdict <;> cases flavor <;> first | rfl | cases terminal

/-- What a rule emits behind its matchers. -/
def actionSlots (flavor : BfFlavor) (rule : BfRule) : List Emitted :=
  markSlots rule.mark ++
    ((if rule.log ≠ 0 then logSlots rule else []) ++
      ((if rule.counters then updateCountersSlots rule.index else []) ++
        (if rule.verdict.isTerminal then verdictSlots (verdictCode flavor rule.verdict) else [])))

theorem generateMark_spec {mark : Option (BitVec 32)} {p p' : BfProgram}
    (ran : generateMark mark p = .ok ((), p')) : p' = p.append (markSlots mark) := by
  cases mark with
  | none =>
      cases ran
      simp [markSlots]
  | some mark =>
      simp only [generateMark, gen_bind, gen_get] at ran
      cases kind : p.flavor <;>
        simp [kind, bfFlavorOpsGet, gen_throw, uSkBuffGenInlineSetMark, gen_bind, emit_eq] at ran <;>
        exact ran.symm

theorem generateLog_eq (rule : BfRule) (p : BfProgram) :
    generateLog rule p = .ok ((), p.append (logSlots rule)) := by
  simp only [generateLog, gen_bind, emit_eq, emitFixupElfstub, emitFixup_eq,
    BfProgram.append_append]
  rfl

theorem generateVerdict_eq (verdict : BfVerdict) (p : BfProgram) :
    generateVerdict verdict p =
      .ok ((), p.append
        (if verdict.isTerminal then verdictSlots (verdictCode p.flavor verdict) else [])) := by
  cases verdict with
  | accept => exact emitVerdict_eq (bfGetVerdict_of_isTerminal _ rfl)
  | drop => exact emitVerdict_eq (bfGetVerdict_of_isTerminal _ rfl)
  | «continue» => simp [generateVerdict, gen_pure, BfVerdict.isTerminal]

theorem generateActions_spec {rule : BfRule} {p p' : BfProgram}
    (ran : generateActions rule p = .ok ((), p')) :
    p' = p.append (actionSlots p.flavor rule) := by
  unfold generateActions at ran
  obtain ⟨_, p₁, marked, ran⟩ := gen_bind_inv ran
  obtain rfl := generateMark_spec marked
  cases counters : rule.counters <;> by_cases log : rule.log = 0#8 <;>
    simp [log, counters, gen_bind, generateLog_eq, emitUpdateCounters_eq,
      generateVerdict_eq] at ran <;>
    simp [actionSlots, log, counters, ← ran]

/-! ## Rules -/

/-- A generator that only appends slots, related to its argument by `R`. -/
def AppendsSlots {α : Type} (host : Host) (chain : BfChain) (R : α → List Emitted → Prop)
    (gen : α → Gen Unit) : Prop :=
  ∀ a p p', p.Tracked → p.host = host → p.chain = chain → gen a p = .ok ((), p') →
    ∃ es, R a es ∧ p' = p.append es

/-- The slots of a list of matchers, one after the other. -/
inductive MatcherSlots (R : BfMatcher → List Emitted → Prop) :
    List BfMatcher → List Emitted → Prop where
  | nil : MatcherSlots R [] []
  | cons {m : BfMatcher} {ms : List BfMatcher} {es rest : List Emitted} (head : R m es)
      (tail : MatcherSlots R ms rest) : MatcherSlots R (m :: ms) (es ++ rest)

/-- The slots of a rule, its jumps still open. -/
def RuleSlots (R : BfMatcher → List Emitted → Prop) (flavor : BfFlavor) (rule : BfRule)
    (es : List Emitted) : Prop :=
  ∃ ms, MatcherSlots R rule.matchers ms ∧ es = ms ++ actionSlots flavor rule

section Assembly

variable {host : Host} {chain : BfChain} {R : BfMatcher → List Emitted → Prop}
  {gen : BfMatcher → Gen Unit} (appends : AppendsSlots host chain R gen)

include appends

theorem generateMatchers_spec (ms : List BfMatcher) {p p' : BfProgram} (tracked : p.Tracked)
    (hostEq : p.host = host) (chainEq : p.chain = chain)
    (ran : generateMatchers gen ms p = .ok ((), p')) :
    ∃ es, MatcherSlots R ms es ∧ p' = p.append es := by
  induction ms generalizing p with
  | nil =>
      cases ran
      exact ⟨[], .nil, by simp⟩
  | cons m ms ih =>
      obtain ⟨_, p₁, first, rest⟩ := gen_bind_inv ran
      obtain ⟨es, related, rfl⟩ := appends m p p₁ tracked hostEq chainEq first
      obtain ⟨tail, slots, rfl⟩ := ih (tracked.append es) hostEq chainEq rest
      exact ⟨es ++ tail, .cons related slots, by simp⟩

/-- One rule: its slots with the jumps filled, and nothing left open. -/
theorem bfProgramGenerateRuleWith_spec (rule : BfRule) {p p' : BfProgram} (tracked : p.Tracked)
    (hostEq : p.host = host) (chainEq : p.chain = chain) (none : p.NoneOpen)
    (ran : bfProgramGenerateRuleWith gen rule p = .ok ((), p')) :
    ∃ es, RuleSlots R p.flavor rule es ∧ p' = p.append (fillNext es) ∧
      (host.ndebug = false → OpenAsserted es) := by
  unfold bfProgramGenerateRuleWith at ran
  obtain ⟨_, p₁, matchers, ran⟩ := gen_bind_inv ran
  obtain ⟨ms, slots, rfl⟩ :=
    generateMatchers_spec appends rule.matchers tracked hostEq chainEq matchers
  obtain ⟨_, p₂, actions, ran⟩ := gen_bind_inv ran
  obtain rfl := generateActions_spec actions
  rw [BfProgram.append_append] at ran
  obtain ⟨rfl, asserted⟩ := bfProgramFixup_jmpNextRule tracked none _ ran
  exact ⟨_, ⟨ms, slots, rfl⟩, rfl, fun debug => asserted (hostEq ▸ debug)⟩

omit appends in
theorem NoneOpen.append_fillNext {p : BfProgram} (none : p.NoneOpen) (es : List Emitted) :
    (p.append (fillNext es)).NoneOpen := by
  intro f mem
  simp only [BfProgram.append, List.mem_append, fixupsFrom_fillNext, List.mem_filter,
    bne_iff_ne] at mem
  rcases mem with old | new
  · exact none f old
  · exact new.2

/-- The rule loop: the filled rules one after the other. -/
theorem generateRules_spec (rules : List BfRule) {p p' : BfProgram} (tracked : p.Tracked)
    (hostEq : p.host = host) (chainEq : p.chain = chain) (none : p.NoneOpen)
    (ran : generateRules gen rules p = .ok ((), p')) :
    ∃ blocks : List (List Emitted), List.Forall₂ (RuleSlots R p.flavor) rules blocks ∧
      p' = p.append (blocks.map fillNext).flatten ∧ p'.NoneOpen ∧
      (host.ndebug = false → ∀ es ∈ blocks, OpenAsserted es) := by
  induction rules generalizing p with
  | nil =>
      cases ran
      exact ⟨[], .nil, by simp, none, by simp⟩
  | cons rule rules ih =>
      obtain ⟨_, p₁, first, rest⟩ := gen_bind_inv ran
      obtain ⟨es, slots, rfl, asserted⟩ :=
        bfProgramGenerateRuleWith_spec appends rule tracked hostEq chainEq none first
      obtain ⟨blocks, related, rfl, open', others⟩ :=
        ih (tracked.append _) hostEq chainEq (NoneOpen.append_fillNext none es) rest
      refine ⟨es :: blocks, .cons slots related, by simp, open', ?_⟩
      intro debug es' mem
      rcases List.mem_cons.mp mem with rfl | mem
      · exact asserted debug
      · exact others debug es' mem

end Assembly

/-! ## Policy -/

def policySlots (chain : BfChain) : List Emitted :=
  updateCountersSlots (BitVec.ofNat 32 chain.rules.length) ++
    verdictSlots (verdictCode (bfHookToFlavor chain.hook) chain.policy)

theorem genInlineEpilogue_eq (flavor : BfFlavor) :
    (bfFlavorOpsGet flavor).genInlineEpilogue = pure () := by
  cases flavor <;> rfl

theorem generatePolicy_eq {p : BfProgram} (terminal : p.chain.policy.isTerminal = true) :
    generatePolicy p = .ok ((), p.append (policySlots p.chain)) := by
  simp only [generatePolicy, gen_bind, gen_get, genInlineEpilogue_eq, gen_pure,
    emitUpdateCounters_eq]
  rw [emitVerdict_eq (bfGetVerdict_of_isTerminal _ terminal), BfProgram.append_append]
  rfl

/-- A chain whose policy is not terminal has no verdict code, and fails. -/
theorem generatePolicy_spec {p p' : BfProgram} (ran : generatePolicy p = .ok ((), p')) :
    p.chain.policy.isTerminal = true ∧ p' = p.append (policySlots p.chain) := by
  cases policy : p.chain.policy with
  | «continue» =>
      simp [generatePolicy, gen_bind, gen_get, genInlineEpilogue_eq,
        emitUpdateCounters_eq, policy, emitVerdict, bfGetVerdict, gen_throw] at ran
  | _ =>
      rw [generatePolicy_eq (by rw [policy]; rfl)] at ran
      cases ran
      exact ⟨rfl, rfl⟩

end Bpfilter

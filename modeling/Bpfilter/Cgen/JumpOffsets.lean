/-
# Cgen.JumpOffsets -- when the offsets of a generated program are exact

A jump distance is computed in `size_t` and stored in a signed 16-bit field.
`OffsetsExact` says that every offset a generator has filled in leads to the
instruction it was filled in for.  `ruleSpan` is the longest distance of a rule:
from its first jump to the next rule up to the end of the rule.  It is computed
from the rule and the sets of its chain alone (`matcherLen`, `matcherLead`).

A program that was generated has exact offsets if and only if no rule spans more
than 32767 instructions (`bfProgramGenerate_offsetsExact_iff`).  Without
assertions nothing refuses a longer rule, and its program is generated with
offsets that lead elsewhere (`longChain_not_offsetsExact`).
-/
import Bpfilter.Cgen.Sequencing
import Bpfilter.Cgen.MatcherSizes

namespace Bpfilter

set_option autoImplicit false

open Ebpf

/-- Every jump to the next rule has been filled, and every offset that has been filled
leads where it was meant to. -/
def OffsetsExact (p : BfProgram) : Prop :=
  (∀ f ∈ p.fixups, f.kind.type ≠ .jmpNextRule) ∧
  ∀ k target : Nat, p.closed[k]? = some (some target) →
    ∃ i, p.img[k]? = some i ∧ (k : Int) + 1 + i.off.toInt = target

/-! ## Exact slots -/

/-- The offset of a closed jump is the distance it was closed at. -/
def Emitted.Exact (e : Emitted) : Prop := ∀ d, e.span = some d → e.insn.off.toInt = d

/-- A distance survives the 16-bit field exactly when it is below `2^15`. -/
theorem ofNat_toInt_iff (d : Nat) : (BitVec.ofNat 16 d).toInt = d ↔ d ≤ 32767 := by
  have low : (BitVec.ofNat 16 d).toNat = d % 65536 := BitVec.toNat_ofNat ..
  have bounds := BitVec.toInt_lt (x := BitVec.ofNat 16 d)
  constructor
  · intro same
    omega
  · intro short
    rw [BitVec.toInt_eq_toNat_of_lt (by omega), low, Nat.mod_eq_of_lt (by omega)]

theorem Emitted.exact_of_sound {e : Emitted} (sound : e.sound = true) : e.Exact := by
  intro d closed
  simp only [Emitted.sound, closed, Bool.and_eq_true, decide_eq_true_eq, beq_iff_eq] at sound
  rw [sound.2.2]
  exact (ofNat_toInt_iff d).mpr sound.2.1

theorem exact_jumpSlot_iff (i : BpfInsn) (d : Nat) : (jumpSlot i d).Exact ↔ d ≤ 32767 := by
  rw [← ofNat_toInt_iff]
  constructor
  · intro exact'
    exact exact' d rfl
  · rintro same d' ⟨⟩
    exact same

/-- The filled slots of a rule are exact if and only if its jumps fit. -/
theorem exact_fillNext_iff {es : List Emitted} (sound : ∀ e ∈ es, e.sound = true) :
    (∀ e ∈ fillNext es, e.Exact) ↔ JumpsFit es := by
  constructor
  · intro exact' k e at_ isOpen
    have filled : (fillNext es)[k]? = some (jumpSlot e.insn (es.length - k - 1)) := by
      rw [getElem?_fillNext, at_, Option.map_some, if_pos isOpen]
    exact (exact_jumpSlot_iff _ _).mp (exact' _ (List.mem_of_getElem? filled))
  · intro fits e mem
    obtain ⟨k, at_⟩ := List.mem_iff_getElem?.mp mem
    rw [getElem?_fillNext, Option.map_eq_some_iff] at at_
    obtain ⟨e', at', rfl⟩ := at_
    split
    · rename_i isOpen
      exact (exact_jumpSlot_iff _ _).mpr (fits k e' at' isOpen)
    · exact Emitted.exact_of_sound (sound e' (List.mem_of_getElem? at'))

theorem getElem?_closedFrom (base k : Nat) (es : List Emitted) :
    (closedFrom base es)[k]? = es[k]?.map fun e => e.span.map (base + k + 1 + ·) := by
  induction es generalizing base k with
  | nil => rfl
  | cons e es ih =>
      cases k with
      | zero => rfl
      | succ k =>
          rw [closedFrom, List.getElem?_cons_succ, ih, List.getElem?_cons_succ,
            show base + 1 + k = base + (k + 1) by omega]

/-- Filling an immediate does not move a jump. -/
theorem SlotState.off {p : BfProgram} {k : Nat} {e : Emitted} (state : SlotState p k e) :
    ∃ i, p.img[k]? = some i ∧ i.off = e.insn.off := by
  cases state with
  | waiting fresh => exact ⟨e.insn, fresh.here, rfl⟩
  | filled _ _ _ _ _ _ here => exact ⟨_, here, rfl⟩

section Generated

variable {R : BfMatcher → List Emitted → Prop} {p q : BfProgram} {blocks : List (List Emitted)}

/-- The record of a generated program is that of its slots. -/
theorem Generated.offsetsExact_iff_slots (made : Generated R p blocks q) :
    OffsetsExact q ↔ ∀ e ∈ programSlots p blocks, e.Exact := by
  obtain ⟨n, record⟩ := made.closed
  constructor
  · rintro ⟨-, exact'⟩ e mem d closed
    obtain ⟨k, at_⟩ := List.mem_iff_getElem?.mp mem
    have inside := (List.getElem?_eq_some_iff.mp at_).1
    obtain ⟨i, here, lands⟩ := exact' k (0 + k + 1 + d) (by
      rw [record, List.getElem?_append_left (by rw [closedFrom_length]; exact inside),
        getElem?_closedFrom, at_, Option.map_some, closed, Option.map_some])
    obtain ⟨i', here', off⟩ := (made.slots k e at_).off
    rw [here] at here'
    cases here'
    rw [← off]
    push_cast at lands
    omega
  · intro exact'
    refine ⟨fun f mem => (made.filled f mem).1, fun k target closed => ?_⟩
    rw [record] at closed
    by_cases inside : k < (programSlots p blocks).length
    · rw [List.getElem?_append_left (by rwa [closedFrom_length]), getElem?_closedFrom,
        Option.map_eq_some_iff] at closed
      obtain ⟨e, at_, spans⟩ := closed
      obtain ⟨d, span, rfl⟩ := Option.map_eq_some_iff.mp spans
      obtain ⟨i, here, off⟩ := (made.slots k e at_).off
      refine ⟨i, here, ?_⟩
      rw [off, exact' e (List.mem_of_getElem? at_) d span]
      push_cast
      omega
    · rw [List.getElem?_append_right (by rw [closedFrom_length]; omega)] at closed
      have absent := List.eq_of_mem_replicate (List.mem_of_getElem? closed)
      cases absent

/-- Only the jumps of the rules can be too long. -/
theorem Generated.offsetsExact_iff (made : Generated R p blocks q)
    (sound : ∀ es ∈ blocks, ∀ e ∈ es, e.sound = true) :
    OffsetsExact q ↔ ∀ es ∈ blocks, JumpsFit es := by
  rw [made.offsetsExact_iff_slots]
  have settled : ∀ {es : List Emitted}, es.all Emitted.settled = true → ∀ e ∈ es, e.Exact :=
    fun all e mem => Emitted.exact_of_sound (Emitted.sound_of_settled (List.all_eq_true.mp all e mem))
  constructor
  · intro exact' es mem
    refine (exact_fillNext_iff (sound es mem)).mp fun e inBlock => exact' e ?_
    simp only [programSlots, List.mem_append, List.mem_flatten, List.mem_map]
    exact .inr (.inl ⟨_, ⟨es, mem, rfl⟩, inBlock⟩)
  · intro fits e mem
    simp only [programSlots, List.mem_append, List.mem_flatten, List.mem_map] at mem
    rcases mem with head | ⟨_, ⟨es, mem, rfl⟩, inBlock⟩ | policy
    · exact settled (settled_headSlots p) e head
    · exact (exact_fillNext_iff (sound es mem)).mpr (fits es mem) e inBlock
    · exact settled (settled_policySlots p.chain) e policy

end Generated

/-! ## Rules -/

/-- The first jump is the longest. -/
theorem LeadsAt.jumpsFit_iff {k : Nat} {es : List Emitted} (leads : LeadsAt k es) :
    JumpsFit es ↔ es.length - k - 1 ≤ 32767 := by
  obtain ⟨⟨e, at_, isOpen⟩, before⟩ := leads
  constructor
  · exact fun fits => fits k e at_ isOpen
  · intro short j e' at' isOpen'
    have later : k ≤ j := by
      by_contra less
      exact before j (by omega) e' at' isOpen'
    omega

section Rules

variable {host : Host} {chain : BfChain}

/-- The slots of a generated matcher. -/
def MatcherEmits (host : Host) (chain : BfChain) (m : BfMatcher) (es : List Emitted) : Prop :=
  es = matcherSlots host chain m ∧ LeadsAt (matcherLead chain m) es

theorem bfMatcherGenerate_matcherEmits :
    AppendsSlots host chain (MatcherEmits host chain) bfMatcherGenerate := by
  intro m p p' tracked hostEq chainEq ran
  have emitted := bfMatcherGenerate_emits m p p' tracked hostEq chainEq ran
  have leads := bfMatcherGenerate_leads ran
  rw [hostEq, chainEq] at leads
  exact ⟨_, ⟨rfl, leads⟩, emitted⟩

theorem matcherSlots_sound {ms : List BfMatcher} {es : List Emitted}
    (slots : MatcherSlots (MatcherEmits host chain) ms es) :
    (∀ e ∈ es, e.sound = true) ∧ es.length = (ms.map (matcherLen chain)).sum := by
  induction slots with
  | nil => simp
  | cons head _ ih =>
      obtain ⟨rfl, -⟩ := head
      refine ⟨fun e mem => ?_, ?_⟩
      · rcases List.mem_append.mp mem with here | later
        · exact List.all_eq_true.mp (sound_matcherSlots host chain _) e here
        · exact ih.1 e later
      · rw [List.length_append, length_matcherSlots, ih.2, List.map_cons, List.sum_cons]

theorem length_actionSlots (flavor : BfFlavor) (rule : BfRule) :
    (actionSlots flavor rule).length = actionLen rule := by
  unfold actionSlots actionLen
  cases rule.mark <;> simp only [List.length_append, markSlots, Option.isSome] <;>
    split <;> split <;> split <;> rfl

theorem ruleSlots_sound {flavor : BfFlavor} {rule : BfRule} {es : List Emitted}
    (slots : RuleSlots (MatcherEmits host chain) flavor rule es) : ∀ e ∈ es, e.sound = true := by
  obtain ⟨ms, matchers, rfl⟩ := slots
  intro e mem
  rcases List.mem_append.mp mem with inMatchers | inActions
  · exact (matcherSlots_sound matchers).1 e inMatchers
  · exact Emitted.sound_of_settled
      (List.all_eq_true.mp (settled_actionSlots flavor rule) e inActions)

/-- The jumps of a rule fit if and only if the rule does not span too much. -/
theorem ruleSlots_jumpsFit_iff {flavor : BfFlavor} {rule : BfRule} {es : List Emitted}
    (slots : RuleSlots (MatcherEmits host chain) flavor rule es) :
    JumpsFit es ↔ ruleSpan chain rule ≤ 32767 := by
  obtain ⟨ms, matchers, rfl⟩ := slots
  have size : (ms ++ actionSlots flavor rule).length = ruleLen chain rule := by
    rw [List.length_append, (matcherSlots_sound matchers).2, length_actionSlots, ruleLen]
  unfold ruleSpan
  cases shape : rule.matchers with
  | nil =>
      rw [shape] at matchers
      cases matchers
      refine iff_of_true (fun k e at_ isOpen => ?_) (by simp)
      have settled := List.all_eq_true.mp (settled_actionSlots flavor rule) e
        (List.mem_of_getElem? at_)
      exact absurd isOpen (Emitted.not_open_of_settled settled)
  | cons m rest =>
      rw [shape] at matchers
      cases matchers with
      | cons head tail =>
          obtain ⟨rfl, leads⟩ := head
          rw [((leads.append _).append _).jumpsFit_iff, size]

end Rules

theorem forall₂_jumpsFit_iff {host : Host} {chain : BfChain} {flavor : BfFlavor}
    {rules : List BfRule} {blocks : List (List Emitted)}
    (related : List.Forall₂ (RuleSlots (MatcherEmits host chain) flavor) rules blocks) :
    (∀ es ∈ blocks, JumpsFit es) ↔ ∀ rule ∈ rules, ruleSpan chain rule ≤ 32767 := by
  induction related with
  | nil => simp
  | cons head _ ih =>
      rw [List.forall_mem_cons, List.forall_mem_cons, ruleSlots_jumpsFit_iff head, ih]

theorem forall₂_sound {host : Host} {chain : BfChain} {flavor : BfFlavor}
    {rules : List BfRule} {blocks : List (List Emitted)}
    (related : List.Forall₂ (RuleSlots (MatcherEmits host chain) flavor) rules blocks) :
    ∀ es ∈ blocks, ∀ e ∈ es, e.sound = true := by
  induction related with
  | nil => simp
  | cons head _ ih => exact List.forall_mem_cons.mpr ⟨ruleSlots_sound head, ih⟩

theorem Generated.offsetsExact_iff_ruleSpan {host : Host} {chain : BfChain} {maps : BfMaps}
    {blocks : List (List Emitted)} {q : BfProgram}
    (made : Generated (MatcherEmits host chain) (bfProgramNew host chain maps) blocks q) :
    OffsetsExact q ↔ ∀ rule ∈ chain.rules, ruleSpan chain rule ≤ 32767 := by
  rw [made.offsetsExact_iff (forall₂_sound made.rules), forall₂_jumpsFit_iff made.rules]
  rfl

/-- **Jump offsets.**  A generated program has exact offsets if and only if every rule
spans at most 32767 instructions. -/
theorem bfProgramGenerate_offsetsExact_iff (host : Host) (chain : BfChain) (maps : BfMaps)
    {q : BfProgram} (ran : bfProgramGenerate (bfProgramNew host chain maps) = .ok ((), q)) :
    OffsetsExact q ↔ ∀ rule ∈ chain.rules, ruleSpan chain rule ≤ 32767 := by
  obtain ⟨blocks, made⟩ := bfProgramGenerateWith_spec bfMatcherGenerate_matcherEmits ran
  exact made.offsetsExact_iff_ruleSpan

/-- The rules of the sample chain span eight and two instructions. -/
theorem sampleChain_offsetsExact :
    OffsetsExact (resultOf bfProgramGenerate (bfProgramNew sampleHost sampleChain sampleMaps)) :=
  (bfProgramGenerate_offsetsExact_iff sampleHost sampleChain sampleMaps
    (gen_resultOf (by decide +kernel))).mpr (by decide)

/-! ## Release builds

Without assertions a fixup pass only fails on a value it cannot compute. -/

/-- A fixup that can be filled in `p`. -/
def Fillable (p : BfProgram) (f : BfFixup) : Prop :=
  f.insn < p.img.length ∧ ∃ value, bfProgramFixupValue p f = .ok value

/-- What a fixup value is computed from. -/
def SameSpace (p q : BfProgram) : Prop :=
  q.host = p.host ∧ q.maps = p.maps ∧ q.elfstubsLocation = p.elfstubsLocation ∧
    q.img.length = p.img.length

theorem SameSpace.fillable {p q : BfProgram} (same : SameSpace p q) {f : BfFixup}
    (fillable : Fillable p f) : Fillable q f := by
  obtain ⟨-, maps, locations, length⟩ := same
  obtain ⟨inside, value, known⟩ := fillable
  refine ⟨length ▸ inside, value, ?_⟩
  rw [← known]
  simp only [bfProgramFixupValue, maps, locations, length]

theorem bfProgramFixupOne_ok (type : BfFixupType) {p : BfProgram} (release : p.host.ndebug = true)
    {f : BfFixup} (fillable : f.kind.type = type → Fillable p f) :
    ∃ q, bfProgramFixupOne type p f = .ok q ∧ SameSpace p q := by
  unfold bfProgramFixupOne
  split
  · rename_i typed
    obtain ⟨inside, ⟨field, value⟩, known⟩ := fillable typed
    rw [List.getElem?_eq_getElem inside, known]
    cases field <;> simp [bfProgramFixupInsn, release, SameSpace]
  · exact ⟨p, rfl, rfl, rfl, rfl, rfl⟩

theorem foldlM_fixupOne_ok (type : BfFixupType) (fs : List BfFixup) {p : BfProgram}
    (release : p.host.ndebug = true)
    (fillable : ∀ f ∈ fs, f.kind.type = type → Fillable p f) :
    ∃ q, fs.foldlM (bfProgramFixupOne type) p = .ok q := by
  induction fs generalizing p with
  | nil => exact ⟨p, rfl⟩
  | cons f fs ih =>
      obtain ⟨p₁, one, same⟩ := bfProgramFixupOne_ok type release (fillable f (by simp))
      rw [List.foldlM_cons, one]
      exact ih (same.1 ▸ release)
        fun g mem typed => same.fillable (fillable g (by simp [mem]) typed)

theorem bfProgramFixup_ok (type : BfFixupType) {p : BfProgram} (release : p.host.ndebug = true)
    (fillable : ∀ f ∈ p.fixups, f.kind.type = type → Fillable p f) :
    ∃ q, bfProgramFixup type p = .ok ((), q) := by
  obtain ⟨q, loop⟩ := foldlM_fixupOne_ok type p.fixups release fillable
  unfold bfProgramFixup
  rw [loop]
  exact ⟨_, rfl⟩

theorem placeStubStrs_ok (start : Nat) (strs : List (Nat × String)) (p : BfProgram) :
    ∃ q, placeStubStrs start strs p = .ok ((), q) := by
  induction strs generalizing p with
  | nil => exact ⟨p, rfl⟩
  | cons pstr strs ih => exact ih _

theorem placeElfstubs_ok (fs : List BfFixup) {p : BfProgram}
    (stubs : ∀ id, ∃ stub, p.host.getElfstub id = some stub) :
    ∃ q, placeElfstubs fs p = .ok ((), q) := by
  induction fs generalizing p with
  | nil => exact ⟨p, rfl⟩
  | cons f fs ih =>
      have one : ∃ q, placeElfstub f p = .ok ((), q) := by
        obtain ⟨kind, insn⟩ := f
        cases kind with
        | elfstubCall id =>
            obtain ⟨stub, found⟩ := stubs id
            obtain ⟨q, strings⟩ := placeStubStrs_ok p.img.length stub.strs
              (p.append (stub.insns.map fun i => { insn := i }))
            simp only [placeElfstub, gen_bind, gen_get]
            split
            · exact ⟨p, rfl⟩
            · simp only [found, gen_bind, emitAll_eq, strings, gen_modify]
              exact ⟨_, rfl⟩
        | _ => exact ⟨p, rfl⟩
      obtain ⟨p₁, first⟩ := one
      have same := (placeElfstub_extends (Nat.zero_le _) first).1.host
      obtain ⟨q, rest⟩ := ih (same ▸ stubs)
      exact ⟨q, (gen_bind_ok first).trans rest⟩

/-- The stub calls of a program that is not too long can be filled. -/
theorem elfstubCall_fillable {size : Nat} {p : BfProgram} (stubs : StubsPlaced size p)
    (short : size + elfstubMaxInsns * 4 ≤ intMax) {id : BfElfstubId} {s insn : Nat}
    (known : p.stubStart id = some s) (inside : insn < size) :
    Fillable p ⟨.elfstubCall id, insn⟩ := by
  have bound := stubs.length_le
  obtain ⟨-, low, high⟩ := stubs.placed id s known
  refine ⟨by simp only; omega, ?_⟩
  unfold intMax at short
  have location := stubs.location (by omega) known
  simp only [bfProgramFixupValue, elfstubCallOffset, location]
  rw [if_neg (by unfold intMax; omega)]
  exact ⟨_, rfl⟩

/-- **Release builds.**  Without assertions, generation succeeds once the head and the
rules have been emitted, whatever the length of a rule. -/
theorem bfProgramGenerateWith_ok {host : Host} {chain : BfChain} {maps : BfMaps}
    {R : BfMatcher → List Emitted → Prop} {gen : BfMatcher → Gen Unit}
    (appends : AppendsSlots host chain R gen) (release : host.ndebug = true)
    (stubs : ∀ id, ∃ stub, host.getElfstub id = some stub) (compiled : host.StubsCompiled)
    (terminal : chain.policy.isTerminal = true) {pHead pRules : BfProgram}
    (head : generateHead (bfProgramNew host chain maps) = .ok ((), pHead))
    (rules : generateRules gen chain.rules pHead = .ok ((), pRules))
    (short : pRules.img.length + 8 + elfstubMaxInsns * 4 ≤ intMax) :
    ∃ q, bfProgramGenerateWith gen (bfProgramNew host chain maps) = .ok ((), q) := by
  obtain ⟨blocks, printer, -, -, chainEq, -, whole⟩ := emitted_programSlots appends head rules
  have policy := generatePolicy_eq (p := pRules) (chainEq ▸ terminal)
  rw [chainEq, whole] at policy
  have size : (programSlots (bfProgramNew host chain maps) blocks).length =
      pRules.img.length + 8 := by
    have images := congrArg (fun p => p.img.length) whole
    simp only [BfProgram.append_img, List.length_append, List.length_map,
      policySlots_length] at images
    rw [images]
    simp [bfProgramNew]
  generalize programSlots (bfProgramNew host chain maps) blocks = slots at policy size
  have fresh := stubsPlaced_append host chain maps printer slots
  have fixups : (({ bfProgramNew host chain maps with printer } : BfProgram).append slots).fixups =
      fixupsFrom 0 slots := by
    simp [BfProgram.append, bfProgramNew]
  have hostEq : (({ bfProgramNew host chain maps with printer } : BfProgram).append
      slots).host = host := rfl
  generalize ({ bfProgramNew host chain maps with printer } : BfProgram).append slots = p₁ at *
  obtain ⟨p₂, placing⟩ := placeElfstubs_ok p₁.fixups (hostEq ▸ stubs)
  have more := placeElfstubs_extends p₁.fixups fresh.behind placing
  rw [← size] at short
  obtain ⟨placed, -, called⟩ := placeElfstubs_placed (hostEq ▸ compiled) (by omega)
    (by unfold intMax at short; omega) fresh p₁.fixups placing
  have fillable : ∀ f ∈ p₂.fixups, f.kind.type = .elfstubCall → Fillable p₂ f := by
    rintro ⟨kind, insn⟩ mem typed
    rcases more.fresh _ mem with old | ⟨-, printer⟩
    · rw [fixups] at old
      obtain ⟨k, e, at_, -, place⟩ := mem_fixupsFrom.mp old
      have inside := (List.getElem?_eq_some_iff.mp at_).1
      simp only at place
      cases kind with
      | elfstubCall id =>
          obtain ⟨s, known⟩ := Option.isSome_iff_exists.mp (called _ (fixups ▸ old) id rfl)
          exact elfstubCall_fillable placed short known (by omega)
      | _ => cases typed
    · simp only at printer
      rw [printer] at typed
      cases typed
  obtain ⟨q, calls⟩ := bfProgramFixup_ok .elfstubCall (p := p₂)
    (by rw [more.host, hostEq, release]) fillable
  refine ⟨q, ?_⟩
  unfold bfProgramGenerateWith
  rw [gen_bind_ok head, gen_bind_ok (gen_get pHead), generateHead_chain head, gen_bind_ok rules,
    gen_bind_ok policy, gen_bind_ok (show bfProgramGenerateElfstubs p₁ = .ok ((), p₂) from placing)]
  exact calls

/-! Rules with `n` matchers of one instruction each, in a build without assertions. -/

def releaseHost : Host := { sampleHost with ndebug := true }

def l3Matcher : BfMatcher := ⟨.metaL3Proto, .eq, [0, 8]⟩

def longRule (n : Nat) : BfRule :=
  { matchers := List.replicate n l3Matcher, verdict := .drop }

def longChain (n : Nat) : BfChain :=
  { name := "long", flags := {}, hook := .xdp, policy := .accept, sets := [],
    rules := [longRule n] }

def l3Slot : Emitted := nextSlot (bpfJmpImm .ne 7 ((htobe16 (l3Matcher.payloadU16 0)).setWidth 32) 0)

theorem generateMatchers_replicate (n : Nat) (p : BfProgram) :
    generateMatchers bfMatcherGenerate (List.replicate n l3Matcher) p =
      .ok ((), p.append (List.replicate n l3Slot)) := by
  induction n generalizing p with
  | zero => simp [generateMatchers, gen_pure]
  | succ n ih =>
      have one : bfMatcherGenerate l3Matcher p = .ok ((), p.append [l3Slot]) := emitFixup_eq _ _ p
      rw [List.replicate_succ, generateMatchers, gen_bind_ok one, ih, BfProgram.append_append]
      rfl

theorem ruleSpan_longRule (n : Nat) :
    ruleSpan (longChain (n + 1)) (longRule (n + 1)) = n + 2 := by
  have shape : (longRule (n + 1)).matchers = l3Matcher :: List.replicate n l3Matcher :=
    List.replicate_succ
  have one : matcherLen (longChain (n + 1)) l3Matcher = 1 := rfl
  have actions : actionLen (longRule (n + 1)) = 2 := rfl
  have lead : matcherLead (longChain (n + 1)) l3Matcher = 0 := rfl
  unfold ruleSpan ruleLen
  rw [shape]
  simp only [List.map_cons, List.sum_cons, List.map_replicate, List.sum_replicate_nat, one,
    actions, lead]
  omega

/-- Without assertions a rule can always be closed. -/
theorem bfProgramFixup_jmpNextRule_ok {p : BfProgram} (release : p.host.ndebug = true)
    (inside : ∀ f ∈ p.fixups, f.insn < p.img.length) :
    ∃ q, bfProgramFixup .jmpNextRule p = .ok ((), q) := by
  refine bfProgramFixup_ok .jmpNextRule release fun f mem typed => ⟨inside f mem, ?_⟩
  obtain ⟨kind, insn⟩ := f
  cases kind with
  | jmpNextRule => exact ⟨_, rfl⟩
  | _ => cases typed

theorem fixups_inside {p : BfProgram} (inside : ∀ f ∈ p.fixups, f.insn < p.img.length)
    (es : List Emitted) : ∀ f ∈ (p.append es).fixups, f.insn < (p.append es).img.length := by
  intro f mem
  rw [BfProgram.append_img, List.length_append, List.length_map]
  rcases List.mem_append.mp mem with old | new
  · have := inside f old
    omega
  · obtain ⟨k, e, at_, -, place⟩ := mem_fixupsFrom.mp new
    have := (List.getElem?_eq_some_iff.mp at_).1
    omega

theorem longRule_generates (n : Nat) {p : BfProgram} (tracked : p.Tracked) (none : p.NoneOpen)
    (release : p.host.ndebug = true) (inside : ∀ f ∈ p.fixups, f.insn < p.img.length) :
    ∃ q, generateRules bfMatcherGenerate (longChain n).rules p = .ok ((), q) ∧
      q.img.length = p.img.length + (n + 2) := by
  have actions : ∀ p, generateActions (longRule n) p =
      .ok ((), p.append (verdictSlots (verdictCode p.flavor .drop))) :=
    fun p => generateVerdict_eq .drop p
  obtain ⟨q, closing⟩ := bfProgramFixup_jmpNextRule_ok
    (p := p.append (List.replicate n l3Slot ++ verdictSlots (verdictCode p.flavor .drop))) release
    (fixups_inside inside _)
  have closed := (bfProgramFixup_jmpNextRule tracked none _ closing).1
  refine ⟨q, ?_, ?_⟩
  · have rule : bfProgramGenerateRuleWith bfMatcherGenerate (longRule n) p = .ok ((), q) := by
      have shape : (longRule n).matchers = List.replicate n l3Matcher := rfl
      unfold bfProgramGenerateRuleWith
      rw [shape, gen_bind_ok (generateMatchers_replicate n p), gen_bind_ok (actions _),
        BfProgram.append_append]
      exact closing
    exact gen_bind_ok rule
  · rw [closed, BfProgram.append_img, List.length_append, List.length_map, fillNext_length,
      List.length_append, List.length_replicate]
    rfl

theorem longChain_generates {n : Nat} (short : n ≤ 100000) {pHead : BfProgram}
    (head : generateHead (bfProgramNew releaseHost (longChain n) sampleMaps) = .ok ((), pHead))
    (headLen : (headSlots (bfProgramNew releaseHost (longChain n) sampleMaps)).length = 131) :
    ∃ q, bfProgramGenerate (bfProgramNew releaseHost (longChain n) sampleMaps) = .ok ((), q) := by
  have atHead := generateHead_spec bfProgramNew_tracked head
  obtain ⟨printer, noted⟩ := prologueNoted_new releaseHost (longChain n) sampleMaps .xdp
  have flavor : (bfProgramNew releaseHost (longChain n) sampleMaps).flavor = .xdp := rfl
  rw [flavor, noted] at atHead
  have tracked : ({ bfProgramNew releaseHost (longChain n) sampleMaps with printer } :
      BfProgram).Tracked := rfl
  have none : ({ bfProgramNew releaseHost (longChain n) sampleMaps with printer } :
      BfProgram).NoneOpen := by
    intro f mem
    cases mem
  have headImg : pHead.img.length = 131 := by
    rw [atHead, BfProgram.append_img, List.length_append, List.length_map, headLen]
    rfl
  have inside : ∀ f ∈ pHead.fixups, f.insn < pHead.img.length := by
    rw [atHead]
    refine fixups_inside (fun f mem => ?_) _
    cases mem
  obtain ⟨pRules, rules, length⟩ := longRule_generates n (p := pHead)
    (by rw [atHead]; exact tracked.append _)
    (by rw [atHead]; exact NoneOpen.append_settled none (settled_headSlots _))
    (by rw [atHead]; rfl) inside
  refine bfProgramGenerateWith_ok bfMatcherGenerate_matcherEmits rfl (fun id => ⟨sampleStub, rfl⟩)
    ?_ rfl head rules (by rw [length, headImg]; unfold elfstubMaxInsns intMax; omega)
  rintro id stub ⟨⟩
  exact ⟨by decide, by decide⟩

/-- With 40000 matchers the first jump does not lead to the end of its rule, and nothing
complains. -/
theorem longChain_not_offsetsExact :
    ∃ q, bfProgramGenerate (bfProgramNew releaseHost (longChain 40000) sampleMaps) =
        .ok ((), q) ∧
      ¬ OffsetsExact q := by
  obtain ⟨q, ran⟩ := longChain_generates (n := 40000) (by omega)
    (gen_resultOf (by decide +kernel)) (by decide +kernel)
  obtain ⟨blocks, made⟩ := bfProgramGenerateWith_spec bfMatcherGenerate_matcherEmits ran
  refine ⟨q, ran, ?_⟩
  rw [made.offsetsExact_iff_ruleSpan]
  intro short
  have span := short (longRule 40000) (List.mem_singleton.mpr rfl)
  rw [ruleSpan_longRule 39999] at span
  omega

end Bpfilter

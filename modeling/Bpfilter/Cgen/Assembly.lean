/-
# Cgen.Assembly -- a generated program as one list of slots

`programSlots` is the whole program in front of the stubs: the head, the rules
with their jumps filled, the policy.  A program that generates and loads is this
list, linked (`bfProgramGenerateWith_linked`): every slot holds its instruction,
map references hold the file descriptors, and stub calls go to their stub.

`Emitted.settled` is the part of this that is checked slot by slot: stub fixups
are on call instructions, closed jumps carry the offset they were closed with,
and nothing waits for the next rule.
-/
import Bpfilter.Cgen.Linking

namespace Bpfilter

set_option autoImplicit false

open Ebpf

/-! ## Slots that need no rule -/

/-- Stub fixups are on call instructions, and a closed jump has its offset. -/
def Emitted.sound (e : Emitted) : Bool :=
  (match e.fixup with
    | some (.elfstubCall _) => e.insn == bpfCallRel 0
    | _ => true) &&
  (match e.span with
    | some d => decide (d ≤ 32767) && e.insn.off == BitVec.ofNat 16 d
    | none => true)

/-- A sound slot that does not wait for the end of its rule. -/
def Emitted.settled (e : Emitted) : Bool := e.sound && e.fixup != some .jmpNextRule

theorem Emitted.callShaped_of_sound {e : Emitted} (sound : e.sound = true) : e.CallShaped := by
  intro id waits
  simp only [Emitted.sound, waits, Bool.and_eq_true, beq_iff_eq] at sound
  exact sound.1

theorem Emitted.sound_of_settled {e : Emitted} (settled : e.settled = true) : e.sound = true :=
  (Bool.and_eq_true_iff.mp settled).1

theorem Emitted.not_open_of_settled {e : Emitted} (settled : e.settled = true) :
    e.fixup ≠ some .jmpNextRule := by
  simpa using (Bool.and_eq_true_iff.mp settled).2

section Settled

variable (i : BpfInsn)

@[simp] theorem settled_plain : Emitted.settled { insn := i } = true := rfl

@[simp] theorem settled_callSlot (id : BfElfstubId) : (callSlot id).settled = true := by
  cases id <;> decide

@[simp] theorem sound_jumpSlot (d : Nat) : (jumpSlot i d).sound = decide (d ≤ 32767) := by
  simp [jumpSlot, Emitted.sound, setOff]

@[simp] theorem settled_jumpSlot (d : Nat) : (jumpSlot i d).settled = decide (d ≤ 32767) := by
  rw [Emitted.settled, sound_jumpSlot]
  simp [jumpSlot]

theorem settled_loadFdSlots (kind : BfFixupKind) (reg : Reg)
    (fd : kind.type ≠ .elfstubCall) (other : kind ≠ .jmpNextRule) :
    (loadFdSlots kind reg).all Emitted.settled = true := by
  cases kind <;> simp [loadFdSlots, Emitted.settled, Emitted.sound, BfFixupKind.type] at fd other ⊢

theorem settled_updateCountersSlots (idx : BitVec 32) :
    (updateCountersSlots idx).all Emitted.settled = true := by
  simp [updateCountersSlots, settled_loadFdSlots .countersMapFd 2 (by decide) (by decide),
    -List.all_eq_true]

theorem settled_verdictSlots (code : BitVec 32) :
    (verdictSlots code).all Emitted.settled = true := by
  simp [verdictSlots]

theorem settled_printSlots (msg : BfPrinterMsg) :
    (printSlots msg).all Emitted.settled = true := by
  simp [printSlots, Emitted.settled, Emitted.sound]

theorem settled_errorExitSlots (p : BfProgram) (msg : String) :
    (errorExitSlots p msg).all Emitted.settled = true := by
  simp only [errorExitSlots, List.all_append, settled_updateCountersSlots, settled_verdictSlots,
    Bool.true_and, Bool.and_true]
  split
  · exact settled_printSlots _
  · rfl

theorem errorExitSlots_length (p : BfProgram) (msg : String) :
    (errorExitSlots p msg).length ≤ 12 := by
  unfold errorExitSlots
  split <;> simp [updateCountersSlots, loadFdSlots, verdictSlots, printSlots]

/-- An error block that is jumped over. -/
theorem settled_guard (p : BfProgram) (msg : String) :
    (skipOver i (errorExitSlots p msg)).all Emitted.settled = true := by
  have short := errorExitSlots_length p msg
  simp only [skipOver, List.all_cons, settled_jumpSlot, settled_errorExitSlots, Bool.and_true,
    decide_eq_true_eq]
  omega

theorem settled_swich2Slots (reg : Reg) (i₁ i₂ : BitVec 32) (b₁ b₂ d : BpfInsn) :
    (swich2Slots reg i₁ i₂ b₁ b₂ d).all Emitted.settled = true := by
  simp [swich2Slots]

theorem settled_swich4Slots (reg : Reg) (i₁ i₂ i₃ i₄ : BitVec 32) (b₁ b₂ b₃ b₄ d : BpfInsn) :
    (swich4Slots reg i₁ i₂ i₃ i₄ b₁ b₂ b₃ b₄ d).all Emitted.settled = true := by
  simp [swich4Slots]

end Settled

theorem settled_makeDynptrSlots (p : BfProgram) (id : BitVec 32) :
    (makeDynptrSlots p id).all Emitted.settled = true := by
  simp [makeDynptrSlots, settled_guard, -List.all_eq_true]

theorem settled_parseL2Slots (p : BfProgram) (id : BitVec 32) :
    (parseL2Slots p id).all Emitted.settled = true := by
  simp [parseL2Slots, settled_guard, -List.all_eq_true]

theorem settled_parseIpv4Slots : parseIpv4Slots.all Emitted.settled = true := by
  simp [parseIpv4Slots, skipOver]

theorem settled_parseIpv6Slots (flags : BfChainFlags) :
    (parseIpv6Slots flags).all Emitted.settled = true := by
  simp [parseIpv6Slots, skipOver]

theorem settled_parseL3BodySlots (p : BfProgram) (id : BitVec 32) :
    (parseL3BodySlots p id).all Emitted.settled = true := by
  simp [parseL3BodySlots, sliceSlots, settled_guard, settled_parseIpv4Slots,
    settled_parseIpv6Slots, -List.all_eq_true]

theorem settled_parseL3Slots (p : BfProgram) (id : BitVec 32) :
    (parseL3Slots p id).all Emitted.settled = true := by
  have short := errorExitSlots_length p l3Msg
  simp only [parseL3Slots, parseL3Swich, List.all_append, settled_swich2Slots, skipOver,
    List.all_cons, settled_jumpSlot, settled_parseL3BodySlots, Bool.true_and, Bool.and_true,
    decide_eq_true_eq]
  simp [parseL3BodySlots, sliceSlots, skipOver, parseIpv4Slots, parseIpv6Slots]
  omega

theorem settled_parseL4Slots (p : BfProgram) (id : BitVec 32) :
    (parseL4Slots p id).all Emitted.settled = true := by
  have short := errorExitSlots_length p l4Msg
  have body : (parseL4BodySlots p id).all Emitted.settled = true := by
    simp [parseL4BodySlots, sliceSlots, settled_guard, -List.all_eq_true]
  simp only [parseL4Slots, parseL4Swich, List.all_append, settled_swich4Slots, skipOver,
    List.all_cons, settled_jumpSlot, body, Bool.true_and, Bool.and_true, decide_eq_true_eq]
  simp [parseL4BodySlots, sliceSlots, skipOver]
  omega

theorem settled_headStart (flags : BfChainFlags) :
    (headStart flags).all Emitted.settled = true := by
  cases log : flags.log <;> cases store : flags.storeNexthdr <;>
    simp [headStart, log, store, settled_loadFdSlots .logMapFd 2 (by decide) (by decide),
      -List.all_eq_true]

theorem settled_prologueStart (p : BfProgram) (flavor : BfFlavor) :
    (prologueStart p flavor).all Emitted.settled = true := by
  cases flavor <;> simp [prologueStart, familySlots, settled_swich2Slots, -List.all_eq_true]

theorem settled_prologueRest (p : BfProgram) (flavor : BfFlavor) :
    (prologueRest p flavor).all Emitted.settled = true := by
  cases flavor <;>
    simp only [prologueRest, fromL3Slots, fromL2Slots, List.all_append, settled_makeDynptrSlots,
      settled_parseL2Slots, settled_parseL3Slots, settled_parseL4Slots, Bool.and_true]

theorem settled_headSlots (p : BfProgram) : (headSlots p).all Emitted.settled = true := by
  simp only [headSlots, List.all_append, settled_headStart, settled_prologueStart,
    settled_prologueRest, Bool.and_true]

theorem settled_policySlots (chain : BfChain) :
    (policySlots chain).all Emitted.settled = true := by
  simp only [policySlots, List.all_append, settled_updateCountersSlots, settled_verdictSlots,
    Bool.and_true]

theorem settled_actionSlots (flavor : BfFlavor) (rule : BfRule) :
    (actionSlots flavor rule).all Emitted.settled = true := by
  have mark : (markSlots rule.mark).all Emitted.settled = true := by
    cases rule.mark <;> simp [markSlots]
  have log : (logSlots rule).all Emitted.settled = true := by simp [logSlots]
  simp only [actionSlots, List.all_append, mark, Bool.true_and]
  split <;> split <;> split <;>
    simp only [log, settled_updateCountersSlots, settled_verdictSlots, List.all_nil, Bool.and_true]

/-! ## Whole programs -/

/-- The program in front of the stubs, given the slots of each rule. -/
def programSlots (p : BfProgram) (blocks : List (List Emitted)) : List Emitted :=
  headSlots p ++ ((blocks.map fillNext).flatten ++ policySlots p.chain)

/-- The first stub call of a program is in the error block of the dynamic pointer. -/
theorem headSlots_call (p : BfProgram) :
    ∃ k < 64, (headSlots p)[k]? = some (callSlot .updateCounters) := by
  have start : (headStart p.chain.flags).length ≤ 7 := by
    cases log : p.chain.flags.log <;> cases store : p.chain.flags.storeNexthdr <;>
      simp [headStart, log, store, loadFdSlots]
  have prologue : (prologueStart p p.flavor).length ≤ 18 := by
    cases p.flavor <;> simp [prologueStart, familySlots, swich2Slots]
  have call : (prologueRest p p.flavor)[10]? = some (callSlot .updateCounters) := by
    cases p.flavor <;> rfl
  refine ⟨(headStart p.chain.flags).length + ((prologueStart p p.flavor).length + 10), by omega, ?_⟩
  rw [headSlots, List.getElem?_append_right (by omega), Nat.add_sub_cancel_left,
    List.getElem?_append_right (by omega), Nat.add_sub_cancel_left, call]

/-- The last stub call of a program updates the policy counter. -/
theorem policySlots_call (chain : BfChain) :
    (policySlots chain)[5]? = some (callSlot .updateCounters) := rfl

theorem policySlots_length (chain : BfChain) : (policySlots chain).length = 8 := rfl

theorem programSlots_first (p : BfProgram) (blocks : List (List Emitted)) :
    ∃ k < 64, (programSlots p blocks)[k]? = some (callSlot .updateCounters) := by
  obtain ⟨k, near, call⟩ := headSlots_call p
  refine ⟨k, near, ?_⟩
  rw [programSlots, List.getElem?_append_left (List.getElem?_eq_some_iff.mp call).1, call]

theorem programSlots_last (p : BfProgram) (blocks : List (List Emitted)) :
    ∃ k, k + 3 = (programSlots p blocks).length ∧
      (programSlots p blocks)[k]? = some (callSlot .updateCounters) := by
  refine ⟨(headSlots p).length + ((blocks.map fillNext).flatten.length + 5), ?_, ?_⟩
  · simp only [programSlots, List.length_append, policySlots_length]
    omega
  · rw [programSlots, List.getElem?_append_right (by omega), Nat.add_sub_cancel_left,
      List.getElem?_append_right (by omega), Nat.add_sub_cancel_left, policySlots_call]

/-- A program whose stub calls can be filled leaves room for the stubs in 32 bits. -/
theorem programSlots_fits (p : BfProgram) (blocks : List (List Emitted)) {p₂ q : BfProgram}
    (wait : ∀ k e, (programSlots p blocks)[k]? = some e → Waiting p₂ k e)
    (calls : bfProgramFixup .elfstubCall p₂ = .ok ((), q)) :
    (programSlots p blocks).length + elfstubMaxInsns * 4 < 2 ^ 32 := by
  obtain ⟨first, near, call⟩ := programSlots_first p blocks
  obtain ⟨last, length, call'⟩ := programSlots_last p blocks
  have bound := size_lt_of_calls (wait first _ call) (wait last _ call') rfl rfl calls
  unfold intMax at bound
  unfold elfstubMaxInsns
  omega

/-- A program `q` generated from `p`, given the slots of each rule. -/
structure Generated (R : BfMatcher → List Emitted → Prop) (p : BfProgram)
    (blocks : List (List Emitted)) (q : BfProgram) : Prop where
  rules : List.Forall₂ (RuleSlots R p.flavor) p.chain.rules blocks
  policy : p.chain.policy.isTerminal = true
  asserted : p.host.ndebug = false → ∀ es ∈ blocks, OpenAsserted es
  maps : q.maps = p.maps
  filled : ∀ f ∈ q.fixups, f.kind.type ≠ .jmpNextRule ∧ f.kind.type ≠ .elfstubCall
  slots : ∀ k e, (programSlots p blocks)[k]? = some e → SlotState q k e
  closed : ∃ n, q.closed = closedFrom 0 (programSlots p blocks) ++ List.replicate n none
  stubs : p.host.StubsCompiled →
    ∃ size, StubsPlaced size q ∧ size + elfstubMaxInsns * 4 < 2 ^ 32 ∧
      ∀ e ∈ programSlots p blocks, ∀ id, e.fixup = some (.elfstubCall id) →
        (q.stubStart id).isSome = true

section Generation

variable {host : Host} {chain : BfChain} {maps : BfMaps}

theorem bfProgramNew_tracked : (bfProgramNew host chain maps).Tracked := rfl

/-- The printer of a prologue is all that distinguishes it from a new program. -/
theorem prologueNoted_new (host : Host) (chain : BfChain) (maps : BfMaps) (flavor : BfFlavor) :
    ∃ printer, prologueNoted (bfProgramNew host chain maps) flavor =
      { bfProgramNew host chain maps with printer } := by
  have noted : ∀ printer msg, ∃ printer',
      ({ bfProgramNew host chain maps with printer } : BfProgram).noted msg =
        { bfProgramNew host chain maps with printer := printer' } := by
    intro printer msg
    unfold BfProgram.noted
    split
    · exact ⟨_, rfl⟩
    · exact ⟨_, rfl⟩
  obtain ⟨p₁, first⟩ := noted ⟨[]⟩ dynptrMsg
  obtain ⟨p₂, second⟩ := noted p₁ l2Msg
  obtain ⟨p₃, third⟩ := noted p₁ l3Msg
  obtain ⟨p₄, third'⟩ := noted p₂ l3Msg
  obtain ⟨p₅, fourth⟩ := noted p₃ l4Msg
  obtain ⟨p₆, fourth'⟩ := noted p₄ l4Msg
  have start : (bfProgramNew host chain maps).noted dynptrMsg =
      { bfProgramNew host chain maps with printer := p₁ } := first
  cases flavor <;> simp only [prologueNoted, start, second, third, third', fourth, fourth']
  all_goals exact ⟨_, rfl⟩

theorem NoneOpen.append_settled {p : BfProgram} (none : p.NoneOpen) {es : List Emitted}
    (settled : es.all Emitted.settled = true) : (p.append es).NoneOpen := by
  intro f mem
  rcases List.mem_append.mp mem with old | new
  · exact none f old
  · obtain ⟨k, e, at_, waits, -⟩ := mem_fixupsFrom.mp new
    have quiet := Emitted.not_open_of_settled
      (List.all_eq_true.mp settled e (List.mem_of_getElem? at_))
    intro typed
    apply quiet
    rw [waits]
    cases kind : f.kind <;> simp [kind, BfFixupKind.type] at typed ⊢

/-- No stub has been placed in a program that has just been emitted. -/
theorem stubsPlaced_append (host : Host) (chain : BfChain) (maps : BfMaps) (printer : BfPrinter)
    (slots : List Emitted) :
    StubsPlaced slots.length
      (({ bfProgramNew host chain maps with printer } : BfProgram).append slots) := by
  have length : (({ bfProgramNew host chain maps with printer } : BfProgram).append
      slots).img.length = slots.length := by
    simp [bfProgramNew]
  refine ⟨length.ge, fun _ _ => rfl, ?_, ?_, by omega⟩
  · intro id s known
    cases known
  · intro id id' s known
    cases known

variable {R : BfMatcher → List Emitted → Prop} {gen : BfMatcher → Gen Unit}

theorem generateHead_chain {pHead : BfProgram}
    (head : generateHead (bfProgramNew host chain maps) = .ok ((), pHead)) :
    pHead.chain = chain := by
  obtain ⟨printer, noted⟩ := prologueNoted_new host chain maps
    (bfProgramNew host chain maps).flavor
  rw [generateHead_spec bfProgramNew_tracked head, noted]
  rfl

/-- The head, the rules and the policy: the slots of the program. -/
theorem emitted_programSlots (appends : AppendsSlots host chain R gen) {pHead pRules : BfProgram}
    (head : generateHead (bfProgramNew host chain maps) = .ok ((), pHead))
    (rules : generateRules gen chain.rules pHead = .ok ((), pRules)) :
    ∃ blocks printer,
      List.Forall₂ (RuleSlots R (bfHookToFlavor chain.hook)) chain.rules blocks ∧
      (host.ndebug = false → ∀ es ∈ blocks, OpenAsserted es) ∧
      pRules.chain = chain ∧ pRules.NoneOpen ∧
      pRules.append (policySlots chain) =
        ({ bfProgramNew host chain maps with printer } : BfProgram).append
          (programSlots (bfProgramNew host chain maps) blocks) := by
  have atHead := generateHead_spec bfProgramNew_tracked head
  obtain ⟨printer, noted⟩ := prologueNoted_new host chain maps
    (bfProgramNew host chain maps).flavor
  rw [noted] at atHead
  have blank : ({ bfProgramNew host chain maps with printer } : BfProgram).Tracked := rfl
  have none : ({ bfProgramNew host chain maps with printer } : BfProgram).NoneOpen := by
    intro f mem
    cases mem
  obtain ⟨blocks, related, atRules, noneOpen, asserted⟩ :=
    generateRules_spec appends _ (atHead ▸ blank.append _) (by rw [atHead]; rfl)
      (by rw [atHead]; rfl) (atHead ▸ NoneOpen.append_settled none (settled_headSlots _)) rules
  have flavorEq : pHead.flavor = bfHookToFlavor chain.hook := by rw [atHead]; rfl
  rw [flavorEq] at related
  refine ⟨blocks, printer, related, asserted, by rw [atRules, atHead]; rfl, noneOpen, ?_⟩
  rw [atRules, atHead]
  simp only [BfProgram.append_append, List.append_assoc, programSlots]
  rfl

/-- Everything up to the stubs. -/
theorem bfProgramGenerateWith_inv (appends : AppendsSlots host chain R gen) {q : BfProgram}
    (ran : bfProgramGenerateWith gen (bfProgramNew host chain maps) = .ok ((), q)) :
    ∃ blocks printer p₁ p₂,
      List.Forall₂ (RuleSlots R (bfHookToFlavor chain.hook)) chain.rules blocks ∧
      chain.policy.isTerminal = true ∧ (host.ndebug = false → ∀ es ∈ blocks, OpenAsserted es) ∧
      p₁ = ({ bfProgramNew host chain maps with printer } : BfProgram).append
        (programSlots (bfProgramNew host chain maps) blocks) ∧
      p₁.NoneOpen ∧
      placeElfstubs p₁.fixups p₁ = .ok ((), p₂) ∧
      bfProgramFixup .elfstubCall p₂ = .ok ((), q) := by
  unfold bfProgramGenerateWith at ran
  obtain ⟨_, pHead, head, ran⟩ := gen_bind_inv ran
  rw [gen_bind_ok (gen_get pHead)] at ran
  obtain ⟨_, pRules, rules, ran⟩ := gen_bind_inv ran
  rw [generateHead_chain head] at rules
  obtain ⟨blocks, printer, related, asserted, chainEq', noneOpen, whole⟩ :=
    emitted_programSlots appends head rules
  obtain ⟨_, pPolicy, policy, ran⟩ := gen_bind_inv ran
  obtain ⟨terminal, atPolicy⟩ := generatePolicy_spec policy
  rw [chainEq'] at terminal atPolicy
  obtain ⟨_, p₂, stubs, ran⟩ := gen_bind_inv ran
  refine ⟨blocks, printer, pPolicy, p₂, related, terminal, asserted, atPolicy.trans whole, ?_,
    stubs, ran⟩
  rw [atPolicy]
  exact NoneOpen.append_settled noneOpen (settled_policySlots _)

/-- **Generation.**  A generated program holds the slots of its head, rules and policy. -/
theorem bfProgramGenerateWith_spec (appends : AppendsSlots host chain R gen) {q : BfProgram}
    (ran : bfProgramGenerateWith gen (bfProgramNew host chain maps) = .ok ((), q)) :
    ∃ blocks, Generated R (bfProgramNew host chain maps) blocks q := by
  obtain ⟨blocks, printer, p₁, p₂, rules, policy, asserted, rfl, noneOpen, stubs, calls⟩ :=
    bfProgramGenerateWith_inv appends ran
  have wait : ∀ k e, (programSlots (bfProgramNew host chain maps) blocks)[k]? = some e →
      Waiting (({ bfProgramNew host chain maps with printer } : BfProgram).append
        (programSlots (bfProgramNew host chain maps) blocks)) k e :=
    fun k e at_ => waiting_append rfl rfl at_
  generalize slotsEq : programSlots (bfProgramNew host chain maps) blocks = slots at *
  generalize startEq : ({ bfProgramNew host chain maps with printer } : BfProgram).append
    slots = p₁ at *
  have size : slots.length = p₁.img.length := by
    rw [← startEq]
    simp [bfProgramNew]
  have more := placeElfstubs_extends p₁.fixups size.le stubs
  obtain ⟨img, rfl, length, -, -⟩ := bfProgramFixup_imm (by decide) calls
  have inside : ∀ {k e}, slots[k]? = some e → k < slots.length :=
    fun at_ => (List.getElem?_eq_some_iff.mp at_).1
  refine ⟨blocks, ⟨rules, policy, asserted, ?_, ?_, ?_, ?_, ?_⟩⟩
  · show p₂.maps = maps
    rw [more.maps, ← startEq]
    rfl
  · intro f mem
    obtain ⟨before, notCall⟩ := (mem_fixups_pass (by decide) calls).mp mem
    refine ⟨?_, notCall⟩
    rcases more.fresh f before with old | ⟨-, kind⟩
    · exact noneOpen f old
    · simp [kind, BfFixupKind.type]
  · intro k e at_
    rw [slotsEq] at at_
    exact SlotState.pass (by decide) (.waiting ((wait k e at_).extend more (inside at_))) calls
  · obtain ⟨n, record⟩ := more.quiet
    refine ⟨n, ?_⟩
    show p₂.closed = _
    rw [record, ← startEq, slotsEq]
    simp [BfProgram.append, bfProgramNew]
  · intro compiled
    have fits := programSlots_fits (bfProgramNew host chain maps) blocks
      (fun k e at_ => (wait k e (slotsEq ▸ at_)).extend more (inside (slotsEq ▸ at_))) calls
    have nonempty : 0 < slots.length := by
      obtain ⟨last, length, -⟩ := programSlots_last (bfProgramNew host chain maps) blocks
      rw [slotsEq] at length
      omega
    have fresh : StubsPlaced slots.length p₁ :=
      startEq ▸ stubsPlaced_append host chain maps printer slots
    have hostEq : p₁.host = host := by rw [← startEq]; rfl
    obtain ⟨placed, -, all⟩ :=
      placeElfstubs_placed (hostEq ▸ compiled) nonempty (slotsEq ▸ fits) fresh _ stubs
    refine ⟨slots.length, placed.of_img rfl rfl length, slotsEq ▸ fits, ?_⟩
    intro e mem id waits
    obtain ⟨k, at_⟩ := List.mem_iff_getElem?.mp (slotsEq ▸ mem)
    exact all _ ((wait k e at_).listed _ waits) id rfl

/-! ## Loading -/

/-- Loading fills what is left. -/
theorem bfProgramLoadFixups_spec {p q r : BfProgram} {blocks : List (List Emitted)}
    (made : Generated R p blocks q) (ran : bfProgramLoadFixups q = .ok ((), r)) :
    r.fixups = [] ∧ r.maps = p.maps ∧
      (∀ k e, (programSlots p blocks)[k]? = some e → SlotState r k e) ∧
      r.stubStart = q.stubStart ∧ r.elfstubsLocation = q.elfstubsLocation ∧
      r.img.length = q.img.length := by
  unfold bfProgramLoadFixups at ran
  obtain ⟨_, q₁, sets, ran⟩ := gen_bind_inv ran
  obtain ⟨_, q₂, counters, ran⟩ := gen_bind_inv ran
  obtain ⟨_, q₃, printer, log⟩ := gen_bind_inv ran
  have state : ∀ k e, (programSlots p blocks)[k]? = some e → SlotState r k e := fun k e at_ =>
    (((made.slots k e at_).pass (by decide) sets).pass (by decide) counters
      |>.pass (by decide) printer).pass (by decide) log
  obtain ⟨m₁, s₁, e₁, l₁⟩ := bfProgramFixup_frame (by decide) sets
  obtain ⟨m₂, s₂, e₂, l₂⟩ := bfProgramFixup_frame (by decide) counters
  obtain ⟨m₃, s₃, e₃, l₃⟩ := bfProgramFixup_frame (by decide) printer
  obtain ⟨m₄, s₄, e₄, l₄⟩ := bfProgramFixup_frame (by decide) log
  refine ⟨?_, by rw [m₄, m₃, m₂, m₁, made.maps], state, by rw [s₄, s₃, s₂, s₁],
    by rw [e₄, e₃, e₂, e₁], by rw [l₄, l₃, l₂, l₁]⟩
  refine List.eq_nil_iff_forall_not_mem.mpr fun f mem => ?_
  obtain ⟨mem, noLog⟩ := (mem_fixups_pass (by decide) log).mp mem
  obtain ⟨mem, noPrinter⟩ := (mem_fixups_pass (by decide) printer).mp mem
  obtain ⟨mem, noCounters⟩ := (mem_fixups_pass (by decide) counters).mp mem
  obtain ⟨mem, noSet⟩ := (mem_fixups_pass (by decide) sets).mp mem
  obtain ⟨noJump, noCall⟩ := made.filled f mem
  cases kind : f.kind.type with
  | jmpNextRule => exact noJump kind
  | countersMapFd => exact noCounters kind
  | printerMapFd => exact noPrinter kind
  | logMapFd => exact noLog kind
  | setMapFd => exact noSet kind
  | elfstubCall => exact noCall kind

/-- **Linking.**  A program that has been generated and loaded contains its slots,
linked; none of them waits for the next rule, so any target will do. -/
theorem programSlots_embedded {p q r : BfProgram} {blocks : List (List Emitted)}
    (compiled : p.host.StubsCompiled) (made : Generated R p blocks q)
    (shaped : ∀ e ∈ programSlots p blocks, e.CallShaped)
    (loaded : bfProgramLoadFixups q = .ok ((), r)) (target : Nat) :
    Embedded r.image 0 target ((programSlots p blocks).map (Emitted.link p.maps)) := by
  obtain ⟨done, maps, state, starts, locations, length⟩ := bfProgramLoadFixups_spec made loaded
  obtain ⟨size, stubs, fits, placed⟩ := made.stubs compiled
  intro k it fetch
  rw [List.getElem?_map, Option.map_eq_some_iff] at fetch
  obtain ⟨e, at_, rfl⟩ := fetch
  have mem := List.mem_of_getElem? at_
  rw [Nat.zero_add, ← maps]
  exact (state k e at_).filled_link done (shaped e mem) (stubs.of_img starts locations length) fits
    (fun id waits => starts ▸ placed e mem id waits)

end Generation

end Bpfilter

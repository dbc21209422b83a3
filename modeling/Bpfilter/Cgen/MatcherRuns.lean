/-
# Cgen.MatcherRuns -- the generated matchers as code

A matcher of the real generator either falls through or takes a jump to the next rule,
and on the way it changes registers 0 to 6 and the scratch area, nothing else
(`Calm`).  This is proved for pieces of code and composed along the slots of a matcher
(`calm_matcherSlots`), so the generator is an instance of what `Cgen.Sequencing`
assumes about matchers (`matcherCode`), and what the prologue left in the context is
still there when a rule acts.

The key of a set is written to the scratch area; a key that does not fit is written
beyond the stack frame, which the kernel's verifier refuses.
-/
import Bpfilter.Cgen.MatcherSizes
import Bpfilter.Cgen.Slices

namespace Bpfilter

set_option autoImplicit false

open Ebpf

/-! ## Calm pieces of code -/

section Calm

variable {W : Type}

/-- A relation between states that registers 0 to 6 and the helpers of matchers do not disturb. -/
structure CalmRelation (env : Env W BfElfstubId) (R : Core W → Core W → Prop) : Prop where
  refl : ∀ c, R c c
  trans : ∀ {c d e}, R c d → R d e → R c e
  setReg : ∀ c (r : Reg), r < 7 → ∀ v, R c (c.setReg r v)
  lookup : ∀ c, R c (c.call (env.helper bpfFuncMapLookupElem))
  random : ∀ c, R c (c.call (env.helper bpfFuncGetPrandomU32))

/-- From any state, the piece falls through or jumps to the next rule, and keeps the relation. -/
def Calm (env : Env W BfElfstubId) (maps : BfMaps) (R : Core W → Core W → Prop)
    (es : List Emitted) : Prop :=
  ∀ c, ∃ d, R c d ∧ (eval env 0 (es.map (Emitted.link maps)) c = .fall 0 d ∨
    eval env 0 (es.map (Emitted.link maps)) c = .out d)

/-- A slot that computes a register from 0 to 6, calls a helper, or jumps to the next rule. -/
def Emitted.calm (e : Emitted) : Bool :=
  match e.fixup, e.insn.code with
  | none, .alu64 _ _ | none, .alu32 _ _ | none, .bswap | none, .ldx _ => e.insn.dst < 7
  | none, .call =>
      e.insn = bpfEmitCall bpfFuncMapLookupElem || e.insn = bpfEmitCall bpfFuncGetPrandomU32
  | some .jmpNextRule, _ => e.insn.isJump
  | _, _ => false

variable {env : Env W BfElfstubId} {maps : BfMaps} {R : Core W → Core W → Prop}

theorem Calm.append (keeps : CalmRelation env R) {f g : List Emitted} (first : Calm env maps R f)
    (second : Calm env maps R g) : Calm env maps R (f ++ g) := by
  intro c
  obtain ⟨d, kept, falls | leaves⟩ := first c
  · obtain ⟨e, kept', ends⟩ := second d
    refine ⟨e, keeps.trans kept kept', ?_⟩
    rw [List.map_append, eval_append_fall _ falls]
    exact ends
  · refine ⟨d, kept, .inr ?_⟩
    rw [List.map_append]
    exact eval_append_out _ leaves

/-- One slot, given what its instruction does. -/
theorem Calm.of_goto {e : Emitted} (plain : e.fixup = none)
    (goes : ∀ c, ∃ d, R c d ∧ ∀ hi, e.insn.exec env hi c = .goto 0 d) : Calm env maps R [e] := by
  intro c
  obtain ⟨d, kept, does⟩ := goes c
  refine ⟨d, kept, .inl ?_⟩
  rw [List.map_cons, Emitted.link, plain]
  simp only [eval, Item.exec, does]
  rfl

/-- One slot that sets a register. -/
theorem Calm.of_set (keeps : CalmRelation env R) {e : Emitted} (plain : e.fixup = none)
    (free : decide (e.insn.dst < 7) = true)
    (sets : ∀ c, ∃ v, ∀ hi, e.insn.exec env hi c = .goto 0 (c.setReg e.insn.dst v)) :
    Calm env maps R [e] := by
  refine .of_goto plain fun c => ?_
  obtain ⟨v, does⟩ := sets c
  exact ⟨_, keeps.setReg c _ (of_decide_eq_true free) v, does⟩

theorem Calm.of_slot (keeps : CalmRelation env R) {e : Emitted} (calm : e.calm = true) :
    Calm env maps R [e] := by
  unfold Emitted.calm at calm
  split at calm
  · next plain code =>
      exact .of_set keeps plain calm fun c => ⟨_, fun hi => by rw [BpfInsn.exec.eq_def, code]⟩
  · next plain code =>
      exact .of_set keeps plain calm fun c => ⟨_, fun hi => by rw [BpfInsn.exec.eq_def, code]⟩
  · next plain code =>
      exact .of_set keeps plain calm fun c => ⟨_, fun hi => by rw [BpfInsn.exec.eq_def, code]⟩
  · next plain code =>
      exact .of_set keeps plain calm fun c => ⟨_, fun hi => by rw [BpfInsn.exec.eq_def, code]⟩
  · next plain code =>
      simp only [Bool.or_eq_true, decide_eq_true_eq] at calm
      rcases calm with lookup | random
      · refine .of_goto plain fun c => ⟨_, keeps.lookup c, fun hi => ?_⟩
        rw [lookup]
        rfl
      · refine .of_goto plain fun c => ⟨_, keeps.random c, fun hi => ?_⟩
        rw [random]
        rfl
  · next waits =>
      intro c
      refine ⟨c, keeps.refl c, ?_⟩
      rw [List.map_cons, Emitted.link, waits]
      simp only
      rw [eval_out env _ c calm]
      cases e.insn.taken c with
      | true => exact .inr rfl
      | false => exact .inl rfl
  · cases calm

theorem Calm.of_all (keeps : CalmRelation env R) {es : List Emitted}
    (calm : es.all Emitted.calm = true) : Calm env maps R es := by
  induction es with
  | nil => exact fun c => ⟨c, keeps.refl c, .inl rfl⟩
  | cons e es ih =>
      rw [List.all_cons, Bool.and_eq_true] at calm
      exact Calm.append keeps (f := [e]) (.of_slot keeps calm.1) (ih calm.2)

/-- A store to the stack that keeps the relation. -/
theorem Calm.store {size : Size} {off : BitVec 16} (src : Reg)
    (kept : ∀ c v, R c (c.storeMem (c.regs 10 + off.signExtend 64) size.bytes v)) :
    Calm env maps R [{ insn := bpfStxMem size 10 src off }] :=
  .of_goto rfl fun c => ⟨_, kept c (c.regs src), fun _ => rfl⟩

/-- The stores of a piece to the stack keep the relation. -/
def StoresKept (R : Core W → Core W → Prop) (es : List Emitted) : Prop :=
  ∀ size src off, { insn := bpfStxMem size 10 src off } ∈ es → ∀ c v,
    R c (c.storeMem (c.regs 10 + off.signExtend 64) size.bytes v)

theorem StoresKept.append_left {f g : List Emitted} (stores : StoresKept R (f ++ g)) :
    StoresKept R f := fun size src off mem => stores size src off (List.mem_append_left _ mem)

theorem StoresKept.append_right {f g : List Emitted} (stores : StoresKept R (f ++ g)) :
    StoresKept R g := fun size src off mem => stores size src off (List.mem_append_right _ mem)

/-- Calm slots and stores to the stack. -/
theorem Calm.of_slots (keeps : CalmRelation env R) {es : List Emitted} (stores : StoresKept R es)
    (shaped : ∀ e ∈ es, e.calm = true ∨
      ∃ size src off, e = { insn := bpfStxMem size 10 src off }) : Calm env maps R es := by
  induction es with
  | nil => exact .of_all keeps rfl
  | cons e es ih =>
      have rest : Calm env maps R es :=
        ih (StoresKept.append_right (f := [e]) stores) fun e' mem =>
          shaped e' (List.mem_cons_of_mem _ mem)
      refine Calm.append keeps (f := [e]) ?_ rest
      rcases shaped e List.mem_cons_self with calm | ⟨size, src, off, rfl⟩
      · exact .of_slot keeps calm
      · exact .store src (stores size src off List.mem_cons_self)

/-- A map is loaded to a register. -/
theorem Calm.loadFd (keeps : CalmRelation env R) {reg : Reg} (free : reg < 7) (index : Nat) :
    Calm env maps R (loadFdSlots (.setMapFd index) reg) :=
  fun c => ⟨_, keeps.setReg c reg free _, .inl rfl⟩

/-- A calm block that may be skipped. -/
theorem Calm.skipOver (keeps : CalmRelation env R) {jump : BpfInsn} (isJump : jump.isJump = true)
    {block : List Emitted} (calm : Calm env maps R block) (short : block.length < 2 ^ 15) :
    Calm env maps R (skipOver jump block) := by
  intro c
  cases taken : jump.taken c with
  | true => exact ⟨c, keeps.refl c, .inl (eval_skipOver_taken isJump _ taken short)⟩
  | false =>
      rw [eval_skipOver_idle isJump _ taken]
      exact calm c

@[simp] theorem calm_nextImm (op : JmpOp) (r : Reg) (imm : BitVec 32) (off : BitVec 16) :
    (nextSlot (bpfJmpImm op r imm off)).calm = true := rfl

@[simp] theorem calm_nextReg (op : JmpOp) (r src : Reg) (off : BitVec 16) :
    (nextSlot (bpfJmpReg op r src off)).calm = true := rfl

@[simp] theorem calm_ldx (size : Size) (dst src : Reg) (off : BitVec 16) :
    Emitted.calm { insn := bpfLdxMem size dst src off } = decide (dst < 7) := rfl

@[simp] theorem calm_mov32Imm (dst : Reg) (imm : BitVec 32) :
    Emitted.calm { insn := bpfMov32Imm dst imm } = decide (dst < 7) := rfl

/-- A switch with two options that only load. -/
theorem calm_swich2Slots (keeps : CalmRelation env R) (reg dst src : Reg) (i₁ i₂ v : BitVec 32)
    (size : Size) (off : BitVec 16) (free : dst < 7) :
    Calm env maps R (swich2Slots reg i₁ i₂ (bpfLdxMem size dst src off)
      (bpfLdxMem size dst src off) (bpfMov64Imm dst v)) := by
  intro c
  simp only [swich2Slots, List.map_cons, List.map_nil, link_insn]
  rw [eval_jumpSlot rfl (by decide)]
  by_cases first : (bpfJmpImm .eq reg i₁ 0).taken c = true
  · simp only [first, if_true, eval_skip]
    rw [eval_ldx, eval_jumpSlot rfl (by decide)]
    exact ⟨_, keeps.setReg c dst free _, .inl rfl⟩
  simp only [first, Bool.false_eq_true, if_false]
  rw [eval_jumpSlot rfl (by decide)]
  by_cases second : (bpfJmpImm .eq reg i₂ 0).taken c = true
  · simp only [second, if_true, eval_skip]
    rw [eval_ldx, eval_jumpSlot rfl (by decide)]
    exact ⟨_, keeps.setReg c dst free _, .inl rfl⟩
  simp only [second, Bool.false_eq_true, if_false]
  rw [eval_jumpSlot rfl (by decide)]
  exact ⟨_, keeps.setReg c dst free _, .inl rfl⟩

/-! ## The matchers -/

section Matchers

theorem calm_portSlots (m : BfMatcher) : (portSlots m).all Emitted.calm = true := by
  unfold portSlots
  cases m.op <;> rfl

variable (keeps : CalmRelation env R)

include keeps

theorem calm_ip4Slots (m : BfMatcher) : Calm env maps R (ip4Slots m) := by
  have mask : ∀ v, (ip4MaskSlots v).all Emitted.calm = true := by
    intro v
    unfold ip4MaskSlots
    split <;> rfl
  refine .of_all keeps ?_
  unfold ip4Slots
  cases m.type <;> simp [ip4AddrSlots, ip4ProtoSlots, ip4NetSlots, mask, -List.all_eq_true]

theorem calm_addrCompareSlots (op : BfMatcherOp) (addr : List Byte) :
    Calm env maps R (addrCompareSlots op addr) := by
  have half : ∀ i, Calm env maps R (addrHalfSlots addr i) := fun i => .of_all keeps rfl
  unfold addrCompareSlots
  split
  · refine Calm.append keeps (half 0) ?_
    refine Calm.append keeps (f := [_]) (.of_all keeps rfl) ?_
    exact Calm.append keeps (half 8) (.of_all keeps rfl)
  · have last : Calm env maps R (skipOver (bpfJmpReg .ne 2 3 0) [nextSlot (bpfJmpA 0)]) :=
      .skipOver keeps rfl (.of_all keeps rfl) (by decide)
    have rest : Calm env maps R (skipOver (bpfJmpReg .ne 1 3 0) (addrHalfSlots addr 8 ++
        skipOver (bpfJmpReg .ne 2 3 0) [nextSlot (bpfJmpA 0)])) := by
      refine .skipOver keeps rfl (Calm.append keeps (half 8) last) ?_
      simp [addrHalfSlots, skipOver]
    exact Calm.append keeps (half 0) rest

theorem calm_ip6Slots (m : BfMatcher) : Calm env maps R (ip6Slots m) := by
  have half : ∀ addr i, (addrHalfSlots addr i).all Emitted.calm = true := fun _ _ => rfl
  have load : ∀ offset, Calm env maps R (ip6LoadSlots offset) := fun offset => .of_all keeps rfl
  have mask : ∀ v, Calm env maps R (ip6MaskSlots v) := by
    intro v
    refine .of_all keeps ?_
    unfold ip6MaskSlots
    split
    · simp only [List.all_append, List.all_cons, half]
      rfl
    · rfl
  have nexthdr : Calm env maps R (ip6NexthdrSlots m) := by
    refine .of_all keeps ?_
    unfold ip6NexthdrSlots
    split <;> rfl
  have addr : Calm env maps R (ip6AddrSlots m) :=
    Calm.append keeps (load _) (calm_addrCompareSlots keeps _ _)
  have net : Calm env maps R (ip6NetSlots m) :=
    Calm.append keeps (load _) (Calm.append keeps (mask _) (calm_addrCompareSlots keeps _ _))
  refine Calm.append keeps (f := [_, _]) (.of_all keeps rfl) ?_
  split <;> first | assumption | exact .of_all keeps rfl

theorem calm_tcpSlots (m : BfMatcher) : Calm env maps R (tcpSlots m) := by
  have flags : (tcpFlagsSlots m).all Emitted.calm = true := by
    unfold tcpFlagsSlots
    cases m.op <;> rfl
  refine .of_all keeps ?_
  unfold tcpSlots l4Slots
  cases m.type <;> simp [calm_portSlots, flags, -List.all_eq_true]

theorem calm_udpSlots (m : BfMatcher) : Calm env maps R (udpSlots m) := by
  refine .of_all keeps ?_
  unfold udpSlots l4Slots
  cases m.type <;> simp [calm_portSlots, -List.all_eq_true]

theorem calm_icmpSlots (m : BfMatcher) : Calm env maps R (icmpSlots m) := by
  have field : ∀ proto off, (icmpFieldSlots m proto off).all Emitted.calm = true := by
    intro proto off
    unfold icmpFieldSlots l4Slots
    cases m.op <;> rfl
  refine .of_all keeps ?_
  unfold icmpSlots
  cases m.type <;> first | exact field _ _ | rfl

theorem calm_metaSlots (host : Host) (chain : BfChain) (m : BfMatcher) :
    Calm env maps R (metaSlots host chain m) := by
  have port : Calm env maps R (metaPortSlots m) := by
    refine Calm.append keeps (f := [_]) (.of_all keeps rfl) ?_
    refine Calm.append keeps (calm_swich2Slots keeps _ _ _ _ _ _ _ _ (by decide)) ?_
    exact Calm.append keeps (f := [_]) (.of_all keeps rfl) (.of_all keeps (calm_portSlots m))
  have mark : Calm env maps R (metaMarkSlots host (bfHookToFlavor chain.hook) m) := by
    refine .of_all keeps ?_
    unfold metaMarkSlots
    cases bfHookToFlavor chain.hook <;> cases m.op <;> rfl
  unfold metaSlots
  cases m.type <;> first | exact port | exact mark | exact .of_all keeps rfl

theorem calm_setLookupSlots (index keyOff : Nat) :
    Calm env maps R (setLookupSlots index keyOff) :=
  Calm.append keeps (.loadFd keeps (by decide) index) (.of_all keeps rfl)

theorem calm_stxPayloadSlots (hdrOffset offset src remaining : Nat)
    (stores : StoresKept R (stxPayloadSlots hdrOffset offset src remaining)) :
    Calm env maps R (stxPayloadSlots hdrOffset offset src remaining) := by
  fun_induction stxPayloadSlots with
  | case1 => exact .of_all keeps rfl
  | case2 src remaining some ih =>
      have parts : StoresKept R ([_] ++ ([_] ++ stxPayloadSlots hdrOffset offset
        (src + (stxCopySize offset remaining).bytes)
        (remaining - (stxCopySize offset remaining).bytes))) := stores
      refine Calm.append keeps (f := [_]) (.of_all keeps rfl) ?_
      refine Calm.append keeps (f := [_]) (.store 1 ?_) (ih parts.append_right.append_right)
      exact stores _ _ _ (List.mem_cons_of_mem _ List.mem_cons_self)

theorem calm_loadHeaderSlots (info : BfMatcherMeta) : Calm env maps R (loadHeaderSlots info) := by
  refine .of_all keeps ?_
  unfold loadHeaderSlots
  cases info.layer <;> rfl

theorem calm_checkProtocolSlots (info : BfMatcherMeta) :
    Calm env maps R (checkProtocolSlots info) := by
  refine .of_all keeps ?_
  unfold checkProtocolSlots
  cases info.layer <;> rfl

theorem calm_setProtocolsSlots (key : List BfMatcherType) :
    Calm env maps R (setProtocolsSlots key) := by
  induction key with
  | nil => exact .of_all keeps rfl
  | cons type rest ih =>
      refine Calm.append keeps ?_ ih
      cases bfMatcherGetMeta type with
      | none => exact .of_all keeps rfl
      | some info => exact calm_checkProtocolSlots keeps info

theorem calm_setKeySlots (key : List BfMatcherType) (offset : Nat)
    (stores : StoresKept R (setKeySlots offset key)) :
    Calm env maps R (setKeySlots offset key) := by
  induction key generalizing offset with
  | nil => exact .of_all keeps rfl
  | cons type rest ih =>
      unfold setKeySlots at stores ⊢
      cases known : bfMatcherGetMeta type with
      | none => exact .of_all keeps rfl
      | some info =>
          simp only [known] at stores
          refine Calm.append keeps (calm_loadHeaderSlots keeps info) ?_
          exact Calm.append keeps (calm_stxPayloadSlots keeps _ _ _ _ stores.append_right.append_left)
            (ih _ stores.append_right.append_right)

theorem calm_trieKeySlots (type : BfMatcherType) (hdrOffset : Nat)
    (stores : StoresKept R (trieKeySlots type hdrOffset)) :
    Calm env maps R (trieKeySlots type hdrOffset) := by
  refine .of_slots keeps stores ?_
  unfold trieKeySlots
  cases type with
  | ip4Snet | ip4Dnet =>
      rintro e (_ | ⟨_, _ | ⟨_, _ | ⟨_, _ | ⟨_, ⟨⟩⟩⟩⟩⟩)
      · exact .inl rfl
      · exact .inr ⟨_, _, _, rfl⟩
      · exact .inl rfl
      · exact .inr ⟨_, _, _, rfl⟩
  | ip6Snet | ip6Dnet =>
      rintro e (_ | ⟨_, _ | ⟨_, _ | ⟨_, _ | ⟨_, _ | ⟨_, _ | ⟨_, ⟨⟩⟩⟩⟩⟩⟩⟩)
      · exact .inl rfl
      · exact .inr ⟨_, _, _, rfl⟩
      · exact .inl rfl
      · exact .inr ⟨_, _, _, rfl⟩
      · exact .inl rfl
      · exact .inr ⟨_, _, _, rfl⟩
  | _ => exact fun e mem => (List.not_mem_nil mem).elim

theorem calm_setTrieSlots (index : Nat) (type : BfMatcherType)
    (stores : StoresKept R (setTrieSlots index type)) :
    Calm env maps R (setTrieSlots index type) := by
  unfold setTrieSlots at stores ⊢
  cases known : bfMatcherGetMeta type with
  | none => exact .of_all keeps rfl
  | some info =>
      simp only [known] at stores
      refine Calm.append keeps (calm_checkProtocolSlots keeps info) ?_
      refine Calm.append keeps (calm_loadHeaderSlots keeps info) ?_
      exact Calm.append keeps
        (calm_trieKeySlots keeps type _ stores.append_right.append_right.append_left)
        (calm_setLookupSlots keeps index 4)

theorem calm_setSlots (chain : BfChain) (m : BfMatcher) (stores : StoresKept R (setSlots chain m)) :
    Calm env maps R (setSlots chain m) := by
  unfold setSlots at stores ⊢
  cases found : bfChainGetSetForMatcher chain m with
  | none => exact .of_all keeps rfl
  | some set =>
      simp only [found] at stores
      simp only
      split
      · next trie =>
          rw [if_pos trie] at stores
          cases keys : set.key with
          | nil => exact .of_all keeps rfl
          | cons type rest =>
              rw [keys] at stores
              exact calm_setTrieSlots keeps _ type stores
      · next hash =>
          rw [if_neg hash] at stores
          refine Calm.append keeps (calm_setProtocolsSlots keeps set.key) ?_
          exact Calm.append keeps
            (calm_setKeySlots keeps set.key 0 stores.append_right.append_left)
            (calm_setLookupSlots keeps _ 0)

/-- **Matchers.**  A matcher falls through or leaves for the next rule, and keeps what the stores
of a set matcher keep. -/
theorem calm_matcherSlots (host : Host) (chain : BfChain) (m : BfMatcher)
    (stores : m.type = .set → StoresKept R (setSlots chain m)) :
    Calm env maps R (matcherSlots host chain m) := by
  unfold matcherSlots
  cases type : m.type with
  | set => exact calm_setSlots keeps chain m (stores type)
  | metaIface | metaL3Proto | metaL4Proto | metaProbability | metaSport | metaDport | metaMark =>
      exact calm_metaSlots keeps host chain m
  | ip4Saddr | ip4Snet | ip4Daddr | ip4Dnet | ip4Proto => exact calm_ip4Slots keeps m
  | ip6Saddr | ip6Snet | ip6Daddr | ip6Dnet | ip6Nexthdr => exact calm_ip6Slots keeps m
  | tcpSport | tcpDport | tcpFlags => exact calm_tcpSlots keeps m
  | udpSport | udpDport => exact calm_udpSlots keeps m
  | icmpType | icmpCode | icmpv6Type | icmpv6Code => exact calm_icmpSlots keeps m

end Matchers

/-! ## Outcomes -/

/-- The state a matcher ends in. -/
def Matched.core : Matched W → Core W
  | .yes c => c
  | .no c => c

/-- What the code of a matcher does; the last case does not occur. -/
def matcherOutcome (env : Env W BfElfstubId) (maps : BfMaps) (host : Host) (chain : BfChain)
    (m : BfMatcher) (c : Core W) : Matched W :=
  match eval env 0 ((matcherSlots host chain m).map (Emitted.link maps)) c with
  | .fall _ d => .yes d
  | .out d => .no d
  | _ => .no c

theorem matcherOutcome_of_calm {host : Host} {chain : BfChain} {m : BfMatcher}
    (calm : Calm env maps R (matcherSlots host chain m)) (c : Core W) :
    R c (matcherOutcome env maps host chain m c).core ∧
      (eval env 0 ((matcherSlots host chain m).map (Emitted.link maps)) c).end? =
        some (matcherOutcome env maps host chain m c).toEnd := by
  obtain ⟨d, kept, falls | leaves⟩ := calm c
  · rw [matcherOutcome, falls]
    exact ⟨kept, rfl⟩
  · rw [matcherOutcome, leaves]
    exact ⟨kept, rfl⟩

/-- The matchers of the real generator are code that falls through or leaves for the next rule. -/
def matcherCode (env : Env W BfElfstubId) (maps : BfMaps) (host : Host) (chain : BfChain) :
    MatcherCode env host chain maps bfMatcherGenerate where
  frag := matcherSlots host chain
  outcome := matcherOutcome env maps host chain
  emits := bfMatcherGenerate_appends host chain
  calls m e mem :=
    Emitted.callShaped_of_sound (List.all_eq_true.mp (sound_matcherSlots host chain m) e mem)
  runs m c := by
    have anything : CalmRelation env fun _ _ => True :=
      ⟨fun _ => trivial, fun _ _ => trivial, fun _ _ _ _ => trivial, fun _ => trivial,
        fun _ => trivial⟩
    have calm : Calm env maps (fun _ _ => True) (matcherSlots host chain m) :=
      calm_matcherSlots anything host chain m fun _ _ _ _ _ _ _ => trivial
    exact runs_of_eval (matcherOutcome_of_calm calm c).2

end Calm

end Bpfilter

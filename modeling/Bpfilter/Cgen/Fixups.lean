/-
# Cgen.Fixups -- every fixup is filled, once

The generators emit shaped code: a map load is a pair of slots with its fixup on the first
one, and no other slot loads a map (`setFree_headSlots`, `shaped_matcherSlots`).  So
generating and loading a program is a life in the sense of `Cgen.Lifecycle`, and its
invariant says what has become of every fixup.

`fixups_settled` is the result for a program that was generated and loaded: nothing
waits any more, each fixup was filled once, and every map load and every stub call holds
what it was emitted for.
-/
import Bpfilter.Cgen.Lifecycle
import Bpfilter.Cgen.Load
import Bpfilter.Cgen.MatcherSizes

namespace Bpfilter

set_option autoImplicit false

open Hoare Ebpf

/-! ## The code of a program is shaped -/

/-- Shaped slots that load no set. -/
abbrev SetFree (es : List Emitted) : Prop := Shaped (fun kind => kind.setIndex = none) es

section Shapes

@[simp] theorem unpaired_jumpSlot (i : BpfInsn) (d : Nat) :
    (jumpSlot i d).unpaired = !isMapLoad i := by
  simp [jumpSlot, Emitted.unpaired, isMapLoad, setOff]

@[simp] theorem unpaired_callSlot (id : BfElfstubId) : (callSlot id).unpaired = true := by
  cases id <;> rfl

theorem Shaped.loadFdSlots {kinds : BfFixupKind → Prop} {kind : BfFixupKind}
    (map : kind.isMap = true) (allowed : kinds kind) (reg : Reg) :
    Shaped kinds (loadFdSlots kind reg) :=
  .pair map (Or.inl rfl) allowed .nil

theorem setFree_updateCountersSlots (idx : BitVec 32) : SetFree (updateCountersSlots idx) :=
  .single rfl (.single rfl (.pair rfl (Or.inl rfl) rfl (.single rfl (.single rfl .nil))))

theorem setFree_printSlots (msg : BfPrinterMsg) : SetFree (printSlots msg) :=
  .pair rfl (Or.inr rfl) rfl (.single rfl (.single rfl .nil))

theorem setFree_errorExitSlots (p : BfProgram) (msg : String) :
    SetFree (errorExitSlots p msg) := by
  unfold errorExitSlots
  refine .append (.append (setFree_updateCountersSlots _) ?_) (shaped_of_unpaired rfl)
  split
  · exact setFree_printSlots _
  · exact .nil

theorem Shaped.skipOver {kinds : BfFixupKind → Prop} {jump : BpfInsn} {block : List Emitted}
    (noLoad : isMapLoad jump = false) (inside : Shaped kinds block) :
    Shaped kinds (skipOver jump block) :=
  .single (by simp [noLoad]) inside

theorem setFree_makeDynptrSlots (p : BfProgram) (id : BitVec 32) :
    SetFree (makeDynptrSlots p id) :=
  .append (shaped_of_unpaired rfl) (.skipOver rfl (setFree_errorExitSlots p dynptrMsg))

theorem setFree_parseL2Slots (p : BfProgram) (id : BitVec 32) : SetFree (parseL2Slots p id) :=
  .append (.append (shaped_of_unpaired rfl) (.skipOver rfl (setFree_errorExitSlots p l2Msg)))
    (shaped_of_unpaired rfl)

theorem setFree_parseIpv6Slots (flags : BfChainFlags) : SetFree (parseIpv6Slots flags) :=
  .skipOver rfl (shaped_of_unpaired rfl)

theorem setFree_parseL3Slots (p : BfProgram) (id : BitVec 32) : SetFree (parseL3Slots p id) := by
  refine .append (shaped_of_unpaired rfl) (.skipOver rfl ?_)
  refine .append (.append (.append (.append (shaped_of_unpaired rfl) ?_) ?_) ?_) ?_
  · exact .skipOver rfl (setFree_errorExitSlots p l3Msg)
  · exact shaped_of_unpaired rfl
  · exact shaped_of_unpaired rfl
  · exact setFree_parseIpv6Slots _

theorem setFree_parseL4Slots (p : BfProgram) (id : BitVec 32) : SetFree (parseL4Slots p id) := by
  refine .append (shaped_of_unpaired rfl) (.skipOver rfl ?_)
  exact .append (.append (shaped_of_unpaired rfl)
    (.skipOver rfl (setFree_errorExitSlots p l4Msg))) (shaped_of_unpaired rfl)

theorem setFree_headStart (flags : BfChainFlags) : SetFree (headStart flags) := by
  unfold headStart
  refine .append (.append (shaped_of_unpaired rfl) ?_) ?_
  · split
    · refine .append (.loadFdSlots rfl ?_ 2) (shaped_of_unpaired rfl)
      rfl
    · exact .nil
  · split
    · exact shaped_of_unpaired rfl
    · exact .nil

theorem setFree_headSlots (p : BfProgram) : SetFree (headSlots p) := by
  have start : SetFree (prologueStart p p.flavor) := by
    cases p.flavor <;> exact shaped_of_unpaired rfl
  have fromL3 : ∀ kfunc, SetFree (fromL3Slots p kfunc) := fun kfunc =>
    .append (.append (setFree_makeDynptrSlots ..) (setFree_parseL3Slots ..))
      (setFree_parseL4Slots ..)
  have fromL2 : ∀ kfunc, SetFree (fromL2Slots p kfunc) := fun kfunc =>
    .append (.append (.append (setFree_makeDynptrSlots ..) (setFree_parseL2Slots ..))
      (setFree_parseL3Slots ..)) (setFree_parseL4Slots ..)
  refine .append (setFree_headStart _) (.append start ?_)
  cases p.flavor with
  | nf => exact fromL3 _
  | cgroup => exact fromL3 _
  | tc => exact fromL2 _
  | xdp => exact fromL2 _

theorem setFree_policySlots (chain : BfChain) : SetFree (policySlots chain) :=
  .append (setFree_updateCountersSlots _) (shaped_of_unpaired rfl)

theorem setFree_actionSlots (flavor : BfFlavor) (rule : BfRule) :
    SetFree (actionSlots flavor rule) := by
  unfold actionSlots
  refine .append ?_ (.append ?_ (.append ?_ ?_))
  · cases rule.mark <;> exact shaped_of_unpaired rfl
  · split
    · exact shaped_of_unpaired rfl
    · exact .nil
  · split
    · exact setFree_updateCountersSlots _
    · exact .nil
  · split
    · exact shaped_of_unpaired rfl
    · exact .nil

end Shapes

section Matchers

variable (host : Host) (chain : BfChain) (m : BfMatcher)

theorem unpaired_ip4Slots : (ip4Slots m).all Emitted.unpaired = true := by
  have mask : ∀ v, (ip4MaskSlots v).all Emitted.unpaired = true := by
    intro v
    unfold ip4MaskSlots
    split <;> rfl
  have net : (ip4NetSlots m).all Emitted.unpaired = true := by
    rw [ip4NetSlots, List.all_cons, List.all_cons, List.all_append, mask]
    rfl
  unfold ip4Slots
  cases m.type with
  | ip4Snet => exact net
  | ip4Dnet => exact net
  | _ => rfl

theorem unpaired_addrCompareSlots (op : BfMatcherOp) (addr : List Byte) :
    (addrCompareSlots op addr).all Emitted.unpaired = true := by
  unfold addrCompareSlots
  split <;> rfl

theorem unpaired_ip6Slots : (ip6Slots m).all Emitted.unpaired = true := by
  have mask : ∀ v, (ip6MaskSlots v).all Emitted.unpaired = true := by
    intro v
    unfold ip6MaskSlots
    split <;> rfl
  have addr : (ip6AddrSlots m).all Emitted.unpaired = true := by
    rw [ip6AddrSlots, List.all_append, unpaired_addrCompareSlots]
    rfl
  have net : (ip6NetSlots m).all Emitted.unpaired = true := by
    rw [ip6NetSlots, List.all_append, List.all_append, mask, unpaired_addrCompareSlots]
    rfl
  have nexthdr : (ip6NexthdrSlots m).all Emitted.unpaired = true := by
    unfold ip6NexthdrSlots
    split <;> rfl
  unfold ip6Slots
  cases m.type with
  | ip6Saddr => exact addr
  | ip6Daddr => exact addr
  | ip6Snet => exact net
  | ip6Dnet => exact net
  | ip6Nexthdr => exact nexthdr
  | _ => rfl

theorem unpaired_portSlots : (portSlots m).all Emitted.unpaired = true := by
  unfold portSlots
  cases m.op <;> rfl

theorem unpaired_tcpSlots : (tcpSlots m).all Emitted.unpaired = true := by
  have flags : (tcpFlagsSlots m).all Emitted.unpaired = true := by
    unfold tcpFlagsSlots
    cases m.op <;> rfl
  unfold tcpSlots
  cases m.type with
  | tcpSport => exact unpaired_portSlots m
  | tcpDport => exact unpaired_portSlots m
  | tcpFlags => exact flags
  | _ => rfl

theorem unpaired_udpSlots : (udpSlots m).all Emitted.unpaired = true := by
  unfold udpSlots
  cases m.type with
  | udpSport => exact unpaired_portSlots m
  | udpDport => exact unpaired_portSlots m
  | _ => rfl

theorem unpaired_icmpSlots : (icmpSlots m).all Emitted.unpaired = true := by
  have field : ∀ proto offset, (icmpFieldSlots m proto offset).all Emitted.unpaired = true := by
    intro proto offset
    unfold icmpFieldSlots
    cases m.op <;> rfl
  unfold icmpSlots
  cases m.type with
  | icmpType => exact field _ _
  | icmpCode => exact field _ _
  | icmpv6Type => exact field _ _
  | icmpv6Code => exact field _ _
  | _ => rfl

theorem unpaired_metaSlots : (metaSlots host chain m).all Emitted.unpaired = true := by
  have port : (metaPortSlots m).all Emitted.unpaired = true := by
    rw [metaPortSlots, List.all_cons, List.all_append, List.all_cons, unpaired_portSlots]
    rfl
  have mark : ∀ flavor, (metaMarkSlots host flavor m).all Emitted.unpaired = true := by
    intro flavor
    unfold metaMarkSlots
    cases flavor <;> cases m.op <;> rfl
  unfold metaSlots
  cases m.type with
  | metaSport => exact port
  | metaDport => exact port
  | metaMark => exact mark _
  | _ => rfl

theorem unpaired_checkProtocolSlots (info : BfMatcherMeta) :
    (checkProtocolSlots info).all Emitted.unpaired = true := by
  unfold checkProtocolSlots
  cases info.layer <;> rfl

theorem unpaired_loadHeaderSlots (info : BfMatcherMeta) :
    (loadHeaderSlots info).all Emitted.unpaired = true := by
  unfold loadHeaderSlots
  cases info.layer <;> rfl

theorem unpaired_stxPayloadSlots (hdrOffset offset src remaining : Nat) :
    (stxPayloadSlots hdrOffset offset src remaining).all Emitted.unpaired = true := by
  fun_induction stxPayloadSlots with
  | case1 => rfl
  | case2 src remaining some ih => exact ih

theorem unpaired_setProtocolsSlots (key : List BfMatcherType) :
    (setProtocolsSlots key).all Emitted.unpaired = true := by
  induction key with
  | nil => rfl
  | cons type rest ih =>
      rw [setProtocolsSlots, List.all_append, ih, Bool.and_true]
      cases bfMatcherGetMeta type with
      | none => rfl
      | some info => exact unpaired_checkProtocolSlots info

theorem unpaired_setKeySlots (key : List BfMatcherType) (offset : Nat) :
    (setKeySlots offset key).all Emitted.unpaired = true := by
  induction key generalizing offset with
  | nil => rfl
  | cons type rest ih =>
      unfold setKeySlots
      cases bfMatcherGetMeta type with
      | none => rfl
      | some info =>
          simp only [List.all_append, unpaired_loadHeaderSlots, unpaired_stxPayloadSlots, ih,
            Bool.and_true]

theorem unpaired_trieKeySlots (type : BfMatcherType) (hdrOffset : Nat) :
    (trieKeySlots type hdrOffset).all Emitted.unpaired = true := by
  cases type <;> rfl

theorem shaped_setLookupSlots (index keyOff : Nat) :
    Shaped (fun _ => True) (setLookupSlots index keyOff) :=
  .append (.loadFdSlots rfl trivial 1) (shaped_of_unpaired rfl)

theorem shaped_setSlots : Shaped (fun _ => True) (setSlots chain m) := by
  unfold setSlots
  cases bfChainGetSetForMatcher chain m with
  | none => exact .nil
  | some set =>
      simp only
      split
      · cases set.key with
        | nil => exact .nil
        | cons type rest =>
            simp only [setTrieSlots]
            cases bfMatcherGetMeta type with
            | none => exact .nil
            | some info =>
                refine .append (shaped_of_unpaired (unpaired_checkProtocolSlots info))
                  (.append (shaped_of_unpaired (unpaired_loadHeaderSlots info))
                    (.append (shaped_of_unpaired (unpaired_trieKeySlots type _))
                      (shaped_setLookupSlots _ 4)))
      · exact .append (shaped_of_unpaired (unpaired_setProtocolsSlots _))
          (.append (shaped_of_unpaired (unpaired_setKeySlots _ _)) (shaped_setLookupSlots _ 0))

theorem unpaired_matcherSlots (other : m.type ≠ .set) :
    (matcherSlots host chain m).all Emitted.unpaired = true := by
  unfold matcherSlots
  cases type : m.type <;>
    first
      | exact unpaired_metaSlots host chain m
      | exact unpaired_ip4Slots m
      | exact unpaired_ip6Slots m
      | exact unpaired_tcpSlots m
      | exact unpaired_udpSlots m
      | exact unpaired_icmpSlots m
      | exact absurd type other

theorem shaped_matcherSlots : Shaped (fun _ => True) (matcherSlots host chain m) := by
  by_cases set : m.type = .set
  · unfold matcherSlots
    rw [set]
    exact shaped_setSlots chain m
  · exact shaped_of_unpaired (unpaired_matcherSlots host chain m set)

theorem setIndex_of_unpaired {es : List Emitted} (alone : es.all Emitted.unpaired = true) :
    es.filterMap Emitted.setIndex = [] := by
  have shaped : SetFree es := shaped_of_unpaired alone
  exact shaped.setIndex_eq_nil fun _ free => free

/-- A set matcher that was compiled loads the map of its set, once. -/
theorem setIndex_setSlots {p q : BfProgram} (ran : bfMatcherGenerateSet m p = .ok ((), q)) :
    (setSlots p.chain m).filterMap Emitted.setIndex = [(m.payloadU32 0).toNat] := by
  unfold bfMatcherGenerateSet at ran
  rw [gen_bind_ok (gen_get p)] at ran
  unfold setSlots
  cases found : bfChainGetSetForMatcher p.chain m with
  | none =>
      rw [found] at ran
      cases ran
  | some set =>
      rw [found] at ran
      simp only at ran ⊢
      split
      · rename_i trie
        rw [if_pos trie] at ran
        cases key : set.key with
        | nil =>
            rw [key] at ran
            cases ran
        | cons type rest =>
            rw [key] at ran
            simp only [bfMatcherGenerateSetTrie] at ran
            simp only [setTrieSlots]
            cases known : bfMatcherGetMeta type with
            | none =>
                rw [known] at ran
                cases ran
            | some info =>
                simp only [List.filterMap_append,
                  setIndex_of_unpaired (unpaired_checkProtocolSlots info),
                  setIndex_of_unpaired (unpaired_loadHeaderSlots info),
                  setIndex_of_unpaired (unpaired_trieKeySlots type _)]
                rfl
      · simp only [List.filterMap_append, setIndex_of_unpaired (unpaired_setProtocolsSlots _),
          setIndex_of_unpaired (unpaired_setKeySlots _ _)]
        rfl

/-- Every matcher that was compiled loads the map it refers to, and no other. -/
theorem setIndex_matcherSlots {p q : BfProgram} (ran : bfMatcherGenerate m p = .ok ((), q)) :
    (matcherSlots host p.chain m).filterMap Emitted.setIndex = m.setIndex.toList := by
  unfold BfMatcher.setIndex
  by_cases set : m.type = .set
  · rw [if_pos set]
    unfold bfMatcherGenerate at ran
    unfold matcherSlots
    rw [set] at ran ⊢
    exact setIndex_setSlots m ran
  · rw [if_neg set, setIndex_of_unpaired (unpaired_matcherSlots host p.chain m set)]
    rfl

end Matchers

/-! ## Generation as a life -/

/-- What a stretch of a life adds to the ledger: slots, and set fixups. -/
structure Grown (life life' : Ledger) (size : Nat) (indices : List Nat) : Prop where
  placed : life'.placed = life.placed
  size : life'.emitted.length = life.emitted.length + size
  sets : life'.created.filterMap (·.kind.setIndex) =
    life.created.filterMap (·.kind.setIndex) ++ indices

theorem Grown.trans {a b c : Ledger} {m n : Nat} {first second : List Nat}
    (one : Grown a b m first) (two : Grown b c n second) :
    Grown a c (m + n) (first ++ second) := by
  refine ⟨two.placed.trans one.placed, ?_, ?_⟩
  · rw [two.size, one.size, Nat.add_assoc]
  · rw [two.sets, one.sets, List.append_assoc]

theorem life_emit {p : BfProgram} (life : Ledger) {es : List Emitted}
    (shaped : Shaped (fun _ => True) es) :
    ∃ life', Life (p, life) (p.append es, life') ∧
      Grown life life' es.length (es.filterMap Emitted.setIndex) := by
  refine ⟨_, .single (.emit p life es shaped), rfl, ?_, ?_⟩
  · rw [List.length_append, List.length_map]
  · rw [List.filterMap_append, setIndex_fixupsFrom]

theorem life_fill {type : BfFixupType} {p q : BfProgram} (life : Ledger)
    (ran : bfProgramFixup type p = .ok ((), q)) :
    ∃ life', Life (p, life) (q, life') ∧ Grown life life' 0 [] :=
  ⟨_, .single (.fill life ran), rfl, rfl, (List.append_nil _).symm⟩

section Generation

variable {host : Host} {chain : BfChain}

theorem generateMatchers_setIndex (ms : List BfMatcher) {p q : BfProgram} (tracked : p.Tracked)
    (hosted : p.host = host) (chained : p.chain = chain)
    (ran : generateMatchers bfMatcherGenerate ms p = .ok ((), q)) :
    q = p.append (ms.flatMap (matcherSlots host chain)) ∧
      (ms.flatMap (matcherSlots host chain)).filterMap Emitted.setIndex =
        ms.filterMap BfMatcher.setIndex := by
  induction ms generalizing p with
  | nil =>
      cases ran
      exact ⟨by simp, rfl⟩
  | cons m ms ih =>
      obtain ⟨_, p₁, first, rest⟩ := gen_bind_inv ran
      have own := setIndex_matcherSlots host m first
      obtain rfl := bfMatcherGenerate_emits m p p₁ tracked hosted chained first
      obtain ⟨rfl, others⟩ := ih (tracked.append _) hosted chained rest
      rw [chained] at own
      refine ⟨by simp, ?_⟩
      rw [List.flatMap_cons, List.filterMap_append, own, others]
      cases index : m.setIndex <;> simp [index]

theorem shaped_ruleSlots (flavor : BfFlavor) (rule : BfRule) :
    Shaped (fun _ => True) (ruleSlots (matcherSlots host chain) flavor rule) := by
  refine .append ?_ ((setFree_actionSlots flavor rule).mono fun _ _ => trivial)
  induction rule.matchers with
  | nil => exact .nil
  | cons m ms ih => exact (shaped_matcherSlots host chain m).append ih

/-- A rule is emitted, then its jumps are filled. -/
theorem bfProgramGenerateRule_life (rule : BfRule) {p q : BfProgram} (life : Ledger)
    (tracked : p.Tracked) (hosted : p.host = host) (chained : p.chain = chain)
    (ran : bfProgramGenerateRuleWith bfMatcherGenerate rule p = .ok ((), q)) :
    ∃ life', Life (p, life) (q, life') ∧
      Grown life life' (ruleSlots (matcherSlots host chain) p.flavor rule).length
        (rule.matchers.filterMap BfMatcher.setIndex) := by
  unfold bfProgramGenerateRuleWith at ran
  obtain ⟨_, p₁, matchers, ran⟩ := gen_bind_inv ran
  obtain ⟨rfl, sets⟩ := generateMatchers_setIndex rule.matchers tracked hosted chained matchers
  obtain ⟨_, p₂, actions, jumps⟩ := gen_bind_inv ran
  obtain rfl := generateActions_spec actions
  rw [BfProgram.append_append] at jumps
  have shaped : Shaped (fun _ => True) (ruleSlots (matcherSlots host chain) p.flavor rule) :=
    shaped_ruleSlots p.flavor rule
  obtain ⟨life₁, emitted, grown⟩ := life_emit (p := p) life shaped
  obtain ⟨life₂, filled, same⟩ := life_fill life₁ jumps
  refine ⟨life₂, emitted.trans filled, ?_⟩
  have whole := grown.trans same
  rwa [Nat.add_zero, List.append_nil, ruleSlots, List.filterMap_append, sets,
    (setFree_actionSlots p.flavor rule).setIndex_eq_nil fun _ free => free, List.append_nil] at whole

/-- The rule loop. -/
theorem generateRules_life (rules : List BfRule) {p q : BfProgram} (life : Ledger)
    (tracked : p.Tracked) (hosted : p.host = host) (chained : p.chain = chain)
    (none : p.NoneOpen) (ran : generateRules bfMatcherGenerate rules p = .ok ((), q)) :
    ∃ life', Life (p, life) (q, life') ∧
      Grown life life'
        (rules.map fun rule => (ruleSlots (matcherSlots host chain) p.flavor rule).length).sum
        ((rules.flatMap (·.matchers)).filterMap BfMatcher.setIndex) := by
  induction rules generalizing p life with
  | nil =>
      cases ran
      exact ⟨life, .refl, rfl, rfl, (List.append_nil _).symm⟩
  | cons rule rules ih =>
      obtain ⟨_, p₁, first, rest⟩ := gen_bind_inv ran
      obtain ⟨life₁, lived, grown⟩ :=
        bfProgramGenerateRule_life rule life tracked hosted chained first
      obtain ⟨es, -, rfl, -⟩ := bfProgramGenerateRuleWith_spec
        (bfMatcherGenerate_appends host chain) rule tracked hosted chained none first
      obtain ⟨life₂, lived', grown'⟩ := ih life₁ (tracked.append _) hosted chained
        (NoneOpen.append_fillNext none es) rest
      refine ⟨life₂, lived.trans lived', ?_⟩
      rw [List.map_cons, List.sum_cons, List.flatMap_cons, List.filterMap_append]
      exact grown.trans grown'

/-- The instructions of a stub. -/
def Host.stubSize (host : Host) (id : BfElfstubId) : Nat :=
  match host.getElfstub id with
  | none => 0
  | some stub => stub.insns.length

theorem setIndex_strs (stub : BfElfstub) (start : Nat) :
    (stub.strs.map fun str => (⟨.printerMapFd, start + str.1⟩ : BfFixup)).filterMap
      (·.kind.setIndex) = [] := by
  rw [List.filterMap_eq_nil_iff]
  intro f mem
  obtain ⟨str, -, rfl⟩ := List.mem_map.mp mem
  rfl

/-- The stubs are placed one after the other behind the program. -/
theorem placeElfstubs_life (fs : List BfFixup) (paired : host.StubsPaired) {p q : BfProgram}
    (life : Ledger) (hosted : p.host = host) (pending : ∀ f ∈ fs, f ∈ p.fixups)
    (ran : placeElfstubs fs p = .ok ((), q)) :
    ∃ life' added, Life (p, life) (q, life') ∧ life'.placed = life.placed ++ added ∧
      life'.emitted.length =
        life.emitted.length + (added.map fun stub => host.stubSize stub.1).sum ∧
      life'.created.filterMap (·.kind.setIndex) = life.created.filterMap (·.kind.setIndex) := by
  induction fs generalizing p life with
  | nil =>
      cases ran
      exact ⟨life, [], .refl, (List.append_nil _).symm, rfl, rfl⟩
  | cons f fs ih =>
      obtain ⟨_, p₁, first, rest⟩ := gen_bind_inv ran
      have more := (placeElfstub_extends (le_refl p.img.length) first).1
      have later : ∀ g ∈ fs, g ∈ p₁.fixups := fun g mem =>
        more.old g (pending g (List.mem_cons_of_mem f mem))
      rcases placeElfstub_cases first with ⟨rfl, -⟩ | ⟨id, stub, p₂, kind, fresh, found, -, -⟩
      · exact ih life hosted later rest
      · have step : LifeStep (p, life) (p₁, _) :=
          .place life (pending f List.mem_cons_self) kind fresh found first
        have stubbed := placeElfstub_added (paired id stub (hosted ▸ found)) kind fresh found first
        obtain ⟨life', added, lived, placed, size, sets⟩ :=
          ih _ (more.host.trans hosted) later rest
        refine ⟨life', (id, p.img.length) :: added, .head step lived, ?_, ?_, ?_⟩
        · rw [placed, List.append_assoc]
          rfl
        · have own : host.stubSize id = stub.insns.length := by
            rw [Host.stubSize, ← hosted, found]
          rw [size, List.length_append, List.length_drop, stubbed.size, List.map_cons,
            List.sum_cons, own, Nat.add_sub_cancel_left, Nat.add_assoc]
        · rw [sets, List.filterMap_append, setIndex_strs, List.append_nil]

theorem programSlots_size (flavor : BfFlavor) (p : BfProgram) (rules : List BfRule) :
    (programSlots p (rules.map (ruleSlots (matcherSlots host chain) flavor))).length =
      (headSlots p).length +
        ((rules.map fun rule => (ruleSlots (matcherSlots host chain) flavor rule).length).sum +
          (policySlots p.chain).length) := by
  rw [programSlots, List.length_append, List.length_append, List.length_flatten, List.map_map,
    List.map_map]
  simp only [Function.comp_def, fillNext_length]

/-- **Generating a program is a life.** -/
theorem bfProgramGenerate_life {maps : BfMaps} (paired : host.StubsPaired) {q : BfProgram}
    (ran : bfProgramGenerate (bfProgramNew host chain maps) = .ok ((), q)) :
    ∃ life, Life (bfProgramNew host chain maps, Ledger.empty) (q, life) ∧
      life.emitted.length =
        (programSlots (bfProgramNew host chain maps)
          (chain.rules.map (ruleSlots (matcherSlots host chain) (bfHookToFlavor chain.hook)))).length +
        (life.placed.map fun stub => host.stubSize stub.1).sum ∧
      life.created.filterMap (·.kind.setIndex) =
        (chain.rules.flatMap (·.matchers)).filterMap BfMatcher.setIndex := by
  unfold bfProgramGenerate bfProgramGenerateWith at ran
  obtain ⟨_, pHead, head, ran⟩ := gen_bind_inv ran
  rw [gen_bind_ok (gen_get pHead)] at ran
  obtain ⟨_, pRules, rules, ran⟩ := gen_bind_inv ran
  obtain ⟨_, pPolicy, policy, ran⟩ := gen_bind_inv ran
  obtain ⟨_, pStubs, stubs, calls⟩ := gen_bind_inv ran
  -- the head
  obtain ⟨printer, noted⟩ := prologueNoted_new host chain maps (bfHookToFlavor chain.hook)
  have atHead := generateHead_spec bfProgramNew_tracked head
  have flavored : (bfProgramNew host chain maps).flavor = bfHookToFlavor chain.hook := rfl
  rw [flavored, noted] at atHead
  obtain ⟨life₁, lived₁, grown₁⟩ := life_emit
    (p := { bfProgramNew host chain maps with printer }) Ledger.empty
    ((setFree_headSlots (bfProgramNew host chain maps)).mono fun _ _ => trivial)
  have start : Life (bfProgramNew host chain maps, Ledger.empty)
      ({ bfProgramNew host chain maps with printer }, Ledger.empty) := .single (.note _ _ printer)
  rw [← atHead] at lived₁
  -- the rules
  have blank : ({ bfProgramNew host chain maps with printer } : BfProgram).Tracked := rfl
  have trackedHead : pHead.Tracked := atHead ▸ blank.append _
  have hosted : pHead.host = host := by rw [atHead]; rfl
  have chained : pHead.chain = chain := by rw [atHead]; rfl
  have noneOpen : pHead.NoneOpen := by
    rw [atHead]
    refine NoneOpen.append_settled ?_ (settled_headSlots _)
    intro f mem
    cases mem
  rw [chained] at rules
  obtain ⟨life₂, lived₂, grown₂⟩ :=
    generateRules_life chain.rules life₁ trackedHead hosted chained noneOpen rules
  obtain ⟨blocks, -, atRules, -⟩ := generateRules_spec (bfMatcherGenerate_appends host chain)
    chain.rules trackedHead hosted chained noneOpen rules
  have flavoredHead : pHead.flavor = bfHookToFlavor chain.hook := by
    rw [BfProgram.flavor, chained]
  rw [flavoredHead] at grown₂
  -- the policy
  have chainedRules : pRules.chain = chain := by rw [atRules]; exact chained
  have hostedRules : pRules.host = host := by rw [atRules]; exact hosted
  obtain ⟨-, rfl⟩ := generatePolicy_spec policy
  obtain ⟨life₃, lived₃, grown₃⟩ := life_emit (p := pRules) life₂
    ((setFree_policySlots pRules.chain).mono fun _ _ => trivial)
  -- the stubs
  obtain ⟨life₄, added, lived₄, placed, size, sets⟩ := placeElfstubs_life
    (p := pRules.append (policySlots pRules.chain)) _ paired life₃ hostedRules
    (fun f mem => mem) stubs
  obtain ⟨life₅, lived₅, grown₅⟩ := life_fill life₄ calls
  have grown := (grown₁.trans grown₂).trans grown₃
  refine ⟨life₅, (((((start.trans lived₁).trans lived₂).trans lived₃).trans lived₄).trans lived₅),
    ?_, ?_⟩
  · have none : life₃.placed = [] := grown.placed
    rw [grown₅.size, grown₅.placed, size, placed, none, grown.size, programSlots_size,
      chainedRules]
    simp only [Ledger.empty, List.length_nil, List.nil_append]
    show _ = _ + (_ + (policySlots chain).length) + _
    omega
  · rw [grown₅.sets, sets, grown.sets, (setFree_headSlots _).setIndex_eq_nil fun _ free => free,
      (setFree_policySlots _).setIndex_eq_nil fun _ free => free]
    simp [Ledger.empty]

/-- The passes of a load. -/
theorem bfProgramLoadFixups_life {q r : BfProgram} (life : Ledger)
    (ran : bfProgramLoadFixups q = .ok ((), r)) :
    ∃ life', Life (q, life) (r, life') ∧ Grown life life' 0 [] := by
  unfold bfProgramLoadFixups at ran
  obtain ⟨_, q₁, sets, ran⟩ := gen_bind_inv ran
  obtain ⟨_, q₂, counters, ran⟩ := gen_bind_inv ran
  obtain ⟨_, q₃, printer, log⟩ := gen_bind_inv ran
  obtain ⟨life₁, lived₁, grown₁⟩ := life_fill life sets
  obtain ⟨life₂, lived₂, grown₂⟩ := life_fill life₁ counters
  obtain ⟨life₃, lived₃, grown₃⟩ := life_fill life₂ printer
  obtain ⟨life₄, lived₄, grown₄⟩ := life_fill life₃ log
  exact ⟨life₄, ((lived₁.trans lived₂).trans lived₃).trans lived₄,
    ((grown₁.trans grown₂).trans grown₃).trans grown₄⟩

end Generation

/-! ## What has become of the fixups -/

/-- The state of every fixup of a program `r` that was generated for `chain` and loaded. -/
structure FixupsSettled (host : Host) (chain : BfChain) (maps : BfMaps) (r : BfProgram)
    (life : Ledger) : Prop where
  /-- No fixup remains. -/
  noneLeft : r.fixups = []
  /-- Every fixup was filled once, and no slot has two of them. -/
  filledOnce : life.filled.Perm life.created ∧ (life.created.map (·.insn)).Nodup
  /-- Every map load has a fixup, unless a stub was compiled with it. -/
  loads : ∀ k i, life.emitted[k]? = some i → isMapLoad i = true →
    (∃ f ∈ life.created, f.insn = k ∧ f.kind.isMap = true) ∨
      ∃ id s, (id, s) ∈ life.placed ∧ s ≤ k ∧ k < s + host.stubSize id
  /-- A map load holds the descriptor of its map, and is otherwise as it was emitted. -/
  descriptors : ∀ f ∈ life.created, f.kind.isMap = true → ∃ fd lo hi, maps.fdOf f.kind = some fd ∧
    isMapLoad lo = true ∧ hi.code = .reserved ∧
    life.emitted[f.insn]? = some lo ∧ life.emitted[f.insn + 1]? = some hi ∧
    r.img[f.insn]? = some { lo with imm := fd } ∧ r.img[f.insn + 1]? = some hi
  /-- The sets that are loaded are those of the set matchers, in order. -/
  sets : life.created.filterMap (·.kind.setIndex) =
    (chain.rules.flatMap (·.matchers)).filterMap BfMatcher.setIndex
  /-- A stub call goes to the place where its stub begins. -/
  calls : ∀ f ∈ life.created, ∀ id, f.kind = .elfstubCall id → ∃ s distance,
    (id, s) ∈ life.placed ∧ r.img[f.insn]? = some (bpfCallRel distance) ∧
      (f.insn : Int) + 1 + distance.toInt = s
  /-- Where a stub was placed are its instructions; a string load refers to the printer. -/
  stubs : ∀ id s, (id, s) ∈ life.placed → ∃ stub, host.getElfstub id = some stub ∧
    (∀ k < stub.insns.length, (∀ str ∈ stub.strs, str.1 ≠ k ∧ str.1 + 1 ≠ k) →
      r.img[s + k]? = stub.insns[k]?) ∧
    ∀ str ∈ stub.strs, ⟨.printerMapFd, s + str.1⟩ ∈ life.created
  /-- No stub was placed twice. -/
  stubsOnce : (life.placed.map (·.1)).Nodup
  /-- The image holds the program and the stubs that were placed, and nothing else. -/
  size : r.img.length =
    (programSlots (bfProgramNew host chain maps)
      (chain.rules.map (ruleSlots (matcherSlots host chain) (bfHookToFlavor chain.hook)))).length +
    (life.placed.map fun stub => host.stubSize stub.1).sum

section Settled

variable {host : Host} {p : BfProgram} {life : Ledger}

theorem LifeSound.filled (sound : LifeSound host p life) (done : p.fixups = []) {f : BfFixup}
    (mem : f ∈ life.created) : f ∈ life.filled := by
  have either := sound.account.balance.mem_iff.mp mem
  rwa [done, List.append_nil] at either

theorem fdOf_of_value {f : BfFixup} {value : BitVec 32} (map : f.kind.isMap = true)
    (known : bfProgramFixupValue p f = .ok (.imm, value)) : p.maps.fdOf f.kind = some value := by
  obtain ⟨kind, insn⟩ := f
  cases kind with
  | jmpNextRule => cases map
  | elfstubCall id => cases map
  | countersMapFd =>
      cases known
      rfl
  | printerMapFd =>
      cases known
      rfl
  | logMapFd =>
      cases known
      rfl
  | setMapFd index =>
      simp only [bfProgramFixupValue] at known
      split at known
      · cases known
      · rename_i found
        cases known
        exact found

/-- A map load of a program in which nothing waits. -/
theorem LifeSound.load (sound : LifeSound host p life) (done : p.fixups = []) {f : BfFixup}
    (mem : f ∈ life.created) (map : f.kind.isMap = true) :
    ∃ fd lo hi, p.maps.fdOf f.kind = some fd ∧ isMapLoad lo = true ∧ hi.code = .reserved ∧
      life.emitted[f.insn]? = some lo ∧ life.emitted[f.insn + 1]? = some hi ∧
      p.img[f.insn]? = some { lo with imm := fd } ∧ p.img[f.insn + 1]? = some hi := by
  have imm : f.kind.type ≠ .jmpNextRule := by
    obtain ⟨kind, insn⟩ := f
    cases kind <;> simp [BfFixupKind.type] at map ⊢
    cases map
  obtain ⟨lo, hi, first, load, second, code⟩ := (sound.record.shapes f mem).load map
  obtain ⟨insn, value, text, known, here⟩ :=
    sound.account.resolved f (sound.filled done mem) imm
  rw [first, Option.some.injEq] at text
  subst text
  refine ⟨value, lo, hi, fdOf_of_value map known, load, code, first, second, here, ?_⟩
  rw [sound.account.kept, second]
  intro g filled same
  -- the second slot of a pair is under no fixup
  obtain ⟨i, at_, real⟩ := (sound.record.shapes g (sound.account.created_of_filled filled)).first
  rw [same, second, Option.some.injEq] at at_
  exact real (at_ ▸ code)

/-- A stub call of a program in which nothing waits. -/
theorem LifeSound.call (sound : LifeSound host p life) (done : p.fixups = [])
    (fits : p.img.length ≤ 2 ^ 32) {f : BfFixup} {id : BfElfstubId} (mem : f ∈ life.created)
    (kind : f.kind = .elfstubCall id) :
    ∃ s distance, (id, s) ∈ life.placed ∧ p.img[f.insn]? = some (bpfCallRel distance) ∧
      (f.insn : Int) + 1 + distance.toInt = s := by
  have resolved := sound.account.resolved f (sound.filled done mem) (by simp [kind, BfFixupKind.type])
  have placed := Accounted.resolved_placed resolved kind
  obtain ⟨s, mem'⟩ : ∃ s, (id, s) ∈ life.placed := by
    by_contra absent
    push Not at absent
    exact placed (sound.located.missing id absent)
  obtain ⟨insn, value, text, known, here⟩ := resolved
  rw [(sound.record.shapes f mem).call id kind, Option.some.injEq] at text
  subst text
  obtain ⟨_, k⟩ := f
  subst kind
  obtain ⟨-, -, distance⟩ := elfstubCallOffset_inv (elfstubCall_value known)
  have inside := sound.located.inside id s mem'
  rw [sound.located.location fits id s mem', BitVec.toNat_ofNat,
    Nat.mod_eq_of_lt (by omega)] at distance
  refine ⟨s, value, mem', here, ?_⟩
  show (k : Int) + 1 + value.toInt = s
  omega

/-- The instructions of a stub outside of its string loads are under no fixup. -/
theorem LifeSound.stub (sound : LifeSound host p life) {id : BfElfstubId} {s : Nat}
    (mem : (id, s) ∈ life.placed) :
    ∃ stub, host.getElfstub id = some stub ∧
      (∀ k < stub.insns.length, (∀ str ∈ stub.strs, str.1 ≠ k ∧ str.1 + 1 ≠ k) →
        p.img[s + k]? = stub.insns[k]?) ∧
      ∀ str ∈ stub.strs, ⟨.printerMapFd, s + str.1⟩ ∈ life.created := by
  obtain ⟨stub, found, text, strings, own⟩ := sound.record.stubs id s mem
  refine ⟨stub, found, ?_, strings⟩
  intro k inside quiet
  rw [sound.account.kept, text.insns k inside quiet]
  intro f filled same
  obtain ⟨str, listed, position⟩ := own f (sound.account.created_of_filled filled)
    (by omega) (by omega)
  have away := (quiet str listed).1
  omega

end Settled

/-- **Fixup lifecycle.**  After a program has been generated and loaded no fixup remains and
each was filled once; map loads hold the maps they were emitted for, stub calls go to their
stubs, and no stub was placed twice. -/
theorem fixups_settled {host : Host} {chain : BfChain} {maps : BfMaps} {q : BfProgram}
    {fate : LoadFate} {s : LoadState} (compiled : host.StubsCompiled) (paired : host.StubsPaired)
    (generated : bfProgramGenerate (bfProgramNew host chain maps) = .ok ((), q))
    (loaded : bfProgramLoad fate q.unloaded = .ok (none, s)) :
    ∃ life, Life (bfProgramNew host chain maps, Ledger.empty) (s.prog, life) ∧
      FixupsSettled host chain maps s.prog life := by
  obtain ⟨-, passes⟩ := bfProgramLoad_loaded loaded
  obtain ⟨life₁, lived₁, size, sets⟩ := bfProgramGenerate_life paired generated
  obtain ⟨life, lived₂, grown⟩ := bfProgramLoadFixups_life life₁ passes
  have lived := lived₁.trans lived₂
  have sound := (lifeSound_new host chain maps).run compiled paired lived
  obtain ⟨blocks, made⟩ :=
    bfProgramGenerateWith_spec (bfMatcherGenerate_appends host chain) generated
  obtain ⟨done, sameMaps, -, -, -, length⟩ := bfProgramLoadFixups_spec made passes
  obtain ⟨front, stubs, fits, -⟩ := made.stubs compiled
  have short : s.prog.img.length ≤ 2 ^ 32 := by
    have bound := stubs.length_le
    omega
  have mapsEq : s.prog.maps = maps := sameMaps
  refine ⟨life, lived, done, ⟨?_, sound.account.apart⟩, ?_, ?_, ?_, ?_, ?_, ?_, ?_⟩
  · have balance := sound.account.balance
    rw [done, List.append_nil] at balance
    exact balance.symm
  · intro k i here load
    rcases sound.record.loads k i here load with fixup | ⟨id, start, stub, mem, found, inside⟩
    · exact Or.inl fixup
    · refine Or.inr ⟨id, start, mem, ?_⟩
      rwa [Host.stubSize, found]
  · intro f mem map
    rw [← mapsEq]
    exact sound.load done mem map
  · rw [grown.sets, sets, List.append_nil]
  · exact fun f mem id kind => sound.call done short mem kind
  · exact fun id start mem => sound.stub mem
  · exact sound.located.once short
  · rw [sound.account.size, grown.size, grown.placed, size, Nat.add_zero]

/-- A stub that prints a message. -/
def printingStub : BfElfstub :=
  ⟨[bpfLdImm64Lo 1 0 0, bpfLdImm64Hi 0, bpfMov64Imm 2 7, bpfEmitCall bpfFuncTracePrintk,
    bpfExitInsn], [(0, "failed")]⟩

def printingHost : Host := { sampleHost with getElfstub := fun _ => some printingStub }

/-- A chain that logs and looks up a set. -/
def loggingChain : BfChain :=
  bfChainNew "logging" .xdp .accept
    [{ name := none, key := [.ip4Proto], elemSize := 1, elems := [[6]], useTrie := false }]
    [{ matchers := [⟨.set, .inSet, [0, 0, 0, 0]⟩], log := 1, counters := true, verdict := .drop }]

def loggingProgram : BfProgram :=
  resultOf bfProgramGenerate (bfProgramNew printingHost loggingChain { sampleMaps with sets := [9] })

theorem loggingProgram_settled :
    ∃ s life, bfProgramLoad {} loggingProgram.unloaded = .ok (none, s) ∧
      FixupsSettled printingHost loggingChain { sampleMaps with sets := [9] } s.prog life := by
  have generated : bfProgramGenerate
      (bfProgramNew printingHost loggingChain { sampleMaps with sets := [9] }) =
        .ok ((), loggingProgram) := gen_resultOf (by decide +kernel)
  have passes : Passes (bfProgramLoad {}) loggingProgram.unloaded
      (fun r _ => decide (r = none)) = true := by decide +kernel
  obtain ⟨r, s, ran, works⟩ := passes_inv passes
  rw [decide_eq_true_iff] at works
  rw [works] at ran
  have compiled : printingHost.StubsCompiled := by
    rintro id stub ⟨⟩
    exact ⟨by decide, by decide⟩
  have paired : printingHost.StubsPaired := by
    rintro id stub ⟨⟩
    refine ⟨by decide, ?_⟩
    intro str mem
    obtain rfl := List.mem_singleton.mp mem
    exact ⟨_, _, rfl, rfl, rfl, rfl⟩
  obtain ⟨life, -, settled⟩ := fixups_settled compiled paired generated ran
  exact ⟨s, life, ran, settled⟩

end Bpfilter

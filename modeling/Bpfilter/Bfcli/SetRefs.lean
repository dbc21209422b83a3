/-
# Bfcli.SetRefs -- which sets the matchers of a chain refer to

A matcher of the type `set` has the index of its set as payload.  An anonymous set gets the length
of the shared list when its matcher is parsed, a named one is searched from the front, and the
list is empty again when the next chain starts.  `AddsSets` is what an action does to the list,
`RefersTo` what it makes of a matcher; `yyparse_setRefs` follows by induction over the text.

Indices have 32 bits, so `setRefs_resolve` is about chains of at most 2^32 sets, and
`manySets_not_resolve` is a longer one.
-/
import Bpfilter.Bfcli.Parser

namespace Bpfilter

set_option autoImplicit false

open Ebpf (Byte)

/-! ## Sets in a text -/

/-- A set as it is written: with its name, if it is declared. -/
structure WrittenSet where
  name : Option String
  rawKey : List Char
  payload : List Char

def SetText.written (text : SetText) : WrittenSet :=
  ⟨some (String.ofList text.name), text.rawKey, text.payload⟩

def MatcherText.written : MatcherText → List WrittenSet
  | .payload _ _ _ => []
  | .anonymous rawKey _ elems => [⟨none, rawKey, elems⟩]
  | .named _ _ _ => []

def MatcherText.isSet : MatcherText → Bool
  | .payload _ _ _ => false
  | .anonymous _ _ _ => true
  | .named _ _ _ => true

/-- The key that is written in a matcher. -/
def MatcherText.HasKey (key : List BfMatcherType) : MatcherText → Prop
  | .payload _ _ _ => False
  | .anonymous rawKey _ _ => KeyText rawKey key
  | .named rawKey _ _ => KeyText rawKey key

/-- The matchers of all rules. -/
def ChainText.matchers (text : ChainText) : List MatcherText := text.rules.flatMap (·.matchers)

/-- The sets of a chain, as they are written: the named ones first. -/
def ChainText.written (text : ChainText) : List WrittenSet :=
  text.sets.map SetText.written ++ text.matchers.flatMap MatcherText.written

/-- The matchers of all rules. -/
def BfChain.matchers (chain : BfChain) : List BfMatcher := chain.rules.flatMap (·.matchers)

/-- A set is what the set parser makes of a text. -/
def MadeFrom (names : Names) (written : WrittenSet) (set : BfSet) : Prop :=
  ∃ fresh fuel, bfSetNewFromRaw (setParseOps names) fresh fuel written.name written.rawKey
    written.payload = some (.ok set)

/-- The set that the `i`-th matcher of a chain stands for, by its place in the chain: the set
written there, or the first one declared with that name. -/
def ChainText.Denotes (text : ChainText) (i p : Nat) : MatcherText → Prop
  | .payload _ _ _ => False
  | .anonymous _ _ _ =>
      p = text.sets.length + ((text.matchers.take i).flatMap MatcherText.written).length
  | .named _ _ name =>
      (∃ set, text.sets[p]? = some set ∧ set.name = name) ∧
        ∀ q set, q < p → text.sets[q]? = some set → set.name ≠ name

/-- **Set references.**  The sets of a chain are those written in it, indices are in range, and
each matcher gets the set it stands for, which has the key written in the matcher. -/
structure SetRefsResolve (names : Names) (text : ChainText) (chain : BfChain) : Prop where
  sets : List.Forall₂ (MadeFrom names) text.written chain.sets
  counts : chain.rules.map (·.matchers.length) = text.rules.map (·.matchers.length)
  kinds : ∀ (i : Nat) (t : MatcherText) (m : BfMatcher), text.matchers[i]? = some t →
    chain.matchers[i]? = some m → (m.type = .set ↔ t.isSet = true)
  bounded : ∀ m ∈ chain.matchers, m.type = .set → (m.payloadU32 0).toNat < chain.sets.length
  resolves : ∀ (i : Nat) (t : MatcherText) (m : BfMatcher), text.matchers[i]? = some t →
    chain.matchers[i]? = some m → m.type = .set → ∃ p set, text.Denotes i p t ∧ chain.sets[p]? = some set ∧
      t.HasKey set.key ∧ bfChainGetSetForMatcher chain m = some set

/-! ## What the actions do -/

/-- An action appends the sets written in its text, and leaves the chains alone. -/
structure AddsSets (names : Names) (written : List WrittenSet) (st st' : YyState) : Prop where
  sets : ∃ added, st'.sets = st.sets ++ added ∧ List.Forall₂ (MadeFrom names) written added
  chains : st'.chains = st.chains

/-- What a matcher refers to when `declared` are the named sets and `n` sets stand before its
own. -/
def RefersTo (declared : List BfSet) (n : Nat) (m : BfMatcher) : MatcherText → Prop
  | .payload _ _ _ => m.type ≠ .set
  | .anonymous _ _ _ => m = setMatcher (BitVec.ofNat 32 n)
  | .named rawKey _ name =>
      ∃ p set, declared[p]? = some set ∧ set.name = some (String.ofList name) ∧
        (∀ q set', q < p → declared[q]? = some set' → set'.name ≠ some (String.ofList name)) ∧
        KeyText rawKey set.key ∧ m = setMatcher (BitVec.ofNat 32 p)

/-- Matchers side by side with their texts. -/
def RefersAll (declared : List BfSet) : Nat → List MatcherText → List BfMatcher → Prop
  | _, [], [] => True
  | n, t :: ts, m :: ms =>
      RefersTo declared n m t ∧ RefersAll declared (n + t.written.length) ts ms
  | _, _, _ => False

/-- The sets so far: those declared, then anonymous ones. -/
def SetsSoFar (declared : List BfSet) (st : YyState) : Prop :=
  ∃ anonymous, st.sets = declared ++ anonymous ∧ ∀ set ∈ anonymous, set.name = none

section Steps

variable {names : Names} {env : YyEnv} {st mid st' : YyState} {declared : List BfSet}

theorem AddsSets.refl : AddsSets names [] st st := ⟨⟨[], (List.append_nil _).symm, .nil⟩, rfl⟩

theorem AddsSets.trans {w w' : List WrittenSet} (first : AddsSets names w st mid)
    (second : AddsSets names w' mid st') : AddsSets names (w ++ w') st st' := by
  obtain ⟨added, sets, made⟩ := first.sets
  obtain ⟨added', sets', made'⟩ := second.sets
  refine ⟨⟨added ++ added', ?_, List.rel_append made made'⟩, second.chains.trans first.chains⟩
  rw [sets', sets, List.append_assoc]

theorem AddsSets.of_eq (sets : st'.sets = st.sets) (chains : st'.chains = st.chains) :
    AddsSets names [] st st' :=
  ⟨⟨[], by rw [sets, List.append_nil], .nil⟩, chains⟩

theorem AddsSets.length {w : List WrittenSet} (adds : AddsSets names w st st') :
    st'.sets.length = st.sets.length + w.length := by
  obtain ⟨added, sets, made⟩ := adds.sets
  rw [sets, List.length_append, made.length_eq]

theorem MadeFrom.name {w : WrittenSet} {set : BfSet} (made : MadeFrom names w set) :
    set.name = w.name := by
  obtain ⟨fresh, fuel, ran⟩ := made
  exact (madeSet_spec ran).2.1

theorem MadeFrom.key {w : WrittenSet} {set : BfSet} (made : MadeFrom names w set) :
    KeyText w.rawKey set.key := by
  obtain ⟨fresh, fuel, ran⟩ := made
  exact (madeSet_spec ran).1

/-- Anonymous sets do not get in the way of the named ones. -/
theorem SetsSoFar.adds {w : List WrittenSet} (soFar : SetsSoFar declared st)
    (adds : AddsSets names w st st') (anonymous : ∀ x ∈ w, x.name = none) :
    SetsSoFar declared st' := by
  obtain ⟨before, sets, none⟩ := soFar
  obtain ⟨added, sets', made⟩ := adds.sets
  refine ⟨before ++ added, by rw [sets', sets, List.append_assoc], ?_⟩
  intro set mem
  rcases List.mem_append.mp mem with mem | mem
  · exact none set mem
  · obtain ⟨x, inside, from'⟩ := Cstr.exists_of_forall₂ made mem
    rw [from'.name, anonymous x inside]

theorem MatcherText.written_anonymous (t : MatcherText) : ∀ x ∈ t.written, x.name = none := by
  intro x mem
  cases t with
  | payload => cases mem
  | anonymous rawKey op elems =>
      have here : x = ⟨none, rawKey, elems⟩ := List.mem_singleton.mp mem
      rw [here]
  | named => cases mem

theorem yySetNewFromRaw_runs {name : Option String} {rawKey payload : List Char} {set : BfSet}
    (ran : YyRuns (yySetNewFromRaw env name rawKey payload) st set st') :
    MadeFrom env.names ⟨name, rawKey, payload⟩ set ∧
      st' = { st with allocs := st.allocs + 1 } := by
  simp only [YyRuns, yySetNewFromRaw] at ran
  split at ran
  · cases ran
  · cases ran
  · rename_i set' made
    cases ran
    exact ⟨⟨_, _, made⟩, rfl⟩

theorem yySet_runs {text : SetText} {u : Unit} (ran : YyRuns (yySet env text) st u st') :
    AddsSets env.names [text.written] st st' := by
  simp only [yySet, yyRuns_bind_iff, yyRuns_yyCheck_iff] at ran
  obtain ⟨op, mid, parsed, -, mid', ⟨-, rfl⟩, set, mid'', made, added⟩ := ran
  obtain ⟨from', rfl⟩ := yySetNewFromRaw_runs made
  obtain rfl := yyMatcherOp_runs parsed
  rw [yyAddSet, yyRuns_modify_iff] at added
  subst added
  exact ⟨⟨[set], rfl, .cons from' .nil⟩, rfl⟩

/-- The search finds the first set of a name. -/
theorem findSet_some {name : String} {sets : List BfSet} {start setId : BitVec 32} {set : BfSet}
    (found : findSet name sets start = some (setId, set)) :
    ∃ p, sets[p]? = some set ∧ set.name = some name ∧
      (∀ q set', q < p → sets[q]? = some set' → set'.name ≠ some name) ∧
      setId = start + BitVec.ofNat 32 p := by
  induction sets generalizing start with
  | nil => cases found
  | cons first rest ih =>
      rw [findSet] at found
      split_ifs at found with here
      · cases found
        exact ⟨0, rfl, here, fun q _ low => absurd low (Nat.not_lt_zero q), (BitVec.add_zero _).symm⟩
      · obtain ⟨p, at', named, before, id⟩ := ih found
        refine ⟨p + 1, at', named, ?_, ?_⟩
        · intro q set' low inside
          cases q with
          | zero =>
              cases inside
              exact here
          | succ q => exact before q set' (Nat.lt_of_succ_lt_succ low) inside
        · rw [id, BitVec.add_assoc, BitVec.add_comm 1, BitVec.ofNat_add]
          rfl

/-- Where only declared sets have names, what the search finds is declared. -/
theorem declared_of_named {anonymous : List BfSet} {p : Nat} {set : BfSet} {name : String}
    (none : ∀ set ∈ anonymous, set.name = Option.none) (named : set.name = some name)
    (here : (declared ++ anonymous)[p]? = some set) : declared[p]? = some set := by
  by_cases low : p < declared.length
  · rwa [List.getElem?_append_left low] at here
  · rw [List.getElem?_append_right (Nat.le_of_not_lt low)] at here
    rw [none set (List.mem_of_getElem? here)] at named
    cases named

/-- One matcher. -/
theorem yyMatcher_runs {t : MatcherText} {m : BfMatcher} (soFar : SetsSoFar declared st)
    (ran : YyRuns (yyMatcher env t) st m st') :
    AddsSets env.names t.written st st' ∧ RefersTo declared st.sets.length m t := by
  cases t with
  | payload type op payload =>
      simp only [yyMatcher, yyRuns_bind_iff, yyRuns_orAbort_iff] at ran
      obtain ⟨type', mid, ⟨-, rfl⟩, op', mid', parsed, made⟩ := ran
      obtain rfl := yyMatcherOp_runs parsed
      simp only [YyRuns, yyMatcherNewFromRaw] at made
      split at made
      · cases made
      · rename_i matcher new
        cases made
        refine ⟨.of_eq rfl rfl, ?_⟩
        -- Sets have no operator to be made from a payload with.
        show m.type ≠ .set
        intro isSet
        unfold bfMatcherNewFromRaw at new
        split at new
        · rename_i size ops sized found
          split at new
          · cases new
          · cases new
            cases isSet
            cases sized
        · cases new
  | anonymous rawKey op payload =>
      simp only [yyMatcher, yyRuns_bind_iff, yyRuns_get_iff, yyRuns_yyCheck_iff,
        yyRuns_pure_iff] at ran
      obtain ⟨op', mid, parsed, st₁, mid₁, ⟨rfl, rfl⟩, -, mid₂, ⟨-, rfl⟩, set, mid₃, made, u, mid₄,
        added, rfl, rfl⟩ := ran
      obtain rfl := yyMatcherOp_runs parsed
      obtain ⟨from', rfl⟩ := yySetNewFromRaw_runs made
      rw [yyAddSet, yyRuns_modify_iff] at added
      subst added
      exact ⟨⟨⟨[set], rfl, .cons from' .nil⟩, rfl⟩, rfl⟩
  | named rawKey op name =>
      simp only [yyMatcher, yyRuns_bind_iff, yyRuns_get_iff, yyRuns_yyCheck_iff,
        yyRuns_orAbort_iff, yyRuns_pure_iff] at ran
      obtain ⟨op', mid, parsed, -, mid₁, ⟨-, rfl⟩, testKey, mid₂, made, st₁, mid₃, ⟨rfl, rfl⟩, found,
        mid₄, ⟨search, rfl⟩, -, mid₅, ⟨sameKey, rfl⟩, rfl, rfl⟩ := ran
      obtain rfl := yyMatcherOp_runs parsed
      obtain ⟨from', rfl⟩ := yySetNewFromRaw_runs made
      obtain ⟨anonymous, sets, none⟩ := soFar
      obtain ⟨p, here, named, before, id⟩ := findSet_some search
      rw [sets] at here before
      refine ⟨.of_eq rfl rfl, p, found.2, declared_of_named none named here, named, ?_, ?_, ?_⟩
      · intro q set' low inside
        refine before q set' low ?_
        have bound : q < declared.length := by
          by_contra high
          rw [List.getElem?_eq_none (Nat.le_of_not_lt high)] at inside
          cases inside
        rwa [List.getElem?_append_left bound]
      · rw [eq_of_beq sameKey]
        exact from'.key
      · rw [id]
        exact congrArg setMatcher (BitVec.zero_add _)

/-- A list of matchers. -/
theorem yyMatchers_runs {ts : List MatcherText} {ms : List BfMatcher}
    (soFar : SetsSoFar declared st) (ran : YyRuns (yyAll (yyMatcher env) ts) st ms st') :
    AddsSets env.names (ts.flatMap MatcherText.written) st st' ∧
      RefersAll declared st.sets.length ts ms := by
  induction ts generalizing st ms with
  | nil =>
      obtain ⟨rfl, rfl⟩ := yyRuns_yyAll_nil_iff.mp ran
      exact ⟨.refl, trivial⟩
  | cons t ts ih =>
      obtain ⟨m, mid, rest, first, others, rfl⟩ := yyRuns_yyAll_cons_iff.mp ran
      obtain ⟨adds, refers⟩ := yyMatcher_runs soFar first
      obtain ⟨adds', refers'⟩ := ih (soFar.adds adds t.written_anonymous) others
      rw [adds.length] at refers'
      exact ⟨adds.trans adds', refers, refers'⟩

/-- Options have no sets. -/
theorem yyRuleOption_runs {text : RuleOptionText} {options : BfRuleOptions}
    (ran : YyRuns (yyRuleOption env text) st options st') : AddsSets names [] st st' := by
  cases text with
  | log headers =>
      simp only [yyRuleOption, yyRuns_bind_iff, yyRuns_get_iff, yyRuns_modify_iff,
        yyRuns_orAbort_iff, yyRuns_pure_iff] at ran
      obtain ⟨st₁, mid, ⟨rfl, rfl⟩, u, mid₁, rfl, log, mid₂, ⟨-, rfl⟩, -, rfl⟩ := ran
      exact .of_eq rfl rfl
  | counter =>
      obtain ⟨-, rfl⟩ := yyRuns_pure_iff.mp ran
      exact .refl
  | mark rawMark =>
      simp only [yyRuleOption, yyRuns_bind_iff, yyRuns_orAbort_iff, yyRuns_pure_iff] at ran
      obtain ⟨mark, mid, ⟨-, rfl⟩, -, rfl⟩ := ran
      exact .refl

theorem yyRuleOptions_runs {texts : List RuleOptionText} {options options' : BfRuleOptions}
    (ran : YyRuns (yyRuleOptions env texts options) st options' st') :
    AddsSets names [] st st' := by
  induction texts generalizing st options with
  | nil =>
      obtain ⟨-, rfl⟩ := yyRuns_pure_iff.mp ran
      exact .refl
  | cons text rest ih =>
      simp only [yyRuleOptions, yyRuns_bind_iff] at ran
      obtain ⟨new, mid, option, log, mid₁, logs, counter, mid₂, counters, mark, mid₃, marks,
        others⟩ := ran
      obtain ⟨rfl, -⟩ := mergeOption_runs logs
      obtain ⟨rfl, -⟩ := mergeOption_runs counters
      obtain ⟨rfl, -⟩ := mergeOption_runs marks
      exact (yyRuleOption_runs option).trans (ih others)

/-- A rule has the matchers of its text. -/
theorem yyRule_runs {text : RuleText} {rule : BfRule} (soFar : SetsSoFar declared st)
    (ran : YyRuns (yyRule env text) st rule st') :
    AddsSets env.names (text.matchers.flatMap MatcherText.written) st st' ∧
      RefersAll declared st.sets.length text.matchers rule.matchers := by
  simp only [yyRule, yyRuns_bind_iff, yyRuns_orAbort_iff, yyRuns_pure_iff] at ran
  obtain ⟨matchers, mid, parsed, options, mid₁, merged, verdict, mid₂, ⟨-, rfl⟩, rfl, rfl⟩ := ran
  obtain ⟨adds, refers⟩ := yyMatchers_runs soFar parsed
  have all := adds.trans (yyRuleOptions_runs merged)
  rw [List.append_nil] at all
  exact ⟨all, refers⟩

end Steps

/-! ## Matchers side by side -/

section Together

variable {declared : List BfSet} {n : Nat} {ts ts' : List MatcherText} {ms ms' : List BfMatcher}

theorem RefersAll.length (all : RefersAll declared n ts ms) : ms.length = ts.length := by
  induction ts generalizing n ms with
  | nil =>
      cases ms with
      | nil => rfl
      | cons m ms => cases all
  | cons t ts ih =>
      cases ms with
      | nil => cases all
      | cons m ms => rw [List.length_cons, List.length_cons, ih all.2]

theorem RefersAll.append (all : RefersAll declared n ts ms)
    (all' : RefersAll declared (n + (ts.flatMap MatcherText.written).length) ts' ms') :
    RefersAll declared n (ts ++ ts') (ms ++ ms') := by
  induction ts generalizing n ms with
  | nil =>
      cases ms with
      | nil => exact all'
      | cons m ms => cases all
  | cons t ts ih =>
      cases ms with
      | nil => cases all
      | cons m ms =>
          refine ⟨all.1, ih all.2 ?_⟩
          rwa [List.flatMap_cons, List.length_append, ← Nat.add_assoc] at all'

/-- The `i`-th matcher refers as its text says. -/
theorem RefersAll.get {i : Nat} {t : MatcherText} {m : BfMatcher} (all : RefersAll declared n ts ms)
    (text : ts[i]? = some t) (here : ms[i]? = some m) :
    RefersTo declared (n + ((ts.take i).flatMap MatcherText.written).length) m t := by
  induction i generalizing n ts ms with
  | zero =>
      cases ts <;> cases ms <;> cases text <;> cases here
      exact all.1
  | succ i ih =>
      cases ts with
      | nil => cases text
      | cons t₀ ts =>
          cases ms with
          | nil => cases here
          | cons m₀ ms =>
              have next := ih all.2 text here
              rwa [Nat.add_assoc, ← List.length_append, ← List.flatMap_cons] at next

end Together

/-! ## Rules and chains -/

/-- What the parser makes of a chain: its sets, and its matchers side by side with their texts. -/
structure SetsRefer (names : Names) (text : ChainText) (chain : BfChain) : Prop where
  sets : List.Forall₂ (MadeFrom names) text.written chain.sets
  counts : chain.rules.map (·.matchers.length) = text.rules.map (·.matchers.length)
  refers : RefersAll (chain.sets.take text.sets.length) text.sets.length text.matchers
    chain.matchers

section Chains

variable {env : YyEnv} {st st' : YyState} {declared : List BfSet}

theorem yyRules_runs {texts : List RuleText} {rules : List BfRule} (soFar : SetsSoFar declared st)
    (ran : YyRuns (yyAll (yyRule env) texts) st rules st') :
    AddsSets env.names ((texts.flatMap (·.matchers)).flatMap MatcherText.written) st st' ∧
      rules.map (·.matchers.length) = texts.map (·.matchers.length) ∧
      RefersAll declared st.sets.length (texts.flatMap (·.matchers))
        (rules.flatMap (·.matchers)) := by
  induction texts generalizing st rules with
  | nil =>
      obtain ⟨rfl, rfl⟩ := yyRuns_yyAll_nil_iff.mp ran
      exact ⟨.refl, rfl, trivial⟩
  | cons text texts ih =>
      obtain ⟨rule, mid, rest, first, others, rfl⟩ := yyRuns_yyAll_cons_iff.mp ran
      obtain ⟨adds, refers⟩ := yyRule_runs soFar first
      have anonymous : ∀ x ∈ text.matchers.flatMap MatcherText.written, x.name = none := by
        intro x mem
        obtain ⟨t, -, inside⟩ := List.mem_flatMap.mp mem
        exact t.written_anonymous x inside
      obtain ⟨adds', counts, refers'⟩ := ih (soFar.adds adds anonymous) others
      rw [adds.length] at refers'
      refine ⟨?_, ?_, ?_⟩
      · rw [List.flatMap_cons, List.flatMap_append]
        exact adds.trans adds'
      · rw [List.map_cons, List.map_cons, counts, refers.length]
      · rw [List.flatMap_cons, List.flatMap_cons]
        exact refers.append refers'

theorem yySets_runs {texts : List SetText} {us : List Unit}
    (ran : YyRuns (yyAll (yySet env) texts) st us st') :
    AddsSets env.names (texts.map SetText.written) st st' := by
  induction texts generalizing st us with
  | nil =>
      obtain ⟨-, rfl⟩ := yyRuns_yyAll_nil_iff.mp ran
      exact .refl
  | cons text texts ih =>
      obtain ⟨u, mid, rest, first, others, -⟩ := yyRuns_yyAll_cons_iff.mp ran
      exact (yySet_runs first).trans (ih others)

/-- Numbering the rules keeps their matchers. -/
theorem bfChainNumber_matchers (ridx : Nat) (rules : List BfRule) :
    (bfChainNumber ridx rules).map (·.matchers) = rules.map (·.matchers) := by
  induction rules generalizing ridx with
  | nil => rfl
  | cons rule rest ih => rw [bfChainNumber, List.map_cons, List.map_cons, ih]

theorem bfChainNew_matchers (name : String) (hook : BfHook) (policy : BfVerdict)
    (sets : List BfSet) (rules : List BfRule) :
    (bfChainNew name hook policy sets rules).matchers = rules.flatMap (·.matchers) ∧
      (bfChainNew name hook policy sets rules).rules.map (·.matchers.length) =
        rules.map (·.matchers.length) := by
  have kept := bfChainNumber_matchers 0 rules
  refine ⟨?_, ?_⟩
  · show (bfChainNumber 0 rules).flatMap (·.matchers) = _
    rw [List.flatMap_def, kept, ← List.flatMap_def]
  · have lengths := congrArg (List.map List.length) kept
    rwa [List.map_map, List.map_map] at lengths

/-- A chain takes its sets with it. -/
theorem yyChain_runs {text : ChainText} {u : Unit} (empty : st.sets = [])
    (ran : YyRuns (yyChain env text) st u st') :
    st'.sets = [] ∧ ∃ chain, st'.chains = st.chains ++ [chain] ∧ SetsRefer env.names text chain := by
  simp only [yyChain, yyRuns_bind_iff, yyRuns_orAbort_iff, yyRuns_yyCheck_iff, yyRuns_get_iff,
    yyRuns_modify_iff] at ran
  obtain ⟨hookopts, mid, parsed, policy, mid₁, ⟨-, rfl⟩, us, mid₂, sets, rules, mid₃, ruled, u₁,
    mid₄, ⟨-, rfl⟩, st₁, mid₅, ⟨rfl, rfl⟩, u₂, mid₆, rfl, u₃, mid₇, ⟨-, rfl⟩, u₄, mid₈, ⟨-, rfl⟩,
    rfl⟩ := ran
  obtain rfl := yyHookopts_runs parsed
  have declares := yySets_runs sets
  obtain ⟨declared, grown, made⟩ := declares.sets
  rw [empty, List.nil_append] at grown
  have soFar : SetsSoFar declared mid₂ :=
    ⟨[], by rw [grown, List.append_nil], fun set mem => nomatch mem⟩
  obtain ⟨adds, counts, refers⟩ := yyRules_runs soFar ruled
  obtain ⟨added, grown', made'⟩ := adds.sets
  have length : declared.length = text.sets.length := by
    rw [← made.length_eq, List.length_map]
  refine ⟨rfl, bfChainNew (String.ofList text.name) ((bfHookFromStr text.hook).getD env.strayHook)
    policy mid₅.sets rules, ?_, ?_, ?_, ?_⟩
  · show mid₅.chains ++ _ = _
    rw [adds.chains, declares.chains]
  · show List.Forall₂ _ _ mid₅.sets
    rw [grown', grown]
    exact List.rel_append made made'
  · exact (bfChainNew_matchers _ _ _ _ _).2.trans counts
  · rw [(bfChainNew_matchers _ _ _ _ _).1]
    show RefersAll (mid₅.sets.take _) _ _ _
    rw [grown', grown, ← length, List.take_left]
    rwa [grown] at refers

/-- **A run of the parser.**  Each chain has the sets of its own text. -/
theorem yyChains_runs {texts : List ChainText} {us : List Unit} (empty : st.sets = [])
    (ran : YyRuns (yyAll (yyChain env) texts) st us st') :
    ∃ chains, st'.chains = st.chains ++ chains ∧ st'.sets = [] ∧
      List.Forall₂ (SetsRefer env.names) texts chains := by
  induction texts generalizing st us with
  | nil =>
      obtain ⟨-, rfl⟩ := yyRuns_yyAll_nil_iff.mp ran
      exact ⟨[], (List.append_nil _).symm, empty, .nil⟩
  | cons text texts ih =>
      obtain ⟨u, mid, rest, first, others, -⟩ := yyRuns_yyAll_cons_iff.mp ran
      obtain ⟨empty', chain, grown, refer⟩ := yyChain_runs empty first
      obtain ⟨chains, grown', moved, refers⟩ := ih empty' others
      refine ⟨chain :: chains, ?_, moved, .cons refer refers⟩
      rw [grown', grown, List.append_assoc, List.singleton_append]

end Chains

/-! ## Resolution -/

/-- Members at one place of lists that are related side by side. -/
theorem getElem?_of_forall₂ {α β : Type} {R : α → β → Prop} {xs : List α} {ys : List β}
    (all : List.Forall₂ R xs ys) {i : Nat} {x : α} (here : xs[i]? = some x) :
    ∃ y, ys[i]? = some y ∧ R x y := by
  induction all generalizing i with
  | nil => cases here
  | cons first _ ih =>
      cases i with
      | zero =>
          cases here
          exact ⟨_, rfl, first⟩
      | succ i => exact ih here

section Resolve

variable {names : Names} {text : ChainText} {chain : BfChain}

theorem setMatcher_payload (setId : BitVec 32) : (setMatcher setId).payloadU32 0 = setId :=
  payloadU32_addr _ _ setId

/-- The set written in an anonymous matcher is where the matcher says. -/
theorem written_anonymous {i : Nat} {rawKey elems : List Char} {op : Option (List Char)}
    (here : text.matchers[i]? = some (.anonymous rawKey op elems)) :
    text.written[text.sets.length +
      ((text.matchers.take i).flatMap MatcherText.written).length]? =
        some ⟨none, rawKey, elems⟩ := by
  obtain ⟨bound, same⟩ := List.getElem?_eq_some_iff.mp here
  have cut : text.matchers = text.matchers.take i ++
      .anonymous rawKey op elems :: text.matchers.drop (i + 1) := by
    rw [← same, List.getElem_cons_drop, List.take_append_drop]
  have flat : text.matchers.flatMap MatcherText.written =
      (text.matchers.take i).flatMap MatcherText.written ++
        (⟨none, rawKey, elems⟩ ::
          (text.matchers.drop (i + 1)).flatMap MatcherText.written) := by
    conv => lhs; rw [cut]
    rw [List.flatMap_append, List.flatMap_cons]
    rfl
  have front : (text.sets.map SetText.written).length = text.sets.length := List.length_map ..
  rw [ChainText.written, List.getElem?_append_right (by rw [front]; exact Nat.le_add_right ..),
    front, Nat.add_sub_cancel_left, flat, List.getElem?_append_right (Nat.le_refl _), Nat.sub_self]
  rfl

/-- A declared set is made from its text. -/
theorem SetsRefer.declared (refer : SetsRefer names text chain) {p : Nat} {set : SetText}
    (here : text.sets[p]? = some set) :
    ∃ set', chain.sets[p]? = some set' ∧ set'.name = some (String.ofList set.name) := by
  have written : text.written[p]? = some set.written := by
    obtain ⟨bound, -⟩ := List.getElem?_eq_some_iff.mp here
    rw [ChainText.written, List.getElem?_append_left (by rw [List.length_map]; exact bound),
      List.getElem?_map, here]
    rfl
  obtain ⟨set', inside, made⟩ := getElem?_of_forall₂ refer.sets written
  exact ⟨set', inside, made.name⟩

/-- A matcher of the type `set` carries the place of the set it stands for. -/
theorem SetsRefer.place (refer : SetsRefer names text chain) {i : Nat} {t : MatcherText}
    {m : BfMatcher} (here : text.matchers[i]? = some t) (here' : chain.matchers[i]? = some m)
    (isSet : m.type = .set) :
    ∃ p set, text.Denotes i p t ∧ chain.sets[p]? = some set ∧ t.HasKey set.key ∧
      m = setMatcher (BitVec.ofNat 32 p) := by
  have refers := refer.refers.get here here'
  cases t with
  | payload type op payload => exact absurd isSet refers
  | anonymous rawKey op elems =>
      obtain ⟨set, inside, made⟩ := getElem?_of_forall₂ refer.sets (written_anonymous here)
      exact ⟨_, set, rfl, inside, made.key, refers⟩
  | named rawKey op name =>
      obtain ⟨p, set, inside, named, before, key, shape⟩ := refers
      obtain ⟨bound, -⟩ := List.getElem?_eq_some_iff.mp inside
      rw [List.length_take] at bound
      have low : p < text.sets.length := by omega
      rw [List.getElem?_take_of_lt low] at inside
      refine ⟨p, set, ⟨?_, ?_⟩, inside, key, shape⟩
      · obtain ⟨set', inside', named'⟩ := refer.declared (List.getElem?_eq_getElem low)
        rw [inside] at inside'
        cases inside'
        rw [named] at named'
        exact ⟨_, List.getElem?_eq_getElem low,
          (String.ofList_injective (Option.some.inj named')).symm⟩
      · intro q t lower there same
        obtain ⟨set', inside', named'⟩ := refer.declared there
        refine before q set' lower ?_ (by rw [named', same])
        rw [List.getElem?_take_of_lt (lower.trans low)]
        exact inside'

/-- In chains of at most 2^32 sets, indices are places. -/
theorem SetsRefer.resolve (refer : SetsRefer names text chain)
    (short : chain.sets.length ≤ 2 ^ 32) : SetRefsResolve names text chain := by
  have places : ∀ {p : Nat} {set : BfSet}, chain.sets[p]? = some set →
      (BitVec.ofNat 32 p).toNat = p ∧ p < chain.sets.length := by
    intro p set inside
    obtain ⟨bound, -⟩ := List.getElem?_eq_some_iff.mp inside
    exact ⟨by rw [BitVec.toNat_ofNat, Nat.mod_eq_of_lt (by omega)], bound⟩
  refine ⟨refer.sets, refer.counts, ?_, ?_, ?_⟩
  · intro i t m here here'
    have refers := refer.refers.get here here'
    cases t with
    | payload type op payload => exact iff_of_false refers Bool.false_ne_true
    | anonymous rawKey op elems =>
        have shape : m = setMatcher _ := refers
        exact iff_of_true (by rw [shape]; rfl) rfl
    | named rawKey op name =>
        obtain ⟨p, set, -, -, -, -, shape⟩ := refers
        exact iff_of_true (by rw [shape]; rfl) rfl
  · intro m mem isSet
    obtain ⟨i, here'⟩ := List.getElem?_of_mem mem
    obtain ⟨bound, -⟩ := List.getElem?_eq_some_iff.mp here'
    rw [refer.refers.length] at bound
    obtain ⟨p, set, -, inside, -, rfl⟩ :=
      refer.place (List.getElem?_eq_getElem bound) here' isSet
    obtain ⟨exact', low⟩ := places inside
    rw [setMatcher_payload, exact']
    exact low
  · intro i t m here here' isSet
    obtain ⟨p, set, denotes, inside, key, rfl⟩ := refer.place here here' isSet
    refine ⟨p, set, denotes, inside, key, ?_⟩
    rw [bfChainGetSetForMatcher, if_pos isSet, setMatcher_payload, (places inside).1]
    exact inside

end Resolve

theorem setsRefer_of_accepted {env : YyEnv} {text : List ChainText} {ruleset : YyState}
    (accepted : yyparse env text = some (.ok ruleset)) :
    List.Forall₂ (SetsRefer env.names) text ruleset.chains := by
  unfold yyparse at accepted
  split at accepted
  · cases accepted
  · cases accepted
  · rename_i us st ran
    cases accepted
    obtain ⟨chains, grown, -, refer⟩ := yyChains_runs rfl ran
    rwa [show ruleset.chains = chains from grown]

/-- **Set references.**  In every ruleset the parser accepts, the matchers of a chain of at most
2^32 sets get the sets they stand for. -/
theorem setRefs_resolve {env : YyEnv} {text : List ChainText} {ruleset : YyState}
    (accepted : yyparse env text = some (.ok ruleset)) :
    List.Forall₂ (fun text chain => chain.sets.length ≤ 2 ^ 32 →
      SetRefsResolve env.names text chain) text ruleset.chains :=
  (setsRefer_of_accepted accepted).imp fun _ _ refer short => refer.resolve short

/-! ## Runs -/

def inText : Option (List Char) := some "in".toList

/-- A chain with a named set, which its second matcher refers to behind an anonymous one. -/
def webText : ChainText :=
  { name := "web".toList, hook := "BF_HOOK_XDP".toList, hookopts := [], verdict := "ACCEPT".toList
    sets := [⟨"lan".toList, "(ip4.saddr)".toList, inText, "{10.0.0.1}".toList⟩]
    rules := [{
      matchers := [.anonymous "(tcp.dport)".toList inText "{80; 443}".toList,
        .named "(ip4.saddr)".toList inText "lan".toList]
      options := [], verdict := "DROP".toList }] }

/-- Two chains with a set of the same name each. -/
theorem webText_resolves :
    ∃ ruleset first second, yyparse zeroEnv [webText, webText] = some (.ok ruleset) ∧
      ruleset.chains = [first, second] ∧ SetRefsResolve plainNames webText first ∧
      SetRefsResolve plainNames webText second := by
  obtain ⟨ruleset, accepted, ran⟩ : ∃ ruleset, yyparse zeroEnv [webText, webText] =
      some (.ok ruleset) ∧ (ruleset.chains.all fun chain => chain.sets.length == 2) = true :=
    accepted_of_test _ (by decide +kernel)
  have resolve := setRefs_resolve accepted
  obtain ⟨chains, shape⟩ : ∃ chains, ruleset.chains = chains := ⟨_, rfl⟩
  rw [shape] at ran resolve
  cases resolve with
  | @cons _ first _ _ here rest =>
      cases rest with
      | @cons _ second _ _ here' rest =>
          cases rest
          simp only [List.all_cons, List.all_nil, Bool.and_true, Bool.and_eq_true,
            beq_iff_eq] at ran
          refine ⟨ruleset, first, second, accepted, shape, here ?_, here' ?_⟩
          · rw [ran.1]
            decide
          · rw [ran.2]
            decide

/-- An anonymous set of one type, without elements. -/
def emptySetText (rawKey : List Char) : MatcherText := .anonymous rawKey inText "{}".toList

/-- A rule with more than `n` anonymous sets, the first of destinations, the others of sources. -/
def manySets (n : Nat) : ChainText :=
  { name := "many".toList, hook := "BF_HOOK_TC_INGRESS".toList, hookopts := []
    verdict := "ACCEPT".toList, sets := []
    rules := [{
      matchers := emptySetText "(ip4.daddr)".toList ::
        List.replicate n (emptySetText "(ip4.saddr)".toList)
      options := [], verdict := "DROP".toList }] }

section Many

variable {st : YyState}

/-- An anonymous set without elements is accepted. -/
theorem yyMatcher_emptySet {rawKey : List Char} {set : BfSet}
    (made : ∀ fresh, bfSetNewFromRaw (setParseOps plainNames) fresh 9 none rawKey "{}".toList =
      some (.ok set)) :
    ∃ m st', YyRuns (yyMatcher zeroEnv (emptySetText rawKey)) st m st' := by
  have parsed : YyRuns (yySetNewFromRaw zeroEnv none rawKey "{}".toList) st set
      { st with allocs := st.allocs + 1 } := by
    have here : bfSetNewFromRaw (setParseOps zeroEnv.names) (zeroEnv.set st.allocs) zeroEnv.fuel
        none rawKey "{}".toList = some (.ok set) := made _
    rw [YyRuns, yySetNewFromRaw, here]
  refine ⟨setMatcher (BitVec.ofNat 32 st.sets.length),
    { st with sets := st.sets ++ [set], allocs := st.allocs + 1 }, ?_⟩
  simp only [emptySetText, yyMatcher, yyRuns_bind_iff, yyRuns_get_iff, yyRuns_yyCheck_iff,
    yyRuns_pure_iff]
  exact ⟨.inSet, st, rfl, st, st, ⟨rfl, rfl⟩, (), st, ⟨rfl, rfl⟩, set, _, parsed, (), _, rfl, rfl, rfl⟩

theorem emptySet_made {rawKey : List Char} {type : BfMatcherType}
    (parsed : bfSetParseKey rawKey = .ok [type])
    (supported : ∃ size, bfMatcherGetOps type .inSet = some size) :
    ∃ set, ∀ fresh, bfSetNewFromRaw (setParseOps plainNames) fresh 9 none rawKey "{}".toList =
      some (.ok set) := by
  have accepted : AcceptedKey [type] := by
    refine ⟨List.cons_ne_nil _ _, show 1 ≤ 8 by decide, ?_,
      fun many => absurd many (show ¬ 1 < 1 by decide)⟩
    intro t mem
    rw [List.mem_singleton.mp mem]
    exact Option.isSome_iff_exists.mpr supported
  obtain ⟨set, new⟩ := bfSetNew_of_accepted accepted none
  have none : Cstr.strtok isElemSep "{}".toList = .none := by decide
  refine ⟨set, fun fresh => ?_⟩
  simp only [bfSetNewFromRaw, parsed, new, rawElemLoop, Option.getD_some, none]

/-- However many there are. -/
theorem yyMatchers_replicate {t : MatcherText}
    (one : ∀ st, ∃ m st', YyRuns (yyMatcher zeroEnv t) st m st') (n : Nat) :
    ∃ ms st', YyRuns (yyAll (yyMatcher zeroEnv) (List.replicate n t)) st ms st' := by
  induction n generalizing st with
  | zero => exact ⟨[], st, yyRuns_yyAll_nil_iff.mpr ⟨rfl, rfl⟩⟩
  | succ n ih =>
      obtain ⟨m, mid, first⟩ := one st
      obtain ⟨ms, st', others⟩ := @ih mid
      exact ⟨m :: ms, st', yyRuns_yyAll_cons_iff.mpr ⟨m, mid, ms, first, others, rfl⟩⟩

/-- Nothing that chains for traffic control do with marks is refused. -/
theorem bfChainValidate_tc {chain : BfChain} (hook : chain.hook = .tcIngress) :
    bfChainValidate chain = true := by
  rw [bfChainValidate, hook]
  simp [bfHookToFlavor]

theorem manySets_accepted (n : Nat) :
    ∃ ruleset, yyparse zeroEnv [manySets n] = some (.ok ruleset) := by
  obtain ⟨saddr, sources⟩ := @emptySet_made "(ip4.saddr)".toList .ip4Saddr (by decide) ⟨4, rfl⟩
  obtain ⟨daddr, dests⟩ := @emptySet_made "(ip4.daddr)".toList .ip4Daddr (by decide) ⟨4, rfl⟩
  obtain ⟨m, mid, first⟩ := @yyMatcher_emptySet {} _ _ dests
  obtain ⟨ms, st, others⟩ :=
    @yyMatchers_replicate mid _ (fun st => @yyMatcher_emptySet st _ _ sources) n
  have matchers : YyRuns (yyAll (yyMatcher zeroEnv) (emptySetText "(ip4.daddr)".toList ::
      List.replicate n (emptySetText "(ip4.saddr)".toList))) {} (m :: ms) st :=
    yyRuns_yyAll_cons_iff.mpr ⟨m, mid, ms, first, others, rfl⟩
  have rule : ∃ rule, YyRuns (yyAll (yyRule zeroEnv) (manySets n).rules) {} [rule] st := by
    refine ⟨{ matchers := m :: ms, verdict := .drop }, ?_⟩
    rw [manySets, yyRuns_yyAll_cons_iff]
    refine ⟨_, st, [], ?_, yyRuns_yyAll_nil_iff.mpr ⟨rfl, rfl⟩, rfl⟩
    simp only [yyRule, yyRuns_bind_iff, yyRuns_orAbort_iff, yyRuns_pure_iff]
    exact ⟨m :: ms, st, matchers, {}, st, rfl, .drop, st, ⟨rfl, rfl⟩, rfl, rfl⟩
  obtain ⟨rule, ruled⟩ := rule
  have hook : (bfHookFromStr (manySets n).hook).getD zeroEnv.strayHook = .tcIngress := by
    show (bfHookFromStr "BF_HOOK_TC_INGRESS".toList).getD .xdp = .tcIngress
    decide
  have chain : ∃ ruleset, YyRuns (yyChain zeroEnv (manySets n)) {} () ruleset := by
    simp only [yyChain, yyRuns_bind_iff, yyRuns_orAbort_iff, yyRuns_yyCheck_iff, yyRuns_get_iff,
      yyRuns_modify_iff]
    exact ⟨_, none, {}, rfl, .accept, {}, ⟨rfl, rfl⟩, [], {}, rfl, [rule], st, ruled, (), st,
      ⟨rfl, rfl⟩, st, st, ⟨rfl, rfl⟩, (), _, rfl, (), _, ⟨bfChainValidate_tc hook, rfl⟩, (), _,
      ⟨rfl, rfl⟩, rfl⟩
  obtain ⟨ruleset, ran⟩ := chain
  have all : YyRuns (yyAll (yyChain zeroEnv) [manySets n]) {} [()] ruleset :=
    yyRuns_yyAll_cons_iff.mpr ⟨(), ruleset, [], ran, yyRuns_yyAll_nil_iff.mpr ⟨rfl, rfl⟩, rfl⟩
  refine ⟨ruleset, ?_⟩
  rw [yyparse, show yyAll (yyChain zeroEnv) [manySets n] {} = some (.ok ([()], ruleset)) from all]

end Many

/-- The last of these matchers reads the first set, where its index wraps. -/
theorem manySets_misread {n : Nat} {chain : BfChain} (some : 0 < n) (wraps : BitVec.ofNat 32 n = 0)
    (refer : SetsRefer plainNames (manySets n) chain) :
    ¬ SetRefsResolve plainNames (manySets n) chain := by
  intro resolve
  have shape : (manySets n).matchers = emptySetText "(ip4.daddr)".toList ::
      List.replicate n (emptySetText "(ip4.saddr)".toList) := List.flatMap_singleton ..
  have last : (manySets n).matchers[n]? = .some (emptySetText "(ip4.saddr)".toList) := by
    rw [shape, List.getElem?_cons, if_neg (by omega), List.getElem?_replicate, if_pos (by omega)]
  have count : (((manySets n).matchers.take n).flatMap MatcherText.written).length = n := by
    have single : ∀ t ∈ (manySets n).matchers.take n, t.written.length = 1 := by
      intro t mem
      have inside := List.mem_of_mem_take mem
      rw [shape] at inside
      rcases List.mem_cons.mp inside with rfl | inside
      · rfl
      · rw [(List.mem_replicate.mp inside).2]
        rfl
    rw [List.length_flatMap, List.map_congr_left single, List.map_const', List.sum_replicate_nat,
      Nat.mul_one, List.length_take, shape, List.length_cons, List.length_replicate,
      Nat.min_eq_left (Nat.le_succ n)]
  have bound : n < chain.matchers.length := by
    rw [refer.refers.length, shape, List.length_cons, List.length_replicate]
    exact Nat.lt_succ_self n
  have here := List.getElem?_eq_getElem bound
  have refers := refer.refers.get last here
  have index : chain.matchers[n] = setMatcher 0 := by
    have named : chain.matchers[n] = setMatcher (BitVec.ofNat 32 (0 + _)) := refers
    rw [named, count, Nat.zero_add, wraps]
  obtain ⟨p, set, -, -, key, got⟩ := resolve.resolves n _ _ last here (by rw [index]; rfl)
  have first : (manySets n).written[0]? = .some ⟨none, "(ip4.daddr)".toList, "{}".toList⟩ := by
    rw [ChainText.written, shape]
    rfl
  obtain ⟨set', inside, made⟩ := getElem?_of_forall₂ refer.sets first
  have zero : bfChainGetSetForMatcher chain chain.matchers[n] = chain.sets[0]? := by
    rw [index, bfChainGetSetForMatcher, if_pos (show (setMatcher 0).type = .set from rfl),
      setMatcher_payload]
    rfl
  rw [zero, inside] at got
  obtain rfl := Option.some.inj got
  -- The key of that set is read from two different texts.
  have saddr : KeyText "(ip4.saddr)".toList set'.key := key
  have daddr : KeyText "(ip4.daddr)".toList set'.key := made.key
  exact absurd (saddr.1.trans daddr.1.symm) (by decide)

/-- With one set more than there are indices, the last anonymous set is not found. -/
theorem manySets_not_resolve :
    ∃ ruleset, yyparse zeroEnv [manySets (2 ^ 32)] = some (.ok ruleset) ∧
      ¬ List.Forall₂ (SetRefsResolve plainNames) [manySets (2 ^ 32)] ruleset.chains := by
  obtain ⟨ruleset, accepted⟩ := manySets_accepted (2 ^ 32)
  refine ⟨ruleset, accepted, fun resolve => ?_⟩
  have refer := setsRefer_of_accepted accepted
  generalize ruleset.chains = chains at refer resolve
  cases refer with
  | cons here _ =>
      cases resolve with
      | cons resolves _ => exact manySets_misread (by decide) (by decide) here resolves

end Bpfilter

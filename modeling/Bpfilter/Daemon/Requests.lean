/-
# Daemon.Requests -- invariants of the daemon

An invariant of the daemon has two parts: `Inv` about the system and `Good` about
each codegen in the context.  `CgenInvariant` collects what the four operations on a
codegen have to keep; `step_keeps` then lifts it to every request, so a property of
whole runs needs no further look at the front ends.

An update may need a condition of its own (`Allowed`, on the new chain and the
codegen it replaces the chain of), and so may setting a chain (`Sets`, on the chain
and the hook options it comes with, in `CgenRules`).
-/
import Bpfilter.Daemon.Steps
import Bpfilter.Daemon.Front

namespace Bpfilter

set_option autoImplicit false

open Hoare

/-! ## Context operations -/

theorem onSys_inv {α : Type} {act : Act α} {d d' : Daemon} {a : α}
    (ran : onSys act d = .ok (a, d')) :
    ∃ sys, act d.sys = .ok (a, sys) ∧ d' = { d with sys } := by
  unfold onSys at ran
  cases acted : act d.sys with
  | error e =>
      rw [acted] at ran
      cases ran
  | ok result =>
      rw [acted] at ran
      cases ran
      exact ⟨_, rfl, rfl⟩

theorem findCgen_some {name : String} {cgens : List (Option BfCgen)} {i : Nat} {cgen : BfCgen}
    (found : findCgen name cgens = .ok (some (i, cgen))) :
    cgens[i]? = some (some cgen) ∧ cgen.chain.name = name := by
  induction cgens generalizing i with
  | nil => cases found
  | cons head rest ih =>
      cases head with
      | none => cases found
      | some first =>
          rw [findCgen] at found
          by_cases named : first.chain.name = name
          · rw [if_pos named] at found
            cases found
            exact ⟨rfl, named⟩
          · rw [if_neg named] at found
            cases later : findCgen name rest with
            | error e =>
                rw [later] at found
                cases found
            | ok result =>
                rw [later] at found
                cases result with
                | none => cases found
                | some other =>
                    cases found
                    exact ih later

theorem bfCtxGetCgen_inv {name : String} {d d' : Daemon} {found : Option (Nat × BfCgen)}
    (ran : bfCtxGetCgen name d = .ok (found, d')) :
    d' = d ∧ findCgen name d.cgens = .ok found := by
  unfold bfCtxGetCgen at ran
  cases search : findCgen name d.cgens with
  | error e =>
      rw [search] at ran
      cases ran
  | ok result =>
      rw [search] at ran
      cases ran
      exact ⟨rfl, rfl⟩

theorem bfCtxSetCgen_inv {cgen : BfCgen} {d d' : Daemon} {r : Option Errno}
    (ran : bfCtxSetCgen cgen d = .ok (r, d')) :
    d' = d ∨ d' = { d with cgens := d.cgens ++ [some cgen] } := by
  unfold bfCtxSetCgen at ran
  obtain ⟨found, t, get, ran⟩ := bind_inv ran
  obtain ⟨rfl, -⟩ := bfCtxGetCgen_inv get
  cases found with
  | some entry =>
      cases ran
      exact .inl rfl
  | none =>
      cases ran
      exact .inr rfl

theorem bfCgenNew_inv {fate : Fate} {front : BfFront} {chain : BfChain} {s s' : Sys}
    {result : Except Errno BfCgen} (ran : bfCgenNew fate front chain s = .ok (result, s')) :
    s' = s ∧ ((∃ e, result = .error e ∧ bfChainValidate chain = false) ∨
      result = .ok { front, chain } ∧ bfChainValidate chain = true) := by
  unfold bfCgenNew at ran
  cases valid : bfChainValidate chain with
  | true =>
      rw [if_pos valid] at ran
      cases ran
      exact ⟨rfl, .inr ⟨rfl, rfl⟩⟩
  | false =>
      rw [valid, if_neg Bool.false_ne_true, bind_run (get_run s)] at ran
      split at ran
      · cases ran
      · cases ran
        exact ⟨rfl, .inl ⟨_, rfl, rfl⟩⟩

theorem bfCgenUnload_inv {fails : Option Errno} {cgen : BfCgen} {s s' : Sys}
    (ran : bfCgenUnload fails cgen s = .ok ((), s')) : s.SameButPins s' := by
  unfold bfCgenUnload at ran
  cases fails with
  | some e =>
      cases ran
      exact .refl s
  | none =>
      cases present : cgen.program with
      | none =>
          simp only [present] at ran
          cases ran
      | some prog =>
          simp only [present] at ran
          cases ran
          exact Sys.setDir_sameButPins ..

/-- An update request: refused with nothing changed, or an update of the codegen found. -/
theorem bfCliChainUpdate_inv {fate : Fate} {chain : DecodedChain} {d d' : Daemon} {r : Ret} {i : Nat}
    {cgen : BfCgen} (ran : bfCliChainUpdate fate chain d = .ok (r, d'))
    (found : findCgen chain.chain.name d.cgens = .ok (some (i, cgen))) :
    (r ≠ .ok ∧ d' = d) ∨ ∃ r' cgen' sys,
      bfCgenUpdate fate cgen chain.chain d.sys = .ok ((r', cgen'), sys) ∧
        r = (if r' = .ok then .ok else .err .einval) ∧
        d' = { sys, cgens := d.cgens.set i (some cgen') } := by
  unfold bfCliChainUpdate at ran
  obtain ⟨result, t, get, ran⟩ := bind_inv ran
  obtain ⟨rfl, search⟩ := bfCtxGetCgen_inv get
  cases found.symm.trans search
  cases present : cgen.program with
  | none =>
      simp only [present] at ran
      cases ran
  | some prog =>
      simp only [present] at ran
      by_cases unlinked : prog.link.hookopts.isNone = true
      · rw [if_pos unlinked] at ran
        cases ran
        exact .inl ⟨Ret.noConfusion, rfl⟩
      · rw [if_neg unlinked] at ran
        obtain ⟨⟨r', cgen'⟩, u, update, ran⟩ := bind_inv ran
        obtain ⟨sys, acted, rfl⟩ := onSys_inv update
        cases ran
        exact .inr ⟨r', cgen', sys, acted, rfl, rfl⟩

/-- An attach request: refused with nothing changed, or the codegen found, which is not attached,
is. -/
theorem bfCliChainAttach_inv {fate : Fate} {client : BfNs} {name : String} {opts : BfHookopts}
    {d d' : Daemon} {r : Ret} (ran : bfCliChainAttach fate client name opts d = .ok (r, d')) :
    d' = d ∨ ∃ i cgen prog cgen' sys, d.cgens[i]? = some (some cgen) ∧ cgen.chain.name = name ∧
      cgen.program = some prog ∧ prog.link.hookopts = none ∧
      bfCgenAttach fate cgen client opts d.sys = .ok ((r, cgen'), sys) ∧
      d' = { sys, cgens := d.cgens.set i (some cgen') } := by
  unfold bfCliChainAttach at ran
  obtain ⟨found, t, get, ran⟩ := bind_inv ran
  obtain ⟨rfl, search⟩ := bfCtxGetCgen_inv get
  cases found with
  | none =>
      cases ran
      exact .inl rfl
  | some entry =>
      obtain ⟨i, cgen⟩ := entry
      cases present : cgen.program with
      | none =>
          simp only [present] at ran
          cases ran
      | some prog =>
          simp only [present] at ran
          by_cases linked : prog.link.hookopts.isSome = true
          · rw [if_pos linked] at ran
            cases ran
            exact .inl rfl
          rw [if_neg linked] at ran
          cases valid : bfHookoptsValidate opts cgen.chain.hook with
          | error e =>
              simp only [valid] at ran
              cases ran
              exact .inl rfl
          | ok done =>
              simp only [valid] at ran
              obtain ⟨⟨r', cgen'⟩, u, attach, ran⟩ := bind_inv ran
              obtain ⟨sys, attached, rfl⟩ := onSys_inv attach
              cases ran
              obtain ⟨at_, named⟩ := findCgen_some search
              refine .inr ⟨i, cgen, prog, cgen', sys, at_, named, present, ?_, attached, rfl⟩
              simpa using linked

/-! ## From codegens to the daemon -/

/-- The flags of a chain are those of its rules. -/
def BfChain.FlagsExact (chain : BfChain) : Prop :=
  chain.flags = chain.rules.foldl bfChainUpdateFeatures {}

structure CgenInvariant (Inv : Sys → Prop) (Good : BfCgen → Prop)
    (Allowed : BfChain → BfCgen → Prop) : Prop where
  pins : ∀ {s s' : Sys}, s.SameButPins s' → Inv s → Inv s'
  set : ∀ {fate : Fate} {cgen cgen' : BfCgen} {client : BfNs} {hookopts : Option BfHookopts}
    {s s' : Sys} {r : Ret}, cgen.chain.FlagsExact → bfChainValidate cgen.chain = true →
    cgen.program = none → Inv s → CgenSet fate cgen client hookopts s r cgen' s' →
    Inv s' ∧ (r = .ok → Good cgen')
  attach : ∀ {fate : Fate} {cgen cgen' : BfCgen} {client : BfNs} {opts : BfHookopts}
    {s s' : Sys} {r : Ret}, Inv s → Good cgen → CgenAttach fate cgen client opts s r cgen' s' →
    Inv s' ∧ Good cgen'
  update : ∀ {fate : Fate} {cgen cgen' : BfCgen} {chain : BfChain} {s s' : Sys} {r : Ret},
    Inv s → Good cgen → Allowed chain cgen → CgenUpdate fate cgen chain s r cgen' s' →
    Inv s' ∧ Good cgen'

/-- The same for requests whose chains and hook options meet `Sets`; attaching has options that were
validated. -/
structure CgenRules (Inv : Sys → Prop) (Good : BfCgen → Prop)
    (Allowed : BfChain → BfCgen → Prop) (Sets : BfChain → Option BfHookopts → Prop) : Prop where
  pins : ∀ {s s' : Sys}, s.SameButPins s' → Inv s → Inv s'
  set : ∀ {fate : Fate} {cgen cgen' : BfCgen} {client : BfNs} {hookopts : Option BfHookopts}
    {s s' : Sys} {r : Ret}, cgen.chain.FlagsExact → bfChainValidate cgen.chain = true →
    cgen.program = none → Sets cgen.chain hookopts → Inv s →
    CgenSet fate cgen client hookopts s r cgen' s' → Inv s' ∧ (r = .ok → Good cgen')
  attach : ∀ {fate : Fate} {cgen cgen' : BfCgen} {client : BfNs} {opts : BfHookopts}
    {s s' : Sys} {r : Ret}, Inv s → Good cgen →
    bfHookoptsValidate opts cgen.chain.hook = .ok () →
    CgenAttach fate cgen client opts s r cgen' s' → Inv s' ∧ Good cgen'
  update : ∀ {fate : Fate} {cgen cgen' : BfCgen} {chain : BfChain} {s s' : Sys} {r : Ret},
    Inv s → Good cgen → Allowed chain cgen → CgenUpdate fate cgen chain s r cgen' s' →
    Inv s' ∧ Good cgen'

theorem CgenInvariant.rules {Inv : Sys → Prop} {Good : BfCgen → Prop}
    {Allowed : BfChain → BfCgen → Prop} (keeps : CgenInvariant Inv Good Allowed) :
    CgenRules Inv Good Allowed fun _ _ => True where
  pins := keeps.pins
  set flags valid fresh _ := keeps.set flags valid fresh
  attach inv good _ := keeps.attach inv good
  update := keeps.update

/-- The invariant holds of the system and of every codegen in the context. -/
def Daemon.Holds (Inv : Sys → Prop) (Good : BfCgen → Prop) (d : Daemon) : Prop :=
  Inv d.sys ∧ ∀ cgen, some cgen ∈ d.cgens → Good cgen

/-- The condition a request puts on the updates it makes. -/
def Request.Allows (Allowed : BfChain → BfCgen → Prop) : Request → Daemon → Prop
  | .chainUpdate _ chain, d =>
      ∀ cgen, some cgen ∈ d.cgens → cgen.chain.name = chain.chain.name → Allowed chain.chain cgen
  | .iptRulesetSet _ _ _, _ =>
      ∀ hook rules chain cgen, bfIptEntriesToChain hook rules = .ok chain → Allowed chain cgen
  | _, _ => True

/-- The condition a request puts on the chains it sets. -/
def Request.Sets (Sets : BfChain → Option BfHookopts → Prop) : Request → Prop
  | .rulesetSet _ _ _ (.ok entries) =>
      ∀ entry, .ok entry ∈ entries → Sets entry.chain.chain entry.hookopts
  | .chainSet _ _ chain hookopts _ => Sets chain.chain hookopts
  | .chainLoad _ chain => Sets chain.chain none
  | .iptRulesetSet _ _ _ =>
      ∀ hook rules chain, bfIptEntriesToChain hook rules = .ok chain → Sets chain none
  | _ => True

/-! ## iptables chains -/

/-- The rules of an iptables chain neither read nor set the mark. -/
def BfRule.NoMark (rule : BfRule) : Prop :=
  rule.mark = none ∧ ∀ m ∈ rule.matchers, m.type ≠ .metaMark

theorem iptAddrMatcher_types {addrType netType : BfMatcherType} {addr mask : BitVec 32}
    {inverted : Bool} {matchers : List BfMatcher}
    (ran : iptAddrMatcher addrType netType addr mask inverted = .ok matchers) :
    ∀ m ∈ matchers, m.type = addrType ∨ m.type = netType := by
  dsimp only [iptAddrMatcher] at ran
  by_cases used : addr ≠ 0 ∨ mask ≠ 0
  · rw [if_pos used] at ran
    by_cases single : mask = 0xffffffff
    · rw [if_pos single] at ran
      cases ran
      intro m mem
      cases List.mem_singleton.mp mem
      exact .inl rfl
    · rw [if_neg single] at ran
      obtain ⟨prefixlen, -, ran⟩ := bind_eq_ok ran
      cases ran
      intro m mem
      cases List.mem_singleton.mp mem
      exact .inr rfl
  · rw [if_neg used] at ran
    cases ran
    exact fun _ mem => absurd mem List.not_mem_nil

theorem iptProtoMatcher_types {ip : IptIp} {matchers : List BfMatcher}
    (ran : iptProtoMatcher ip = .ok matchers) : ∀ m ∈ matchers, m.type = .ip4Proto := by
  unfold iptProtoMatcher at ran
  split at ran
  · split at ran
    · cases ran
    · cases ran
      intro m mem
      cases List.mem_singleton.mp mem
      rfl
  · cases ran
    exact fun _ mem => absurd mem List.not_mem_nil

theorem bfIptEntryToRule_noMark {entry : IptEntry} {rule : BfRule}
    (ran : bfIptEntryToRule entry = .ok rule) : rule.NoMark := by
  unfold bfIptEntryToRule at ran
  split at ran
  · cases ran
  split at ran
  · cases ran
  obtain ⟨src, srcRan, ran⟩ := bind_eq_ok ran
  obtain ⟨dst, dstRan, ran⟩ := bind_eq_ok ran
  obtain ⟨proto, protoRan, ran⟩ := bind_eq_ok ran
  obtain ⟨verdict, -, ran⟩ := bind_eq_ok ran
  cases ran
  refine ⟨rfl, fun m mem isMark => ?_⟩
  obtain mem | mem := List.mem_append.mp mem
  · obtain mem | mem := List.mem_append.mp mem
    · obtain type | type := iptAddrMatcher_types srcRan m mem <;> rw [isMark] at type <;> cases type
    · obtain type | type := iptAddrMatcher_types dstRan m mem <;> rw [isMark] at type <;> cases type
  · have type := iptProtoMatcher_types protoRan m mem
    rw [isMark] at type
    cases type

/-- What adding the rules of a hook keeps. -/
structure IptChain (hook : BfNfInetHook) (chain : BfChain) : Prop where
  flags : chain.FlagsExact
  setMark : chain.flags.setMark = false
  getMark : chain.flags.getMark = false
  hook : chain.hook = bfHookFromNfHook hook

theorem bfChainAddRule_flags {chain : BfChain} (flags : chain.FlagsExact) (rule : BfRule) :
    (bfChainAddRule chain rule).FlagsExact := by
  unfold BfChain.FlagsExact at flags ⊢
  simp only [bfChainAddRule, List.foldl_append, List.foldl_cons, List.foldl_nil, ← flags]
  rfl

theorem iptAddRules_inv {hook : BfNfInetHook} {entries : List IptEntry} {chain chain' : BfChain}
    (ipt : IptChain hook chain) (ran : iptAddRules entries chain = .ok chain') :
    IptChain hook chain' := by
  induction entries generalizing chain with
  | nil =>
      cases ran
      exact ipt
  | cons entry rest ih =>
      obtain ⟨rule, made, ran⟩ := bind_eq_ok ran
      obtain ⟨noMark, noMatcher⟩ := bfIptEntryToRule_noMark made
      refine ih ⟨bfChainAddRule_flags ipt.flags rule, ?_, ?_, ipt.hook⟩ ran
      · simp [bfChainAddRule, bfChainUpdateFeatures, ipt.setMark, noMark]
      · simpa [bfChainAddRule, bfChainUpdateFeatures, ipt.getMark] using noMatcher

theorem bfIptEntriesToChain_inv {hook : BfNfInetHook} {rules : IptHookEntries} {chain : BfChain}
    (ran : bfIptEntriesToChain hook rules = .ok chain) : IptChain hook chain := by
  obtain ⟨policy, -, ran⟩ := bind_eq_ok ran
  refine iptAddRules_inv ⟨?_, rfl, rfl, rfl⟩ ran
  rfl

theorem IptChain.valid {hook : BfNfInetHook} {chain : BfChain} (ipt : IptChain hook chain) :
    bfChainValidate chain = true := by
  simp [bfChainValidate, ipt.setMark, ipt.getMark]

/-- The chains of a translation are those of the enabled hooks. -/
theorem bfIptXlateRulesetSet_chain {replace : IptReplace} {hooks : List BfNfInetHook}
    {chains : List (BfNfInetHook × Option BfChain)}
    (ran : bfIptXlateRulesetSet replace hooks = .ok chains) :
    chains.map Prod.fst = hooks ∧
    (∀ hook, (hook, none) ∈ chains ↔ hook ∈ hooks ∧ replace.hooks hook = none) ∧
    ∀ hook chain, (hook, some chain) ∈ chains →
      ∃ rules, replace.hooks hook = some rules ∧ bfIptEntriesToChain hook rules = .ok chain := by
  induction hooks generalizing chains with
  | nil =>
      cases ran
      simp
  | cons first rest ih =>
      rw [bfIptXlateRulesetSet] at ran
      cases enabled : replace.hooks first with
      | none =>
          simp only [enabled] at ran
          obtain ⟨chains', ran', ran⟩ := bind_eq_ok ran
          cases ran
          obtain ⟨names, disabled, translated⟩ := ih ran'
          refine ⟨by simp [names], fun hook => ?_, fun hook chain mem => ?_⟩
          · simp only [List.mem_cons, Prod.mk.injEq, and_true, disabled]
            constructor
            · rintro (rfl | ⟨mem, off⟩)
              · exact ⟨.inl rfl, enabled⟩
              · exact ⟨.inr mem, off⟩
            · rintro ⟨same | mem, off⟩
              · exact .inl same
              · exact .inr ⟨mem, off⟩
          · simp only [List.mem_cons, Prod.mk.injEq, reduceCtorEq, and_false, false_or] at mem
            exact translated hook chain mem
      | some entries =>
          simp only [enabled] at ran
          obtain ⟨chain, made, ran⟩ := bind_eq_ok ran
          obtain ⟨chains', ran', ran⟩ := bind_eq_ok ran
          cases ran
          obtain ⟨names, disabled, translated⟩ := ih ran'
          refine ⟨by simp [names], fun hook => ?_, fun hook chain' mem => ?_⟩
          · simp only [List.mem_cons, Prod.mk.injEq, reduceCtorEq, and_false, false_or, disabled]
            constructor
            · rintro ⟨mem, off⟩
              exact ⟨.inr mem, off⟩
            · rintro ⟨rfl | mem, off⟩
              · rw [enabled] at off
                cases off
              · exact ⟨mem, off⟩
          · obtain same | mem := List.mem_cons.mp mem
            · cases same
              exact ⟨entries, enabled, made⟩
            · exact translated hook chain' mem

/-- Either the request is refused with nothing changed, or its hook loop runs. -/
theorem bfIptRulesetSet_inv {fates : BfNfInetHook → Fate} {client : BfNs} {replace : IptReplace}
    {d d' : Daemon} {r : Ret} (ran : bfIptRulesetSet fates client replace d = .ok (r, d')) :
    (d' = d ∧ ¬ (replace.sizeOk = true ∧
        (∃ chains, bfIptXlateRulesetSet replace bfNfInetHooks = .ok chains) ∧
        ∃ cur, collectCgens 0 d.cgens (fun _ => none) = .ok (.ok cur))) ∨
      ∃ chains cur, replace.sizeOk = true ∧
        bfIptXlateRulesetSet replace bfNfInetHooks = .ok chains ∧
        collectCgens 0 d.cgens (fun _ => none) = .ok (.ok cur) ∧
        iptSetHooks fates client cur chains .ok d = .ok (r, d') := by
  unfold bfIptRulesetSet at ran
  cases size : replace.sizeOk with
  | false =>
      simp only [size] at ran
      cases ran
      exact .inl ⟨rfl, fun accepted => by simp at accepted⟩
  | true =>
      simp only [size] at ran
      cases xlate : bfIptXlateRulesetSet replace bfNfInetHooks with
      | error e =>
          simp only [xlate] at ran
          cases e with
          | errno e =>
              cases ran
              exact .inl ⟨rfl, fun accepted => by simp at accepted⟩
          | abort => cases ran
          | undefined => cases ran
      | ok chains =>
          simp only [xlate] at ran
          rw [Bool.not_true, if_neg Bool.false_ne_true, bind_run (get_run d)] at ran
          cases collect : collectCgens 0 d.cgens (fun _ => none) with
          | error e =>
              simp only [collect] at ran
              cases ran
          | ok result =>
              simp only [collect] at ran
              cases result with
              | error e =>
                  cases ran
                  exact .inl ⟨rfl, fun accepted => by simp at accepted⟩
              | ok cur => exact .inr ⟨chains, cur, rfl, rfl, rfl, ran⟩

/-- Setting a codegen does not change its chain. -/
theorem CgenSet.chain {fate : Fate} {s s' : Sys} {cgen cgen' : BfCgen} {client : BfNs}
    {hookopts : Option BfHookopts} {r : Ret} (set : CgenSet fate cgen client hookopts s r cgen' s') :
    cgen'.chain = cgen.chain := by
  cases set with
  | notBuilt => rfl
  | notAttached => rfl
  | loaded _ _ _ result =>
      obtain ⟨rfl, -⟩ | ⟨rfl, -⟩ := Sys.kept_inv result
      · rfl
      · rfl
  | attached _ _ _ _ result =>
      obtain ⟨rfl, -⟩ | ⟨rfl, -⟩ := Sys.kept_inv result
      · rfl
      · rfl

/-- The options of the iptables front end fit every Netfilter hook. -/
theorem iptHookopts_valid {hook : BfHook} (nf : bfHookToFlavor hook = .nf) :
    bfHookoptsValidate iptHookopts hook = .ok () := by
  unfold bfHookoptsValidate
  rw [nf]
  rfl

section Lift

variable {Inv : Sys → Prop} {Good : BfCgen → Prop} {Allowed : BfChain → BfCgen → Prop}
  {Sets : BfChain → Option BfHookopts → Prop}

theorem onSys_keeps {α : Type} {act : Act α} {Q : α → Prop}
    (keeps : ∀ s a s', Inv s → act s = .ok (a, s') → Inv s' ∧ Q a) :
    Triple (Daemon.Holds Inv Good) (onSys act) fun a d => d.Holds Inv Good ∧ Q a := by
  intro d a d' holds ran
  obtain ⟨sys, acted, rfl⟩ := onSys_inv ran
  obtain ⟨inv, result⟩ := keeps _ _ _ holds.1 acted
  exact ⟨⟨inv, holds.2⟩, result⟩

/-- A lookup changes nothing. -/
theorem bfCtxGetCgen_keeps {P : Daemon → Prop} (name : String) :
    Triple P (bfCtxGetCgen name) fun _ => P := by
  intro d found d' holds ran
  obtain ⟨rfl, -⟩ := bfCtxGetCgen_inv ran
  exact holds

/-- What a lookup finds is in the context. -/
theorem bfCtxGetCgen_finds {P : Daemon → Prop} (name : String) :
    Triple P (bfCtxGetCgen name) fun found d => P d ∧
      ∀ i cgen, found = some (i, cgen) → some cgen ∈ d.cgens ∧ cgen.chain.name = name := by
  intro d found d' holds ran
  obtain ⟨rfl, search⟩ := bfCtxGetCgen_inv ran
  refine ⟨holds, fun i cgen same => ?_⟩
  rw [same] at search
  obtain ⟨at_, named⟩ := findCgen_some search
  exact ⟨List.mem_of_getElem? at_, named⟩

theorem bfCtxSetCgen_keeps {cgen : BfCgen} (good : Good cgen) :
    Triple (Daemon.Holds Inv Good) (bfCtxSetCgen cgen) fun _ => Daemon.Holds Inv Good := by
  intro d r d' holds ran
  obtain rfl | rfl := bfCtxSetCgen_inv ran
  · exact holds
  · refine ⟨holds.1, fun other mem => ?_⟩
    obtain mem | mem := List.mem_append.mp mem
    · exact holds.2 other mem
    · cases List.mem_singleton.mp mem
      exact good

theorem putCgen_keeps {cgen : Option BfCgen} (i : Nat) (good : ∀ c, cgen = some c → Good c) :
    Triple (Daemon.Holds Inv Good) (putCgen i cgen) fun _ => Daemon.Holds Inv Good := by
  intro d r d' holds ran
  cases ran
  refine ⟨holds.1, fun other mem => ?_⟩
  obtain mem | same := List.mem_or_eq_of_mem_set mem
  · exact holds.2 other mem
  · exact good other same.symm

/-- A new codegen has a validated chain and no program. -/
theorem bfCgenNew_keeps (fate : Fate) (front : BfFront) (chain : BfChain) :
    Triple (Daemon.Holds Inv Good) (onSys (bfCgenNew fate front chain)) fun result d =>
      d.Holds Inv Good ∧ ∀ cgen, result = .ok cgen →
        cgen.chain = chain ∧ bfChainValidate cgen.chain = true ∧ cgen.program = none := by
  refine onSys_keeps fun s result s' inv ran => ?_
  obtain ⟨rfl, ⟨e, rfl, -⟩ | ⟨rfl, valid⟩⟩ := bfCgenNew_inv ran
  · exact ⟨inv, fun _ same => by cases same⟩
  · refine ⟨inv, fun cgen same => ?_⟩
    cases same
    exact ⟨rfl, valid, rfl⟩

/-- An operation on a codegen of the context, whose result goes back where it was. -/
theorem store_keeps {act : Act (Ret × BfCgen)} (answer : Ret → Ret) (i : Nat)
    (keeps : Triple (Daemon.Holds Inv Good) (onSys act)
      fun result d => d.Holds Inv Good ∧ Good result.2) :
    Triple (Daemon.Holds Inv Good) (do
      let (r, cgen) ← onSys act
      putCgen i (some cgen)
      pure (answer r)) fun _ => Daemon.Holds Inv Good := by
  refine keeps.bind fun ⟨r, cgen⟩ => Triple.assume fun good => ?_
  refine (putCgen_keeps i fun c same => ?_).bind fun _ => Triple.pure fun _ holds => holds
  cases same
  exact good

variable (rules : CgenRules Inv Good Allowed Sets)

include rules

theorem unload_keeps (fails : Option Errno) (cgen : BfCgen) :
    Triple (Daemon.Holds Inv Good) (onSys (bfCgenUnload fails cgen))
      fun _ => Daemon.Holds Inv Good := by
  have keeps : ∀ s a s', Inv s → bfCgenUnload fails cgen s = .ok (a, s') → Inv s' ∧ True :=
    fun s a s' inv ran => ⟨rules.pins (bfCgenUnload_inv ran) inv, trivial⟩
  exact (onSys_keeps keeps).weaken (fun _ pre => pre) fun _ _ post => post.1

theorem bfCtxDeleteCgen_keeps (fails : Option Errno) (i : Nat) (cgen : BfCgen) :
    Triple (Daemon.Holds Inv Good) (bfCtxDeleteCgen fails i cgen)
      fun _ => Daemon.Holds Inv Good := by
  refine (unload_keeps rules fails cgen).bind fun _ => Triple.modify fun d holds => ?_
  exact ⟨holds.1, fun other mem => holds.2 other (List.mem_of_mem_eraseIdx mem)⟩

theorem flushCgens_keeps (fails : String → Option Errno) (front : BfFront)
    (cgens : List (Option BfCgen)) :
    ∀ s left s', Inv s → flushCgens fails front cgens s = .ok (left, s') →
      Inv s' ∧ ∀ cgen, some cgen ∈ left → some cgen ∈ cgens := by
  induction cgens with
  | nil =>
      intro s left s' inv ran
      cases ran
      exact ⟨inv, fun _ mem => mem⟩
  | cons head rest ih =>
      intro s left s' inv ran
      cases head with
      | none => cases ran
      | some cgen =>
          rw [flushCgens] at ran
          by_cases same : cgen.front = front
          · rw [if_pos same] at ran
            obtain ⟨_, t, unload, ran⟩ := bind_inv ran
            obtain ⟨inv', kept⟩ := ih t left s' (rules.pins (bfCgenUnload_inv unload) inv) ran
            exact ⟨inv', fun c mem => List.mem_cons_of_mem _ (kept c mem)⟩
          · rw [if_neg same] at ran
            obtain ⟨left', t, flush, ran⟩ := bind_inv ran
            obtain ⟨inv', kept⟩ := ih s left' t inv flush
            cases ran
            refine ⟨inv', fun c mem => ?_⟩
            obtain head | tail := List.mem_cons.mp mem
            · rw [head]
              exact List.mem_cons_self
            · exact List.mem_cons_of_mem _ (kept c tail)

theorem bfCtxFlush_keeps (fails : String → Option Errno) (front : BfFront) :
    Triple (Daemon.Holds Inv Good) (bfCtxFlush fails front) fun _ => Daemon.Holds Inv Good := by
  intro d r d' holds ran
  unfold bfCtxFlush at ran
  rw [bind_run (get_run d)] at ran
  obtain ⟨left, t, flush, ran⟩ := bind_inv ran
  obtain ⟨sys, flushed, rfl⟩ := onSys_inv flush
  cases ran
  obtain ⟨inv, kept⟩ := flushCgens_keeps rules fails front d.cgens _ _ _ holds.1 flushed
  exact ⟨inv, fun cgen mem => holds.2 cgen (kept cgen mem)⟩

theorem setChain_keeps {fate : Fate} {client : BfNs} {cgen : BfCgen}
    {hookopts : Option BfHookopts} (flags : cgen.chain.FlagsExact)
    (valid : bfChainValidate cgen.chain = true) (fresh : cgen.program = none)
    (sets : Sets cgen.chain hookopts) :
    Triple (Daemon.Holds Inv Good) (setChain fate client cgen hookopts)
      fun _ => Daemon.Holds Inv Good := by
  have set : Triple (Daemon.Holds Inv Good) (onSys (bfCgenSet fate cgen client hookopts))
      fun result d => d.Holds Inv Good ∧ (result.1 = .ok → Good result.2) :=
    onSys_keeps fun s result s' inv ran => rules.set flags valid fresh sets inv (bfCgenSet_inv ran)
  refine set.bind fun ⟨r, cgen'⟩ => Triple.assume fun good => ?_
  cases r with
  | ok =>
      refine (bfCtxSetCgen_keeps (good rfl)).bind fun found => ?_
      cases found with
      | none => exact Triple.pure fun _ holds => holds
      | some e => exact (unload_keeps rules _ _).bind fun _ => Triple.pure fun _ holds => holds
  | err e => exact Triple.pure fun _ holds => holds

theorem setChains_keeps (client : BfNs) {entries : List (Except Errno RulesetEntry)}
    (sets : ∀ entry, .ok entry ∈ entries → Sets entry.chain.chain entry.hookopts) :
    Triple (Daemon.Holds Inv Good) (setChains client entries) fun _ => Daemon.Holds Inv Good := by
  induction entries with
  | nil => exact Triple.pure fun _ holds => holds
  | cons head rest ih =>
      have ih := ih fun entry mem => sets entry (List.mem_cons_of_mem _ mem)
      cases head with
      | error e => exact Triple.pure fun _ holds => holds
      | ok entry =>
          rw [setChains]
          refine (bfCgenNew_keeps _ _ _).bind fun result => Triple.assume fun new => ?_
          cases result with
          | error e => exact Triple.pure fun _ holds => holds
          | ok cgen =>
              obtain ⟨same, valid, fresh⟩ := new cgen rfl
              have flags : cgen.chain.FlagsExact := same ▸ entry.chain.flags
              have here : Sets cgen.chain entry.hookopts := same ▸ sets entry List.mem_cons_self
              refine (setChain_keeps rules flags valid fresh here).bind fun r => ?_
              cases r with
              | ok => exact ih
              | err e => exact Triple.pure fun _ holds => holds

theorem bfCliRulesetSet_keeps (client : BfNs) (fails failsAgain : String → Option Errno)
    {ruleset : RulesetPayload}
    (sets : (Request.rulesetSet client fails failsAgain ruleset).Sets Sets) :
    Triple (Daemon.Holds Inv Good) (bfCliRulesetSet client fails failsAgain ruleset)
      fun _ => Daemon.Holds Inv Good := by
  refine (bfCtxFlush_keeps rules _ _).bind fun _ => ?_
  cases ruleset with
  | garbled => exact Triple.throw _
  | error e => exact Triple.pure fun _ holds => holds
  | ok entries =>
      refine (setChains_keeps rules client sets).bind fun r => ?_
      have again : Triple (Daemon.Holds Inv Good) (do
          bfCtxFlush failsAgain .cli
          pure r) fun _ => Daemon.Holds Inv Good :=
        (bfCtxFlush_keeps rules _ _).bind fun _ => Triple.pure fun _ holds => holds
      cases r with
      | ok => exact Triple.pure fun _ holds => holds
      | err e => exact again

theorem bfCliChainSet_keeps (fate : Fate) (client : BfNs) (chain : DecodedChain)
    {hookopts : Option BfHookopts} (failsOld : Option Errno)
    (sets : Sets chain.chain hookopts) :
    Triple (Daemon.Holds Inv Good) (bfCliChainSet fate client chain hookopts failsOld)
      fun _ => Daemon.Holds Inv Good := by
  refine (bfCgenNew_keeps _ _ _).bind fun result => Triple.assume fun new => ?_
  cases result with
  | error e => exact Triple.pure fun _ holds => holds
  | ok cgen =>
      obtain ⟨same, valid, fresh⟩ := new cgen rfl
      have flags : cgen.chain.FlagsExact := same ▸ chain.flags
      have sets : Sets cgen.chain hookopts := same ▸ sets
      refine (bfCtxGetCgen_keeps _).bind fun found => ?_
      cases found with
      | none => exact setChain_keeps rules flags valid fresh sets
      | some entry =>
          exact (bfCtxDeleteCgen_keeps rules _ _ _).bind fun _ =>
            setChain_keeps rules flags valid fresh sets

theorem bfCliChainLoad_keeps (fate : Fate) {chain : DecodedChain} (sets : Sets chain.chain none) :
    Triple (Daemon.Holds Inv Good) (bfCliChainLoad fate chain) fun _ => Daemon.Holds Inv Good := by
  refine (bfCtxGetCgen_keeps _).bind fun found => ?_
  cases found with
  | some entry => exact Triple.pure fun _ holds => holds
  | none =>
      refine (bfCgenNew_keeps _ _ _).bind fun result => Triple.assume fun new => ?_
      cases result with
      | error e => exact Triple.pure fun _ holds => holds
      | ok cgen =>
          obtain ⟨same, valid, fresh⟩ := new cgen rfl
          have flags : cgen.chain.FlagsExact := same ▸ chain.flags
          -- Loading is setting without hook options; the rest of the two requests agrees.
          exact (setChain_keeps rules flags valid fresh (same ▸ sets) :
            Triple _ (setChain fate ⟨0, 0⟩ cgen none) _)

theorem attach_keeps {fate : Fate} {client : BfNs} {cgen : BfCgen} {opts : BfHookopts}
    (good : Good cgen) (valid : bfHookoptsValidate opts cgen.chain.hook = .ok ()) :
    Triple (Daemon.Holds Inv Good) (onSys (bfCgenAttach fate cgen client opts))
      fun result d => d.Holds Inv Good ∧ Good result.2 :=
  onSys_keeps fun _ _ _ inv ran => rules.attach inv good valid (bfCgenAttach_inv ran)

theorem bfCliChainAttach_keeps (fate : Fate) (client : BfNs) (name : String) (opts : BfHookopts) :
    Triple (Daemon.Holds Inv Good) (bfCliChainAttach fate client name opts)
      fun _ => Daemon.Holds Inv Good := by
  refine (bfCtxGetCgen_finds name).bind fun found => ?_
  cases found with
  | none => exact Triple.pure fun _ holds => holds.1
  | some entry =>
      obtain ⟨i, cgen⟩ := entry
      intro d r d' ⟨holds, finds⟩ ran
      have good : Good cgen := holds.2 cgen (finds i cgen rfl).1
      cases present : cgen.program with
      | none =>
          simp only [present] at ran
          cases ran
      | some prog =>
          simp only [present] at ran
          by_cases linked : prog.link.hookopts.isSome = true
          · rw [if_pos linked] at ran
            cases ran
            exact holds
          rw [if_neg linked] at ran
          cases valid : bfHookoptsValidate opts cgen.chain.hook with
          | error e =>
              simp only [valid] at ran
              cases ran
              exact holds
          | ok done =>
              simp only [valid] at ran
              exact store_keeps id i (attach_keeps rules good valid) d r d' holds ran

theorem update_keeps {fate : Fate} {cgen : BfCgen} {chain : BfChain} (good : Good cgen)
    (allowed : Allowed chain cgen) :
    Triple (Daemon.Holds Inv Good) (onSys (bfCgenUpdate fate cgen chain))
      fun result d => d.Holds Inv Good ∧ Good result.2 :=
  onSys_keeps fun _ _ _ inv ran => rules.update inv good allowed (bfCgenUpdate_inv ran)

theorem bfCliChainUpdate_keeps (fate : Fate) (chain : DecodedChain) :
    Triple (fun d => d.Holds Inv Good ∧ (Request.chainUpdate fate chain).Allows Allowed d)
      (bfCliChainUpdate fate chain) fun _ => Daemon.Holds Inv Good := by
  refine (bfCtxGetCgen_finds chain.chain.name).bind fun found => ?_
  cases found with
  | none => exact Triple.pure fun _ holds => holds.1.1
  | some entry =>
      obtain ⟨i, cgen⟩ := entry
      intro d r d' ⟨⟨holds, allows⟩, finds⟩ ran
      obtain ⟨mem, named⟩ := finds i cgen rfl
      cases present : cgen.program with
      | none =>
          simp only [present] at ran
          cases ran
      | some prog =>
          simp only [present] at ran
          by_cases unlinked : prog.link.hookopts.isNone = true
          · rw [if_pos unlinked] at ran
            cases ran
            exact holds
          rw [if_neg unlinked] at ran
          exact store_keeps (fun r => if r = .ok then .ok else .err .einval) i
            (update_keeps rules (holds.2 cgen mem) (allows cgen mem named)) d r d' holds ran

theorem bfCliChainFlush_keeps (fails : Option Errno) (name : String) :
    Triple (Daemon.Holds Inv Good) (bfCliChainFlush fails name)
      fun _ => Daemon.Holds Inv Good := by
  refine (bfCtxGetCgen_keeps name).bind fun found => ?_
  cases found with
  | none => exact Triple.pure fun _ holds => holds
  | some entry =>
      exact (bfCtxDeleteCgen_keeps rules _ _ _).bind fun _ => Triple.pure fun _ holds => holds

theorem iptNewCgen_keeps {fate : Fate} {client : BfNs} {chain : BfChain}
    (flags : chain.FlagsExact) (nf : bfHookToFlavor chain.hook = .nf) (sets : Sets chain none) :
    Triple (Daemon.Holds Inv Good) (iptNewCgen fate client chain)
      fun _ => Daemon.Holds Inv Good := by
  refine (bfCgenNew_keeps _ _ _).bind fun result => Triple.assume fun new => ?_
  cases result with
  | error e => exact Triple.pure fun _ holds => holds
  | ok cgen =>
      obtain ⟨same, valid, fresh⟩ := new cgen rfl
      have load : Triple (Daemon.Holds Inv Good) (onSys (bfCgenLoad fate cgen))
          fun result d => d.Holds Inv Good ∧
            ((result.1 = .ok → Good result.2) ∧ result.2.chain = cgen.chain) :=
        onSys_keeps fun s result s' inv ran => by
          have set := bfCgenLoad_inv client (show bfCgenLoad fate cgen s =
            .ok ((result.1, result.2), s') from ran)
          obtain ⟨inv, good⟩ := rules.set (same ▸ flags) valid fresh (same ▸ sets) inv set
          exact ⟨inv, good, set.chain⟩
      refine load.bind fun ⟨r, cgen'⟩ => Triple.assume fun ⟨good, chain'⟩ => ?_
      have options : bfHookoptsValidate iptHookopts cgen'.chain.hook = .ok () :=
        iptHookopts_valid (by rw [chain', same]; exact nf)
      cases r with
      | err e => exact Triple.pure fun _ holds => holds
      | ok =>
          refine (attach_keeps rules (good rfl) options).bind fun ⟨r, cgen⟩ =>
            Triple.assume fun good => ?_
          cases r with
          | err e => exact Triple.pure fun _ holds => holds
          | ok =>
              refine (bfCtxSetCgen_keeps good).bind fun found => ?_
              cases found <;> exact Triple.pure fun _ holds => holds

theorem iptSetHooks_keeps (fates : BfNfInetHook → Fate) (client : BfNs) (cur : CurCgens)
    (allowed : ∀ hook rules chain cgen, bfIptEntriesToChain hook rules = .ok chain →
      Allowed chain cgen)
    (sets : ∀ hook rules chain, bfIptEntriesToChain hook rules = .ok chain → Sets chain none)
    {chains : List (BfNfInetHook × Option BfChain)}
    (translated : ∀ hook chain, (hook, some chain) ∈ chains →
      ∃ rules, bfIptEntriesToChain hook rules = .ok chain) (r : Ret) :
    Triple (Daemon.Holds Inv Good) (iptSetHooks fates client cur chains r)
      fun _ => Daemon.Holds Inv Good := by
  induction chains generalizing r with
  | nil => exact Triple.pure fun _ holds => holds
  | cons head rest ih =>
      have ih := ih fun hook chain mem => translated hook chain (List.mem_cons_of_mem _ mem)
      obtain ⟨hook, chain⟩ := head
      rw [iptSetHooks.eq_def]
      cases chain with
      | none =>
          simp only
          cases cur hook with
          | none => exact ih r
          | some i => exact (putCgen_keeps i fun c same => by cases same).bind fun _ => ih r
      | some chain =>
          obtain ⟨entries, made⟩ := translated hook chain List.mem_cons_self
          simp only
          cases cur hook with
          | none =>
              have ipt := bfIptEntriesToChain_inv made
              have nf : bfHookToFlavor chain.hook = .nf := by
                rw [ipt.hook, bfHookToFlavor_from]
              refine (iptNewCgen_keeps rules ipt.flags nf (sets hook entries chain made)).bind
                fun ⟨go, r⟩ => ?_
              exact Triple.ite (fun _ => ih r) fun _ => Triple.pure fun _ holds => holds
          | some i =>
              simp only
              intro d r' d' holds ran
              rw [bind_run (get_run d)] at ran
              cases at_ : d.cgens[i]? with
              | none =>
                  simp only [at_] at ran
                  cases ran
              | some entry =>
                  cases entry with
                  | none =>
                      simp only [at_] at ran
                      cases ran
                  | some cgen =>
                      simp only [at_] at ran
                      obtain ⟨⟨r, cgen'⟩, t, update, ran⟩ := bind_inv ran
                      obtain ⟨_, u, put, ran⟩ := bind_inv ran
                      have good := holds.2 cgen (List.mem_of_getElem? at_)
                      obtain ⟨holds, good⟩ := update_keeps rules good
                        (allowed hook entries chain cgen made) _ _ _ holds update
                      refine ih r u r' d' (putCgen_keeps i (fun c same => ?_) t _ u holds put) ran
                      cases same
                      exact good

theorem bfIptRulesetSet_keeps (fates : BfNfInetHook → Fate) (client : BfNs) (replace : IptReplace)
    (allowed : ∀ hook rules chain cgen, bfIptEntriesToChain hook rules = .ok chain →
      Allowed chain cgen)
    (sets : ∀ hook rules chain, bfIptEntriesToChain hook rules = .ok chain → Sets chain none) :
    Triple (Daemon.Holds Inv Good) (bfIptRulesetSet fates client replace)
      fun _ => Daemon.Holds Inv Good := by
  intro d r d' holds ran
  obtain ⟨rfl, -⟩ | ⟨chains, cur, -, xlate, -, loop⟩ := bfIptRulesetSet_inv ran
  · exact holds
  · refine iptSetHooks_keeps rules fates client cur allowed sets (fun hook chain mem => ?_) .ok d r
      d' holds loop
    obtain ⟨entries, -, made⟩ := (bfIptXlateRulesetSet_chain xlate).2.2 hook chain mem
    exact ⟨entries, made⟩

/-- **Lifting.**  What the operations on a codegen keep, every request keeps. -/
theorem step_keeps_rules {request : Request} (sets : request.Sets Sets) :
    Triple (fun d => d.Holds Inv Good ∧ request.Allows Allowed d) (step request)
      fun _ => Daemon.Holds Inv Good := by
  cases request with
  | rulesetFlush fails =>
      refine Triple.weaken ?_ (fun _ pre => pre.1) fun _ _ post => post
      exact (bfCtxFlush_keeps rules fails .cli).bind fun _ => Triple.pure fun _ holds => holds
  | rulesetSet client fails failsAgain ruleset =>
      exact (bfCliRulesetSet_keeps rules client fails failsAgain sets).weaken
        (fun _ pre => pre.1) fun _ _ post => post
  | chainSet fate client chain hookopts failsOld =>
      exact (bfCliChainSet_keeps rules fate client chain failsOld sets).weaken
        (fun _ pre => pre.1) fun _ _ post => post
  | chainLoad fate chain =>
      exact (bfCliChainLoad_keeps rules fate sets).weaken (fun _ pre => pre.1)
        fun _ _ post => post
  | chainAttach fate client name opts =>
      exact (bfCliChainAttach_keeps rules fate client name opts).weaken (fun _ pre => pre.1)
        fun _ _ post => post
  | chainUpdate fate chain => exact bfCliChainUpdate_keeps rules fate chain
  | chainFlush fails name =>
      exact (bfCliChainFlush_keeps rules fails name).weaken (fun _ pre => pre.1)
        fun _ _ post => post
  | iptRulesetSet fates client replace =>
      intro d r d' ⟨holds, allowed⟩ ran
      exact bfIptRulesetSet_keeps rules fates client replace allowed sets d r d' holds ran

end Lift

/-- `step_keeps_rules` for an invariant that asks nothing of the chains that are set. -/
theorem step_keeps {Inv : Sys → Prop} {Good : BfCgen → Prop} {Allowed : BfChain → BfCgen → Prop}
    (keeps : CgenInvariant Inv Good Allowed) (request : Request) :
    Triple (fun d => d.Holds Inv Good ∧ request.Allows Allowed d) (step request)
      fun _ => Daemon.Holds Inv Good := by
  apply step_keeps_rules keeps.rules
  cases request with
  | rulesetSet _ _ _ ruleset =>
      cases ruleset with
      | garbled => trivial
      | error e => trivial
      | ok entries => exact fun _ _ => trivial
  | iptRulesetSet _ _ _ => exact fun _ _ _ _ => trivial
  | _ => trivial

end Bpfilter

/-
# Daemon.Validation -- which chains are compiled

`bf_chain_validate` refuses the chains whose rules need a mark operation their flavor
does not have.  It is called when a codegen is created; an update of an existing
codegen compiles the new chain without it.

`generated_chains_valid` is about whole runs: as long as every chain sent to update a
codegen is valid, so is every chain the code generator is run on, also the one it may
die on, and then every mark operation its rules ask for is there.
-/
import Bpfilter.Daemon.Attachment

namespace Bpfilter

set_option autoImplicit false

open Hoare

/-- Every mark operation the rules of a chain call exists in the chain's flavor. -/
def BfChain.MarksSupported (chain : BfChain) : Prop :=
  ∀ rule ∈ chain.rules,
    (∀ m ∈ rule.matchers, m.type = .metaMark →
      (bfFlavorOpsGet (bfHookToFlavor chain.hook)).genInlineGetMark.isSome = true) ∧
    (rule.mark.isSome = true →
      (bfFlavorOpsGet (bfHookToFlavor chain.hook)).genInlineSetMark.isSome = true)

/-- A chain that may be compiled. -/
def BfChain.Compilable (chain : BfChain) : Prop :=
  bfChainValidate chain = true ∧ chain.MarksSupported

/-! ## Flags -/

/-- A flag of a rule is a flag of its chain. -/
theorem foldl_features {rules : List BfRule} {flags : BfChainFlags} {rule : BfRule}
    (mem : rule ∈ rules) :
    ((rule.matchers.any (·.type == .metaMark)) = true →
      (rules.foldl bfChainUpdateFeatures flags).getMark = true) ∧
    (rule.mark.isSome = true → (rules.foldl bfChainUpdateFeatures flags).setMark = true) := by
  have keeps : ∀ (rest : List BfRule) (flags : BfChainFlags),
      (flags.getMark = true → (rest.foldl bfChainUpdateFeatures flags).getMark = true) ∧
      (flags.setMark = true → (rest.foldl bfChainUpdateFeatures flags).setMark = true) := by
    intro rest
    induction rest with
    | nil => exact fun flags => ⟨id, id⟩
    | cons head rest ih =>
        intro flags
        refine ⟨fun on => (ih _).1 ?_, fun on => (ih _).2 ?_⟩ <;>
          simp [bfChainUpdateFeatures, on]
  induction rules generalizing flags with
  | nil => cases mem
  | cons head rest ih =>
      obtain rfl | mem := List.mem_cons.mp mem
      · refine ⟨fun marks => (keeps rest _).1 ?_, fun marks => (keeps rest _).2 ?_⟩
        · simp only [bfChainUpdateFeatures, marks, Bool.or_true]
        · simp only [bfChainUpdateFeatures, marks, Bool.or_true]
      · exact ih mem

/-- Validation looks at the flags; with exact flags it covers every rule. -/
theorem BfChain.compilable_of {chain : BfChain} (valid : bfChainValidate chain = true)
    (flags : chain.FlagsExact) : chain.Compilable := by
  refine ⟨valid, fun rule mem => ⟨fun m member isMark => ?_, fun marks => ?_⟩⟩
  · have get : chain.flags.getMark = true := by
      rw [flags]
      refine (foldl_features mem).1 (List.any_eq_true.mpr ⟨m, member, ?_⟩)
      simp [isMark]
    unfold bfChainValidate at valid
    cases flavor : bfHookToFlavor chain.hook <;> simp_all [bfFlavorOpsGet]
  · have set : chain.flags.setMark = true := by
      rw [flags]
      exact (foldl_features mem).2 marks
    unfold bfChainValidate at valid
    cases flavor : bfHookToFlavor chain.hook <;> simp_all [bfFlavorOpsGet]

/-! ## Finished generations -/

/-- The condition on an update. -/
def UpdateValid (chain : BfChain) (_ : BfCgen) : Prop := chain.Compilable

/-- Every chain the generator was run on may be compiled. -/
def GeneratedCompilable (s : Sys) : Prop := ∀ chain ∈ s.generated, chain.Compilable

theorem NewProgram.generated {chain : BfChain} {s s' : Sys} {result : Except Errno BfProg}
    (made : NewProgram chain s result s') (compilable : chain.Compilable)
    (before : GeneratedCompilable s) : GeneratedCompilable s' := by
  have more : ∀ other ∈ s.generated ++ [chain], other.Compilable := by
    intro other mem
    obtain mem | mem := List.mem_append.mp mem
    · exact before other mem
    · rw [List.mem_singleton.mp mem]
      exact compilable
  cases made with
  | refused => exact before
  | failed => exact more
  | loaded => exact more

theorem GeneratedCompilable.same {s s' : Sys} (before : GeneratedCompilable s)
    (same : s'.generated = s.generated) : GeneratedCompilable s' := by
  intro chain mem
  rw [same] at mem
  exact before chain mem

theorem AttachIn.generated {fate : Fate} {client : BfNs} {prog prog' : BfProg} {opts : BfHookopts}
    {s s' : Sys} {r : Ret} (attach : AttachIn fate client prog opts s r prog' s') :
    s'.generated = s.generated := by
  cases attach <;> rfl

theorem LinkUpdate.generated {link link' : BfLink} {hook : BfHook} {prog : BfProg} {s s' : Sys}
    {r : Option Errno} (update : LinkUpdate link hook prog s r link' s') :
    s'.generated = s.generated := by
  cases update <;> rfl

theorem generated_invariant :
    CgenInvariant GeneratedCompilable (fun _ => True) UpdateValid where
  pins same before := before.same same.generated
  set {_ cgen _ _ _ s _ _} flags valid _ before set := by
    refine ⟨?_, fun _ => trivial⟩
    have compilable := BfChain.compilable_of valid flags
    cases set with
    | notBuilt e t state =>
        obtain rfl | failed := state
        · exact before
        · exact failed.generated compilable before
    | loaded _ made _ _ =>
        exact ((newProgram_inv made).generated compilable before).same
          (Sys.pin_sameButPins ..).generated
    | notAttached e _ made _ attach =>
        exact ((newProgram_inv made).generated compilable before).same attach.generated
    | attached _ made _ attach _ =>
        exact (((newProgram_inv made).generated compilable before).same attach.generated).same
          (Sys.pin_sameButPins ..).generated
  attach before _ attach := by
    refine ⟨?_, trivial⟩
    cases attach with
    | noDir => exact before
    | refused _ _ _ inside => exact before.same inside.generated
    | kept _ _ inside _ => exact before.same inside.generated
    | notPinned _ _ _ inside _ => exact before.same inside.generated
    | pinned _ _ inside _ _ => exact before.same inside.generated
  update before _ compilable update := by
    refine ⟨?_, trivial⟩
    cases update with
    | notBuilt e t state =>
        obtain rfl | failed := state
        · exact before
        · exact failed.generated compilable before
    | refused e present made =>
        exact ((made.generated compilable before).same (Sys.unpin_sameButPins ..).generated).same
          (Sys.pin_sameButPins ..).generated
    | swapped present made updated =>
        exact (((made.generated compilable before).same (Sys.unpin_sameButPins ..).generated).same
          updated.generated).same (Sys.pin_sameButPins ..).generated

/-! ## Generations the daemon dies in -/

/-- The daemon may die, but not while it compiles a chain it should not. -/
def Death.Compilable : Death → Prop
  | .generating chain _ => chain.Compilable
  | _ => True

/-- `m` compiles only chains that may be compiled. -/
abbrev CompilesOnly {σ α : Type} (m : Proc σ Death α) : Prop := Dies Death.Compilable m

section Deaths

variable {fate : Fate} {chain : BfChain}

theorem ofGen_compiles {α : Type} {death : GenErr → Death} (x : Except GenErr α)
    (compilable : ∀ cause, (death cause).Compilable) : CompilesOnly (ofGen death x) := by
  cases x with
  | ok a => exact Dies.pure _
  | error e =>
      cases e with
      | errno e => exact Dies.pure _
      | abort => exact Dies.throw (compilable _)
      | undefined => exact Dies.throw (compilable _)

theorem newProgram_compiles (compilable : chain.Compilable) :
    CompilesOnly (newProgram fate chain) := by
  unfold newProgram
  cases fate.programNew with
  | some e => exact Dies.pure _
  | none =>
      refine Dies.ite (Dies.pure _) (Dies.then ?_ fun made => ?_)
      · refine Dies.get.then fun _ => (Dies.modify _).then fun _ => ?_
        have allowed : ∀ cause, (Death.generating chain cause).Compilable := fun _ => compilable
        refine (ofGen_compiles _ allowed).then fun generated => ?_
        cases generated with
        | error e => exact Dies.pure _
        | ok code => cases fate.emit <;> exact Dies.pure _
      · cases made with
        | error e => exact Dies.pure _
        | ok code =>
            simp only [loadProgram]
            cases fate.mapCreate with
            | some e => exact Dies.pure _
            | none =>
                have allowed : ∀ _ : GenErr, Death.abort.Compilable := fun _ => trivial
                refine (ofGen_compiles _ allowed).then fun fixed => ?_
                cases fixed with
                | error e => exact Dies.pure _
                | ok code =>
                    simp only
                    cases fate.progLoad with
                    | some e => exact Dies.pure _
                    | none => exact Dies.of_returns fun s => ⟨_, rfl⟩

theorem bfBpfLinkCreate_compiles (prog : BfProg) (hook : BfHook) (opts : BfHookopts) :
    CompilesOnly (bfBpfLinkCreate fate prog hook opts) := by
  unfold bfBpfLinkCreate
  refine Dies.ite (Dies.pure _) ?_
  cases fate.linkCreate with
  | some e => exact Dies.pure _
  | none => exact Dies.of_returns fun s => ⟨_, rfl⟩

theorem bfLinkUpdate_compiles (link : BfLink) (hook : BfHook) (prog : BfProg) :
    CompilesOnly (bfLinkUpdate fate link hook prog) := by
  refine Dies.ite ?_ (Dies.pure _)
  unfold bfLinkUpdateNf
  cases link.hookopts with
  | none => exact Dies.throw trivial
  | some opts =>
      refine (bfBpfLinkCreate_compiles prog hook _).then fun result => ?_
      cases result <;> exact Dies.pure _

theorem attachIn_compiles (client : BfNs) (prog : BfProg) (opts : BfHookopts) :
    CompilesOnly (attachIn fate client prog opts) := by
  have switch : ∀ (target old : BfNs) (netWorks mntWorks : Bool),
      CompilesOnly (bfNsSet target old netWorks mntWorks) := fun target old netWorks mntWorks =>
    Dies.of_returns fun s => ⟨_, bfNsSet_run target old netWorks mntWorks s⟩
  unfold attachIn
  refine Dies.get.then fun s => (switch _ _ _ _).then fun entered => Dies.ite ?_ (Dies.pure _)
  refine Dies.then ?_ fun ⟨r, link⟩ => ?_
  · unfold bfLinkAttach
    cases cgroupOpen fate prog.chain.hook opts with
    | some e => exact Dies.pure _
    | none =>
        refine (bfBpfLinkCreate_compiles prog _ opts).then fun result => ?_
        cases result <;> exact Dies.pure _
  · have back : CompilesOnly (do
        if ← bfNsSet s.ownNs client fate.restoreNet fate.restoreMnt then
          pure ((.ok : Ret), { prog with link })
        else throw .abort) :=
      (switch _ _ _ _).then fun restored => Dies.ite (Dies.pure _) (Dies.throw trivial)
    cases r with
    | err e => exact Dies.pure _
    | ok => exact back

theorem bfCgenSet_compiles {cgen : BfCgen} (client : BfNs) (hookopts : Option BfHookopts)
    (compilable : cgen.chain.Compilable) :
    CompilesOnly (bfCgenSet fate cgen client hookopts) := by
  have keep : ∀ dir prog, CompilesOnly (keepProgram fate cgen dir prog) := fun dir prog =>
    Dies.of_returns fun s => ⟨_, keepProgram_run fate cgen dir prog s⟩
  refine (Dies.of_returns fun s => ⟨_, openPindir_run fate _ s⟩).then fun dir => ?_
  cases dir with
  | error e => exact Dies.pure _
  | ok dir =>
      refine (newProgram_compiles compilable).then fun made => ?_
      cases made with
      | error e => exact Dies.pure _
      | ok prog =>
          cases hookopts with
          | none => exact keep _ _
          | some opts =>
              refine (attachIn_compiles client prog opts).then fun ⟨r, prog⟩ => ?_
              cases r with
              | err e => exact Dies.pure _
              | ok => exact keep _ _

theorem bfCgenAttach_compiles (cgen : BfCgen) (client : BfNs) (opts : BfHookopts) :
    CompilesOnly (bfCgenAttach fate cgen client opts) := by
  have keep : ∀ dir prog, CompilesOnly (keepLink fate cgen dir prog) := by
    intro dir prog
    refine Dies.get.then fun s => Dies.ite ?_ (Dies.pure _)
    refine Dies.then (Dies.get.then fun s => ?_) fun pinned => ?_
    · cases bfBpfObjPin "bf_link" (prog.link.fd.map fun fd => .link fd.id) fate.linkPin
          (s.pins dir) with
      | error e => exact Dies.pure _
      | ok entries => exact (Dies.modify _).then fun _ => Dies.pure _
    · cases pinned <;> exact Dies.pure _
  refine (Dies.of_returns fun s => ⟨_, openPindir_run fate _ s⟩).then fun dir => ?_
  cases dir with
  | error e => exact Dies.pure _
  | ok dir =>
      simp only
      cases cgen.program with
      | none => exact Dies.throw trivial
      | some prog =>
          refine (attachIn_compiles client prog opts).then fun ⟨r, prog⟩ => ?_
          cases r with
          | err e => exact Dies.pure _
          | ok => exact keep _ _

theorem bfCgenUpdate_compiles (cgen : BfCgen) (compilable : chain.Compilable) :
    CompilesOnly (bfCgenUpdate fate cgen chain) := by
  have pins : ∀ fails prog dir, CompilesOnly (pinPersistent fails prog dir) :=
    fun fails prog dir => Dies.of_returns fun s => ⟨_, pinPersistent_run fails prog dir s⟩
  refine (Dies.of_returns fun s => ⟨_, openPindir_run fate _ s⟩).then fun dir => ?_
  cases dir with
  | error e => exact Dies.pure _
  | ok dir =>
      refine (newProgram_compiles compilable).then fun made => ?_
      cases made with
      | error e => exact Dies.pure _
      | ok prog =>
          simp only
          cases cgen.program with
          | none => exact Dies.throw trivial
          | some old =>
              refine (Dies.of_returns fun s => ⟨_, unpinPersistent_run _ _ s⟩).then fun _ => ?_
              refine (bfLinkUpdate_compiles _ _ _).then fun ⟨r, link⟩ => ?_
              cases r with
              | some e => exact (pins _ _ _).then fun _ => Dies.pure _
              | none => exact (pins _ _ _).then fun _ => Dies.pure _

theorem bfCgenUnload_compiles (fails : Option Errno) (cgen : BfCgen) :
    CompilesOnly (bfCgenUnload fails cgen) := by
  unfold bfCgenUnload
  cases fails with
  | some e => exact Dies.pure _
  | none =>
      cases cgen.program with
      | none => exact Dies.throw trivial
      | some prog => exact Dies.get.then fun s => Dies.modify _

theorem onSys_compiles {α : Type} {act : Act α} (compiles : CompilesOnly act) :
    CompilesOnly (onSys act) := by
  intro d e died
  unfold onSys at died
  cases acted : act d.sys with
  | ok result =>
      rw [acted] at died
      cases died
  | error e' =>
      rw [acted] at died
      cases died
      exact compiles d.sys _ acted

theorem findCgen_compiles {name : String} {cgens : List (Option BfCgen)} {e : Death}
    (died : findCgen name cgens = .error e) : e.Compilable := by
  induction cgens with
  | nil => cases died
  | cons head rest ih =>
      cases head with
      | none =>
          cases died
          trivial
      | some cgen =>
          rw [findCgen] at died
          split at died
          · cases died
          · split at died
            · cases died
            · rename_i later
              cases died
              exact ih later

theorem collectCgens_compiles {cgens : List (Option BfCgen)} {i : Nat} {cur : CurCgens} {e : Death}
    (died : collectCgens i cgens cur = .error e) : e.Compilable := by
  induction cgens generalizing i cur with
  | nil => cases died
  | cons head rest ih =>
      cases head with
      | none =>
          cases died
          trivial
      | some cgen =>
          rw [collectCgens] at died
          split at died
          · exact ih died
          · split at died
            · cases died
              trivial
            · split at died
              · cases died
              · exact ih died

theorem bfCtxGetCgen_compiles (name : String) : CompilesOnly (bfCtxGetCgen name) := by
  intro d e died
  unfold bfCtxGetCgen at died
  split at died
  · cases died
  · rename_i search
    cases died
    exact findCgen_compiles search

theorem bfCtxSetCgen_compiles (cgen : BfCgen) : CompilesOnly (bfCtxSetCgen cgen) := by
  refine (bfCtxGetCgen_compiles _).then fun found => ?_
  cases found with
  | some entry => exact Dies.pure _
  | none => exact (Dies.modify _).then fun _ => Dies.pure _

theorem bfCtxDeleteCgen_compiles (fails : Option Errno) (i : Nat) (cgen : BfCgen) :
    CompilesOnly (bfCtxDeleteCgen fails i cgen) :=
  (onSys_compiles (bfCgenUnload_compiles fails cgen)).then fun _ => Dies.modify _

theorem bfCtxFlush_compiles (fails : String → Option Errno) (front : BfFront) :
    CompilesOnly (bfCtxFlush fails front) := by
  have flush : ∀ cgens, CompilesOnly (flushCgens fails front cgens) := by
    intro cgens
    induction cgens with
    | nil => exact Dies.pure _
    | cons head rest ih =>
        cases head with
        | none => exact Dies.throw trivial
        | some cgen =>
            exact Dies.ite ((bfCgenUnload_compiles _ _).then fun _ => ih)
              (ih.then fun _ => Dies.pure _)
  exact Dies.get.then fun d => (onSys_compiles (flush d.cgens)).then fun _ => Dies.modify _

/-- A codegen that was created has a chain that may be compiled. -/
theorem bfCgenNew_compilable {front : BfFront} {cgen : BfCgen} {d d' : Daemon}
    (flags : chain.FlagsExact)
    (ran : onSys (bfCgenNew fate front chain) d = .ok (.ok cgen, d')) :
    cgen.chain.Compilable := by
  obtain ⟨sys, acted, -⟩ := onSys_inv ran
  obtain ⟨-, ⟨e, absurd, -⟩ | ⟨same, valid⟩⟩ := bfCgenNew_inv acted
  · cases absurd
  · cases same
    exact BfChain.compilable_of valid flags

theorem bfCgenNew_compiles (front : BfFront) : CompilesOnly (onSys (bfCgenNew fate front chain)) := by
  refine onSys_compiles (Dies.ite (Dies.pure _) (Dies.get.then fun s => ?_))
  exact Dies.ite (Dies.throw trivial) (Dies.pure _)

theorem setChain_compiles {client : BfNs} {cgen : BfCgen} {hookopts : Option BfHookopts}
    (compilable : cgen.chain.Compilable) :
    CompilesOnly (setChain fate client cgen hookopts) := by
  refine (onSys_compiles (bfCgenSet_compiles client hookopts compilable)).then fun ⟨r, cgen'⟩ => ?_
  cases r with
  | err e => exact Dies.pure _
  | ok =>
      refine (bfCtxSetCgen_compiles cgen').then fun found => ?_
      cases found with
      | none => exact Dies.pure _
      | some e => exact (onSys_compiles (bfCgenUnload_compiles _ _)).then fun _ => Dies.pure _

theorem setChains_compiles (client : BfNs) (entries : List (Except Errno RulesetEntry)) :
    CompilesOnly (setChains client entries) := by
  induction entries with
  | nil => exact Dies.pure _
  | cons head rest ih =>
      cases head with
      | error e => exact Dies.pure _
      | ok entry =>
          refine (bfCgenNew_compiles .cli).bind fun result s s' new => ?_
          cases result with
          | error e => exact Dies.pure _
          | ok cgen =>
              refine (setChain_compiles (bfCgenNew_compilable entry.chain.flags new)).then
                fun r => ?_
              cases r with
              | ok => exact ih
              | err e => exact Dies.pure _

theorem iptNewCgen_compiles {client : BfNs} (flags : chain.FlagsExact) :
    CompilesOnly (iptNewCgen fate client chain) := by
  refine (bfCgenNew_compiles .ipt).bind fun result s s' new => ?_
  cases result with
  | error e => exact Dies.pure _
  | ok cgen =>
      have load : CompilesOnly (bfCgenLoad fate cgen) :=
        bfCgenSet_compiles client none (bfCgenNew_compilable flags new)
      refine (onSys_compiles load).then fun ⟨r, cgen⟩ => ?_
      cases r with
      | err e => exact Dies.pure _
      | ok =>
          refine (onSys_compiles (bfCgenAttach_compiles cgen client _)).then fun ⟨r, cgen⟩ => ?_
          cases r with
          | err e => exact Dies.pure _
          | ok =>
              refine (bfCtxSetCgen_compiles cgen).then fun found => ?_
              cases found <;> exact Dies.pure _

theorem iptSetHooks_compiles {fates : BfNfInetHook → Fate} {client : BfNs} {cur : CurCgens}
    {chains : List (BfNfInetHook × Option BfChain)}
    (ipt : ∀ hook chain, (hook, some chain) ∈ chains → IptChain hook chain) (r : Ret) :
    CompilesOnly (iptSetHooks fates client cur chains r) := by
  induction chains generalizing r with
  | nil => exact Dies.pure _
  | cons head rest ih =>
      have ih := ih fun hook chain mem => ipt hook chain (List.mem_cons_of_mem _ mem)
      obtain ⟨hook, chain⟩ := head
      rw [iptSetHooks.eq_def]
      cases chain with
      | none =>
          simp only
          cases cur hook with
          | none => exact ih r
          | some i => exact (Dies.modify _).then fun _ => ih r
      | some chain =>
          have here := ipt hook chain List.mem_cons_self
          simp only
          cases cur hook with
          | none =>
              refine (iptNewCgen_compiles here.flags).then fun result => ?_
              obtain ⟨go, r⟩ := result
              exact Dies.ite (ih r) (Dies.pure _)
          | some i =>
              refine Dies.get.then fun d => ?_
              cases d.cgens[i]? with
              | none => exact Dies.throw trivial
              | some entry =>
                  cases entry with
                  | none => exact Dies.throw trivial
                  | some cgen =>
                      have compilable := BfChain.compilable_of here.valid here.flags
                      refine (onSys_compiles (bfCgenUpdate_compiles cgen compilable)).then
                        fun result => ?_
                      exact (Dies.modify _).then fun _ => ih result.1

end Deaths

/-! ## Runs -/

/-- The chain of an update request is valid, if there is a codegen of its name. -/
def UpdatesValid : Request → Daemon → Prop
  | .chainUpdate _ chain, d =>
      (∃ cgen, some cgen ∈ d.cgens ∧ cgen.chain.name = chain.chain.name) →
        bfChainValidate chain.chain = true
  | _, _ => True

theorem UpdatesValid.allows {request : Request} {d : Daemon} (valid : UpdatesValid request d) :
    request.Allows UpdateValid d := by
  cases request with
  | chainUpdate fate chain =>
      intro cgen mem named
      exact BfChain.compilable_of (valid ⟨cgen, mem, named⟩) chain.flags
  | iptRulesetSet fates client replace =>
      intro hook rules chain cgen made
      have ipt := bfIptEntriesToChain_inv made
      exact BfChain.compilable_of ipt.valid ipt.flags
  | rulesetFlush => trivial
  | rulesetSet => trivial
  | chainSet => trivial
  | chainLoad => trivial
  | chainAttach => trivial
  | chainFlush => trivial

theorem bfCliChainUpdate_compiles {fate : Fate} {chain : DecodedChain} {d : Daemon} {e : Death}
    (valid : UpdatesValid (.chainUpdate fate chain) d)
    (died : bfCliChainUpdate fate chain d = .error e) : e.Compilable := by
  unfold bfCliChainUpdate at died
  cases search : bfCtxGetCgen chain.chain.name d with
  | error e' =>
      rw [bind_error search] at died
      cases died
      exact bfCtxGetCgen_compiles _ d _ search
  | ok result =>
      obtain ⟨found, t⟩ := result
      rw [bind_run search] at died
      obtain ⟨rfl, found'⟩ := bfCtxGetCgen_inv search
      cases found with
      | none => cases died
      | some entry =>
          obtain ⟨i, cgen⟩ := entry
          obtain ⟨at_, named⟩ := findCgen_some found'
          have compilable := BfChain.compilable_of
            (valid ⟨cgen, List.mem_of_getElem? at_, named⟩) chain.flags
          have update : CompilesOnly (onSys (bfCgenUpdate fate cgen chain.chain)) :=
            onSys_compiles (bfCgenUpdate_compiles cgen compilable)
          cases present : cgen.program with
          | none =>
              simp only [present] at died
              cases died
              trivial
          | some prog =>
              simp only [present] at died
              refine Dies.ite (Dies.pure _) ?_ t e died
              exact update.then fun _ => (Dies.modify _).then fun _ => Dies.pure _

theorem step_compiles {request : Request} {d : Daemon} {e : Death}
    (valid : UpdatesValid request d) (died : step request d = .error e) : e.Compilable := by
  cases request with
  | chainUpdate fate chain => exact bfCliChainUpdate_compiles valid died
  | rulesetFlush fails =>
      exact ((bfCtxFlush_compiles fails .cli).then fun _ => Dies.pure _) d e died
  | rulesetSet client fails failsAgain ruleset =>
      refine ((bfCtxFlush_compiles fails .cli).then fun _ => ?_) d e died
      cases ruleset with
      | garbled => exact Dies.throw trivial
      | error e => exact Dies.pure _
      | ok entries =>
          refine (setChains_compiles client entries).then fun r => ?_
          have again : CompilesOnly (do
              bfCtxFlush failsAgain .cli
              pure r) := (bfCtxFlush_compiles failsAgain .cli).then fun _ => Dies.pure _
          cases r with
          | ok => exact Dies.pure _
          | err e => exact again
  | chainSet fate client chain hookopts failsOld =>
      refine ((bfCgenNew_compiles .cli).bind fun result s s' new => ?_) d e died
      cases result with
      | error e => exact Dies.pure _
      | ok cgen =>
          have set := fun (_ : Unit) => @setChain_compiles fate client cgen hookopts
            (bfCgenNew_compilable chain.flags new)
          refine (bfCtxGetCgen_compiles _).then fun found => ?_
          cases found with
          | none => exact set ()
          | some entry => exact (bfCtxDeleteCgen_compiles _ _ _).then set
  | chainLoad fate chain =>
      refine ((bfCtxGetCgen_compiles _).then fun found => ?_) d e died
      cases found with
      | some entry => exact Dies.pure _
      | none =>
          refine (bfCgenNew_compiles .cli).bind fun result s s' new => ?_
          cases result with
          | error e => exact Dies.pure _
          | ok cgen =>
              exact (setChain_compiles (bfCgenNew_compilable chain.flags new) :
                CompilesOnly (setChain fate ⟨0, 0⟩ cgen none))
  | chainAttach fate client name opts =>
      refine ((bfCtxGetCgen_compiles name).then fun found => ?_) d e died
      cases found with
      | none => exact Dies.pure _
      | some entry =>
          obtain ⟨i, cgen⟩ := entry
          simp only
          cases cgen.program with
          | none => exact Dies.throw trivial
          | some prog =>
              refine Dies.ite (Dies.pure _) ?_
              cases bfHookoptsValidate opts cgen.chain.hook with
              | error e => exact Dies.pure _
              | ok done =>
                  exact (onSys_compiles (bfCgenAttach_compiles cgen client opts)).then fun _ =>
                    (Dies.modify _).then fun _ => Dies.pure _
  | chainFlush fails name =>
      refine ((bfCtxGetCgen_compiles name).then fun found => ?_) d e died
      cases found with
      | none => exact Dies.pure _
      | some entry => exact (bfCtxDeleteCgen_compiles _ _ _).then fun _ => Dies.pure _
  | iptRulesetSet fates client replace =>
      refine (Dies.ite (Dies.pure _) ?_ : CompilesOnly (bfIptRulesetSet fates client replace)) d e
        died
      cases xlate : bfIptXlateRulesetSet replace bfNfInetHooks with
      | error e => cases e <;> first | exact Dies.pure _ | exact Dies.throw trivial
      | ok chains =>
          refine Dies.get.then fun d => ?_
          cases collect : collectCgens 0 d.cgens (fun _ => none) with
          | error e => exact Dies.throw (collectCgens_compiles collect)
          | ok result =>
              cases result with
              | error e => exact Dies.pure _
              | ok cur =>
                  refine iptSetHooks_compiles (fun hook chain mem => ?_) .ok
                  obtain ⟨entries, -, made⟩ := (bfIptXlateRulesetSet_chain xlate).2.2 hook chain mem
                  exact bfIptEntriesToChain_inv made

/-- **Only validated chains are compiled.**  In every run whose update requests carry valid chains,
every chain the code generator was run on is valid and calls only mark operations its flavor has,
and the same goes for the chain a further request dies on. -/
theorem generated_chains_valid (host : Host) (persist : Bool) (own : BfNs) (paths : Nat → Paths)
    (d : Daemon)
    (run : Run step UpdatesValid (.init host persist own paths) d) :
    (∀ chain ∈ d.sys.generated, chain.Compilable) ∧
    ∀ request chain cause, UpdatesValid request d →
      step request d = .error (.generating chain cause) → chain.Compilable := by
  refine ⟨?_, fun request chain cause valid died => step_compiles valid died⟩
  have holds : d.Holds GeneratedCompilable fun _ => True := by
    refine run.invariant ⟨fun chain mem => ?_, fun _ _ => trivial⟩ fun request => ?_
    · cases mem
    exact (step_keeps generated_invariant request).weaken
      (fun _ pre => ⟨pre.1, pre.2.allows⟩) fun _ _ post => post
  exact holds.1

/-! An XDP chain, and one of the same name that matches on the mark of packets. -/

def xdpChain : DecodedChain := ⟨bfChainNew "chain" .xdp .accept [] [], rfl⟩

def markChain : DecodedChain :=
  ⟨bfChainNew "chain" .xdp .accept []
    [{ matchers := [⟨.metaMark, .eq, [1, 0, 0, 0]⟩], verdict := .drop }], rfl⟩

def attachXdp : Request := .chainSet {} ⟨1, 1⟩ xdpChain (some xdpOpts) none

/-- A chain of the same name with rules, two of which match on ports. -/
def ruledChain : DecodedChain :=
  ⟨bfChainNew "chain" .xdp .drop []
    [{ matchers := [⟨.ip4Proto, .eq, [6]⟩, ⟨.tcpDport, .eq, [80, 0]⟩], counters := true,
        verdict := .accept },
      { matchers := [⟨.udpSport, .range, [0, 1, 0, 2]⟩], log := 1, verdict := .accept }], rfl⟩

/-- The first chain is attached and updated to the one with rules: both are compiled. -/
theorem updated_chain_compiled : ∃ d : Daemon,
    d.sys.generated = [xdpChain.chain, ruledChain.chain] ∧
      ∀ chain ∈ d.sys.generated, chain.Compilable := by
  have passes : Passes (do
      let _ ← step attachXdp
      step (.chainUpdate {} ruledChain)) nfDaemon (fun r d => r = .ok &&
        d.sys.generated = [xdpChain.chain, ruledChain.chain]) = true := by
    decide +kernel
  obtain ⟨r, d, ran, test⟩ := passes_inv passes
  obtain ⟨r', between, attach, update⟩ := bind_inv ran
  simp only [Bool.and_eq_true, decide_eq_true_eq] at test
  refine ⟨d, test.2, ?_⟩
  have attaches : UpdatesValid attachXdp nfDaemon := trivial
  have accepted : bfChainValidate ruledChain.chain = true := by decide
  have updates : UpdatesValid (.chainUpdate {} ruledChain) between := fun _ => accepted
  exact (generated_chains_valid sampleHost true ⟨1, 1⟩ plainPaths d
    (.tail (.tail .refl attaches attach) updates update)).1

/-- The second chain is invalid, and an update compiles it: the daemon calls a NULL function. -/
theorem update_compiles_invalid_chain :
    ¬ ∀ (host : Host) (persist : Bool) (own : BfNs) (paths : Nat → Paths) (d : Daemon),
      Run step (fun _ _ => True) (.init host persist own paths) d →
      (∀ chain ∈ d.sys.generated, chain.Compilable) ∧
      ∀ request chain cause, step request d = .error (.generating chain cause) →
        chain.Compilable := by
  intro compilable
  have passes : Passes (step attachXdp) nfDaemon (fun _ d =>
      match step (.chainUpdate {} markChain) d with
      | .error e => e = .generating markChain.chain .undefined
      | .ok _ => false) = true := by decide +kernel
  obtain ⟨r, d, ran, test⟩ := passes_inv passes
  have run : Run step (fun _ _ => True) nfDaemon d := .tail .refl trivial ran
  cases update : step (.chainUpdate {} markChain) d with
  | ok result =>
      simp only [update] at test
      cases test
  | error e =>
      simp only [update, decide_eq_true_eq] at test
      rw [test] at update
      have valid := ((compilable sampleHost true ⟨1, 1⟩ plainPaths d run).2 _ _ _ update).1
      exact absurd valid (by decide)

end Bpfilter

/-
# Daemon.LinkOptions -- the options links are created with

`bf_hookopts_validate` says which options a chain of each flavor needs and which it
must not have.  Attaching a chain calls it.  Setting a chain, alone or in a ruleset,
does not: the options of the request go to the kernel as they were decoded.

`created_links_valid` is about whole runs: as long as the options of every chain that
is set are valid for its hook, so are those of every link the daemon creates, also the
links that are gone again when the request ends and the ones an update creates.
-/
import Bpfilter.Daemon.Validation

namespace Bpfilter

set_option autoImplicit false

open Hoare

variable {fate : Fate} {s s' : Sys}

/-! ## Validation -/

/-- Validation only looks at the flavor of the hook. -/
theorem bfHookoptsValidate_flavor {hook hook' : BfHook} (opts : BfHookopts)
    (same : bfHookToFlavor hook = bfHookToFlavor hook') :
    bfHookoptsValidate opts hook = bfHookoptsValidate opts hook' := by
  unfold bfHookoptsValidate
  rw [same]

/-- Swapping the priorities does not change which options are used. -/
theorem bfHookoptsValidate_swapped (opts : BfHookopts) (hook : BfHook) :
    bfHookoptsValidate opts.swapped hook = bfHookoptsValidate opts hook := by
  have used : bfHookoptsIsUsed opts.swapped = bfHookoptsIsUsed opts := by
    funext type
    cases type with
    | priorities => exact Option.isSome_map
    | ifindex => rfl
    | cgpath => rfl
    | family => rfl
  unfold bfHookoptsValidate
  rw [used]

/-! ## Operations -/

/-- The options of every link that was created are valid for the hook it was created for. -/
def LinkedValid (s : Sys) : Prop :=
  ∀ hook opts, (hook, opts) ∈ s.linked → bfHookoptsValidate opts hook = .ok ()

theorem LinkedValid.same (before : LinkedValid s) (same : s'.linked = s.linked) :
    LinkedValid s' := by
  intro hook opts mem
  rw [same] at mem
  exact before hook opts mem

theorem LinkedValid.linkUp {hook : BfHook} {opts : BfHookopts} (before : LinkedValid s)
    (valid : bfHookoptsValidate opts hook = .ok ()) : LinkedValid (s.linkUp hook opts) := by
  intro hook' opts' mem
  obtain mem | mem := List.mem_append.mp mem
  · exact before hook' opts' mem
  · cases List.mem_singleton.mp mem
    exact valid

/-- The options of a link and the hook it was created for fit the hook of a chain. -/
def BfLink.Fits (link : BfLink) (hook : BfHook) : Prop :=
  (∀ opts, link.hookopts = some opts → bfHookoptsValidate opts hook = .ok ()) ∧
    ∀ fd, link.fd = some fd → bfHookToFlavor fd.hook = bfHookToFlavor hook

theorem BfLink.fits_unlinked (hook : BfHook) : ({} : BfLink).Fits hook :=
  ⟨(fun _ absurd => by cases absurd), fun _ absurd => by cases absurd⟩

/-- The program of a codegen is that of its chain, and its link fits the hook of the chain. -/
def BfCgen.LinkFits (cgen : BfCgen) : Prop :=
  ∀ prog, cgen.program = some prog → prog.chain = cgen.chain ∧ prog.link.Fits cgen.chain.hook

theorem BfCgen.linkFits_of {cgen : BfCgen} {prog : BfProg} (chain : prog.chain = cgen.chain)
    (link : prog.link.Fits cgen.chain.hook) :
    ({ cgen with program := some prog } : BfCgen).LinkFits := by
  intro other same
  cases same
  exact ⟨chain, link⟩

theorem NewProgram.linked {chain : BfChain} {result : Except Errno BfProg}
    (made : NewProgram chain s result s') : s'.linked = s.linked := by
  cases made <;> rfl

/-- A failed attempt to attach creates no link. -/
theorem AttachIn.linked_err {client : BfNs} {prog prog' : BfProg} {opts : BfHookopts} {e : Errno}
    (attach : AttachIn fate client prog opts s (.err e) prog' s') : s'.linked = s.linked := by
  cases attach <;> rfl

/-- Attaching with valid options. -/
theorem AttachIn.fits {client : BfNs} {prog prog' : BfProg} {opts : BfHookopts} {r : Ret}
    (attach : AttachIn fate client prog opts s r prog' s') (before : LinkedValid s)
    (valid : bfHookoptsValidate opts prog.chain.hook = .ok ())
    (link : prog.link.Fits prog.chain.hook) :
    LinkedValid s' ∧ prog'.chain = prog.chain ∧ prog'.link.Fits prog.chain.hook := by
  cases attach with
  | notEntered => exact ⟨before.same rfl, rfl, link⟩
  | refused => exact ⟨before.same rfl, rfl, link⟩
  | attached =>
      refine ⟨(LinkedValid.linkUp (before.same rfl) valid).same rfl, rfl, ?_, ?_⟩
      · intro other same
        cases same
        exact valid
      · intro fd same
        cases same
        rfl

/-- An update creates a link with the options of the old one, for the hook of the old chain; the
kernel takes the new program only if the new hook is of the same flavor. -/
theorem LinkUpdate.fits {link link' : BfLink} {hook : BfHook} {prog : BfProg}
    (update : LinkUpdate link hook prog s none link' s') (before : LinkedValid s)
    (fits : link.Fits hook) : LinkedValid s' ∧ link'.Fits prog.chain.hook := by
  cases update with
  | replaced opts nf present type =>
      have valid : bfHookoptsValidate opts.swapped hook = .ok () := by
        rw [bfHookoptsValidate_swapped]
        exact fits.1 opts present
      refine ⟨before.linkUp valid, fun other same => ?_, fun fd same => ?_⟩
      · cases same
        rw [bfHookoptsValidate_flavor _ type]
        exact valid
      · cases same
        exact type.symm
  | inPlace fd notNf present type =>
      have flavor : bfHookToFlavor prog.chain.hook = bfHookToFlavor hook :=
        type.trans (fits.2 fd present)
      refine ⟨before, fun other same => ?_, fun fd' same => ?_⟩
      · rw [bfHookoptsValidate_flavor _ flavor]
        exact fits.1 other same
      · cases same
        exact type.symm

/-- The condition on the options of a chain that is set: they matter once the chain is accepted
and has no set the kernel refuses to create. -/
def SetOptions (chain : BfChain) (hookopts : Option BfHookopts) : Prop :=
  bfChainValidate chain = true → hasEmptySet chain = false →
    ∀ opts, hookopts = some opts → bfHookoptsValidate opts chain.hook = .ok ()

theorem linkFits_rules :
    CgenRules LinkedValid BfCgen.LinkFits (fun _ _ => True) SetOptions where
  pins same before := before.same same.linked
  set {_ cgen cgen' _ _ s _ _} _ accepted _ options before set := by
    have pinned : ∀ {t : Sys} {prog : BfProg} {dir : Nat} (fails : Nat → Option Errno),
        LinkedValid t → LinkedValid (t.pin dir fails prog) := fun fails valid =>
      valid.same (Sys.pin_sameButPins ..).linked
    have kept : ∀ {t : Sys} {dir : Nat} {r : Ret} {fate : Fate} {prog : BfProg},
        ({ cgen with program := some prog } : BfCgen).LinkFits →
        t.kept fate cgen dir prog = (r, cgen') → r = .ok → cgen'.LinkFits := by
      rintro t dir r fate prog fits kept rfl
      obtain ⟨-, e, absurd⟩ | ⟨rfl, -⟩ := Sys.kept_inv kept
      · cases absurd
      · exact fits
    cases set with
    | notBuilt e t state =>
        refine ⟨?_, fun absurd => by cases absurd⟩
        obtain rfl | failed := state
        · exact before
        · exact before.same failed.linked
    | loaded _ made _ result =>
        have outcome := newProgram_inv made
        obtain ⟨chain, link⟩ := outcome.fresh
        refine ⟨pinned _ (before.same outcome.linked), kept (BfCgen.linkFits_of chain ?_) result⟩
        rw [link]
        exact BfLink.fits_unlinked _
    | notAttached e _ made _ attach =>
        refine ⟨(before.same (newProgram_inv made).linked).same attach.linked_err, ?_⟩
        exact fun absurd => by cases absurd
    | @attached opts _ _ _ _ _ _ _ made present attach result =>
        have outcome := newProgram_inv made
        obtain ⟨chain, link⟩ := outcome.fresh
        have valid := options accepted (newProgram_filled made) opts present
        rw [← chain] at valid
        obtain ⟨after, chain', fits⟩ := attach.fits (before.same outcome.linked) valid
          (link ▸ BfLink.fits_unlinked _)
        refine ⟨pinned _ after, kept (BfCgen.linkFits_of (chain'.trans chain) ?_) result⟩
        rw [← chain]
        exact fits
  attach {fate cgen _ client opts s _ _} before good valid attach := by
    have inside : ∀ {prog prog' : BfProg} {t : Sys} {r : Ret}, cgen.program = some prog →
        AttachIn fate client prog opts s r prog' t → LinkedValid t ∧ prog'.chain = cgen.chain ∧
          prog'.link.Fits cgen.chain.hook := by
      intro prog prog' t r present attach
      obtain ⟨chain, link⟩ := good prog present
      rw [← chain] at valid link ⊢
      exact attach.fits before valid link
    cases attach with
    | noDir => exact ⟨before, good⟩
    | refused _ _ present attach =>
        obtain ⟨after, chain, fits⟩ := inside present attach
        exact ⟨after, BfCgen.linkFits_of chain fits⟩
    | kept _ present attach _ =>
        obtain ⟨after, chain, fits⟩ := inside present attach
        exact ⟨after, BfCgen.linkFits_of chain fits⟩
    | notPinned _ _ present attach _ =>
        obtain ⟨after, chain, -⟩ := inside present attach
        exact ⟨after, BfCgen.linkFits_of chain (BfLink.fits_unlinked _)⟩
    | pinned _ present attach _ _ =>
        obtain ⟨after, chain, fits⟩ := inside present attach
        exact ⟨after.same rfl, BfCgen.linkFits_of chain fits⟩
  update {_ cgen _ chain _ _ _} before good _ update := by
    have moved : ∀ {t : Sys} {old : BfProg} {dir : Nat}, LinkedValid t →
        LinkedValid (t.unpin dir old) := fun valid =>
      valid.same (Sys.unpin_sameButPins ..).linked
    cases update with
    | notBuilt e t state =>
        refine ⟨?_, good⟩
        obtain rfl | failed := state
        · exact before
        · exact before.same failed.linked
    | refused e present made =>
        exact ⟨(moved (before.same made.linked)).same (Sys.pin_sameButPins ..).linked, good⟩
    | swapped present made update =>
        obtain ⟨fromChain, -⟩ := made.fresh
        obtain ⟨after, fits⟩ := update.fits (moved (before.same made.linked)) (good _ present).2
        refine ⟨after.same (Sys.pin_sameButPins ..).linked, fun prog same => ?_⟩
        cases same
        exact ⟨fromChain, by rw [← fromChain]; exact fits⟩

/-! ## Runs -/

/-- A command line request that sets chains with options for their hooks only. -/
def SetsValidOptions (request : Request) (_ : Daemon) : Prop :=
  request.isCli = true ∧ request.Sets SetOptions

/-- An attach request with options that do not fit the chain is refused. -/
theorem bfCliChainAttach_invalid {client : BfNs} {name : String} {opts : BfHookopts}
    {d d' : Daemon} {r : Ret} {i : Nat} {cgen : BfCgen}
    (ran : bfCliChainAttach fate client name opts d = .ok (r, d'))
    (found : findCgen name d.cgens = .ok (some (i, cgen)))
    (invalid : bfHookoptsValidate opts cgen.chain.hook ≠ .ok ()) : r ≠ .ok ∧ d' = d := by
  unfold bfCliChainAttach at ran
  obtain ⟨result, t, get, ran⟩ := bind_inv ran
  obtain ⟨rfl, search⟩ := bfCtxGetCgen_inv get
  cases found.symm.trans search
  cases present : cgen.program with
  | none =>
      simp only [present] at ran
      cases ran
  | some prog =>
      simp only [present] at ran
      by_cases linked : prog.link.hookopts.isSome = true
      · rw [if_pos linked] at ran
        cases ran
        exact ⟨Ret.noConfusion, rfl⟩
      rw [if_neg linked] at ran
      cases valid : bfHookoptsValidate opts cgen.chain.hook with
      | ok done => exact absurd valid invalid
      | error e =>
          simp only [valid] at ran
          cases ran
          exact ⟨Ret.noConfusion, rfl⟩

/-- **Options are validated.**  In every run of command line requests that set chains with valid
options only, every link was created with options that are valid for its hook, which for a codegen
of the context is the hook of its chain; and a request to attach a chain with other options fails
and changes nothing. -/
theorem created_links_valid (host : Host) (persist : Bool) (own : BfNs) (paths : Nat → Paths)
    (d : Daemon)
    (run : Run step SetsValidOptions (.init host persist own paths) d) :
    (∀ hook opts, (hook, opts) ∈ d.sys.linked → bfHookoptsValidate opts hook = .ok ()) ∧
    (∀ cgen prog, some cgen ∈ d.cgens → cgen.program = some prog → prog.chain = cgen.chain) ∧
    ∀ fate client name opts r d' i cgen,
      step (.chainAttach fate client name opts) d = .ok (r, d') →
      findCgen name d.cgens = .ok (some (i, cgen)) →
      bfHookoptsValidate opts cgen.chain.hook ≠ .ok () → r ≠ .ok ∧ d' = d := by
  have holds : d.Holds LinkedValid BfCgen.LinkFits := by
    refine run.invariant ⟨fun _ _ mem => ?_, fun _ mem => ?_⟩ ?_
    · cases mem
    · cases mem
    intro request before r after ⟨held, cli, options⟩ ran
    refine step_keeps_rules linkFits_rules options before r after ⟨held, ?_⟩ ran
    cases request with
    | iptRulesetSet => cases cli
    | chainUpdate => exact fun _ _ _ => trivial
    | _ => trivial
  refine ⟨holds.1, fun cgen prog mem present => (holds.2 cgen mem prog present).1, ?_⟩
  intro fate client name opts r d' i cgen ran found invalid
  exact bfCliChainAttach_invalid ran found invalid

/-- A Netfilter chain is set with the options its hook needs. -/
theorem set_chain_link_valid : ∃ d : Daemon, d.sys.linked ≠ [] ∧
    ∀ hook opts, (hook, opts) ∈ d.sys.linked → bfHookoptsValidate opts hook = .ok () := by
  have passes : Passes (step (attachNf ⟨1, 1⟩)) nfDaemon
      (fun _ d => !d.sys.linked.isEmpty) = true := by decide +kernel
  obtain ⟨r, d, ran, test⟩ := passes_inv passes
  refine ⟨d, fun none => by simp [none] at test, ?_⟩
  have valid : SetsValidOptions (attachNf ⟨1, 1⟩) nfDaemon := by
    refine ⟨rfl, ?_⟩
    rintro - - opts ⟨⟩
    rfl
  exact (created_links_valid sampleHost true ⟨1, 1⟩ plainPaths d (.tail .refl valid ran)).1

/-- A Netfilter chain is set with a family and no priorities: the link is created all the same. -/
theorem set_chain_links_invalid_options :
    ¬ ∀ (host : Host) (persist : Bool) (own : BfNs) (paths : Nat → Paths) (d : Daemon),
      Run step (fun request _ => request.isCli = true) (.init host persist own paths) d →
      ∀ hook opts, (hook, opts) ∈ d.sys.linked → bfHookoptsValidate opts hook = .ok () := by
  intro valid
  have passes : Passes (step (.chainSet {} ⟨1, 1⟩ (nfChain .nfLocalIn) (some { family := some 2 })
      none)) nfDaemon (fun r d => r = .ok &&
        d.sys.linked.any fun entry => entry = (.nfLocalIn, { family := some 2 })) = true := by
    decide +kernel
  obtain ⟨r, d, ran, test⟩ := passes_inv passes
  simp only [Bool.and_eq_true, List.any_eq_true, decide_eq_true_eq] at test
  obtain ⟨-, entry, mem, rfl⟩ := test
  have absurd := valid sampleHost true ⟨1, 1⟩ plainPaths d (.tail .refl rfl ran) .nfLocalIn
    { family := some 2 } mem
  cases absurd

end Bpfilter

/-
# Daemon.Attachment -- the hook and the namespace of a chain's link

A codegen stores the hook in its chain; the kernel link was created for a hook and in
a network namespace of its own.  An update takes the program from the new chain and
everything else from the old link or, for Netfilter, from a link it creates on the
spot.  Nothing checks that the two chains have the same hook, and nothing enters the
namespace of the old link.

`attached_hooks_coherent` and `updates_keep_netns` are about whole runs: the hook of
every link is that of its chain as long as no update changes it to another hook of the
same program type, and a link stays in its network namespace as long as Netfilter
chains are updated from inside it.
-/
import Bpfilter.Daemon.Namespaces
import Bpfilter.Daemon.IptFrame

namespace Bpfilter

set_option autoImplicit false

open Hoare

variable {fate : Fate} {s s' : Sys}

/-- The kernel link of a codegen. -/
def BfCgen.liveLink (cgen : BfCgen) : Option KernelLink := cgen.program.bind fun prog => prog.link.fd

/-! ## Hooks -/

/-- The program of a codegen is that of its chain, and so is the hook of its link. -/
def BfCgen.HookCoherent (cgen : BfCgen) : Prop :=
  ∀ prog, cgen.program = some prog →
    prog.chain = cgen.chain ∧ ∀ link, prog.link.fd = some link → link.hook = cgen.chain.hook

/-- The condition on an update: the same hook, or one the kernel takes no such program for. -/
def SameHookOrType (chain : BfChain) (cgen : BfCgen) : Prop :=
  chain.hook = cgen.chain.hook ∨ bfHookToFlavor chain.hook ≠ bfHookToFlavor cgen.chain.hook

theorem NewProgram.fresh {chain : BfChain} {prog : BfProg} {t : Sys}
    (made : NewProgram chain s (.ok prog) t) : prog.chain = chain ∧ prog.link = {} := by
  cases made with
  | loaded _ built link => exact ⟨built.1, link⟩

/-- Attaching keeps the chain of a program; a link it gets is for the hook of that chain. -/
theorem AttachIn.link {client : BfNs} {prog prog' : BfProg} {opts : BfHookopts} {r : Ret}
    (attach : AttachIn fate client prog opts s r prog' s') :
    prog'.chain = prog.chain ∧ (prog'.link = prog.link ∨
      ∃ link, prog'.link.fd = some link ∧ link.hook = prog.chain.hook) := by
  cases attach with
  | notEntered => exact ⟨rfl, .inl rfl⟩
  | refused => exact ⟨rfl, .inl rfl⟩
  | attached => exact ⟨rfl, .inr ⟨_, rfl, rfl⟩⟩

/-- A program with the chain of a codegen and a link for its hook. -/
theorem BfCgen.hookCoherent_of {cgen : BfCgen} {prog : BfProg} (chain : prog.chain = cgen.chain)
    (link : ∀ l, prog.link.fd = some l → l.hook = cgen.chain.hook) :
    ({ cgen with program := some prog } : BfCgen).HookCoherent := by
  intro other same
  cases same
  exact ⟨chain, link⟩

theorem AttachIn.hookCoherent {client : BfNs} {cgen : BfCgen} {prog prog' : BfProg}
    {opts : BfHookopts} {r : Ret} (attach : AttachIn fate client prog opts s r prog' s')
    (chain : prog.chain = cgen.chain)
    (before : ∀ l, prog.link.fd = some l → l.hook = cgen.chain.hook) :
    ({ cgen with program := some prog' } : BfCgen).HookCoherent := by
  obtain ⟨chain', same | ⟨link, present, hook⟩⟩ := attach.link
  · refine BfCgen.hookCoherent_of (chain'.trans chain) ?_
    rw [same]
    exact before
  · refine BfCgen.hookCoherent_of (chain'.trans chain) fun l present' => ?_
    cases present.symm.trans present'
    rw [hook, chain]

/-- The result of a successful update, and when there is one. -/
theorem CgenUpdate.hookCoherent {cgen cgen' : BfCgen} {chain : BfChain} {r : Ret}
    (update : CgenUpdate fate cgen chain s r cgen' s') (coherent : cgen.HookCoherent)
    (allowed : SameHookOrType chain cgen) :
    cgen'.HookCoherent ∧ (chain.hook ≠ cgen.chain.hook → r ≠ .ok) := by
  cases update with
  | notBuilt e t state => exact ⟨coherent, fun _ same => by cases same⟩
  | refused e present made => exact ⟨coherent, fun _ same => by cases same⟩
  | swapped present made updated =>
      obtain ⟨fromChain, -⟩ := made.fresh
      obtain ⟨-, hook⟩ := coherent _ present
      -- The kernel accepts the program for the old link only if the types agree.
      have accepted : bfHookToFlavor chain.hook = bfHookToFlavor cgen.chain.hook := by
        cases updated with
        | replaced opts nf _ type =>
            rw [BfProg.flavor, fromChain] at type
            exact type
        | inPlace fd _ present' type =>
            rw [BfProg.flavor, fromChain, hook fd present'] at type
            exact type
      have sameHook : chain.hook = cgen.chain.hook := allowed.resolve_right (· accepted)
      refine ⟨fun prog same => ?_, fun other => absurd sameHook other⟩
      cases same
      refine ⟨fromChain, fun link present' => ?_⟩
      show link.hook = chain.hook
      cases updated with
      | replaced opts nf _ _ =>
          cases present'
          exact sameHook.symm
      | inPlace fd _ present'' _ =>
          cases present'
          rw [sameHook]
          exact hook fd present''

theorem hookCoherent_invariant :
    CgenInvariant (fun _ => True) BfCgen.HookCoherent SameHookOrType where
  pins _ _ := trivial
  set {_ cgen cgen' _ _ _ _ r} _ _ _ _ set := by
    refine ⟨trivial, ?_⟩
    rintro rfl
    have kept : ∀ {t : Sys} {dir : Nat} {fate : Fate} {prog : BfProg},
        ({ cgen with program := some prog } : BfCgen).HookCoherent →
        t.kept fate cgen dir prog = (.ok, cgen') → cgen'.HookCoherent := by
      intro t dir fate prog coherent kept
      obtain ⟨-, e, absurd⟩ | ⟨rfl, -⟩ := Sys.kept_inv kept
      · cases absurd
      · exact coherent
    cases set with
    | loaded _ made _ result =>
        obtain ⟨chain, link⟩ := (newProgram_inv made).fresh
        refine kept (BfCgen.hookCoherent_of chain fun l present => ?_) result
        rw [link] at present
        cases present
    | attached _ made _ attach result =>
        obtain ⟨chain, link⟩ := (newProgram_inv made).fresh
        refine kept (attach.hookCoherent chain fun l present => ?_) result
        rw [link] at present
        cases present
  attach {_ cgen _ _ _ _ _ _} _ coherent attach := by
    refine ⟨trivial, ?_⟩
    cases attach with
    | noDir => exact coherent
    | refused e _ present inside =>
        exact inside.hookCoherent (coherent _ present).1 (coherent _ present).2
    | kept _ present inside _ =>
        exact inside.hookCoherent (coherent _ present).1 (coherent _ present).2
    | notPinned e _ present inside _ =>
        refine BfCgen.hookCoherent_of ?_ fun l absurd => by cases absurd
        exact inside.link.1.trans (coherent _ present).1
    | pinned _ present inside _ _ =>
        exact inside.hookCoherent (coherent _ present).1 (coherent _ present).2
  update _ coherent allowed update := ⟨trivial, (update.hookCoherent coherent allowed).1⟩

/-- A command line request whose update, if it is one, does not move its chain to another hook of
the same program type. -/
def KeepsHooks (request : Request) (d : Daemon) : Prop :=
  request.isCli = true ∧ request.Allows SameHookOrType d

/-- **Hook coherence.**  In every run of command line requests that move no chain to another hook
of the same program type, the link of every attached codegen was created for the hook of its
chain, and an update to another hook is rejected. -/
theorem attached_hooks_coherent (host : Host) (persist : Bool) (own : BfNs)
    (paths : Nat → Paths) (d : Daemon)
    (run : Run step KeepsHooks (.init host persist own paths) d) :
    (∀ cgen link, some cgen ∈ d.cgens → cgen.liveLink = some link →
      link.hook = cgen.chain.hook) ∧
    ∀ fate chain r d' i cgen, KeepsHooks (.chainUpdate fate chain) d →
      step (.chainUpdate fate chain) d = .ok (r, d') →
      findCgen chain.chain.name d.cgens = .ok (some (i, cgen)) →
      chain.chain.hook ≠ cgen.chain.hook → r ≠ .ok := by
  have holds : d.Holds (fun _ => True) BfCgen.HookCoherent := by
    refine run.invariant ⟨trivial, fun cgen mem => by cases mem⟩ fun request => ?_
    exact (step_keeps hookCoherent_invariant request).weaken
      (fun _ pre => ⟨pre.1, pre.2.2⟩) fun _ _ post => post
  refine ⟨fun cgen link mem live => ?_, fun fate chain r d' i cgen keeps ran found other => ?_⟩
  · obtain ⟨prog, present, fd⟩ := Option.bind_eq_some_iff.mp live
    exact (holds.2 cgen mem prog present).2 link fd
  · obtain ⟨at_, named⟩ := findCgen_some found
    have mem := List.mem_of_getElem? at_
    obtain rejected | ⟨r', cgen', sys, update, answer, -⟩ := bfCliChainUpdate_inv ran found
    · exact fun ok => rejected.1 ok
    · have notOk := ((bfCgenUpdate_inv update).hookCoherent (holds.2 cgen mem)
        (keeps.2 cgen mem named)).2 other
      rw [answer, if_neg notOk]
      exact fun absurd => by cases absurd

/-! ## Network namespaces -/

theorem LinkUpdate.ns {link link' : BfLink} {hook : BfHook} {prog : BfProg} {r : Option Errno}
    (update : LinkUpdate link hook prog s r link' s') : s'.ns = s.ns ∧ s'.ownNs = s.ownNs := by
  cases update <;> exact ⟨rfl, rfl⟩

theorem CgenUpdate.ns {cgen cgen' : BfCgen} {chain : BfChain} {r : Ret}
    (update : CgenUpdate fate cgen chain s r cgen' s') : s'.ns = s.ns ∧ s'.ownNs = s.ownNs := by
  cases update with
  | notBuilt e t state =>
      obtain rfl | failed := state
      · exact ⟨rfl, rfl⟩
      · exact failed.ns
  | refused e present made =>
      rw [(Sys.pin_sameButPins ..).ns, (Sys.pin_sameButPins ..).ownNs,
        (Sys.unpin_sameButPins ..).ns, (Sys.unpin_sameButPins ..).ownNs]
      exact made.ns
  | swapped present made updated =>
      rw [(Sys.pin_sameButPins ..).ns, (Sys.pin_sameButPins ..).ownNs, updated.ns.1, updated.ns.2,
        (Sys.unpin_sameButPins ..).ns, (Sys.unpin_sameButPins ..).ownNs]
      exact made.ns

/-- An update keeps the network namespace of the link: in place always, and for Netfilter when the
daemon is in it. -/
theorem CgenUpdate.netns {cgen cgen' : BfCgen} {chain : BfChain} {r : Ret} {link : KernelLink}
    (update : CgenUpdate fate cgen chain s r cgen' s') (live : cgen.liveLink = some link)
    (inside : bfHookToFlavor cgen.chain.hook = .nf → link.netns = s.ns.net) :
    ∃ link', cgen'.liveLink = some link' ∧ link'.netns = link.netns := by
  cases update with
  | notBuilt e t state => exact ⟨link, live, rfl⟩
  | refused e present made => exact ⟨link, live, rfl⟩
  | @swapped old prog link' t u present made updated =>
      have old : old.link.fd = some link := by simpa [BfCgen.liveLink, present] using live
      cases updated with
      | replaced opts nf _ _ =>
          refine ⟨_, rfl, ?_⟩
          show (t.unpin (s.dirOf chain.name) _).ns.net = link.netns
          rw [(Sys.unpin_sameButPins ..).ns, made.ns.1, inside nf]
      | inPlace fd _ present' _ =>
          cases old.symm.trans present'
          exact ⟨_, rfl, rfl⟩

/-- An update from the namespace of the link leaves no link elsewhere. -/
theorem CgenUpdate.netns_here {cgen cgen' : BfCgen} {chain : BfChain} {r : Ret} {link' : KernelLink}
    (update : CgenUpdate fate cgen chain s r cgen' s')
    (inside : ∀ link, cgen.liveLink = some link → link.netns = s.ns.net)
    (live : cgen'.liveLink = some link') : link'.netns = s.ns.net := by
  cases update with
  | notBuilt e t state => exact inside link' live
  | refused e present made => exact inside link' live
  | @swapped old prog link t u present made updated =>
      cases updated with
      | replaced opts nf _ _ =>
          cases live
          show (t.unpin (s.dirOf chain.name) _).ns.net = s.ns.net
          rw [(Sys.unpin_sameButPins ..).ns, made.ns.1]
      | inPlace fd _ present' _ =>
          cases live
          exact inside fd (by simpa [BfCgen.liveLink, present] using present')

/-- An update request made while the daemon is in the network namespace of the Netfilter links it
replaces.  An iptables request must not leave the daemon stranded while it attaches a new
chain, since it may update others after it. -/
def UpdatesFromInside : Request → Daemon → Prop
  | .chainUpdate _ chain, d =>
      ∀ i cgen link, findCgen chain.chain.name d.cgens = .ok (some (i, cgen)) →
        cgen.liveLink = some link → bfHookToFlavor cgen.chain.hook = .nf →
        link.netns = d.sys.ns.net
  | .iptRulesetSet fates client _, d =>
      d.sys.ns = d.sys.ownNs ∧
      (∀ hook, (fates hook).strands client d.sys.ownNs (bfHookFromNfHook hook) iptHookopts =
        false) ∧
      ∀ i hook cgen link, IptCgenAt d i hook cgen → cgen.liveLink = some link →
        link.netns = d.sys.ns.net
  | _, _ => False

/-- The codegen at a position, if it is still there, has a link in a network namespace. -/
def LinkedIn (i net : Nat) (d : Daemon) : Prop :=
  i < d.cgens.length ∧ ∀ cgen, d.cgens[i]? = some (some cgen) →
    ∃ link, cgen.liveLink = some link ∧ link.netns = net

/-- What holds between two hooks of an iptables request. -/
structure IptLoop (own : BfNs) (cur : CurCgens) (i net : Nat) (d : Daemon) : Prop where
  home : d.sys.ns = own
  ownNs : d.sys.ownNs = own
  collected : ∀ hook j, cur hook = some j → j < d.cgens.length
  inside : ∀ hook j cgen link, cur hook = some j → d.cgens[j]? = some (some cgen) →
    cgen.liveLink = some link → link.netns = own.net
  tracked : LinkedIn i net d

/-- A codegen whose link is in the right place goes back where it was. -/
theorem IptLoop.put {own : BfNs} {cur : CurCgens} {i net j : Nat} {d : Daemon} {sys : Sys}
    {stored : Option BfCgen} (loop : IptLoop own cur i net d) (home : sys.ns = own)
    (ownNs : sys.ownNs = own)
    (inside : ∀ cgen link, stored = some cgen → cgen.liveLink = some link → link.netns = own.net)
    (tracked : ∀ cgen, j = i → stored = some cgen →
      ∃ link, cgen.liveLink = some link ∧ link.netns = net) :
    IptLoop own cur i net { sys, cgens := d.cgens.set j stored } := by
  refine ⟨home, ownNs, fun hook k found => ?_, fun hook k cgen link found at_ live => ?_, ?_, ?_⟩
  · simpa using loop.collected hook k found
  · rw [List.getElem?_set] at at_
    split at at_
    · split at at_
      · exact inside cgen link (Option.some.inj at_) live
      · cases at_
    · exact loop.inside hook k cgen link found at_ live
  · simpa using loop.tracked.1
  · intro cgen at_
    rw [List.getElem?_set] at at_
    split at at_
    · rename_i same
      split at at_
      · exact tracked cgen same (Option.some.inj at_)
      · cases at_
    · exact loop.tracked.2 cgen at_

/-- More codegens at the end of the context change nothing for those before them. -/
theorem IptLoop.append {own : BfNs} {cur : CurCgens} {i net : Nat} {d d' : Daemon}
    {added : List (Option BfCgen)} (loop : IptLoop own cur i net d) (home : d'.sys.ns = own)
    (ownNs : d'.sys.ownNs = own) (more : d'.cgens = d.cgens ++ added) :
    IptLoop own cur i net d' := by
  have same : ∀ k, k < d.cgens.length → d'.cgens[k]? = d.cgens[k]? := by
    intro k before
    rw [more, List.getElem?_append_left before]
  have longer : d.cgens.length ≤ d'.cgens.length := by simp [more]
  refine ⟨home, ownNs, fun hook k found => ?_, fun hook k cgen link found at_ live => ?_, ?_, ?_⟩
  · exact (loop.collected hook k found).trans_le longer
  · rw [same k (loop.collected hook k found)] at at_
    exact loop.inside hook k cgen link found at_ live
  · exact loop.tracked.1.trans_le longer
  · intro cgen at_
    rw [same i loop.tracked.1] at at_
    exact loop.tracked.2 cgen at_

/-- Loading and attaching the chain of a new hook ends in the daemon's namespaces. -/
theorem iptNewCgen_home {client : BfNs} {chain : BfChain} {hook : BfNfInetHook} {d d' : Daemon}
    {result : Bool × Ret} (ipt : IptChain hook chain) (home : d.sys.ns = d.sys.ownNs)
    (stays : fate.strands client d.sys.ownNs (bfHookFromNfHook hook) iptHookopts = false)
    (ran : iptNewCgen fate client chain d = .ok (result, d')) :
    d'.sys.ns = d.sys.ownNs ∧ d'.sys.ownNs = d.sys.ownNs := by
  obtain ⟨-, -, r, cgen, t, load, rest⟩ := iptNewCgen_inv ipt.valid ran
  have loaded : t.ns = t.ownNs := (load.ns_iff home).mpr fun ⟨_, _, opts, absurd, _⟩ => by
    cases absurd
  obtain rfl | ⟨rfl, r', cgen', attach⟩ := rest
  · exact ⟨by rw [loaded, load.fixed.ownNs], load.fixed.ownNs⟩
  · have hook' : ∀ prog, cgen.program = some prog → prog.chain.hook = bfHookFromNfHook hook := by
      intro prog present
      have coherent := (hookCoherent_invariant.set ipt.flags ipt.valid rfl trivial load).2 rfl
      rw [(coherent prog present).1, load.chain]
      exact ipt.hook
    have back : d'.sys.ns = d'.sys.ownNs := by
      refine (attach.ns_iff loaded).mpr fun ⟨_, prog, present, strands⟩ => ?_
      rw [load.fixed.ownNs, hook' prog present, stays] at strands
      cases strands
    have own : d'.sys.ownNs = d.sys.ownNs := (load.fixed.trans attach.fixed).ownNs
    exact ⟨back.trans own, own⟩

/-- Every hook of an iptables request keeps the loop's invariant. -/
theorem iptSetHooks_inside {fates : BfNfInetHook → Fate} {client own : BfNs} {cur : CurCgens}
    {i net : Nat} {chains : List (BfNfInetHook × Option BfChain)} {r r' : Ret} {d d' : Daemon}
    (ipt : ∀ hook chain, (hook, some chain) ∈ chains → IptChain hook chain)
    (stays : ∀ hook, (fates hook).strands client own (bfHookFromNfHook hook) iptHookopts = false)
    (loop : IptLoop own cur i net d)
    (ran : iptSetHooks fates client cur chains r d = .ok (r', d')) : LinkedIn i net d' := by
  induction chains generalizing r d with
  | nil =>
      cases ran
      exact loop.tracked
  | cons head rest ih =>
      have ih := fun {r d} => @ih r d fun hook chain mem => ipt hook chain (List.mem_cons_of_mem _ mem)
      obtain ⟨hook, chain⟩ := head
      rw [iptSetHooks.eq_def] at ran
      cases chain with
      | none =>
          simp only at ran
          cases found : cur hook with
          | none =>
              simp only [found] at ran
              exact ih loop ran
          | some j =>
              simp only [found] at ran
              obtain ⟨_, t, stored, ran⟩ := bind_inv ran
              cases stored
              exact ih (loop.put loop.home loop.ownNs (fun _ _ absurd => by cases absurd)
                fun _ _ absurd => by cases absurd) ran
      | some chain =>
          simp only at ran
          have here := ipt hook chain List.mem_cons_self
          cases found : cur hook with
          | none =>
              simp only [found] at ran
              obtain ⟨⟨go, r₁⟩, t, new, ran⟩ := bind_inv ran
              obtain ⟨rfl, ⟨added, more⟩, -⟩ := iptNewCgen_inv here.valid new
              have home := iptNewCgen_home here (loop.home.trans loop.ownNs.symm)
                (loop.ownNs ▸ stays hook) new
              rw [loop.ownNs] at home
              exact ih (loop.append home.1 home.2 more) ran
          | some j =>
              simp only [found] at ran
              rw [bind_run (get_run d)] at ran
              cases live : d.cgens[j]? with
              | none =>
                  simp only [live] at ran
                  cases ran
              | some stored =>
                  cases stored with
                  | none =>
                      simp only [live] at ran
                      cases ran
                  | some cgen =>
                      simp only [live] at ran
                      obtain ⟨⟨r₁, cgen'⟩, t, update, ran⟩ := bind_inv ran
                      obtain ⟨sys, acted, rfl⟩ := onSys_inv update
                      obtain ⟨_, u, store, ran⟩ := bind_inv ran
                      cases store
                      have updated := bfCgenUpdate_inv acted
                      refine ih (loop.put ?_ ?_ ?_ ?_) ran
                      · rw [updated.ns.1, loop.home]
                      · rw [updated.ns.2, loop.ownNs]
                      · rintro c link ⟨⟩ live'
                        rw [← loop.home]
                        refine updated.netns_here (fun l linked => ?_) live'
                        rw [loop.home]
                        exact loop.inside hook j cgen l found live linked
                      · rintro c rfl ⟨⟩
                        obtain ⟨link, linked, net'⟩ := loop.tracked.2 cgen live
                        have inside := loop.inside hook j cgen link found live linked
                        obtain ⟨link', linked', same⟩ := updated.netns linked fun _ => by
                          rw [inside, loop.home]
                        exact ⟨link', linked', same.trans net'⟩

theorem step_linkedIn {i net : Nat} (request : Request) :
    Triple (fun d => LinkedIn i net d ∧ UpdatesFromInside request d) (step request)
      fun _ => LinkedIn i net := by
  intro d r d' ⟨linked, inside⟩ ran
  cases request with
  | chainUpdate fate chain =>
      have ran : bfCliChainUpdate fate chain d = .ok (r, d') := ran
      cases search : findCgen chain.chain.name d.cgens with
      | error e =>
          unfold bfCliChainUpdate bfCtxGetCgen at ran
          rw [bind_error (by simp only [search]; rfl)] at ran
          cases ran
      | ok found =>
          cases found with
          | none =>
              obtain ⟨result, t, get, rest⟩ := bind_inv ran
              obtain ⟨rfl, search'⟩ := bfCtxGetCgen_inv get
              cases search.symm.trans search'
              cases rest
              exact linked
          | some entry =>
              obtain ⟨j, cgen⟩ := entry
              obtain ⟨-, rfl⟩ | ⟨r', cgen', sys, update, -, rfl⟩ := bfCliChainUpdate_inv ran search
              · exact linked
              · refine ⟨by simpa using linked.1, fun c at_ => ?_⟩
                rw [List.getElem?_set] at at_
                split at at_
                · rename_i same
                  split at at_
                  · cases at_
                    obtain ⟨link, live, net'⟩ := linked.2 cgen (same ▸ (findCgen_some search).1)
                    obtain ⟨link', live', same⟩ := (bfCgenUpdate_inv update).netns live
                      (inside j cgen link search live)
                    exact ⟨link', live', same.trans net'⟩
                  · cases at_
                · exact linked.2 c at_
  | iptRulesetSet fates client replace =>
      obtain ⟨home, stays, here⟩ := inside
      obtain ⟨rfl, -⟩ | ⟨chains, cur, -, xlate, collect, loop⟩ := bfIptRulesetSet_inv ran
      · exact linked
      · have position : ∀ hook j, cur hook = some j → ∃ cgen, IptCgenAt d j hook cgen := by
          intro hook j found
          obtain absurd | ⟨k, cgen, rfl, at_, front, nf⟩ := (collectCgens_iff collect hook j).mp found
          · cases absurd
          · rw [Nat.zero_add]
            exact ⟨cgen, at_, front, nf⟩
        refine iptSetHooks_inside (fun hook chain mem => ?_) stays
          ⟨home, rfl, fun hook j found => ?_, fun hook j cgen link found at_ live => ?_, linked⟩ loop
        · obtain ⟨entries, -, made⟩ := (bfIptXlateRulesetSet_chain xlate).2.2 hook chain mem
          exact bfIptEntriesToChain_inv made
        · obtain ⟨cgen, at_, -⟩ := position hook j found
          exact (List.getElem?_eq_some_iff.mp at_).1
        · obtain ⟨cgen', at_', front, nf⟩ := position hook j found
          cases at_.symm.trans at_'
          rw [← home]
          exact here j hook cgen link ⟨at_, front, nf⟩ live
  | rulesetFlush => cases inside
  | rulesetSet => cases inside
  | chainSet => cases inside
  | chainLoad => cases inside
  | chainAttach => cases inside
  | chainFlush => cases inside

/-- **The namespace of an attachment.**  Over any sequence of updates, each made while the daemon
is in the network namespace of the Netfilter links it replaces, the link of an attached codegen
stays in the network namespace it was attached in. -/
theorem updates_keep_netns (d d' : Daemon) (i : Nat) (cgen cgen' : BfCgen) (link : KernelLink)
    (attached : d.cgens[i]? = some (some cgen)) (live : cgen.liveLink = some link)
    (run : Run step UpdatesFromInside d d') (still : d'.cgens[i]? = some (some cgen')) :
    ∃ link', cgen'.liveLink = some link' ∧ link'.netns = link.netns := by
  have start : LinkedIn i link.netns d := by
    refine ⟨(List.getElem?_eq_some_iff.mp attached).1, fun other at_ => ?_⟩
    cases attached.symm.trans at_
    exact ⟨link, live, rfl⟩
  exact (run.invariant start step_linkedIn).2 cgen' still

/-! A Netfilter chain, attached by a client and updated. -/

def nfChain (hook : BfHook) : DecodedChain := ⟨bfChainNew "chain" hook .accept [] [], rfl⟩

def nfOpts : BfHookopts := { family := some 2, priorities := some (10, 11) }

def attachNf (client : BfNs) : Request :=
  .chainSet {} client (nfChain .nfLocalIn) (some nfOpts) none

def updateNf (hook : BfHook) : Request := .chainUpdate {} (nfChain hook)

def nfDaemon : Daemon := .init sampleHost true ⟨1, 1⟩ plainPaths

/-- A codegen in the context that passes a test. -/
def Daemon.anyCgen (test : BfCgen → Bool) (d : Daemon) : Bool :=
  d.cgens.any fun entry => entry.any test

theorem Daemon.anyCgen_inv {test : BfCgen → Bool} {d : Daemon} (any : d.anyCgen test = true) :
    ∃ cgen, some cgen ∈ d.cgens ∧ test cgen = true := by
  obtain ⟨entry, mem, passes⟩ := List.any_eq_true.mp any
  cases entry with
  | none => cases passes
  | some cgen => exact ⟨cgen, mem, passes⟩

/-- An attached chain has the hook of its link. -/
theorem attached_chain_hook : ∃ (d : Daemon) (cgen : BfCgen) (link : KernelLink),
    some cgen ∈ d.cgens ∧ cgen.liveLink = some link ∧ link.hook = cgen.chain.hook := by
  have passes : Passes (step (attachNf ⟨1, 1⟩)) nfDaemon
      (fun _ d => d.anyCgen fun cgen => cgen.liveLink.isSome) = true := by decide +kernel
  obtain ⟨r, d, ran, test⟩ := passes_inv passes
  obtain ⟨cgen, mem, live⟩ := Daemon.anyCgen_inv test
  obtain ⟨link, live⟩ := Option.isSome_iff_exists.mp live
  refine ⟨d, cgen, link, mem, live, ?_⟩
  have keeps : KeepsHooks (attachNf ⟨1, 1⟩) nfDaemon := ⟨rfl, trivial⟩
  have run : Run step KeepsHooks (.init sampleHost true ⟨1, 1⟩ plainPaths) d := .tail .refl keeps ran
  exact (attached_hooks_coherent sampleHost true ⟨1, 1⟩ plainPaths d run).1 cgen link mem live

/-- An update moves a chain from `BF_HOOK_NF_LOCAL_IN` to `BF_HOOK_NF_LOCAL_OUT`: it succeeds, and
the link stays on the first. -/
theorem update_breaks_hook_coherence :
    ¬ ∀ (host : Host) (persist : Bool) (own : BfNs) (paths : Nat → Paths) (d : Daemon),
      Run step (fun request _ => request.isCli = true) (.init host persist own paths) d →
      ∀ cgen link, some cgen ∈ d.cgens → cgen.liveLink = some link →
        link.hook = cgen.chain.hook := by
  intro coherent
  have passes : Passes (do
      let _ ← step (attachNf ⟨1, 1⟩)
      step (updateNf .nfLocalOut)) nfDaemon (fun r d => r = .ok && d.anyCgen fun cgen =>
        cgen.liveLink.any fun link => link.hook != cgen.chain.hook) = true := by decide +kernel
  obtain ⟨r, d, ran, test⟩ := passes_inv passes
  obtain ⟨_, t, one, two⟩ := bind_inv ran
  simp only [Bool.and_eq_true, decide_eq_true_eq] at test
  obtain ⟨cgen, mem, differs⟩ := Daemon.anyCgen_inv test.2
  obtain ⟨link, live, differs⟩ := (Option.any_eq_true _ _).mp differs
  have same := coherent sampleHost true ⟨1, 1⟩ plainPaths d (.tail (.tail .refl rfl one) rfl two)
    cgen link
    mem live
  simp [same] at differs

def Request.isUpdate : Request → Bool
  | .chainUpdate .. => true
  | .iptRulesetSet .. => true
  | _ => false

/-- The network namespace of the link of the first codegen. -/
def Daemon.firstNetns (d : Daemon) : Option Nat :=
  d.cgens.head?.join.bind fun cgen => cgen.liveLink.map (·.netns)

theorem Daemon.firstNetns_inv {d : Daemon} {net : Nat} (first : d.firstNetns = some net) :
    ∃ cgen link, d.cgens[0]? = some (some cgen) ∧ cgen.liveLink = some link ∧ link.netns = net := by
  obtain ⟨cgen, here, linked⟩ := Option.bind_eq_some_iff.mp first
  obtain ⟨link, live, netns⟩ := Option.map_eq_some_iff.mp linked
  rw [← List.head?_eq_getElem?]
  exact ⟨cgen, link, Option.join_eq_some_iff.mp here, live, netns⟩

/-- Attach a chain from a client, then update it; the state in between is returned. -/
def attachThenUpdate (client : BfNs) : Handle Daemon := do
  let _ ← step (attachNf client)
  let between ← get
  let _ ← step (updateNf .nfLocalIn)
  pure between

theorem attachThenUpdate_inv {client : BfNs} {d between d' : Daemon}
    (ran : attachThenUpdate client d = .ok (between, d')) :
    ∃ r r', step (attachNf client) d = .ok (r, between) ∧
      step (updateNf .nfLocalIn) between = .ok (r', d') := by
  obtain ⟨r, t, one, ran⟩ := bind_inv ran
  rw [bind_run (get_run t)] at ran
  obtain ⟨r', u, two, ran⟩ := bind_inv ran
  cases ran
  exact ⟨r, r', one, two⟩

/-- The chain of a client in the daemon's own namespaces stays there. -/
theorem own_client_keeps_netns :
    ∃ (d' : Daemon) (cgen' : BfCgen) (link' : KernelLink), d'.cgens[0]? = some (some cgen') ∧
      cgen'.liveLink = some link' ∧ link'.netns = 1 := by
  have passes : Passes (attachThenUpdate ⟨1, 1⟩) nfDaemon (fun d d' =>
      d.firstNetns = some 1 && d'.firstNetns.isSome && d.sys.ns.net = 1 &&
        d.cgens.length = 1) = true := by decide +kernel
  obtain ⟨d, d', ran, test⟩ := passes_inv passes
  obtain ⟨r, r', -, two⟩ := attachThenUpdate_inv ran
  simp only [Bool.and_eq_true, decide_eq_true_eq] at test
  obtain ⟨⟨⟨first, second⟩, net⟩, one⟩ := test
  obtain ⟨cgen, link, at_, live, netns⟩ := Daemon.firstNetns_inv first
  obtain ⟨net', second⟩ := Option.isSome_iff_exists.mp second
  obtain ⟨cgen', -, at_', -, -⟩ := Daemon.firstNetns_inv second
  have inside : UpdatesFromInside (updateNf .nfLocalIn) d := by
    intro i found other search live' _
    have here := (findCgen_some search).1
    obtain rfl : i = 0 := by
      have := (List.getElem?_eq_some_iff.mp here).1
      omega
    cases at_.symm.trans here
    cases live.symm.trans live'
    rw [netns, net]
  obtain ⟨link', live', same⟩ := updates_keep_netns d d' 0 cgen cgen' link at_ live
    (.tail .refl inside two) at_'
  exact ⟨d', cgen', link', at_', live', same.trans netns⟩

/-- The chain of a client in another network namespace moves to the daemon's with its first
update. -/
theorem update_moves_netns :
    ¬ ∀ (host : Host) (persist : Bool) (own : BfNs) (paths : Nat → Paths) (d d' : Daemon) (i : Nat)
      (cgen cgen' : BfCgen)
      (link : KernelLink), Run step (fun _ _ => True) (.init host persist own paths) d →
      d.cgens[i]? = some (some cgen) → cgen.liveLink = some link →
      Run step (fun request _ => request.isUpdate = true) d d' →
      d'.cgens[i]? = some (some cgen') →
      ∃ link', cgen'.liveLink = some link' ∧ link'.netns = link.netns := by
  intro stays
  have passes : Passes (attachThenUpdate ⟨2, 1⟩) nfDaemon (fun d d' =>
      d.firstNetns = some 2 && d'.firstNetns = some 1) = true := by decide +kernel
  obtain ⟨d, d', ran, test⟩ := passes_inv passes
  obtain ⟨r, r', one, two⟩ := attachThenUpdate_inv ran
  simp only [Bool.and_eq_true, decide_eq_true_eq] at test
  obtain ⟨cgen, link, at_, live, netns⟩ := Daemon.firstNetns_inv test.1
  obtain ⟨cgen', link', at_', live', netns'⟩ := Daemon.firstNetns_inv test.2
  have reached : Run step (fun _ _ => True) nfDaemon d := .tail .refl trivial one
  obtain ⟨other, same, equal⟩ :=
    stays sampleHost true ⟨1, 1⟩ plainPaths d d' 0 cgen cgen' link reached at_
    live (.tail .refl rfl two) at_'
  cases live'.symm.trans same
  rw [netns, netns'] at equal
  cases equal

end Bpfilter

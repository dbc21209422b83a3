/-
# Daemon.Namespaces -- coming back from the client's namespaces

`bf_cgen_set` and `bf_cgen_attach` enter the client's namespaces to create the link
and are to be back in the daemon's own when they return.  Two error returns come
before the switch back: `bf_ns_set` may stop between the two namespaces, and the
attachment may fail, on the control group or in the kernel.  `strands` is the
condition for either to matter.

Where the paths of the daemon lead depends on the mount namespace only: `AttachIn.lands`
says in which one an attachment can end.
-/
import Bpfilter.Daemon.Steps
import Bpfilter.Cgen.Sequencing

namespace Bpfilter

set_option autoImplicit false

open Hoare

variable {fate : Fate} {s s' : Sys}

/-- The network namespace was entered and the mount namespace was not. -/
def Fate.halfway (fate : Fate) (client own : BfNs) : Bool :=
  client.net != own.net && fate.switchNet && client.mnt != own.mnt && !fate.switchMnt

/-- Attaching ends outside the daemon's namespaces: halfway into the client's, or inside them
with an attachment that failed. -/
def Fate.strands (fate : Fate) (client own : BfNs) (hook : BfHook) (opts : BfHookopts) : Bool :=
  fate.halfway client own ||
    (fate.enters client own && attachRefused fate hook opts && client != own)

theorem nsAfter_switched {target old : BfNs} {netWorks mntWorks : Bool}
    (switched : nsSwitched target old netWorks mntWorks = true) :
    nsAfter target old netWorks mntWorks old = target := by
  simp only [nsSwitched, Bool.and_eq_true, Bool.or_eq_true, beq_iff_eq] at switched
  obtain ⟨net, mnt⟩ := switched
  have netAfter : (nsAfter target old netWorks mntWorks old).net = target.net := by
    simp only [nsAfter]
    split
    · rfl
    · rename_i stays
      by_contra differs
      exact stays ⟨Ne.symm differs, net.resolve_left (Ne.symm differs)⟩
  have mntAfter : (nsAfter target old netWorks mntWorks old).mnt = target.mnt := by
    simp only [nsAfter]
    split
    · rfl
    · rename_i stays
      by_contra differs
      exact stays ⟨net, Ne.symm differs, mnt.resolve_left (Ne.symm differs)⟩
  calc nsAfter target old netWorks mntWorks old
      = ⟨(nsAfter target old netWorks mntWorks old).net,
          (nsAfter target old netWorks mntWorks old).mnt⟩ := rfl
    _ = target := by rw [netAfter, mntAfter]

/-- A switch that fails leaves the old namespaces unless it got halfway. -/
theorem nsAfter_failed {client own : BfNs} (failed : fate.enters client own = false) :
    nsAfter client own fate.switchNet fate.switchMnt own = own ↔
      fate.halfway client own = false := by
  obtain ⟨net, mnt⟩ := client
  obtain ⟨ownNet, ownMnt⟩ := own
  simp only [Fate.enters, nsSwitched, Fate.halfway, nsAfter, BfNs.mk.injEq] at failed ⊢
  generalize fate.switchNet = netWorks at failed ⊢
  generalize fate.switchMnt = mntWorks at failed ⊢
  by_cases sameNet : net = ownNet <;> by_cases sameMnt : mnt = ownMnt <;>
    cases netWorks <;> cases mntWorks <;> simp_all

theorem Fate.halfway_of_enters {client own : BfNs} (inside : fate.enters client own = true) :
    fate.halfway client own = false := by
  simp only [Fate.enters, nsSwitched, Bool.and_eq_true, Bool.or_eq_true, beq_iff_eq] at inside
  simp only [Fate.halfway, Bool.and_eq_false_iff, Bool.not_eq_false', bne_eq_false_iff_eq]
  obtain same | works := inside.2
  · exact .inl (.inr same)
  · exact .inr works

/-- Where attaching leaves a daemon that was in its own namespaces. -/
theorem AttachIn.ns_iff {client : BfNs} {prog prog' : BfProg} {opts : BfHookopts} {r : Ret}
    (attach : AttachIn fate client prog opts s r prog' s') (home : s.ns = s.ownNs) :
    s'.ns = s.ownNs ↔ fate.strands client s.ownNs prog.chain.hook opts = false := by
  have entered : (s.enter fate client).ns =
      nsAfter client s.ownNs fate.switchNet fate.switchMnt s.ownNs := by rw [Sys.enter, home]
  have back : ∀ t : Sys, t.ns = client → t.ownNs = s.ownNs →
      fate.restores client s.ownNs = true → (t.leave fate client).ns = s.ownNs := by
    intro t inside own restored
    rw [Sys.leave, own, inside]
    exact nsAfter_switched restored
  cases attach with
  | notEntered outside =>
      rw [entered, nsAfter_failed outside, Fate.strands, outside]
      simp
  | refused e inside why =>
      rw [entered, nsAfter_switched inside]
      simp [Fate.strands, Fate.halfway_of_enters inside, inside, why]
  | attached inside accepted restored =>
      refine iff_of_true (back _ ?_ rfl restored) ?_
      · show (s.enter fate client).ns = client
        rw [entered, nsAfter_switched inside]
      · simp [Fate.strands, Fate.halfway_of_enters inside, accepted]

/-- Building a program does not leave the namespaces. -/
theorem NewProgram.ns {chain : BfChain} {result : Except Errno BfProg}
    (made : NewProgram chain s result s') : s'.ns = s.ns ∧ s'.ownNs = s.ownNs :=
  ⟨by cases made <;> rfl, made.fixed.ownNs⟩

/-- `bf_cgen_set` gets to the attachment, and that does not come back. -/
def setStrands (fate : Fate) (cgen : BfCgen) (client : BfNs) (hookopts : Option BfHookopts)
    (s : Sys) : Prop :=
  s.dirError fate = none ∧ (∃ prog t, newProgram fate cgen.chain s = .ok (.ok prog, t)) ∧
    ∃ opts, hookopts = some opts ∧ fate.strands client s.ownNs cgen.chain.hook opts = true

/-- `bf_cgen_attach` gets to the attachment, and that does not come back. -/
def attachStrands (fate : Fate) (cgen : BfCgen) (client : BfNs) (opts : BfHookopts) (s : Sys) :
    Prop :=
  s.dirError fate = none ∧ ∃ prog, cgen.program = some prog ∧
    fate.strands client s.ownNs prog.chain.hook opts = true

theorem CgenSet.ns_iff {cgen cgen' : BfCgen} {client : BfNs} {hookopts : Option BfHookopts}
    {r : Ret} (set : CgenSet fate cgen client hookopts s r cgen' s') (home : s.ns = s.ownNs) :
    s'.ns = s'.ownNs ↔ ¬ setStrands fate cgen client hookopts s := by
  -- The program is built before the namespaces are entered, for the chain of the codegen.
  have built : ∀ {prog t}, newProgram fate cgen.chain s = .ok (.ok prog, t) →
      t.ns = t.ownNs ∧ t.ownNs = s.ownNs ∧ prog.chain.hook = cgen.chain.hook := by
    intro prog t made
    have outcome := newProgram_inv made
    obtain ⟨ns, own⟩ := outcome.ns
    cases outcome with
    | loaded _ fromChain _ => exact ⟨by rw [ns, own, home], own, by rw [fromChain.1]⟩
  have strands : ∀ {prog t opts}, newProgram fate cgen.chain s = .ok (.ok prog, t) →
      s.dirError fate = none → hookopts = some opts →
      (setStrands fate cgen client hookopts s ↔
        fate.strands client t.ownNs prog.chain.hook opts = true) := by
    intro prog t opts made dir present
    obtain ⟨-, own, hook⟩ := built made
    rw [own, hook]
    constructor
    · rintro ⟨-, -, opts', same, holds⟩
      cases present.symm.trans same
      exact holds
    · exact fun holds => ⟨dir, ⟨prog, t, made⟩, opts, present, holds⟩
  cases set with
  | notBuilt e t state why =>
      refine iff_of_true ?_ fun ⟨dir, ⟨prog, u, made⟩, _⟩ => why dir prog u made
      obtain rfl | failed := state
      · exact home
      · rw [failed.ns.1, failed.ns.2, home]
  | loaded dir made absent kept =>
      refine iff_of_true ?_ fun ⟨_, _, opts, present, _⟩ => ?_
      · rw [(Sys.pin_sameButPins ..).ns, (Sys.pin_sameButPins ..).ownNs]
        exact (built made).1
      · rw [absent] at present
        cases present
  | notAttached e dir made present attach =>
      rw [attach.fixed.ownNs, attach.ns_iff (built made).1, strands made dir present, Bool.not_eq_true]
  | attached dir made present attach kept =>
      rw [(Sys.pin_sameButPins ..).ns, (Sys.pin_sameButPins ..).ownNs, attach.fixed.ownNs,
        attach.ns_iff (built made).1, strands made dir present, Bool.not_eq_true]

theorem CgenAttach.ns_iff {cgen cgen' : BfCgen} {client : BfNs} {opts : BfHookopts} {r : Ret}
    (attach : CgenAttach fate cgen client opts s r cgen' s') (home : s.ns = s.ownNs) :
    s'.ns = s'.ownNs ↔ ¬ attachStrands fate cgen client opts s := by
  have reached : ∀ {prog prog' t r}, s.dirError fate = none → cgen.program = some prog →
      AttachIn fate client prog opts s r prog' t →
      (t.ns = t.ownNs ↔ ¬ attachStrands fate cgen client opts s) := by
    intro prog prog' t r dir present inside
    rw [inside.fixed.ownNs, inside.ns_iff home, ← Bool.not_eq_true, not_iff_not]
    constructor
    · exact fun holds => ⟨dir, prog, present, holds⟩
    · rintro ⟨-, prog', present', holds⟩
      cases present.symm.trans present'
      exact holds
  cases attach with
  | noDir e dir => exact iff_of_true home fun ⟨opened, _⟩ => by simp [dir] at opened
  | refused e dir present inside => exact reached dir present inside
  | kept dir present inside _ => exact reached dir present inside
  | notPinned e dir present inside _ => exact reached dir present inside
  | pinned dir present inside _ _ =>
      rw [Sys.setDir_ns, Sys.setDir_ownNs]
      exact reached dir present inside

/-! ## The mount namespace an attachment ends in -/

/-- Attaching fails inside the client's mount namespace, and that is not the daemon's. -/
def Fate.strandsMount (fate : Fate) (client own : BfNs) (hook : BfHook) (opts : BfHookopts) :
    Bool :=
  fate.enters client own && attachRefused fate hook opts && client.mnt != own.mnt

/-- If an attachment strands the daemon in the client's mount namespace, that has `P`. -/
def Fate.Lands (P : Nat → Prop) (fate : Fate) (client own : BfNs) (hook : BfHook)
    (opts : BfHookopts) : Prop :=
  fate.strandsMount client own hook opts = true → P client.mnt

section Mount

variable {P : Nat → Prop} {client : BfNs}

/-- A switch that fails does not leave the mount namespace: that is the second half. -/
theorem Sys.enter_mnt (outside : fate.enters client s.ownNs = false) :
    (s.enter fate client).ns.mnt = s.ns.mnt := by
  simp only [Fate.enters, nsSwitched, Bool.and_eq_false_iff, Bool.or_eq_false_iff,
    beq_eq_false_iff_ne] at outside
  simp only [Sys.enter, nsAfter]
  refine if_neg ?_
  rintro ⟨net, -, works⟩
  obtain ⟨differs, fails⟩ | ⟨-, fails⟩ := outside
  · exact net.elim differs (by simp [fails])
  · simp [fails] at works

theorem AttachIn.lands {prog prog' : BfProg} {opts : BfHookopts} {r : Ret}
    (attach : AttachIn fate client prog opts s r prog' s') (here : P s.ns.mnt)
    (home : P s.ownNs.mnt) (lands : fate.Lands P client s.ownNs prog.chain.hook opts) :
    P s'.ns.mnt := by
  cases attach with
  | notEntered outside => rwa [Sys.enter_mnt outside]
  | refused e inside why =>
      by_cases differs : client.mnt = s.ownNs.mnt
      · simp only [Sys.enter, nsAfter, differs, ne_eq, not_true, false_and, and_false, if_false]
        exact here
      · have stranded := lands (by simp [Fate.strandsMount, inside, why, differs])
        simp only [Sys.enter, nsAfter]
        split
        · exact stranded
        · exact here
  | attached inside accepted restored =>
      by_cases differs : client.mnt = s.ownNs.mnt
      · simp only [Sys.leave, Sys.linkUp, Sys.alloc, Sys.enter, nsAfter, differs, ne_eq, not_true,
          false_and, and_false, if_false]
        exact here
      · simp only [Fate.restores, nsSwitched, Bool.and_eq_true, Bool.or_eq_true,
          beq_iff_eq] at restored
        have works := restored.2.resolve_left (Ne.symm differs)
        have back : (((s.enter fate client).linkUp prog.chain.hook opts).leave fate client).ns.mnt =
            s.ownNs.mnt := if_pos ⟨restored.1, Ne.symm differs, works⟩
        rw [back]
        exact home

theorem CgenSet.lands {cgen cgen' : BfCgen} {hookopts : Option BfHookopts} {r : Ret}
    (set : CgenSet fate cgen client hookopts s r cgen' s') (here : P s.ns.mnt)
    (home : P s.ownNs.mnt)
    (lands : ∀ opts, hookopts = some opts → fate.Lands P client s.ownNs cgen.chain.hook opts) :
    P s'.ns.mnt := by
  -- Building the program does not move the daemon, and the program has the chain's hook.
  have attached {prog prog' : BfProg} {opts : BfHookopts} {t u : Sys} {r : Ret}
      (made : newProgram fate cgen.chain s = .ok (.ok prog, t)) (present : hookopts = some opts)
      (attach : AttachIn fate client prog opts t r prog' u) : P u.ns.mnt := by
    have outcome := newProgram_inv made
    obtain ⟨ns, own⟩ := outcome.ns
    refine attach.lands (by rwa [ns]) (by rwa [own]) ?_
    cases outcome with
    | loaded _ built _ =>
        rw [own, built.1]
        exact lands opts present
  cases set with
  | notBuilt e t state =>
      obtain rfl | failed := state
      · exact here
      · rwa [failed.ns.1]
  | loaded dir made absent kept =>
      rw [(Sys.pin_sameButPins ..).ns, (newProgram_inv made).ns.1]
      exact here
  | notAttached e dir made present attach => exact attached made present attach
  | attached dir made present attach kept =>
      rw [(Sys.pin_sameButPins ..).ns]
      exact attached made present attach

theorem CgenAttach.lands {cgen cgen' : BfCgen} {prog : BfProg} {opts : BfHookopts} {r : Ret}
    (attach : CgenAttach fate cgen client opts s r cgen' s') (running : cgen.program = some prog)
    (here : P s.ns.mnt) (home : P s.ownNs.mnt)
    (lands : fate.Lands P client s.ownNs prog.chain.hook opts) : P s'.ns.mnt := by
  cases attach with
  | noDir e dir => exact here
  | refused e dir present attach =>
      cases running.symm.trans present
      exact attach.lands here home lands
  | kept dir present attach transient =>
      cases running.symm.trans present
      exact attach.lands here home lands
  | notPinned e dir present attach persist =>
      cases running.symm.trans present
      exact attach.lands here home lands
  | pinned dir present attach persist pin =>
      cases running.symm.trans present
      exact attach.lands here home lands

end Mount

/-- **Namespace restoration.**  A daemon in its own namespaces is in them again when
`bf_cgen_set` or `bf_cgen_attach` returns, unless the attachment was reached and either the
switch to the client's namespaces stopped halfway or attaching failed inside them. -/
theorem cgen_operations_restore_ns_iff (fate : Fate) (cgen cgen' : BfCgen) (client : BfNs)
    (s s' : Sys) (r : Ret) (home : s.ns = s.ownNs) :
    (∀ hookopts, bfCgenSet fate cgen client hookopts s = .ok ((r, cgen'), s') →
      (s'.ns = s'.ownNs ↔ ¬ setStrands fate cgen client hookopts s)) ∧
    (∀ opts, bfCgenAttach fate cgen client opts s = .ok ((r, cgen'), s') →
      (s'.ns = s'.ownNs ↔ ¬ attachStrands fate cgen client opts s)) :=
  ⟨fun _ ran => (bfCgenSet_inv ran).ns_iff home, fun _ ran => (bfCgenAttach_inv ran).ns_iff home⟩

/-! A client in another network namespace attaches an empty XDP chain. -/

def ownSys : Sys :=
  { host := sampleHost, persist := false, ownNs := ⟨1, 1⟩, ns := ⟨1, 1⟩, paths := plainPaths }

def xdpCgen : BfCgen := { front := .cli, chain := bfChainNew "xdp" .xdp .accept [] [] }

def xdpOpts : BfHookopts := { ifindex := some 2 }

/-- The link is accepted: the daemon comes back. -/
theorem set_restores_ns :
    ∃ r cgen' s', bfCgenSet {} xdpCgen ⟨2, 1⟩ (some xdpOpts) ownSys = .ok ((r, cgen'), s') ∧
      s'.ns = s'.ownNs := by
  have passes : Passes (bfCgenSet {} xdpCgen ⟨2, 1⟩ (some xdpOpts)) ownSys (fun _ _ => true) =
      true := by decide +kernel
  obtain ⟨⟨r, cgen'⟩, s', ran, -⟩ := passes_inv passes
  refine ⟨r, cgen', s', ran, ?_⟩
  refine ((cgen_operations_restore_ns_iff {} xdpCgen cgen' ⟨2, 1⟩ ownSys s' r rfl).1 _ ran).mpr ?_
  rintro ⟨-, -, opts, same, strands⟩
  cases same
  exact absurd strands (by decide)

/-- The kernel refuses the link: `bf_cgen_set` returns with the daemon in the client's network
namespace. -/
theorem refused_link_strands_daemon :
    ¬ ∀ (fate : Fate) (cgen cgen' : BfCgen) (client : BfNs) (hookopts : Option BfHookopts)
      (s s' : Sys) (r : Ret), s.ns = s.ownNs →
      bfCgenSet fate cgen client hookopts s = .ok ((r, cgen'), s') → s'.ns = s'.ownNs := by
  intro restores
  have passes : Passes (bfCgenSet { linkCreate := some .einval } xdpCgen ⟨2, 1⟩ (some xdpOpts))
      ownSys (fun result s' => result.1 = .err .einval && s'.ns != s'.ownNs) = true := by
    decide +kernel
  obtain ⟨⟨r, cgen'⟩, s', ran, test⟩ := passes_inv passes
  have home := restores _ _ cgen' _ _ ownSys s' r rfl ran
  simp [home] at test

end Bpfilter

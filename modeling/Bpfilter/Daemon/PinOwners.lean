/-
# Daemon.PinOwners -- every pin belongs to a codegen

In persistent mode a pin of a chain that has no codegen is never removed again.
`PinsOwned` says that there is none.  A command line step keeps it when the directory
whose pins it removes opens.  The iptables front end does not: it drops codegens
without unloading them, and frees a codegen it could load and not attach.

`pins_owned` is the positive half: in every run in which no request reaches one of
these, each directory with a pin belongs to a codegen of the context.
-/
import Bpfilter.Daemon.Pins

namespace Bpfilter

set_option autoImplicit false

open Hoare
open Relation (ReflTransGen)

/-! ## Where names lead -/

/-- From a mount namespace names open the directories they open from the daemon's own. -/
def Sys.Views (s : Sys) (mnt : Nat) : Prop := (s.paths mnt).dir = (s.paths s.ownNs.mnt).dir

/-- An attachment that fails does not leave the daemon where names open other directories. -/
def Sys.KeepsView (s : Sys) (fate : Fate) (client : BfNs) (chain : BfChain) (opts : BfHookopts) :
    Prop :=
  fate.Lands s.Views client s.ownNs chain.hook opts

theorem Sys.views_own (s : Sys) : s.Views s.ownNs.mnt := rfl

theorem Sys.Views.dirOf {s : Sys} (view : s.Views s.ns.mnt) (name : String) :
    s.dirOf name = s.homeDir name := by
  rw [Sys.dirOf, view, Sys.homeDir]

theorem Sys.Fixed.views {s s' : Sys} (fixed : s.Fixed s') : s'.Views = s.Views := by
  funext mnt
  rw [Sys.Views, Sys.Views, fixed.paths, fixed.ownNs]

section Moves

variable {U : Option Errno → Prop} {A : Fate → BfNs → BfChain → BfHookopts → Prop}
  {P : Nat → Prop} {own : BfNs} {d d' : Daemon}

theorem CliStep.fixed (step : CliStep U A d d') : d.sys.Fixed d'.sys := by
  cases step with
  | failed fresh attaching set refused => exact set.fixed
  | inserted fresh front attaching set absent => exact set.fixed
  | conflict fresh attaching set present opening unload =>
      exact set.fixed.trans unload.sameButPins.fixed
  | attached at_ attaching attach => exact attach.fixed
  | updated at_ named update => exact update.fixed
  | deleted at_ opening unload => exact unload.sameButPins.fixed

/-- Only an attachment moves the daemon to another mount namespace. -/
theorem CliStep.lands (step : CliStep U (fun fate client chain opts =>
      fate.Lands P client own chain.hook opts) d d')
    (inv : ContextInvariant d) (same : d.sys.ownNs = own) (home : P own.mnt)
    (here : P d.sys.ns.mnt) : P d'.sys.ns.mnt := by
  subst same
  cases step with
  | failed fresh attaching set refused => exact set.lands here home attaching
  | inserted fresh front attaching set absent => exact set.lands here home attaching
  | conflict fresh attaching set present opening unload =>
      rw [unload.sameButPins.ns]
      exact set.lands here home attaching
  | attached at_ attaching attach =>
      obtain ⟨prog, running, built, -⟩ := inv.ready _ (List.mem_of_getElem? at_)
      exact attach.lands running here home (by rwa [built.1])
  | updated at_ named update =>
      rw [update.ns.1]
      exact here
  | deleted at_ opening unload =>
      rw [unload.sameButPins.ns]
      exact here

end Moves

/-! ## Owners -/

/-- A codegen of the context would remove the pin. -/
def Daemon.Owns (d : Daemon) (dir : Nat) (name : String) : Prop :=
  ∃ cgen prog, some cgen ∈ d.cgens ∧ d.sys.homeDir cgen.chain.name = dir ∧
    cgen.program = some prog ∧ name ∈ prog.unpinNames

/-- Every pin has an owner, and names open the directories they open at home. -/
structure PinsOwned (d : Daemon) : Prop where
  context : ContextInvariant d
  persist : d.sys.persist = true
  view : d.sys.Views d.sys.ns.mnt
  owned : ∀ dir name, d.sys.Pinned dir name → d.Owns dir name

section Owners

variable {fate : Fate} {d d' : Daemon} {s : Sys} {dir : Nat} {name : String}

theorem ContextInvariant.running (inv : ContextInvariant d) {cgen : BfCgen}
    (mem : some cgen ∈ d.cgens) : ∃ prog, cgen.program = some prog := by
  obtain ⟨prog, running, -⟩ := inv.ready cgen mem
  exact ⟨prog, running⟩

theorem Daemon.Owns.withSys (owns : d.Owns dir name) (fixed : d.sys.Fixed s) :
    Daemon.Owns { d with sys := s } dir name := by
  obtain ⟨cgen, prog, mem, there, rest⟩ := owns
  exact ⟨cgen, prog, mem, (fixed.homeDir _).trans there, rest⟩

theorem Daemon.Owns.append (owns : d.Owns dir name) (fixed : d.sys.Fixed s) (new : BfCgen) :
    Daemon.Owns { sys := s, cgens := d.cgens ++ [some new] } dir name := by
  obtain ⟨cgen, prog, mem, there, rest⟩ := owns
  exact ⟨cgen, prog, List.mem_append_left _ mem, (fixed.homeDir _).trans there, rest⟩

/-- Replacing the program of a codegen leaves every pin owned that the codegen does not lose. -/
theorem Daemon.Owns.put (owns : d.Owns dir name) (fixed : d.sys.Fixed s) {i : Nat}
    {cgen cgen' : BfCgen} (at_ : d.cgens[i]? = some (some cgen))
    (named : cgen'.chain.name = cgen.chain.name)
    (keeps : ∀ prog, d.sys.homeDir cgen.chain.name = dir → cgen.program = some prog →
      name ∈ prog.unpinNames → ∃ prog', cgen'.program = some prog' ∧ name ∈ prog'.unpinNames) :
    Daemon.Owns { sys := s, cgens := d.cgens.set i (some cgen') } dir name := by
  obtain ⟨other, prog, mem, there, running, listed⟩ := owns
  obtain ⟨j, found⟩ := List.getElem?_of_mem mem
  by_cases same : i = j
  · subst same
    cases at_.symm.trans found
    obtain ⟨prog', running', listed'⟩ := keeps prog there running listed
    refine ⟨cgen', prog', ?_, ?_, running', listed'⟩
    · exact List.mem_set (List.getElem?_eq_some_iff.mp at_).1 _
    · rw [named]
      exact (fixed.homeDir _).trans there
  · refine ⟨other, prog, ?_, (fixed.homeDir _).trans there, running, listed⟩
    exact List.mem_of_getElem? ((List.getElem?_set_ne same).trans found)

/-- Attaching a codegen of the context. -/
theorem PinsOwned.attach (inv : PinsOwned d) {i : Nat} {cgen cgen' : BfCgen} {client : BfNs}
    {opts : BfHookopts} {r : Ret} (at_ : d.cgens[i]? = some (some cgen))
    (attach : CgenAttach fate cgen client opts d.sys r cgen' s) (view : s.Views s.ns.mnt) :
    PinsOwned { sys := s, cgens := d.cgens.set i (some cgen') } := by
  have mem := List.mem_of_getElem? at_
  obtain ⟨prog, running⟩ := inv.context.running mem
  obtain ⟨ready, same⟩ := attach.ready (inv.context.ready _ mem)
  have named : cgen'.chain.name = cgen.chain.name := by rw [same]
  obtain ⟨⟨prog', running', names⟩, source⟩ := attach.pinned_from running
  refine ⟨inv.context.put at_ ready named, attach.fixed.persist.trans inv.persist, view, ?_⟩
  intro dir name pinned
  obtain before | ⟨rfl, listed⟩ := source dir name pinned
  · refine (inv.owned dir name before).put attach.fixed at_ named fun old _ present listed => ?_
    cases running.symm.trans present
    exact ⟨prog', running', names ▸ listed⟩
  · refine ⟨cgen', prog', List.mem_set (List.getElem?_eq_some_iff.mp at_).1 _, ?_, running',
      names ▸ listed⟩
    rw [named, inv.view.dirOf]
    exact attach.fixed.homeDir _

/-- Updating a codegen of the context to a chain of the same name. -/
theorem PinsOwned.update (inv : PinsOwned d) {i : Nat} {cgen cgen' : BfCgen} {new : BfChain}
    {r : Ret} (at_ : d.cgens[i]? = some (some cgen)) (same : new.name = cgen.chain.name)
    (update : CgenUpdate fate cgen new d.sys r cgen' s) :
    PinsOwned { sys := s, cgens := d.cgens.set i (some cgen') } ∧
      cgen'.chain.name = cgen.chain.name := by
  have mem := List.mem_of_getElem? at_
  obtain ⟨old, running⟩ := inv.context.running mem
  obtain ⟨ready, chain⟩ := update.ready (inv.context.ready _ mem)
  have named : cgen'.chain.name = cgen.chain.name := by
    obtain chain | chain := chain
    · rw [chain]
    · rw [chain, same]
  have here : d.sys.dirOf new.name = d.sys.homeDir cgen.chain.name := by
    rw [inv.view.dirOf, same]
  obtain ⟨prog, running', source⟩ := update.pinned_from inv.persist running
  refine ⟨⟨inv.context.put at_ ready named, update.fixed.persist.trans inv.persist, ?_, ?_⟩, named⟩
  · rw [update.fixed.views, update.ns.1]
    exact inv.view
  · intro dir name pinned
    obtain ⟨before, kept⟩ | ⟨rfl, listed⟩ := source dir name pinned
    · refine (inv.owned dir name before).put update.fixed at_ named
        fun prog' there present listed => ?_
      cases running.symm.trans present
      obtain rfl | gone := kept
      · exact ⟨_, running', listed⟩
      · exact absurd ⟨there.symm.trans here.symm, listed⟩ gone
    · refine ⟨cgen', prog, List.mem_set (List.getElem?_eq_some_iff.mp at_).1 _, ?_, running', listed⟩
      rw [named, here]
      exact update.fixed.homeDir _

/-- A command line step whose directories open and that does not strand the daemon keeps every pin
owned. -/
theorem CliStep.pinsOwned {start : Sys} (step : CliStep (· = none) start.KeepsView d d')
    (fixed : start.Fixed d.sys) (inv : PinsOwned d) : PinsOwned d' := by
  have context := step.invariant inv.context
  have persist : d'.sys.persist = true := step.fixed.persist.trans inv.persist
  have view : d'.sys.Views d'.sys.ns.mnt := by
    rw [step.fixed.views, fixed.views]
    refine step.lands inv.context fixed.ownNs start.views_own ?_
    rw [← fixed.views]
    exact inv.view
  cases step with
  | failed fresh attaching set refused =>
      refine ⟨context, persist, view, fun dir name pinned => ?_⟩
      obtain before | ⟨done, -⟩ := set.pinned_from.2 dir name pinned
      · exact (inv.owned dir name before).withSys set.fixed
      · exact absurd done refused
  | @inserted _ cgen cgen' _ _ s' fresh front attaching set absent =>
      refine ⟨context, persist, view, fun dir name pinned => ?_⟩
      obtain before | ⟨-, rfl, prog, running, listed⟩ := set.pinned_from.2 dir name pinned
      · exact (inv.owned dir name before).append set.fixed cgen'
      · refine ⟨cgen', prog, List.mem_append_right _ List.mem_cons_self, ?_, running, listed⟩
        rw [set.chain, inv.view.dirOf]
        exact set.fixed.homeDir _
  | @conflict _ cgen cgen' _ _ s' s'' _ _ fresh attaching set present opened unload =>
      obtain ⟨prog, running⟩ := set.pinned_from.1 rfl
      have fixed' := set.fixed.trans unload.sameButPins.fixed
      -- The directory is opened anew, from where the attachment left the daemon.
      have reopened : s'.dirOf cgen.chain.name = d.sys.dirOf cgen.chain.name := by
        have view' : s'.Views s'.ns.mnt := by
          rw [← unload.sameButPins.fixed.views, ← unload.sameButPins.ns]
          exact view
        rw [view'.dirOf, inv.view.dirOf]
        exact set.fixed.homeDir _
      refine ⟨context, persist, view, fun dir name pinned => ?_⟩
      obtain ⟨still, gone⟩ := unload.pinned_from opened running pinned
      obtain before | ⟨-, rfl, prog', running', listed⟩ := set.pinned_from.2 dir name still
      · exact (inv.owned dir name before).withSys fixed'
      · cases running.symm.trans running'
        rw [set.chain, reopened] at gone
        exact absurd ⟨rfl, listed⟩ gone
  | attached at_ attaching attach => exact inv.attach at_ attach view
  | updated at_ named update => exact (inv.update at_ named update).1
  | @deleted _ i cgen s' at_ opened unload =>
      obtain ⟨prog, running⟩ := inv.context.running (List.mem_of_getElem? at_)
      refine ⟨context, persist, view, fun dir name pinned => ?_⟩
      obtain ⟨before, gone⟩ := unload.pinned_from opened running pinned
      obtain ⟨other, prog', mem, there, running', listed⟩ := inv.owned dir name before
      refine ⟨other, prog', ?_, (unload.sameButPins.fixed.homeDir _).trans there, running', listed⟩
      obtain ⟨j, found⟩ := List.getElem?_of_mem mem
      refine List.mem_eraseIdx_iff_getElem?.mpr ⟨j, ?_, found⟩
      rintro rfl
      cases at_.symm.trans found
      cases running.symm.trans running'
      exact gone ⟨by rw [inv.view.dirOf, there], listed⟩

/-- A request of the command line keeps every pin owned. -/
theorem PinsOwned.steps {start : Sys} (inv : PinsOwned d) (fixed : start.Fixed d.sys)
    (steps : ReflTransGen (CliStep (· = none) start.KeepsView) d d') :
    PinsOwned d' ∧ start.Fixed d'.sys := by
  induction steps with
  | refl => exact ⟨inv, fixed⟩
  | tail _ last ih => exact ⟨last.pinsOwned ih.2 ih.1, ih.2.trans last.fixed⟩

end Owners

/-! ## Loading and attaching an iptables codegen -/

section Ipt

variable {fate : Fate} {s s' : Sys}

/-- A codegen that was set without hook options runs a program without link. -/
theorem CgenSet.unlinked {cgen cgen' : BfCgen} {client : BfNs}
    (set : CgenSet fate cgen client none s .ok cgen' s') : s.dirError fate = none ∧
      ∃ prog, cgen'.program = some prog ∧ prog.chain = cgen.chain ∧ prog.link = {} := by
  cases set with
  | loaded dir made absent kept =>
      obtain ⟨-, rfl⟩ := Sys.kept_ok kept
      obtain ⟨⟨own, -⟩, link⟩ := (newProgram_inv made).built
      exact ⟨dir, _, rfl, own, link⟩
  | attached dir made present attach kept => cases present

/-- Nothing in the way of attaching an iptables codegen fails. -/
structure Fate.AttachesIpt (fate : Fate) (client own : BfNs) : Prop where
  enters : fate.enters client own = true
  linkCreate : fate.linkCreate = none
  linkPin : fate.linkPin = none

/-- A Netfilter link needs no control group. -/
theorem attachRefused_netfilter {hook : BfHook} {opts : BfHookopts}
    (nf : bfHookToFlavor hook = .nf) : attachRefused fate hook opts = fate.linkCreate.isSome := by
  simp [attachRefused, cgroupOpen, nf]

theorem AttachIn.netfilter {client : BfNs} {prog prog' : BfProg} {opts : BfHookopts} {r : Ret}
    (attach : AttachIn fate client prog opts s r prog' s')
    (works : fate.AttachesIpt client s.ownNs) (nf : bfHookToFlavor prog.chain.hook = .nf) :
    r = .ok ∧ prog'.link.fd.isSome = true := by
  cases attach with
  | notEntered outside =>
      rw [works.enters] at outside
      cases outside
  | refused e inside why =>
      rw [attachRefused_netfilter nf, works.linkCreate] at why
      cases why
  | attached inside accepted restored => exact ⟨rfl, rfl⟩

theorem bfCgenAttach_netfilter {cgen cgen' : BfCgen} {client : BfNs} {opts : BfHookopts}
    {prog : BfProg} {r : Ret} (ran : bfCgenAttach fate cgen client opts s = .ok ((r, cgen'), s'))
    (works : fate.AttachesIpt client s.ownNs) (nf : bfHookToFlavor prog.chain.hook = .nf)
    (dir : s.dirError fate = none) (running : cgen.program = some prog)
    (free : s.pins (s.dirOf cgen.chain.name) "bf_link" = none) : r = .ok := by
  unfold bfCgenAttach at ran
  rw [bind_run (openPindir_run ..)] at ran
  simp only [dir, running] at ran
  obtain ⟨⟨r', prog'⟩, t, attach, ran⟩ := bind_inv ran
  have outcome := attachIn_inv attach
  obtain ⟨rfl, linked⟩ := outcome.netfilter works nf
  obtain ⟨fd, present⟩ := Option.isSome_iff_exists.mp linked
  simp only at ran
  unfold keepLink at ran
  rw [bind_run (get_run t)] at ran
  cases mode : t.persist with
  | false =>
      rw [mode, if_neg Bool.false_ne_true] at ran
      cases ran
      rfl
  | true =>
      have pin : bfLinkPin fate.linkPin prog'.link (s.dirOf cgen.chain.name) t = .ok (none, t.setDir
          (s.dirOf cgen.chain.name) fun name =>
            if name = "bf_link" then some (.link fd.id)
            else t.pins (s.dirOf cgen.chain.name) name) := by
        unfold bfLinkPin
        rw [bind_run (get_run t)]
        simp only [bfBpfObjPin, present, works.linkPin, outcome.pins.1, free, Option.map_some,
          Option.isSome_none, Bool.false_eq_true, if_false]
        rfl
      rw [if_pos mode, bind_run pin] at ran
      cases ran
      rfl

end Ipt

/-! ## iptables requests -/

/-- The chain can be loaded on the host, as far as the outcomes go. -/
def Fate.Builds (fate : Fate) (host : Host) (chain : BfChain) : Prop :=
  ∃ s prog t, s.host = host ∧ newProgram fate chain s = .ok (.ok prog, t)

/-- The chain can be loaded and pinned on the host, as far as the outcomes go. -/
def Fate.Loads (fate : Fate) (host : Host) (chain : BfChain) : Prop :=
  ∃ s client cgen t, s.host = host ∧ s.persist = true ∧
    CgenSet fate { front := .ipt, chain } client none s .ok cgen t

/-- A codegen of the context has the directory a name opens at home. -/
def Daemon.UsesDir (d : Daemon) (name : String) : Prop :=
  ∃ other, some other ∈ d.cgens.map entryName ∧ d.sys.homeDir other = d.sys.homeDir name

/-- The turn of a hook leaves no pin behind.  A hook that is not enabled has no codegen
to lose.  An enabled one with a codegen has it under the name of its new chain.  A new
codegen that is loaded is attached too, unless another has its directory. -/
def IptOwned (d : Daemon) (fate : Fate) (client : BfNs) (position : Option Nat) :
    Option BfChain → Prop
  | none => position = none
  | some chain =>
      match position with
      | none => fate.AttachesIpt client d.sys.ownNs ∨
          d.UsesDir chain.name ∧ d.sys.KeepsView fate client chain iptHookopts ∨
          ¬ fate.Loads d.sys.host chain
      | some i => (d.cgens.map entryName)[i]? = some (some chain.name) ∨
          ¬ fate.Builds d.sys.host chain

/-- What the loop keeps from the state it started in. -/
structure IptTurns (start d : Daemon) : Prop where
  owned : PinsOwned d
  fixed : start.sys.Fixed d.sys
  names : start.cgens.map entryName <+: d.cgens.map entryName

section Turns

variable {fate : Fate} {client : BfNs} {start d d' : Daemon} {chain : BfChain} {r : Ret}

/-- Only the system changed, and every pin has an owner. -/
theorem IptTurns.withSys (loop : IptTurns start d) {s : Sys} (fixed : d.sys.Fixed s)
    (view : s.Views s.ns.mnt)
    (owned : ∀ dir name, s.Pinned dir name → Daemon.Owns { d with sys := s } dir name) :
    IptTurns start { d with sys := s } where
  owned :=
    { context := ⟨loop.owned.context.names, loop.owned.context.live, loop.owned.context.ready⟩
      persist := fixed.persist.trans loop.owned.persist
      view
      owned }
  fixed := loop.fixed.trans fixed
  names := loop.names

theorem IptTurns.usesDir (loop : IptTurns start d) {name : String} (uses : start.UsesDir name) :
    d.UsesDir name := by
  obtain ⟨other, mem, same⟩ := uses
  refine ⟨other, loop.names.subset mem, ?_⟩
  rw [loop.fixed.homeDir, loop.fixed.homeDir, same]

/-- A codegen owns the pins of every program without sets. -/
theorem Daemon.owns_plain (inv : ContextInvariant d) {prog : BfProg} {where_ name : String}
    (sets : prog.chain.sets = []) (uses : d.UsesDir where_) (listed : name ∈ prog.unpinNames) :
    d.Owns (d.sys.homeDir where_) name := by
  obtain ⟨other, present, there⟩ := uses
  obtain ⟨entry, mem, same⟩ := List.mem_map.mp present
  obtain ⟨cgen, rfl, rfl⟩ := Option.map_eq_some_iff.mp same
  obtain ⟨own, running⟩ := inv.running mem
  refine ⟨cgen, own, mem, there, running, ?_⟩
  simp only [BfProg.unpinNames, BfProg.setPins, sets, List.length_nil, List.range_zero,
    List.map_nil] at listed
  simp only [BfProg.unpinNames]
  exact List.mem_append_left (own.setPins.map Prod.fst) listed

/-- A directory no codegen has is empty. -/
theorem PinsOwned.unused (inv : PinsOwned d) {where_ : String} (unused : ¬ d.UsesDir where_) :
    d.sys.pins (d.sys.homeDir where_) = .empty := by
  funext name
  by_contra pinned
  obtain ⟨cgen, prog, mem, there, -⟩ := inv.owned (d.sys.homeDir where_) name pinned
  exact unused ⟨cgen.chain.name, List.mem_map_of_mem (f := entryName) mem, there⟩

/-- What loading and attaching the codegen of a hook leaves before it is inserted. -/
structure IptAttached (d : Daemon) (chain : BfChain) (cgen : BfCgen) (s : Sys) : Prop where
  fixed : d.sys.Fixed s
  ofChain : cgen.chain = chain
  ready : cgen.Ready
  view : s.Views s.ns.mnt
  program : ∃ prog, cgen.program = some prog ∧ ∀ dir name, s.Pinned dir name →
    d.sys.Pinned dir name ∨ dir = d.sys.homeDir chain.name ∧ name ∈ prog.unpinNames

/-- The new codegen is inserted, and owns what it pinned. -/
theorem IptTurns.append (loop : IptTurns start d) {cgen : BfCgen} {s : Sys}
    (attached : IptAttached d chain cgen s) (absent : findCgen cgen.chain.name d.cgens = .ok none) :
    IptTurns start { sys := s, cgens := d.cgens ++ [some cgen] } where
  owned :=
    { context := loop.owned.context.append attached.ready absent
      persist := attached.fixed.persist.trans loop.owned.persist
      view := attached.view
      owned := by
        intro dir name pinned
        obtain ⟨prog, running, source⟩ := attached.program
        obtain before | ⟨rfl, listed⟩ := source dir name pinned
        · exact (loop.owned.owned dir name before).append attached.fixed cgen
        · refine ⟨cgen, prog, List.mem_append_right _ List.mem_cons_self, ?_, running, listed⟩
          rw [attached.ofChain]
          exact attached.fixed.homeDir _ }
  fixed := loop.fixed.trans attached.fixed
  names := by
    rw [List.map_append]
    exact loop.names.trans (List.prefix_append ..)

/-- The new codegen is dropped, and another has its directory. -/
theorem IptTurns.dropped (loop : IptTurns start d) {cgen : BfCgen} {s : Sys}
    (sets : chain.sets = []) (attached : IptAttached d chain cgen s)
    (uses : d.UsesDir chain.name) : IptTurns start { d with sys := s } := by
  obtain ⟨prog, running, source⟩ := attached.program
  obtain ⟨prog', running', built, -⟩ := attached.ready
  cases running.symm.trans running'
  refine loop.withSys attached.fixed attached.view fun dir name pinned => ?_
  obtain before | ⟨rfl, listed⟩ := source dir name pinned
  · exact (loop.owned.owned dir name before).withSys attached.fixed
  · refine (Daemon.owns_plain loop.owned.context ?_ uses listed).withSys attached.fixed
    rw [built.1, attached.ofChain, sets]

section Load

variable {cgen cgen' : BfCgen} {t s' : Sys}

/-- Loading a codegen does not move the daemon. -/
theorem IptTurns.loadView (loop : IptTurns start d)
    (set : CgenSet fate { front := .ipt, chain } client none d.sys r cgen t) :
    t.Views t.ns.mnt := by
  rw [set.fixed.views]
  exact set.lands loop.owned.view d.sys.views_own fun _ same => by cases same

/-- A codegen that was loaded and attached, where names open what they open at home. -/
theorem IptTurns.attached (loop : IptTurns start d)
    (set : CgenSet fate { front := .ipt, chain } client none d.sys .ok cgen t)
    (attach : CgenAttach fate cgen client iptHookopts t r cgen' s')
    (keeps : d.sys.KeepsView fate client chain iptHookopts) : IptAttached d chain cgen' s' := by
  obtain ⟨-, prog, running, own, -⟩ := set.unlinked
  have named : cgen.chain = chain := set.chain
  have view := loop.loadView set
  obtain ⟨ready, same⟩ := attach.ready set.ready
  obtain ⟨⟨prog', running', names⟩, fromAttach⟩ := attach.pinned_from running
  refine ⟨set.fixed.trans attach.fixed, same.trans named, ready, ?_, prog', running', ?_⟩
  · rw [attach.fixed.views]
    refine attach.lands running view t.views_own ?_
    rw [set.fixed.views, set.fixed.ownNs, own]
    exact keeps
  · intro dir name pinned
    rw [names]
    obtain before | ⟨rfl, listed⟩ := fromAttach dir name pinned
    · obtain before | ⟨-, rfl, other, same, listed⟩ := set.pinned_from.2 dir name before
      · exact .inl before
      · cases running.symm.trans same
        exact .inr ⟨loop.owned.view.dirOf _, listed⟩
    · exact .inr ⟨by rw [named, view.dirOf, set.fixed.homeDir], listed⟩

/-- The load pinned into an empty directory, so the link's name is free. -/
theorem IptTurns.linkFree (loop : IptTurns start d) (sets : chain.sets = [])
    (set : CgenSet fate { front := .ipt, chain } client none d.sys .ok cgen t)
    (unused : ¬ d.UsesDir chain.name) : t.pins (t.dirOf cgen.chain.name) "bf_link" = none := by
  have inv := loop.owned
  obtain ⟨-, prog, running, own, unlinked⟩ := set.unlinked
  have named : cgen.chain = chain := set.chain
  have empty := inv.unused unused
  rw [← inv.view.dirOf] at empty
  rw [named, (loop.loadView set).dirOf, set.fixed.homeDir, ← inv.view.dirOf,
    (set.exact fun _ => empty).pins (set.fixed.persist.trans inv.persist) prog running]
  simp [BfProg.pinDir, BfProg.pinList, BfProg.setPins, own, sets, unlinked, List.lookup_cons,
    List.lookup_nil]

end Load

/-- A hook without codegen. -/
theorem IptTurns.new (loop : IptTurns start d) {result : Bool × Ret}
    (valid : bfChainValidate chain = true) (nf : bfHookToFlavor chain.hook = .nf)
    (sets : chain.sets = []) (clean : IptOwned start fate client none (some chain))
    (ran : iptNewCgen fate client chain d = .ok (result, d')) : IptTurns start d' := by
  have inv := loop.owned
  obtain ⟨-, r, cgen, t, set, ⟨refused, -, rfl⟩ | ⟨rfl, r', cgen', s', attached, outcome⟩⟩ :=
    iptNewCgen_runs valid ran
  · refine loop.withSys set.fixed (loop.loadView set) fun dir name pinned => ?_
    obtain before | ⟨done, -⟩ := set.pinned_from.2 dir name pinned
    · exact (inv.owned dir name before).withSys set.fixed
    · exact absurd done refused
  have loads : fate.Loads start.sys.host chain :=
    ⟨d.sys, client, cgen, t, loop.fixed.host, inv.persist, set⟩
  have keeps : d.sys.KeepsView fate client chain iptHookopts := by
    obtain works | ⟨-, keeps⟩ | fails := clean
    · intro strands
      simp [Fate.strandsMount, attachRefused_netfilter nf, works.linkCreate] at strands
    · rwa [Sys.KeepsView, loop.fixed.views, loop.fixed.ownNs]
    · exact absurd loads fails
  have made := loop.attached set (bfCgenAttach_inv attached) keeps
  by_cases uses : d.UsesDir chain.name
  · -- Whoever has the directory owns what was pinned, whether attaching worked or not.
    obtain ⟨-, -, rfl⟩ | ⟨-, found, insert, -⟩ := outcome
    · exact loop.dropped sets made uses
    · obtain ⟨-, absent, rfl⟩ | ⟨entry, -, -, rfl⟩ := bfCtxSetCgen_outcome insert
      · exact loop.append made absent
      · exact loop.dropped sets made uses
  · -- Nothing is in the way of the link, so attaching works.
    have works : fate.AttachesIpt client t.ownNs := by
      obtain works | ⟨there, -⟩ | fails := clean
      · rwa [(loop.fixed.trans set.fixed).ownNs]
      · exact absurd (loop.usesDir there) uses
      · exact absurd loads fails
    obtain ⟨dir, prog, running, own, -⟩ := set.unlinked
    have dir' : t.dirError fate = none := by
      rw [Sys.dirError, if_pos (set.fixed.persist.trans inv.persist)]
      rwa [Sys.dirError, if_pos inv.persist] at dir
    have done := bfCgenAttach_netfilter attached works (by rw [own]; exact nf) dir' running
      (loop.linkFree sets set uses)
    obtain ⟨failed, -⟩ | ⟨-, found, insert, -⟩ := outcome
    · exact absurd done failed
    · obtain ⟨-, absent, rfl⟩ | ⟨entry, -, there, -⟩ := bfCtxSetCgen_outcome insert
      · exact loop.append made absent
      · obtain ⟨at_, match_⟩ := findCgen_some there
        have mem := List.mem_map_of_mem (f := entryName) (List.mem_of_getElem? at_)
        refine absurd ⟨entry.2.chain.name, mem, ?_⟩ uses
        rw [match_, made.ofChain]

/-- An update that builds no program leaves the codegen and the pins. -/
theorem bfCgenUpdate_notBuilt {cgen cgen' : BfCgen} {s s' : Sys}
    (ran : bfCgenUpdate fate cgen chain s = .ok ((r, cgen'), s'))
    (fails : ∀ prog t, newProgram fate chain s ≠ .ok (.ok prog, t)) :
    cgen' = cgen ∧ s'.pins = s.pins := by
  unfold bfCgenUpdate at ran
  rw [bind_run (openPindir_run ..)] at ran
  cases dir : s.dirError fate with
  | some e =>
      rw [dir] at ran
      cases ran
      exact ⟨rfl, rfl⟩
  | none =>
      simp only [dir] at ran
      obtain ⟨result, t, made, ran⟩ := bind_inv ran
      cases result with
      | ok prog => exact absurd made (fails prog t)
      | error e =>
          cases ran
          exact ⟨rfl, (newProgram_inv made).pins.1⟩

/-- A hook with a codegen. -/
theorem IptTurns.update (loop : IptTurns start d) {i : Nat} {cgen cgen' : BfCgen} {s' : Sys}
    (clean : IptOwned start fate client (some i) (some chain))
    (at_ : d.cgens[i]? = some (some cgen))
    (ran : bfCgenUpdate fate cgen chain d.sys = .ok ((r, cgen'), s')) :
    IptTurns start { sys := s', cgens := d.cgens.set i (some cgen') } := by
  have inv := loop.owned
  have update := bfCgenUpdate_inv ran
  obtain here | fails := clean
  · have same : chain.name = cgen.chain.name := by
      obtain ⟨inside, -⟩ := List.getElem?_eq_some_iff.mp here
      obtain ⟨more, whole⟩ := loop.names
      have there : (d.cgens.map entryName)[i]? = some (some chain.name) := by
        rw [← whole, List.getElem?_append_left inside, here]
      rw [List.getElem?_map, at_] at there
      exact (Option.some.inj (Option.some.inj there)).symm
    obtain ⟨owned, named⟩ := inv.update at_ same update
    refine ⟨owned, loop.fixed.trans update.fixed, ?_⟩
    rw [entryName_set at_ named]
    exact loop.names
  · have never (prog : BfProg) (t : Sys) : newProgram fate chain d.sys ≠ .ok (.ok prog, t) :=
      fun made => fails ⟨d.sys, prog, t, loop.fixed.host, made⟩
    obtain ⟨rfl, pins⟩ := bfCgenUpdate_notBuilt ran never
    have same : d.cgens.set i (some cgen') = d.cgens := by
      obtain ⟨inside, value⟩ := List.getElem?_eq_some_iff.mp at_
      rw [← value, List.set_getElem_self]
    rw [same]
    refine loop.withSys update.fixed ?_ fun dir name pinned => ?_
    · rw [update.fixed.views, update.ns.1]
      exact inv.view
    · rw [Sys.Pinned, pins] at pinned
      exact (inv.owned dir name pinned).withSys update.fixed

end Turns

/-- The chains of a translation, as the loop uses them. -/
structure IptPlain (chain : BfChain) : Prop where
  valid : bfChainValidate chain = true
  nf : bfHookToFlavor chain.hook = .nf
  sets : chain.sets = []

theorem iptAddRules_sets {entries : List IptEntry} {chain chain' : BfChain}
    (ran : iptAddRules entries chain = .ok chain') : chain'.sets = chain.sets := by
  induction entries generalizing chain with
  | nil =>
      cases ran
      rfl
  | cons entry rest ih =>
      obtain ⟨rule, -, ran⟩ := bind_eq_ok ran
      exact (ih ran).trans rfl

theorem bfIptEntriesToChain_plain {hook : BfNfInetHook} {rules : IptHookEntries} {chain : BfChain}
    (ran : bfIptEntriesToChain hook rules = .ok chain) : IptPlain chain := by
  have ipt := bfIptEntriesToChain_inv ran
  obtain ⟨policy, -, ran⟩ := bind_eq_ok ran
  exact ⟨ipt.valid, by rw [ipt.hook, bfHookToFlavor_from], iptAddRules_sets ran⟩

theorem iptSetHooks_turns {fates : BfNfInetHook → Fate} {client : BfNs} {cur : CurCgens}
    {chains : List (BfNfInetHook × Option BfChain)} {start d d' : Daemon} {r r' : Ret}
    (loop : IptTurns start d)
    (plain : ∀ hook chain, (hook, some chain) ∈ chains → IptPlain chain)
    (clean : ∀ entry ∈ chains, IptOwned start (fates entry.1) client (cur entry.1) entry.2)
    (ran : iptSetHooks fates client cur chains r d = .ok (r', d')) : IptTurns start d' := by
  induction chains generalizing d r with
  | nil =>
      cases ran
      exact loop
  | cons head rest ih =>
      obtain ⟨hook, chain⟩ := head
      have turn := clean _ List.mem_cons_self
      have plain' (other : BfNfInetHook) (chain : BfChain) (mem : (other, some chain) ∈ rest) :=
        plain other chain (List.mem_cons_of_mem _ mem)
      have clean' (entry : BfNfInetHook × Option BfChain) (mem : entry ∈ rest) :=
        clean entry (List.mem_cons_of_mem _ mem)
      cases chain with
      | none =>
          have free : cur hook = none := turn
          rw [iptSetHooks_off, iptDrop, free] at ran
          exact ih loop plain' clean' ran
      | some chain =>
          obtain ⟨valid, nf, sets⟩ := plain hook chain List.mem_cons_self
          rw [iptSetHooks_on valid] at ran
          obtain ⟨r₁, d₁, one, ran⟩ := bind_inv ran
          refine ih ?_ plain' clean' ran
          cases found : cur hook with
          | none =>
              obtain ⟨go, new⟩ := iptHook_free found one
              simp only [found] at turn
              exact loop.new valid nf sets turn new
          | some i =>
              obtain ⟨cgen, cgen', s', at_, update, rfl⟩ := iptHook_found found one
              simp only [found] at turn
              exact loop.update turn at_ update

/-! ## Runs -/

/-- What a request must meet to leave no pin behind: every directory opens whose pins it removes, no
attachment leaves the daemon where names open other directories, and the hooks of an iptables
request keep their pins owned. -/
def Request.LeavesNoPins : Request → Daemon → Prop
  | .iptRulesetSet fates client replace, d => ∀ chains cur, replace.sizeOk = true →
      bfIptXlateRulesetSet replace bfNfInetHooks = .ok chains →
      collectCgens 0 d.cgens (fun _ => none) = .ok (.ok cur) →
      ∀ entry ∈ chains, IptOwned d (fates entry.1) client (cur entry.1) entry.2
  | request, d => request.Opens (· = none) ∧ request.Attaches d.sys.KeepsView d

theorem iptRulesetSet_pinsOwned {fates : BfNfInetHook → Fate} {client : BfNs}
    {replace : IptReplace} {d d' : Daemon} {r : Ret}
    (clean : Request.LeavesNoPins (.iptRulesetSet fates client replace) d) (inv : PinsOwned d)
    (ran : bfIptRulesetSet fates client replace d = .ok (r, d')) : PinsOwned d' := by
  obtain ⟨rfl, -⟩ | ⟨chains, cur, sized, xlate, collect, loop⟩ := bfIptRulesetSet_inv ran
  · exact inv
  · have begin_ : IptTurns d d := ⟨inv, .refl d.sys, List.prefix_rfl⟩
    refine (iptSetHooks_turns begin_ ?_ (clean chains cur sized xlate collect) loop).owned
    intro hook chain mem
    obtain ⟨rules, -, made⟩ := (bfIptXlateRulesetSet_chain xlate).2.2 hook chain mem
    exact bfIptEntriesToChain_plain made

/-- **No orphan pins.**  In every state a run in persistent mode reaches whose requests all leave no
pin behind, a directory with a pin is the one the name of a codegen of the context opens. -/
theorem pins_owned (host : Host) (own : BfNs) (paths : Nat → Paths) (d : Daemon)
    (run : Run step Request.LeavesNoPins (.init host true own paths) d) (dir : Nat) (name : String)
    (pinned : d.sys.pins dir name ≠ none) :
    ∃ cgen, some cgen ∈ d.cgens ∧ d.sys.homeDir cgen.chain.name = dir := by
  have start : PinsOwned (.init host true own paths) := by
    refine ⟨⟨List.nodup_nil, ?_, ?_⟩, rfl, rfl, ?_⟩
    · exact fun _ mem => absurd mem List.not_mem_nil
    · exact fun _ mem => absurd mem List.not_mem_nil
    · exact fun _ _ pinned => absurd rfl pinned
  have owned : PinsOwned d := by
    refine run.invariant start ?_
    intro request d r d' ⟨inv, clean⟩ ran
    by_cases cli : request.isCli = true
    · have keeps : request.Opens (· = none) ∧ request.Attaches d.sys.KeepsView d := by
        cases request <;> first | exact clean | cases cli
      exact (inv.steps (.refl d.sys) (cli_steps cli keeps.1 keeps.2 ran)).1
    · cases request with
      | iptRulesetSet fates client replace => exact iptRulesetSet_pinsOwned clean inv ran
      | _ => exact absurd rfl cli
  obtain ⟨cgen, prog, mem, there, -⟩ := owned.owned dir name pinned
  exact ⟨cgen, mem, there⟩

/-- The input hook set by an iptables request: its pins belong to the codegen of the hook. -/
theorem input_hook_pins_owned : ∃ d : Daemon, d.sys.pins
      (d.sys.homeDir (bfNfHookToStr .localIn)) "bf_prog" ≠ none ∧
    ∃ cgen, some cgen ∈ d.cgens ∧
      d.sys.homeDir cgen.chain.name = d.sys.homeDir (bfNfHookToStr .localIn) := by
  have passes : Passes (step (setOnly .localIn)) iptDaemon (fun _ d =>
      (d.sys.pins (d.sys.homeDir (bfNfHookToStr .localIn)) "bf_prog").isSome) = true := by
    decide +kernel
  obtain ⟨r, d, ran, test⟩ := passes_inv passes
  have pinned : d.sys.pins (d.sys.homeDir (bfNfHookToStr .localIn)) "bf_prog" ≠ none := by
    intro none
    rw [none] at test
    cases test
  have clean : (setOnly .localIn).LeavesNoPins iptDaemon := by
    intro chains cur _ _ collect entry _
    cases collect
    cases entry.2 with
    | none => rfl
    | some chain => exact .inl ⟨rfl, rfl, rfl⟩
  exact ⟨d, pinned, pins_owned sampleHost ⟨1, 1⟩ plainPaths d (.tail .refl clean ran) _ "bf_prog"
    pinned⟩

/-- The link of the input hook is refused after its program was pinned: the codegen is
freed, and its pins stay. -/
theorem refused_link_leaves_pins :
    ¬ ∀ (host : Host) (own : BfNs) (paths : Nat → Paths) (d : Daemon),
      Run step (fun _ _ => True) (.init host true own paths) d → ∀ dir name,
        d.sys.pins dir name ≠ none →
          ∃ cgen, some cgen ∈ d.cgens ∧ d.sys.homeDir cgen.chain.name = dir := by
  intro owned
  have passes : Passes (step (.iptRulesetSet (fun _ => { linkCreate := some .eperm }) ⟨1, 1⟩
      (onlyHook .localIn))) iptDaemon (fun _ d => d.cgens.isEmpty &&
        (d.sys.pins (d.sys.homeDir (bfNfHookToStr .localIn)) "bf_prog").isSome) = true := by
    decide +kernel
  obtain ⟨r, d, ran, test⟩ := passes_inv passes
  simp only [Bool.and_eq_true, List.isEmpty_iff] at test
  obtain ⟨empty, some⟩ := test
  have pinned : d.sys.pins (d.sys.homeDir (bfNfHookToStr .localIn)) "bf_prog" ≠ none := by
    intro none
    rw [none] at some
    cases some
  obtain ⟨cgen, mem, -⟩ := owned sampleHost ⟨1, 1⟩ plainPaths d (.tail .refl trivial ran) _
    "bf_prog" pinned
  rw [empty] at mem
  cases mem

end Bpfilter

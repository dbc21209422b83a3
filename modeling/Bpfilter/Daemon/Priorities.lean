/-
# Daemon.Priorities -- the two priorities of a Netfilter link

A Netfilter link cannot be pointed to another program, so `_bf_link_update_nf` creates
a second link before it closes the first, and the two must differ in priority.  The
link therefore has a pair of priorities of which `priorities[0]` is in use; an update
creates the new link with the other one and swaps them.

`LinkDaemon` is the daemon as far as one link is concerned: the link in memory, the
kernel link behind its pin, and the state saved after the last request, which is all
that a restart has.  `nf_priorities_in_step` is about every sequence of updates and
restarts: the priority in memory is the one of the live link, the pair stays the same,
and a new link has the priority the old one has not.
-/
import Bpfilter.Daemon.Attachment
import Mathlib.Data.Sym.Sym2

namespace Bpfilter

set_option autoImplicit false

open Hoare

variable {fate : Fate} {s s' : Sys}

/-! ## Saving and loading a link -/

/-- `bf_link_pack`; every link has the name `bf_program_new` gives it. -/
def bfLinkPack (link : BfLink) : Pack :=
  .map [("name", .str "bf_link"), ("hookopts", bfWpackOpt bfHookoptsPack link.hookopts)]

/-- `bf_link_new_from_pack`: `dir` opens a pin of the chain's directory, and is `none` for the
file descriptor -1. -/
def bfLinkNewFromPack (dir : Option (String → Except Errno KernelLink)) (node : Pack) :
    Except Errno BfLink := do
  let name ← bfRpackKv bfRpackStr node "name"
  let hookopts ← bfRpackKv (bfRpackOpt bfHookoptsNewFromPack) node "hookopts"
  match dir with
  | none => .ok { hookopts }
  | some pins => do
      let fd ← pins name
      .ok { hookopts, fd := some fd }

/-- A saved link is loaded with its options and whatever its pin leads to. -/
theorem bfLinkNewFromPack_pack (pins : String → Except Errno KernelLink) (link : BfLink) :
    bfLinkNewFromPack (some pins) (bfLinkPack link) =
      (pins "bf_link").map fun fd => { hookopts := link.hookopts, fd := some fd } := by
  have hookopts := bfRpackOpt_write (fun _ => rfl) bfHookoptsNewFromPack_pack link.hookopts
  simp only [bfLinkNewFromPack, bfLinkPack, bfRpackKv, bfRpackKvNode, bfRpackStr]
  simp [hookopts]
  cases pins "bf_link" <;> rfl

/-! ## One link over requests and restarts -/

/-- The link in memory, the kernel link behind its pin, and the saved state. -/
structure LinkDaemon where
  link : BfLink
  pin : Option KernelLink
  saved : Pack

/-- The end of a request: the link is pinned, if that works, and the state is saved. -/
def LinkDaemon.afterRequest (link : BfLink) (pinned : Bool) : LinkDaemon where
  link
  pin := if pinned then link.fd else none
  saved := bfLinkPack link

/-- Opening a pin of the chain's directory. -/
def LinkDaemon.pins (d : LinkDaemon) (name : String) : Except Errno KernelLink :=
  if name = "bf_link" then d.pin.elim (.error .enoent) .ok else .error .enoent

/-- A request that calls `bf_link_update`, with the rest of the daemon as it is at that time, or a
restart. -/
inductive LinkEvent where
  | update (fate : Fate) (hook : BfHook) (prog : BfProg) (sys : Sys) (pinned : Bool)
  | restart

def linkStep : LinkEvent → Proc LinkDaemon Death (Option Errno)
  | .update fate hook prog sys pinned => fun d =>
      match bfLinkUpdate fate d.link hook prog sys with
      | .error death => .error death
      | .ok ((r, link), _) => .ok (r, .afterRequest link pinned)
  | .restart => fun d =>
      match bfLinkNewFromPack (some d.pins) d.saved with
      | .ok link => .ok (none, { d with link })
      -- Without its pin the link is gone, and the program has the empty one of `bf_program_new`.
      | .error e => .ok (some e, { d with link := {} })

/-! ## The invariant -/

/-- The link is live, its kernel link has the first priority of the options, and these are the two
priorities. -/
def BfLink.InStep (link : BfLink) (pair : Sym2 (BitVec 32)) : Prop :=
  ∃ opts fd, link.hookopts = some opts ∧ link.fd = some fd ∧
    fd.priority = some opts.prios.1 ∧ s(opts.prios.1, opts.prios.2) = pair

/-- The link in memory is in step unless it is lost, and a restart loads one that is. -/
structure LinkDaemon.InStep (pair : Sym2 (BitVec 32)) (d : LinkDaemon) : Prop where
  link : d.link = {} ∨ d.link.InStep pair
  stored : ∃ link : BfLink, d.saved = bfLinkPack link ∧
    ∀ fd, d.pin = some fd → link.fd = some fd ∧ link.InStep pair

@[simp] theorem BfHookopts.prios_swapped (opts : BfHookopts) :
    opts.swapped.prios = opts.prios.swap := by
  unfold BfHookopts.prios BfHookopts.swapped
  cases opts.priorities with
  | none => rfl
  | some pair => rfl

theorem LinkAttach.inStep {link link' : BfLink} {opts : BfHookopts} {prog : BfProg}
    (attach : LinkAttach fate link opts prog s .ok link' s')
    (nf : bfHookToFlavor prog.chain.hook = .nf) :
    link'.InStep s(opts.prios.1, opts.prios.2) := by
  cases attach with
  | attached accepted =>
      refine ⟨opts, _, rfl, rfl, ?_, rfl⟩
      rw [newLink, if_pos nf]

/-- A link that was replaced has the other priority of the pair. -/
theorem newLink_swapped {prog : BfProg} {hook : BfHook} {opts : BfHookopts}
    (nf : bfHookToFlavor hook = .nf) :
    (newLink s prog hook opts.swapped).priority = some opts.prios.2 := by
  rw [newLink, if_pos nf, BfHookopts.prios_swapped, Prod.fst_swap]

/-- One update: nothing happens, the priorities change places together with the link, or the link
stays and so do they. -/
theorem LinkUpdate.inStep {link link' : BfLink} {hook : BfHook} {prog : BfProg} {r : Option Errno}
    {pair : Sym2 (BitVec 32)} (update : LinkUpdate link hook prog s r link' s')
    (before : link = {} ∨ link.InStep pair) : link' = {} ∨ link'.InStep pair := by
  cases update with
  | refused e => exact before
  | replaced opts nf present type =>
      obtain rfl | ⟨opts', old, present', -, -, same⟩ := before
      · cases present
      · obtain rfl : opts' = opts := Option.some.inj (present'.symm.trans present)
        refine .inr ⟨opts'.swapped, _, rfl, rfl, ?_, ?_⟩
        · rw [newLink_swapped nf, BfHookopts.prios_swapped, Prod.fst_swap]
        · rw [BfHookopts.prios_swapped, Prod.fst_swap, Prod.snd_swap, Sym2.eq_swap]
          exact same
  | inPlace fd notNf present type =>
      obtain rfl | ⟨opts, old, options, running, priority, same⟩ := before
      · cases present
      · obtain rfl : old = fd := Option.some.inj (running.symm.trans present)
        exact .inr ⟨opts, _, options, rfl, priority, same⟩

/-- A request leaves what it pinned and saved in step with the link. -/
theorem LinkDaemon.InStep.afterRequest {link : BfLink} {pair : Sym2 (BitVec 32)}
    (inStep : link = {} ∨ link.InStep pair) (pinned : Bool) :
    (LinkDaemon.afterRequest link pinned).InStep pair := by
  refine ⟨inStep, link, rfl, ?_⟩
  intro fd pin
  have live : link.fd = some fd := by
    cases pinned with
    | false => cases pin
    | true => exact pin
  obtain rfl | inStep := inStep
  · cases live
  · exact ⟨live, inStep⟩

/-- Every event keeps the priorities in step. -/
theorem linkStep_inStep (pair : Sym2 (BitVec 32)) (event : LinkEvent) :
    Keeps (LinkDaemon.InStep pair) (linkStep event) := by
  intro d r d' before ran
  cases event with
  | update fate hook prog sys pinned =>
      simp only [linkStep] at ran
      cases update : bfLinkUpdate fate d.link hook prog sys with
      | error death =>
          rw [update] at ran
          cases ran
      | ok result =>
          obtain ⟨⟨r', link⟩, sys'⟩ := result
          rw [update] at ran
          cases ran
          exact .afterRequest ((bfLinkUpdate_inv update).inStep before.link) pinned
  | restart =>
      obtain ⟨link, saved, pinned⟩ := before.stored
      have loaded := bfLinkNewFromPack_pack d.pins link
      rw [← saved] at loaded
      simp only [linkStep] at ran
      cases pin : d.pin with
      | none =>
          have opened : d.pins "bf_link" = .error .enoent := by simp [LinkDaemon.pins, pin]
          rw [loaded, opened] at ran
          cases ran
          exact ⟨.inl rfl, before.stored⟩
      | some fd =>
          have opened : d.pins "bf_link" = .ok fd := by simp [LinkDaemon.pins, pin]
          obtain ⟨live, inStep⟩ := pinned fd pin
          rw [loaded, opened] at ran
          cases ran
          refine ⟨.inr ?_, before.stored⟩
          show BfLink.InStep { hookopts := link.hookopts, fd := some fd } pair
          rw [← live]
          exact inStep

/-- The requests that pin what they leave. -/
def LinkEvent.pins : LinkEvent → Prop
  | .update _ _ _ _ pinned => pinned = true
  | .restart => True

/-- While every request can pin the link it stays alive: a restart loads what was in memory. -/
theorem link_stays_live {link : BfLink} {d : LinkDaemon} (live : link.fd.isSome = true)
    (run : Run linkStep (fun event _ => event.pins) (.afterRequest link true) d) :
    d.link.fd.isSome = true ∧ d = .afterRequest d.link true := by
  refine run.invariant (I := fun d => d.link.fd.isSome = true ∧ d = .afterRequest d.link true)
    ⟨live, rfl⟩ ?_
  intro event d r d' before ran
  obtain ⟨⟨live, whole⟩, pins⟩ := before
  cases event with
  | update fate hook prog sys pinned =>
      obtain rfl : pinned = true := pins
      simp only [linkStep] at ran
      cases update : bfLinkUpdate fate d.link hook prog sys with
      | error death =>
          rw [update] at ran
          cases ran
      | ok result =>
          obtain ⟨⟨r', link'⟩, sys'⟩ := result
          rw [update] at ran
          cases ran
          refine ⟨?_, rfl⟩
          cases bfLinkUpdate_inv update with
          | refused e => exact live
          | replaced opts nf present type => rfl
          | inPlace fd notNf present type => rfl
  | restart =>
      obtain ⟨fd, running⟩ := Option.isSome_iff_exists.mp live
      have opened : d.pins "bf_link" = .ok fd := by
        rw [whole]
        simp [LinkDaemon.pins, LinkDaemon.afterRequest, running]
      have loaded : bfLinkNewFromPack (some d.pins) d.saved =
          .ok { hookopts := d.link.hookopts, fd := some fd } := by
        have saved : d.saved = bfLinkPack d.link := congrArg LinkDaemon.saved whole
        rw [saved, bfLinkNewFromPack_pack, opened]
        rfl
      simp only [linkStep, loaded] at ran
      cases ran
      have same : ({ hookopts := d.link.hookopts, fd := some fd } : BfLink) = d.link := by
        rw [← running]
      rw [same]
      exact ⟨live, whole⟩

/-- **The priorities stay in step.**  A Netfilter link was attached with two distinct priorities.
After any updates, successful or not, and restarts: as long as it lives, `priorities[0]` is the
priority of the kernel link and the pair is the one it was attached with, and an update that
replaces the kernel link creates the new one with the priority of the pair the old one has not.
It lives as long as the requests can pin what they leave. -/
theorem nf_priorities_in_step {opts : BfHookopts} {prog : BfProg} {link : BfLink} {pinned : Bool}
    {d : LinkDaemon} (nf : bfHookToFlavor prog.chain.hook = .nf)
    (distinct : opts.prios.1 ≠ opts.prios.2)
    (attached : bfLinkAttach fate {} prog.chain.hook opts prog s = .ok ((.ok, link), s'))
    (run : Run linkStep (fun _ _ => True) (.afterRequest link pinned) d) :
    (∀ fd : KernelLink, d.link.fd = some fd →
      (∃ now, d.link.hookopts = some now ∧ fd.priority = some now.prios.1 ∧
        s(now.prios.1, now.prios.2) = s(opts.prios.1, opts.prios.2)) ∧
      ∀ (fate : Fate) (hook : BfHook) (prog : BfProg) (s s' : Sys) (link' : BfLink),
        bfHookToFlavor hook = .nf →
        bfLinkUpdate fate d.link hook prog s = .ok ((none, link'), s') →
        ∃ old new fd', link'.fd = some fd' ∧ fd.priority = some old ∧ fd'.priority = some new ∧
          s(old, new) = s(opts.prios.1, opts.prios.2) ∧ new ≠ old) ∧
    (pinned = true → Run linkStep (fun event _ => event.pins) (.afterRequest link pinned) d →
      d.link.fd.isSome = true) := by
  have begins : link.InStep s(opts.prios.1, opts.prios.2) := (bfLinkAttach_inv attached).inStep nf
  have inStep : d.InStep s(opts.prios.1, opts.prios.2) := by
    apply run.invariant
    · exact .afterRequest (.inr begins) pinned
    · intro event
      exact (linkStep_inStep _ event).weaken (fun _ both => both.1) (fun _ _ after => after)
  refine ⟨fun fd live => ?_, ?_⟩
  · obtain lost | ⟨now, fd', options, running, priority, pair⟩ := inStep.link
    · rw [lost] at live
      cases live
    obtain rfl : fd' = fd := Option.some.inj (running.symm.trans live)
    refine ⟨⟨now, options, priority, pair⟩, ?_⟩
    intro fate hook prog s s' link' nf update
    cases bfLinkUpdate_inv update with
    | replaced opts' _ present type =>
        obtain rfl : opts' = now := Option.some.inj (present.symm.trans options)
        refine ⟨opts'.prios.1, opts'.prios.2, _, rfl, priority, newLink_swapped nf, pair, ?_⟩
        -- The pair is not a double one, in whichever order it stands.
        intro same
        rw [same, Sym2.eq_iff] at pair
        obtain ⟨first, second⟩ | ⟨first, second⟩ := pair
        · exact distinct (first.symm.trans second)
        · exact distinct (second.symm.trans first)
    | inPlace fd notNf present type => exact absurd nf notNf
  · rintro rfl pins
    obtain ⟨_, _, _, running, -⟩ := begins
    exact (link_stays_live (Option.isSome_iff_exists.mpr ⟨_, running⟩) pins).1

/-! A link with the priorities 10 and 11 is updated and the daemon restarted. -/

def nfProg : BfProg :=
  let chain := bfChainNew "chain" .nfLocalIn .accept [] []
  { chain, code := bfProgramNew sampleHost chain sampleMaps, id := 1 }

/-- The link `bf_link_attach` leaves, and the one after an update. -/
def firstLink : BfLink where
  hookopts := some nfOpts
  fd := some (newLink nfDaemon.sys nfProg .nfLocalIn nfOpts)

def secondLink : BfLink where
  hookopts := some nfOpts.swapped
  fd := some (newLink nfDaemon.sys nfProg .nfLocalIn nfOpts.swapped)

theorem restarted_link_in_step :
    ∃ d fd now, Run linkStep (fun event _ => event.pins) (.afterRequest firstLink true) d ∧
      d.link.fd = some fd ∧ d.link.hookopts = some now ∧ fd.priority = some now.prios.1 ∧
      s(now.prios.1, now.prios.2) = s(10, 11) := by
  have attached : bfLinkAttach {} {} nfProg.chain.hook nfOpts nfProg nfDaemon.sys =
      .ok ((.ok, firstLink), nfDaemon.sys.linkUp .nfLocalIn nfOpts) := rfl
  have update : linkStep (.update {} .nfLocalIn nfProg nfDaemon.sys true)
      (.afterRequest firstLink true) = .ok (none, .afterRequest secondLink true) := rfl
  have restart : linkStep .restart (.afterRequest secondLink true) =
      .ok (none, .afterRequest secondLink true) := rfl
  have pinned : LinkEvent.pins (.update {} .nfLocalIn nfProg nfDaemon.sys true) := rfl
  have reloads : LinkEvent.pins .restart := trivial
  have pins : Run linkStep (fun event _ => event.pins) (.afterRequest firstLink true)
      (.afterRequest secondLink true) := .tail (.tail .refl pinned update) reloads restart
  have run : Run linkStep (fun _ _ => True) (.afterRequest firstLink true)
      (.afterRequest secondLink true) := .tail (.tail .refl trivial update) trivial restart
  obtain ⟨inStep, lives⟩ := nf_priorities_in_step rfl (by decide) attached run
  obtain ⟨fd, live⟩ := Option.isSome_iff_exists.mp (lives rfl pins)
  obtain ⟨⟨now, options, priority, pair⟩, -⟩ := inStep fd live
  exact ⟨_, fd, now, pins, live, options, priority, pair⟩

end Bpfilter

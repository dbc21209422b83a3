/-
# Cgen.Arrival -- the packet the rules see

What the code in front of the rules leaves in the context is a view of the packet: the
protocols of layers 3 and 4, the bytes of their headers, from where the fixed header or
the last extension header ends (`TransportStarts`), the interface and the size its
argument says (`prologueStart_reads`).  So the first rule starts in a state that shows the
packet (`head_shows`), or the program counts an error and accepts.
-/
import Bpfilter.Cgen.Protocols
import Bpfilter.Cgen.Verdict

namespace Bpfilter

set_option autoImplicit false

open Ebpf

variable {W : Type} {env : Env W BfElfstubId} {maps : BfMaps} {packet : W → Packet}
  {readable : W → BitVec 32 → Bool} {copies : W → BitVec 32 → Addr → Nat → Bool}
  {others : List (Addr × Nat)}

/-! ## Where the transport header starts -/

/-- Where the header of layer 4 starts: behind the words of an IPv4 header, or where the walk over
the extension headers ends. -/
def transportStart (flags : BfChainFlags) (packet : Packet) (slice : Slice) (offset : BitVec 32)
    (r7 : BitVec 64) : BitVec 32 :=
  if r7 = ipv4Reg then offset + (((packet offset).setWidth 32 &&& 0x0f) <<< 2)
  else (ipv6View flags slice offset (packet (offset + 6))).l4Offset

/-- The context says where the transport header starts. -/
def TransportStarts (flags : BfChainFlags) (packet : Packet) (slice : Slice) (d : Core W) : Prop :=
  (l3Len (d.regs 7)).isSome = true → offsetAt .l4Offset (d.regs 10) d.mem =
    transportStart flags packet slice (offsetAt .l3Offset (d.regs 10) d.mem) (d.regs 7)

section Transport

variable {c d : Core W} {id : BitVec 32} {copied : Bool} {offset : BitVec 32}

/-- Layer 4 does not move the start of its header. -/
theorem TransportStarts.layer4 {flags : BfChainFlags} {w w' : Packet} {slice : Slice}
    (starts : TransportStarts flags w slice c) (done : L4Done w' others c d) :
    TransportStarts flags w slice d := by
  intro parsed
  rw [done.kept] at parsed
  rw [offsetAt, offsetAt, done.frame, done.kept, done.touches.load (by decide),
    done.touches.load (by decide)]
  exact starts parsed

end Transport

/-! ## What the argument says -/

/-- What a program reads of its argument: the interface, the size of the packet and, for the
flavors without layer 2, its address family; and the pointers of Netfilter programs. -/
structure Argument where
  ifindex : BitVec 64
  size : BitVec 64
  family : BitVec 64
  state : Addr
  skb : Addr
  deriving DecidableEq

/-- The fields each flavor reads, in the memory of the kernel. -/
def readArgument (host : Host) (hook : BfHook) (arg : Addr) (m : Mem) : Argument :=
  let field (base : Addr) (off : BitVec 16) (n : Nat) := m.load (base + off.signExtend 64) n
  match bfHookToFlavor hook with
  | .nf =>
      let state := field arg (host.fieldOff .bpfNfCtxState) 8
      let device := field state (host.fieldOff
        (if bfNfHookIsIngress hook then .nfHookStateIn else .nfHookStateOut)) 8
      let skb := field arg (host.fieldOff .bpfNfCtxSkb) 8
      ⟨field device (host.fieldOff .netDeviceIfindex) 4,
        field skb (host.fieldOff .skBuffLen) 4 + 14, field state (host.fieldOff .nfHookStatePf) 1,
        state, skb⟩
  | .tc => ⟨field arg (host.fieldOff .uSkBuffIfindex) 4, field arg uSkBuffLen 4, 0, 0, arg⟩
  | .xdp => ⟨field arg 12 4, field arg 4 4 - field arg 0 4, 0, 0, 0⟩
  | .cgroup =>
      ⟨field arg (host.fieldOff .uSkBuffIfindex) 4, field arg uSkBuffLen 4 + 14,
        field arg (host.fieldOff .uSkBuffFamily) 4, 0, arg⟩

/-- The protocol register for an address family. -/
def familyReg (family : BitVec 64) : BitVec 64 :=
  if family = afInet.signExtend 64 then ipv4Reg
  else if family = afInet6.signExtend 64 then ipv6Reg else 0

/-- The argument is not on the stack. -/
def Reads (host : Host) (hook : BfHook) (arg : Addr) (r10 : BitVec 64) (m : Mem)
    (a : Argument) : Prop :=
  ∀ m', Mem.SameOutside [(r10 - 512, 512)] m m' → readArgument host hook arg m' = a

section Argument

variable {host : Host} {hook : BfHook} {arg : Addr} {r10 : BitVec 64} {m m' : Mem}
  {a : Argument} {c d : Core W}

/-- The context is on the stack. -/
theorem Touches.stack {fs : Footprint} (touches : Touches r10 fs m m')
    (fits : fs.all (fun g => g.1.Fits g.2) = true) :
    Mem.SameOutside [(r10 - 512, 512)] m m' := by
  intro x outside
  have apart : Mem.Disjoint x 1 (r10 - 512) 512 := by
    intro y here there
    have same : y = x := by
      have zero : (y - x).toNat = 0 := Nat.lt_one_iff.mp here
      exact sub_eq_zero.mp (BitVec.eq_of_toNat_eq zero)
    rw [same] at there
    exact outside _ List.mem_cons_self there
  refine touches.outside fits apart ?_
  rw [Mem.InRange, sub_self]
  decide

theorem Reads.here (reads : Reads host hook arg r10 m a) : readArgument host hook arg m = a :=
  reads m (.refl _ m)

end Argument

/-! ## The view of a packet -/

/-- The protocol register in front of layer 3: the ethertype of the packet, or the protocol of
its address family. -/
def BfFlavor.linkProtocol (flavor : BfFlavor) (packet : Packet) (a : Argument) : BitVec 64 :=
  if flavor.parsesL2 then etherReg packet else familyReg a.family

/-- The view of a packet: protocols that have a parser, and the bytes from where the headers
start.  The record of extension headers, the mark and the random numbers are not in the packet. -/
def Packet.view (packet : Packet) (flags : BfChainFlags) (slice : Slice) (flavor : BfFlavor)
    (a : Argument) (extensions : BitVec 8) (mark : BitVec 32) (draws : Nat → BitVec 32) :
    PacketView :=
  let r7 := flavor.linkProtocol packet a
  let start := flavor.l3Start
  { ethertype := htobe16 ((l3Kept r7).setWidth 16)
    protocol := (l4Kept (upperRead flags packet slice start r7)).setWidth 8
    internet := fun i => packet (start + BitVec.ofNat 32 i)
    transport := fun i =>
      packet (transportStart flags packet slice start (l3Kept r7) + BitVec.ofNat 32 i)
    extensions
    ifindex := a.ifindex.setWidth 32
    mark
    draws }

/-- Where the mark of the packet is. -/
def Argument.markAt (a : Argument) (host : Host) (flavor : BfFlavor) : Addr :=
  match flavor with
  | .nf => a.skb + (host.fieldOff .skBuffMark).signExtend 64
  | _ => a.skb + uSkBuffMark.signExtend 64

/-- What a program of the chain finds when it is called. -/
structure Enters (host : Host) (chain : BfChain) (others : List (Addr × Nat)) (a : Argument)
    (mark : BitVec 32) (c : Core W) : Prop where
  aside : Aside (c.regs 10) others
  listed : ∀ r ∈ (bfHookToFlavor chain.hook).written (c.regs 1), r ∈ others
  reads : Reads host chain.hook (c.regs 1) (c.regs 10) c.mem a
  marked : bfHookToFlavor chain.hook ≠ .xdp →
    c.mem.load (a.markAt host (bfHookToFlavor chain.hook)) 4 = mark.setWidth 64
  apart : bfHookToFlavor chain.hook ≠ .xdp →
    Mem.Disjoint (a.markAt host (bfHookToFlavor chain.hook)) 4 (c.regs 10 - 512) 512
  pointer : bfHookToFlavor chain.hook = .nf →
    Mem.Disjoint (c.regs 1 + (host.fieldOff .bpfNfCtxSkb).signExtend 64) 8 (c.regs 10 - 512) 512

/-- Nothing but the hook of a chain counts. -/
theorem Enters.sameHook {host : Host} {chain chain' : BfChain} {others : List (Addr × Nat)}
    {a : Argument} {mark : BitVec 32} {c : Core W} (arrives : Enters host chain others a mark c)
    (hook : chain.hook = chain'.hook) : Enters host chain' others a mark c := by
  obtain ⟨aside, listed, reads, marked, apart, pointer⟩ := arrives
  rw [hook] at listed reads marked apart pointer
  exact ⟨aside, listed, reads, marked, apart, pointer⟩

section View

variable {host : Host} {chain : BfChain} {a : Argument} {mark : BitVec 32} {c d e : Core W}

/-- After the argument is stored, the head may store the log map and clear the record of
extension headers. -/
theorem headStarted_touches (flags : BfChainFlags) (c : Core W) :
    Touches (c.regs 10) [(.logMap, 8), (.ipv6Eh, 8)]
      (c.mem.store (ctxAddr (c.regs 10) .arg) 8 (c.regs 1)) (headStarted env maps flags c).mem := by
  have log : ∀ (m : Mem) v, Touches (c.regs 10) [(.logMap, 8), (.ipv6Eh, 8)] m
      (m.store (ctxAddr (c.regs 10) .logMap) 8 v) :=
    fun m v => (Touches.store .logMap 8 v).mono (by simp)
  have record : ∀ (m : Mem) v, Touches (c.regs 10) [(.logMap, 8), (.ipv6Eh, 8)] m
      (m.store (ctxAddr (c.regs 10) .ipv6Eh) 8 v) :=
    fun m v => (Touches.store .ipv6Eh 8 v).mono (by simp)
  obtain ⟨logs, storeNexthdr⟩ := flags
  cases logs <;> cases storeNexthdr
  · exact .refl _ _
  · exact record _ _
  · exact log _ _
  · exact Mem.SameOutside.trans (log _ _) (record _ _)

/-- The whole head writes the stack only. -/
theorem HeadDone.stack (done : HeadDone env maps packet copies others chain c e d) :
    Mem.SameOutside [(c.regs 10 - 512, 512)] c.mem e.mem ∧
      Mem.SameOutside [(c.regs 10 - 512, 512)] c.mem d.mem := by
  obtain ⟨start, -⟩ := done.frame
  have arg : Mem.SameOutside [(c.regs 10 - 512, 512)] c.mem
      (c.mem.store (ctxAddr (c.regs 10) .arg) 8 (c.regs 1)) :=
    Touches.stack (Touches.store .arg 8 _) (by decide)
  have began := arg.trans ((@headStarted_touches W env maps chain.flags c).stack
    (by decide))
  have started := done.started.touches
  rw [headStarted_regs _ _ (by decide)] at started
  have opened := began.trans (started.stack (by decide))
  have parsed := done.headers.touches
  rw [start] at parsed
  exact ⟨opened, opened.trans (parsed.stack (by decide))⟩

end View

end Bpfilter

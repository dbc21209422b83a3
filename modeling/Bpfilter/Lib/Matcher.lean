/-
# Lib.Matcher -- matcher types, operators and the matcher table

A matcher is a type, an operator and a payload of raw bytes
(`libbpfilter/matcher.c`).  The static table `_bf_matcher_metas` says, for each
type, which protocol header it reads, where in that header, how many bytes, and
which operators it supports with which payload size.  `bfMatcherGetMeta` and
`bfMatcherGetOps` are the two lookups everything else goes through: a type
without an entry has no metadata, an operator with payload size 0 is unsupported.

The parse and print callbacks of the table belong to the text front end and are
not part of this module.
-/
import Bpfilter.Ebpf.Memory

namespace Bpfilter

set_option autoImplicit false

open Ebpf (Byte)

/-! ## Error codes and byte order -/

/-- The negative `errno` values the modelled functions return. -/
inductive Errno where
  | eperm | enoent | eio | e2big | ebadf | enomem | efault | ebusy | eexist | einval | edom
  | enotsup | enolink | erange
  deriving DecidableEq, Repr

/-- `INT_MAX` -/
def intMax : Nat := 2147483647

/-- A sequence of fallible steps succeeds when each of them does. -/
theorem bind_eq_ok {ε α β : Type} {x : Except ε α} {f : α → Except ε β} {b : β}
    (ok : x.bind f = .ok b) : ∃ a, x = .ok a ∧ f a = .ok b := by
  cases x with
  | error e => cases ok
  | ok a => exact ⟨a, rfl, ok⟩

/-- `htobe16` (also `htons`) on a little-endian host. -/
def htobe16 (x : BitVec 16) : BitVec 16 := x.setWidth 8 ++ (x >>> 8).setWidth 8

/-- Value of a little-endian byte string: how the host reads an integer from raw
bytes. -/
def leBits (w : Nat) (bytes : List Byte) : BitVec w := BitVec.ofNat w (Ebpf.Mem.leValue bytes)

/-! ## Protocol numbers -/

def ethPIp : BitVec 16 := 0x0800

def ethPIpv6 : BitVec 16 := 0x86DD

def ipprotoHopopts : BitVec 8 := 0

def ipprotoIcmp : BitVec 8 := 1

def ipprotoTcp : BitVec 8 := 6

def ipprotoUdp : BitVec 8 := 17

def ipprotoRouting : BitVec 8 := 43

def ipprotoFragment : BitVec 8 := 44

def ipprotoAh : BitVec 8 := 51

def ipprotoIcmpv6 : BitVec 8 := 58

def ipprotoDstopts : BitVec 8 := 60

def ipprotoMh : BitVec 8 := 135

/-! ## Matchers -/

inductive BfMatcherType where
  | metaIface
  | metaL3Proto
  | metaL4Proto
  | metaProbability
  | metaSport
  | metaDport
  | metaMark
  | ip4Saddr
  | ip4Snet
  | ip4Daddr
  | ip4Dnet
  | ip4Proto
  | ip6Saddr
  | ip6Snet
  | ip6Daddr
  | ip6Dnet
  | ip6Nexthdr
  | tcpSport
  | tcpDport
  | tcpFlags
  | udpSport
  | udpDport
  | icmpType
  | icmpCode
  | icmpv6Type
  | icmpv6Code
  | set
  deriving DecidableEq, Repr

inductive BfMatcherOp where
  | eq | ne | any | all | inSet | range
  deriving DecidableEq, Repr

inductive BfMatcherLayer where
  | noLayer | layer2 | layer3 | layer4
  deriving DecidableEq, Repr

structure BfMatcher where
  type : BfMatcherType
  op : BfMatcherOp
  payload : List Byte
  deriving DecidableEq, Repr

namespace BfMatcher

/-- `*(uint8_t *)bf_matcher_payload(matcher)` -/
def payloadU8 (m : BfMatcher) : BitVec 8 := leBits 8 (m.payload.take 1)

/-- `((uint16_t *)bf_matcher_payload(matcher))[i]` -/
def payloadU16 (m : BfMatcher) (i : Nat) : BitVec 16 := leBits 16 ((m.payload.drop (2 * i)).take 2)

/-- `((uint32_t *)bf_matcher_payload(matcher))[i]` -/
def payloadU32 (m : BfMatcher) (i : Nat) : BitVec 32 := leBits 32 ((m.payload.drop (4 * i)).take 4)

end BfMatcher

/-! ## The matcher table -/

/-- Entry of `_bf_matcher_metas`; `ops` lists the payload size of each supported
operator. -/
structure BfMatcherMeta where
  layer : BfMatcherLayer
  hdrId : BitVec 32 := 0
  hdrPayloadSize : Nat := 0
  hdrPayloadOffset : Nat := 0
  ops : List (BfMatcherOp × Nat)
  deriving DecidableEq, Repr

/-- `sizeof(struct bf_ip4_lpm_key)`: prefix length and address. -/
def sizeofIp4LpmKey : Nat := 8

/-- `sizeof(struct bf_ip6_lpm_key)`: prefix length, address and padding. -/
def sizeofIp6LpmKey : Nat := 24

/-- Equality, inequality and set membership, all with one payload size. -/
def eqNeIn (size : Nat) : List (BfMatcherOp × Nat) := [(.eq, size), (.ne, size), (.inSet, size)]

/-- The operators of the metadata port matchers. -/
def metaPortOps : List (BfMatcherOp × Nat) := [(.eq, 2), (.ne, 2), (.range, 4)]

/-- The operators of the TCP and UDP port matchers. -/
def l4PortOps : List (BfMatcherOp × Nat) := [(.eq, 2), (.ne, 2), (.inSet, 2), (.range, 4)]

def ip4Meta (size offset : Nat) (ops : List (BfMatcherOp × Nat)) : BfMatcherMeta :=
  { layer := .layer3, hdrId := ethPIp.setWidth 32, hdrPayloadSize := size,
    hdrPayloadOffset := offset, ops }

def ip6Meta (size offset : Nat) (ops : List (BfMatcherOp × Nat)) : BfMatcherMeta :=
  { layer := .layer3, hdrId := ethPIpv6.setWidth 32, hdrPayloadSize := size,
    hdrPayloadOffset := offset, ops }

def l4Meta (proto : BitVec 8) (size offset : Nat) (ops : List (BfMatcherOp × Nat)) :
    BfMatcherMeta :=
  { layer := .layer4, hdrId := proto.setWidth 32, hdrPayloadSize := size,
    hdrPayloadOffset := offset, ops }

/-- `_bf_matcher_metas`, read through `bf_matcher_get_meta`. -/
def bfMatcherGetMeta : BfMatcherType → Option BfMatcherMeta
  | .metaIface => some { layer := .noLayer, ops := [(.eq, 4)] }
  | .metaL3Proto => some { layer := .noLayer, ops := [(.eq, 2)] }
  | .metaL4Proto => some { layer := .noLayer, ops := [(.eq, 2), (.ne, 2)] }
  | .metaSport => some { layer := .noLayer, ops := metaPortOps }
  | .metaDport => some { layer := .noLayer, ops := metaPortOps }
  | .metaProbability => some { layer := .noLayer, ops := [(.eq, 1)] }
  | .metaMark => some { layer := .noLayer, ops := [(.eq, 4), (.ne, 4)] }
  | .ip4Saddr => some (ip4Meta 4 12 (eqNeIn 4))
  | .ip4Daddr => some (ip4Meta 4 16 (eqNeIn 4))
  | .ip4Snet => some (ip4Meta 4 12 (eqNeIn sizeofIp4LpmKey))
  | .ip4Dnet => some (ip4Meta 4 16 (eqNeIn sizeofIp4LpmKey))
  | .ip4Proto => some (ip4Meta 1 9 (eqNeIn 1))
  | .ip6Saddr => some (ip6Meta 16 8 (eqNeIn 16))
  | .ip6Daddr => some (ip6Meta 16 24 (eqNeIn 16))
  | .ip6Snet => some (ip6Meta 16 8 (eqNeIn sizeofIp6LpmKey))
  | .ip6Dnet => some (ip6Meta 16 24 (eqNeIn sizeofIp6LpmKey))
  | .ip6Nexthdr => some (ip6Meta 1 6 (eqNeIn 1))
  | .tcpSport => some (l4Meta ipprotoTcp 2 0 l4PortOps)
  | .tcpDport => some (l4Meta ipprotoTcp 2 2 l4PortOps)
  | .tcpFlags => some (l4Meta ipprotoTcp 1 13 [(.eq, 1), (.ne, 1), (.any, 1), (.all, 1)])
  | .udpSport => some (l4Meta ipprotoUdp 2 0 l4PortOps)
  | .udpDport => some (l4Meta ipprotoUdp 2 2 l4PortOps)
  | .icmpType => some (l4Meta ipprotoIcmp 1 0 (eqNeIn 1))
  | .icmpCode => some (l4Meta ipprotoIcmp 1 1 (eqNeIn 1))
  | .icmpv6Type => some (l4Meta ipprotoIcmpv6 1 0 (eqNeIn 1))
  | .icmpv6Code => some (l4Meta ipprotoIcmpv6 1 1 (eqNeIn 1))
  | .set => none

/-- `bf_matcher_get_ops(type, op)`: the payload size of a supported operator. -/
def bfMatcherGetOps (type : BfMatcherType) (op : BfMatcherOp) : Option Nat :=
  (bfMatcherGetMeta type).bind fun m => m.ops.lookup op

/-- The network types, whose sets are longest-prefix-match tries. -/
def BfMatcherType.isNet : BfMatcherType → Bool
  | .ip4Snet => true
  | .ip4Dnet => true
  | .ip6Snet => true
  | .ip6Dnet => true
  | _ => false

end Bpfilter

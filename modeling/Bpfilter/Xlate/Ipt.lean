/-
# Xlate.Ipt -- iptables entries and rules

The two translations of `xlate/ipt/ipt.c` between `struct ipt_entry` and
`struct bf_rule`, one for each direction.  Addresses and masks are in network
byte order; a field is modelled by the integer a little-endian host reads from it,
so a mask of `n` leading bits is `netmask n`.

Both directions can run into undefined behaviour: `__builtin_ctz(0)` in the first,
a shift by the width of the operand in the second.  They return `.undefined` then.
`target` is what `ipt_get_target` finds behind the entry.
-/
import Bpfilter.Lib.Chain
import Bpfilter.Lib.Payload
import Bpfilter.Cgen.Program

namespace Bpfilter

set_option autoImplicit false

open Ebpf (Byte)

/-! ## Entries -/

/-- `IPT_INV_SRCIP` -/
def iptInvSrcip : BitVec 8 := 0x08

/-- `IPT_INV_DSTIP` -/
def iptInvDstip : BitVec 8 := 0x10

/-- `IPT_INV_PROTO` -/
def iptInvProto : BitVec 8 := 0x40

/-- `struct ipt_ip`, without the fields nothing here reads. -/
structure IptIp where
  src : BitVec 32 := 0
  dst : BitVec 32 := 0
  smsk : BitVec 32 := 0
  dmsk : BitVec 32 := 0
  iniface : List Byte := []
  outiface : List Byte := []
  proto : BitVec 16 := 0
  invflags : BitVec 8 := 0
  deriving DecidableEq, Repr

/-- `struct ipt_standard_target`: a target with the verdict behind it. -/
structure IptTarget where
  name : String := ""
  targetSize : BitVec 16 := 0
  verdict : BitVec 32 := 0
  deriving DecidableEq, Repr

structure IptEntry where
  ip : IptIp := {}
  targetOffset : BitVec 16 := 0
  nextOffset : BitVec 16 := 0
  target : IptTarget := {}
  deriving DecidableEq, Repr

/-- `sizeof(struct ipt_entry)` -/
def sizeofIptEntry : Nat := 112

/-- `sizeof(struct xt_standard_target)` -/
def sizeofStandardTarget : Nat := 40

def IptIp.inverted (ip : IptIp) (flag : BitVec 8) : Bool := ip.invflags &&& flag ≠ 0

/-! ## Targets -/

/-- `_bf_ipt_target_to_verdict`: `-verdict - 1` is `NF_ACCEPT` or `NF_DROP`. -/
def bfIptTargetToVerdict (tgt : IptTarget) : Except GenErr BfVerdict :=
  if tgt.name = "" then
    if 0 ≤ tgt.verdict.toInt then .error (.errno .enotsup)
    else if -tgt.verdict.toInt - 1 = 1 then .ok .accept
    else if -tgt.verdict.toInt - 1 = 0 then .ok .drop
    else .error (.errno .enotsup)
  else .error (.errno .enotsup)

/-- `_bf_verdict_to_ipt_target` -/
def bfVerdictToIptTarget (verdict : BfVerdict) (tgt : IptTarget) : Except GenErr IptTarget :=
  match verdict with
  | .accept => .ok { tgt with verdict := -2, targetSize := BitVec.ofNat 16 sizeofStandardTarget }
  | .drop => .ok { tgt with verdict := -1, targetSize := BitVec.ofNat 16 sizeofStandardTarget }
  | .continue => .error (.errno .enotsup)

/-! ## From entry to rule -/

/-- `__builtin_ctz` -/
def builtinCtz (x : BitVec 32) : Except GenErr (BitVec 32) :=
  if x = 0 then .error .undefined else .ok x.ctz

/-- The block for one address of an entry: no matcher, an address or a network. -/
def iptAddrMatcher (addrType netType : BfMatcherType) (addr mask : BitVec 32) (inverted : Bool) :
    Except GenErr (List BfMatcher) :=
  let op : BfMatcherOp := if inverted then .ne else .eq
  if addr ≠ 0 ∨ mask ≠ 0 then
    if mask = 0xffffffff then .ok [⟨addrType, op, leBytes32 addr⟩]
    else do
      let prefixlen ← builtinCtz mask
      .ok [⟨netType, op, leBytes32 prefixlen ++ leBytes32 addr⟩]
  else .ok []

/-- Match on the source address. -/
def iptSrcMatcher (ip : IptIp) : Except GenErr (List BfMatcher) :=
  iptAddrMatcher .ip4Saddr .ip4Snet ip.src ip.smsk (ip.inverted iptInvSrcip)

/-- Match on the destination address. -/
def iptDstMatcher (ip : IptIp) : Except GenErr (List BfMatcher) :=
  iptAddrMatcher .ip4Daddr .ip4Dnet ip.dst ip.dmsk (ip.inverted iptInvDstip)

/-- Match on the protocol field, which has to fit a byte. -/
def iptProtoMatcher (ip : IptIp) : Except GenErr (List BfMatcher) :=
  if ip.proto ≠ 0 then
    if (ip.proto.setWidth 8).setWidth 16 ≠ ip.proto then .error (.errno .einval)
    else .ok [⟨.ip4Proto, .eq, [ip.proto.setWidth 8]⟩]
  else .ok []

/-- `_bf_ipt_entry_to_rule` -/
def bfIptEntryToRule (entry : IptEntry) : Except GenErr BfRule :=
  if sizeofIptEntry < entry.targetOffset.toNat then .error (.errno .enotsup)
  else if entry.ip.iniface.headD 0 ≠ 0 ∨ entry.ip.outiface.headD 0 ≠ 0 then
    .error (.errno .enotsup)
  else do
    let src ← iptSrcMatcher entry.ip
    let dst ← iptDstMatcher entry.ip
    let proto ← iptProtoMatcher entry.ip
    let verdict ← bfIptTargetToVerdict entry.target
    .ok { matchers := src ++ dst ++ proto, counters := true, verdict }

/-! ## From rule to entry -/

/-- `(~(uint32_t)0) << (32 - prefixlen)`, in host order.  The count is an unsigned
difference; from 32 on the shift is undefined. -/
def hostPrefixMask (prefixlen : BitVec 32) : Except GenErr (BitVec 32) :=
  if 32 ≤ (32 - prefixlen).toNat then .error .undefined
  else .ok ((0xffffffff : BitVec 32) <<< (32 - prefixlen).toNat)

/-- One matcher of `_bf_rule_to_ipt_entry`. -/
def iptIpOfMatcher (ip : IptIp) (m : BfMatcher) : Except GenErr IptIp :=
  let flagged (flag : BitVec 8) : BitVec 8 :=
    if m.op = .ne then ip.invflags ||| flag else ip.invflags
  match m.type with
  | .ip4Saddr =>
      .ok { ip with
        invflags := flagged iptInvSrcip, src := m.payloadU32 0, smsk := 0xffffffff }
  | .ip4Snet => do
      let smsk ← hostPrefixMask (m.payloadU32 0)
      .ok { ip with invflags := flagged iptInvSrcip, src := m.payloadU32 1, smsk }
  | .ip4Daddr =>
      .ok { ip with
        invflags := flagged iptInvDstip, dst := m.payloadU32 0, dmsk := 0xffffffff }
  | .ip4Dnet => do
      let dmsk ← hostPrefixMask (m.payloadU32 0)
      .ok { ip with invflags := flagged iptInvDstip, dst := m.payloadU32 1, dmsk }
  | .ip4Proto => .ok { ip with proto := m.payloadU8.setWidth 16 }
  | _ => .error (.errno .enotsup)

/-- `_bf_rule_to_ipt_entry` -/
def bfRuleToIptEntry (rule : BfRule) (entry : IptEntry) : Except GenErr IptEntry := do
  let ip ← rule.matchers.foldlM iptIpOfMatcher entry.ip
  let target ← bfVerdictToIptTarget rule.verdict entry.target
  .ok { entry with ip, target }

/-- An entry as the caller hands it in: zeroed memory with the offsets filled in. -/
def blankEntry : IptEntry where
  targetOffset := BitVec.ofNat 16 sizeofIptEntry
  nextOffset := BitVec.ofNat 16 (sizeofIptEntry + sizeofStandardTarget)

end Bpfilter

/-
# Xlate.IptRoundTrip -- reading an iptables ruleset back

`iptables` reads the ruleset before each modification, so an entry should survive
the translation to a rule and back.  It does when each mask is full, or empty
without address and without inversion, and no other inversion flag is set
(`bfIptEntryToRule_roundTrips_iff`).

The mask is where the two directions differ: the first counts the trailing zeros of
a mask in network order, the second builds one in host order (`returnedMask_iff`).
-/
import Bpfilter.Xlate.IptMatch

namespace Bpfilter

set_option autoImplicit false

open Ebpf

/-- The entry is translated, the rule is translated back, and every field survives. -/
def RoundTrips (entry : IptEntry) : Prop :=
  ∃ rule entry', bfIptEntryToRule entry = .ok rule ∧
    bfRuleToIptEntry rule blankEntry = .ok entry' ∧
    entry'.ip.src = entry.ip.src ∧ entry'.ip.smsk = entry.ip.smsk ∧
    entry'.ip.dst = entry.ip.dst ∧ entry'.ip.dmsk = entry.ip.dmsk ∧
    entry'.ip.proto = entry.ip.proto ∧ entry'.ip.invflags = entry.ip.invflags ∧
    entry'.target.verdict = entry.target.verdict

/-! ## Masks -/

/-- The mask that comes back for a mask of `n` bits. -/
def returnedMask (n : Nat) : Except GenErr (BitVec 32) :=
  if n = 32 then .ok 0xffffffff else hostPrefixMask (BitVec.ofNat 32 (iptPrefixlen n))

/-- Only the full mask comes back unchanged. -/
theorem returnedMask_iff {n : Nat} (pos : 0 < n) (le : n ≤ 32) :
    returnedMask n = .ok (netmask n) ↔ n = 32 := by
  interval_cases n <;> decide

/-- The inversion flags after a matcher. -/
def flagged (inverted : Bool) (flag invflags : BitVec 8) : BitVec 8 :=
  if inverted then invflags ||| flag else invflags

theorem clauseOp_eq_ne {inverted : Bool} : clauseOp inverted = .ne ↔ inverted = true := by
  cases inverted <;> simp [clauseOp]

/-! ## The three parts of an entry -/

section Parts

variable {n : Nat} {addr : BitVec 32} {inverted : Bool} {ms : List BfMatcher}

/-- What reading an address back does to the entry. -/
def readsBack (n : Nat) (ip : IptIp) (put : BitVec 32 → IptIp) : Except GenErr IptIp :=
  if n = 0 then .ok ip else (returnedMask n).map put

/-- The matchers of one address, read back. -/
theorem foldlM_addr {addrType netType : BfMatcherType} {ip : IptIp} (put : BitVec 32 → IptIp)
    (le : n ≤ 32) (ok : iptAddrMatcher addrType netType addr (netmask n) inverted = .ok ms)
    (onAddr : iptIpOfMatcher ip ⟨addrType, clauseOp inverted, leBytes32 addr⟩ =
      .ok (put 0xffffffff))
    (onNet : ∀ prefixlen, iptIpOfMatcher ip
        ⟨netType, clauseOp inverted, leBytes32 prefixlen ++ leBytes32 addr⟩ =
      (hostPrefixMask prefixlen).map put) :
    ms.foldlM iptIpOfMatcher ip = readsBack n ip put := by
  rw [iptAddrMatcher_eq le] at ok
  unfold readsBack returnedMask
  by_cases none : n = 0
  · rw [if_pos none] at ok
    split at ok <;> cases ok
    rw [if_pos none]
    rfl
  · rw [if_neg none] at ok
    rw [if_neg none]
    by_cases all : n = 32
    · rw [if_pos all] at ok
      cases ok
      rw [if_pos all, List.foldlM_cons, onAddr]
      rfl
    · rw [if_neg all] at ok
      cases ok
      rw [if_neg all, List.foldlM_cons, onNet]
      cases hostPrefixMask (BitVec.ofNat 32 (iptPrefixlen n)) <;> rfl

/-- The source address of an entry, read back. -/
def putSrc (ip : IptIp) (addr : BitVec 32) (inverted : Bool) (mask : BitVec 32) : IptIp :=
  { ip with invflags := flagged inverted iptInvSrcip ip.invflags, src := addr, smsk := mask }

/-- The destination address of an entry, read back. -/
def putDst (ip : IptIp) (addr : BitVec 32) (inverted : Bool) (mask : BitVec 32) : IptIp :=
  { ip with invflags := flagged inverted iptInvDstip ip.invflags, dst := addr, dmsk := mask }

theorem foldlM_src (le : n ≤ 32)
    (ok : iptAddrMatcher .ip4Saddr .ip4Snet addr (netmask n) inverted = .ok ms) (ip : IptIp) :
    ms.foldlM iptIpOfMatcher ip = readsBack n ip (putSrc ip addr inverted) := by
  refine foldlM_addr _ le ok ?_ fun prefixlen => ?_
  · simp only [iptIpOfMatcher, payloadU32_addr, clauseOp_eq_ne]
    rfl
  · simp only [iptIpOfMatcher, payloadU32_prefixlen, payloadU32_data, clauseOp_eq_ne]
    cases hostPrefixMask prefixlen <;> rfl

theorem foldlM_dst (le : n ≤ 32)
    (ok : iptAddrMatcher .ip4Daddr .ip4Dnet addr (netmask n) inverted = .ok ms) (ip : IptIp) :
    ms.foldlM iptIpOfMatcher ip = readsBack n ip (putDst ip addr inverted) := by
  refine foldlM_addr _ le ok ?_ fun prefixlen => ?_
  · simp only [iptIpOfMatcher, payloadU32_addr, clauseOp_eq_ne]
    rfl
  · simp only [iptIpOfMatcher, payloadU32_prefixlen, payloadU32_data, clauseOp_eq_ne]
    cases hostPrefixMask prefixlen <;> rfl

theorem readsBack_eq_ok {ip ip' : IptIp} {put : BitVec 32 → IptIp}
    (ok : readsBack n ip put = .ok ip') :
    (n = 0 ∧ ip' = ip) ∨ (n ≠ 0 ∧ ∃ mask, returnedMask n = .ok mask ∧ ip' = put mask) := by
  unfold readsBack at ok
  split at ok
  · rename_i none
    cases ok
    exact .inl ⟨none, rfl⟩
  · rename_i given
    cases back : returnedMask n with
    | error e =>
      rw [back] at ok
      cases ok
    | ok mask =>
      rw [back] at ok
      cases ok
      exact .inr ⟨given, mask, rfl, rfl⟩

/-- The protocol matcher, read back. -/
theorem foldlM_proto {ip₀ : IptIp} (ok : iptProtoMatcher ip₀ = .ok ms) (ip : IptIp)
    (blank : ip.proto = 0) : ms.foldlM iptIpOfMatcher ip = .ok { ip with proto := ip₀.proto } := by
  rw [iptProtoMatcher] at ok
  split at ok
  · split at ok
    · cases ok
    · rename_i fits
      cases ok
      rw [List.foldlM_cons, iptIpOfMatcher]
      simp only [payloadU8_singleton, not_not.mp fits]
      rfl
  · rename_i zero
    cases ok
    rw [not_not.mp zero, ← blank]
    rfl

/-- A verdict read back is the one given. -/
theorem target_back {tgt blank : IptTarget} {verdict : BfVerdict}
    (ok : bfIptTargetToVerdict tgt = .ok verdict) :
    ∃ tgt', bfVerdictToIptTarget verdict blank = .ok tgt' ∧ tgt'.verdict = tgt.verdict := by
  unfold bfIptTargetToVerdict at ok
  split at ok
  · split at ok
    · cases ok
    · split at ok
      · rename_i accept
        cases ok
        refine ⟨_, rfl, (BitVec.eq_of_toInt_eq ?_).symm⟩
        rw [show tgt.verdict.toInt = -2 by omega]
        rfl
      · split at ok
        · rename_i drop
          cases ok
          exact ⟨_, rfl,
            (BitVec.eq_of_toInt_eq (by rw [show tgt.verdict.toInt = -1 by omega]; rfl)).symm⟩
        · cases ok
  · cases ok

end Parts

/-! ## The entry -/

/-- The condition on one address: a full mask, or nothing to match at all. -/
def SideKept (addr : BitVec 32) (n : Nat) (inverted : Bool) : Prop :=
  n = 32 ∨ (n = 0 ∧ addr = 0 ∧ inverted = false)

theorem SideKept.defined {addr : BitVec 32} {n : Nat} {inverted : Bool}
    (kept : SideKept addr n inverted) : AddrDefined addr n := by
  rcases kept with rfl | ⟨-, blank, -⟩
  · exact nofun
  · exact fun _ => blank

/-- The flags that come back are those of the entry when it has no others. -/
theorem flags_back (invflags : BitVec 8) (src dst : Bool) :
    flagged (dst && decide (invflags &&& iptInvDstip ≠ 0)) iptInvDstip
        (flagged (src && decide (invflags &&& iptInvSrcip ≠ 0)) iptInvSrcip 0) = invflags ↔
      (src = false → decide (invflags &&& iptInvSrcip ≠ 0) = false) ∧
        (dst = false → decide (invflags &&& iptInvDstip ≠ 0) = false) ∧
        invflags &&& ~~~(iptInvSrcip ||| iptInvDstip) = 0 := by
  revert invflags
  cases src <;> cases dst <;> decide +kernel

/-- An entry that is translated, read back. -/
theorem bfRuleToIptEntry_eq {entry : IptEntry} {n k : Nat} (le : n ≤ 32) (le' : k ≤ 32)
    (smsk : entry.ip.smsk = netmask n) (dmsk : entry.ip.dmsk = netmask k)
    {src dst proto : List BfMatcher} {verdict : BfVerdict}
    (okS : iptSrcMatcher entry.ip = .ok src) (okD : iptDstMatcher entry.ip = .ok dst)
    (okP : iptProtoMatcher entry.ip = .ok proto)
    (okV : bfIptTargetToVerdict entry.target = .ok verdict) :
    ∃ target, target.verdict = entry.target.verdict ∧
      bfRuleToIptEntry { matchers := src ++ dst ++ proto, counters := true, verdict } blankEntry =
        (readsBack n {} (putSrc {} entry.ip.src (entry.ip.inverted iptInvSrcip))).bind fun ip =>
          (readsBack k ip (putDst ip entry.ip.dst (entry.ip.inverted iptInvDstip))).bind fun ip' =>
            .ok { blankEntry with ip := { ip' with proto := entry.ip.proto }, target } := by
  rw [iptSrcMatcher, smsk] at okS
  rw [iptDstMatcher, dmsk] at okD
  obtain ⟨target, okT, same⟩ := @target_back _ blankEntry.target _ okV
  refine ⟨target, same, ?_⟩
  simp only [bfRuleToIptEntry, List.foldlM_append, okT]
  rw [foldlM_src le okS, show blankEntry.ip = {} from rfl]
  cases first : readsBack n {} (putSrc {} entry.ip.src (entry.ip.inverted iptInvSrcip)) with
  | error e => rfl
  | ok ip =>
    show ((dst.foldlM iptIpOfMatcher ip >>= _) >>= _) =
      (readsBack k ip (putDst ip entry.ip.dst (entry.ip.inverted iptInvDstip))).bind _
    rw [foldlM_dst le' okD]
    cases second : readsBack k ip (putDst ip entry.ip.dst (entry.ip.inverted iptInvDstip)) with
    | error e => rfl
    | ok ip' =>
      have blank : ip'.proto = 0 := by
        rcases readsBack_eq_ok first with ⟨-, rfl⟩ | ⟨-, mask, -, rfl⟩ <;>
          rcases readsBack_eq_ok second with ⟨-, rfl⟩ | ⟨-, mask, -, rfl⟩ <;> rfl
      show (proto.foldlM iptIpOfMatcher ip' >>= _) = _
      rw [foldlM_proto okP ip' blank]
      rfl

theorem sideKept_iff {addr : BitVec 32} {n : Nat} {inverted : Bool} (le : n ≤ 32) :
    SideKept addr n inverted ↔ AddrDefined addr n ∧
      (n ≠ 0 → returnedMask n = .ok (netmask n)) ∧ (decide (n ≠ 0) = false → inverted = false) := by
  by_cases none : n = 0
  · subst none
    simp [SideKept, AddrDefined]
  · rw [SideKept, AddrDefined, returnedMask_iff (Nat.pos_of_ne_zero none) le]
    simp [none]

/-- What comes back, field by field. -/
theorem read_back {n k : Nat} {ip ip' : IptIp} {src dst : BitVec 32} {invS invD : Bool}
    (first : readsBack n {} (putSrc {} src invS) = .ok ip)
    (second : readsBack k ip (putDst ip dst invD) = .ok ip') :
    ip'.invflags = flagged (decide (k ≠ 0) && invD) iptInvDstip
        (flagged (decide (n ≠ 0) && invS) iptInvSrcip 0) ∧
      (n ≠ 0 → ip'.src = src ∧ returnedMask n = .ok ip'.smsk) ∧
      (n = 0 → ip'.src = 0 ∧ ip'.smsk = 0) ∧
      (k ≠ 0 → ip'.dst = dst ∧ returnedMask k = .ok ip'.dmsk) ∧
      (k = 0 → ip'.dst = 0 ∧ ip'.dmsk = 0) := by
  rcases readsBack_eq_ok first with ⟨none, rfl⟩ | ⟨given, mask, maskEq, rfl⟩ <;>
    rcases readsBack_eq_ok second with ⟨none', rfl⟩ | ⟨given', mask', maskEq', rfl⟩ <;>
    simp_all [putSrc, putDst, flagged]

/-- A kept address comes back as it was. -/
theorem SideKept.same {addr addr' mask : BitVec 32} {n : Nat} {inverted : Bool}
    (kept : SideKept addr n inverted)
    (given : n ≠ 0 → addr' = addr ∧ returnedMask n = .ok mask)
    (none : n = 0 → addr' = 0 ∧ mask = 0) : addr' = addr ∧ mask = netmask n := by
  rcases kept with rfl | ⟨rfl, blank, -⟩
  · obtain ⟨sameAddr, sameMask⟩ := given (by decide)
    cases sameMask
    exact ⟨sameAddr, rfl⟩
  · obtain ⟨sameAddr, sameMask⟩ := none rfl
    exact ⟨sameAddr.trans blank.symm, sameMask⟩

theorem readsBack_kept {addr : BitVec 32} {n : Nat} {inverted : Bool} {ip : IptIp}
    {put : BitVec 32 → IptIp} (kept : SideKept addr n inverted) :
    ∃ ip', readsBack n ip put = .ok ip' := by
  rcases kept with rfl | ⟨rfl, -, -⟩ <;> exact ⟨_, rfl⟩

/-- **iptables round trip.**  An entry that is not rejected comes back unchanged exactly when
each mask is full, or empty with no address and no inversion, and no other inversion flag is
set. -/
theorem bfIptEntryToRule_roundTrips_iff {entry : IptEntry} {n k : Nat}
    (le : n ≤ 32) (le' : k ≤ 32) (smsk : entry.ip.smsk = netmask n)
    (dmsk : entry.ip.dmsk = netmask k)
    (accepted : ∀ e, bfIptEntryToRule entry ≠ .error (.errno e)) :
    RoundTrips entry ↔
      SideKept entry.ip.src n (entry.ip.inverted iptInvSrcip) ∧
        SideKept entry.ip.dst k (entry.ip.inverted iptInvDstip) ∧
        entry.ip.invflags &&& ~~~(iptInvSrcip ||| iptInvDstip) = 0 := by
  have onSrc := @iptAddrMatcher_defined .ip4Saddr .ip4Snet entry.ip.src _
    (entry.ip.inverted iptInvSrcip) le
  have onDst := @iptAddrMatcher_defined .ip4Daddr .ip4Dnet entry.ip.dst _
    (entry.ip.inverted iptInvDstip) le'
  rw [← smsk] at onSrc
  rw [← dmsk] at onDst
  rcases onSrc with ⟨defS, src, okS, -⟩ | ⟨undefS, badS⟩
  · rcases onDst with ⟨defD, dst, okD, -⟩ | ⟨undefD, badD⟩
    · obtain ⟨proto, verdict, okP, okV, translated⟩ := bfIptEntryToRule_cases okS okD accepted
      obtain ⟨target, verdictEq, back⟩ := bfRuleToIptEntry_eq le le' smsk dmsk okS okD okP okV
      have flags := flags_back entry.ip.invflags (decide (n ≠ 0)) (decide (k ≠ 0))
      constructor
      · rintro ⟨rule, entry', again, read, hsrc, hsmsk, hdst, hdmsk, -, hflags, -⟩
        cases translated.symm.trans again
        rw [back] at read
        obtain ⟨ip, first, rest⟩ := bind_eq_ok read
        obtain ⟨ip', second, done⟩ := bind_eq_ok rest
        cases done
        obtain ⟨inv, src, -, dst, -⟩ := read_back first second
        obtain ⟨noSrc, noDst, noOther⟩ := flags.mp (inv.symm.trans hflags)
        rw [sideKept_iff le, sideKept_iff le']
        refine ⟨⟨defS, fun given => ?_, noSrc⟩, ⟨defD, fun given => ?_, noDst⟩, noOther⟩
        · rw [(src given).2, ← smsk, ← hsmsk]
        · rw [(dst given).2, ← dmsk, ← hdmsk]
      · rintro ⟨keptS, keptD, noOther⟩
        obtain ⟨ip, first⟩ := @readsBack_kept _ _ _ {} _ keptS
        obtain ⟨ip', second⟩ := @readsBack_kept _ _ _ ip _ keptD
        obtain ⟨inv, src, noSrc, dst, noDst⟩ := read_back first second
        obtain ⟨sameSrc, sameSmsk⟩ := keptS.same src noSrc
        obtain ⟨sameDst, sameDmsk⟩ := keptD.same dst noDst
        rw [sideKept_iff le] at keptS
        rw [sideKept_iff le'] at keptD
        rw [first, Except.bind, second, Except.bind] at back
        exact ⟨_, _, translated, back, sameSrc, sameSmsk.trans smsk.symm, sameDst,
          sameDmsk.trans dmsk.symm, rfl, inv.trans (flags.mpr ⟨keptS.2.2, keptD.2.2, noOther⟩),
          verdictEq⟩
    · refine iff_of_false ?_ fun h => undefD h.2.1.defined
      rintro ⟨rule, entry', translated, -⟩
      exact bfIptEntryToRule_undefined (.inr badD) rule translated
  · refine iff_of_false ?_ fun h => undefS h.1.defined
    rintro ⟨rule, entry', translated, -⟩
    exact bfIptEntryToRule_undefined (.inl badS) rule translated

/-- One source address, any destination: the entry survives. -/
theorem hostEntry_roundTrips : RoundTrips hostEntry := by
  have translated : (bfIptEntryToRule hostEntry).isOk = true := by decide +kernel
  have accepted : ∀ e, bfIptEntryToRule hostEntry ≠ .error (.errno e) := by
    intro e rejected
    rw [rejected] at translated
    cases translated
  refine (bfIptEntryToRule_roundTrips_iff (n := 32) (k := 0) (by decide) (by decide)
    rfl (by decide) accepted).mpr ⟨.inl rfl, ?_, by decide⟩
  exact .inr ⟨rfl, rfl, rfl⟩

/-- 10.0.0.0/4 as a source: translated, and read back with the mask 0.0.0.240. -/
def nibbleEntry : IptEntry where
  ip := { src := 0x0000000a, smsk := netmask 4 }
  targetOffset := 112
  target := { verdict := -1 }

theorem nibbleEntry_not_roundTrips :
    (bfIptEntryToRule nibbleEntry).isOk = true ∧
      ((bfIptEntryToRule nibbleEntry).bind (bfRuleToIptEntry · blankEntry)).toOption.map
        (·.ip.smsk) = some 0xf0000000 ∧ ¬ RoundTrips nibbleEntry := by
  refine ⟨by decide +kernel, by decide +kernel, ?_⟩
  rintro ⟨rule, entry', translated, back, -, smsk, -⟩
  have read : ((bfIptEntryToRule nibbleEntry).bind (bfRuleToIptEntry · blankEntry)).toOption.map
      (·.ip.smsk) = some 0xf0000000 := by decide +kernel
  rw [translated, Except.bind, back] at read
  have returned : some entry'.ip.smsk = some 0xf0000000 := read
  rw [smsk] at returned
  exact absurd returned (by decide)

end Bpfilter

/-
# Xlate.IptMatch -- which packets a translated entry matches

`iptMatches` is the meaning of an entry for iptables: both addresses compared under
their masks and the protocol, each clause negated by its flag.  `Faithful` says that
an entry is translated, that its matchers compile, and that the compiled code agrees
with `iptMatches` on every IPv4 packet.

The translation computes a prefix length as the number of trailing zeros of a mask,
read in host order from network order.  For a mask of `n` leading bits that is
`8 - n` below 8 and 0 from there on (`ctz_netmask`), so the rebuilt mask is right for
4 leading bits only.  `faithful_iff` states when a translation is faithful.  Since
the three clauses are about different fields, it is when each clause is, or when both
sides match nothing at all (`product_iff`).
-/
import Bpfilter.Xlate.Ipt
import Bpfilter.Cgen.Ip4Match
import Mathlib.Tactic.IntervalCases

namespace Bpfilter

set_option autoImplicit false

open Ebpf

/-! ## Conjunctions over independent fields -/

section Products

variable {α β γ : Type} {A A' : α → Prop} {B B' : β → Prop} {C C' : γ → Prop}

/-- Two conjunctions over different fields agree everywhere when their clauses do, or when
both are empty. -/
theorem product_iff :
    (∀ a b c, A a ∧ B b ∧ C c ↔ A' a ∧ B' b ∧ C' c) ↔
      ((∀ a, A a ↔ A' a) ∧ (∀ b, B b ↔ B' b) ∧ (∀ c, C c ↔ C' c)) ∨
        ¬ ((∃ a, A a) ∧ (∃ b, B b) ∧ (∃ c, C c)) ∧
          ¬ ((∃ a, A' a) ∧ (∃ b, B' b) ∧ (∃ c, C' c)) := by
  constructor
  · intro same
    by_cases inhabited : (∃ a, A a) ∧ (∃ b, B b) ∧ (∃ c, C c)
    · obtain ⟨⟨a, hA⟩, ⟨b, hB⟩, ⟨c, hC⟩⟩ := inhabited
      obtain ⟨hA', hB', hC'⟩ := (same a b c).mp ⟨hA, hB, hC⟩
      refine .inl ⟨fun x => ?_, fun x => ?_, fun x => ?_⟩
      · exact ⟨fun h => ((same x b c).mp ⟨h, hB, hC⟩).1,
          fun h => ((same x b c).mpr ⟨h, hB', hC'⟩).1⟩
      · exact ⟨fun h => ((same a x c).mp ⟨hA, h, hC⟩).2.1,
          fun h => ((same a x c).mpr ⟨hA', h, hC'⟩).2.1⟩
      · exact ⟨fun h => ((same a b x).mp ⟨hA, hB, h⟩).2.2,
          fun h => ((same a b x).mpr ⟨hA', hB', h⟩).2.2⟩
    · refine .inr ⟨inhabited, ?_⟩
      rintro ⟨⟨a, hA⟩, ⟨b, hB⟩, ⟨c, hC⟩⟩
      obtain ⟨hA', hB', hC'⟩ := (same a b c).mpr ⟨hA, hB, hC⟩
      exact inhabited ⟨⟨a, hA'⟩, ⟨b, hB'⟩, ⟨c, hC'⟩⟩
  · rintro (⟨onA, onB, onC⟩ | ⟨empty, empty'⟩) a b c
    · rw [onA, onB, onC]
    · constructor
      · rintro ⟨hA, hB, hC⟩
        exact absurd ⟨⟨a, hA⟩, ⟨b, hB⟩, ⟨c, hC⟩⟩ empty
      · rintro ⟨hA, hB, hC⟩
        exact absurd ⟨⟨a, hA⟩, ⟨b, hB⟩, ⟨c, hC⟩⟩ empty'

end Products

/-! ## The meaning of an entry -/

/-- An address clause: equality under a mask, negated by a flag. -/
def addrClause (addr mask : BitVec 32) (inverted : Bool) (field : BitVec 32) : Bool :=
  decide (field &&& mask = addr &&& mask) != inverted

/-- How a negated protocol clause treats entries without protocol: negated like any
other, or matched like the kernel does. -/
inductive ProtoReading where
  | negateAlways | negateGiven
  deriving DecidableEq, Repr

def protoClause (reading : ProtoReading) (ip : IptIp) (protocol : BitVec 8) : Bool :=
  match reading with
  | .negateAlways =>
      decide (ip.proto = 0 ∨ protocol.setWidth 16 = ip.proto) != ip.inverted iptInvProto
  | .negateGiven =>
      decide (ip.proto = 0) || decide (protocol.setWidth 16 = ip.proto) != ip.inverted iptInvProto

/-- The iptables semantics of an entry. -/
def iptMatches (reading : ProtoReading) (ip : IptIp) (pkt : Ip4Packet) : Bool :=
  addrClause ip.src ip.smsk (ip.inverted iptInvSrcip) pkt.saddr &&
    addrClause ip.dst ip.dmsk (ip.inverted iptInvDstip) pkt.daddr &&
    protoClause reading ip pkt.protocol

/-- The entry is translated, the matchers of the rule compile, and their code falls through
on exactly the packets the entry matches. -/
def Faithful (reading : ProtoReading) (entry : IptEntry) : Prop :=
  ∃ rule, bfIptEntryToRule entry = .ok rule ∧
    (∀ p, generateMatchers bfMatcherGenerate rule.matchers p =
      .ok ((), p.append (rule.matchers.flatMap ip4Slots))) ∧
    ∀ (W : Type) (env : Env W BfElfstubId) (maps : BfMaps) (c : Core W) (pkt : Ip4Packet),
      Ip4At pkt c →
        ((∃ d, Runs env ((rule.matchers.flatMap ip4Slots).map (Emitted.link maps)) 0 c
            (.fall d)) ↔
          iptMatches reading entry.ip pkt = true)

/-! ## Masks -/

/-- `htobe32` on a little-endian host. -/
def htobe32 (x : BitVec 32) : BitVec 32 :=
  x.setWidth 8 ++ (x >>> 8).setWidth 8 ++ (x >>> 16).setWidth 8 ++ (x >>> 24).setWidth 8

/-- A mask of `n` leading bits in network order, as the host reads it. -/
def netmask (n : Nat) : BitVec 32 := htobe32 ((0xffffffff : BitVec 32) <<< (32 - n))

/-- The prefix length the translation computes for such a mask. -/
def iptPrefixlen (n : Nat) : Nat := if n < 8 then 8 - n else 0

theorem netmask_eq_zero_iff {n : Nat} (le : n ≤ 32) : netmask n = 0 ↔ n = 0 := by
  interval_cases n <;> decide

theorem netmask_eq_full_iff {n : Nat} (le : n ≤ 32) : netmask n = 0xffffffff ↔ n = 32 := by
  interval_cases n <;> decide

theorem ctz_netmask {n : Nat} (pos : 0 < n) (lt : n < 32) :
    (netmask n).ctz = BitVec.ofNat 32 (iptPrefixlen n) := by
  interval_cases n <;> decide +kernel

/-- The generator rebuilds the mask of a prefix length. -/
theorem leBits_netMask {n : Nat} (le : n ≤ 32) : leBits 32 (netMask 4 n) = netmask n := by
  interval_cases n <;> decide +kernel

theorem netmask_inj {n k : Nat} (le : n ≤ 32) (le' : k ≤ 32) (same : netmask n = netmask k) :
    n = k := by
  have all : ∀ i j : Fin 33, netmask i = netmask j → i = j := by decide +kernel
  have := all ⟨n, by omega⟩ ⟨k, by omega⟩ same
  simpa using this

/-! ## The address clauses of the code -/

/-- The operator of a clause. -/
def clauseOp (inverted : Bool) : BfMatcherOp := if inverted then .ne else .eq

theorem opHolds_clauseOp (inverted agree : Bool) :
    opHolds (clauseOp inverted) agree = (agree != inverted) := by
  cases inverted <;> cases agree <;> rfl

/-- The leading bits the compiled clause compares, for a mask of `n` of them. -/
def comparedBits (n : Nat) : Nat := if n = 32 then 32 else iptPrefixlen n

theorem comparedBits_le (n : Nat) : comparedBits n ≤ 32 := by
  unfold comparedBits iptPrefixlen
  split_ifs <;> omega

/-- What the matcher of an address decides. -/
def codeClause (addr : BitVec 32) (n : Nat) (inverted : Bool) (field : BitVec 32) : Bool :=
  if n = 0 then true else addrClause addr (netmask (comparedBits n)) inverted field

section Clauses

variable {addrType netType : BfMatcherType} {addr : BitVec 32} {n : Nat} {inverted : Bool}

theorem iptAddrMatcher_eq (le : n ≤ 32) :
    iptAddrMatcher addrType netType addr (netmask n) inverted =
      if n = 0 then (if addr = 0 then .ok [] else .error .undefined)
      else if n = 32 then .ok [⟨addrType, clauseOp inverted, leBytes32 addr⟩]
      else .ok [⟨netType, clauseOp inverted,
        leBytes32 (BitVec.ofNat 32 (iptPrefixlen n)) ++ leBytes32 addr⟩] := by
  have zero := netmask_eq_zero_iff le
  have full := netmask_eq_full_iff le
  unfold iptAddrMatcher
  by_cases none : n = 0
  · have isZero := zero.mpr none
    have notFull : (0 : BitVec 32) ≠ 0xffffffff := by decide
    rw [if_pos none, isZero]
    by_cases blank : addr = 0
    · simp [blank]
    · rw [if_pos (.inl blank), if_neg notFull, if_neg blank]
      rfl
  · rw [if_pos (.inr (mt zero.mp none)), if_neg none]
    by_cases all : n = 32
    · rw [if_pos (full.mpr all), if_pos all]
      rfl
    · rw [if_neg (mt full.mp all), if_neg all, builtinCtz, if_neg (mt zero.mp none),
        ctz_netmask (by omega) (by omega)]
      rfl

/-- A translated address compiles to its code clause. -/
theorem iptAddrMatcher_holds (le : n ≤ 32) {ms : List BfMatcher} {pkt : Ip4Packet}
    {field : BitVec 32}
    (translated : iptAddrMatcher addrType netType addr (netmask n) inverted = .ok ms)
    (onAddr : ∀ m : BfMatcher, m.type = addrType →
      ip4Holds pkt m = opHolds m.op (field = m.payloadU32 0))
    (onNet : ∀ m : BfMatcher, m.type = netType →
      ip4Holds pkt m = opHolds m.op (field &&& m.netmask = m.payloadU32 1 &&& m.netmask)) :
    ms.all (ip4Holds pkt) = codeClause addr n inverted field := by
  rw [iptAddrMatcher_eq le] at translated
  unfold codeClause comparedBits
  by_cases none : n = 0
  · rw [if_pos none] at translated ⊢
    split at translated <;> cases translated
    rfl
  · rw [if_neg none] at translated ⊢
    by_cases all : n = 32
    · rw [if_pos all] at translated ⊢
      cases translated
      rw [List.all_cons, List.all_nil, Bool.and_true, onAddr _ rfl, payloadU32_addr,
        opHolds_clauseOp, (netmask_eq_full_iff (le_refl 32)).mpr rfl, addrClause,
        show (0xffffffff : BitVec 32) = BitVec.allOnes 32 from rfl, BitVec.and_allOnes,
        BitVec.and_allOnes]
    · rw [if_neg all] at translated ⊢
      cases translated
      have small : (BitVec.ofNat 32 (iptPrefixlen n)).toNat = iptPrefixlen n := by
        rw [BitVec.toNat_ofNat, Nat.mod_eq_of_lt]
        unfold iptPrefixlen
        split <;> omega
      have mask : BfMatcher.netmask ⟨netType, clauseOp inverted,
          leBytes32 (BitVec.ofNat 32 (iptPrefixlen n)) ++ leBytes32 addr⟩ =
            netmask (iptPrefixlen n) := by
        rw [BfMatcher.netmask, payloadU32_prefixlen, small, leBits_netMask]
        unfold iptPrefixlen
        split <;> omega
      rw [List.all_cons, List.all_nil, Bool.and_true, onNet _ rfl, payloadU32_data,
        opHolds_clauseOp, mask, addrClause]

/-- Masks that make the same comparison are the same. -/
theorem mask_eq_of_clauses {mask mask' : BitVec 32}
    (same : ∀ field, field &&& mask = addr &&& mask ↔ field &&& mask' = addr &&& mask') :
    mask = mask' := by
  have outside : ∀ {m m' : BitVec 32},
      (∀ field, field &&& m = addr &&& m → field &&& m' = addr &&& m') → ~~~m &&& m' = 0 := by
    intro m m' implies
    -- flipping everything outside `m` is not seen by the first comparison
    have unseen : (addr ^^^ ~~~m) &&& m = addr &&& m := by
      ext i
      simp
      cases addr[i] <;> cases m[i] <;> rfl
    have seen := implies _ unseen
    ext i inside
    have bit := congrArg (fun v => v.getLsbD i) seen
    simp [inside] at bit ⊢
    revert bit
    cases addr[i] <;> cases m[i] <;> cases m'[i] <;> simp
  have first := outside fun field => (same field).mp
  have second := outside fun field => (same field).mpr
  ext i inside
  have a := congrArg (fun v => v.getLsbD i) first
  have b := congrArg (fun v => v.getLsbD i) second
  simp [inside] at a b
  revert a b
  cases mask[i] <;> cases mask'[i] <;> simp

/-- The masks for which the compiled clause is the clause of the entry. -/
def AddrRepresentable (n : Nat) (inverted : Bool) : Prop :=
  n = 32 ∨ n = 4 ∨ (n = 0 ∧ inverted = false)

theorem addrClause_zero (field : BitVec 32) :
    addrClause addr (netmask 0) inverted field = !inverted := by
  rw [addrClause, (netmask_eq_zero_iff (Nat.zero_le 32)).mpr rfl]
  cases inverted <;> simp

theorem codeClause_iff (le : n ≤ 32) :
    (∀ field, codeClause addr n inverted field = true ↔
        addrClause addr (netmask n) inverted field = true) ↔ AddrRepresentable n inverted := by
  unfold codeClause AddrRepresentable
  by_cases none : n = 0
  · subst none
    simp [addrClause_zero]
  · simp only [none, if_false, false_and, or_false]
    have compared : comparedBits n = n ↔ n = 32 ∨ n = 4 := by
      unfold comparedBits iptPrefixlen
      split_ifs <;> omega
    rw [← compared]
    constructor
    · intro same
      refine netmask_inj (comparedBits_le n) le (@mask_eq_of_clauses addr _ _ fun field => ?_)
      have here := same field
      cases inverted with
      | false => simpa [addrClause] using here
      | true => simpa [addrClause, not_iff_not] using here
    · intro same field
      rw [same]

/-- A clause under a mask is satisfiable unless it negates an empty mask. -/
theorem addrClause_satisfiable (le : n ≤ 32) :
    (∃ field, addrClause addr (netmask n) inverted field = true) ↔
      ¬ (inverted = true ∧ n = 0) := by
  constructor
  · rintro ⟨field, holds⟩ ⟨inv, none⟩
    subst none
    rw [addrClause_zero, inv] at holds
    cases holds
  · intro some
    cases inv : inverted with
    | false => exact ⟨addr, by simp [addrClause]⟩
    | true =>
        have mask : netmask n ≠ 0 := mt (netmask_eq_zero_iff le).mp fun none => some ⟨inv, none⟩
        refine ⟨~~~addr, ?_⟩
        simp only [addrClause, bne_iff_ne, ne_eq, decide_eq_true_eq]
        intro same
        apply mask
        ext i inside
        have bit := congrArg (fun v => v.getLsbD i) same
        simp [inside] at bit ⊢
        revert bit
        cases addr[i] <;> cases (netmask n)[i] <;> simp

/-- The compiled clause is satisfiable unless it negates a mask the translation has lost. -/
theorem codeClause_satisfiable :
    (∃ field, codeClause addr n inverted field = true) ↔
      ¬ (inverted = true ∧ 8 ≤ n ∧ n ≠ 32) := by
  unfold codeClause
  by_cases none : n = 0
  · subst none
    simp
  · simp only [if_neg none]
    rw [addrClause_satisfiable (comparedBits_le n)]
    have lost : comparedBits n = 0 ↔ 8 ≤ n ∧ n ≠ 32 := by
      unfold comparedBits iptPrefixlen
      by_cases all : n = 32
      · simp [all]
      · rw [if_neg all]
        split <;> omega
    rw [lost]

end Clauses

/-! ## The protocol clause -/

section Protocol

variable {reading : ProtoReading} {ip : IptIp}

/-- What the protocol matcher decides. -/
def codeProto (ip : IptIp) (protocol : BitVec 8) : Bool :=
  decide (ip.proto = 0) || decide (protocol = ip.proto.setWidth 8)

theorem iptProtoMatcher_inv {ms : List BfMatcher} (translated : iptProtoMatcher ip = .ok ms) :
    (ip.proto.setWidth 8).setWidth 16 = ip.proto ∧ (∀ m ∈ ms, m.type = .ip4Proto) ∧
      ∀ pkt, ms.all (ip4Holds pkt) = codeProto ip pkt.protocol := by
  unfold iptProtoMatcher at translated
  by_cases given : ip.proto = 0
  · rw [if_neg (not_not.mpr given)] at translated
    cases translated
    refine ⟨by rw [given]; rfl, by simp, fun pkt => by simp [codeProto, given]⟩
  · rw [if_pos given] at translated
    by_cases fits : (ip.proto.setWidth 8).setWidth 16 = ip.proto
    · rw [if_neg (not_not.mpr fits)] at translated
      cases translated
      refine ⟨fits, by simp, fun pkt => ?_⟩
      rw [codeProto, decide_eq_false given]
      simp [ip4Holds, opHolds, payloadU8_singleton]
    · rw [if_pos fits] at translated
      cases translated

/-- The entries whose protocol clause the code has. -/
def ProtoRepresentable (reading : ProtoReading) (ip : IptIp) : Prop :=
  ip.inverted iptInvProto = false ∨ (reading = .negateGiven ∧ ip.proto = 0)

theorem setWidth16_eq {protocol : BitVec 8} {proto : BitVec 16}
    (fits : (proto.setWidth 8).setWidth 16 = proto) :
    protocol.setWidth 16 = proto ↔ protocol = proto.setWidth 8 := by
  constructor
  · intro same
    rw [← same]
    simp
  · rintro rfl
    exact fits

theorem codeProto_iff (fits : (ip.proto.setWidth 8).setWidth 16 = ip.proto) :
    (∀ protocol, codeProto ip protocol = true ↔ protoClause reading ip protocol = true) ↔
      ProtoRepresentable reading ip := by
  unfold codeProto protoClause ProtoRepresentable
  simp only [setWidth16_eq fits]
  constructor
  · intro same
    have here := same (ip.proto.setWidth 8)
    cases reading <;> cases inv : ip.inverted iptInvProto <;> by_cases given : ip.proto = 0 <;>
      simp_all
  · intro rep protocol
    cases reading <;> by_cases given : ip.proto = 0 <;> simp_all

theorem codeProto_satisfiable : ∃ protocol, codeProto ip protocol = true :=
  ⟨ip.proto.setWidth 8, by simp [codeProto]⟩

theorem protoClause_satisfiable (fits : (ip.proto.setWidth 8).setWidth 16 = ip.proto) :
    (∃ protocol, protoClause reading ip protocol = true) ↔
      ¬ (reading = .negateAlways ∧ ip.inverted iptInvProto = true ∧ ip.proto = 0) := by
  unfold protoClause
  simp only [setWidth16_eq fits]
  have another : ip.proto.setWidth 8 + 1 ≠ ip.proto.setWidth 8 := by
    generalize ip.proto.setWidth 8 = b
    revert b
    decide +kernel
  constructor
  · rintro ⟨protocol, holds⟩ ⟨rfl, inv, given⟩
    simp [inv, given] at holds
  · intro some
    cases inv : ip.inverted iptInvProto with
    | false => exact ⟨ip.proto.setWidth 8, by cases reading <;> simp⟩
    | true =>
        refine ⟨ip.proto.setWidth 8 + 1, ?_⟩
        cases reading with
        | negateAlways =>
            have given : ip.proto ≠ 0 := fun given => some ⟨rfl, inv, given⟩
            simp only [decide_eq_false (not_or.mpr ⟨given, another⟩)]
            rfl
        | negateGiven =>
            rw [decide_eq_false another]
            simp

end Protocol

/-! ## Packets -/

/-- An IPv4 header at address 4096, and its address in the context. -/
def ip4Mem (pkt : Ip4Packet) : Mem :=
  Mem.store (Mem.store (Mem.store (Mem.store (fun _ => 0) (4096 + BitVec.ofNat 64 12) 4
    (pkt.saddr.setWidth 64)) (4096 + BitVec.ofNat 64 16) 4 (pkt.daddr.setWidth 64))
    (4096 + BitVec.ofNat 64 9) 1 (pkt.protocol.setWidth 64)) (4096 + BitVec.ofNat 64 3936) 8 4096

/-- A program state at the rules, for any header. -/
def ip4Core (pkt : Ip4Packet) : Core Unit where
  regs r := if r = 10 then 8192 else if r = 7 then (htobe16 ethPIp).setWidth 64 else 0
  mem := ip4Mem pkt
  world := ()

theorem ip4Mem_apart (i n j k : Nat) (apart : i + n ≤ j ∨ j + k ≤ i) (small : i + n ≤ 4096)
    (small' : j + k ≤ 4096) :
    Mem.Disjoint ((4096 : Addr) + BitVec.ofNat 64 i) n (4096 + BitVec.ofNat 64 j) k :=
  Mem.disjoint_offset 4096 i n j k apart (by omega) (by omega)

theorem ip4Mem_saddr (pkt : Ip4Packet) :
    (ip4Mem pkt).load (4096 + BitVec.ofNat 64 12) 4 = pkt.saddr.setWidth 64 := by
  unfold ip4Mem
  rw [Mem.load_store_disjoint _ _ (ip4Mem_apart 12 4 3936 8 (by omega) (by omega) (by omega))
      (by omega),
    Mem.load_store_disjoint _ _ (ip4Mem_apart 12 4 9 1 (by omega) (by omega) (by omega)) (by omega),
    Mem.load_store_disjoint _ _ (ip4Mem_apart 12 4 16 4 (by omega) (by omega) (by omega))
      (by omega),
    Mem.load_store_word]

theorem ip4Mem_daddr (pkt : Ip4Packet) :
    (ip4Mem pkt).load (4096 + BitVec.ofNat 64 16) 4 = pkt.daddr.setWidth 64 := by
  unfold ip4Mem
  rw [Mem.load_store_disjoint _ _ (ip4Mem_apart 16 4 3936 8 (by omega) (by omega) (by omega))
      (by omega),
    Mem.load_store_disjoint _ _ (ip4Mem_apart 16 4 9 1 (by omega) (by omega) (by omega)) (by omega),
    Mem.load_store_word]

theorem ip4Mem_protocol (pkt : Ip4Packet) :
    (ip4Mem pkt).load (4096 + BitVec.ofNat 64 9) 1 = pkt.protocol.setWidth 64 := by
  unfold ip4Mem
  rw [Mem.load_store_disjoint _ _ (ip4Mem_apart 9 1 3936 8 (by omega) (by omega) (by omega))
      (by omega),
    Mem.load_store_byte]

theorem ip4Core_at (pkt : Ip4Packet) : Ip4At pkt (ip4Core pkt) := by
  have field : ctxAddr 8192 .l3Hdr = 4096 + BitVec.ofNat 64 3936 := by decide
  have header : (ip4Mem pkt).load (ctxAddr 8192 .l3Hdr) 8 = 4096 := by
    rw [field]
    exact Mem.load_store_reg _ _ _
  have frame : (ip4Core pkt).regs 10 = 8192 := rfl
  have mem : (ip4Core pkt).mem = ip4Mem pkt := rfl
  refine ⟨rfl, ?_, ?_, ?_⟩ <;> rw [frame, mem, header]
  · exact ip4Mem_saddr pkt
  · exact ip4Mem_daddr pkt
  · exact ip4Mem_protocol pkt

/-! ## Entries -/

/-- The translation of an address is defined: `__builtin_ctz` is not applied to 0. -/
def AddrDefined (addr : BitVec 32) (n : Nat) : Prop := n = 0 → addr = 0

theorem iptAddrMatcher_defined {addrType netType : BfMatcherType} {addr : BitVec 32} {n : Nat}
    {inverted : Bool} (le : n ≤ 32) :
    (AddrDefined addr n ∧ ∃ ms, iptAddrMatcher addrType netType addr (netmask n) inverted = .ok ms ∧
        ∀ m ∈ ms, (m.type = addrType ∨ m.type = netType) ∧ (m.type = netType → addrType ≠ netType →
          (m.payloadU32 0).toNat ≤ 32)) ∨
      (¬ AddrDefined addr n ∧
        iptAddrMatcher addrType netType addr (netmask n) inverted = .error .undefined) := by
  rw [iptAddrMatcher_eq le]
  unfold AddrDefined
  by_cases none : n = 0
  · by_cases blank : addr = 0
    · exact .inl ⟨fun _ => blank, [], by simp [none, blank]⟩
    · exact .inr ⟨fun defined => blank (defined none), by rw [if_pos none, if_neg blank]⟩
  · refine .inl ⟨fun zero => absurd zero none, ?_⟩
    rw [if_neg none]
    by_cases all : n = 32
    · rw [if_pos all]
      refine ⟨_, rfl, fun m mem => ?_⟩
      rw [List.mem_singleton.mp mem]
      exact ⟨.inl rfl, fun same differ => absurd same differ⟩
    · rw [if_neg all]
      refine ⟨_, rfl, fun m mem => ?_⟩
      rw [List.mem_singleton.mp mem]
      refine ⟨.inr rfl, fun _ _ => ?_⟩
      rw [payloadU32_prefixlen, BitVec.toNat_ofNat]
      unfold iptPrefixlen
      split <;> omega

/-- What the translation of an accepted entry went through. -/
theorem bfIptEntryToRule_cases {entry : IptEntry} {src dst : List BfMatcher}
    (onSrc : iptSrcMatcher entry.ip = .ok src) (onDst : iptDstMatcher entry.ip = .ok dst)
    (accepted : ∀ e, bfIptEntryToRule entry ≠ .error (.errno e)) :
    ∃ proto verdict, iptProtoMatcher entry.ip = .ok proto ∧
      bfIptTargetToVerdict entry.target = .ok verdict ∧
      bfIptEntryToRule entry =
        .ok { matchers := src ++ dst ++ proto, counters := true, verdict := verdict } := by
  unfold bfIptEntryToRule at accepted ⊢
  rw [onSrc, onDst] at accepted ⊢
  split_ifs at accepted ⊢ with size iface
  · exact absurd rfl (accepted .enotsup)
  · exact absurd rfl (accepted .enotsup)
  · cases onProto : iptProtoMatcher entry.ip with
    | error e =>
        have errno : ∃ e', e = .errno e' := by
          unfold iptProtoMatcher at onProto
          split_ifs at onProto
          exact ⟨.einval, (Except.error.inj onProto).symm⟩
        obtain ⟨e', rfl⟩ := errno
        exact absurd (by rw [onProto]; rfl) (accepted e')
    | ok proto =>
        cases onTarget : bfIptTargetToVerdict entry.target with
        | error e =>
            have errno : ∃ e', e = .errno e' := by
              unfold bfIptTargetToVerdict at onTarget
              split_ifs at onTarget <;> exact ⟨.enotsup, (Except.error.inj onTarget).symm⟩
            obtain ⟨e', rfl⟩ := errno
            exact absurd (by rw [onProto, onTarget]; rfl) (accepted e')
        | ok verdict => exact ⟨proto, verdict, rfl, rfl, rfl⟩

theorem bfIptEntryToRule_undefined {entry : IptEntry}
    (undefined : iptSrcMatcher entry.ip = .error .undefined ∨
      iptDstMatcher entry.ip = .error .undefined) (rule : BfRule) :
    bfIptEntryToRule entry ≠ .ok rule := by
  unfold bfIptEntryToRule
  split_ifs with size iface
  · exact nofun
  · exact nofun
  · rcases undefined with onSrc | onDst
    · rw [onSrc]
      exact nofun
    · rw [onDst]
      cases iptSrcMatcher entry.ip <;> exact nofun

/-- Any environment, to run the matchers in: they call nothing. -/
def idleEnv : Env Unit BfElfstubId where
  helper _ a m w := ⟨0, a, m, w⟩
  kfunc _ a m w := ⟨0, a, m, w⟩
  sub _ a m w := ⟨0, a, m, w⟩
  mapAddr _ := 0
  mapValueAddr _ _ := 0

/-- A translation is faithful when the decisions of the matchers are. -/
theorem faithful_iff_holds (reading : ProtoReading) {entry : IptEntry} {rule : BfRule}
    (translated : bfIptEntryToRule entry = .ok rule)
    (known : ∀ m ∈ rule.matchers, m.type.isIp4 = true)
    (fits : ∀ m ∈ rule.matchers, m.PrefixFits) :
    Faithful reading entry ↔
      ∀ pkt, rule.matchers.all (ip4Holds pkt) = true ↔
        iptMatches reading entry.ip pkt = true := by
  constructor
  · rintro ⟨rule', same, -, agrees⟩ pkt
    cases translated.symm.trans same
    rw [← agrees Unit idleEnv ⟨0, 0, 0, []⟩ (ip4Core pkt) pkt (ip4Core_at pkt)]
    exact (runs_ip4s_iff (ip4Core_at pkt) rule.matchers known).symm
  · intro agrees
    refine ⟨rule, translated, generateMatchers_ip4 rule.matchers known fits, ?_⟩
    intro W env maps c pkt here
    rw [runs_ip4s_iff here rule.matchers known, agrees]

/-- What the compiled matchers of an accepted entry decide. -/
structure Decides (entry : IptEntry) (n k : Nat) (rule : BfRule) : Prop where
  translated : bfIptEntryToRule entry = .ok rule
  known : ∀ m ∈ rule.matchers, m.type.isIp4 = true
  fits : ∀ m ∈ rule.matchers, m.PrefixFits
  protoFits : (entry.ip.proto.setWidth 8).setWidth 16 = entry.ip.proto
  holds : ∀ pkt, rule.matchers.all (ip4Holds pkt) = true ↔
    codeClause entry.ip.src n (entry.ip.inverted iptInvSrcip) pkt.saddr = true ∧
      codeClause entry.ip.dst k (entry.ip.inverted iptInvDstip) pkt.daddr = true ∧
      codeProto entry.ip pkt.protocol = true

/-- The address matchers of an entry, with their side conditions. -/
theorem iptAddrMatcher_known {addrType netType : BfMatcherType} {ms : List BfMatcher}
    (types : (addrType = .ip4Saddr ∧ netType = .ip4Snet) ∨
      (addrType = .ip4Daddr ∧ netType = .ip4Dnet))
    (listed : ∀ m ∈ ms, (m.type = addrType ∨ m.type = netType) ∧
      (m.type = netType → addrType ≠ netType → (m.payloadU32 0).toNat ≤ 32)) :
    ∀ m ∈ ms, m.type.isIp4 = true ∧ m.PrefixFits := by
  intro m mem
  obtain ⟨type, small⟩ := listed m mem
  rcases types with ⟨rfl, rfl⟩ | ⟨rfl, rfl⟩ <;> rcases type with type | type <;>
    refine ⟨by rw [type]; rfl, fun net => ?_⟩
  · rw [type] at net
    rcases net with net | net <;> cases net
  · exact small type (by decide)
  · rw [type] at net
    rcases net with net | net <;> cases net
  · exact small type (by decide)

theorem decides_of_accepted {entry : IptEntry} {n k : Nat} (le : n ≤ 32) (le' : k ≤ 32)
    (smsk : entry.ip.smsk = netmask n) (dmsk : entry.ip.dmsk = netmask k)
    {src dst : List BfMatcher} (okS : iptSrcMatcher entry.ip = .ok src)
    (okD : iptDstMatcher entry.ip = .ok dst)
    (knownS : ∀ m ∈ src, m.type.isIp4 = true ∧ m.PrefixFits)
    (knownD : ∀ m ∈ dst, m.type.isIp4 = true ∧ m.PrefixFits)
    (accepted : ∀ e, bfIptEntryToRule entry ≠ .error (.errno e)) :
    ∃ rule, Decides entry n k rule := by
  obtain ⟨proto, verdict, okP, -, translated⟩ := bfIptEntryToRule_cases okS okD accepted
  obtain ⟨protoFits, typeP, holdsP⟩ := iptProtoMatcher_inv okP
  have knownP : ∀ m ∈ proto, m.type.isIp4 = true ∧ m.PrefixFits := by
    intro m mem
    refine ⟨by rw [typeP m mem]; rfl, fun net => ?_⟩
    rw [typeP m mem] at net
    rcases net with net | net <;> cases net
  have all : ∀ m ∈ src ++ dst ++ proto, m.type.isIp4 = true ∧ m.PrefixFits := by
    intro m mem
    rcases List.mem_append.mp mem with mem | mem
    · rcases List.mem_append.mp mem with mem | mem
      · exact knownS m mem
      · exact knownD m mem
    · exact knownP m mem
  refine ⟨_, translated, fun m mem => (all m mem).1, fun m mem => (all m mem).2, protoFits, ?_⟩
  intro pkt
  rw [iptSrcMatcher, smsk] at okS
  rw [iptDstMatcher, dmsk] at okD
  have holdsS : src.all (ip4Holds pkt) =
      codeClause entry.ip.src n (entry.ip.inverted iptInvSrcip) pkt.saddr :=
    iptAddrMatcher_holds le okS (fun m type => by rw [ip4Holds, type])
      (fun m type => by rw [ip4Holds, type])
  have holdsD : dst.all (ip4Holds pkt) =
      codeClause entry.ip.dst k (entry.ip.inverted iptInvDstip) pkt.daddr :=
    iptAddrMatcher_holds le' okD (fun m type => by rw [ip4Holds, type])
      (fun m type => by rw [ip4Holds, type])
  rw [List.all_append, List.all_append, holdsS, holdsD, holdsP, Bool.and_eq_true,
    Bool.and_eq_true, and_assoc]

/-- The clauses of a decided entry are about different fields. -/
theorem Decides.faithful_iff {reading : ProtoReading} {entry : IptEntry} {n k : Nat} {rule : BfRule}
    (decides : Decides entry n k rule) (smsk : entry.ip.smsk = netmask n)
    (dmsk : entry.ip.dmsk = netmask k) :
    Faithful reading entry ↔
      ∀ saddr daddr protocol,
        codeClause entry.ip.src n (entry.ip.inverted iptInvSrcip) saddr = true ∧
            codeClause entry.ip.dst k (entry.ip.inverted iptInvDstip) daddr = true ∧
            codeProto entry.ip protocol = true ↔
          addrClause entry.ip.src (netmask n) (entry.ip.inverted iptInvSrcip) saddr = true ∧
            addrClause entry.ip.dst (netmask k) (entry.ip.inverted iptInvDstip) daddr = true ∧
            protoClause reading entry.ip protocol = true := by
  rw [faithful_iff_holds reading decides.translated decides.known decides.fits]
  constructor
  · intro agrees saddr daddr protocol
    rw [← decides.holds ⟨saddr, daddr, protocol⟩, agrees, iptMatches, smsk, dmsk,
      Bool.and_eq_true, Bool.and_eq_true, and_assoc]
  · intro agrees pkt
    rw [decides.holds, agrees, iptMatches, smsk, dmsk, Bool.and_eq_true, Bool.and_eq_true,
      and_assoc]

/-- **iptables translation.**  An entry that is not rejected is translated faithfully exactly
when every clause is representable, or when neither the entry nor the rule matches anything;
a zero mask with a non-zero address is undefined behaviour. -/
theorem bfIptEntryToRule_faithful_iff (reading : ProtoReading) {entry : IptEntry} {n k : Nat}
    (le : n ≤ 32) (le' : k ≤ 32) (smsk : entry.ip.smsk = netmask n)
    (dmsk : entry.ip.dmsk = netmask k)
    (accepted : ∀ e, bfIptEntryToRule entry ≠ .error (.errno e)) :
    Faithful reading entry ↔
      AddrDefined entry.ip.src n ∧ AddrDefined entry.ip.dst k ∧
        (AddrRepresentable n (entry.ip.inverted iptInvSrcip) ∧
            AddrRepresentable k (entry.ip.inverted iptInvDstip) ∧
            ProtoRepresentable reading entry.ip ∨
          (entry.ip.inverted iptInvSrcip = true ∧ 8 ≤ n ∧ n ≠ 32 ∨
              entry.ip.inverted iptInvDstip = true ∧ 8 ≤ k ∧ k ≠ 32) ∧
            (entry.ip.inverted iptInvSrcip = true ∧ n = 0 ∨
              entry.ip.inverted iptInvDstip = true ∧ k = 0 ∨
              reading = .negateAlways ∧ entry.ip.inverted iptInvProto = true ∧
                entry.ip.proto = 0)) := by
  have onSrc := @iptAddrMatcher_defined .ip4Saddr .ip4Snet entry.ip.src _
    (entry.ip.inverted iptInvSrcip) le
  have onDst := @iptAddrMatcher_defined .ip4Daddr .ip4Dnet entry.ip.dst _
    (entry.ip.inverted iptInvDstip) le'
  rw [← smsk] at onSrc
  rw [← dmsk] at onDst
  rcases onSrc with ⟨defS, src, okS, typeS⟩ | ⟨undefS, badS⟩
  · rcases onDst with ⟨defD, dst, okD, typeD⟩ | ⟨undefD, badD⟩
    · obtain ⟨rule, decides⟩ := decides_of_accepted le le' smsk dmsk okS okD
        (iptAddrMatcher_known (.inl ⟨rfl, rfl⟩) typeS) (iptAddrMatcher_known (.inr ⟨rfl, rfl⟩) typeD)
        accepted
      rw [decides.faithful_iff smsk dmsk, product_iff, codeClause_iff le, codeClause_iff le',
        codeProto_iff decides.protoFits, codeClause_satisfiable, codeClause_satisfiable,
        addrClause_satisfiable le, addrClause_satisfiable le',
        protoClause_satisfiable decides.protoFits]
      have some : ∃ protocol, codeProto entry.ip protocol = true := codeProto_satisfiable
      simp only [defS, defD, some, true_and, and_true, not_and_or, not_or, not_not, ne_eq]
    · refine iff_of_false ?_ fun h => undefD h.2.1
      rintro ⟨rule, translated, -⟩
      exact bfIptEntryToRule_undefined (.inr badD) rule translated
  · refine iff_of_false ?_ fun h => undefS h.1
    rintro ⟨rule, translated, -⟩
    exact bfIptEntryToRule_undefined (.inl badS) rule translated

/-- An entry for one source address. -/
def hostEntry : IptEntry where
  ip := { src := 0x0100000a, smsk := netmask 32, proto := 6 }
  targetOffset := 112
  target := { verdict := -1 }

theorem hostEntry_faithful : Faithful .negateAlways hostEntry := by
  have translated : (bfIptEntryToRule hostEntry).isOk = true := by decide +kernel
  have accepted : ∀ e, bfIptEntryToRule hostEntry ≠ .error (.errno e) := by
    intro e rejected
    rw [rejected] at translated
    cases translated
  refine (bfIptEntryToRule_faithful_iff .negateAlways (n := 32) (k := 0) (by decide) (by decide)
    rfl (by decide) accepted).mpr ⟨nofun, fun _ => rfl, .inl ⟨.inl rfl, ?_, ?_⟩⟩
  · exact .inr (.inr ⟨rfl, rfl⟩)
  · exact .inl rfl

/-- `-s 10.0.0.0/8`: the translation loses the mask. -/
def subnetEntry : IptEntry where
  ip := { src := 0x0000000a, smsk := netmask 8 }
  targetOffset := 112
  target := { verdict := -1 }

/-- The rule for 10.0.0.0/8 matches 192.168.0.1, on either reading. -/
theorem subnetEntry_not_faithful :
    (bfIptEntryToRule subnetEntry).isOk = true ∧
      (∀ reading, iptMatches reading subnetEntry.ip ⟨0x0100a8c0, 0, 6⟩ = false) ∧
      ∀ reading, ¬ Faithful reading subnetEntry := by
  refine ⟨by decide +kernel, fun reading => by cases reading <;> decide +kernel, ?_⟩
  rintro reading ⟨rule, translated, -, agrees⟩
  have code : ∃ d, Runs idleEnv ((rule.matchers.flatMap ip4Slots).map
      (Emitted.link ⟨0, 0, 0, []⟩)) 0 (ip4Core ⟨0x0100a8c0, 0, 6⟩) (.fall d) := by
    cases translated
    refine (runs_ip4s_iff (ip4Core_at _) _ (by decide +kernel)).mpr ?_
    decide +kernel
  have spec := (agrees Unit idleEnv ⟨0, 0, 0, []⟩ _ _ (ip4Core_at _)).mp code
  cases reading <;> exact absurd spec (by decide +kernel)

end Bpfilter

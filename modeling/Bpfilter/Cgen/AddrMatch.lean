/-
# Cgen.AddrMatch -- address and network matchers

The code of an address matcher checks the ethertype, loads the address in words and
compares it with constants assembled from the payload.  A network matcher masks both
sides with the prefix mask of its prefix length.  IPv4 takes one word; IPv6 takes two
registers, each constant built from two immediates, and jumps over the second
comparison when `not` is decided by the first.

`addrMatcher_exact` is the result for both versions, both sides and both operators:
the code goes on when the address of the packet has, or for `not` has not, the first
bits of the payload, and leaves for the next rule for any other ethertype.
-/
import Mathlib.Tactic.IntervalCases
import Bpfilter.Lib.Address
import Bpfilter.Cgen.MetaMatch

namespace Bpfilter

set_option autoImplicit false

open Ebpf

/-! ## Prefix masks -/

theorem netMask_eq {n prefixlen : Nat} (fits : prefixlen ≤ 8 * n) :
    netMask n prefixlen = (List.range n).map fun i =>
      if i < prefixlen / 8 then 0xff
      else if i = prefixlen / 8 ∧ prefixlen % 8 ≠ 0 then (0xff : Byte) <<< (8 - prefixlen % 8)
      else 0 := by
  rw [netMask, bfPrefixToMask, if_neg (by omega)]
  rfl

theorem netMask_length {n prefixlen : Nat} (fits : prefixlen ≤ 8 * n) :
    (netMask n prefixlen).length = n := by
  rw [netMask_eq fits, List.length_map, List.length_range]

/-- A partial byte of a mask. -/
theorem getMsbD_partial {r k : Nat} (small : r < 8) (inside : k < 8) :
    ((0xff : Byte) <<< (8 - r)).getMsbD k = decide (k < r) := by
  interval_cases r <;> interval_cases k <;> rfl

/-- The masks the generators build are prefix masks. -/
theorem netMask_isPrefixMask {n prefixlen : Nat} (fits : prefixlen ≤ 8 * n) :
    IsPrefixMask (netMask n prefixlen) prefixlen := by
  intro i bound
  rw [netMask_length fits] at bound
  have inside : i / 8 < n := by omega
  have byte : (netMask n prefixlen).getD (i / 8) 0 =
      if i / 8 < prefixlen / 8 then 0xff
      else if i / 8 = prefixlen / 8 ∧ prefixlen % 8 ≠ 0 then
        (0xff : Byte) <<< (8 - prefixlen % 8) else 0 := by
    rw [netMask_eq fits, List.getD_eq_getElem _ _ (by simpa using inside), List.getElem_map,
      List.getElem_range]
  have bit : i % 8 < 8 := Nat.mod_lt _ (by decide)
  rw [addrBit, byte]
  by_cases whole : i / 8 < prefixlen / 8
  · rw [if_pos whole, decide_eq_true (by omega)]
    generalize i % 8 = k at bit
    interval_cases k <;> rfl
  rw [if_neg whole]
  by_cases part : i / 8 = prefixlen / 8 ∧ prefixlen % 8 ≠ 0
  · rw [if_pos part, getMsbD_partial (Nat.mod_lt _ (by decide)) bit]
    exact decide_eq_decide.mpr (by omega)
  · rw [if_neg part, decide_eq_false (by omega)]
    simp

/-- A prefix mask whose last byte is full keeps every address. -/
theorem masked_full {a mask : List Byte} {prefixlen : Nat} (same : a.length = mask.length)
    (isMask : IsPrefixMask mask prefixlen) {last : Nat} (isLast : mask.length = last + 1)
    (full : mask.getD last 0 = 0xff) : masked a mask = a := by
  have top : 8 * last + 7 < prefixlen := by
    have bit := isMask (8 * last + 7) (by omega)
    rw [addrBit, show (8 * last + 7) / 8 = last by omega, full,
      show (8 * last + 7) % 8 = 7 by omega] at bit
    exact of_decide_eq_true bit.symm
  rw [address_eq_iff (masked_length same), masked_length same]
  intro i inside
  rw [addrBit_masked same, isMask i (by omega), decide_eq_true (by omega), Bool.and_true]

/-! ## Halves of an IPv6 address -/

/-- Eight bytes of an address, as the host loads them. -/
def addrHalf (addr : List Byte) (i : Nat) : BitVec 64 := leBits 64 ((addr.drop i).take 8)

theorem addrHalf_bytes {addr : List Byte} {i : Nat} (inside : i + 8 ≤ addr.length) :
    (addr.drop i).take 8 = (List.range 8).map fun k => addr.getD (i + k) 0 := by
  refine List.ext_getElem (by simp; omega) fun k inA inB => ?_
  have bound : k < 8 := by simpa using inB
  rw [List.getElem_take, List.getElem_drop, List.getElem_map, List.getElem_range,
    List.getD_eq_getElem]

theorem toNat_bfMake32 (a b c d : Byte) : (bfMake32 a b c d).toNat =
    a.toNat * 2 ^ 24 + b.toNat * 2 ^ 16 + c.toNat * 2 ^ 8 + d.toNat := by
  have boundB := b.isLt
  have boundC := c.isLt
  have boundD := d.isLt
  unfold bfMake32
  rw [BitVec.toNat_append, BitVec.toNat_append, BitVec.toNat_append,
    ← Nat.shiftLeft_add_eq_or_of_lt boundD, ← Nat.shiftLeft_add_eq_or_of_lt boundC,
    ← Nat.shiftLeft_add_eq_or_of_lt boundB]
  simp only [Nat.shiftLeft_eq]
  omega

/-- The two immediates of a half, put together. -/
theorem addrHalf_eq {addr : List Byte} {i : Nat} (inside : i + 8 ≤ addr.length) :
    ((bfMake32 (addr.getD (i + 7) 0) (addr.getD (i + 6) 0) (addr.getD (i + 5) 0)
        (addr.getD (i + 4) 0)).setWidth 64 <<< 32) |||
      (bfMake32 (addr.getD (i + 3) 0) (addr.getD (i + 2) 0) (addr.getD (i + 1) 0)
        (addr.getD i 0)).setWidth 64 = addrHalf addr i := by
  apply BitVec.eq_of_toNat_eq
  generalize high : bfMake32 (addr.getD (i + 7) 0) (addr.getD (i + 6) 0) (addr.getD (i + 5) 0)
    (addr.getD (i + 4) 0) = h
  generalize low : bfMake32 (addr.getD (i + 3) 0) (addr.getD (i + 2) 0) (addr.getD (i + 1) 0)
    (addr.getD i 0) = l
  have boundH := h.isLt
  have boundL := l.isLt
  have shifted : (h.setWidth 64 <<< 32).toNat = h.toNat <<< 32 := by
    rw [BitVec.toNat_shiftLeft, toNat_setWidth64 (by decide), Nat.mod_eq_of_lt]
    rw [Nat.shiftLeft_eq]
    omega
  rw [BitVec.toNat_or, shifted, toNat_setWidth64 (by decide),
    ← Nat.shiftLeft_add_eq_or_of_lt boundL, Nat.shiftLeft_eq, ← high, ← low, toNat_bfMake32,
    toNat_bfMake32, addrHalf, addrHalf_bytes inside, leBits, BitVec.toNat_ofNat]
  simp only [List.range_succ, List.range_zero, List.nil_append, List.cons_append, List.map_cons,
    List.map_nil, Mem.leValue, Nat.add_zero]
  have bounds := fun k => (addr.getD (i + k) 0).isLt
  have b0 := (addr.getD i 0).isLt
  have b1 := bounds 1
  have b2 := bounds 2
  have b3 := bounds 3
  have b4 := bounds 4
  have b5 := bounds 5
  have b6 := bounds 6
  have b7 := bounds 7
  omega

theorem addrHalf_masked {a mask : List Byte} (same : a.length = mask.length) (i : Nat) :
    addrHalf (masked a mask) i = addrHalf a i &&& addrHalf mask i := by
  rw [addrHalf, masked, List.drop_zipWith, List.take_zipWith]
  refine leBits_masked 64 ?_
  simp only [List.length_take, List.length_drop, same]

/-- An IPv6 address is its two halves. -/
theorem addrHalf_inj {a b : List Byte} (lenA : a.length = 16) (lenB : b.length = 16) :
    a = b ↔ addrHalf a 0 = addrHalf b 0 ∧ addrHalf a 8 = addrHalf b 8 := by
  have split : ∀ {x : List Byte}, x.length = 16 → x = (x.drop 0).take 8 ++ (x.drop 8).take 8 := by
    intro x len
    have second : (x.drop 8).take 8 = x.drop 8 :=
      List.take_of_length_le (by rw [List.length_drop, len])
    rw [second, List.drop_zero, List.take_append_drop]
  have size : ∀ {x : List Byte} (i : Nat), x.length = 16 → i ≤ 8 → ((x.drop i).take 8).length = 8 := by
    intro x i len le
    rw [List.length_take, List.length_drop, len]
    omega
  have first := leBits_inj (size 0 lenA (by decide)) (size 0 lenB (by decide))
  have second := leBits_inj (size 8 lenA (by decide)) (size 8 lenB (by decide))
  constructor
  · rintro rfl
    exact ⟨rfl, rfl⟩
  · rintro ⟨low, high⟩
    rw [split lenA, split lenB, first.mp low, second.mp high]

/-! ## IPv6 code -/

section Ip6

variable {W : Type} {env : Env W BfElfstubId} {maps : BfMaps}

/-- The registers in which constants are assembled. -/
def addrClobbers : List Reg := [3, 4]

theorem eval_addrHalf {addr : List Byte} {i : Nat} (inside : i + 8 ≤ addr.length) (c : Core W) :
    ∃ d, eval env 0 ((addrHalfSlots addr i).map (Emitted.link maps)) c = .fall 0 d ∧
      d.regs 3 = addrHalf addr i ∧ d.EqOutside addrClobbers c := by
  let high := (bfMake32 (addr.getD (i + 7) 0) (addr.getD (i + 6) 0) (addr.getD (i + 5) 0)
    (addr.getD (i + 4) 0)).setWidth 64
  let low := (bfMake32 (addr.getD (i + 3) 0) (addr.getD (i + 2) 0) (addr.getD (i + 1) 0)
    (addr.getD i 0)).setWidth 64
  let d := (((c.setReg 3 high).setReg 3 (high <<< 32)).setReg 4 low).setReg 3 (high <<< 32 ||| low)
  refine ⟨d, ?_, addrHalf_eq inside, ?_⟩
  · simp only [addrHalfSlots, List.map_cons, List.map_nil, link_insn]
    rw [eval_mov32Imm, eval_alu64Imm, eval_mov32Imm, eval_alu64Reg, eval_nil]
    rfl
  · exact ((((Core.EqOutside.refl _ c).setReg (by decide) _).setReg (by decide) _).setReg
      (by decide) _).setReg (by decide) _

/-- The two comparisons: `eq` leaves at the first difference, `not` goes on there. -/
theorem eval_addrCompare (op : BfMatcherOp) {a b : List Byte} (lenA : a.length = 16)
    (lenB : b.length = 16) {c : Core W} (first : c.regs 1 = addrHalf a 0)
    (second : c.regs 2 = addrHalf a 8) :
    ∃ d, eval env 0 ((addrCompareSlots op b).map (Emitted.link maps)) c =
      if opHolds op (a = b) then .fall 0 d else .out d := by
  obtain ⟨d, ranD, constD, sameD⟩ :=
    @eval_addrHalf W env maps b 0 (by rw [lenB]; decide) c
  obtain ⟨e, ranE, constE, sameE⟩ :=
    @eval_addrHalf W env maps b 8 (by rw [lenB]) d
  have lowTaken : (bpfJmpReg .ne 1 3 0).taken d = decide (addrHalf a 0 ≠ addrHalf b 0) := by
    rw [taken_reg, sameD.regs 1 (by decide), first, constD, JmpOp.eval, bne, Bool.beq_eq_decide_eq,
      ← decide_not]
  have highTaken : (bpfJmpReg .ne 2 3 0).taken e = decide (addrHalf a 8 ≠ addrHalf b 8) := by
    rw [taken_reg, sameE.regs 2 (by decide), sameD.regs 2 (by decide), second, constE, JmpOp.eval,
      bne, Bool.beq_eq_decide_eq, ← decide_not]
  have same := addrHalf_inj lenA lenB
  by_cases eq : op = .eq
  · subst eq
    have slots : (addrCompareSlots .eq b).map (Emitted.link maps) =
        (addrHalfSlots b 0).map (Emitted.link maps) ++
          (nextSlot (bpfJmpReg .ne 1 3 0)).link maps ::
            ((addrHalfSlots b 8).map (Emitted.link maps) ++
              ([nextSlot (bpfJmpReg .ne 2 3 0)] : List Emitted).map (Emitted.link maps)) := by
      rw [addrCompareSlots, if_pos rfl, List.map_append, List.map_cons, List.map_append]
    rw [slots, eval_append_fall _ ranD, eval_nextSlot rfl, lowTaken]
    by_cases low : addrHalf a 0 = addrHalf b 0
    · refine ⟨e, ?_⟩
      rw [if_neg (by simpa using low), eval_append_fall _ ranE, eval_lastJump rfl, highTaken]
      refine if_congr ?_ rfl rfl
      simp [opHolds, same, low]
    · refine ⟨d, ?_⟩
      rw [if_pos (decide_eq_true low), if_neg]
      simp [opHolds, same, low]
  · have slots : (addrCompareSlots op b).map (Emitted.link maps) =
        (addrHalfSlots b 0).map (Emitted.link maps) ++
          (jumpSlot (bpfJmpReg .ne 1 3 0) 6).link maps ::
            ((addrHalfSlots b 8).map (Emitted.link maps) ++
              [(jumpSlot (bpfJmpReg .ne 2 3 0) 1).link maps, (nextSlot (bpfJmpA 0)).link maps]) := by
      rw [addrCompareSlots, if_neg eq, List.map_append, List.map_cons, List.map_append]
      rfl
    rw [slots, eval_append_fall _ ranD, eval_jumpSlot rfl (by decide), lowTaken]
    by_cases low : addrHalf a 0 = addrHalf b 0
    · refine ⟨e, ?_⟩
      rw [if_neg (by simpa using low), eval_append_fall _ ranE, eval_jumpSlot rfl (by decide),
        highTaken]
      by_cases high : addrHalf a 8 = addrHalf b 8
      · rw [if_neg (by simpa using high), eval_nextSlot rfl,
          if_pos (show (bpfJmpA 0).taken e = true from rfl), if_neg]
        simp [opHolds, same, low, high, eq]
      · rw [if_pos (decide_eq_true high), eval_skip, eval_nil, if_pos]
        simp [opHolds, same, high, eq]
    · refine ⟨d, ?_⟩
      rw [if_pos (decide_eq_true low), if_pos (by simp [opHolds, same, low, eq])]
      -- the jump goes past the second half, its comparison and the jump after it
      rfl

/-- The mask is applied, or keeps every bit and is left out. -/
theorem eval_ip6Mask {a mask : List Byte} {prefixlen : Nat} (lenA : a.length = 16)
    (lenMask : mask.length = 16) (isMask : IsPrefixMask mask prefixlen) {c : Core W}
    (first : c.regs 1 = addrHalf a 0) (second : c.regs 2 = addrHalf a 8) :
    ∃ d, eval env 0 ((ip6MaskSlots mask).map (Emitted.link maps)) c = .fall 0 d ∧
      d.regs 1 = addrHalf (masked a mask) 0 ∧ d.regs 2 = addrHalf (masked a mask) 8 := by
  unfold ip6MaskSlots
  by_cases full : mask.getD 15 0 = 0xff
  · refine ⟨c, ?_, ?_, ?_⟩
    · rw [if_neg (by simpa using full)]
      exact eval_nil ..
    · rw [masked_full (lenA.trans lenMask.symm) isMask lenMask full, first]
    · rw [masked_full (lenA.trans lenMask.symm) isMask lenMask full, second]
  · obtain ⟨d, ranD, constD, sameD⟩ :=
      @eval_addrHalf W env maps mask 0 (by rw [lenMask]; decide) c
    let low := d.setReg 1 (addrHalf (masked a mask) 0)
    obtain ⟨e, ranE, constE, sameE⟩ :=
      @eval_addrHalf W env maps mask 8 (by rw [lenMask]) low
    have masksLow : AluOp.and.eval (d.regs 1) (d.regs 3) = addrHalf (masked a mask) 0 := by
      rw [sameD.regs 1 (by decide), first, constD, addrHalf_masked (lenA.trans lenMask.symm)]
      rfl
    have masksHigh : AluOp.and.eval (e.regs 2) (e.regs 3) = addrHalf (masked a mask) 8 := by
      have kept : low.regs 2 = c.regs 2 := sameD.regs 2 (by decide)
      rw [sameE.regs 2 (by decide), kept, second, constE, addrHalf_masked (lenA.trans lenMask.symm)]
      rfl
    refine ⟨e.setReg 2 (addrHalf (masked a mask) 8), ?_, ?_, rfl⟩
    · rw [if_pos full]
      simp only [List.map_append, List.map_cons, List.map_nil, link_insn]
      rw [eval_append_fall _ ranD, eval_alu64Reg, masksLow, eval_append_fall _ ranE, eval_alu64Reg,
        masksHigh, eval_nil]
    · exact sameE.regs 1 (by decide)

/-- The two loads, of the offset of either address. -/
theorem eval_ip6Load {offset : Nat} (small : offset + 8 < 2 ^ 15) {addr : List Byte} {c : Core W}
    (loads : c.mem.bytesAt (c.regs 6 + BitVec.ofNat 64 offset) 16 = addr) :
    ∃ d, eval env 0 ((ip6LoadSlots offset).map (Emitted.link maps)) c = .fall 0 d ∧
      d.regs 1 = addrHalf addr 0 ∧ d.regs 2 = addrHalf addr 8 := by
  have wide : ∀ k < 2 ^ 15, (BitVec.ofNat 16 k).signExtend 64 = BitVec.ofNat 64 k := by
    intro k lt
    rw [BitVec.signExtend_eq_setWidth_of_msb_false]
    · apply BitVec.eq_of_toNat_eq
      simp only [BitVec.toNat_setWidth, BitVec.toNat_ofNat]
      omega
    · rw [BitVec.msb_eq_decide]
      refine decide_eq_false ?_
      rw [BitVec.toNat_ofNat]
      omega
  have next : c.regs 6 + BitVec.ofNat 64 (offset + 8) =
      c.regs 6 + BitVec.ofNat 64 offset + BitVec.ofNat 64 8 := by
    rw [BitVec.add_assoc, ← BitVec.ofNat_add]
  have bytes : addr = c.mem.bytesAt (c.regs 6 + BitVec.ofNat 64 offset) 8 ++
      c.mem.bytesAt (c.regs 6 + BitVec.ofNat 64 (offset + 8)) 8 := by
    rw [next, ← Mem.bytesAt_append, loads]
  have low : c.mem.load (c.regs 6 + BitVec.ofNat 64 offset) 8 = addrHalf addr 0 := by
    rw [bytes, addrHalf, List.drop_zero, List.take_left' (Mem.bytesAt_length ..)]
    rfl
  have high : c.mem.load (c.regs 6 + BitVec.ofNat 64 (offset + 8)) 8 = addrHalf addr 8 := by
    rw [bytes, addrHalf, List.drop_left' (Mem.bytesAt_length ..),
      List.take_of_length_le (Mem.bytesAt_length ..).le]
    rfl
  refine ⟨(c.setReg 1 (addrHalf addr 0)).setReg 2 (addrHalf addr 8), ?_, rfl, rfl⟩
  simp only [ip6LoadSlots, List.map_cons, List.map_nil, link_insn]
  rw [eval_ldx, wide _ (by omega), show Size.dw.bytes = 8 from rfl, low, eval_ldx,
    wide _ (by omega), show Size.dw.bytes = 8 from rfl, Core.setReg_mem,
    show (c.setReg 1 (addrHalf addr 0)).regs 6 = c.regs 6 from rfl, high, eval_nil]

end Ip6

/-! ## Both versions -/

inductive IpVersion where
  | v4
  | v6
  deriving DecidableEq, Repr

/-- The bytes of an address. -/
def IpVersion.size : IpVersion → Nat
  | .v4 => 4
  | .v6 => 16

/-- What `r7` holds for the packets of a version. -/
def IpVersion.protocol : IpVersion → BitVec 64
  | .v4 => (htobe16 ethPIp).setWidth 64
  | .v6 => (htobe16 ethPIpv6).setWidth 64

inductive AddrSide where
  | source
  | destination
  deriving DecidableEq, Repr

/-- Where the address is in the header. -/
def AddrSide.offset : AddrSide → IpVersion → Nat
  | .source, .v4 => 12
  | .destination, .v4 => 16
  | .source, .v6 => 8
  | .destination, .v6 => 24

/-- An address, or the network of a prefix length. -/
structure AddrTest (v : IpVersion) where
  addr : List Byte
  sized : addr.length = v.size
  prefixlen : Option (Fin (8 * v.size + 1))

namespace AddrTest

variable {v : IpVersion} (t : AddrTest v)

/-- The number of bits that are compared. -/
def bits : Nat :=
  match t.prefixlen with
  | none => 8 * v.size
  | some n => n.val

def type (side : AddrSide) : BfMatcherType :=
  match v, side, t.prefixlen with
  | .v4, .source, none => .ip4Saddr
  | .v4, .source, some _ => .ip4Snet
  | .v4, .destination, none => .ip4Daddr
  | .v4, .destination, some _ => .ip4Dnet
  | .v6, .source, none => .ip6Saddr
  | .v6, .source, some _ => .ip6Snet
  | .v6, .destination, none => .ip6Daddr
  | .v6, .destination, some _ => .ip6Dnet

def payload : List Byte :=
  match t.prefixlen with
  | none => t.addr
  | some n => leBytes32 (BitVec.ofNat 32 n.val) ++ t.addr

/-- An address has the first bits of the test's. -/
def Agrees (packet : List Byte) : Prop := ∀ i < t.bits, addrBit packet i = addrBit t.addr i

end AddrTest

/-- The address of the packet. -/
def packetAddr {W : Type} (v : IpVersion) (side : AddrSide) (c : Core W) : List Byte :=
  c.mem.bytesAt (c.mem.load (ctxAddr (c.regs 10) .l3Hdr) 8 + BitVec.ofNat 64 (side.offset v)) v.size

instance {v : IpVersion} (t : AddrTest v) (packet : List Byte) : Decidable (t.Agrees packet) :=
  inferInstanceAs (Decidable (∀ i < t.bits, addrBit packet i = addrBit t.addr i))

/-- A test of the whole address is an equality. -/
theorem AddrTest.agrees_whole {v : IpVersion} {t : AddrTest v} (whole : t.prefixlen = none)
    {packet : List Byte} (sized : packet.length = v.size) : packet = t.addr ↔ t.Agrees packet := by
  rw [address_eq_iff (sized.trans t.sized.symm), AddrTest.Agrees, AddrTest.bits, whole, sized]

/-- A test of a prefix is an equality under its mask. -/
theorem AddrTest.agrees_net {v : IpVersion} {t : AddrTest v} {n : Fin (8 * v.size + 1)}
    (net : t.prefixlen = some n) {packet : List Byte} (sized : packet.length = v.size) :
    masked packet (netMask v.size n.val) = masked t.addr (netMask v.size n.val) ↔
      t.Agrees packet := by
  have fits : n.val ≤ 8 * v.size := Nat.lt_succ_iff.mp n.isLt
  have length := netMask_length fits
  rw [masked_eq_iff (sized.trans length.symm) (t.sized.trans length.symm)
    (netMask_isPrefixMask fits) (by rw [length]; exact fits), AddrTest.Agrees, AddrTest.bits, net]

section Decision

variable {W : Type} {env : Env W BfElfstubId} {maps : BfMaps} {host : Host} {chain : BfChain}

/-- The IPv4 header of a packet, as the host reads it. -/
def ip4Packet (c : Core W) : Ip4Packet where
  saddr := leBits 32 (packetAddr .v4 .source c)
  daddr := leBits 32 (packetAddr .v4 .destination c)
  protocol := leBits 8 (c.mem.bytesAt (c.mem.load (ctxAddr (c.regs 10) .l3Hdr) 8 + 9) 1)

theorem ip4Packet_at {c : Core W} (ipv4 : c.regs 7 = IpVersion.v4.protocol) :
    Ip4At (ip4Packet c) c where
  ipv4 := ipv4
  saddr := load_eq_leBits _ _ (by decide)
  daddr := load_eq_leBits _ _ (by decide)
  protocol := load_eq_leBits _ _ (by decide)

theorem packetAddr_length (v : IpVersion) (side : AddrSide) (c : Core W) :
    (packetAddr v side c).length = v.size := Mem.bytesAt_length ..

/-- A prefix length in a payload. -/
theorem payloadU32_netPrefix {v : IpVersion} {t : AddrTest v} {n : Fin (8 * v.size + 1)}
    (net : t.prefixlen = some n) (type : BfMatcherType) (op : BfMatcherOp) :
    ((⟨type, op, t.payload⟩ : BfMatcher).payloadU32 0).toNat = n.val := by
  have top : 8 * v.size + 1 < 2 ^ 32 := by cases v <;> decide
  have bytes : t.payload = leBytes32 (BitVec.ofNat 32 n.val) ++ t.addr := by
    rw [AddrTest.payload, net]
  have first : (⟨type, op, t.payload⟩ : BfMatcher).payloadU32 0 = BitVec.ofNat 32 n.val := by
    rw [bytes]
    exact leBits_leBytes32 _
  rw [first, BitVec.toNat_ofNat, Nat.mod_eq_of_lt (by have := n.isLt; omega)]

/-- The decision about a packet of IPv4. -/
theorem ip4Holds_addr (t : AddrTest .v4) (side : AddrSide) (op : BfMatcherOp) (c : Core W) :
    ip4Holds (ip4Packet c) ⟨t.type side, op, t.payload⟩ =
      opHolds op (t.Agrees (packetAddr .v4 side c)) := by
  cases net : t.prefixlen with
  | none =>
      have word : (⟨t.type side, op, t.payload⟩ : BfMatcher).payloadU32 0 = leBits 32 t.addr := by
        have bytes : t.payload = t.addr := by rw [AddrTest.payload, net]
        rw [bytes]
        exact congrArg (leBits 32) (List.take_of_length_le t.sized.le)
      have whole := (leBits_inj (n := 4) (packetAddr_length .v4 side c) t.sized).trans
        (AddrTest.agrees_whole net (packetAddr_length .v4 side c))
      have holds : ip4Holds (ip4Packet c) ⟨t.type side, op, t.payload⟩ =
          opHolds op (leBits 32 (packetAddr .v4 side c) = leBits 32 t.addr) := by
        rw [← word]
        cases side with
        | source => simp only [ip4Holds, AddrTest.type, net, ip4Packet]
        | destination => simp only [ip4Holds, AddrTest.type, net, ip4Packet]
      rw [holds]
      exact congrArg (opHolds op) (decide_eq_decide.mpr whole)
  | some n =>
      have fits : n.val ≤ 8 * 4 := Nat.lt_succ_iff.mp n.isLt
      have length := netMask_length fits
      have word : (⟨t.type side, op, t.payload⟩ : BfMatcher).payloadU32 1 = leBits 32 t.addr := by
        have bytes : t.payload = leBytes32 (BitVec.ofNat 32 n.val) ++ t.addr := by
          rw [AddrTest.payload, net]
        rw [bytes]
        exact congrArg (leBits 32) (List.take_of_length_le t.sized.le)
      have mask : (⟨t.type side, op, t.payload⟩ : BfMatcher).netmask =
          leBits 32 (netMask 4 n.val) := by
        rw [BfMatcher.netmask, payloadU32_netPrefix net]
      have sized := packetAddr_length .v4 side c
      have lenA : (packetAddr .v4 side c).length = (netMask 4 n.val).length :=
        sized.trans length.symm
      have lenB : t.addr.length = (netMask 4 n.val).length := t.sized.trans length.symm
      have masks : leBits 32 (packetAddr .v4 side c) &&& leBits 32 (netMask 4 n.val) =
          leBits 32 t.addr &&& leBits 32 (netMask 4 n.val) ↔ t.Agrees (packetAddr .v4 side c) := by
        rw [← leBits_masked 32 lenA, ← leBits_masked 32 lenB]
        exact (leBits_inj (n := 4) ((masked_length lenA).trans sized)
          ((masked_length lenB).trans t.sized)).trans (AddrTest.agrees_net net sized)
      have holds : ip4Holds (ip4Packet c) ⟨t.type side, op, t.payload⟩ =
          opHolds op (leBits 32 (packetAddr .v4 side c) &&& leBits 32 (netMask 4 n.val) =
            leBits 32 t.addr &&& leBits 32 (netMask 4 n.val)) := by
        rw [← word, ← mask]
        cases side with
        | source => simp only [ip4Holds, AddrTest.type, net, ip4Packet]
        | destination => simp only [ip4Holds, AddrTest.type, net, ip4Packet]
      rw [holds]
      exact congrArg (opHolds op) (decide_eq_decide.mpr masks)

/-- The comparison of an IPv6 matcher, after the loads. -/
def ip6TestSlots (t : AddrTest .v6) (op : BfMatcherOp) : List Emitted :=
  match t.prefixlen with
  | none => addrCompareSlots op t.addr
  | some n =>
      ip6MaskSlots (netMask 16 n.val) ++ addrCompareSlots op (masked t.addr (netMask 16 n.val))

theorem ip6Slots_addr (t : AddrTest .v6) (side : AddrSide) (op : BfMatcherOp) :
    ip6Slots ⟨t.type side, op, t.payload⟩ =
      nextSlot (bpfJmpImm .ne 7 ((htobe16 ethPIpv6).setWidth 32) 0) ::
        { insn := bpfLdxMem .dw 6 10 (ctxOff .l3Hdr) } ::
          (ip6LoadSlots (side.offset .v6) ++ ip6TestSlots t op) := by
  cases net : t.prefixlen with
  | none =>
      have bytes : t.payload = t.addr := by rw [AddrTest.payload, net]
      rw [bytes]
      cases side with
      | source => simp only [ip6Slots, ip6AddrSlots, ip6TestSlots, AddrTest.type, net]; rfl
      | destination => simp only [ip6Slots, ip6AddrSlots, ip6TestSlots, AddrTest.type, net]; rfl
  | some n =>
      have prefixlen := fun type => payloadU32_netPrefix net type op
      have data : (t.payload.drop 4).take 16 = t.addr := by
        rw [AddrTest.payload, net]
        exact List.take_of_length_le t.sized.le
      cases side with
      | source =>
          simp only [ip6Slots, ip6NetSlots, ip6TestSlots, AddrTest.type, net, prefixlen, data]
          rfl
      | destination =>
          simp only [ip6Slots, ip6NetSlots, ip6TestSlots, AddrTest.type, net, prefixlen, data]
          rfl

/-- The matchers of IPv6 headers start in one way. -/
theorem eval_ip6Opens {rest : List Emitted} {c : Core W} (ipv6 : c.regs 7 = IpVersion.v6.protocol) :
    eval env 0 ((nextSlot (bpfJmpImm .ne 7 ((htobe16 ethPIpv6).setWidth 32) 0) ::
        { insn := bpfLdxMem .dw 6 10 (ctxOff .l3Hdr) } :: rest).map (Emitted.link maps)) c =
      eval env 0 (rest.map (Emitted.link maps))
        (c.setReg 6 (c.mem.load (ctxAddr (c.regs 10) .l3Hdr) 8)) := by
  have checked : (bpfJmpImm .ne 7 ((htobe16 ethPIpv6).setWidth 32) 0).taken c = false := by
    rw [taken_imm, ipv6]
    decide
  rw [List.map_cons, eval_nextSlot rfl, checked, if_neg Bool.false_ne_true, List.map_cons,
    link_insn, eval_ldx, add_ctxOff]
  rfl

/-- The decision about a packet of IPv6. -/
theorem eval_ip6Addr (t : AddrTest .v6) (side : AddrSide) (op : BfMatcherOp) {c : Core W}
    (ipv6 : c.regs 7 = IpVersion.v6.protocol) :
    ∃ d, eval env 0 ((ip6Slots ⟨t.type side, op, t.payload⟩).map (Emitted.link maps)) c =
      if opHolds op (t.Agrees (packetAddr .v6 side c)) then .fall 0 d else .out d := by
  let header := c.setReg 6 (c.mem.load (ctxAddr (c.regs 10) .l3Hdr) 8)
  have small : side.offset .v6 + 8 < 2 ^ 15 := by cases side <;> decide
  obtain ⟨d, loads, first, second⟩ := @eval_ip6Load W env maps _ small _ header
    (show header.mem.bytesAt (header.regs 6 + BitVec.ofNat 64 (side.offset .v6)) 16 =
      packetAddr .v6 side c from rfl)
  have sized := packetAddr_length .v6 side c
  have start : eval env 0 ((ip6Slots ⟨t.type side, op, t.payload⟩).map (Emitted.link maps)) c =
      eval env 0 ((ip6TestSlots t op).map (Emitted.link maps)) d := by
    rw [ip6Slots_addr, eval_ip6Opens ipv6, List.map_append]
    exact eval_append_fall _ loads
  rw [start, ip6TestSlots]
  cases net : t.prefixlen with
  | none =>
      obtain ⟨e, ran⟩ := @eval_addrCompare W env maps op _ _ sized t.sized d first second
      refine ⟨e, ran.trans (if_congr ?_ rfl rfl)⟩
      rw [decide_eq_decide.mpr (AddrTest.agrees_whole net sized)]
  | some n =>
      have fits : n.val ≤ 8 * 16 := Nat.lt_succ_iff.mp n.isLt
      have length := netMask_length fits
      obtain ⟨e, masks, first, second⟩ := @eval_ip6Mask W env maps _ _ _ sized length
        (netMask_isPrefixMask fits) d first second
      have lenA : (masked (packetAddr .v6 side c) (netMask 16 n.val)).length = 16 :=
        (masked_length (sized.trans length.symm)).trans sized
      have lenB : (masked t.addr (netMask 16 n.val)).length = 16 :=
        (masked_length (t.sized.trans length.symm)).trans t.sized
      obtain ⟨f, ran⟩ := @eval_addrCompare W env maps op _ _ lenA lenB e first second
      have agrees : opHolds op (masked (packetAddr .v6 side c) (netMask 16 n.val) =
          masked t.addr (netMask 16 n.val)) = opHolds op (t.Agrees (packetAddr .v6 side c)) :=
        congrArg (opHolds op) (decide_eq_decide.mpr (AddrTest.agrees_net net sized))
      refine ⟨f, ?_⟩
      rw [List.map_append, eval_append_fall _ masks, ran, agrees]

end Decision

/-! ## The matchers -/

/-- What the operator wants of the address of the packet. -/
def AddrTest.Wanted {v : IpVersion} (t : AddrTest v) (op : BfMatcherOp) (packet : List Byte) : Prop :=
  match op with
  | .eq => t.Agrees packet
  | _ => ¬ t.Agrees packet

theorem opHolds_iff_wanted {v : IpVersion} (t : AddrTest v) (op : BfMatcherOp)
    (packet : List Byte) : opHolds op (t.Agrees packet) = true ↔ t.Wanted op packet := by
  cases op <;> simp [opHolds, AddrTest.Wanted]

/-- The code of an address matcher: it goes on for the addresses the operator wants, and leaves
for all others and for the packets of other protocols. -/
def DecidesAddr {v : IpVersion} (es : List Emitted) (t : AddrTest v) (side : AddrSide)
    (op : BfMatcherOp) : Prop :=
  ∀ (W : Type) (env : Env W BfElfstubId) (maps : BfMaps) (c : Core W),
    (c.regs 7 = v.protocol →
      (Continues env maps es c ↔ t.Wanted op (packetAddr v side c)) ∧
      (Skips env maps es c ↔ ¬ t.Wanted op (packetAddr v side c))) ∧
    (c.regs 7 ≠ v.protocol → Skips env maps es c)

section Exact

variable {host : Host} {chain : BfChain}

theorem matcherSlots_addr4 (t : AddrTest .v4) (side : AddrSide) (op : BfMatcherOp) :
    matcherSlots host chain ⟨t.type side, op, t.payload⟩ =
      ip4Slots ⟨t.type side, op, t.payload⟩ := by
  cases net : t.prefixlen with
  | none => cases side <;> simp only [matcherSlots, AddrTest.type, net]
  | some n => cases side <;> simp only [matcherSlots, AddrTest.type, net]

theorem matcherSlots_addr6 (t : AddrTest .v6) (side : AddrSide) (op : BfMatcherOp) :
    matcherSlots host chain ⟨t.type side, op, t.payload⟩ =
      ip6Slots ⟨t.type side, op, t.payload⟩ := by
  cases net : t.prefixlen with
  | none => cases side <;> simp only [matcherSlots, AddrTest.type, net]
  | some n => cases side <;> simp only [matcherSlots, AddrTest.type, net]

theorem type_isIp4 (t : AddrTest .v4) (side : AddrSide) : (t.type side).isIp4 = true := by
  cases net : t.prefixlen with
  | none => cases side <;> simp [AddrTest.type, net, BfMatcherType.isIp4]
  | some n => cases side <;> simp [AddrTest.type, net, BfMatcherType.isIp4]

/-- What both versions share: the check of the ethertype comes first. -/
theorem decidesAddr_of_eval {v : IpVersion} {t : AddrTest v} {side : AddrSide} {op : BfMatcherOp}
    {imm : BitVec 32} (check : imm.signExtend 64 = v.protocol) {rest : List Emitted}
    (decides : ∀ (W : Type) (env : Env W BfElfstubId) (maps : BfMaps) (c : Core W),
      c.regs 7 = v.protocol → ∃ d,
        eval env 0 ((nextSlot (bpfJmpImm .ne 7 imm 0) :: rest).map (Emitted.link maps)) c =
          if opHolds op (t.Agrees (packetAddr v side c)) then .fall 0 d else .out d) :
    DecidesAddr (nextSlot (bpfJmpImm .ne 7 imm 0) :: rest) t side op := by
  intro W env maps c
  constructor
  · intro proto
    obtain ⟨d, ran⟩ := decides W env maps c proto
    obtain ⟨goesOn, leaves⟩ := decides_of_eval ran
    rw [goesOn, leaves, ← Bool.not_eq_true, opHolds_iff_wanted]
    exact ⟨Iff.rfl, Iff.rfl⟩
  · intro other
    refine ⟨c, runs_of_eval (e := .out c) ?_⟩
    rw [List.map_cons, eval_nextSlot rfl, taken_ne, check, if_pos (decide_eq_true other)]
    rfl

/-- Generation succeeds for the networks whose prefix fits. -/
theorem bfMatcherGenerate_net6 {type : BfMatcherType} (net : type = .ip6Snet ∨ type = .ip6Dnet)
    (op : BfMatcherOp) {payload mask : List Byte}
    (known : bfPrefixToMask 16 ((⟨type, op, payload⟩ : BfMatcher).payloadU32 0).toNat = some mask)
    (p : BfProgram) : ∃ p', bfMatcherGenerate ⟨type, op, payload⟩ p = .ok ((), p') := by
  rcases net with rfl | rfl
  · simp only [bfMatcherGenerate, bfMatcherGenerateIp6, bfMatcherGenerateIp6Net, known]
    by_cases full : mask.getD 15 0 = 0xff
    · simp only [full, ne_eq, not_true, if_false]
      cases op <;> exact ⟨_, rfl⟩
    · simp only [full, ne_eq, not_false_eq_true, if_true]
      cases op <;> exact ⟨_, rfl⟩
  · simp only [bfMatcherGenerate, bfMatcherGenerateIp6, bfMatcherGenerateIp6Net, known]
    by_cases full : mask.getD 15 0 = 0xff
    · simp only [full, ne_eq, not_true, if_false]
      cases op <;> exact ⟨_, rfl⟩
    · simp only [full, ne_eq, not_false_eq_true, if_true]
      cases op <;> exact ⟨_, rfl⟩

theorem bfMatcherGenerate_addr {v : IpVersion} (t : AddrTest v) (side : AddrSide)
    (op : BfMatcherOp) (p : BfProgram) :
    ∃ p', bfMatcherGenerate ⟨t.type side, op, t.payload⟩ p = .ok ((), p') := by
  cases v with
  | v4 =>
      refine ⟨_, bfMatcherGenerate_ip4 (type_isIp4 t side) (fun net => ?_) p⟩
      cases whole : t.prefixlen with
      | none => cases side <;> simp [AddrTest.type, whole] at net
      | some n =>
          rw [payloadU32_netPrefix whole]
          exact Nat.lt_succ_iff.mp n.isLt
  | v6 =>
      cases whole : t.prefixlen with
      | none =>
          cases side with
          | source =>
              simp only [AddrTest.type, whole]
              cases op <;> exact ⟨_, rfl⟩
          | destination =>
              simp only [AddrTest.type, whole]
              cases op <;> exact ⟨_, rfl⟩
      | some n =>
          have net : t.type side = .ip6Snet ∨ t.type side = .ip6Dnet := by
            cases side <;> simp [AddrTest.type, whole]
          have fits : ¬ 8 * 16 < n.val := Nat.not_lt.mpr (Nat.lt_succ_iff.mp n.isLt)
          have known : bfPrefixToMask 16
              ((⟨t.type side, op, t.payload⟩ : BfMatcher).payloadU32 0).toNat =
              some (netMask 16 n.val) := by
            rw [payloadU32_netPrefix whole, netMask, bfPrefixToMask, if_neg fits, Option.getD_some]
          exact bfMatcherGenerate_net6 net op known p

/-- The code of every address matcher decides the addresses. -/
theorem matcherSlots_decidesAddr {v : IpVersion} (t : AddrTest v) (side : AddrSide)
    (op : BfMatcherOp) :
    DecidesAddr (matcherSlots host chain ⟨t.type side, op, t.payload⟩) t side op := by
  cases v with
  | v4 =>
      rw [matcherSlots_addr4]
      refine decidesAddr_of_eval (by decide) fun W env maps c ipv4 => ?_
      obtain ⟨d, ran, -⟩ := @eval_ip4 W env maps _ c (ip4Packet_at ipv4)
        ⟨t.type side, op, t.payload⟩ (type_isIp4 t side)
      rw [ip4Holds_addr] at ran
      exact ⟨d, ran⟩
  | v6 =>
      rw [matcherSlots_addr6]
      refine decidesAddr_of_eval (by decide) fun W env maps c ipv6 => ?_
      exact eval_ip6Addr t side op ipv6

/-- **Addresses and networks.**  Every address matcher is generated, and exact. -/
theorem addrMatcher_exact {v : IpVersion} (t : AddrTest v) (side : AddrSide) (op : BfMatcherOp)
    {p : BfProgram} (tracked : p.Tracked) :
    ∃ es, bfMatcherGenerate ⟨t.type side, op, t.payload⟩ p = .ok ((), p.append es) ∧
      DecidesAddr es t side op := by
  obtain ⟨p', generated⟩ := bfMatcherGenerate_addr t side op p
  have emitted := bfMatcherGenerate_emits _ p p' tracked rfl rfl generated
  exact ⟨_, emitted ▸ generated, matcherSlots_decidesAddr t side op⟩

/-- The network 2001:db8::/33. -/
def documentationNet : AddrTest .v6 where
  addr := [0x20, 0x01, 0x0d, 0xb8, 0, 0, 0, 0, 0, 0, 0, 0, 0, 0, 0, 0]
  sized := rfl
  prefixlen := some 33

theorem documentationNet_exact :
    ∃ es, bfMatcherGenerate ⟨.ip6Dnet, .ne, documentationNet.payload⟩ sampleProgram =
        .ok ((), sampleProgram.append es) ∧
      DecidesAddr es documentationNet .destination .ne :=
  addrMatcher_exact documentationNet .destination .ne (bfProgramNew_tracked ..)

end Exact

end Bpfilter

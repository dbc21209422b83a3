/-
# Lib.Address -- the bits of an address

An address is a list of bytes in network order, `addrBit` its bits from the left.
The host loads an address as little-endian words: `getLsbD_leBits` relates the bits
of a word to those of its bytes, so that masks and comparisons of words are masks
and comparisons of addresses.
-/
import Mathlib.Data.List.GetD
import Bpfilter.Lib.Matcher

namespace Bpfilter

set_option autoImplicit false

open Ebpf

/-- The `i`-th bit of an address, from the left. -/
def addrBit (addr : List Byte) (i : Nat) : Bool := (addr.getD (i / 8) 0).getMsbD (i % 8)

theorem addrBit_append {addr rest : List Byte} {i : Nat} (inside : i < 8 * addr.length) :
    addrBit (addr ++ rest) i = addrBit addr i := by
  have byte : i / 8 < addr.length := by omega
  rw [addrBit, addrBit, List.getD_eq_getElem?_getD, List.getD_eq_getElem?_getD,
    List.getElem?_append_left byte]

/-- Addresses with the same bits are the same. -/
theorem address_eq_iff {a b : List Byte} (same : a.length = b.length) :
    a = b ↔ ∀ i < 8 * a.length, addrBit a i = addrBit b i := by
  constructor
  · rintro rfl i _
    rfl
  · intro agree
    refine List.ext_getElem same fun j inA inB => ?_
    apply BitVec.eq_of_getMsbD_eq
    intro k bound
    have bit := agree (8 * j + k) (by omega)
    rw [addrBit, addrBit, show (8 * j + k) / 8 = j by omega, show (8 * j + k) % 8 = k by omega,
      List.getD_eq_getElem _ _ inA, List.getD_eq_getElem _ _ inB] at bit
    exact bit

/-! ## Masks -/

/-- An address under a mask. -/
def masked (addr mask : List Byte) : List Byte := List.zipWith (· &&& ·) addr mask

theorem masked_length {addr mask : List Byte} (same : addr.length = mask.length) :
    (masked addr mask).length = addr.length := by
  rw [masked, List.length_zipWith, same, min_self]

theorem getD_masked {addr mask : List Byte} (same : addr.length = mask.length) (j : Nat) :
    (masked addr mask).getD j 0 = addr.getD j 0 &&& mask.getD j 0 := by
  have length := masked_length same
  by_cases inside : j < addr.length
  · have insideMask : j < mask.length := same ▸ inside
    rw [List.getD_eq_getElem _ _ inside, List.getD_eq_getElem _ _ insideMask,
      List.getD_eq_getElem _ _ (length.symm ▸ inside)]
    exact List.getElem_zipWith
  · rw [List.getD_eq_default _ _ (by omega), List.getD_eq_default _ _ (by omega)]
    exact BitVec.zero_and.symm

theorem addrBit_masked {addr mask : List Byte} (same : addr.length = mask.length) (i : Nat) :
    addrBit (masked addr mask) i = (addrBit addr i && addrBit mask i) := by
  rw [addrBit, getD_masked same, BitVec.getMsbD_and]
  rfl

/-- A mask of the first bits. -/
def IsPrefixMask (mask : List Byte) (prefixlen : Nat) : Prop :=
  ∀ i < 8 * mask.length, addrBit mask i = decide (i < prefixlen)

/-- Addresses agree under a prefix mask when their prefixes do. -/
theorem masked_eq_iff {a b mask : List Byte} {prefixlen : Nat} (lenA : a.length = mask.length)
    (lenB : b.length = mask.length) (isMask : IsPrefixMask mask prefixlen)
    (fits : prefixlen ≤ 8 * mask.length) :
    masked a mask = masked b mask ↔ ∀ i < prefixlen, addrBit a i = addrBit b i := by
  have lengths : (masked a mask).length = (masked b mask).length := by
    rw [masked_length lenA, masked_length lenB, lenA, lenB]
  rw [address_eq_iff lengths, masked_length lenA]
  constructor
  · intro agree i lt
    have bit := agree i (by omega)
    rwa [addrBit_masked lenA, addrBit_masked lenB, isMask i (by omega), decide_eq_true lt,
      Bool.and_true, Bool.and_true] at bit
  · intro agree i inside
    rw [addrBit_masked lenA, addrBit_masked lenB, isMask i (by omega)]
    by_cases lt : i < prefixlen
    · rw [agree i lt]
    · rw [decide_eq_false lt, Bool.and_false, Bool.and_false]

/-! ## Words -/

theorem testBit_leValue (bytes : List Byte) (k : Nat) :
    (Mem.leValue bytes).testBit k = (bytes.getD (k / 8) 0).getLsbD (k % 8) := by
  induction bytes generalizing k with
  | nil => simp [Mem.leValue]
  | cons b bytes ih =>
      have bound : b.toNat < 2 ^ 8 := b.isLt
      rw [Mem.leValue, Nat.add_comm, show 256 = 2 ^ 8 from rfl, Nat.testBit_two_pow_mul_add _ bound]
      by_cases first : k < 8
      · rw [if_pos first, show k / 8 = 0 by omega, Nat.mod_eq_of_lt first]
        rfl
      · rw [if_neg first, ih, show k / 8 = (k - 8) / 8 + 1 by omega, List.getD_cons_succ,
          show (k - 8) % 8 = k % 8 by omega]

/-- The bits of a word are those of its bytes. -/
theorem getLsbD_leBits (w : Nat) (bytes : List Byte) (k : Nat) :
    (leBits w bytes).getLsbD k = (decide (k < w) && (bytes.getD (k / 8) 0).getLsbD (k % 8)) := by
  rw [leBits, BitVec.getLsbD_ofNat, testBit_leValue]

/-- A word of masked bytes is a masked word. -/
theorem leBits_masked (w : Nat) {a mask : List Byte} (same : a.length = mask.length) :
    leBits w (masked a mask) = leBits w a &&& leBits w mask := by
  apply BitVec.eq_of_getLsbD_eq
  intro k bound
  rw [BitVec.getLsbD_and]
  simp only [getLsbD_leBits, bound, decide_true, Bool.true_and]
  rw [getD_masked same, BitVec.getLsbD_and]

/-- Words of as many bytes as they hold are equal when their bytes are. -/
theorem leBits_inj {n : Nat} {a b : List Byte} (lenA : a.length = n) (lenB : b.length = n) :
    leBits (8 * n) a = leBits (8 * n) b ↔ a = b := by
  constructor
  · intro same
    refine List.ext_getElem (lenA.trans lenB.symm) fun j inA inB => ?_
    apply BitVec.eq_of_getLsbD_eq
    intro k bound
    have bit := congrArg (fun v => v.getLsbD (8 * j + k)) same
    have inside : 8 * j + k < 8 * n := by omega
    simp only [getLsbD_leBits, inside, decide_true, Bool.true_and] at bit
    rwa [show (8 * j + k) / 8 = j by omega, show (8 * j + k) % 8 = k by omega,
      List.getD_eq_getElem _ _ inA, List.getD_eq_getElem _ _ inB] at bit
  · rintro rfl
    rfl

/-- A load is the word of the bytes it reads. -/
theorem load_eq_leBits (m : Mem) (a : Addr) {n : Nat} (fits : n ≤ 8) :
    m.load a n = (leBits (8 * n) (m.bytesAt a n)).setWidth 64 := by
  apply BitVec.eq_of_toNat_eq
  have bound := Mem.leValue_lt (m.bytesAt a n)
  rw [Mem.bytesAt_length, show 256 = 2 ^ 8 from rfl, ← Nat.pow_mul] at bound
  have room := Nat.pow_le_pow_right (show 0 < 2 by decide) (show 8 * n ≤ 64 by omega)
  rw [Mem.load, leBits, BitVec.toNat_setWidth, BitVec.toNat_ofNat, BitVec.toNat_ofNat,
    Nat.mod_eq_of_lt bound]

end Bpfilter

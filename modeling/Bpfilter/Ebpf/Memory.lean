/-
# Ebpf.Memory -- flat byte memory, little-endian loads and stores

Memory is a function from 64-bit addresses to bytes.  A load of `n` bytes reads
them in little-endian order and zero-extends; a store of `n` bytes writes the
low `n` bytes of the value.  Addresses wrap, so a range is described by the
distance `x - a` from its start and never by comparing addresses
(`InRange a n x`); two ranges are disjoint when no address is in both
(`Disjoint`), and `disjoint_offset` decides it for two ranges given by constant
offsets from one base.

`bytesAt` reads a range as a list of bytes and `write` writes one; a load followed by a
store is such a write (`store_load`).
-/
import Mathlib.Data.BitVec
import Mathlib.Tactic.Ring

namespace Ebpf

set_option autoImplicit false

abbrev Byte := BitVec 8

abbrev Addr := BitVec 64

abbrev Mem := Addr → Byte

namespace Mem

/-! ## Ranges -/

/-- `x` is one of the `n` addresses from `a` on. -/
def InRange (a : Addr) (n : Nat) (x : Addr) : Prop := (x - a).toNat < n

instance (a : Addr) (n : Nat) (x : Addr) : Decidable (InRange a n x) :=
  inferInstanceAs (Decidable (_ < _))

/-- No address is in both ranges. -/
def Disjoint (a : Addr) (n : Nat) (b : Addr) (k : Nat) : Prop :=
  ∀ x, InRange a n x → ¬ InRange b k x

theorem Disjoint.symm {a b : Addr} {n k : Nat} (apart : Disjoint a n b k) :
    Disjoint b k a n := fun x inB inA => apart x inA inB

/-- The `i`-th address of a range is in it. -/
theorem inRange_add (a : Addr) (n i : Nat) (bound : i < n) (small : n ≤ 2 ^ 64) :
    InRange a n (a + BitVec.ofNat 64 i) := by
  unfold InRange
  have dist : a + BitVec.ofNat 64 i - a = BitVec.ofNat 64 i := by ring
  rw [dist, BitVec.toNat_ofNat, Nat.mod_eq_of_lt (by omega)]
  exact bound

theorem Disjoint.mono {a b : Addr} {n k n' k' : Nat} (apart : Disjoint a n b k)
    (le₁ : n' ≤ n) (le₂ : k' ≤ k) : Disjoint a n' b k' :=
  fun x inA inB => apart x (Nat.lt_of_lt_of_le inA le₁) (Nat.lt_of_lt_of_le inB le₂)

/-- A part of a range is in the range. -/
theorem InRange.of_sub {b x : Addr} {k : Nat} (d m : Nat) (inside : d + m ≤ k)
    (small : k ≤ 2 ^ 64) (inSub : InRange (b + BitVec.ofNat 64 d) m x) : InRange b k x := by
  unfold InRange at inSub ⊢
  by_cases empty : m = 0
  · omega
  have split : x - b = (x - (b + BitVec.ofNat 64 d)) + BitVec.ofNat 64 d := by ring
  have hd : (BitVec.ofNat 64 d).toNat = d := by
    rw [BitVec.toNat_ofNat, Nat.mod_eq_of_lt (by omega)]
  rw [split, BitVec.toNat_add, hd, Nat.mod_eq_of_lt (by omega)]
  omega

/-- A range inside another is disjoint from whatever the larger one is disjoint from. -/
theorem Disjoint.sub {a b : Addr} {n k : Nat} (apart : Disjoint a n b k) (d m : Nat)
    (inside : d + m ≤ k) (small : k ≤ 2 ^ 64) :
    Disjoint a n (b + BitVec.ofNat 64 d) m :=
  fun x inA inSub => apart x inA (inSub.of_sub d m inside small)

/-- Two ranges at constant offsets from one base. -/
theorem disjoint_offset (base : Addr) (i n j k : Nat) (apart : i + n ≤ j ∨ j + k ≤ i)
    (smallI : i + n ≤ 2 ^ 64) (smallJ : j + k ≤ 2 ^ 64) :
    Disjoint (base + BitVec.ofNat 64 i) n (base + BitVec.ofNat 64 j) k := by
  intro x inA inB
  unfold InRange at inA inB
  by_cases emptyA : n = 0
  · omega
  by_cases emptyB : k = 0
  · omega
  have hi : (BitVec.ofNat 64 i).toNat = i := by
    rw [BitVec.toNat_ofNat, Nat.mod_eq_of_lt (by omega)]
  have hj : (BitVec.ofNat 64 j).toNat = j := by
    rw [BitVec.toNat_ofNat, Nat.mod_eq_of_lt (by omega)]
  have ofI : x - base = (x - (base + BitVec.ofNat 64 i)) + BitVec.ofNat 64 i := by ring
  have ofJ : x - base = (x - (base + BitVec.ofNat 64 j)) + BitVec.ofNat 64 j := by ring
  have valueI : (x - base).toNat = (x - (base + BitVec.ofNat 64 i)).toNat + i := by
    rw [ofI, BitVec.toNat_add, hi, Nat.mod_eq_of_lt (by omega)]
  have valueJ : (x - base).toNat = (x - (base + BitVec.ofNat 64 j)).toNat + j := by
    rw [ofJ, BitVec.toNat_add, hj, Nat.mod_eq_of_lt (by omega)]
  omega

/-! ## Loads and stores -/

/-- The `n` bytes from `a` on. -/
def bytesAt (m : Mem) (a : Addr) : Nat → List Byte
  | 0 => []
  | n + 1 => m a :: bytesAt m (a + 1) n

/-- Little-endian value of a byte list. -/
def leValue : List Byte → Nat
  | [] => 0
  | b :: bs => b.toNat + 256 * leValue bs

/-- Load `size` bytes, zero-extended to 64 bits. -/
def load (m : Mem) (a : Addr) (size : Nat) : BitVec 64 :=
  BitVec.ofNat 64 (leValue (m.bytesAt a size))

/-- The `i`-th byte of a value, the lowest first. -/
def byteOf (v : BitVec 64) (i : Nat) : Byte := (v >>> (8 * i)).setWidth 8

/-- Store the low `size` bytes of `v` at `a`. -/
def store (m : Mem) (a : Addr) (size : Nat) (v : BitVec 64) : Mem :=
  fun x => if InRange a size x then byteOf v (x - a).toNat else m x

theorem bytesAt_length (m : Mem) (a : Addr) (n : Nat) : (m.bytesAt a n).length = n := by
  induction n generalizing a with
  | zero => rfl
  | succ n ih => simp [bytesAt, ih]

theorem load_zeroes (a : Addr) (n : Nat) : load (fun _ => 0) a n = 0 := by
  have none : ∀ a : Addr, leValue (bytesAt (fun _ => 0) a n) = 0 := by
    induction n with
    | zero => exact fun _ => rfl
    | succ n ih =>
        intro a
        rw [bytesAt, leValue, ih]
        rfl
  rw [load, none]
  rfl

theorem store_apply_of_not_inRange (m : Mem) (a x : Addr) (n : Nat) (v : BitVec 64)
    (outside : ¬ InRange a n x) : m.store a n v x = m x := by
  simp [store, outside]

/-! ## Reading what was stored -/

/-- The `i`-th byte of a range. -/
theorem getElem?_bytesAt (m : Mem) (a : Addr) (n i : Nat) :
    (m.bytesAt a n)[i]? = if i < n then some (m (a + BitVec.ofNat 64 i)) else none := by
  induction n generalizing a i with
  | zero => simp [bytesAt]
  | succ n ih =>
      cases i with
      | zero => simp [bytesAt]
      | succ i =>
          have shift : a + 1 + BitVec.ofNat 64 i = a + BitVec.ofNat 64 (i + 1) := by
            rw [BitVec.ofNat_add]
            show a + 1 + BitVec.ofNat 64 i = a + (BitVec.ofNat 64 i + 1)
            ring
          rw [bytesAt, List.getElem?_cons_succ, ih, shift]
          simp

/-- A range reads the same in two memories that agree on it. -/
theorem bytesAt_congr {m m' : Mem} {a : Addr} {n : Nat} (small : n ≤ 2 ^ 64)
    (same : ∀ x, InRange a n x → m x = m' x) : m.bytesAt a n = m'.bytesAt a n := by
  apply List.ext_getElem?
  intro i
  rw [getElem?_bytesAt, getElem?_bytesAt]
  split
  · rename_i inside
    rw [same _ (inRange_add a n i inside small)]
  · rfl

theorem load_congr {m m' : Mem} {a : Addr} {n : Nat} (small : n ≤ 2 ^ 64)
    (same : ∀ x, InRange a n x → m x = m' x) : m.load a n = m'.load a n := by
  rw [load, load, bytesAt_congr small same]

/-- A store elsewhere is not seen. -/
theorem bytesAt_store_disjoint (m : Mem) {a b : Addr} {n k : Nat} (v : BitVec 64)
    (apart : Disjoint a n b k) (small : n ≤ 2 ^ 64) :
    (m.store b k v).bytesAt a n = m.bytesAt a n :=
  bytesAt_congr small fun x inside => store_apply_of_not_inRange m b x k v (apart x inside)

theorem load_store_disjoint (m : Mem) {a b : Addr} {n k : Nat} (v : BitVec 64)
    (apart : Disjoint a n b k) (small : n ≤ 2 ^ 64) :
    (m.store b k v).load a n = m.load a n := by
  rw [load, load, bytesAt_store_disjoint m v apart small]

theorem store_apply (m : Mem) (a : Addr) (n i : Nat) (v : BitVec 64) (inside : i < n)
    (small : n ≤ 2 ^ 64) : m.store a n v (a + BitVec.ofNat 64 i) = byteOf v i := by
  have dist : (a + BitVec.ofNat 64 i - a).toNat = i := by
    rw [show a + BitVec.ofNat 64 i - a = BitVec.ofNat 64 i by ring, BitVec.toNat_ofNat,
      Nat.mod_eq_of_lt (by omega)]
  simp only [store, inRange_add a n i inside small, if_true, dist]

/-- What a store leaves in its range. -/
theorem bytesAt_store_same (m : Mem) (a : Addr) (n : Nat) (v : BitVec 64) (small : n ≤ 2 ^ 64) :
    (m.store a n v).bytesAt a n = (List.range n).map (byteOf v) := by
  apply List.ext_getElem?
  intro i
  rw [getElem?_bytesAt, List.getElem?_map]
  by_cases inside : i < n
  · rw [if_pos inside, List.getElem?_range inside, Option.map_some,
      store_apply m a n i v inside small]
  · rw [if_neg inside, List.getElem?_eq_none (by simpa using inside), Option.map_none]

theorem leValue_append (a b : List Byte) :
    leValue (a ++ b) = leValue a + 256 ^ a.length * leValue b := by
  induction a with
  | nil => simp [leValue]
  | cons x xs ih =>
      rw [List.cons_append, leValue, leValue, ih, List.length_cons, pow_succ]
      ring

/-- The low bytes of a value, read back. -/
theorem leValue_byteOf (v : BitVec 64) (n : Nat) :
    leValue ((List.range n).map (byteOf v)) = v.toNat % 256 ^ n := by
  induction n with
  | zero => simp [leValue, Nat.mod_one]
  | succ n ih =>
      have byte : (byteOf v n).toNat = v.toNat / 256 ^ n % 256 := by
        rw [byteOf, BitVec.toNat_setWidth, BitVec.toNat_ushiftRight, Nat.shiftRight_eq_div_pow,
          Nat.pow_mul]
      rw [List.range_succ, List.map_append, leValue_append, ih]
      simp only [List.map_cons, List.map_nil, leValue, List.length_map, List.length_range,
        Nat.mul_zero, Nat.add_zero, byte]
      rw [pow_succ, Nat.mod_mul]

/-- A load reads back what was stored there. -/
theorem load_store_same (m : Mem) (a : Addr) (n : Nat) (v : BitVec 64) (small : n ≤ 2 ^ 64) :
    (m.store a n v).load a n = BitVec.ofNat 64 (v.toNat % 256 ^ n) := by
  rw [load, bytesAt_store_same m a n v small, leValue_byteOf]

/-- A value that fits, stored and loaded. -/
theorem load_store_fits (m : Mem) (a : Addr) {n : Nat} {v : BitVec 64} (small : n ≤ 2 ^ 64)
    (fits : v.toNat < 256 ^ n) : (m.store a n v).load a n = v := by
  rw [load_store_same m a n v small, Nat.mod_eq_of_lt fits, BitVec.ofNat_toNat, BitVec.setWidth_eq]

theorem load_store_reg (m : Mem) (a : Addr) (v : BitVec 64) : (m.store a 8 v).load a 8 = v :=
  load_store_fits m a (by omega) v.isLt

theorem load_store_word (m : Mem) (a : Addr) (v : BitVec 32) :
    (m.store a 4 (v.setWidth 64)).load a 4 = v.setWidth 64 := by
  refine load_store_fits m a (by omega) ?_
  have bound := v.isLt
  rw [BitVec.toNat_setWidth]
  omega

theorem load_store_byte (m : Mem) (a : Addr) (v : BitVec 8) :
    (m.store a 1 (v.setWidth 64)).load a 1 = v.setWidth 64 := by
  refine load_store_fits m a (by omega) ?_
  have bound := v.isLt
  rw [BitVec.toNat_setWidth]
  omega

theorem load_one (m : Mem) (a : Addr) : m.load a 1 = (m a).setWidth 64 := by
  apply BitVec.eq_of_toNat_eq
  simp [load, bytesAt, leValue, BitVec.toNat_setWidth]

/-- The lowest byte of a load. -/
theorem setWidth_load (m : Mem) (a : Addr) (n : Nat) : (m.load a (n + 1)).setWidth 8 = m a := by
  apply BitVec.eq_of_toNat_eq
  have small := (m a).isLt
  simp only [load, bytesAt, leValue, BitVec.toNat_setWidth, BitVec.toNat_ofNat]
  omega

/-- The first byte of a store. -/
theorem store_first (m : Mem) (a : Addr) (v : BitVec 64) {n : Nat} (some : 0 < n)
    (small : n ≤ 2 ^ 64) : m.store a n v a = v.setWidth 8 := by
  have byte := store_apply m a n 0 v some small
  rwa [show BitVec.ofNat 64 0 = 0 from rfl, add_zero] at byte

/-- The low half of a word. -/
theorem load_half (m : Mem) (a : Addr) :
    m.load a 2 = ((m.load a 4).setWidth 16).setWidth 64 := by
  apply BitVec.eq_of_toNat_eq
  have first := (m a).isLt
  have second := (m (a + 1)).isLt
  simp only [load, bytesAt, leValue, BitVec.toNat_setWidth, BitVec.toNat_ofNat]
  omega

/-! ## Writing byte strings -/

/-- Write a string of bytes from `a` on. -/
def write (m : Mem) (a : Addr) (bytes : List Byte) : Mem :=
  fun x => if InRange a bytes.length x then bytes.getD (x - a).toNat 0 else m x

@[simp] theorem write_nil (m : Mem) (a : Addr) : m.write a [] = m := by
  funext x
  simp [write, InRange]

theorem write_apply_of_inRange (m : Mem) (a x : Addr) (bytes : List Byte)
    (inside : InRange a bytes.length x) :
    m.write a bytes x = bytes.getD (x - a).toNat 0 := by
  simp [write, inside]

theorem write_apply_of_not_inRange (m : Mem) (a x : Addr) (bytes : List Byte)
    (outside : ¬ InRange a bytes.length x) : m.write a bytes x = m x := by
  simp [write, outside]

theorem bytesAt_write_disjoint (m : Mem) {a b : Addr} {n : Nat} (bytes : List Byte)
    (apart : Disjoint a n b bytes.length) (small : n ≤ 2 ^ 64) :
    (m.write b bytes).bytesAt a n = m.bytesAt a n :=
  bytesAt_congr small fun x inside => write_apply_of_not_inRange m b x bytes (apart x inside)

theorem load_write_disjoint (m : Mem) {a b : Addr} {n : Nat} (bytes : List Byte)
    (apart : Disjoint a n b bytes.length) (small : n ≤ 2 ^ 64) :
    (m.write b bytes).load a n = m.load a n := by
  rw [load, load, bytesAt_write_disjoint m bytes apart small]

/-- What is written is read back. -/
theorem bytesAt_write_same (m : Mem) (a : Addr) (bytes : List Byte)
    (small : bytes.length ≤ 2 ^ 64) : (m.write a bytes).bytesAt a bytes.length = bytes := by
  apply List.ext_getElem?
  intro i
  rw [getElem?_bytesAt]
  by_cases inside : i < bytes.length
  · have dist : (a + BitVec.ofNat 64 i - a).toNat = i := by
      rw [show a + BitVec.ofNat 64 i - a = BitVec.ofNat 64 i by ring, BitVec.toNat_ofNat,
        Nat.mod_eq_of_lt (by omega)]
    rw [if_pos inside, write_apply_of_inRange _ _ _ _ (inRange_add a _ i inside small), dist,
      List.getD_eq_getElem?_getD, List.getElem?_eq_getElem inside, Option.getD_some]
  · rw [if_neg inside, List.getElem?_eq_none (by omega)]

/-- Distances from a later start. -/
theorem sub_add_toNat (x a : Addr) (d : Nat) (small : d < 2 ^ 64) :
    (x - (a + BitVec.ofNat 64 d)).toNat =
      if (x - a).toNat < d then 2 ^ 64 + (x - a).toNat - d else (x - a).toNat - d := by
  have len : (BitVec.ofNat 64 d).toNat = d := by
    rw [BitVec.toNat_ofNat, Nat.mod_eq_of_lt small]
  have bound := (x - a).isLt
  rw [show x - (a + BitVec.ofNat 64 d) = (x - a) - BitVec.ofNat 64 d by ring, BitVec.toNat_sub, len]
  split <;> omega

/-- Two strings written one after the other. -/
theorem write_append (m : Mem) (a : Addr) (first second : List Byte)
    (small : first.length + second.length ≤ 2 ^ 64) :
    (m.write a first).write (a + BitVec.ofNat 64 first.length) second =
      m.write a (first ++ second) := by
  by_cases none : second = []
  · simp [none]
  have pos : 0 < second.length := List.length_pos_of_ne_nil none
  funext x
  have shift := sub_add_toNat x a first.length (by omega)
  have bound := (x - a).isLt
  by_cases inFirst : (x - a).toNat < first.length
  · rw [if_pos inFirst] at shift
    have notSecond : ¬ InRange (a + BitVec.ofNat 64 first.length) second.length x := by
      rw [InRange, shift]
      omega
    have inBoth : InRange a (first ++ second).length x := by
      rw [InRange, List.length_append]
      omega
    rw [write_apply_of_not_inRange _ _ _ _ notSecond, write_apply_of_inRange _ _ _ _ inFirst,
      write_apply_of_inRange _ _ _ _ inBoth, List.getD_eq_getElem?_getD,
      List.getD_eq_getElem?_getD, List.getElem?_append_left inFirst]
  · rw [if_neg inFirst] at shift
    have both : InRange a (first ++ second).length x ↔
        InRange (a + BitVec.ofNat 64 first.length) second.length x := by
      rw [InRange, InRange, shift, List.length_append]
      omega
    by_cases inSecond : InRange (a + BitVec.ofNat 64 first.length) second.length x
    · rw [write_apply_of_inRange _ _ _ _ inSecond, write_apply_of_inRange _ _ _ _ (both.mpr inSecond),
        shift, List.getD_eq_getElem?_getD, List.getD_eq_getElem?_getD,
        List.getElem?_append_right (Nat.le_of_not_lt inFirst)]
    · rw [write_apply_of_not_inRange _ _ _ _ inSecond, write_apply_of_not_inRange _ _ _ _ inFirst,
        write_apply_of_not_inRange _ _ _ _ (mt both.mp inSecond)]

theorem bytesAt_append (m : Mem) (a : Addr) (n k : Nat) :
    m.bytesAt a (n + k) = m.bytesAt a n ++ m.bytesAt (a + BitVec.ofNat 64 n) k := by
  apply List.ext_getElem?
  intro i
  by_cases inFirst : i < n
  · rw [List.getElem?_append_left (by rw [bytesAt_length]; exact inFirst), getElem?_bytesAt,
      getElem?_bytesAt, if_pos inFirst, if_pos (by omega)]
  · rw [List.getElem?_append_right (by rw [bytesAt_length]; omega), bytesAt_length,
      getElem?_bytesAt, getElem?_bytesAt]
    have position : a + BitVec.ofNat 64 n + BitVec.ofNat 64 (i - n) = a + BitVec.ofNat 64 i := by
      rw [add_assoc, ← BitVec.ofNat_add, Nat.add_sub_cancel' (Nat.le_of_not_lt inFirst)]
    rw [position]
    split <;> split <;> first | rfl | omega

theorem leValue_lt (bytes : List Byte) : leValue bytes < 256 ^ bytes.length := by
  induction bytes with
  | nil => simp [leValue]
  | cons b bs ih =>
      have byte := b.isLt
      rw [leValue, List.length_cons, pow_succ]
      omega

/-- The bytes of a little-endian value. -/
theorem byteOf_leValue (bytes : List Byte) (fits : bytes.length ≤ 8) :
    (List.range bytes.length).map (byteOf (BitVec.ofNat 64 (leValue bytes))) = bytes := by
  have whole : leValue bytes < 2 ^ 64 := by
    refine Nat.lt_of_lt_of_le (leValue_lt bytes) ?_
    calc 256 ^ bytes.length ≤ 256 ^ 8 := Nat.pow_le_pow_right (by omega) fits
      _ = 2 ^ 64 := by norm_num
  have digit : ∀ (bs : List Byte) (i : Nat) (inside : i < bs.length),
      leValue bs / 256 ^ i % 256 = (bs.get ⟨i, inside⟩).toNat := by
    intro bs
    induction bs with
    | nil => intro i inside; cases inside
    | cons b bs ih =>
        intro i inside
        have byte := b.isLt
        cases i with
        | zero =>
            rw [leValue, pow_zero, Nat.div_one, Nat.add_mul_mod_self_left, Nat.mod_eq_of_lt byte]
            rfl
        | succ i =>
            rw [leValue, pow_succ, Nat.mul_comm (256 ^ i), ← Nat.div_div_eq_div_mul,
              Nat.add_mul_div_left _ _ (by omega), Nat.div_eq_of_lt byte, Nat.zero_add]
            exact ih i (by simpa using inside)
  apply List.ext_getElem
  · simp
  · intro i left right
    rw [List.getElem_map, List.getElem_range]
    apply BitVec.eq_of_toNat_eq
    rw [byteOf, BitVec.toNat_setWidth, BitVec.toNat_ushiftRight, Nat.shiftRight_eq_div_pow,
      Nat.pow_mul, BitVec.toNat_ofNat, Nat.mod_eq_of_lt whole]
    exact digit bytes i right

/-- A store writes the low bytes of the value. -/
theorem store_eq_write (m : Mem) (a : Addr) (n : Nat) (v : BitVec 64) :
    m.store a n v = m.write a ((List.range n).map (byteOf v)) := by
  funext x
  unfold store write
  rw [List.length_map, List.length_range]
  split
  · rename_i inside
    unfold InRange at inside
    rw [List.getD_eq_getElem?_getD, List.getElem?_map, List.getElem?_range inside]
    rfl
  · rfl

/-- A load followed by a store copies the bytes. -/
theorem store_load (m m' : Mem) (a b : Addr) {n : Nat} (fits : n ≤ 8) :
    m.store a n (m'.load b n) = m.write a (m'.bytesAt b n) := by
  have length := bytesAt_length m' b n
  have bytes := byteOf_leValue (m'.bytesAt b n) (by omega)
  rw [length] at bytes
  rw [store_eq_write, load, bytes]

end Mem

end Ebpf

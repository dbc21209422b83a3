/-
# Lib.InetText -- addresses written in full

An implementation of `Inet` to compute with: groups of digits between separators,
four decimal bytes for IPv4, eight hexadecimal words for IPv6.  It reads and prints an
address as the C library does when none of its groups is abbreviated.

`readGroups_printGroups` is the round trip, `readGroups_text` what an accepted text
looks like.
-/
import Bpfilter.Lib.PayloadText

namespace Bpfilter

set_option autoImplicit false

open Ebpf (Byte)
open Cstr (isDigitOf digitsValue toDigits_spec)

/-! ## Groups of digits -/

/-- How the groups of an address are written. -/
structure GroupStyle where
  sep : Char
  base : Nat
  width : Nat
  many : 1 < base
  small : base ≤ 16
  sep_not_digit : isDigitOf base sep = false

namespace GroupStyle

variable (style : GroupStyle)

/-- One group: up to `width` digits with a value below `bound`. -/
def readGroup (bound : Nat) (s : List Char) : Option Nat :=
  if s ≠ [] ∧ s.length ≤ style.width ∧ s.all (isDigitOf style.base) = true ∧
      digitsValue style.base s < bound then
    some (digitsValue style.base s)
  else none

/-- So many groups. -/
def readGroups (bound : Nat) : Nat → List Char → Option (List Nat)
  | 0, _ => none
  | 1, s => (style.readGroup bound s).map fun v => [v]
  | n + 2, s =>
      match s.dropWhile (isDigitOf style.base) with
      | c :: rest =>
          if c = style.sep then
            match style.readGroup bound (s.takeWhile (isDigitOf style.base)),
                readGroups bound (n + 1) rest with
            | some v, some vs => some (v :: vs)
            | _, _ => none
          else none
      | [] => none

/-- The groups of an address, with separators between them. -/
def printGroups : List Nat → List Char
  | [] => []
  | [v] => Nat.toDigits style.base v
  | v :: w :: vs => Nat.toDigits style.base v ++ style.sep :: printGroups (w :: vs)

variable {style} {bound n : Nat} {s : List Char} {v : Nat} {vs : List Nat}

theorem readGroup_inv (read : style.readGroup bound s = some v) :
    s ≠ [] ∧ s.length ≤ style.width ∧ (∀ c ∈ s, isDigitOf style.base c = true) ∧ v < bound := by
  unfold readGroup at read
  split_ifs at read with fine
  obtain ⟨some, short, digits, below⟩ := fine
  cases read
  exact ⟨some, short, List.all_eq_true.mp digits, below⟩

theorem readGroup_toDigits (below : v < bound) (fits : bound ≤ style.base ^ style.width)
    (wide : 0 < style.width) :
    style.readGroup bound (Nat.toDigits style.base v) = some v := by
  obtain ⟨digits, value⟩ := toDigits_spec style.many style.small v
  have short : (Nat.toDigits style.base v).length ≤ style.width :=
    (Nat.length_toDigits_le_iff style.many wide).mpr (below.trans_le fits)
  rw [readGroup, value, if_pos ⟨Nat.toDigits_ne_nil, short, List.all_eq_true.mpr digits, below⟩]

/-- What an accepted text looks like. -/
theorem readGroups_text (read : style.readGroups bound (n + 1) s = some vs) :
    vs.length = n + 1 ∧ (∀ v ∈ vs, v < bound) ∧ s.length ≤ (n + 1) * (style.width + 1) - 1 ∧
      (∀ c ∈ s, isDigitOf style.base c = true ∨ c = style.sep) ∧
      s.head?.any (isDigitOf style.base) = true := by
  have starts : ∀ {g rest : List Char}, g ≠ [] → (∀ c ∈ g, isDigitOf style.base c = true) →
      (g ++ rest).head?.any (isDigitOf style.base) = true := by
    intro g rest some digits
    obtain ⟨c, cs, rfl⟩ := List.exists_cons_of_ne_nil some
    exact digits c (List.mem_cons_self ..)
  induction n generalizing s vs with
  | zero =>
      simp only [readGroups, Option.map_eq_some_iff] at read
      obtain ⟨v, group, rfl⟩ := read
      obtain ⟨some, short, digits, below⟩ := readGroup_inv group
      refine ⟨rfl, by simpa using below, by omega, fun c mem => .inl (digits c mem), ?_⟩
      have start := @starts _ [] some digits
      rwa [List.append_nil] at start
  | succ n ih =>
      have whole := List.takeWhile_append_dropWhile (p := isDigitOf style.base) (l := s)
      simp only [readGroups] at read
      cases left : s.dropWhile (isDigitOf style.base) with
      | nil => simp [left] at read
      | cons c rest =>
          simp only [left] at read
          split_ifs at read with sep
          split at read
          · rename_i v vs' group groups
            cases read
            obtain ⟨some, short, digits, below⟩ := readGroup_inv group
            obtain ⟨count, bounds, length, spelled, -⟩ := ih groups
            rw [left, sep] at whole
            refine ⟨by rw [List.length_cons, count], ?_, ?_, ?_, ?_⟩
            · intro w mem
              rcases List.mem_cons.mp mem with rfl | mem
              · exact below
              · exact bounds w mem
            · rw [← whole, List.length_append, List.length_cons]
              have pos : style.width + 1 ≤ (n + 1) * (style.width + 1) :=
                Nat.le_mul_of_pos_left _ (by omega)
              have total : (n + 1 + 1) * (style.width + 1) =
                  (n + 1) * (style.width + 1) + (style.width + 1) := Nat.succ_mul ..
              omega
            · intro d mem
              rw [← whole] at mem
              rcases List.mem_append.mp mem with mem | mem
              · exact .inl (digits d mem)
              · rcases List.mem_cons.mp mem with rfl | mem
                · exact .inr rfl
                · exact spelled d mem
            · rw [← whole]
              exact starts some digits
          · cases read

theorem readGroups_printGroups (fits : bound ≤ style.base ^ style.width) (wide : 0 < style.width)
    (some : vs ≠ []) (below : ∀ v ∈ vs, v < bound) :
    style.readGroups bound vs.length (style.printGroups vs) = .some vs := by
  induction vs with
  | nil => exact absurd rfl some
  | cons v vs ih =>
      have group := readGroup_toDigits (below v (List.mem_cons_self ..)) fits wide
      cases vs with
      | nil => simp only [List.length_cons, List.length_nil, readGroups, printGroups, group,
          Option.map_some]
      | cons w vs =>
          obtain ⟨digits, -⟩ := toDigits_spec style.many style.small v
          obtain ⟨taken, left⟩ := @Cstr.takeWhile_digits style.base _
            (style.sep :: style.printGroups (w :: vs)) digits
            (fun c start => by cases start; exact style.sep_not_digit)
          have groups := ih (List.cons_ne_nil _ _)
            (fun u mem => below u (List.mem_cons_of_mem _ mem))
          rw [List.length_cons] at groups
          simp only [List.length_cons, readGroups, printGroups, taken, left, group, groups, if_true]

end GroupStyle

/-! ## IPv4 -/

/-- Decimal bytes between dots. -/
def dotted : GroupStyle := ⟨'.', 10, 3, by decide, by decide, by decide⟩

theorem ofNat_toNat_map (addr : List Byte) :
    (addr.map BitVec.toNat).map (BitVec.ofNat 8) = addr := by
  simp [Function.comp_def]

def dottedInet : Inet 4 15 ip4Start where
  pton s := (dotted.readGroups 256 4 s).map fun vs => vs.map (BitVec.ofNat 8)
  ntop addr := dotted.printGroups (addr.map BitVec.toNat)
  size_eq := by
    intro s addr accepted
    obtain ⟨vs, read, rfl⟩ := Option.map_eq_some_iff.mp accepted
    rw [List.length_map]
    exact (GroupStyle.readGroups_text read).1
  short := by
    intro s addr accepted
    obtain ⟨vs, read, rfl⟩ := Option.map_eq_some_iff.mp accepted
    exact (GroupStyle.readGroups_text read).2.2.1
  spelled := by
    intro s addr accepted c mem
    obtain ⟨vs, read, rfl⟩ := Option.map_eq_some_iff.mp accepted
    rcases (GroupStyle.readGroups_text read).2.2.2.1 c mem with digit | rfl
    · have wide : isDigitOf 16 c = true :=
        Cstr.isDigitOf_of_isDigit (Cstr.isDigitOf_ten.symm.trans digit) (by decide)
      rw [addrChar, wide]
      rfl
    · decide
  starts := by
    intro s addr accepted
    obtain ⟨vs, read, rfl⟩ := Option.map_eq_some_iff.mp accepted
    have start := (GroupStyle.readGroups_text read).2.2.2.2
    cases s with
    | nil => cases start
    | cons c cs => exact Cstr.isDigitOf_ten.symm.trans start
  pton_ntop := by
    intro addr size
    have some : addr.map BitVec.toNat ≠ [] := by
      intro none
      rw [List.map_eq_nil_iff.mp none] at size
      cases size
    have read := @GroupStyle.readGroups_printGroups dotted 256 _ (by decide) (by decide) some
      (by
        intro v mem
        obtain ⟨b, -, rfl⟩ := List.mem_map.mp mem
        exact b.isLt)
    rw [List.length_map, size] at read
    rw [read, Option.map_some, ofNat_toNat_map]

/-! ## IPv6 -/

/-- Hexadecimal words between colons. -/
def coloned : GroupStyle := ⟨':', 16, 4, by decide, by decide, by decide⟩

/-- The words of an address, in network order. -/
def wordsOf : List Byte → List Nat
  | hi :: lo :: rest => (256 * hi.toNat + lo.toNat) :: wordsOf rest
  | _ => []

def bytesOf (words : List Nat) : List Byte :=
  words.flatMap fun w => [BitVec.ofNat 8 (w / 256), BitVec.ofNat 8 w]

theorem wordsOf_spec (k : Nat) {addr : List Byte} (size : addr.length = 2 * k) :
    (wordsOf addr).length = k ∧ (∀ w ∈ wordsOf addr, w < 65536) ∧ bytesOf (wordsOf addr) = addr := by
  induction k generalizing addr with
  | zero =>
      obtain rfl := List.eq_nil_of_length_eq_zero size
      exact ⟨rfl, nofun, rfl⟩
  | succ k ih =>
      obtain ⟨hi, rest, rfl⟩ := List.exists_cons_of_length_pos (show 0 < addr.length by omega)
      obtain ⟨lo, rest, rfl⟩ := List.exists_cons_of_length_pos
        (show 0 < rest.length by rw [List.length_cons] at size; omega)
      obtain ⟨length, below, same⟩ := @ih rest
        (by simp only [List.length_cons] at size; omega)
      have high := hi.isLt
      have low := lo.isLt
      refine ⟨by rw [wordsOf, List.length_cons, length], ?_, ?_⟩
      · intro w mem
        rcases List.mem_cons.mp mem with rfl | mem
        · omega
        · exact below w mem
      · have first : BitVec.ofNat 8 ((256 * hi.toNat + lo.toNat) / 256) = hi := by
          apply BitVec.eq_of_toNat_eq
          rw [BitVec.toNat_ofNat]
          omega
        have second : BitVec.ofNat 8 (256 * hi.toNat + lo.toNat) = lo := by
          apply BitVec.eq_of_toNat_eq
          rw [BitVec.toNat_ofNat]
          omega
        rw [wordsOf, bytesOf, List.flatMap_cons, first, second]
        show hi :: lo :: bytesOf (wordsOf rest) = _
        rw [same]

def colonedInet : Inet 16 45 ip6Start where
  pton s := (coloned.readGroups 65536 8 s).map bytesOf
  ntop addr := coloned.printGroups (wordsOf addr)
  size_eq := by
    intro s addr accepted
    obtain ⟨vs, read, rfl⟩ := Option.map_eq_some_iff.mp accepted
    have count := (GroupStyle.readGroups_text read).1
    rw [bytesOf, List.length_flatMap]
    simp [count]
  short := by
    intro s addr accepted
    obtain ⟨vs, read, rfl⟩ := Option.map_eq_some_iff.mp accepted
    exact (GroupStyle.readGroups_text read).2.2.1.trans (by decide)
  spelled := by
    intro s addr accepted c mem
    obtain ⟨vs, read, rfl⟩ := Option.map_eq_some_iff.mp accepted
    rcases (GroupStyle.readGroups_text read).2.2.2.1 c mem with digit | rfl
    · have digit' : isDigitOf 16 c = true := digit
      rw [addrChar, digit']
      rfl
    · decide
  starts := by
    intro s addr accepted
    obtain ⟨vs, read, rfl⟩ := Option.map_eq_some_iff.mp accepted
    have start := (GroupStyle.readGroups_text read).2.2.2.2
    cases s with
    | nil => cases start
    | cons c cs =>
        have digit : isDigitOf 16 c = true := start
        show ip6Start c = true
        unfold ip6Start isalpha
        unfold isDigitOf Cstr.digitValue at digit
        split_ifs at digit with dec lower upper
        · simp [dec]
        · simp [lower]
        · simp [upper]
        · cases digit
  pton_ntop := by
    intro addr size
    obtain ⟨count, below, same⟩ := wordsOf_spec 8 size
    have some : wordsOf addr ≠ [] := by
      intro none
      rw [none] at count
      cases count
    have read := @GroupStyle.readGroups_printGroups coloned 65536 _ (by decide) (by decide) some
      below
    rw [count] at read
    rw [read, Option.map_some, same]

/-- Addresses in full, and one interface. -/
def plainNames : Names where
  inet4 := dottedInet
  inet6 := colonedInet
  ifIndexFromName s := if s = "eth0".toList then 2 else -19
  ifNameFromIndex i := if i = 2 then some "eth0".toList else none

end Bpfilter

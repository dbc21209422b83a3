/-
# Bpf.ParseIpv6 -- the two stubs that walk IPv6 extension headers

`bfParseIpv6Eh` and `bfParseIpv6Nh` are the C functions of `parse_ipv6_eh.bpf.c`
and `parse_ipv6_nh.bpf.c`.  Both start behind the fixed header and look at up to
six extension headers; the second one also records which headers it has seen.
They read the packet through `bpf_dynptr_slice`, a parameter here: `none` is a
slice that fails.

The loops are written separately in the source and differ in one exit: when a
slice fails, the first returns 0 and the second the next-header value it has
reached.  `truncatedAt` is that value, and `loops_agree_iff` says that the stubs
agree unless the walk is cut short at a value other than 0.

`refWalk` is the walk as the protocols define it.  A fragment header has a fixed
size and a reserved byte where the other headers have their length; the stubs
agree with `refWalk` as long as that byte is zero (`ehLoop_eq_refWalk`), and
disagree when it is not in the last header they walk over (`ehLoop_ne_refWalk`).
-/
import Bpfilter.Lib.Matcher
import Mathlib.Tactic.Ring

namespace Bpfilter

set_option autoImplicit false

/-- `BF_IPV6_EXT_MAX_CHAIN` -/
def bfIpv6ExtMaxChain : Nat := 6

/-- `struct ipv6_opt_hdr`: the start of an extension header. -/
structure Ipv6OptHdr where
  nexthdr : BitVec 8
  hdrlen : BitVec 8
  deriving DecidableEq, Repr

/-- `bpf_dynptr_slice` on the packet, at an offset. -/
abbrev Slice := BitVec 32 → Option Ipv6OptHdr

/-! ## The stubs -/

/-- The loop of `bf_parse_ipv6` in `parse_ipv6_eh.bpf.c`: the returned protocol and
`ctx->l4_offset`. -/
def bfParseIpv6EhLoop (slice : Slice) : Nat → BitVec 8 → BitVec 32 → BitVec 8 × BitVec 32
  | 0, nextHdrType, l4Offset => (nextHdrType, l4Offset)
  | n + 1, nextHdrType, l4Offset =>
      match slice l4Offset with
      | none => (0, l4Offset)
      | some ext =>
          if nextHdrType = ipprotoHopopts ∨ nextHdrType = ipprotoDstopts ∨
              nextHdrType = ipprotoRouting ∨ nextHdrType = ipprotoMh then
            bfParseIpv6EhLoop slice n ext.nexthdr (l4Offset + (ext.hdrlen.setWidth 32 + 1) * 8)
          else if nextHdrType = ipprotoAh then
            bfParseIpv6EhLoop slice n ext.nexthdr (l4Offset + (ext.hdrlen.setWidth 32 + 2) * 4)
          else if nextHdrType = ipprotoFragment then
            bfParseIpv6EhLoop slice n ext.nexthdr (l4Offset + (ext.hdrlen.setWidth 32 + 8))
          else (nextHdrType, l4Offset)

/-- `bf_parse_ipv6` of the EH stub. -/
def bfParseIpv6Eh (slice : Slice) (l3Offset : BitVec 32) (nexthdr : BitVec 8) :
    BitVec 8 × BitVec 32 :=
  bfParseIpv6EhLoop slice bfIpv6ExtMaxChain nexthdr (l3Offset + 40)

/-- What the NH stub leaves: the returned protocol, `ctx->l4_offset` and
`ctx->ipv6_eh`. -/
structure NhResult where
  proto : BitVec 8
  l4Offset : BitVec 32
  ipv6Eh : BitVec 8
  deriving DecidableEq, Repr

/-- `BF_IPV6_EH_*(next_hdr_type == …)`, or-ed together. -/
def nhEhBits (nextHdrType : BitVec 8) : BitVec 8 :=
  let bit (hdr : BitVec 8) (shift : Nat) : BitVec 8 :=
    (if nextHdrType = hdr then 1 else 0) <<< shift
  bit ipprotoHopopts 0 ||| bit ipprotoRouting 1 ||| bit ipprotoFragment 2 ||| bit ipprotoAh 3 |||
    bit ipprotoDstopts 4 ||| bit ipprotoMh 5

/-- The `offset` and `shift` of a header type. -/
def nhOffsetShift (nextHdrType : BitVec 8) : BitVec 32 × Nat :=
  if nextHdrType = ipprotoAh then (2, 2)
  else if nextHdrType = ipprotoFragment then (8, 0)
  else (1, 3)

/-- The loop of `bf_parse_ipv6` in `parse_ipv6_nh.bpf.c`. -/
def bfParseIpv6NhLoop (slice : Slice) : Nat → BitVec 8 → BitVec 32 → BitVec 8 → NhResult
  | 0, nextHdrType, l4Offset, ipv6Eh => ⟨nextHdrType, l4Offset, ipv6Eh⟩
  | n + 1, nextHdrType, l4Offset, ipv6Eh =>
      match slice l4Offset with
      | none => ⟨nextHdrType, l4Offset, ipv6Eh⟩
      | some ext =>
          if nextHdrType = ipprotoHopopts ∨ nextHdrType = ipprotoRouting ∨
              nextHdrType = ipprotoDstopts ∨ nextHdrType = ipprotoFragment ∨
              nextHdrType = ipprotoAh ∨ nextHdrType = ipprotoMh then
            bfParseIpv6NhLoop slice n ext.nexthdr
              (l4Offset + (ext.hdrlen.setWidth 32 + (nhOffsetShift nextHdrType).1) <<<
                (nhOffsetShift nextHdrType).2)
              (ipv6Eh ||| nhEhBits nextHdrType)
          else ⟨nextHdrType, l4Offset, ipv6Eh⟩

/-- `bf_parse_ipv6` of the NH stub. -/
def bfParseIpv6Nh (slice : Slice) (l3Offset : BitVec 32) (nexthdr : BitVec 8) : NhResult :=
  bfParseIpv6NhLoop slice bfIpv6ExtMaxChain nexthdr (l3Offset + 40) 0

/-! ## Walking -/

/-- How far the stubs advance over a header, by its type; `none` for what is not an
extension header. -/
def stubAdvance (nexthdr hdrlen : BitVec 8) : Option (BitVec 32) :=
  if nexthdr = ipprotoHopopts ∨ nexthdr = ipprotoDstopts ∨ nexthdr = ipprotoRouting ∨
      nexthdr = ipprotoMh then some ((hdrlen.setWidth 32 + 1) * 8)
  else if nexthdr = ipprotoAh then some ((hdrlen.setWidth 32 + 2) * 4)
  else if nexthdr = ipprotoFragment then some (hdrlen.setWidth 32 + 8)
  else none

/-- The next-header value the walk is at when a slice fails; `none` if none does. -/
def truncatedAt (slice : Slice) : Nat → BitVec 8 → BitVec 32 → Option (BitVec 8)
  | 0, _, _ => none
  | n + 1, nexthdr, offset =>
      match slice offset with
      | none => some nexthdr
      | some ext =>
          match stubAdvance nexthdr ext.hdrlen with
          | none => none
          | some advance => truncatedAt slice n ext.nexthdr (offset + advance)

/-- One step of the EH loop. -/
theorem bfParseIpv6EhLoop_succ (slice : Slice) (n : Nat) (nexthdr : BitVec 8)
    (offset : BitVec 32) :
    bfParseIpv6EhLoop slice (n + 1) nexthdr offset =
      match slice offset with
      | none => (0, offset)
      | some ext =>
          match stubAdvance nexthdr ext.hdrlen with
          | none => (nexthdr, offset)
          | some advance => bfParseIpv6EhLoop slice n ext.nexthdr (offset + advance) := by
  rw [bfParseIpv6EhLoop]
  cases slice offset with
  | none => rfl
  | some ext =>
      simp only [stubAdvance]
      split_ifs <;> rfl

/-- The two ways to write an advance. -/
theorem nhAdvance_eq {nexthdr hdrlen : BitVec 8} {advance : BitVec 32}
    (walks : stubAdvance nexthdr hdrlen = some advance) :
    (hdrlen.setWidth 32 + (nhOffsetShift nexthdr).1) <<< (nhOffsetShift nexthdr).2 = advance := by
  have byEight : ∀ x : BitVec 32, x <<< 3 = x * 8 := fun x => by
    rw [BitVec.shiftLeft_eq_mul_twoPow]
    rfl
  have byFour : ∀ x : BitVec 32, x <<< 2 = x * 4 := fun x => by
    rw [BitVec.shiftLeft_eq_mul_twoPow]
    rfl
  unfold stubAdvance at walks
  split_ifs at walks with common ah frag <;> cases walks
  · have notAh : nexthdr ≠ ipprotoAh := by rintro rfl; exact absurd common (by decide)
    have notFrag : nexthdr ≠ ipprotoFragment := by rintro rfl; exact absurd common (by decide)
    simp only [nhOffsetShift, notAh, notFrag, if_false, byEight]
  · simp only [nhOffsetShift, ah, if_true, byFour]
  · simp only [nhOffsetShift, if_neg ah, if_pos frag]
    exact BitVec.shiftLeft_zero _

/-- The two switches list the same header types. -/
theorem stubAdvance_isSome_iff (nexthdr hdrlen : BitVec 8) :
    (stubAdvance nexthdr hdrlen).isSome = true ↔
      (nexthdr = ipprotoHopopts ∨ nexthdr = ipprotoRouting ∨ nexthdr = ipprotoDstopts ∨
        nexthdr = ipprotoFragment ∨ nexthdr = ipprotoAh ∨ nexthdr = ipprotoMh) := by
  unfold stubAdvance
  split_ifs with common ah frag
  · simp only [Option.isSome_some, true_iff]
    rcases common with h | h | h | h <;> simp [h]
  · simp [ah]
  · simp [frag]
  · simp only [not_or] at common
    simp [common, ah, frag]

/-- One step of the NH loop. -/
theorem bfParseIpv6NhLoop_succ (slice : Slice) (n : Nat) (nexthdr : BitVec 8)
    (offset : BitVec 32) (eh : BitVec 8) :
    bfParseIpv6NhLoop slice (n + 1) nexthdr offset eh =
      match slice offset with
      | none => ⟨nexthdr, offset, eh⟩
      | some ext =>
          match stubAdvance nexthdr ext.hdrlen with
          | none => ⟨nexthdr, offset, eh⟩
          | some advance =>
              bfParseIpv6NhLoop slice n ext.nexthdr (offset + advance)
                (eh ||| nhEhBits nexthdr) := by
  rw [bfParseIpv6NhLoop]
  cases slice offset with
  | none => rfl
  | some ext =>
      simp only
      cases walks : stubAdvance nexthdr ext.hdrlen with
      | none => rw [if_neg (mt (stubAdvance_isSome_iff nexthdr ext.hdrlen).mpr (by simp [walks]))]
      | some advance =>
          rw [if_pos ((stubAdvance_isSome_iff nexthdr ext.hdrlen).mp (by simp [walks])),
            nhAdvance_eq walks]

/-- **Agreement.**  The stubs return the same protocol and leave the same offset unless a
slice fails while the walk is at a value other than 0. -/
theorem loops_agree_iff (slice : Slice) (n : Nat) (nexthdr : BitVec 8) (offset : BitVec 32)
    (eh : BitVec 8) :
    ((bfParseIpv6NhLoop slice n nexthdr offset eh).proto,
      (bfParseIpv6NhLoop slice n nexthdr offset eh).l4Offset) =
        bfParseIpv6EhLoop slice n nexthdr offset ↔
      ∀ value, truncatedAt slice n nexthdr offset = some value → value = 0 := by
  induction n generalizing nexthdr offset eh with
  | zero => simp [bfParseIpv6NhLoop, bfParseIpv6EhLoop, truncatedAt]
  | succ n ih =>
      rw [bfParseIpv6EhLoop_succ, bfParseIpv6NhLoop_succ, truncatedAt]
      cases slice offset with
      | none => simp
      | some ext =>
          simp only
          cases stubAdvance nexthdr ext.hdrlen with
          | none => simp
          | some advance => exact ih ext.nexthdr (offset + advance) (eh ||| nhEhBits nexthdr)

/-! ## The reference walk -/

/-- Size of an extension header, by its type; `none` for what is not one. -/
def refAdvance (nexthdr hdrlen : BitVec 8) : Option (BitVec 32) :=
  if nexthdr = ipprotoHopopts ∨ nexthdr = ipprotoDstopts ∨ nexthdr = ipprotoRouting ∨
      nexthdr = ipprotoMh then some ((hdrlen.setWidth 32 + 1) * 8)
  else if nexthdr = ipprotoAh then some ((hdrlen.setWidth 32 + 2) * 4)
  else if nexthdr = ipprotoFragment then some 8
  else none

/-- Walk over at most `n` extension headers of a packet that can be read anywhere. -/
def refWalk (ext : BitVec 32 → Ipv6OptHdr) : Nat → BitVec 8 → BitVec 32 → BitVec 8 × BitVec 32
  | 0, nexthdr, offset => (nexthdr, offset)
  | n + 1, nexthdr, offset =>
      match refAdvance nexthdr (ext offset).hdrlen with
      | none => (nexthdr, offset)
      | some advance => refWalk ext n (ext offset).nexthdr (offset + advance)

/-- Every fragment header the walk passes has a zero reserved byte. -/
def fragmentsPlain (ext : BitVec 32 → Ipv6OptHdr) : Nat → BitVec 8 → BitVec 32 → Bool
  | 0, _, _ => true
  | n + 1, nexthdr, offset =>
      match refAdvance nexthdr (ext offset).hdrlen with
      | none => true
      | some advance =>
          (nexthdr != ipprotoFragment || (ext offset).hdrlen == 0) &&
            fragmentsPlain ext n (ext offset).nexthdr (offset + advance)

/-- The first fragment header with a non-zero reserved byte is the last header of the walk. -/
def lastFragmentMarked (ext : BitVec 32 → Ipv6OptHdr) : Nat → BitVec 8 → BitVec 32 → Bool
  | 0, _, _ => false
  | n + 1, nexthdr, offset =>
      match refAdvance nexthdr (ext offset).hdrlen with
      | none => false
      | some advance =>
          if nexthdr = ipprotoFragment ∧ (ext offset).hdrlen ≠ 0 then
            n == 0 || (refAdvance (ext offset).nexthdr 0).isNone
          else lastFragmentMarked ext n (ext offset).nexthdr (offset + advance)

section Reference

variable (ext : BitVec 32 → Ipv6OptHdr)

/-- Which values are walked over does not depend on a length. -/
theorem refAdvance_isNone (nexthdr hdrlen : BitVec 8) :
    (refAdvance nexthdr hdrlen).isNone = (refAdvance nexthdr 0).isNone := by
  unfold refAdvance
  split_ifs <;> rfl

theorem stubAdvance_eq_refAdvance {nexthdr hdrlen : BitVec 8}
    (plain : nexthdr = ipprotoFragment → hdrlen = 0) :
    stubAdvance nexthdr hdrlen = refAdvance nexthdr hdrlen := by
  unfold stubAdvance refAdvance
  split_ifs with common ah frag
  · rfl
  · rfl
  · rw [plain frag]
    rfl
  · rfl

theorem stubAdvance_fragment (hdrlen : BitVec 8) :
    stubAdvance ipprotoFragment hdrlen = some (hdrlen.setWidth 32 + 8) := rfl

theorem refAdvance_fragment (hdrlen : BitVec 8) : refAdvance ipprotoFragment hdrlen = some 8 := rfl

/-- A walk ends where the next value is not an extension header. -/
theorem refWalk_of_isNone (n : Nat) {nexthdr : BitVec 8} (offset : BitVec 32)
    (stops : (refAdvance nexthdr 0).isNone = true) :
    refWalk ext n nexthdr offset = (nexthdr, offset) := by
  cases n with
  | zero => rfl
  | succ n =>
      have none := refAdvance_isNone nexthdr (ext offset).hdrlen
      rw [stops, Option.isNone_iff_eq_none] at none
      simp only [refWalk, none]

theorem ehLoop_of_isNone (n : Nat) {nexthdr : BitVec 8} (offset : BitVec 32)
    (stops : (refAdvance nexthdr 0).isNone = true) :
    bfParseIpv6EhLoop (fun o => some (ext o)) n nexthdr offset = (nexthdr, offset) := by
  cases n with
  | zero => rfl
  | succ n =>
      have none := refAdvance_isNone nexthdr (ext offset).hdrlen
      rw [stops, Option.isNone_iff_eq_none] at none
      have notFragment : nexthdr ≠ ipprotoFragment := by
        rintro rfl
        cases none
      rw [bfParseIpv6EhLoop_succ]
      simp only [stubAdvance_eq_refAdvance (fun h => absurd h notFragment), none]

/-- Nothing is truncated in a packet that can be read anywhere. -/
theorem truncatedAt_total (n : Nat) (nexthdr : BitVec 8) (offset : BitVec 32) :
    truncatedAt (fun o => some (ext o)) n nexthdr offset = none := by
  induction n generalizing nexthdr offset with
  | zero => rfl
  | succ n ih =>
      simp only [truncatedAt]
      split
      · rfl
      · exact ih _ _

/-- The EH stub is the reference walk while reserved bytes are zero. -/
theorem ehLoop_eq_refWalk (n : Nat) (nexthdr : BitVec 8) (offset : BitVec 32)
    (plain : fragmentsPlain ext n nexthdr offset = true) :
    bfParseIpv6EhLoop (fun o => some (ext o)) n nexthdr offset = refWalk ext n nexthdr offset := by
  induction n generalizing nexthdr offset with
  | zero => rfl
  | succ n ih =>
      rw [bfParseIpv6EhLoop_succ, refWalk]
      simp only [fragmentsPlain] at plain
      cases walks : refAdvance nexthdr (ext offset).hdrlen with
      | none =>
          have same : stubAdvance nexthdr (ext offset).hdrlen = none := by
            rw [stubAdvance_eq_refAdvance, walks]
            rintro rfl
            cases walks
          simp only [same]
      | some advance =>
          simp only [walks, Bool.and_eq_true, Bool.or_eq_true, bne_iff_ne, beq_iff_eq] at plain
          have here : nexthdr = ipprotoFragment → (ext offset).hdrlen = 0 := fun frag =>
            plain.1.resolve_left (absurd frag)
          simp only [stubAdvance_eq_refAdvance here, walks]
          exact ih _ _ plain.2

/-- A marked fragment header at the end of the walk moves the offset. -/
theorem ehLoop_ne_refWalk (n : Nat) (nexthdr : BitVec 8) (offset : BitVec 32)
    (marked : lastFragmentMarked ext n nexthdr offset = true) :
    bfParseIpv6EhLoop (fun o => some (ext o)) n nexthdr offset ≠ refWalk ext n nexthdr offset := by
  induction n generalizing nexthdr offset with
  | zero => cases marked
  | succ n ih =>
      rw [bfParseIpv6EhLoop_succ, refWalk]
      simp only [lastFragmentMarked] at marked
      cases walks : refAdvance nexthdr (ext offset).hdrlen with
      | none => simp [walks] at marked
      | some advance =>
          simp only [walks] at marked
          split at marked
          · rename_i frag
            obtain ⟨rfl, nonzero⟩ := frag
            simp only [stubAdvance_fragment, refAdvance_fragment, Option.some.injEq] at walks ⊢
            subst walks
            -- both walks end right here, at different offsets
            have moved : offset + ((ext offset).hdrlen.setWidth 32 + 8) ≠ offset + 8 := by
              intro same
              apply nonzero
              have zero : (ext offset).hdrlen.setWidth 32 = 0 := by
                have := add_left_cancel same
                simpa using this
              have value := congrArg BitVec.toNat zero
              simp only [BitVec.toNat_setWidth] at value
              apply BitVec.eq_of_toNat_eq
              have small := (ext offset).hdrlen.isLt
              simp at value ⊢
              omega
            rcases Nat.eq_zero_or_pos n with rfl | more
            · intro same
              exact moved (congrArg Prod.snd same)
            · have stops : (refAdvance (ext offset).nexthdr 0).isNone = true := by
                simpa [Nat.pos_iff_ne_zero.mp more] using marked
              rw [ehLoop_of_isNone ext n _ stops, refWalk_of_isNone ext n _ stops]
              intro same
              exact moved (congrArg Prod.snd same)
          · rename_i plain
            have here : nexthdr = ipprotoFragment → (ext offset).hdrlen = 0 := by
              intro frag
              by_contra nonzero
              exact plain ⟨frag, nonzero⟩
            simp only [stubAdvance_eq_refAdvance here, walks]
            exact ih _ _ marked

/-- No header is empty, and none is longer than 2048 bytes. -/
theorem refAdvance_range {nexthdr hdrlen : BitVec 8} {advance : BitVec 32}
    (walks : refAdvance nexthdr hdrlen = some advance) :
    8 ≤ advance.toNat ∧ advance.toNat ≤ 2048 := by
  have small := hdrlen.isLt
  unfold refAdvance at walks
  split_ifs at walks <;> cases walks
  · have value : ((hdrlen.setWidth 32 + 1) * 8).toNat = (hdrlen.toNat + 1) * 8 := by
      simp
      omega
    omega
  · have value : ((hdrlen.setWidth 32 + 2) * 4).toNat = (hdrlen.toNat + 2) * 4 := by
      simp
      omega
    omega
  · decide

/-- How far a walk gets. -/
theorem refWalk_offset (n : Nat) (nexthdr : BitVec 8) (offset : BitVec 32) :
    ∃ d ≤ 2048 * n, (refWalk ext n nexthdr offset).2 = offset + BitVec.ofNat 32 d := by
  induction n generalizing nexthdr offset with
  | zero => exact ⟨0, by simp, by simp [refWalk]⟩
  | succ n ih =>
      rw [refWalk]
      cases walks : refAdvance nexthdr (ext offset).hdrlen with
      | none => exact ⟨0, by omega, by simp⟩
      | some advance =>
          obtain ⟨-, upper⟩ := refAdvance_range walks
          obtain ⟨d, le, lands⟩ := ih (ext offset).nexthdr (offset + advance)
          refine ⟨advance.toNat + d, by omega, ?_⟩
          simp only [lands, BitVec.ofNat_add, BitVec.ofNat_toNat, BitVec.setWidth_eq, add_assoc]

/-- A walk that starts at an extension header moves. -/
theorem refWalk_moves {nexthdr : BitVec 8} (offset : BitVec 32)
    (walked : (refAdvance nexthdr 0).isNone = false) :
    (refWalk ext bfIpv6ExtMaxChain nexthdr offset).2 ≠ offset := by
  cases walks : refAdvance nexthdr (ext offset).hdrlen with
  | none =>
      rw [← refAdvance_isNone nexthdr (ext offset).hdrlen, walks] at walked
      cases walked
  | some advance =>
      obtain ⟨lower, upper⟩ := refAdvance_range walks
      obtain ⟨d, le, lands⟩ := refWalk_offset ext 5 (ext offset).nexthdr (offset + advance)
      rw [bfIpv6ExtMaxChain, refWalk]
      simp only [walks, lands]
      intro same
      have stays : advance + BitVec.ofNat 32 d = 0 := by
        have shifted : offset + (advance + BitVec.ofNat 32 d) = offset + 0 := by
          rw [← add_assoc, same, add_zero]
        exact add_left_cancel shifted
      have value : (advance + BitVec.ofNat 32 d).toNat = 0 := by
        rw [stays]
        rfl
      simp only [BitVec.toNat_add, BitVec.toNat_ofNat] at value
      omega

end Reference

end Bpfilter

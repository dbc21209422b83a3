/-
# Lib.TextExact -- which texts are ports and networks

The parsers hand text to `strtoul` and compare the end pointer with the end of the
string.  Apart from the digits they are meant for, they accept the empty string, and
numbers behind white space or a sign (`readsAs_iff`).  Ranges and networks are copied into
a buffer first, which cuts long texts.

`portExact_iff`, `rangeExact_iff` and `netExact_iff` say for which texts this makes no
difference.
-/
import Bpfilter.Lib.InetText

namespace Bpfilter

set_option autoImplicit false

open Ebpf (Byte)
open Cstr

/-! ## Numbers that are read whole -/

/-- White space, a sign and digits that `strtoul` reads as a number. -/
def ReadsAs (s : List Char) (n : Nat) : Prop :=
  ∃ negative digits, SignedText negative digits s ∧ ulongOf negative (digitsValue 10 digits) = n

/-- A number with white space or a sign in front. -/
def LooseNumber (s : List Char) (n : Nat) : Prop := loose s = true ∧ ReadsAs s n

/-- What the parsers check of a number. -/
theorem readsAs_iff {s : List Char} {n : Nat} (some : s ≠ []) :
    (strtoul 10 s).endptr = [] ∧ (strtoul 10 s).value = n ↔ ReadsAs s n := by
  constructor
  · rintro ⟨whole, value⟩
    obtain rfl | ⟨negative, digits, text⟩ := endptr_strtoul_iff.mp whole
    · exact absurd rfl some
    · exact ⟨negative, digits, text, text.strtoul.2.symm.trans value⟩
  · rintro ⟨negative, digits, text, value⟩
    exact ⟨text.strtoul.1, text.strtoul.2.trans value⟩

/-- A number of digits that is not too large is read as it is. -/
theorem ReadsAs.of_decimal {s : List Char} (decimal : Decimal s)
    (fits : digitsValue 10 s ≤ ulongMax) : ReadsAs s (digitsValue 10 s) :=
  (readsAs_iff decimal.1).mp (strtoul_decimal_of_le decimal fits)

/-- What is read without white space or sign in front is a number of digits. -/
theorem ReadsAs.decimal {s : List Char} {n : Nat} (reads : ReadsAs s n) (tight : loose s = false) :
    Decimal s ∧ n = min (digitsValue 10 s) ulongMax := by
  obtain ⟨negative, digits, text, value⟩ := reads
  obtain ⟨rfl, rfl⟩ := text.eq_digits tight
  refine ⟨text.1, ?_⟩
  rw [← value, ← text.strtoul.2]
  exact (strtoul_decimal text.1).2

/-- A number in range is read from its digits, or loosely. -/
theorem readsAs_cases {s : List Char} {n limit : Nat} (small : limit < ulongMax)
    (reads : ReadsAs s n) (fits : n ≤ limit) :
    LooseNumber s n ∨ Decimal s ∧ digitsValue 10 s = n := by
  cases tight : loose s with
  | true => exact .inl ⟨tight, reads⟩
  | false =>
      obtain ⟨decimal, value⟩ := reads.decimal tight
      exact .inr ⟨decimal, by omega⟩

/-! ## Ports -/

/-- A port in decimal. -/
def PortText (s : List Char) (port : Nat) : Prop :=
  Decimal s ∧ digitsValue 10 s = port ∧ port ≤ 0xffff

instance (s : List Char) (port : Nat) : Decidable (PortText s port) :=
  inferInstanceAs (Decidable (_ ∧ _ ∧ _))

/-- The payload of a port, in network byte order. -/
def portBytes (port : Nat) : List Byte := leBytes16 (htobe16 (BitVec.ofNat 16 port))

/-- The port parser accepts a text exactly when it is a port, which it stores. -/
def PortExact (s : List Char) : Prop :=
  ∀ bytes, bfParseL4PortText s = .ok bytes ↔ ∃ port, PortText s port ∧ bytes = portBytes port

theorem PortText.readsAs {s : List Char} {port : Nat} (text : PortText s port) :
    ReadsAs s port := by
  obtain ⟨decimal, rfl, fits⟩ := text
  exact ReadsAs.of_decimal decimal (fits.trans (by decide))

theorem bfParseL4PortText_ok_iff {s : List Char} {bytes : List Byte} :
    bfParseL4PortText s = .ok bytes ↔
      s = [] ∧ bytes = portBytes 0 ∨
        ∃ port, ReadsAs s port ∧ port ≤ 0xffff ∧ bytes = portBytes port := by
  by_cases empty : s = []
  · subst empty
    have none : ∀ port, ¬ ReadsAs [] port := by
      rintro port ⟨negative, digits, text, -⟩
      exact text.ne_nil rfl
    have zero : bfParseL4PortText [] = .ok (portBytes 0) := rfl
    rw [zero]
    constructor
    · intro same
      exact .inl ⟨rfl, (Except.ok.inj same).symm⟩
    · rintro (⟨-, rfl⟩ | ⟨port, reads, -⟩)
      · rfl
      · exact absurd reads (none port)
  · rw [bfParseL4PortText, bfParseL4Port]
    split_ifs with fine
    · obtain ⟨whole, fits⟩ := fine
      have reads := (readsAs_iff empty).mp ⟨whole, rfl⟩
      constructor
      · intro same
        exact .inr ⟨_, reads, fits, (Except.ok.inj same).symm⟩
      · rintro (⟨none, -⟩ | ⟨port, reads', -, rfl⟩)
        · exact absurd none empty
        · rw [((readsAs_iff empty).mpr reads').2]
          rfl
    · simp only [false_iff, not_or, not_exists]
      refine ⟨fun none => empty none.1, ?_⟩
      rintro port ⟨reads, fits, -⟩
      obtain ⟨whole, value⟩ := (readsAs_iff empty).mpr reads
      exact fine ⟨whole, value ▸ fits⟩

/-- **Ports.**  The port parser is exact but for the empty text, and numbers in range that have
white space or a sign in front. -/
theorem portExact_iff (s : List Char) :
    PortExact s ↔ s ≠ [] ∧ ¬ ∃ port, LooseNumber s port ∧ port ≤ 0xffff := by
  have strict : ∀ {port}, PortText s port → s ≠ [] ∧ loose s = false :=
    fun text => ⟨text.1.1, text.1.tight⟩
  constructor
  · intro exact
    refine ⟨?_, ?_⟩
    · intro empty
      obtain ⟨port, text, -⟩ := (exact _).mp (bfParseL4PortText_ok_iff.mpr (.inl ⟨empty, rfl⟩))
      exact (strict text).1 empty
    · rintro ⟨port, ⟨front, reads⟩, fits⟩
      obtain ⟨port', text, -⟩ :=
        (exact _).mp (bfParseL4PortText_ok_iff.mpr (.inr ⟨port, reads, fits, rfl⟩))
      rw [(strict text).2] at front
      cases front
  · rintro ⟨some, plain⟩ bytes
    rw [bfParseL4PortText_ok_iff]
    constructor
    · rintro (⟨empty, -⟩ | ⟨port, reads, fits, rfl⟩)
      · exact absurd empty some
      · rcases readsAs_cases (by decide) reads fits with front | ⟨decimal, value⟩
        · exact absurd ⟨port, front, fits⟩ plain
        · exact ⟨port, ⟨decimal, value, fits⟩, rfl⟩
    · rintro ⟨port, text, rfl⟩
      exact .inr ⟨port, text.readsAs, text.2.2, rfl⟩

/-! ## Ranges -/

/-- `START-END` -/
def RangeText (s : List Char) (start stop : Nat) : Prop :=
  ∃ a b, s = a ++ '-' :: b ∧ PortText a start ∧ PortText b stop ∧ start ≤ stop

/-- `START-END` where `END` has white space or a sign in front. -/
def LooseRange (s : List Char) (start stop : Nat) : Prop :=
  ∃ a b, s = a ++ '-' :: b ∧ PortText a start ∧ LooseNumber b stop ∧ start ≤ stop ∧ stop ≤ 0xffff

/-- The payload of a range, in the byte order of the host. -/
def rangeBytes (start stop : Nat) : List Byte :=
  leBytes16 (BitVec.ofNat 16 start) ++ leBytes16 (BitVec.ofNat 16 stop)

/-- The range parser accepts a text exactly when it is a range, which it stores. -/
def RangeExact (s : List Char) : Prop :=
  ∀ bytes, bfParseL4PortRangeText s = .ok bytes ↔
    ∃ start stop, RangeText s start stop ∧ bytes = rangeBytes start stop

/-- When cutting a text to the buffer, and reading numbers loosely, makes no difference. -/
def RangePlain (s : List Char) : Prop :=
  (¬ ∃ start stop, LooseRange (bfStrncpy bfPortRangeMaxLen s) start stop) ∧
    (bfPortRangeMaxLen ≤ s.length →
      RangeText s 0 0 ∧ '-' ∈ s.take (bfPortRangeMaxLen - 2) ∨
        (¬ ∃ start stop, RangeText s start stop) ∧
          ¬ ∃ start stop, RangeText (bfStrncpy bfPortRangeMaxLen s) start stop)

theorem rangeBytes_inj {start stop start' stop' : Nat} (lt : start ≤ 0xffff) (lt' : start' ≤ 0xffff)
    (le : stop ≤ 0xffff) (le' : stop' ≤ 0xffff)
    (same : rangeBytes start stop = rangeBytes start' stop') : start = start' ∧ stop = stop' := by
  obtain ⟨first, second⟩ := List.append_inj same rfl
  have word : ∀ {n m : Nat}, n ≤ 0xffff → m ≤ 0xffff →
      leBytes16 (BitVec.ofNat 16 n) = leBytes16 (BitVec.ofNat 16 m) → n = m := by
    intro n m small small' bytes
    have value := congrArg (leBits 16) bytes
    rw [leBits_leBytes16, leBits_leBytes16] at value
    have nat := congrArg BitVec.toNat value
    rw [BitVec.toNat_ofNat, BitVec.toNat_ofNat, Nat.mod_eq_of_lt (by omega),
      Nat.mod_eq_of_lt (by omega)] at nat
    exact nat
  exact ⟨word lt lt' first, word le le' second⟩

theorem not_dash_of_decimal {s : List Char} (decimal : Decimal s) :
    ∀ c ∈ s, decide (c = '-') = false := by
  intro c mem
  rw [decide_eq_false_iff_not]
  rintro rfl
  exact absurd (decimal.2 _ mem) (by decide)

/-- Two numbers in front of the first dash. -/
theorem dash_unique {a b a' b' : List Char} (decimal : Decimal a) (decimal' : Decimal a')
    (same : a ++ '-' :: b = a' ++ '-' :: b') : a = a' ∧ b = b' := by
  have cut := @strtok_append_cons Char (· = '-') a b '-' decimal.1 (not_dash_of_decimal decimal) rfl
  rw [same, strtok_append_cons decimal'.1 (not_dash_of_decimal decimal') rfl] at cut
  cases cut
  exact ⟨rfl, rfl⟩

/-- What the range parser accepts. -/
theorem bfParseL4PortRangeText_ok_iff {s : List Char} {bytes : List Byte} :
    bfParseL4PortRangeText s = .ok bytes ↔
      ∃ start stop, (LooseRange (bfStrncpy bfPortRangeMaxLen s) start stop ∨
        RangeText (bfStrncpy bfPortRangeMaxLen s) start stop) ∧
        bytes = rangeBytes start stop := by
  generalize cut : bfStrncpy bfPortRangeMaxLen s = t
  have head : t.head? = s.head? := by
    rw [← cut]
    cases s <;> rfl
  constructor
  · intro accepted
    simp only [bfParseL4PortRangeText, cut] at accepted
    split_ifs at accepted with start
    rw [Bool.not_eq_false] at start
    cases found : strtok (· = '-') t with
    | none => simp only [found] at accepted; cases accepted
    | some pair =>
        obtain ⟨first, second⟩ := pair
        simp only [found] at accepted
        split_ifs at accepted with none
        simp only [bfParseL4PortRange] at accepted
        split_ifs at accepted with bad bad' order
        cases accepted
        push Not at bad bad' order
        obtain ⟨some, plain, shape⟩ := strtok_some found
        have skipped : t.takeWhile (· = '-') = [] := by
          cases t with
          | nil => rfl
          | cons c cs =>
              apply List.takeWhile_cons_of_neg
              rintro dash
              rw [← head, List.head?_cons, of_decide_eq_true dash] at start
              exact absurd start (by decide)
        rw [skipped, List.nil_append] at shape
        obtain ⟨-, empty⟩ | ⟨d, dash, whole⟩ := shape
        · exact absurd empty none
        · rw [of_decide_eq_true dash, List.nil_append] at whole
          have tight : loose first = false := by
            obtain ⟨c, cs, rfl⟩ := List.exists_cons_of_ne_nil some
            rw [← head, whole, List.cons_append, List.head?_cons, Option.any_some] at start
            rw [loose, List.head?_cons, Option.any_some]
            exact isDigitOf_tight (isDigitOf_of_isDigit start (le_refl 10))
          have reads : ReadsAs first (strtoul 10 first).value := (readsAs_iff some).mp ⟨bad.1, rfl⟩
          obtain ⟨decimal, value⟩ := reads.decimal tight
          have port : PortText first (strtoul 10 first).value := by
            have high : 0xffff < ulongMax := by decide
            exact ⟨decimal, by omega, bad.2⟩
          refine ⟨_, _, ?_, rfl⟩
          rcases readsAs_cases (by decide) ((readsAs_iff none).mp ⟨bad'.1, rfl⟩) bad'.2 with
            front | ⟨decimal', value'⟩
          · exact .inl ⟨first, second, whole, port, front, order, bad'.2⟩
          · exact .inr ⟨first, second, whole, port, ⟨decimal', value', bad'.2⟩, order⟩
  · rintro ⟨start, stop, range, rfl⟩
    have parts : ∃ a b, t = a ++ '-' :: b ∧ PortText a start ∧ b ≠ [] ∧ ReadsAs b stop ∧
        start ≤ stop ∧ stop ≤ 0xffff := by
      rcases range with ⟨a, b, whole, port, front, order, fits⟩ | ⟨a, b, whole, port, port', order⟩
      · obtain ⟨negative, digits, text, -⟩ := front.2
        exact ⟨a, b, whole, port, text.ne_nil, front.2, order, fits⟩
      · exact ⟨a, b, whole, port, port'.1.1, port'.readsAs, order, port'.2.2⟩
    obtain ⟨a, b, whole, port, some, reads, order, fits⟩ := parts
    have digit : s.head?.any Char.isDigit = true := by
      obtain ⟨c, cs, rfl⟩ := List.exists_cons_of_ne_nil port.1.1
      rw [← head, whole, List.cons_append, List.head?_cons, Option.any_some]
      exact port.1.2 c (List.mem_cons_self ..)
    have found : strtok (· = '-') t = .some (a, b) := by
      rw [whole]
      exact strtok_append_cons port.1.1 (not_dash_of_decimal port.1) rfl
    obtain ⟨ended, value⟩ := (readsAs_iff port.1.1).mpr port.readsAs
    obtain ⟨ended', value'⟩ := (readsAs_iff some).mpr reads
    simp only [bfParseL4PortRangeText, cut, found, bfParseL4PortRange, ended, ended', value, value']
    rw [if_neg (by simp [digit]), if_neg some, if_neg (by simp; omega), if_neg (by simp; omega),
      if_neg (by omega)]
    rfl

theorem RangeText.bounds {s : List Char} {start stop : Nat} (text : RangeText s start stop) :
    start ≤ 0xffff ∧ stop ≤ 0xffff := by
  obtain ⟨a, b, -, port, port', order⟩ := text
  exact ⟨port.2.2, port'.2.2⟩

/-- A text names at most one range. -/
theorem RangeText.unique {s : List Char} {start stop start' stop' : Nat}
    (text : RangeText s start stop) (text' : RangeText s start' stop') :
    start = start' ∧ stop = stop' := by
  obtain ⟨a, b, whole, ⟨decimal, rfl, -⟩, ⟨-, rfl, -⟩, -⟩ := text
  obtain ⟨a', b', whole', ⟨decimal', rfl, -⟩, ⟨-, rfl, -⟩, -⟩ := text'
  obtain ⟨rfl, rfl⟩ := dash_unique decimal decimal' (whole.symm.trans whole')
  exact ⟨rfl, rfl⟩

/-- A range whose text is cut, but not in front of the dash. -/
theorem RangeText.cut {s tail : List Char} {start stop start' stop' : Nat} (more : tail ≠ [])
    (text : RangeText (s ++ tail) start stop) (text' : RangeText s start' stop') :
    start = start' ∧ stop' ≤ stop ∧ (stop = stop' → stop = 0) := by
  obtain ⟨a, b, whole, ⟨decimal, rfl, -⟩, ⟨decimalB, rfl, -⟩, -⟩ := text
  obtain ⟨a', b', rfl, ⟨decimal', rfl, -⟩, ⟨-, rfl, -⟩, -⟩ := text'
  rw [List.append_assoc, List.cons_append] at whole
  obtain ⟨rfl, rfl⟩ := dash_unique decimal' decimal whole
  refine ⟨rfl, digitsValue_le_append (by decide) b' tail, ?_⟩
  exact digitsValue_append_eq (by decide) more

/-- A loosely read range is no range, with or without more text. -/
theorem LooseRange.not_rangeText {s tail : List Char} {start stop start' stop' : Nat}
    (front : LooseRange s start stop) : ¬ RangeText (s ++ tail) start' stop' := by
  rintro ⟨a, b, whole, port, port', -⟩
  obtain ⟨a', b', rfl, text, number, -, -⟩ := front
  rw [List.append_assoc, List.cons_append] at whole
  obtain ⟨rfl, rfl⟩ := dash_unique text.1 port.1 whole
  obtain ⟨negative, digits, text', -⟩ := number.2
  have tight := port'.1.tight
  rw [loose_append_of_ne_nil text'.ne_nil, number.1] at tight
  cases tight

/-- Zeros are still zeros when the text is cut behind the dash. -/
theorem RangeText.cut_zero {s tail : List Char} (text : RangeText (s ++ tail) 0 0)
    (kept : '-' ∈ s.dropLast) : RangeText s 0 0 := by
  obtain ⟨a, b, whole, port, ⟨decimal, value, -⟩, -⟩ := text
  obtain ⟨before, after, cut⟩ := List.append_of_mem kept
  have some : s ≠ [] := by
    rintro rfl
    cases kept
  obtain ⟨last, full⟩ : ∃ last, s = before ++ '-' :: (after ++ [last]) := by
    refine ⟨s.getLast some, ?_⟩
    rw [← List.cons_append, ← List.append_assoc, ← cut, List.dropLast_append_getLast]
  -- The first dash of the text is the only one, as the rest are digits.
  have lengths : a.length = before.length := by
    by_contra differ
    have position : (s ++ tail)[before.length]? = .some '-' := by
      rw [full]
      simp
    rw [whole] at position
    rcases Nat.lt_or_gt_of_ne differ with short | long
    · rw [List.getElem?_append_right (by omega), List.getElem?_cons] at position
      rw [if_neg (by omega)] at position
      have mem := List.mem_of_getElem? position
      exact absurd (not_dash_of_decimal decimal _ mem) (by decide)
    · rw [List.getElem?_append_left (by omega)] at position
      have mem := List.mem_of_getElem? position
      exact absurd (not_dash_of_decimal port.1 _ mem) (by decide)
  rw [full, List.append_assoc] at whole
  obtain ⟨rfl, rest⟩ := List.append_inj whole.symm lengths
  have digits : b = (after ++ [last]) ++ tail := (List.cons.inj rest).2
  subst digits
  have below := digitsValue_le_append (show 0 < 10 by decide) (after ++ [last]) tail
  refine ⟨a, after ++ [last], full, port, ⟨decimal.of_append (by simp), by omega, by omega⟩, le_rfl⟩

/-- **Ranges.**  The range parser is exact for the texts that are neither read loosely nor
changed when they are cut. -/
theorem rangeExact_iff (s : List Char) : RangeExact s ↔ RangePlain s := by
  have whole : bfStrncpy bfPortRangeMaxLen s ++ s.drop (bfPortRangeMaxLen - 1) = s :=
    List.take_append_drop ..
  have read := fun bytes => @bfParseL4PortRangeText_ok_iff s bytes
  unfold RangePlain
  generalize cut : bfStrncpy bfPortRangeMaxLen s = t at whole read ⊢
  generalize left : s.drop (bfPortRangeMaxLen - 1) = tail at whole
  constructor
  · intro exact
    have strict : ∀ {start stop}, LooseRange t start stop ∨ RangeText t start stop →
        RangeText s start stop := by
      intro start stop range
      have fits : start ≤ 0xffff ∧ stop ≤ 0xffff := by
        rcases range with front | text
        · obtain ⟨a, b, -, port, -, -, fits⟩ := front
          exact ⟨port.2.2, fits⟩
        · exact text.bounds
      obtain ⟨start', stop', text, same⟩ := (exact _).mp ((read _).mpr ⟨start, stop, range, rfl⟩)
      obtain ⟨rfl, rfl⟩ := rangeBytes_inj fits.1 text.bounds.1 fits.2 text.bounds.2 same
      exact text
    refine ⟨?_, ?_⟩
    · rintro ⟨start, stop, front⟩
      have text := strict (.inl front)
      rw [← whole] at text
      exact front.not_rangeText text
    · intro long
      have more : tail ≠ [] := by
        rw [← left]
        intro none
        have short := List.drop_eq_nil_iff.mp none
        have limit : bfPortRangeMaxLen = 16 := rfl
        omega
      by_cases range : ∃ start stop, RangeText s start stop
      · obtain ⟨start, stop, text⟩ := range
        obtain ⟨start', stop', here, same⟩ := (read _).mp ((exact _).mpr ⟨start, stop, text, rfl⟩)
        have text' := strict here
        obtain ⟨rfl, rfl⟩ := text.unique text'
        have kept : RangeText t start stop := by
          rcases here with front | kept
          · rw [← whole] at text
            exact absurd text front.not_rangeText
          · exact kept
        have order : start ≤ stop := by
          obtain ⟨a, b, -, -, -, order⟩ := kept
          exact order
        have zero : stop = 0 := by
          rw [← whole] at text
          exact (text.cut more kept).2.2 rfl
        subst zero
        obtain rfl : start = 0 := by omega
        refine .inl ⟨text, ?_⟩
        obtain ⟨a, b, split, -, ⟨decimal, -⟩, -⟩ := kept
        have length : t.length ≤ bfPortRangeMaxLen - 1 := by
          rw [← cut]
          exact List.length_take_le ..
        have total : t.length = a.length + (b.length + 1) := by
          rw [split, List.length_append, List.length_cons]
        have pos := List.length_pos_iff.mpr decimal.1
        have limit : bfPortRangeMaxLen = 16 := rfl
        rw [← whole, split, List.append_assoc, List.cons_append, limit]
        rw [List.take_append, List.mem_append]
        right
        obtain ⟨k, steps⟩ : ∃ k, 16 - 2 - a.length = k + 1 := ⟨16 - 2 - a.length - 1, by omega⟩
        rw [steps, List.take_succ_cons]
        exact List.mem_cons_self ..
      · refine .inr ⟨range, ?_⟩
        rintro ⟨start, stop, text⟩
        exact range ⟨start, stop, strict (.inr text)⟩
  · rintro ⟨notLoose, long⟩ bytes
    rw [read]
    have same : ∀ start stop, RangeText t start stop ↔ RangeText s start stop := by
      intro start stop
      by_cases short : s.length < bfPortRangeMaxLen
      · have kept : t = s := by
          rw [← cut]
          exact List.take_of_length_le (by omega)
        rw [kept]
      · rcases long (Nat.not_lt.mp short) with ⟨zero, dash⟩ | ⟨none, none'⟩
        · have zero' : RangeText t 0 0 := by
            refine @RangeText.cut_zero t tail (whole.symm ▸ zero) ?_
            have limit : bfPortRangeMaxLen = 16 := rfl
            rw [← cut, bfStrncpy, List.dropLast_take (by omega)]
            exact dash
          constructor
          · intro text
            obtain ⟨rfl, rfl⟩ := text.unique zero'
            exact zero
          · intro text
            obtain ⟨rfl, rfl⟩ := text.unique zero
            exact zero'
        · exact iff_of_false (fun text => none' ⟨_, _, text⟩) fun text => none ⟨_, _, text⟩
    constructor
    · rintro ⟨start, stop, front | text, rfl⟩
      · exact absurd ⟨start, stop, front⟩ notLoose
      · exact ⟨start, stop, (same start stop).mp text, rfl⟩
    · rintro ⟨start, stop, text, rfl⟩
      exact ⟨start, stop, .inr ((same start stop).mpr text), rfl⟩

/-- **Port texts.**  The two parsers accept ports and ranges, and nothing else, for exactly these
texts. -/
theorem portTexts_exact_iff (s : List Char) :
    (PortExact s ↔ s ≠ [] ∧ ¬ ∃ port, LooseNumber s port ∧ port ≤ 0xffff) ∧
      (RangeExact s ↔ RangePlain s) :=
  ⟨portExact_iff s, rangeExact_iff s⟩

/-- The empty text is port 0, and a range of ten digits each is refused. -/
theorem portTexts_not_exact :
    ¬ PortExact [] ∧ ¬ RangeExact "0000000080-0000000090".toList := by
  constructor
  · intro exact
    have accepted : bfParseL4PortText [] = .ok [0, 0] := rfl
    obtain ⟨port, text, -⟩ := (exact _).mp accepted
    exact text.1.1 rfl
  · intro exact
    have range : RangeText "0000000080-0000000090".toList 80 90 :=
      ⟨"0000000080".toList, "0000000090".toList, by decide, by decide, by decide, by decide⟩
    have accepted := (exact _).mpr ⟨80, 90, range, rfl⟩
    have refused : bfParseL4PortRangeText "0000000080-0000000090".toList = .error .einval := rfl
    rw [refused] at accepted
    cases accepted

/-! ## Networks -/

section Networks

/-- `ADDR/LEN` -/
def NetText (pton : List Char → Option (List Byte)) (limit : Nat) (s : List Char)
    (addr : List Byte) (prefixlen : Nat) : Prop :=
  ∃ a l, s = a ++ '/' :: l ∧ pton a = some addr ∧ Decimal l ∧ digitsValue 10 l = prefixlen ∧
    prefixlen ≤ limit

/-- The payload of a network. -/
def netBytes (addr : List Byte) (prefixlen : Nat) : List Byte :=
  leBytes32 (BitVec.ofNat 32 prefixlen) ++ addr

/-- A network parser accepts a text exactly when it is a network, which it stores. -/
def NetExact (parse : List Char → Except Errno (List Byte))
    (pton : List Char → Option (List Byte)) (limit : Nat) (s : List Char) : Prop :=
  ∀ bytes, parse s = .ok bytes ↔
    ∃ addr prefixlen, NetText pton limit s addr prefixlen ∧ bytes = netBytes addr prefixlen

/-- When cutting a text to the buffer, storing the length in 32 bits and reading it loosely makes
no difference: a length that passes the check is a number of digits, and 0 if it was cut. -/
def NetPlain (len : Nat) (pton : List Char → Option (List Byte)) (limit : Nat) (s : List Char) :
    Prop :=
  ∀ a l addr n, s = a ++ '/' :: l → pton a = some addr →
    ReadsAs (l.take (len - 1 - (a.length + 1))) n → n % 2 ^ 32 ≤ limit →
      Decimal l ∧ digitsValue 10 l ≤ limit ∧
        (l.length ≤ len - 1 - (a.length + 1) ∨ digitsValue 10 l = 0)

variable {size textLen len limit : Nat} {start : Char → Bool} (inet : Inet size textLen start)

theorem Inet.no_slash {s : List Char} {addr : List Byte} (accepted : inet.pton s = some addr) :
    s ≠ [] ∧ ∀ c ∈ s, decide (c = '/') = false := by
  constructor
  · rintro rfl
    have starts := inet.starts accepted
    cases starts
  · intro c mem
    have spelled := inet.spelled accepted c mem
    rw [decide_eq_false_iff_not]
    rintro rfl
    exact absurd spelled (by decide)

/-- An address in front of the first slash. -/
theorem Inet.slash_unique {a l a' l' : List Char} {addr addr' : List Byte}
    (accepted : inet.pton a = some addr) (accepted' : inet.pton a' = some addr')
    (same : a ++ '/' :: l = a' ++ '/' :: l') : a = a' ∧ l = l' := by
  obtain ⟨some, plain⟩ := inet.no_slash accepted
  obtain ⟨some', plain'⟩ := inet.no_slash accepted'
  have cut := @strtok_append_cons Char (· = '/') a l '/' some plain rfl
  rw [same, strtok_append_cons some' plain' rfl] at cut
  cases cut
  exact ⟨rfl, rfl⟩

/-- What a network parser accepts. -/
theorem bfParseNet_ok_iff (room : textLen + 2 < len) {s : List Char} {bytes : List Byte}
    (noSlash : start '/' = false) :
    bfParseNet len start limit inet.pton s = .ok bytes ↔
      ∃ a l addr n, s = a ++ '/' :: l ∧ inet.pton a = some addr ∧
        ReadsAs (l.take (len - 1 - (a.length + 1))) n ∧ n % 2 ^ 32 ≤ limit ∧
        bytes = netBytes addr n := by
  have whole : bfStrncpy len s ++ s.drop (len - 1) = s := List.take_append_drop ..
  have head : (bfStrncpy len s).head? = s.head? := by
    obtain ⟨k, steps⟩ : ∃ k, len - 1 = k + 1 := ⟨len - 2, by omega⟩
    rw [bfStrncpy, steps]
    cases s <;> rfl
  constructor
  · intro accepted
    simp only [bfParseNet] at accepted
    split_ifs at accepted with starts
    rw [Bool.not_eq_false] at starts
    cases found : strtok (· = '/') (bfStrncpy len s) with
    | none => simp only [found] at accepted; cases accepted
    | some pair =>
        obtain ⟨strip, strmask⟩ := pair
        simp only [found] at accepted
        split_ifs at accepted with none bad
        · split at accepted <;> cases accepted
        cases address : inet.pton strip with
        | none => simp only [address] at accepted; cases accepted
        | some addr =>
            simp only [address] at accepted
            cases accepted
            push Not at bad
            obtain ⟨some, -, shape⟩ := strtok_some found
            have skipped : (bfStrncpy len s).takeWhile (· = '/') = [] := by
              cases t : bfStrncpy len s with
              | nil => rfl
              | cons c cs =>
                  apply List.takeWhile_cons_of_neg
                  intro slash
                  rw [← head, t, List.head?_cons, of_decide_eq_true slash, Option.any_some,
                    noSlash] at starts
                  cases starts
            rw [skipped, List.nil_append] at shape
            obtain ⟨-, empty⟩ | ⟨d, slash, cut⟩ := shape
            · exact absurd empty none
            · rw [of_decide_eq_true slash, List.nil_append] at cut
              have full : s = strip ++ '/' :: (strmask ++ s.drop (len - 1)) := by
                conv => lhs; rw [← whole, cut]
                rw [List.append_assoc, List.cons_append]
              have lengths : (bfStrncpy len s).length = strip.length + (strmask.length + 1) := by
                rw [cut, List.length_append, List.length_cons]
              have kept : (strmask ++ s.drop (len - 1)).take (len - 1 - (strip.length + 1)) =
                  strmask := by
                by_cases long : s.length ≤ len - 1
                · have all : bfStrncpy len s = s := List.take_of_length_le long
                  rw [List.drop_of_length_le long, List.append_nil]
                  rw [all] at lengths
                  exact List.take_of_length_le (by omega)
                · have exactly : (bfStrncpy len s).length = len - 1 :=
                    List.length_take_of_le (by omega)
                  exact List.take_left' (by omega)
              refine ⟨strip, _, addr, (strtoul 10 strmask).value, full, address, ?_, ?_, rfl⟩
              · rw [kept]
                exact (readsAs_iff none).mp ⟨bad.1, rfl⟩
              · have fits := bad.2
                rwa [BitVec.toNat_ofNat] at fits
  · rintro ⟨a, l, addr, n, rfl, address, reads, fits, rfl⟩
    obtain ⟨some, plain⟩ := inet.no_slash address
    have short := inet.short address
    have starts : (a ++ '/' :: l).head?.any start = true := by
      have here := inet.starts address
      obtain ⟨c, cs, rfl⟩ := List.exists_cons_of_ne_nil some
      exact here
    have cut : bfStrncpy len (a ++ '/' :: l) = a ++ '/' :: l.take (len - 1 - (a.length + 1)) := by
      obtain ⟨k, steps⟩ : ∃ k, len - 1 - a.length = k + 1 := ⟨len - 2 - a.length, by omega⟩
      rw [bfStrncpy, List.take_append, List.take_of_length_le (by omega), steps,
        List.take_succ_cons, show len - 1 - (a.length + 1) = k by omega]
    have number : l.take (len - 1 - (a.length + 1)) ≠ [] := by
      obtain ⟨negative, digits, text, -⟩ := reads
      exact text.ne_nil
    obtain ⟨ended, value⟩ := (readsAs_iff number).mpr reads
    simp only [bfParseNet, cut, strtok_append_cons some plain (decide_eq_true rfl), address, ended,
      value]
    rw [if_neg (by rw [starts]; decide), if_neg number, if_neg]
    · rfl
    · rw [BitVec.toNat_ofNat]
      simp only [ne_eq, not_true_eq_false, false_or, Nat.not_lt]
      exact fits

theorem netBytes_inj {addr addr' : List Byte} {n n' : Nat}
    (same : netBytes addr n = netBytes addr' n') : addr = addr' ∧ n % 2 ^ 32 = n' % 2 ^ 32 := by
  obtain ⟨words, addresses⟩ := List.append_inj same rfl
  have value := congrArg (leBits 32) words
  rw [leBits_leBytes32, leBits_leBytes32] at value
  have nat := congrArg BitVec.toNat value
  rw [BitVec.toNat_ofNat, BitVec.toNat_ofNat] at nat
  exact ⟨addresses, nat⟩

/-- **Networks.**  A network parser is exact for the texts that are plain. -/
theorem netExact_iff (room : textLen + 2 < len) (small : limit < 2 ^ 32)
    (noSlash : start '/' = false) (s : List Char) :
    NetExact (bfParseNet len start limit inet.pton) inet.pton limit s ↔
      NetPlain len inet.pton limit s := by
  -- A length that was cut has no larger value, and the same only if it is 0.
  have cutValue : ∀ {k : Nat} {l : List Char}, Decimal l → l.take k ≠ [] →
      digitsValue 10 l ≤ limit → ReadsAs (l.take k) (digitsValue 10 (l.take k)) ∧
        digitsValue 10 (l.take k) ≤ digitsValue 10 l := by
    intro k l decimal some fits
    have split : l.take k ++ l.drop k = l := List.take_append_drop k l
    have below := digitsValue_le_append (show 0 < 10 by decide) (l.take k) (l.drop k)
    rw [split] at below
    have high : (2 ^ 32 : Nat) < ulongMax := by decide
    exact ⟨ReadsAs.of_decimal ((split.symm ▸ decimal).of_append some) (by omega), below⟩
  have readValue : ∀ {t : List Char} {n : Nat}, Decimal t → digitsValue 10 t ≤ limit →
      ReadsAs t n → n = digitsValue 10 t := by
    intro t n decimal fits reads
    have high : (2 ^ 32 : Nat) < ulongMax := by decide
    obtain ⟨-, value⟩ := reads.decimal decimal.tight
    omega
  constructor
  · intro exact a l addr n whole address reads fits
    obtain ⟨addr', len', ⟨a', l', whole', address', decimal, rfl, fits'⟩, same⟩ :=
      (exact _).mp ((bfParseNet_ok_iff inet room noSlash).mpr
        ⟨a, l, addr, n, whole, address, reads, fits, rfl⟩)
    obtain ⟨rfl, rfl⟩ := inet.slash_unique address address' (whole.symm.trans whole')
    refine ⟨decimal, fits', ?_⟩
    by_cases short : l.length ≤ len - 1 - (a.length + 1)
    · exact .inl short
    · right
      have some : l.take (len - 1 - (a.length + 1)) ≠ [] := by
        obtain ⟨negative, digits, text, -⟩ := reads
        exact text.ne_nil
      obtain ⟨-, below⟩ := cutValue decimal some fits'
      have split := List.take_append_drop (len - 1 - (a.length + 1)) l
      have value := readValue ((split.symm ▸ decimal).of_append some) (by omega) reads
      have equal := (netBytes_inj same).2
      rw [Nat.mod_eq_of_lt (show digitsValue 10 l < 2 ^ 32 by omega),
        Nat.mod_eq_of_lt (show n < 2 ^ 32 by omega)] at equal
      have more : l.drop (len - 1 - (a.length + 1)) ≠ [] := by
        rw [Ne, List.drop_eq_nil_iff]
        exact short
      have zero := @digitsValue_append_eq 10 (by decide)
        (l.take (len - 1 - (a.length + 1))) _ more
      rw [split] at zero
      exact zero (by omega)
  · intro plain bytes
    rw [bfParseNet_ok_iff inet room noSlash]
    constructor
    · rintro ⟨a, l, addr, n, whole, address, reads, fits, rfl⟩
      obtain ⟨decimal, fits', exactly⟩ := plain a l addr n whole address reads fits
      refine ⟨addr, digitsValue 10 l, ⟨a, l, whole, address, decimal, rfl, fits'⟩, ?_⟩
      have some : l.take (len - 1 - (a.length + 1)) ≠ [] := by
        obtain ⟨negative, digits, text, -⟩ := reads
        exact text.ne_nil
      obtain ⟨-, below⟩ := cutValue decimal some fits'
      have split := List.take_append_drop (len - 1 - (a.length + 1)) l
      have value := readValue ((split.symm ▸ decimal).of_append some) (by omega) reads
      rcases exactly with short | zero
      · rw [List.take_of_length_le short] at value
        rw [value]
      · rw [show n = digitsValue 10 l by omega]
    · rintro ⟨addr, prefixlen, ⟨a, l, whole, address, decimal, rfl, fits⟩, rfl⟩
      have short := inet.short address
      have some : l.take (len - 1 - (a.length + 1)) ≠ [] := by
        obtain ⟨k, steps⟩ : ∃ k, len - 1 - (a.length + 1) = k + 1 :=
          ⟨len - 3 - a.length, by omega⟩
        obtain ⟨c, cs, rfl⟩ := List.exists_cons_of_ne_nil decimal.1
        rw [steps, List.take_succ_cons]
        exact List.cons_ne_nil _ _
      obtain ⟨reads, below⟩ := cutValue decimal some fits
      have fits' : digitsValue 10 (l.take (len - 1 - (a.length + 1))) % 2 ^ 32 ≤ limit := by
        rw [Nat.mod_eq_of_lt (by omega)]
        omega
      obtain ⟨-, -, exactly⟩ := plain a l addr _ whole address reads fits'
      refine ⟨a, l, addr, _, whole, address, reads, fits', ?_⟩
      rcases exactly with short | zero
      · rw [List.take_of_length_le short]
      · rw [show digitsValue 10 l = digitsValue 10 (l.take (len - 1 - (a.length + 1))) by omega]

/-- **Network texts.**  The two parsers accept networks, and nothing else, for exactly the plain
texts. -/
theorem netTexts_exact_iff (names : Names) (s : List Char) :
    (NetExact (bfParseIpv4Net names) names.inet4.pton 32 s ↔
        NetPlain bfIpv4NetMaxLen names.inet4.pton 32 s) ∧
      (NetExact (bfParseIpv6Net names) names.inet6.pton 128 s ↔
        NetPlain bfIpv6NetMaxLen names.inet6.pton 128 s) :=
  ⟨netExact_iff names.inet4 (by decide) (by decide) (by decide) s,
    netExact_iff names.inet6 (by decide) (by decide) (by decide) s⟩

end Networks

/-- A prefix length of 2^32 + 8 is taken for 8. -/
theorem netTexts_not_exact :
    ¬ NetExact (bfParseIpv4Net plainNames) plainNames.inet4.pton 32 "10.0.0.0/4294967304".toList ∧
      ¬ NetExact (bfParseIpv6Net plainNames) plainNames.inet6.pton 128
        "2001:db8:1:2:3:4:5:6/ 64".toList := by
  constructor
  · intro exact
    have accepted : bfParseIpv4Net plainNames "10.0.0.0/4294967304".toList =
        .ok (netBytes [10, 0, 0, 0] 8) := rfl
    obtain ⟨addr, prefixlen, ⟨a, l, whole, address, -, value, fits⟩, -⟩ := (exact _).mp accepted
    have cut : a = "10.0.0.0".toList ∧ l = "4294967304".toList :=
      plainNames.inet4.slash_unique address
        (show plainNames.inet4.pton "10.0.0.0".toList = some [10, 0, 0, 0] from rfl)
        (whole.symm.trans (show _ = "10.0.0.0".toList ++ '/' :: "4294967304".toList from rfl))
    rw [cut.2] at value
    have large : digitsValue 10 "4294967304".toList = 4294967304 := by decide
    omega
  · intro exact
    have accepted : bfParseIpv6Net plainNames "2001:db8:1:2:3:4:5:6/ 64".toList =
        .ok (netBytes [0x20, 0x01, 0x0d, 0xb8, 0, 1, 0, 2, 0, 3, 0, 4, 0, 5, 0, 6] 64) := rfl
    obtain ⟨addr, prefixlen, ⟨a, l, whole, address, decimal, -⟩, -⟩ := (exact _).mp accepted
    have cut := plainNames.inet6.slash_unique address
      (show plainNames.inet6.pton "2001:db8:1:2:3:4:5:6".toList =
        some [0x20, 0x01, 0x0d, 0xb8, 0, 1, 0, 2, 0, 3, 0, 4, 0, 5, 0, 6] from rfl)
      (whole.symm.trans (show _ = "2001:db8:1:2:3:4:5:6".toList ++ '/' :: " 64".toList from rfl))
    rw [cut.2] at decimal
    exact absurd decimal (by decide)

end Bpfilter

/-
# Cstr.Number -- numbers in C strings

`strtoul` and `strtoll` skip white space, read a sign, choose a base and read the
longest run of digits of it; without digits they read nothing.  Results are clamped to
the type, and a negated `strtoul` wraps around.  A C string is the list of its
bytes, written as characters, without the final zero.

A caller that compares the end pointer with the end of the string accepts more than
digits: the empty string, and numbers behind white space or a sign.
`endptr_strtoul_iff` says that nothing else is accepted.  The conversions of `printf`
are lists of digits, which are read back (`strtoul_toDigits`, `scanDigits_hex`).
-/
import Mathlib.Data.List.TakeWhile
import Mathlib.Tactic.Ring

namespace Cstr

set_option autoImplicit false

/-! ## Characters -/

/-- What holds of every character of a text is decided along the text. -/
instance (priority := high) decidableAllChars {p : Char → Prop} [DecidablePred p] (s : List Char) :
    Decidable (∀ c ∈ s, p c) := List.decidableBAll p s

/-- `isspace` in the C locale. -/
def isspace (c : Char) : Bool := c = ' ' ∨ (9 ≤ c.toNat ∧ c.toNat ≤ 13)

/-- The value of a digit, in bases up to 36. -/
def digitValue (c : Char) : Option Nat :=
  if c.isDigit then some (c.toNat - 48)
  else if c.isLower then some (c.toNat - 97 + 10)
  else if c.isUpper then some (c.toNat - 65 + 10)
  else none

/-- A digit of a base. -/
def isDigitOf (base : Nat) (c : Char) : Bool := (digitValue c).any (· < base)

/-- The value of a string of digits. -/
def digitsValue (base : Nat) (digits : List Char) : Nat :=
  digits.foldl (fun acc c => acc * base + (digitValue c).getD 0) 0

/-! ## Numbers -/

/-- An optional sign, and what follows it. -/
def signOf : List Char → Bool × List Char
  | '-' :: s => (true, s)
  | '+' :: s => (false, s)
  | s => (false, s)

/-- A prefix `0x` that has a digit behind it. -/
def hexPrefix : List Char → Bool
  | '0' :: x :: d :: _ => (x = 'x' || x = 'X') && isDigitOf 16 d
  | _ => false

/-- The base of a number, and its digits; base 0 is chosen by the prefix. -/
def baseOf (base : Nat) (s : List Char) : Nat × List Char :=
  if hexPrefix s && (base = 0 || base = 16) then (16, s.drop 2)
  else if base = 0 then (if s.head? = some '0' then 8 else 10, s)
  else (base, s)

/-- The digits at the start of a string: their value, and the rest. -/
def scanDigits (base : Nat) (s : List Char) : Option (Nat × List Char) :=
  let based := baseOf base s
  let digits := based.2.takeWhile (isDigitOf based.1)
  if digits = [] then none
  else some (digitsValue based.1 digits, based.2.dropWhile (isDigitOf based.1))

/-- What is read of a number: its sign, its magnitude and the rest of the string. -/
structure Scanned where
  negative : Bool
  magnitude : Nat
  rest : List Char
  deriving DecidableEq, Repr

/-- The number at the start of a string. -/
def scan (base : Nat) (s : List Char) : Option Scanned :=
  let signed := signOf (s.dropWhile isspace)
  (scanDigits base signed.2).map fun n => ⟨signed.1, n.1, n.2⟩

def ulongMax : Nat := 2 ^ 64 - 1

def llongMax : Int := 2 ^ 63 - 1

/-- The result of a conversion: the value, the end pointer, and whether `errno` was set. -/
structure Converted (α : Type) where
  value : α
  endptr : List Char
  erange : Bool
  deriving DecidableEq, Repr

/-- The `unsigned long` of a sign and a magnitude. -/
def ulongOf (negative : Bool) (magnitude : Nat) : Nat :=
  if ulongMax < magnitude then ulongMax
  else if negative then (2 ^ 64 - magnitude) % 2 ^ 64
  else magnitude

/-- `strtoul` -/
def strtoul (base : Nat) (s : List Char) : Converted Nat :=
  match scan base s with
  | none => ⟨0, s, false⟩
  | some n => ⟨ulongOf n.negative n.magnitude, n.rest, decide (ulongMax < n.magnitude)⟩

/-- `strtoll` -/
def strtoll (base : Nat) (s : List Char) : Converted Int :=
  match scan base s with
  | none => ⟨0, s, false⟩
  | some n =>
      let value : Int := if n.negative then -n.magnitude else n.magnitude
      if llongMax < value then ⟨llongMax, n.rest, true⟩
      else if value < -llongMax - 1 then ⟨-llongMax - 1, n.rest, true⟩
      else ⟨value, n.rest, false⟩

/-- A non-empty string of decimal digits. -/
def Decimal (s : List Char) : Prop := s ≠ [] ∧ ∀ c ∈ s, c.isDigit = true

instance (s : List Char) : Decidable (Decimal s) := inferInstanceAs (Decidable (_ ∧ _))

/-- White space or a sign in front. -/
def loose (s : List Char) : Bool := s.head?.any fun c => isspace c || c = '-' || c = '+'

/-- The integer literals of C without suffix, with their values. -/
inductive IntegerLiteral : List Char → Nat → Prop
  | decimal {d : Char} {ds : List Char} (start : d ≠ '0') (digits : Decimal (d :: ds)) :
      IntegerLiteral (d :: ds) (digitsValue 10 (d :: ds))
  | octal {ds : List Char} (digits : ∀ c ∈ ds, isDigitOf 8 c = true) :
      IntegerLiteral ('0' :: ds) (digitsValue 8 ds)
  | hexadecimal {x : Char} {ds : List Char} (mark : x = 'x' ∨ x = 'X') (some : ds ≠ [])
      (digits : ∀ c ∈ ds, isDigitOf 16 c = true) :
      IntegerLiteral ('0' :: x :: ds) (digitsValue 16 ds)

/-! ## Lemmas about characters -/

section Characters

variable {base : Nat} {c : Char}

theorem isDigit_iff : c.isDigit = true ↔ 48 ≤ c.toNat ∧ c.toNat ≤ 57 := Char.isDigit_iff_toNat

theorem isspace_iff : isspace c = true ↔ c.toNat = 32 ∨ (9 ≤ c.toNat ∧ c.toNat ≤ 13) := by
  rw [isspace, decide_eq_true_iff, ← Char.toNat_inj]
  rfl

theorem digitValue_of_isDigit (digit : c.isDigit = true) : digitValue c = some (c.toNat - 48) :=
  if_pos digit

theorem isDigitOf_of_isDigit (digit : c.isDigit = true) (wide : 10 ≤ base) :
    isDigitOf base c = true := by
  have bounds := isDigit_iff.mp digit
  rw [isDigitOf, digitValue_of_isDigit digit, Option.any_some, decide_eq_true_iff]
  omega

theorem isDigitOf_ten : isDigitOf 10 c = c.isDigit := by
  cases digit : c.isDigit with
  | true => exact isDigitOf_of_isDigit digit le_rfl
  | false =>
      rw [isDigitOf, digitValue, digit]
      simp only [Bool.false_eq_true, if_false]
      split_ifs <;> simp

/-- What may start a number is neither white space nor a sign. -/
theorem isDigitOf_tight (digit : isDigitOf base c = true) :
    (isspace c || c = '-' || c = '+') = false := by
  have known : digitValue c ≠ none := by
    intro none
    rw [isDigitOf, none] at digit
    cases digit
  rw [Bool.eq_false_iff]
  intro tight
  apply known
  have byValue : ∀ d : Char, digitValue d = none → c = d → digitValue c = none := by
    rintro d none rfl
    exact none
  simp only [Bool.or_eq_true, decide_eq_true_eq] at tight
  obtain (space | minus) | plus := tight
  · have low := isspace_iff.mp space
    have named : ∀ d : Char, c.toNat = d.toNat → c = d := fun d => Char.toNat_inj.mp
    have cases : c.toNat = 32 ∨ c.toNat = 9 ∨ c.toNat = 10 ∨ c.toNat = 11 ∨ c.toNat = 12 ∨
        c.toNat = 13 := by omega
    rcases cases with h | h | h | h | h | h
    · exact byValue ' ' (by decide) (named _ h)
    · exact byValue '\t' (by decide) (named _ h)
    · exact byValue '\n' (by decide) (named _ h)
    · exact byValue '\x0b' (by decide) (named _ h)
    · exact byValue '\x0c' (by decide) (named _ h)
    · exact byValue '\r' (by decide) (named _ h)
  · exact byValue '-' (by decide) minus
  · exact byValue '+' (by decide) plus

end Characters

/-! ## What is read -/

section Read

variable {base n : Nat} {negative : Bool} {s blanks sign digits rest body : List Char}

theorem loose_append_of_ne_nil (some : s ≠ []) : loose (s ++ rest) = loose s := by
  cases s with
  | nil => exact absurd rfl some
  | cons c cs => rfl

theorem baseOf_ten (s : List Char) : baseOf 10 s = (10, s) := by
  rw [baseOf, if_neg (by simp), if_neg (by decide)]

/-- Reading digits up to a character that is not one. -/
theorem takeWhile_digits (all : ∀ c ∈ digits, isDigitOf base c = true)
    (stop : ∀ c ∈ rest.head?, isDigitOf base c = false) :
    (digits ++ rest).takeWhile (isDigitOf base) = digits ∧
      (digits ++ rest).dropWhile (isDigitOf base) = rest := by
  rw [List.takeWhile_append_of_pos all, List.dropWhile_append_of_pos all]
  cases rest with
  | nil => exact ⟨List.append_nil _, rfl⟩
  | cons c cs =>
      have not := Bool.eq_false_iff.mp (stop c rfl)
      rw [List.takeWhile_cons_of_neg not, List.dropWhile_cons_of_neg not]
      exact ⟨List.append_nil _, rfl⟩

/-- Digits in base 10, up to something else. -/
theorem scanDigits_ten (decimal : Decimal digits) (stop : ∀ c ∈ rest.head?, c.isDigit = false) :
    scanDigits 10 (digits ++ rest) = some (digitsValue 10 digits, rest) := by
  obtain ⟨read, left⟩ := @takeWhile_digits 10 digits rest
    (fun c mem => isDigitOf_ten.trans (decimal.2 c mem))
    (fun c mem => isDigitOf_ten.trans (stop c mem))
  simp only [scanDigits, baseOf_ten, read, left]
  rw [if_neg decimal.1]

/-- A string read whole in base 10. -/
theorem scanDigits_ten_iff :
    scanDigits 10 s = some (n, []) ↔ Decimal s ∧ n = digitsValue 10 s := by
  constructor
  · intro read
    simp only [scanDigits, baseOf_ten] at read
    split_ifs at read with none
    simp only [Option.some.injEq, Prod.mk.injEq, List.dropWhile_eq_nil_iff, isDigitOf_ten] at read
    have whole : s.takeWhile (isDigitOf 10) = s := by
      rw [List.takeWhile_eq_self_iff]
      intro c mem
      exact isDigitOf_ten.trans (read.2 c mem)
    rw [whole] at read none
    exact ⟨⟨none, read.2⟩, read.1.symm⟩
  · rintro ⟨decimal, rfl⟩
    have read := @scanDigits_ten s [] decimal (fun _ mem => nomatch mem)
    rwa [List.append_nil] at read

/-- Digits do not start with white space or a sign. -/
theorem loose_of_scanDigits {found : Nat × List Char} (read : scanDigits base s = some found) :
    loose s = false := by
  cases s with
  | nil => rfl
  | cons c cs =>
      rw [loose, List.head?_cons, Option.any_some]
      by_cases hex : hexPrefix (c :: cs) = true
      · -- A prefix starts with `0`.
        have zero : c = '0' := by
          unfold hexPrefix at hex
          split at hex
          · rename_i start
            exact (List.cons.inj start).1
          · cases hex
        rw [zero]
        decide
      · have digit : ∃ b, isDigitOf b c = true := by
          unfold scanDigits at read
          have kept : (baseOf base (c :: cs)).2 = c :: cs := by
            unfold baseOf
            rw [Bool.not_eq_true] at hex
            rw [hex, Bool.false_and, if_neg Bool.false_ne_true]
            split <;> rfl
          simp only [kept] at read
          split_ifs at read with none
          refine ⟨(baseOf base (c :: cs)).1, ?_⟩
          by_contra not
          exact none (List.takeWhile_cons_of_neg not)
        obtain ⟨b, digit⟩ := digit
        exact isDigitOf_tight digit

theorem dropWhile_blanks (blank : ∀ c ∈ blanks, isspace c = true)
    (stop : ∀ c ∈ s.head?, isspace c = false) : (blanks ++ s).dropWhile isspace = s := by
  rw [List.dropWhile_append_of_pos blank]
  cases s with
  | nil => rfl
  | cons c cs => exact List.dropWhile_cons_of_neg (Bool.eq_false_iff.mp (stop c rfl))

theorem not_isspace_of_tight {c : Char} (tight : loose s = false) (start : c ∈ s.head?) :
    isspace c = false ∧ c ≠ '-' ∧ c ≠ '+' := by
  rw [loose, Option.mem_def.mp start, Option.any_some] at tight
  simpa [and_assoc] using tight

/-- White space, a sign, and a number: how the scan cuts a string. -/
theorem scan_signed (blank : ∀ c ∈ blanks, isspace c = true)
    (signed : sign = [] ∨ sign = ['+'] ∨ sign = ['-']) (tight : loose body = false) :
    scan base (blanks ++ sign ++ body) =
      (scanDigits base body).map fun n => ⟨decide (sign = ['-']), n.1, n.2⟩ := by
  have stop : ∀ c ∈ (sign ++ body).head?, isspace c = false := by
    intro c start
    rcases signed with rfl | rfl | rfl
    · exact (not_isspace_of_tight tight start).1
    · cases start
      decide
    · cases start
      decide
  have cut : signOf (sign ++ body) = (decide (sign = ['-']), body) := by
    rcases signed with rfl | rfl | rfl
    · rw [List.nil_append]
      unfold signOf
      split
      · exact absurd rfl (not_isspace_of_tight tight rfl).2.1
      · exact absurd rfl (not_isspace_of_tight tight rfl).2.2
      · rfl
    · rfl
    · rfl
  rw [scan, List.append_assoc, dropWhile_blanks blank stop, cut]

/-- Text without white space or sign in front. -/
theorem scan_tight (tight : loose s = false) :
    scan base s = (scanDigits base s).map fun n => ⟨false, n.1, n.2⟩ :=
  @scan_signed base [] [] s (by simp) (.inl rfl) tight

/-- Every string is white space, a sign and the text that is scanned for digits. -/
theorem exists_signed (s : List Char) :
    ∃ blanks sign body : List Char, s = blanks ++ sign ++ body ∧
      (∀ c ∈ blanks, isspace c = true) ∧ (sign = [] ∨ sign = ['+'] ∨ sign = ['-']) ∧
      signOf (s.dropWhile isspace) = (decide (sign = ['-']), body) := by
  have whole := (List.takeWhile_append_dropWhile (p := isspace) (l := s)).symm
  have blank : ∀ c ∈ s.takeWhile isspace, isspace c = true := fun c => List.mem_takeWhile_imp
  generalize s.dropWhile isspace = t at whole
  unfold signOf
  split
  · rename_i u
    exact ⟨_, ['-'], u, by simpa using whole, blank, .inr (.inr rfl), rfl⟩
  · rename_i u
    exact ⟨_, ['+'], u, by simpa using whole, blank, .inr (.inl rfl), rfl⟩
  · exact ⟨_, [], _, by simpa using whole, blank, .inl rfl, rfl⟩

/-- White space, a sign, and decimal digits. -/
def SignedText (negative : Bool) (digits s : List Char) : Prop :=
  Decimal digits ∧ ∃ blanks sign : List Char, (∀ c ∈ blanks, isspace c = true) ∧
    (sign = [] ∨ sign = ['+'] ∨ sign = ['-']) ∧ negative = decide (sign = ['-']) ∧
    s = blanks ++ sign ++ digits

theorem Decimal.signedText (decimal : Decimal s) : SignedText false s s :=
  ⟨decimal, [], [], by simp, .inl rfl, rfl, rfl⟩

theorem Decimal.of_append (decimal : Decimal (s ++ rest)) (some : s ≠ []) : Decimal s :=
  ⟨some, fun c mem => decimal.2 c (List.mem_append_left _ mem)⟩

theorem Decimal.tight (decimal : Decimal s) : loose s = false :=
  loose_of_scanDigits (scanDigits_ten_iff.mpr ⟨decimal, rfl⟩)

theorem SignedText.eq_digits (text : SignedText negative digits s) (tight : loose s = false) :
    s = digits ∧ negative = false := by
  obtain ⟨decimal, blanks, sign, blank, signed, rfl, rfl⟩ := text
  cases blanks with
  | nil =>
      rcases signed with rfl | rfl | rfl
      · exact ⟨rfl, rfl⟩
      · cases tight
      · cases tight
  | cons c cs =>
      have space := (not_isspace_of_tight tight rfl).1
      rw [blank c (List.mem_cons_self ..)] at space
      cases space

theorem SignedText.ne_nil (text : SignedText negative digits s) : s ≠ [] := by
  obtain ⟨decimal, blanks, sign, -, -, -, rfl⟩ := text
  intro empty
  exact decimal.1 (List.append_eq_nil_iff.mp empty).2

/-- Signed text is read whole. -/
theorem SignedText.scan (text : SignedText negative digits s) :
    Cstr.scan 10 s = some ⟨negative, digitsValue 10 digits, []⟩ := by
  obtain ⟨decimal, blanks, sign, blank, signed, rfl, rfl⟩ := text
  rw [scan_signed blank signed decimal.tight, scanDigits_ten_iff.mpr ⟨decimal, rfl⟩]
  rfl

theorem scan_ten_iff : Cstr.scan 10 s = some ⟨negative, n, []⟩ ↔
    ∃ digits, SignedText negative digits s ∧ n = digitsValue 10 digits := by
  constructor
  · intro read
    obtain ⟨blanks, sign, body, whole, blank, signed, cut⟩ := exists_signed s
    rw [Cstr.scan, cut, Option.map_eq_some_iff] at read
    obtain ⟨⟨value, rest⟩, digits, found⟩ := read
    cases found
    obtain ⟨decimal, value⟩ := scanDigits_ten_iff.mp digits
    exact ⟨body, ⟨decimal, blanks, sign, blank, signed, rfl, whole⟩, value⟩
  · rintro ⟨digits, text, rfl⟩
    exact text.scan

theorem SignedText.strtoul (text : SignedText negative digits s) :
    (Cstr.strtoul 10 s).endptr = [] ∧
      (Cstr.strtoul 10 s).value = ulongOf negative (digitsValue 10 digits) := by
  rw [Cstr.strtoul, text.scan]
  exact ⟨rfl, rfl⟩

/-- The strings that `strtoul` reads to the end. -/
theorem endptr_strtoul_iff :
    (strtoul 10 s).endptr = [] ↔ s = [] ∨ ∃ negative digits, SignedText negative digits s := by
  constructor
  · intro whole
    unfold strtoul at whole
    cases read : Cstr.scan 10 s with
    | none =>
        simp only [read] at whole
        exact .inl whole
    | some found =>
        obtain ⟨negative, n, rest⟩ := found
        simp only [read] at whole
        subst whole
        obtain ⟨digits, text, -⟩ := scan_ten_iff.mp read
        exact .inr ⟨negative, digits, text⟩
  · rintro (rfl | ⟨negative, digits, text⟩)
    · rfl
    · exact text.strtoul.1

/-- Decimal digits are read to the end. -/
theorem strtoul_decimal (decimal : Decimal s) :
    (strtoul 10 s).endptr = [] ∧ (strtoul 10 s).value = min (digitsValue 10 s) ulongMax := by
  obtain ⟨whole, value⟩ := decimal.signedText.strtoul
  refine ⟨whole, ?_⟩
  rw [value, ulongOf]
  simp only [Bool.false_eq_true, if_false]
  split <;> omega

/-- A number of digits that is not too large is read as it is. -/
theorem strtoul_decimal_of_le (decimal : Decimal s) (fits : digitsValue 10 s ≤ ulongMax) :
    (strtoul 10 s).endptr = [] ∧ (strtoul 10 s).value = digitsValue 10 s := by
  obtain ⟨whole, value⟩ := strtoul_decimal decimal
  exact ⟨whole, value.trans (Nat.min_eq_left fits)⟩

/-- A character that starts no number. -/
theorem strtoul_of_head {c : Char} {cs : List Char} (tight : loose (c :: cs) = false)
    (notDigit : digitValue c = none) : strtoul base (c :: cs) = ⟨0, c :: cs, false⟩ := by
  have stop : ∀ b, isDigitOf b c = false := by
    intro b
    rw [isDigitOf, notDigit]
    rfl
  have plain : hexPrefix (c :: cs) = false := by
    unfold hexPrefix
    split
    · rename_i start
      rw [(List.cons.inj start).1] at notDigit
      cases notDigit
    · rfl
  have kept : (baseOf base (c :: cs)).2 = c :: cs := by
    unfold baseOf
    rw [plain, Bool.false_and, if_neg Bool.false_ne_true]
    split <;> rfl
  have none : scanDigits base (c :: cs) = none := by
    simp only [scanDigits, kept]
    rw [if_pos (List.takeWhile_cons_of_neg (Bool.eq_false_iff.mp (stop _)))]
  rw [strtoul, scan_tight tight, none]
  rfl

end Read

/-! ## Literals -/

section Literals

variable {n : Nat} {s digits : List Char}

theorem not_hexPrefix_iff : hexPrefix s = false ↔
    ∀ x d rest, s = '0' :: x :: d :: rest → (x = 'x' ∨ x = 'X') → isDigitOf 16 d = false := by
  unfold hexPrefix
  split
  · simp
  · rename_i other
    simp only [true_iff]
    intro x d rest found
    exact absurd found (other x d rest)

/-- A hexadecimal literal is read whole, in base 0 and in base 16. -/
theorem scanDigits_hex {base : Nat} (known : base = 0 ∨ base = 16) {x : Char}
    (mark : x = 'x' ∨ x = 'X') (some : digits ≠ [])
    (hex : ∀ c ∈ digits, isDigitOf 16 c = true) :
    scanDigits base ('0' :: x :: digits) = .some (digitsValue 16 digits, []) := by
  obtain ⟨d, ds, rfl⟩ := List.exists_cons_of_ne_nil some
  have marked : hexPrefix ('0' :: x :: d :: ds) = true := by
    rcases mark with rfl | rfl <;> simp [hexPrefix, hex d]
  have based : baseOf base ('0' :: x :: d :: ds) = (16, d :: ds) := by
    rcases known with rfl | rfl <;> simp [baseOf, marked]
  obtain ⟨read, left⟩ := @takeWhile_digits 16 (d :: ds) [] hex (fun _ mem => nomatch mem)
  rw [List.append_nil] at read left
  simp only [scanDigits, based, read, left]
  rw [if_neg some]

theorem isDigitOf_x : isDigitOf 8 'x' = false ∧ isDigitOf 8 'X' = false := by decide

/-- What base 0 reads whole are the integer literals. -/
theorem scanDigits_zero_iff : scanDigits 0 s = some (n, []) ↔ IntegerLiteral s n := by
  constructor
  · intro read
    cases hex : hexPrefix s with
    | true =>
        have shape : ∃ x ds, s = '0' :: x :: ds ∧ (x = 'x' ∨ x = 'X') := by
          unfold hexPrefix at hex
          split at hex
          · rename_i x d rest
            simp only [Bool.and_eq_true, Bool.or_eq_true, decide_eq_true_eq] at hex
            exact ⟨x, d :: rest, rfl, hex.1⟩
          · cases hex
        obtain ⟨x, ds, rfl, mark⟩ := shape
        simp only [scanDigits, baseOf, hex, decide_true, Bool.true_or, Bool.and_self, if_true,
          List.drop_succ_cons, List.drop_zero] at read
        split_ifs at read with none
        simp only [Option.some.injEq, Prod.mk.injEq, List.dropWhile_eq_nil_iff] at read
        have whole : ds.takeWhile (isDigitOf 16) = ds := List.takeWhile_eq_self_iff.mpr read.2
        rw [whole] at read none
        rw [← read.1]
        exact .hexadecimal mark none read.2
    | false =>
        by_cases octal : s.head? = some '0'
        · obtain ⟨ds, rfl⟩ : ∃ ds, s = '0' :: ds := by
            cases s with
            | nil => cases octal
            | cons c cs =>
                cases octal
                exact ⟨cs, rfl⟩
          simp only [scanDigits, baseOf, hex, Bool.false_and, Bool.false_eq_true, if_false, if_true,
            octal] at read
          split_ifs at read with none
          simp only [Option.some.injEq, Prod.mk.injEq, List.dropWhile_eq_nil_iff] at read
          have whole := List.takeWhile_eq_self_iff.mpr read.2
          rw [whole] at read
          have value : digitsValue 8 ('0' :: ds) = digitsValue 8 ds := rfl
          rw [← read.1, value]
          exact .octal fun c mem => read.2 c (List.mem_cons_of_mem _ mem)
        · simp only [scanDigits, baseOf, hex, Bool.false_and, Bool.false_eq_true, if_false, if_true,
            octal] at read
          split_ifs at read with none
          simp only [Option.some.injEq, Prod.mk.injEq, List.dropWhile_eq_nil_iff] at read
          have whole := List.takeWhile_eq_self_iff.mpr read.2
          rw [whole] at read none
          obtain ⟨d, ds, rfl⟩ := List.exists_cons_of_ne_nil none
          rw [← read.1]
          refine .decimal (fun zero => octal (by rw [zero]; rfl)) ⟨none, ?_⟩
          intro c mem
          exact isDigitOf_ten.symm.trans (read.2 c mem)
  · intro literal
    cases literal with
    | @decimal d ds start digits =>
        have plain : hexPrefix (d :: ds) = false := by
          rw [not_hexPrefix_iff]
          intro x e rest same
          exact absurd (List.cons.inj same).1 start
        have based : baseOf 0 (d :: ds) = (10, d :: ds) := by
          simp [baseOf, plain, start]
        have read := scanDigits_ten_iff.mpr ⟨digits, rfl⟩
        unfold scanDigits at read ⊢
        rw [baseOf_ten] at read
        rw [based]
        exact read
    | @octal ds digits =>
        have plain : hexPrefix ('0' :: ds) = false := by
          rw [not_hexPrefix_iff]
          rintro x e rest same mark
          have mem : x ∈ ds := by
            rw [(List.cons.inj same).2]
            exact List.mem_cons_self ..
          have digit := digits x mem
          rcases mark with rfl | rfl
          · exact absurd digit (Bool.eq_false_iff.mp isDigitOf_x.1)
          · exact absurd digit (Bool.eq_false_iff.mp isDigitOf_x.2)
        have based : baseOf 0 ('0' :: ds) = (8, '0' :: ds) := by
          simp [baseOf, plain]
        have all : ∀ c ∈ '0' :: ds, isDigitOf 8 c = true := by
          intro c mem
          rcases List.mem_cons.mp mem with rfl | mem
          · decide
          · exact digits c mem
        obtain ⟨read, left⟩ := @takeWhile_digits 8 ('0' :: ds) [] all (fun _ mem => nomatch mem)
        rw [List.append_nil] at read left
        simp only [scanDigits, based, read, left]
        rw [if_neg fun empty => nomatch empty]
        rfl
    | hexadecimal mark some digits => exact scanDigits_hex (.inl rfl) mark some digits

theorem IntegerLiteral.tight (literal : IntegerLiteral s n) : loose s = false :=
  loose_of_scanDigits (scanDigits_zero_iff.mpr literal)

theorem IntegerLiteral.scan (literal : IntegerLiteral s n) :
    Cstr.scan 0 s = some ⟨false, n, []⟩ := by
  rw [scan_tight literal.tight, scanDigits_zero_iff.mpr literal]
  rfl

/-- Literals have no dash. -/
theorem IntegerLiteral.no_dash (literal : IntegerLiteral s n) : '-' ∉ s := by
  intro mem
  cases literal with
  | decimal start digits => exact absurd (digits.2 _ mem) (by decide)
  | octal digits =>
      rcases List.mem_cons.mp mem with zero | mem
      · cases zero
      · exact absurd (digits _ mem) (by decide)
  | hexadecimal mark some digits =>
      rcases List.mem_cons.mp mem with zero | mem
      · cases zero
      · rcases List.mem_cons.mp mem with x | mem
        · rcases mark with rfl | rfl <;> cases x
        · exact absurd (digits _ mem) (by decide)

/-- A text starts with a number, behind white space and a sign, that `strtoul` reads as `v` in
base 0. -/
def NumberAt (s : List Char) (v : Nat) : Prop :=
  ∃ n, scan 0 s = some n ∧ n.magnitude ≤ ulongMax ∧ ulongOf n.negative n.magnitude = v

/-- What is read without an error. -/
theorem strtoul_fine_iff {v : Nat} : (strtoul 0 s).erange = false ∧ (strtoul 0 s).value = v ↔
    scan 0 s = none ∧ v = 0 ∨ NumberAt s v := by
  unfold NumberAt strtoul
  cases scan 0 s with
  | none => simp [eq_comm]
  | some found => simp

/-- A literal is read as its value. -/
theorem IntegerLiteral.numberAt_iff {v : Nat} (literal : IntegerLiteral s n) :
    NumberAt s v ↔ n ≤ ulongMax ∧ v = n := by
  unfold NumberAt
  rw [literal.scan]
  constructor
  · rintro ⟨found, same, fits, value⟩
    cases same
    refine ⟨fits, ?_⟩
    rw [← value, ulongOf, if_neg (Nat.not_lt.mpr fits), if_neg Bool.false_ne_true]
  · rintro ⟨fits, rfl⟩
    refine ⟨_, rfl, fits, ?_⟩
    rw [ulongOf, if_neg (Nat.not_lt.mpr fits), if_neg Bool.false_ne_true]

end Literals

/-! ## Printed numbers -/

section Printed

variable {base n : Nat} {digits : List Char}

theorem foldl_digits (acc : Nat) (digits : List Char) :
    digits.foldl (fun acc c => acc * base + (digitValue c).getD 0) acc =
      acc * base ^ digits.length + digitsValue base digits := by
  unfold digitsValue
  induction digits generalizing acc with
  | nil => simp
  | cons c cs ih =>
      rw [List.foldl_cons, ih, List.foldl_cons, ih (0 * base + _), List.length_cons, Nat.pow_succ]
      ring

theorem digitsValue_append (a b : List Char) :
    digitsValue base (a ++ b) = digitsValue base a * base ^ b.length + digitsValue base b := by
  rw [digitsValue, List.foldl_append, foldl_digits]
  rfl

theorem digitsValue_le_append (pos : 0 < base) (a b : List Char) :
    digitsValue base a ≤ digitsValue base (a ++ b) := by
  rw [digitsValue_append]
  have grows := Nat.le_mul_of_pos_right (digitsValue base a) (Nat.pow_pos (n := b.length) pos)
  omega

/-- More digits do not change a number when it is 0. -/
theorem digitsValue_append_eq (many : 1 < base) {a b : List Char} (more : b ≠ [])
    (same : digitsValue base (a ++ b) = digitsValue base a) : digitsValue base (a ++ b) = 0 := by
  rw [digitsValue_append] at same ⊢
  have power : 2 ≤ base ^ b.length :=
    many.trans_le (Nat.le_self_pow (List.length_pos_iff.mpr more).ne' base)
  have grows := Nat.mul_le_mul_left (digitsValue base a) power
  have zero : digitsValue base a = 0 := by omega
  rw [zero] at same ⊢
  omega

theorem digitsValue_append_single (digits : List Char) (c : Char) :
    digitsValue base (digits ++ [c]) = digitsValue base digits * base + (digitValue c).getD 0 := by
  rw [digitsValue_append, List.length_singleton, Nat.pow_one]
  simp [digitsValue]

/-- Leading zeros do not count. -/
theorem digitsValue_zeroes (count : Nat) (digits : List Char) :
    digitsValue base (List.replicate count '0' ++ digits) = digitsValue base digits := by
  induction count with
  | zero => rfl
  | succ count ih =>
      rw [List.replicate_succ, List.cons_append, ← ih]
      simp [digitsValue, digitValue]

theorem digitValue_digitChar {d : Nat} (digit : d < 16) : digitValue d.digitChar = some d := by
  have all : ∀ e : Fin 16, digitValue (Nat.digitChar e) = some e.val := by decide
  exact all ⟨d, digit⟩

theorem isDigitOf_digitChar {d : Nat} (digit : d < base) (small : base ≤ 16) :
    isDigitOf base d.digitChar = true := by
  rw [isDigitOf, digitValue_digitChar (by omega), Option.any_some]
  exact decide_eq_true digit

/-- The digits of a number are digits of its base, and have its value. -/
theorem toDigits_spec (many : 1 < base) (small : base ≤ 16) (n : Nat) :
    (∀ c ∈ Nat.toDigits base n, isDigitOf base c = true) ∧
      digitsValue base (Nat.toDigits base n) = n := by
  induction n using Nat.strong_induction_on with
  | _ n ih =>
      rw [Nat.toDigits_eq_if many]
      split
      · rename_i digit
        refine ⟨?_, ?_⟩
        · intro c mem
          rw [List.mem_singleton.mp mem]
          exact isDigitOf_digitChar digit small
        · simp [digitsValue, digitValue_digitChar (show n < 16 by omega)]
      · rename_i large
        have less : n / base < n := Nat.div_lt_self (by omega) many
        have below : n % base < base := Nat.mod_lt _ (by omega)
        obtain ⟨digits, value⟩ := ih (n / base) less
        refine ⟨?_, ?_⟩
        · intro c mem
          rcases List.mem_append.mp mem with mem | mem
          · exact digits c mem
          · rw [List.mem_singleton.mp mem]
            exact isDigitOf_digitChar below small
        · rw [digitsValue_append_single, value, digitValue_digitChar (by omega), Option.getD_some]
          exact Nat.div_add_mod' n base

theorem decimal_toDigits (n : Nat) : Decimal (Nat.toDigits 10 n) :=
  ⟨Nat.toDigits_ne_nil, fun _ mem => Nat.isDigit_of_mem_toDigits (by decide) le_rfl mem⟩

/-- A printed decimal number is read back. -/
theorem strtoul_toDigits (fits : n ≤ ulongMax) :
    (strtoul 10 (Nat.toDigits 10 n)).endptr = [] ∧ (strtoul 10 (Nat.toDigits 10 n)).value = n := by
  obtain ⟨whole, value⟩ := strtoul_decimal (decimal_toDigits n)
  refine ⟨whole, ?_⟩
  rw [value, (toDigits_spec (by decide) (by decide) n).2]
  omega

end Printed

end Cstr

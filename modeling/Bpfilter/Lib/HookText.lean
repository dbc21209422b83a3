/-
# Lib.HookText -- hook options from their text

`bf_hookopts_parse_opt` cuts `name=value` at the first `=` and hands the value to the parser
of the option.  The parsers of numbers call `strtoul` without an end pointer: what stands
behind the number is not looked at, and a text without one is zero.

`optExact_iff` says for which texts this makes no difference.  A text that is refused leaves
the options as they were (`bfHookoptsParseOpt_refused`).
-/
import Bpfilter.Cstr.Number
import Bpfilter.Cstr.Token
import Bpfilter.Lib.Hook

namespace Bpfilter

set_option autoImplicit false

open Cstr

/-! ## Parsing -/

/-- The result of a parser, and the options it leaves. -/
abbrev OptResult := Except Errno Unit × BfHookopts

/-- `_bf_hookopts_ifindex_parse` -/
def bfHookoptsIfindexParse (hookopts : BfHookopts) (rawOpt : List Char) : OptResult :=
  let ifindex := strtoul 0 rawOpt
  if ifindex.erange then (.error .erange, hookopts)
  else if intMax < ifindex.value then (.error .e2big, hookopts)
  else (.ok (), { hookopts with ifindex := some (BitVec.ofNat 32 ifindex.value) })

/-- `_bf_hookopts_cgpath_parse` -/
def bfHookoptsCgpathParse (hookopts : BfHookopts) (rawOpt : List Char) : OptResult :=
  (.ok (), { hookopts with cgpath := some (String.ofList rawOpt) })

def pfInet : BitVec 32 := 2

def pfInet6 : BitVec 32 := 10

/-- `_bf_hookopts_family_parse` -/
def bfHookoptsFamilyParse (hookopts : BfHookopts) (rawOpt : List Char) : OptResult :=
  if rawOpt = "inet4".toList then (.ok (), { hookopts with family := some pfInet })
  else if rawOpt = "inet6".toList then (.ok (), { hookopts with family := some pfInet6 })
  else (.error .enotsup, hookopts)

/-- `_bf_hookopts_priorities_parse` -/
def bfHookoptsPrioritiesParse (hookopts : BfHookopts) (rawOpt : List Char) : OptResult :=
  match strchr '-' rawOpt with
  | none => (.error .einval, hookopts)
  | some (copy, right) =>
      let first := strtoul 0 copy
      let second := strtoul 0 right
      if right = [] then (.error .einval, hookopts)
      else if first.erange then (.error .einval, hookopts)
      else if second.erange then (.error .einval, hookopts)
      else if intMax < first.value ∨ intMax < second.value then (.error .einval, hookopts)
      else if first.value = second.value then (.error .einval, hookopts)
      else if first.value = 0 ∨ second.value = 0 then (.error .einval, hookopts)
      else
        (.ok (), { hookopts with
          priorities := some (BitVec.ofNat 32 first.value, BitVec.ofNat 32 second.value) })

/-- `_bf_hookopts_ops[type].name` -/
def bfHookoptsName : BfHookoptsType → String
  | .ifindex => "ifindex"
  | .cgpath => "cgpath"
  | .family => "family"
  | .priorities => "priorities"

/-- `_bf_hookopts_ops[type].parse` -/
def bfHookoptsParse : BfHookoptsType → BfHookopts → List Char → OptResult
  | .ifindex => bfHookoptsIfindexParse
  | .cgpath => bfHookoptsCgpathParse
  | .family => bfHookoptsFamilyParse
  | .priorities => bfHookoptsPrioritiesParse

/-- `_bf_hookopts_get_ops` -/
def bfHookoptsGetOps (key : List Char) : Option BfHookoptsType :=
  [BfHookoptsType.ifindex, .cgpath, .family, .priorities].find? fun type =>
    (bfHookoptsName type).toList = key

/-- `bf_hookopts_parse_opt` -/
def bfHookoptsParseOpt (hookopts : BfHookopts) (rawOpt : List Char) : OptResult :=
  match strchr '=' rawOpt with
  | none => (.error .enoent, hookopts)
  | some (key, value) =>
      match bfHookoptsGetOps key with
      | none => (.error .enotsup, hookopts)
      | some type => bfHookoptsParse type hookopts value

/-! ## What is promised -/

/-- An interface index. -/
def IfindexText (s : List Char) (n : Nat) : Prop := IntegerLiteral s n ∧ n ≤ intMax

/-- A priority. -/
def PriorityText (s : List Char) (n : Nat) : Prop := IntegerLiteral s n ∧ 1 ≤ n ∧ n ≤ intMax

/-- Two different priorities. -/
def PrioritiesText (s : List Char) (m n : Nat) : Prop :=
  ∃ s₁ s₂, s = s₁ ++ '-' :: s₂ ∧ PriorityText s₁ m ∧ PriorityText s₂ n ∧ m ≠ n

/-- The numeric options are accepted exactly when they are literals in range, whose values are
stored; a text that is refused changes nothing. -/
structure OptExact (hookopts : BfHookopts) (rawOpt : List Char) : Prop where
  ifindex : ∀ s, rawOpt = "ifindex=".toList ++ s → ∀ after,
    bfHookoptsParseOpt hookopts rawOpt = (.ok (), after) ↔
      ∃ n, IfindexText s n ∧ after = { hookopts with ifindex := some (BitVec.ofNat 32 n) }
  priorities : ∀ s, rawOpt = "priorities=".toList ++ s → ∀ after,
    bfHookoptsParseOpt hookopts rawOpt = (.ok (), after) ↔
      ∃ m n, PrioritiesText s m n ∧
        after = { hookopts with priorities := some (BitVec.ofNat 32 m, BitVec.ofNat 32 n) }
  refused : (bfHookoptsParseOpt hookopts rawOpt).1 ≠ .ok () →
    (bfHookoptsParseOpt hookopts rawOpt).2 = hookopts

/-! ## Refused texts -/

theorem bfHookoptsParse_refused {type : BfHookoptsType} {hookopts : BfHookopts} {s : List Char}
    (refused : (bfHookoptsParse type hookopts s).1 ≠ .ok ()) :
    (bfHookoptsParse type hookopts s).2 = hookopts := by
  cases type with
  | ifindex =>
      simp only [bfHookoptsParse, bfHookoptsIfindexParse] at refused ⊢
      split_ifs at refused ⊢ <;> first
        | rfl
        | exact absurd rfl refused
  | cgpath => exact absurd rfl refused
  | family =>
      simp only [bfHookoptsParse, bfHookoptsFamilyParse] at refused ⊢
      split_ifs at refused ⊢ <;> first
        | rfl
        | exact absurd rfl refused
  | priorities =>
      simp only [bfHookoptsParse, bfHookoptsPrioritiesParse] at refused ⊢
      split at refused
      · rfl
      · split_ifs at refused ⊢ <;> first
          | rfl
          | exact absurd rfl refused

/-- **A text that is refused changes nothing.** -/
theorem bfHookoptsParseOpt_refused {hookopts : BfHookopts} {rawOpt : List Char}
    (refused : (bfHookoptsParseOpt hookopts rawOpt).1 ≠ .ok ()) :
    (bfHookoptsParseOpt hookopts rawOpt).2 = hookopts := by
  unfold bfHookoptsParseOpt at refused ⊢
  split at refused
  · rfl
  · split at refused
    · rfl
    · exact bfHookoptsParse_refused refused

/-! ## Accepted texts -/

section Accepted

variable {hookopts after : BfHookopts} {s : List Char}

theorem bfHookoptsParseOpt_ifindex :
    bfHookoptsParseOpt hookopts ("ifindex=".toList ++ s) = bfHookoptsIfindexParse hookopts s := by
  have cut : strchr '=' ("ifindex=".toList ++ s) = some ("ifindex".toList, s) :=
    strchr_append (show '=' ∉ "ifindex".toList by decide)
  rw [bfHookoptsParseOpt, cut]
  rfl

theorem bfHookoptsParseOpt_priorities :
    bfHookoptsParseOpt hookopts ("priorities=".toList ++ s) =
      bfHookoptsPrioritiesParse hookopts s := by
  have cut : strchr '=' ("priorities=".toList ++ s) = some ("priorities".toList, s) :=
    strchr_append (show '=' ∉ "priorities".toList by decide)
  rw [bfHookoptsParseOpt, cut]
  rfl

/-- An index is accepted when no number is at the start of its text, or one in range is. -/
theorem bfHookoptsIfindexParse_ok_iff :
    bfHookoptsIfindexParse hookopts s = (.ok (), after) ↔
      ∃ v, (scan 0 s = none ∧ v = 0 ∨ NumberAt s v) ∧ v ≤ intMax ∧
        after = { hookopts with ifindex := some (BitVec.ofNat 32 v) } := by
  simp only [← strtoul_fine_iff, bfHookoptsIfindexParse]
  constructor
  · intro accepted
    split_ifs at accepted with range big
    · cases accepted
    · cases accepted
    · cases accepted
      exact ⟨_, ⟨Bool.eq_false_iff.mpr range, rfl⟩, Nat.le_of_not_lt big, rfl⟩
  · rintro ⟨v, ⟨range, rfl⟩, fits, rfl⟩
    rw [range, if_neg Bool.false_ne_true, if_neg (Nat.not_lt.mpr fits)]

/-- Two priorities are accepted when a number in range is at the start of both texts. -/
theorem bfHookoptsPrioritiesParse_ok_iff :
    bfHookoptsPrioritiesParse hookopts s = (.ok (), after) ↔
      ∃ s₁ s₂ m n, (s = s₁ ++ '-' :: s₂ ∧ '-' ∉ s₁) ∧ (NumberAt s₁ m ∧ 1 ≤ m ∧ m ≤ intMax) ∧
        (NumberAt s₂ n ∧ 1 ≤ n ∧ n ≤ intMax) ∧ m ≠ n ∧
        after = { hookopts with priorities := some (BitVec.ofNat 32 m, BitVec.ofNat 32 n) } := by
  have read : ∀ {s : List Char}, (strtoul 0 s).erange = false → (strtoul 0 s).value ≠ 0 →
      NumberAt s (strtoul 0 s).value := by
    intro s range some
    rcases strtoul_fine_iff.mp ⟨range, rfl⟩ with ⟨-, zero⟩ | number
    · exact absurd zero some
    · exact number
  constructor
  · intro accepted
    unfold bfHookoptsPrioritiesParse at accepted
    split at accepted
    · cases accepted
    · rename_i copy right found
      simp only at accepted
      split_ifs at accepted with empty range range' big same zero
      all_goals cases accepted
      rw [not_or] at big zero
      refine ⟨copy, right, _, _, strchr_some found, ⟨read (Bool.eq_false_iff.mpr range) zero.1, ?_⟩,
        ⟨read (Bool.eq_false_iff.mpr range') zero.2, ?_⟩, same, rfl⟩
      · exact ⟨Nat.pos_of_ne_zero zero.1, Nat.le_of_not_lt big.1⟩
      · exact ⟨Nat.pos_of_ne_zero zero.2, Nat.le_of_not_lt big.2⟩
  · rintro ⟨s₁, s₂, m, n, ⟨rfl, plain⟩, ⟨first, pos, fits⟩, ⟨second, pos', fits'⟩, other, rfl⟩
    obtain ⟨range, rfl⟩ := strtoul_fine_iff.mpr (.inr first)
    obtain ⟨range', rfl⟩ := strtoul_fine_iff.mpr (.inr second)
    have some : s₂ ≠ [] := by
      rintro rfl
      exact absurd pos' (by decide)
    simp only [bfHookoptsPrioritiesParse, strchr_append plain, range, range', if_neg some,
      Bool.false_eq_true, if_false]
    rw [if_neg (by omega), if_neg other, if_neg (by omega)]

end Accepted

/-! ## Exactness -/

/-- An index text is a literal, or starts with a number that is too large. -/
def IfindexPlain (s : List Char) : Prop :=
  (∃ n, IntegerLiteral s n) ∨ scan 0 s ≠ none ∧ ∀ v, NumberAt s v → intMax < v

/-- What stands before the first dash and behind it are literals, unless both start with a number
in range and the two numbers differ. -/
def PrioritiesPlain (s : List Char) : Prop :=
  ∀ s₁ s₂, s = s₁ ++ '-' :: s₂ → '-' ∉ s₁ →
    (∃ m, IntegerLiteral s₁ m) ∧ (∃ n, IntegerLiteral s₂ n) ∨
      ¬ ∃ m n, (NumberAt s₁ m ∧ 1 ≤ m ∧ m ≤ intMax) ∧ (NumberAt s₂ n ∧ 1 ≤ n ∧ n ≤ intMax) ∧ m ≠ n

section Exact

variable {hookopts : BfHookopts} {s : List Char} {n : Nat}

theorem intMax_le_ulongMax : intMax ≤ ulongMax := by decide

/-- Where literals in range are the texts that are accepted, the same options come out. -/
theorem ifindex_exact_iff :
    (∀ after, bfHookoptsIfindexParse hookopts s = (.ok (), after) ↔
      ∃ n, IfindexText s n ∧ after = { hookopts with ifindex := some (BitVec.ofNat 32 n) }) ↔
      IfindexPlain s := by
  by_cases literal : ∃ n, IntegerLiteral s n
  · refine iff_of_true ?_ (.inl literal)
    obtain ⟨n, literal⟩ := literal
    intro after
    rw [bfHookoptsIfindexParse_ok_iff]
    constructor
    · rintro ⟨v, none | number, fits, rfl⟩
      · rw [literal.scan] at none
        cases none.1
      · obtain ⟨-, rfl⟩ := literal.numberAt_iff.mp number
        exact ⟨v, ⟨literal, fits⟩, rfl⟩
    · rintro ⟨n', ⟨literal', fits⟩, rfl⟩
      have number := literal'.numberAt_iff.mpr
        ⟨fits.trans intMax_le_ulongMax, rfl⟩
      exact ⟨n', .inr number, fits, rfl⟩
  · -- No literal: nothing must be accepted.
    have refuses : (∀ after, bfHookoptsIfindexParse hookopts s = (.ok (), after) ↔
        ∃ n, IfindexText s n ∧ after = { hookopts with ifindex := some (BitVec.ofNat 32 n) }) ↔
        ∀ v, (scan 0 s = none ∧ v = 0 ∨ NumberAt s v) → intMax < v := by
      constructor
      · intro exact v read
        apply Nat.lt_of_not_le
        intro fits
        obtain ⟨n, text, -⟩ :=
          (exact _).mp (bfHookoptsIfindexParse_ok_iff.mpr ⟨v, read, fits, rfl⟩)
        exact literal ⟨n, text.1⟩
      · intro large after
        rw [bfHookoptsIfindexParse_ok_iff]
        refine iff_of_false ?_ fun ⟨n, text, _⟩ => literal ⟨n, text.1⟩
        rintro ⟨v, read, fits, -⟩
        exact absurd fits (Nat.not_le.mpr (large v read))
    rw [refuses, IfindexPlain]
    constructor
    · intro large
      refine .inr ⟨fun none => ?_, fun v number => large v (.inr number)⟩
      exact absurd (large 0 (.inl ⟨none, rfl⟩)) (Nat.not_lt_zero _)
    · rintro (yes | ⟨some, large⟩) v (⟨none, -⟩ | number)
      · exact absurd yes literal
      · exact absurd yes literal
      · exact absurd none some
      · exact large v number

/-- A literal in range is a number in range. -/
theorem priorityText_iff (literal : ∃ n, IntegerLiteral s n) :
    PriorityText s n ↔ NumberAt s n ∧ 1 ≤ n ∧ n ≤ intMax := by
  obtain ⟨v, literal⟩ := literal
  constructor
  · rintro ⟨text, pos, fits⟩
    exact ⟨text.numberAt_iff.mpr ⟨fits.trans intMax_le_ulongMax, rfl⟩, pos, fits⟩
  · rintro ⟨number, pos, fits⟩
    obtain ⟨-, rfl⟩ := literal.numberAt_iff.mp number
    exact ⟨literal, pos, fits⟩

/-- A text is cut at its first dash in one way. -/
theorem cut_unique {a b a' b' : List Char} (plain : '-' ∉ a) (plain' : '-' ∉ a')
    (same : a ++ '-' :: b = a' ++ '-' :: b') : a = a' ∧ b = b' := by
  have found := @strchr_append _ a b '-' _ plain
  rw [same, strchr_append plain'] at found
  cases found
  exact ⟨rfl, rfl⟩

theorem priorities_exact_iff :
    (∀ after, bfHookoptsPrioritiesParse hookopts s = (.ok (), after) ↔
      ∃ m n, PrioritiesText s m n ∧ after =
        { hookopts with priorities := some (BitVec.ofNat 32 m, BitVec.ofNat 32 n) }) ↔
      PrioritiesPlain s := by
  constructor
  · rintro exact s₁ s₂ rfl plain
    by_cases read : ∃ m n, (NumberAt s₁ m ∧ 1 ≤ m ∧ m ≤ intMax) ∧
        (NumberAt s₂ n ∧ 1 ≤ n ∧ n ≤ intMax) ∧ m ≠ n
    · obtain ⟨m, n, first, second, other⟩ := read
      obtain ⟨m', n', ⟨t₁, t₂, cut, first', second', -⟩, -⟩ := (exact _).mp
        (bfHookoptsPrioritiesParse_ok_iff.mpr
          ⟨s₁, s₂, m, n, ⟨rfl, plain⟩, first, second, other, rfl⟩)
      obtain ⟨rfl, rfl⟩ := cut_unique plain first'.1.no_dash cut
      exact .inl ⟨⟨m', first'.1⟩, n', second'.1⟩
    · exact .inr read
  · intro fine after
    rw [bfHookoptsPrioritiesParse_ok_iff]
    constructor
    · rintro ⟨s₁, s₂, m, n, ⟨cut, plain⟩, first, second, other, rfl⟩
      rcases fine s₁ s₂ cut plain with ⟨literal, literal'⟩ | none
      · exact ⟨m, n, ⟨s₁, s₂, cut, (priorityText_iff literal).mpr first,
          (priorityText_iff literal').mpr second, other⟩, rfl⟩
      · exact absurd ⟨m, n, first, second, other⟩ none
    · rintro ⟨m, n, ⟨s₁, s₂, cut, first, second, other⟩, rfl⟩
      exact ⟨s₁, s₂, m, n, ⟨cut, first.1.no_dash⟩, (priorityText_iff ⟨m, first.1⟩).mp first,
        (priorityText_iff ⟨n, second.1⟩).mp second, other, rfl⟩

end Exact

/-- **Numeric options.**  They are parsed exactly when the index is a literal or starts with a
number that is too large, and the priorities are literals unless they are refused anyway. -/
theorem optExact_iff (hookopts : BfHookopts) (rawOpt : List Char) :
    OptExact hookopts rawOpt ↔
      (∀ s, rawOpt = "ifindex=".toList ++ s → IfindexPlain s) ∧
        ∀ s, rawOpt = "priorities=".toList ++ s → PrioritiesPlain s := by
  constructor
  · intro exact
    refine ⟨?_, ?_⟩
    · rintro s rfl
      have parsed := exact.ifindex s rfl
      rw [bfHookoptsParseOpt_ifindex] at parsed
      exact ifindex_exact_iff.mp parsed
    · rintro s rfl
      have parsed := exact.priorities s rfl
      rw [bfHookoptsParseOpt_priorities] at parsed
      exact priorities_exact_iff.mp parsed
  · rintro ⟨ifindex, priorities⟩
    refine ⟨?_, ?_, bfHookoptsParseOpt_refused⟩
    · rintro s rfl
      rw [bfHookoptsParseOpt_ifindex]
      exact ifindex_exact_iff.mpr (ifindex s rfl)
    · rintro s rfl
      rw [bfHookoptsParseOpt_priorities]
      exact priorities_exact_iff.mpr (priorities s rfl)

/-- The name of an interface is taken for index 0, and a third number is dropped. -/
theorem ifindex_eth0_not_exact :
    ¬ OptExact {} "ifindex=eth0".toList ∧ ¬ OptExact {} "priorities=10-20-30".toList := by
  refine ⟨fun exact => ?_, fun exact => ?_⟩
  · obtain ⟨n, ⟨literal, -⟩, -⟩ := (exact.ifindex "eth0".toList rfl
      { ifindex := some 0 }).mp (by decide +kernel)
    have read := scanDigits_zero_iff.mpr literal
    have none : scanDigits 0 "eth0".toList = none := by decide
    rw [none] at read
    cases read
  · obtain ⟨m, n, ⟨s₁, s₂, cut, first, second, -⟩, -⟩ := (exact.priorities "10-20-30".toList rfl
      { priorities := some (10, 20) }).mp (by decide +kernel)
    have plain : '-' ∉ "10".toList := by decide
    have whole : "10".toList ++ '-' :: "20-30".toList = s₁ ++ '-' :: s₂ := cut
    obtain ⟨-, rfl⟩ := cut_unique plain first.1.no_dash whole
    exact absurd second.1.no_dash (by decide)

end Bpfilter

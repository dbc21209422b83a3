/-
# Cstr.Token -- cutting strings into tokens

`strtok_r` keeps a pointer into the string: a call skips separators, takes what
stands before the next one, and steps over that one.  `strtok` is one call, and
`tokens` is what a loop of calls sees: the pieces between separators that are not
empty (`tokens_eq`).  `tokens_append_sep` cuts at a separator; a string printed piece by
piece is read back with it.  `strchr` cuts a string in two.

Nothing depends on the alphabet.
-/
import Mathlib.Data.List.Forall2
import Mathlib.Data.List.TakeWhile

namespace Cstr

set_option autoImplicit false

variable {α : Type}

/-- A call of `strtok_r`: the token, and where the next call goes on. -/
def strtok (sep : α → Bool) (s : List α) : Option (List α × List α) :=
  match s.dropWhile sep with
  | [] => none
  | c :: cs =>
      some ((c :: cs).takeWhile fun d => !sep d, ((c :: cs).dropWhile fun d => !sep d).drop 1)

/-- `strchr`: what stands before the first `d`, and behind it. -/
def strchr [DecidableEq α] (d : α) (s : List α) : Option (List α × List α) :=
  match s.dropWhile (· ≠ d) with
  | [] => none
  | _ :: rest => some (s.takeWhile (· ≠ d), rest)

/-- The pieces between separators, without empty ones. -/
def tokens [DecidableEq α] (sep : α → Bool) (s : List α) : List (List α) :=
  (s.splitOnP sep).filter (· ≠ [])

variable {sep : α → Bool} {s t rest : List α} {d : α}

/-- Members of lists that are related side by side. -/
theorem exists_of_forall₂ {α β : Type} {R : α → β → Prop} {xs : List α} {ys : List β}
    (all : List.Forall₂ R xs ys) {y : β} (mem : y ∈ ys) : ∃ x ∈ xs, R x y := by
  induction all with
  | nil => cases mem
  | cons first _ ih =>
      rcases List.mem_cons.mp mem with rfl | mem
      · exact ⟨_, List.mem_cons_self .., first⟩
      · obtain ⟨x, inside, related⟩ := ih mem
        exact ⟨x, List.mem_cons_of_mem _ inside, related⟩

/-! ## One call -/

/-- The end of the string: nothing but separators is left. -/
theorem strtok_none_iff : strtok sep s = none ↔ ∀ c ∈ s, sep c = true := by
  rw [← List.dropWhile_eq_nil_iff, strtok]
  split <;> simp_all

/-- A call cuts the string into separators, the token, and the rest. -/
theorem strtok_some (found : strtok sep s = some (t, rest)) :
    t ≠ [] ∧ (∀ c ∈ t, sep c = false) ∧
      (s = s.takeWhile sep ++ t ∧ rest = [] ∨
        ∃ d, sep d = true ∧ s = s.takeWhile sep ++ (t ++ d :: rest)) := by
  unfold strtok at found
  have whole : s.takeWhile sep ++ s.dropWhile sep = s := List.takeWhile_append_dropWhile
  split at found
  · cases found
  · rename_i c cs start
    have plain : sep c = false := by
      have stop := List.head?_dropWhile_not sep s
      rw [start, List.head?_cons] at stop
      simpa using stop
    rw [start] at whole
    simp only [Option.some.injEq, Prod.mk.injEq] at found
    obtain ⟨taken, left⟩ := found
    have cut : t ++ (c :: cs).dropWhile (fun d => !sep d) = c :: cs := by
      rw [← taken, List.takeWhile_append_dropWhile]
    refine ⟨?_, ?_, ?_⟩
    · rw [← taken, List.takeWhile_cons_of_pos (by simp [plain])]
      exact List.cons_ne_nil _ _
    · intro e mem
      rw [← taken] at mem
      simpa using List.mem_takeWhile_imp mem
    · cases after : (c :: cs).dropWhile (fun d => !sep d) with
      | nil =>
          rw [after, List.append_nil] at cut
          rw [after] at left
          exact .inl ⟨by rw [cut, whole], left.symm⟩
      | cons e vs =>
          have stop := List.head?_dropWhile_not (fun d => !sep d) (c :: cs)
          rw [after, List.head?_cons] at stop
          rw [after] at cut left
          refine .inr ⟨e, by simpa using stop, ?_⟩
          rw [← left, List.drop_succ_cons, List.drop_zero, cut, whole]

/-- What is left is shorter. -/
theorem strtok_length (found : strtok sep s = some (t, rest)) : rest.length < s.length := by
  obtain ⟨some, -, (⟨whole, rfl⟩ | ⟨d, -, whole⟩)⟩ := strtok_some found
  · have pos := List.length_pos_iff.mpr some
    have total := congrArg List.length whole
    rw [List.length_append] at total
    rw [List.length_nil]
    omega
  · have total := congrArg List.length whole
    simp only [List.length_append, List.length_cons] at total
    omega

/-- A string that starts with a token and a separator. -/
theorem strtok_append_cons (some : t ≠ []) (plain : ∀ c ∈ t, sep c = false) (cut : sep d = true) :
    strtok sep (t ++ d :: rest) = .some (t, rest) := by
  obtain ⟨c, cs, rfl⟩ := List.exists_cons_of_ne_nil some
  have all : ∀ e ∈ c :: cs, (!sep e) = true := fun e mem => by rw [plain e mem]; rfl
  have start : (c :: cs ++ d :: rest).dropWhile sep = c :: (cs ++ d :: rest) := by
    rw [List.cons_append, List.dropWhile_cons_of_neg]
    rw [plain c (List.mem_cons_self ..)]
    exact Bool.false_ne_true
  have taken : (c :: cs ++ d :: rest).takeWhile (fun e => !sep e) = c :: cs := by
    rw [List.takeWhile_append_of_pos all, List.takeWhile_cons_of_neg (by simp [cut]),
      List.append_nil]
  have left : (c :: cs ++ d :: rest).dropWhile (fun e => !sep e) = d :: rest := by
    rw [List.dropWhile_append_of_pos all, List.dropWhile_cons_of_neg (by simp [cut])]
  rw [strtok, start]
  show Option.some ((c :: cs ++ d :: rest).takeWhile _, _) = _
  rw [taken]
  show Option.some (_, ((c :: cs ++ d :: rest).dropWhile _).drop 1) = _
  rw [left]
  rfl

/-- A string that is one token. -/
theorem strtok_whole (some : t ≠ []) (plain : ∀ c ∈ t, sep c = false) :
    strtok sep t = .some (t, []) := by
  obtain ⟨c, cs, rfl⟩ := List.exists_cons_of_ne_nil some
  have all : ∀ e ∈ c :: cs, (!sep e) = true := fun e mem => by rw [plain e mem]; rfl
  have start : (c :: cs).dropWhile sep = c :: cs := by
    rw [List.dropWhile_cons_of_neg]
    rw [plain c (List.mem_cons_self ..)]
    exact Bool.false_ne_true
  rw [strtok, start]
  show Option.some (_, _) = _
  rw [List.takeWhile_eq_self_iff.mpr all, List.dropWhile_eq_nil_iff.mpr all]
  rfl

/-- A call on a string that does not start with a separator. -/
theorem strtok_of_head (some : s ≠ []) (start : ∀ c ∈ s.head?, sep c = false) :
    strtok sep s = .some (s.takeWhile fun d => !sep d, (s.dropWhile fun d => !sep d).drop 1) := by
  obtain ⟨c, cs, rfl⟩ := List.exists_cons_of_ne_nil some
  have same : (c :: cs).dropWhile sep = c :: cs := by
    rw [List.dropWhile_cons_of_neg]
    rw [start c rfl]
    exact Bool.false_ne_true
  rw [strtok, same]

/-! ## Cutting in two -/

section Strchr

variable [DecidableEq α]

theorem strchr_append (plain : d ∉ s) : strchr d (s ++ d :: rest) = some (s, rest) := by
  have all : ∀ c ∈ s, decide (c ≠ d) = true := by
    intro c mem
    rw [decide_eq_true_iff]
    rintro rfl
    exact plain mem
  have left : (s ++ d :: rest).dropWhile (· ≠ d) = d :: rest := by
    rw [List.dropWhile_append_of_pos all, List.dropWhile_cons_of_neg (by simp)]
  have taken : (s ++ d :: rest).takeWhile (· ≠ d) = s := by
    rw [List.takeWhile_append_of_pos all, List.takeWhile_cons_of_neg (by simp), List.append_nil]
  rw [strchr, left, taken]

theorem strchr_some (found : strchr d s = some (t, rest)) : s = t ++ d :: rest ∧ d ∉ t := by
  unfold strchr at found
  split at found
  · cases found
  · rename_i c cs left
    cases found
    have stop := List.head?_dropWhile_not (fun c => decide (c ≠ d)) s
    rw [left, List.head?_cons] at stop
    obtain rfl : c = d := by simpa using stop
    refine ⟨?_, ?_⟩
    · rw [← left, List.takeWhile_append_dropWhile]
    · intro mem
      have other := List.mem_takeWhile_imp mem
      simp at other

end Strchr

/-! ## All the calls -/

section Tokens

variable [DecidableEq α]

@[simp] theorem tokens_nil : tokens sep ([] : List α) = [] := by simp [tokens]

/-- Cutting at a separator. -/
theorem tokens_append_sep (cut : sep d = true) :
    tokens sep (s ++ d :: rest) = tokens sep s ++ tokens sep rest := by
  rw [tokens, List.splitOnP_append_cons s rest cut, List.filter_append, tokens, tokens]

theorem tokens_cons_sep (cut : sep d = true) : tokens sep (d :: rest) = tokens sep rest := by
  have cut' := @tokens_append_sep α sep [] rest d _ cut
  rwa [tokens_nil, List.nil_append, List.nil_append] at cut'

theorem tokens_seps_append (seps : ∀ c ∈ s, sep c = true) :
    tokens sep (s ++ rest) = tokens sep rest := by
  induction s with
  | nil => rfl
  | cons c cs ih =>
      rw [List.cons_append, tokens_cons_sep (seps c (List.mem_cons_self ..))]
      exact ih fun e mem => seps e (List.mem_cons_of_mem _ mem)

theorem tokens_seps (seps : ∀ c ∈ s, sep c = true) : tokens sep s = [] := by
  have none := @tokens_seps_append α sep s [] _ seps
  rwa [List.append_nil, tokens_nil] at none

/-- A string without separators is a token. -/
theorem tokens_whole (some : s ≠ []) (plain : ∀ c ∈ s, sep c = false) : tokens sep s = [s] := by
  rw [tokens, List.splitOnP_eq_singleton plain]
  simp [some]

/-- A token, a separator, and more. -/
theorem tokens_cons (some : t ≠ []) (plain : ∀ c ∈ t, sep c = false) (cut : sep d = true) :
    tokens sep (t ++ d :: rest) = t :: tokens sep rest := by
  rw [tokens_append_sep cut, tokens_whole some plain]
  rfl

/-- **A loop of calls sees the tokens.** -/
theorem tokens_eq (s : List α) :
    tokens sep s =
      match strtok sep s with
      | none => []
      | some (t, rest) => t :: tokens sep rest := by
  cases found : strtok sep s with
  | none => exact tokens_seps (strtok_none_iff.mp found)
  | some pair =>
      obtain ⟨t, rest⟩ := pair
      have skipped : ∀ c ∈ s.takeWhile sep, sep c = true := fun c => List.mem_takeWhile_imp
      obtain ⟨some, plain, (⟨whole, rfl⟩ | ⟨d, cut, whole⟩)⟩ := strtok_some found
      · rw [whole, tokens_seps_append skipped, tokens_whole some plain]
        rfl
      · rw [whole, tokens_seps_append skipped, tokens_cons some plain cut]

/-- Pieces, each ended by a separator. -/
theorem tokens_flatMap {β : Type} (xs : List β) (piece : β → List α)
    (cut : sep d = true) (some : ∀ x ∈ xs, piece x ≠ [])
    (plain : ∀ x ∈ xs, ∀ c ∈ piece x, sep c = false) :
    tokens sep (xs.flatMap (fun x => piece x ++ [d]) ++ rest) = xs.map piece ++ tokens sep rest := by
  induction xs with
  | nil => rfl
  | cons x xs ih =>
      rw [List.flatMap_cons, List.append_assoc, List.append_assoc, List.singleton_append,
        tokens_cons (some x (List.mem_cons_self ..)) (plain x (List.mem_cons_self ..)) cut,
        ih (fun y mem => some y (List.mem_cons_of_mem _ mem))
          (fun y mem => plain y (List.mem_cons_of_mem _ mem))]
      rfl

/-- Strings with separators between them have the tokens of each. -/
theorem tokens_flatMap_intercalate (cut : sep d = true) (xs : List (List α)) :
    tokens sep ([d].intercalate xs) = xs.flatMap (tokens sep) := by
  induction xs with
  | nil => exact tokens_nil
  | cons x xs ih =>
      cases xs with
      | nil => rw [List.intercalate_singleton, List.flatMap_singleton]
      | cons y ys =>
          rw [List.intercalate_cons_cons, List.append_assoc, List.singleton_append,
            tokens_append_sep cut, ih]
          rfl

/-- Pieces with separators between them. -/
theorem tokens_intercalate {xs : List (List α)} (cut : sep d = true) (some : ∀ x ∈ xs, x ≠ [])
    (plain : ∀ x ∈ xs, ∀ c ∈ x, sep c = false) : tokens sep ([d].intercalate xs) = xs := by
  rw [tokens_flatMap_intercalate cut]
  induction xs with
  | nil => rfl
  | cons x xs ih =>
      rw [List.flatMap_cons, tokens_whole (some x (List.mem_cons_self ..))
          (plain x (List.mem_cons_self ..)),
        ih (fun y mem => some y (List.mem_cons_of_mem _ mem))
          (fun y mem => plain y (List.mem_cons_of_mem _ mem))]
      rfl

end Tokens

end Cstr

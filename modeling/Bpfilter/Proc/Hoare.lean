/-
# Proc.Hoare -- procedures, what they guarantee, and runs

A procedure changes a state and returns a value, or ends the process with a cause.
`Triple P m Q` says that `m`, started where `P` holds, returns where `Q` holds; the
rules follow the constructs of the `do` notation.  An error code is a returned
value, not a cause, so a failed call still has a state after it.

A `Run` is a sequence of steps, each allowed by a condition on the state before it.
`Run.invariant` is the induction every safety property goes through: what holds at
the start and is kept by each allowed step holds everywhere.
-/
import Mathlib.Data.List.Basic

namespace Hoare

set_option autoImplicit false

variable {σ ε α β ι : Type}

/-- A procedure over the state `σ`, which may end the process with `ε`. -/
abbrev Proc (σ ε α : Type) := StateT σ (Except ε) α

/-! ## Execution -/

theorem pure_run (a : α) (s : σ) : (pure a : Proc σ ε α) s = .ok (a, s) := rfl

theorem get_run (s : σ) : (get : Proc σ ε σ) s = .ok (s, s) := rfl

theorem modify_run (f : σ → σ) (s : σ) : (modify f : Proc σ ε Unit) s = .ok ((), f s) := rfl

theorem bind_run {m : Proc σ ε α} {f : α → Proc σ ε β} {s s' : σ} {a : α} (ran : m s = .ok (a, s')) :
    (m >>= f) s = f a s' := by
  simp only [bind, StateT.bind, Except.bind, ran]

theorem bind_error {m : Proc σ ε α} {f : α → Proc σ ε β} {s : σ} {e : ε} (failed : m s = .error e) :
    (m >>= f) s = .error e := by
  simp only [bind, StateT.bind, Except.bind, failed]

/-- A sequence returns when both parts do. -/
theorem bind_inv {m : Proc σ ε α} {f : α → Proc σ ε β} {s s' : σ} {b : β}
    (ran : (m >>= f) s = .ok (b, s')) : ∃ a t, m s = .ok (a, t) ∧ f a t = .ok (b, s') := by
  cases first : m s with
  | error e =>
      rw [bind_error first] at ran
      cases ran
  | ok result =>
      rw [bind_run first] at ran
      exact ⟨result.1, result.2, rfl, ran⟩

/-- A procedure returns, and its result passes a test: what evaluating a concrete run shows. -/
def Passes (m : Proc σ ε α) (s : σ) (test : α → σ → Bool) : Bool :=
  match m s with
  | .ok (a, s') => test a s'
  | .error _ => false

theorem passes_inv {m : Proc σ ε α} {s : σ} {test : α → σ → Bool}
    (passes : Passes m s test = true) : ∃ a s', m s = .ok (a, s') ∧ test a s' = true := by
  unfold Passes at passes
  cases ran : m s with
  | error e =>
      rw [ran] at passes
      cases passes
  | ok result =>
      rw [ran] at passes
      exact ⟨result.1, result.2, rfl, passes⟩

/-! ## Triples -/

/-- `m`, started in a state of `P`, returns in a state of `Q`, if it returns. -/
def Triple (P : σ → Prop) (m : Proc σ ε α) (Q : α → σ → Prop) : Prop :=
  ∀ s a s', P s → m s = .ok (a, s') → Q a s'

/-- `m` keeps `I`. -/
def Keeps (I : σ → Prop) (m : Proc σ ε α) : Prop := Triple I m fun _ => I

theorem Triple.pure {P : σ → Prop} {Q : α → σ → Prop} {a : α} (post : ∀ s, P s → Q a s) :
    Triple P (pure a : Proc σ ε α) Q := by
  intro s b s' pre ran
  cases ran
  exact post s pre

theorem Triple.throw {P : σ → Prop} {Q : α → σ → Prop} (e : ε) :
    Triple P (throw e : Proc σ ε α) Q := by
  intro s a s' _ ran
  cases ran

theorem Triple.bind {P : σ → Prop} {R : α → σ → Prop} {Q : β → σ → Prop} {m : Proc σ ε α}
    {f : α → Proc σ ε β} (first : Triple P m R) (rest : ∀ a, Triple (R a) (f a) Q) :
    Triple P (m >>= f) Q := by
  intro s b s' pre ran
  obtain ⟨a, t, ran, ran'⟩ := bind_inv ran
  exact rest a t b s' (first s a t pre ran) ran'

theorem Triple.modify {P : σ → Prop} {Q : Unit → σ → Prop} {f : σ → σ}
    (post : ∀ s, P s → Q () (f s)) : Triple P (modify f : Proc σ ε Unit) Q := by
  intro s a s' pre ran
  cases ran
  exact post s pre

theorem Triple.ite {P : σ → Prop} {Q : α → σ → Prop} {c : Prop} [Decidable c] {m n : Proc σ ε α}
    (yes : c → Triple P m Q) (no : ¬ c → Triple P n Q) : Triple P (if c then m else n) Q := by
  by_cases holds : c
  · rw [if_pos holds]
    exact yes holds
  · rw [if_neg holds]
    exact no holds

/-- A fact that does not depend on the state. -/
theorem Triple.assume {P : σ → Prop} {Q : α → σ → Prop} {fact : Prop} {m : Proc σ ε α}
    (triple : fact → Triple P m Q) : Triple (fun s => P s ∧ fact) m Q :=
  fun s a s' pre ran => triple pre.2 s a s' pre.1 ran

theorem Triple.weaken {P P' : σ → Prop} {Q Q' : α → σ → Prop} {m : Proc σ ε α}
    (triple : Triple P m Q) (pre : ∀ s, P' s → P s) (post : ∀ a s, Q a s → Q' a s) :
    Triple P' m Q' :=
  fun s a s' holds ran => post a s' (triple s a s' (pre s holds) ran)

/-! ## Deaths -/

/-- Every cause `m` can end the process with satisfies `E`. -/
def Dies (E : ε → Prop) (m : Proc σ ε α) : Prop := ∀ s e, m s = .error e → E e

section Dies

variable {E : ε → Prop}

/-- A procedure that always returns. -/
theorem Dies.of_returns {m : Proc σ ε α} (returns : ∀ s, ∃ result, m s = .ok result) :
    Dies E m := by
  intro s e died
  obtain ⟨result, ran⟩ := returns s
  rw [ran] at died
  cases died

theorem Dies.pure (a : α) : Dies E (pure a : Proc σ ε α) := Dies.of_returns fun _ => ⟨_, rfl⟩

theorem Dies.get : Dies E (get : Proc σ ε σ) := Dies.of_returns fun _ => ⟨_, rfl⟩

theorem Dies.modify (f : σ → σ) : Dies E (modify f : Proc σ ε Unit) :=
  Dies.of_returns fun _ => ⟨_, rfl⟩

theorem Dies.throw {e : ε} (cause : E e) : Dies E (throw e : Proc σ ε α) := by
  intro s e' died
  cases died
  exact cause

/-- The second part of a sequence starts from a value the first returned. -/
theorem Dies.bind {m : Proc σ ε α} {f : α → Proc σ ε β} (first : Dies E m)
    (rest : ∀ a s s', m s = .ok (a, s') → Dies E (f a)) : Dies E (m >>= f) := by
  intro s e died
  cases ran : m s with
  | error e' =>
      rw [bind_error ran] at died
      cases died
      exact first s _ ran
  | ok result =>
      rw [bind_run ran] at died
      exact rest result.1 s result.2 ran result.2 e died

/-- A sequence whose second part does not depend on what the first returned. -/
theorem Dies.then {m : Proc σ ε α} {f : α → Proc σ ε β} (first : Dies E m)
    (rest : ∀ a, Dies E (f a)) : Dies E (m >>= f) :=
  first.bind fun a _ _ _ => rest a

theorem Dies.ite {c : Prop} [Decidable c] {m n : Proc σ ε α} (yes : Dies E m) (no : Dies E n) :
    Dies E (if c then m else n) := by
  split
  · exact yes
  · exact no

end Dies

/-! ## Runs -/

/-- The states a sequence of steps leads to, each step allowed by `ok`. -/
inductive Run (step : ι → Proc σ ε α) (ok : ι → σ → Prop) (start : σ) : σ → Prop where
  | refl : Run step ok start start
  | tail {s s' : σ} {i : ι} {a : α} (before : Run step ok start s) (allowed : ok i s)
      (ran : step i s = .ok (a, s')) : Run step ok start s'

/-- **Invariance.**  What holds at the start and is kept by every allowed step holds in every
state of a run. -/
theorem Run.invariant {step : ι → Proc σ ε α} {ok : ι → σ → Prop} {start s : σ} {I : σ → Prop}
    (run : Run step ok start s) (init : I start)
    (keeps : ∀ i, Triple (fun s => I s ∧ ok i s) (step i) fun _ => I) : I s := by
  induction run with
  | refl => exact init
  | tail _ allowed ran ih => exact keeps _ _ _ _ ⟨ih, allowed⟩ ran

end Hoare

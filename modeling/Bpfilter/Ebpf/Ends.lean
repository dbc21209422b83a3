/-
# Ebpf.Ends -- code that falls through or exits, and what it writes

`Ends env items c Q E` says that a piece of code, started in `c`, falls through in a
state of `Q` or exits in a state of `E`; pieces are put together with `Ends.append`.
It is about one starting state, so `Q` and `E` can relate the end to the start.

`Mem.SameOutside` bounds what a piece of code writes by a list of ranges.  What is
read outside of them is what was there before.
-/
import Bpfilter.Ebpf.Fragment

namespace Ebpf

set_option autoImplicit false

/-! ## Footprints -/

namespace Mem

/-- Two memories that differ in the ranges at most. -/
def SameOutside (ranges : List (Addr × Nat)) (m m' : Mem) : Prop :=
  ∀ x, (∀ r ∈ ranges, ¬ InRange r.1 r.2 x) → m' x = m x

theorem SameOutside.refl (ranges : List (Addr × Nat)) (m : Mem) : SameOutside ranges m m :=
  fun _ _ => rfl

theorem SameOutside.mono {ranges wider : List (Addr × Nat)} {m m' : Mem}
    (same : SameOutside ranges m m') (le : ∀ r ∈ ranges, r ∈ wider) : SameOutside wider m m' :=
  fun x outside => same x fun r mem => outside r (le r mem)

theorem SameOutside.trans {ranges : List (Addr × Nat)} {m m' m'' : Mem}
    (first : SameOutside ranges m m') (second : SameOutside ranges m' m'') :
    SameOutside ranges m m'' :=
  fun x outside => (second x outside).trans (first x outside)

theorem SameOutside.store (m : Mem) (a : Addr) (n : Nat) (v : BitVec 64) :
    SameOutside [(a, n)] m (m.store a n v) := by
  intro x outside
  exact store_apply_of_not_inRange m a x n v (outside (a, n) List.mem_cons_self)

/-- A range apart from everything that was written holds what it held. -/
theorem SameOutside.apply {ranges : List (Addr × Nat)} {m m' : Mem} {a : Addr} {n : Nat}
    (same : SameOutside ranges m m') (apart : ∀ r ∈ ranges, Disjoint a n r.1 r.2) {x : Addr}
    (inside : InRange a n x) : m' x = m x :=
  same x fun r mem => apart r mem x inside

theorem SameOutside.load {ranges : List (Addr × Nat)} {m m' : Mem} {a : Addr} {n : Nat}
    (same : SameOutside ranges m m') (apart : ∀ r ∈ ranges, Disjoint a n r.1 r.2)
    (small : n ≤ 2 ^ 64) : m'.load a n = m.load a n :=
  load_congr small fun _ inside => same.apply apart inside

end Mem

/-! ## Ends -/

variable {W S : Type} {env : Env W S} {f g items : List (Item S)} {c d : Core W}
  {P Q R E : Core W → Prop}

/-- Started in `c`, the piece falls through in a state of `Q` or exits in a state of `E`. -/
def Ends (env : Env W S) (items : List (Item S)) (c : Core W) (Q E : Core W → Prop) : Prop :=
  (∃ d, eval env 0 items c = .fall 0 d ∧ Q d) ∨ ∃ d, eval env 0 items c = .exit d ∧ E d

theorem Ends.of_fall (falls : eval env 0 items c = .fall 0 d) (holds : Q d) :
    Ends env items c Q E := .inl ⟨d, falls, holds⟩

theorem Ends.of_exit (exits : eval env 0 items c = .exit d) (holds : E d) :
    Ends env items c Q E := .inr ⟨d, exits, holds⟩

theorem Ends.of_eval_eq {items' : List (Item S)} {c' : Core W}
    (same : eval env 0 items c = eval env 0 items' c') (ends : Ends env items' c' Q E) :
    Ends env items c Q E := by
  rw [Ends, same]
  exact ends

theorem Ends.append (first : Ends env f c R E) (second : ∀ d, R d → Ends env g d Q E) :
    Ends env (f ++ g) c Q E := by
  obtain ⟨d, falls, holds⟩ | ⟨d, exits, holds⟩ := first
  · obtain ⟨e, rest, holds⟩ | ⟨e, rest, holds⟩ := second d holds
    · exact .of_fall ((eval_append_fall g falls).trans rest) holds
    · exact .of_exit ((eval_append_fall g falls).trans rest) holds
  · exact .of_exit (eval_append_exit g exits) holds

/-- A first part whose end is known. -/
theorem Ends.append_fall (falls : eval env 0 f c = .fall 0 d) (rest : Ends env g d Q E) :
    Ends env (f ++ g) c Q E :=
  Ends.append (R := fun d' => d' = d) (.of_fall falls rfl) fun _ same => same ▸ rest

theorem Ends.mono (ends : Ends env items c Q E) {Q' E' : Core W → Prop} (fall : ∀ d, Q d → Q' d)
    (exit : ∀ d, E d → E' d) : Ends env items c Q' E' := by
  obtain ⟨d, falls, holds⟩ | ⟨d, exits, holds⟩ := ends
  · exact .of_fall falls (fall d holds)
  · exact .of_exit exits (exit d holds)

/-- Two descriptions of one end. -/
theorem Ends.and {Q' E' : Core W → Prop} (ends : Ends env items c Q E)
    (more : Ends env items c Q' E') :
    Ends env items c (fun d => Q d ∧ Q' d) fun d => E d ∧ E' d := by
  obtain ⟨d, falls, holds⟩ | ⟨d, exits, holds⟩ := ends
  · obtain ⟨d', falls', holds'⟩ | ⟨d', exits', holds'⟩ := more
    · cases falls.symm.trans falls'
      exact .of_fall falls ⟨holds, holds'⟩
    · cases falls.symm.trans exits'
  · obtain ⟨d', falls', holds'⟩ | ⟨d', exits', holds'⟩ := more
    · cases exits.symm.trans falls'
    · cases exits.symm.trans exits'
      exact .of_exit exits ⟨holds, holds'⟩

/-- What holds of every end holds of the end a run comes to. -/
theorem Ends.of_runs_fall (ends : Ends env items c Q E) (ran : Runs env items 0 c (.fall d)) :
    Q d := by
  obtain ⟨d', falls, holds⟩ | ⟨d', exits, holds⟩ := ends
  · have ran' : Runs env items 0 c (.fall d') := runs_of_eval (by rw [falls]; rfl)
    cases ran.unique ran'
    exact holds
  · have ran' : Runs env items 0 c (.exit d') := runs_of_eval (by rw [exits]; rfl)
    cases ran.unique ran'

theorem Ends.runs (ends : Ends env items c Q E) :
    (∃ d, Runs env items 0 c (.fall d) ∧ Q d) ∨ ∃ d, Runs env items 0 c (.exit d) ∧ E d := by
  obtain ⟨d, falls, holds⟩ | ⟨d, exits, holds⟩ := ends
  · exact .inl ⟨d, runs_of_eval (by rw [falls]; rfl), holds⟩
  · exact .inr ⟨d, runs_of_eval (by rw [exits]; rfl), holds⟩

end Ebpf

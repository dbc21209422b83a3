/-
# Daemon.Front -- requests

The context of the daemon is its list of codegens.  An entry that was freed without
being removed from the list is `none`: reading it is undefined.

`step` is one request: those of `xlate/cli.c` that change the context, and the
iptables ruleset replacement.  Chains arrive decoded, so their flags are what
`bf_chain_new` derives from their rules.
-/
import Bpfilter.Daemon.Cgen
import Bpfilter.Xlate.Ipt

namespace Bpfilter

set_option autoImplicit false

open Hoare

/-! ## Context -/

structure Daemon where
  sys : Sys
  cgens : List (Option BfCgen) := []

abbrev Handle (α : Type) := Proc Daemon Death α

/-- Run an operation on the rest of the daemon's state. -/
def onSys {α : Type} (act : Act α) : Handle α := fun d =>
  match act d.sys with
  | .ok (a, sys) => .ok (a, { d with sys })
  | .error e => .error e

/-- `_bf_ctx_get_cgen` on the list of codegens: every entry before the match is read. -/
def findCgen (name : String) : List (Option BfCgen) → Except Death (Option (Nat × BfCgen))
  | [] => .ok none
  | none :: _ => .error .undefined
  | some cgen :: rest =>
      if cgen.chain.name = name then .ok (some (0, cgen))
      else
        match findCgen name rest with
        | .ok found => .ok (found.map fun (i, cgen) => (i + 1, cgen))
        | .error e => .error e

/-- `bf_ctx_get_cgen` -/
def bfCtxGetCgen (name : String) : Handle (Option (Nat × BfCgen)) := fun d =>
  match findCgen name d.cgens with
  | .ok found => .ok (found, d)
  | .error e => .error e

/-- `bf_ctx_set_cgen` -/
def bfCtxSetCgen (cgen : BfCgen) : Handle (Option Errno) := do
  match ← bfCtxGetCgen cgen.chain.name with
  | some _ => pure (some .eexist)
  | none => do
      modify fun d => { d with cgens := d.cgens ++ [some cgen] }
      pure none

/-- Store a codegen where it was found. -/
def putCgen (i : Nat) (cgen : Option BfCgen) : Handle Unit :=
  modify fun d => { d with cgens := d.cgens.set i cgen }

/-- `bf_ctx_delete_cgen` of a codegen that is in the list. -/
def bfCtxDeleteCgen (fails : Option Errno) (i : Nat) (cgen : BfCgen) : Handle Unit := do
  onSys (bfCgenUnload fails cgen)
  modify fun d => { d with cgens := d.cgens.eraseIdx i }

/-- `_bf_ctx_flush`: what is left of a list of codegens. -/
def flushCgens (fails : String → Option Errno) (front : BfFront) :
    List (Option BfCgen) → Act (List (Option BfCgen))
  | [] => pure []
  | none :: _ => throw .undefined
  | some cgen :: rest =>
      if cgen.front = front then do
        bfCgenUnload (fails cgen.chain.name) cgen
        flushCgens fails front rest
      else do
        let rest ← flushCgens fails front rest
        pure (some cgen :: rest)

/-- `bf_ctx_flush` -/
def bfCtxFlush (fails : String → Option Errno) (front : BfFront) : Handle Unit := do
  let cgens ← onSys (flushCgens fails front (← get).cgens)
  modify fun d => { d with cgens }

/-! ## Command line requests -/

/-- A chain as `bf_chain_new_from_pack` builds it. -/
structure DecodedChain where
  chain : BfChain
  flags : chain.flags = chain.rules.foldl bfChainUpdateFeatures {}

/-- One chain of a ruleset. -/
structure RulesetEntry where
  chain : DecodedChain
  hookopts : Option BfHookopts
  fate : Fate

/-- Set the codegen of a chain nothing has the name of: the common end of two requests. -/
def setChain (fate : Fate) (client : BfNs) (cgen : BfCgen) (hookopts : Option BfHookopts) :
    Handle Ret := do
  let (r, cgen) ← onSys (bfCgenSet fate cgen client hookopts)
  match r with
  | .ok =>
      match ← bfCtxSetCgen cgen with
      | none => pure .ok
      | some e => do
          onSys (bfCgenUnload fate.unload cgen)
          pure (.err e)
  | r => pure r

/-- The loop of `_bf_cli_ruleset_set`, up to the first error. -/
def setChains (client : BfNs) : List (Except Errno RulesetEntry) → Handle Ret
  | [] => pure .ok
  | .error e :: _ => pure (.err e)
  | .ok entry :: rest => do
      match ← onSys (bfCgenNew entry.fate .cli entry.chain.chain) with
      | .error e => pure (.err e)
      | .ok cgen =>
          match ← setChain entry.fate client cgen entry.hookopts with
          | .ok => setChains client rest
          | r => pure r

/-- The payload of a ruleset request: no tree can be read from it, the tree has no array of chains,
or the array with each chain as far as it can be decoded. -/
inductive RulesetPayload where
  | garbled
  | error (e : Errno)
  | ok (entries : List (Except Errno RulesetEntry))

/-- `_bf_cli_ruleset_set`.  Without a tree the pointer to it was never set when it is freed. -/
def bfCliRulesetSet (client : BfNs) (fails failsAgain : String → Option Errno)
    (ruleset : RulesetPayload) : Handle Ret := do
  bfCtxFlush fails .cli
  match ruleset with
  | .garbled => throw .undefined
  | .error e => pure (.err e)
  | .ok entries =>
      match ← setChains client entries with
      | .ok => pure .ok
      | r => do
          bfCtxFlush failsAgain .cli
          pure r

/-- `_bf_cli_chain_set`: a chain of the same name is removed first. -/
def bfCliChainSet (fate : Fate) (client : BfNs) (chain : DecodedChain)
    (hookopts : Option BfHookopts) (failsOld : Option Errno) : Handle Ret := do
  match ← onSys (bfCgenNew fate .cli chain.chain) with
  | .error e => pure (.err e)
  | .ok cgen => do
      match ← bfCtxGetCgen cgen.chain.name with
      | some (i, old) => bfCtxDeleteCgen failsOld i old
      | none => pure ()
      setChain fate client cgen hookopts

/-- `_bf_cli_chain_load` -/
def bfCliChainLoad (fate : Fate) (chain : DecodedChain) : Handle Ret := do
  match ← bfCtxGetCgen chain.chain.name with
  | some _ => pure (.err .eexist)
  | none =>
      match ← onSys (bfCgenNew fate .cli chain.chain) with
      | .error e => pure (.err e)
      | .ok cgen => do
          let (r, cgen) ← onSys (bfCgenLoad fate cgen)
          match r with
          | .ok =>
              match ← bfCtxSetCgen cgen with
              | none => pure .ok
              | some e => do
                  onSys (bfCgenUnload fate.unload cgen)
                  pure (.err e)
          | r => pure r

/-- `_bf_cli_chain_attach` -/
def bfCliChainAttach (fate : Fate) (client : BfNs) (name : String) (opts : BfHookopts) :
    Handle Ret := do
  match ← bfCtxGetCgen name with
  | none => pure (.err .enoent)
  | some (i, cgen) =>
      match cgen.program with
      | none => throw .undefined
      | some prog =>
          if prog.link.hookopts.isSome then pure (.err .ebusy)
          else
            match bfHookoptsValidate opts cgen.chain.hook with
            | .error e => pure (.err e)
            | .ok () => do
                let (r, cgen) ← onSys (bfCgenAttach fate cgen client opts)
                putCgen i (some cgen)
                pure r

/-- `_bf_cli_chain_update`: neither the hook nor the chain is checked. -/
def bfCliChainUpdate (fate : Fate) (chain : DecodedChain) : Handle Ret := do
  match ← bfCtxGetCgen chain.chain.name with
  | none => pure (.err .enoent)
  | some (i, cgen) =>
      match cgen.program with
      | none => throw .undefined
      | some prog =>
          if prog.link.hookopts.isNone then pure (.err .einval)
          else do
            let (r, cgen) ← onSys (bfCgenUpdate fate cgen chain.chain)
            putCgen i (some cgen)
            pure (if r = .ok then .ok else .err .einval)

/-- `_bf_cli_chain_flush` -/
def bfCliChainFlush (fails : Option Errno) (name : String) : Handle Ret := do
  match ← bfCtxGetCgen name with
  | none => pure (.err .enoent)
  | some (i, cgen) => do
      bfCtxDeleteCgen fails i cgen
      pure .ok

/-! ## iptables requests -/

/-- The entries of one hook: the rules and the policy behind them. -/
structure IptHookEntries where
  entries : List IptEntry
  last : IptEntry

/-- `struct ipt_replace`: a hook is enabled when its bit is set in `valid_hooks`. -/
structure IptReplace where
  sizeOk : Bool := true
  hooks : BfNfInetHook → Option IptHookEntries

def iptIsHookEnabled (replace : IptReplace) (hook : BfNfInetHook) : Bool :=
  (replace.hooks hook).isSome

/-- The rule loop of `_bf_ipt_entries_to_chain`. -/
def iptAddRules : List IptEntry → BfChain → Except GenErr BfChain
  | [], chain => .ok chain
  | entry :: rest, chain => do
      let rule ← bfIptEntryToRule entry
      iptAddRules rest (bfChainAddRule chain rule)

/-- `_bf_ipt_entries_to_chain` -/
def bfIptEntriesToChain (hook : BfNfInetHook) (rules : IptHookEntries) : Except GenErr BfChain := do
  let policy ← bfIptTargetToVerdict rules.last.target
  iptAddRules rules.entries (bfChainNew (bfNfHookToStr hook) (bfHookFromNfHook hook) policy [] [])

/-- `_bf_ipt_xlate_ruleset_set`: the chain of each hook, in the order of the hooks. -/
def bfIptXlateRulesetSet (replace : IptReplace) :
    List BfNfInetHook → Except GenErr (List (BfNfInetHook × Option BfChain))
  | [] => .ok []
  | hook :: rest =>
      match replace.hooks hook with
      | none => do
          let chains ← bfIptXlateRulesetSet replace rest
          .ok ((hook, none) :: chains)
      | some rules => do
          let chain ← bfIptEntriesToChain hook rules
          let chains ← bfIptXlateRulesetSet replace rest
          .ok ((hook, some chain) :: chains)

/-- The codegens of the iptables front end by hook, as positions in the list. -/
abbrev CurCgens := BfNfInetHook → Option Nat

/-- Fill `cur_cgens` from the entries at position `i` on.  A hook that is no Netfilter hook is
an index outside the array. -/
def collectCgens : Nat → List (Option BfCgen) → CurCgens → Except Death (Except Errno CurCgens)
  | _, [], cur => .ok (.ok cur)
  | _, none :: _, _ => .error .undefined
  | i, some cgen :: rest, cur =>
      if cgen.front ≠ .ipt then collectCgens (i + 1) rest cur
      else
        match bfHookToNfHook cgen.chain.hook with
        | none => .error .undefined
        | some hook =>
            if (cur hook).isSome then .ok (.error .eexist)
            else collectCgens (i + 1) rest fun hook' => if hook' = hook then some i else cur hook'

/-- `PF_INET`, `BF_IPT_PRIO_0` and `BF_IPT_PRIO_1` -/
def iptHookopts : BfHookopts := { family := some 2, priorities := some (1000, 1001) }

/-- The branch of `_bf_ipt_ruleset_set` for a hook without codegen.  The flag is false when the
request ends here. -/
def iptNewCgen (fate : Fate) (client : BfNs) (chain : BfChain) : Handle (Bool × Ret) := do
  match ← onSys (bfCgenNew fate .ipt chain) with
  | .error e => pure (false, .err e)
  | .ok cgen => do
      let (r, cgen) ← onSys (bfCgenLoad fate cgen)
      match r with
      | .ok => do
          let (r, cgen) ← onSys (bfCgenAttach fate cgen client iptHookopts)
          match r with
          | .ok =>
              match ← bfCtxSetCgen cgen with
              | none => pure (true, .ok)
              | some e => pure (true, .err e)
          | r => pure (true, r)
      | r => pure (true, r)

/-- The loop of `_bf_ipt_ruleset_set`.  The codegen of a hook is owned by the loop body until
`TAKE_PTR`, so a hook without chain has its codegen freed. -/
def iptSetHooks (fates : BfNfInetHook → Fate) (client : BfNs) (cur : CurCgens) :
    List (BfNfInetHook × Option BfChain) → Ret → Handle Ret
  | [], r => pure r
  | (hook, none) :: rest, r => do
      match cur hook with
      | none => pure ()
      | some i => putCgen i none
      iptSetHooks fates client cur rest r
  | (hook, some chain) :: rest, _ => do
      match cur hook with
      | none => do
          let (go, r) ← iptNewCgen (fates hook) client chain
          if go then iptSetHooks fates client cur rest r else pure r
      | some i => do
          match (← get).cgens[i]? with
          | some (some cgen) => do
              let (r, cgen) ← onSys (bfCgenUpdate (fates hook) cgen chain)
              putCgen i (some cgen)
              iptSetHooks fates client cur rest r
          | _ => throw .undefined

/-- `_bf_ipt_ruleset_set` -/
def bfIptRulesetSet (fates : BfNfInetHook → Fate) (client : BfNs) (replace : IptReplace) :
    Handle Ret := do
  if !replace.sizeOk then pure (.err .einval)
  else
    match bfIptXlateRulesetSet replace bfNfInetHooks with
    | .error (.errno e) => pure (.err e)
    | .error _ => throw .undefined
    | .ok chains => do
        match collectCgens 0 (← get).cgens (fun _ => none) with
        | .error e => throw e
        | .ok (.error e) => pure (.err e)
        | .ok (.ok cur) => iptSetHooks fates client cur chains .ok

/-! ## Requests -/

inductive Request where
  | rulesetFlush (fails : String → Option Errno)
  | rulesetSet (client : BfNs) (fails failsAgain : String → Option Errno) (ruleset : RulesetPayload)
  | chainSet (fate : Fate) (client : BfNs) (chain : DecodedChain) (hookopts : Option BfHookopts)
      (failsOld : Option Errno)
  | chainLoad (fate : Fate) (chain : DecodedChain)
  | chainAttach (fate : Fate) (client : BfNs) (name : String) (opts : BfHookopts)
  | chainUpdate (fate : Fate) (chain : DecodedChain)
  | chainFlush (fails : Option Errno) (name : String)
  | iptRulesetSet (fates : BfNfInetHook → Fate) (client : BfNs) (replace : IptReplace)

def Request.isCli : Request → Bool
  | .iptRulesetSet .. => false
  | _ => true

/-- One request, from the state before it to the state after it. -/
def step : Request → Handle Ret
  | .rulesetFlush fails => do
      bfCtxFlush fails .cli
      pure .ok
  | .rulesetSet client fails failsAgain ruleset => bfCliRulesetSet client fails failsAgain ruleset
  | .chainSet fate client chain hookopts failsOld =>
      bfCliChainSet fate client chain hookopts failsOld
  | .chainLoad fate chain => bfCliChainLoad fate chain
  | .chainAttach fate client name opts => bfCliChainAttach fate client name opts
  | .chainUpdate fate chain => bfCliChainUpdate fate chain
  | .chainFlush fails name => bfCliChainFlush fails name
  | .iptRulesetSet fates client replace => bfIptRulesetSet fates client replace

/-- A daemon that has just started. -/
def Daemon.init (host : Host) (persist : Bool) (own : BfNs) (paths : Nat → Paths) : Daemon :=
  { sys := { host, persist, ownNs := own, ns := own, paths } }

end Bpfilter

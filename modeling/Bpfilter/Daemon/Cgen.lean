/-
# Daemon.Cgen -- the operations on a codegen

`struct bf_cgen` binds a chain to the program compiled from it.  The operations of
`cgen/cgen.c` are here with every early return: each takes the codegen and returns
it as it is left, next to the return code, so a failed operation still has a state
after it.

Freeing a codegen only removes its directory, which fails unless it is empty, so it
leaves no trace here.  The exception is a codegen whose chain was refused: its chain
pointer is NULL when it is freed.
-/
import Bpfilter.Daemon.Sys

namespace Bpfilter

set_option autoImplicit false

open Hoare

inductive BfFront where
  | ipt | nft | cli
  deriving DecidableEq, Repr

structure BfCgen where
  front : BfFront
  chain : BfChain
  program : Option BfProg := none

/-- `_bf_cgen_get_chain_pindir_fd`, which the operations call in persistent mode only: a transient
daemon opens nothing and makes no use of the directory.  The file descriptor stays that of the
directory whichever namespace the daemon enters later. -/
def openPindir (fate : Fate) (name : String) : Act (Except Errno Nat) := do
  let s ← get
  match if s.persist then fate.bpffs <|> fate.chainDir else none with
  | some e => pure (.error e)
  | none => pure (.ok (s.dirOf name))

/-- Pin in persistent mode. -/
def pinPersistent (fails : Nat → Option Errno) (prog : BfProg) (dir : Nat) :
    Act (Option Errno) := do
  if (← get).persist then bfProgramPin fails prog dir else pure none

/-- Unpin in persistent mode. -/
def unpinPersistent (prog : BfProg) (dir : Nat) : Act Unit := do
  if (← get).persist then bfProgramUnpin prog dir

/-- `bf_cgen_new`.  When the chain is refused every caller frees the codegen at once, and
`bf_cgen_free` reads the name of its NULL chain if it can open the pin directory. -/
def bfCgenNew (fate : Fate) (front : BfFront) (chain : BfChain) : Act (Except Errno BfCgen) := do
  if bfChainValidate chain then pure (.ok { front, chain })
  else if (← get).persist && fate.freeDir.isNone then throw .undefined
  else pure (.error .einval)

/-- Attach a program from inside the client's namespaces: the middle of `bf_cgen_set` and
`bf_cgen_attach`.  Two of the error returns come before the switch back. -/
def attachIn (fate : Fate) (client : BfNs) (prog : BfProg) (opts : BfHookopts) :
    Act (Ret × BfProg) := do
  let own := (← get).ownNs
  if ← bfNsSet client own fate.switchNet fate.switchMnt then do
    let (r, link) ← bfLinkAttach fate prog.link prog.chain.hook opts prog
    match r with
    | .err e => pure (.err e, { prog with link })
    | .ok =>
        if ← bfNsSet own client fate.restoreNet fate.restoreMnt then pure (.ok, { prog with link })
        else throw .abort
  else pure (.err .eperm, prog)

/-- The end of `bf_cgen_set` and `bf_cgen_load`: pin the program and keep it. -/
def keepProgram (fate : Fate) (cgen : BfCgen) (dir : Nat) (prog : BfProg) :
    Act (Ret × BfCgen) := do
  match ← pinPersistent fate.pin prog dir with
  | some e => pure (.err e, cgen)
  | none => pure (.ok, { cgen with program := some prog })

/-- `bf_cgen_set`: build, attach if there are hook options, pin. -/
def bfCgenSet (fate : Fate) (cgen : BfCgen) (client : BfNs) (hookopts : Option BfHookopts) :
    Act (Ret × BfCgen) := do
  match ← openPindir fate cgen.chain.name with
  | .error e => pure (.err e, cgen)
  | .ok dir =>
      match ← newProgram fate cgen.chain with
      | .error e => pure (.err e, cgen)
      | .ok prog =>
          match hookopts with
          | none => keepProgram fate cgen dir prog
          | some opts => do
              let (r, prog) ← attachIn fate client prog opts
              match r with
              | .err e => pure (.err e, cgen)
              | .ok => keepProgram fate cgen dir prog

/-- `bf_cgen_load` -/
def bfCgenLoad (fate : Fate) (cgen : BfCgen) : Act (Ret × BfCgen) := do
  match ← openPindir fate cgen.chain.name with
  | .error e => pure (.err e, cgen)
  | .ok dir =>
      match ← newProgram fate cgen.chain with
      | .error e => pure (.err e, cgen)
      | .ok prog => keepProgram fate cgen dir prog

/-- Pin the link of an attached codegen, or detach it. -/
def keepLink (fate : Fate) (cgen : BfCgen) (dir : Nat) (prog : BfProg) : Act (Ret × BfCgen) := do
  if (← get).persist then do
    match ← bfLinkPin fate.linkPin prog.link dir with
    | some e => pure (.err e, { cgen with program := some { prog with link := {} } })
    | none => pure (.ok, { cgen with program := some prog })
  else pure (.ok, { cgen with program := some prog })

/-- `bf_cgen_attach` -/
def bfCgenAttach (fate : Fate) (cgen : BfCgen) (client : BfNs) (opts : BfHookopts) :
    Act (Ret × BfCgen) := do
  match ← openPindir fate cgen.chain.name with
  | .error e => pure (.err e, cgen)
  | .ok dir =>
      match cgen.program with
      | none => throw .undefined
      | some prog => do
          let (r, prog) ← attachIn fate client prog opts
          match r with
          | .err e => pure (.err e, { cgen with program := some prog })
          | .ok => keepLink fate cgen dir prog

/-- The link update of `bf_cgen_update`, with the old program unpinned before and one of the two
pinned after it. -/
def swapPrograms (fate : Fate) (cgen : BfCgen) (dir : Nat) (old prog : BfProg) (chain : BfChain) :
    Act (Ret × BfCgen) := do
  unpinPersistent old dir
  let (r, link) ← bfLinkUpdate fate old.link cgen.chain.hook prog
  match r with
  | some e => do
      let _ ← pinPersistent fate.repin old dir
      pure (.err e, cgen)
  | none => do
      let prog := { prog with link }
      let _ ← pinPersistent fate.pin prog dir
      pure (.ok, { cgen with chain, program := some prog })

/-- `bf_cgen_update`: the directory is opened by the new chain's name. -/
def bfCgenUpdate (fate : Fate) (cgen : BfCgen) (chain : BfChain) : Act (Ret × BfCgen) := do
  match ← openPindir fate chain.name with
  | .error e => pure (.err e, cgen)
  | .ok dir =>
      match ← newProgram fate chain with
      | .error e => pure (.err e, cgen)
      | .ok prog =>
          match cgen.program with
          | none => throw .undefined
          | some old => swapPrograms fate cgen dir old prog chain

/-- `bf_cgen_unload`: the directory is opened in both modes; the codegen is dropped after it. -/
def bfCgenUnload (fails : Option Errno) (cgen : BfCgen) : Act Unit :=
  match fails with
  | some _ => pure ()
  | none =>
      match cgen.program with
      | none => throw .undefined
      | some prog => do bfProgramUnpin prog ((← get).dirOf cgen.chain.name)

end Bpfilter

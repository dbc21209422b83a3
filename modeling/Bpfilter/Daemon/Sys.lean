/-
# Daemon.Sys -- programs, links and pins in the kernel

What the daemon's codegens act on.  `Sys` is the process and the part of the kernel
it changes: the namespaces it is in and the pins of each directory.  A loaded program
is a `BfProg`; the kernel link behind `link->fd` is a `KernelLink` that remembers the
hook, the priority and the network namespace it was created with.  Two fields are a
history: the chains that were compiled, and the hook and the options of every link
that was created.

A chain is pinned in the directory its name opens below the pin directory.  The name
is a path and the pin directory is looked up in the mount namespace the daemon is in,
so `Paths` says for each mount namespace where names lead: two names may lead to one
directory, and one name to two directories in two namespaces.  Nobody else mounts
anything or touches these directories.

Every call that can fail for a reason outside the daemon takes its outcome from a
`Fate`, so a statement over all fates covers every combination of failures.
Removing a pin always succeeds, and a directory nothing is pinned in is the same as
a missing one.
-/
import Bpfilter.Cgen.Generate
import Bpfilter.Lib.Hook
import Bpfilter.Proc.Hoare

namespace Bpfilter

set_option autoImplicit false

open Hoare

/-! ## State -/

/-- A return code: zero or a negative `errno` value. -/
inductive Ret where
  | ok
  | err (e : Errno)
  deriving DecidableEq, Repr

/-- How the daemon dies: `bf_abort` or a failed assertion, an access to memory that is not
there, or either of them while the code of a chain is generated. -/
inductive Death where
  | abort
  | undefined
  | generating (chain : BfChain) (cause : GenErr)
  deriving DecidableEq, Repr

/-- `struct bf_ns`: the inodes of a network and a mount namespace. -/
structure BfNs where
  net : Nat
  mnt : Nat
  deriving DecidableEq, Repr

/-- A BPF link in the kernel. -/
structure KernelLink where
  id : Nat
  hook : BfHook
  priority : Option (BitVec 32)
  netns : Nat
  prog : Nat
  deriving DecidableEq, Repr

/-- `struct bf_link`; `fd` is the link behind the file descriptor. -/
structure BfLink where
  hookopts : Option BfHookopts := none
  fd : Option KernelLink := none
  deriving DecidableEq, Repr

/-- A loaded `struct bf_program`: `runtime.chain`, the code, the kernel's program and the link. -/
structure BfProg where
  chain : BfChain
  code : BfProgram
  id : Nat
  link : BfLink := {}

/-- The type of the program in the kernel. -/
def BfProg.flavor (prog : BfProg) : BfFlavor := bfHookToFlavor prog.chain.hook

/-- The kernel object behind a pin. -/
inductive BpfObj where
  | prog (id : Nat)
  | cmap (prog : Nat)
  | pmap (prog : Nat)
  | lmap (prog : Nat)
  | set (prog index : Nat)
  | link (id : Nat)
  deriving DecidableEq, Repr

/-- The pins of a directory. -/
abbrev Dir := String → Option BpfObj

/-- Where the daemon's paths lead in one mount namespace: the directory a chain's name opens below
the pin directory, and the context file. -/
structure Paths where
  dir : String → Nat
  file : Nat

/-- Mount namespaces that share nothing, in which different names open different directories. -/
def plainPaths : Nat → Paths := fun mnt =>
  { dir := fun name => name.toList.foldl (fun code c => 0x110000 * code + c.toNat) mnt
    file := mnt }

structure Sys where
  host : Host
  persist : Bool
  ownNs : BfNs
  ns : BfNs
  paths : Nat → Paths
  pins : Nat → Dir := fun _ _ => none
  next : Nat := 0
  generated : List BfChain := []
  linked : List (BfHook × BfHookopts) := []

abbrev Act (α : Type) := Proc Sys Death α

/-- The outcomes of the calls one operation makes; `none` is success. -/
structure Fate where
  maps : BfMaps := ⟨0, 0, 0, []⟩
  bpffs : Option Errno := none
  chainDir : Option Errno := none
  programNew : Option Errno := none
  emit : Option Errno := none
  mapCreate : Option Errno := none
  progLoad : Option Errno := none
  switchNet : Bool := true
  switchMnt : Bool := true
  cgroupOpen : Option Errno := none
  linkCreate : Option Errno := none
  restoreNet : Bool := true
  restoreMnt : Bool := true
  linkUpdate : Option Errno := none
  pin : Nat → Option Errno := fun _ => none
  repin : Nat → Option Errno := fun _ => none
  linkPin : Option Errno := none
  unload : Option Errno := none
  freeDir : Option Errno := none

/-! ## Namespaces -/

/-- `setns` on the network namespace. -/
def setNetNs (target : Nat) : Sys → Sys := fun s => { s with ns := { s.ns with net := target } }

/-- `setns` on the mount namespace. -/
def setMntNs (target : Nat) : Sys → Sys := fun s => { s with ns := { s.ns with mnt := target } }

/-- One half of `bf_ns_set`: nothing to do when the inodes are equal. -/
def bfNsSwitch (target old : Nat) (works : Bool) (enter : Nat → Sys → Sys) : Act Bool :=
  if target = old then pure true
  else if works then do
    modify (enter target)
    pure true
  else pure false

/-- `bf_ns_set`: the network namespace first, the mount namespace only if that worked. -/
def bfNsSet (target old : BfNs) (netWorks mntWorks : Bool) : Act Bool := do
  if ← bfNsSwitch target.net old.net netWorks setNetNs then
    bfNsSwitch target.mnt old.mnt mntWorks setMntNs
  else pure false

/-! ## Programs -/

/-- `_bf_map_new` refuses a map without elements. -/
def hasEmptySet (chain : BfChain) : Bool := chain.sets.any (·.elems.isEmpty)

/-- An allocation of a kernel identifier. -/
def freshId : Act Nat := do
  let id := (← get).next
  modify fun s => { s with next := s.next + 1 }
  pure id

/-- What a pass of the code generator means for the daemon: an error code is returned, anything
worse is a death. -/
def ofGen {α : Type} (death : GenErr → Death) : Except GenErr α → Act (Except Errno α)
  | .ok a => pure (.ok a)
  | .error (.errno e) => pure (.error e)
  | .error .abort => throw (death .abort)
  | .error .undefined => throw (death .undefined)

/-- `bf_program_generate`, recorded in `generated`. -/
def generateProgram (fate : Fate) (chain : BfChain) : Act (Except Errno BfProgram) := do
  let host := (← get).host
  modify fun s => { s with generated := s.generated ++ [chain] }
  match ← ofGen (.generating chain) (bfProgramGenerate (bfProgramNew host chain fate.maps)) with
  | .error e => pure (.error e)
  | .ok (_, code) =>
      match fate.emit with
      | some e => pure (.error e)
      | none => pure (.ok code)

/-- `bf_program_load`: create the maps, fill the references to them, load the image. -/
def loadProgram (fate : Fate) (chain : BfChain) (code : BfProgram) :
    Act (Except Errno BfProg) := do
  match fate.mapCreate with
  | some e => pure (.error e)
  | none =>
      match ← ofGen (fun _ => .abort) (bfProgramLoadFixups code) with
      | .error e => pure (.error e)
      | .ok (_, code) =>
          match fate.progLoad with
          | some e => pure (.error e)
          | none => do
              let id ← freshId
              pure (.ok { chain, code, id })

/-- `bf_program_new`, `bf_program_generate` and `bf_program_load` in a row. -/
def newProgram (fate : Fate) (chain : BfChain) : Act (Except Errno BfProg) := do
  match fate.programNew with
  | some e => pure (.error e)
  | none =>
      if hasEmptySet chain then pure (.error .einval)
      else do
        match ← generateProgram fate chain with
        | .error e => pure (.error e)
        | .ok code => loadProgram fate chain code

/-! ## Links -/

/-- `bf_bpf_link_create`, recorded in `linked`: the kernel refuses a program of another type than
the hook's; the link belongs to the network namespace the daemon is in. -/
def bfBpfLinkCreate (fate : Fate) (prog : BfProg) (hook : BfHook) (opts : BfHookopts) :
    Act (Except Errno KernelLink) := do
  if prog.flavor ≠ bfHookToFlavor hook then pure (.error .einval)
  else
    match fate.linkCreate with
    | some e => pure (.error e)
    | none => do
        let id ← freshId
        modify fun s => { s with linked := s.linked ++ [(hook, opts)] }
        let priority := if bfHookToFlavor hook = .nf then some opts.prios.1 else none
        pure (.ok { id, hook, priority, netns := (← get).ns.net, prog := prog.id })

/-- `open` of the control group; a missing path is a NULL string. -/
def cgroupOpen (fate : Fate) (hook : BfHook) (opts : BfHookopts) : Option Errno :=
  if bfHookToFlavor hook = .cgroup then
    if opts.cgpath.isNone then some .efault else fate.cgroupOpen
  else none

/-- `bf_link_attach`: errors are returned as negative values, that of `open` by `bf_err_r`. -/
def bfLinkAttach (fate : Fate) (link : BfLink) (hook : BfHook) (opts : BfHookopts) (prog : BfProg) :
    Act (Ret × BfLink) := do
  match cgroupOpen fate hook opts with
  | some e => pure (.err e, link)
  | none =>
      match ← bfBpfLinkCreate fate prog hook opts with
      | .error e => pure (.err e, link)
      | .ok fd => pure (.ok, { hookopts := some opts, fd := some fd })

/-- The options of the next link: the priorities change places. -/
def BfHookopts.swapped (opts : BfHookopts) : BfHookopts :=
  { opts with priorities := opts.priorities.map Prod.swap }

/-- `_bf_link_update_nf`: a new link next to the old one, which is then closed. -/
def bfLinkUpdateNf (fate : Fate) (link : BfLink) (hook : BfHook) (prog : BfProg) :
    Act (Option Errno × BfLink) := do
  match link.hookopts with
  | none => throw .undefined
  | some opts =>
      match ← bfBpfLinkCreate fate prog hook opts.swapped with
      | .error e => pure (some e, link)
      | .ok fd => pure (none, { hookopts := some opts.swapped, fd := some fd })

/-- `bf_bpf_link_update`: the program of a link is replaced by one of the same type. -/
def bfBpfLinkUpdate (fate : Fate) (link : BfLink) (prog : BfProg) : Option Errno × BfLink :=
  match link.fd with
  | none => (some .ebadf, link)
  | some fd =>
      if prog.flavor ≠ bfHookToFlavor fd.hook then (some .einval, link)
      else
        match fate.linkUpdate with
        | some e => (some e, link)
        | none => (none, { link with fd := some { fd with prog := prog.id } })

/-- `bf_link_update` -/
def bfLinkUpdate (fate : Fate) (link : BfLink) (hook : BfHook) (prog : BfProg) :
    Act (Option Errno × BfLink) :=
  if bfHookToFlavor hook = .nf then bfLinkUpdateNf fate link hook prog
  else pure (bfBpfLinkUpdate fate link prog)

/-! ## Pins -/

/-- The name of a set's map: `snprintf("set_%04x", (uint8_t)idx)`. -/
def setMapName (index : Nat) : String :=
  "set_00".push (Nat.digitChar (index % 256 / 16)) |>.push (Nat.digitChar (index % 16))

/-- The maps `bf_program_new` creates for the sets of a chain. -/
def BfProg.setPins (prog : BfProg) : List (String × Option BpfObj) :=
  (List.range prog.chain.sets.length).map fun index =>
    (setMapName index, some (.set prog.id index))

/-- What `bf_program_pin` pins, in order; a link is pinned once it has hook options. -/
def BfProg.pinList (prog : BfProg) : List (String × Option BpfObj) :=
  [("bf_prog", some (.prog prog.id)), ("counters_map", some (.cmap prog.id)),
    ("printer_map", some (.pmap prog.id)), ("log_map", some (.lmap prog.id))] ++
  prog.setPins ++
  if prog.link.hookopts.isSome then [("bf_link", prog.link.fd.map fun fd => .link fd.id)] else []

/-- The pins of a program and nothing else. -/
def BfProg.pinDir (prog : BfProg) : Dir := fun name => (prog.pinList.lookup name).join

/-- `bf_bpf_obj_pin`: a name can be used once. -/
def bfBpfObjPin (name : String) (obj : Option BpfObj) (fails : Option Errno) (dir : Dir) :
    Except Errno Dir :=
  match obj with
  | none => .error .ebadf
  | some obj =>
      if (dir name).isSome then .error .eexist
      else
        match fails with
        | some e => .error e
        | none => .ok fun name' => if name' = name then some obj else dir name'

/-- The sequence of pins of `bf_program_pin`, up to the first failure. -/
def pinAll (fails : Nat → Option Errno) : List (String × Option BpfObj) → Dir → Option Errno × Dir
  | [], dir => (none, dir)
  | (name, obj) :: rest, dir =>
      match bfBpfObjPin name obj (fails rest.length) dir with
      | .error e => (some e, dir)
      | .ok dir' => pinAll fails rest dir'

/-- The names `bf_program_unpin` removes: the link's is among them even if it is not pinned. -/
def BfProg.unpinNames (prog : BfProg) : List String :=
  "bf_prog" :: "counters_map" :: "printer_map" :: "log_map" :: "bf_link" ::
    prog.setPins.map Prod.fst

/-- A directory without the pins of a program. -/
def Dir.unpin (dir : Dir) (prog : BfProg) : Dir :=
  fun name => if name ∈ prog.unpinNames then none else dir name

/-- The directory a chain's name opens from where the daemon is. -/
def Sys.dirOf (s : Sys) (name : String) : Nat := (s.paths s.ns.mnt).dir name

/-- The directory a chain's name opens in the daemon's own mount namespace. -/
def Sys.homeDir (s : Sys) (name : String) : Nat := (s.paths s.ownNs.mnt).dir name

/-- Change one directory. -/
def Sys.setDir (s : Sys) (dir : Nat) (entries : Dir) : Sys :=
  { s with pins := fun dir' => if dir' = dir then entries else s.pins dir' }

/-- `bf_program_unpin` -/
def bfProgramUnpin (prog : BfProg) (dir : Nat) : Act Unit :=
  modify fun s => s.setDir dir ((s.pins dir).unpin prog)

/-- `bf_program_pin`: after a failure, every name of the program is removed. -/
def bfProgramPin (fails : Nat → Option Errno) (prog : BfProg) (dir : Nat) :
    Act (Option Errno) := do
  let (r, entries) := pinAll fails prog.pinList ((← get).pins dir)
  modify fun s => s.setDir dir entries
  if r.isSome then bfProgramUnpin prog dir
  pure r

/-- `bf_link_pin` -/
def bfLinkPin (fails : Option Errno) (link : BfLink) (dir : Nat) : Act (Option Errno) := do
  let s ← get
  match bfBpfObjPin "bf_link" (link.fd.map fun fd => .link fd.id) fails (s.pins dir) with
  | .error e => pure (some e)
  | .ok entries => do
      modify fun s => s.setDir dir entries
      pure none

end Bpfilter

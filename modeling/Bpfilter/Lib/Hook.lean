/-
# Lib.Hook -- Netfilter hooks and hook options

The part of `libbpfilter/hook.c` the daemon works with: the correspondence between
hooks and Netfilter hooks, and the options a chain is attached with.  An option is
present when its bit is set in `used_opts`; the value of an absent one is zero.

`bfHookoptsNewFromPack_pack` is the round trip of the options through the daemon's
saved state.
-/
import Bpfilter.Lib.Chain
import Bpfilter.Lib.Pack

namespace Bpfilter

set_option autoImplicit false

/-! ## Netfilter hooks -/

/-- `enum bf_nf_inet_hooks` -/
inductive BfNfInetHook where
  | preRouting | localIn | forward | localOut | postRouting
  deriving DecidableEq, Repr

/-- The hooks in the order of their values. -/
def bfNfInetHooks : List BfNfInetHook := [.preRouting, .localIn, .forward, .localOut, .postRouting]

/-- `bf_hook_to_nf_hook`; `none` is `-EINVAL`. -/
def bfHookToNfHook : BfHook → Option BfNfInetHook
  | .nfPreRouting => some .preRouting
  | .nfLocalIn => some .localIn
  | .nfForward => some .forward
  | .nfLocalOut => some .localOut
  | .nfPostRouting => some .postRouting
  | _ => none

def bfHookFromNfHook : BfNfInetHook → BfHook
  | .preRouting => .nfPreRouting
  | .localIn => .nfLocalIn
  | .forward => .nfForward
  | .localOut => .nfLocalOut
  | .postRouting => .nfPostRouting

def bfNfHookToStr : BfNfInetHook → String
  | .preRouting => "nf_prerouting"
  | .localIn => "nf_input"
  | .forward => "nf_forward"
  | .localOut => "nf_output"
  | .postRouting => "nf_postrouting"

@[simp] theorem bfHookToNfHook_from (hook : BfNfInetHook) :
    bfHookToNfHook (bfHookFromNfHook hook) = some hook := by
  cases hook <;> rfl

@[simp] theorem bfHookToFlavor_from (hook : BfNfInetHook) :
    bfHookToFlavor (bfHookFromNfHook hook) = .nf := by
  cases hook <;> rfl

/-! ## Options -/

structure BfHookopts where
  ifindex : Option (BitVec 32) := none
  cgpath : Option String := none
  family : Option (BitVec 32) := none
  priorities : Option (BitVec 32 × BitVec 32) := none
  deriving DecidableEq, Repr

/-- `hookopts->priorities[0]` and `hookopts->priorities[1]` -/
def BfHookopts.prios (opts : BfHookopts) : BitVec 32 × BitVec 32 := opts.priorities.getD (0, 0)

inductive BfHookoptsType where
  | ifindex | cgpath | family | priorities
  deriving DecidableEq, Repr

def bfHookoptsIsUsed (opts : BfHookopts) : BfHookoptsType → Bool
  | .ifindex => opts.ifindex.isSome
  | .cgpath => opts.cgpath.isSome
  | .family => opts.family.isSome
  | .priorities => opts.priorities.isSome

/-- `_bf_hookopts_ops[type].required_by`; no option is supported without being required. -/
def bfHookoptsIsRequired : BfHookoptsType → BfFlavor → Bool
  | .ifindex, flavor => flavor == .xdp || flavor == .tc
  | .cgpath, flavor => flavor == .cgroup
  | .family, flavor => flavor == .nf
  | .priorities, flavor => flavor == .nf

/-- `bf_hookopts_validate`: the first option that is missing or out of place. -/
def bfHookoptsValidate (opts : BfHookopts) (hook : BfHook) : Except Errno Unit :=
  [BfHookoptsType.ifindex, .cgpath, .family, .priorities].forM fun type =>
    let used := bfHookoptsIsUsed opts type
    let required := bfHookoptsIsRequired type (bfHookToFlavor hook)
    if required && !used then .error .einval
    else if used && !required then .error .enotsup
    else .ok ()

/-! ## Serialisation -/

/-- An option's node, nil when it is absent. -/
def bfWpackOpt {α : Type} (write : α → Pack) : Option α → Pack
  | none => .nil
  | some value => write value

/-- The inverse of `bfWpackOpt`. -/
def bfRpackOpt {α : Type} (read : Pack → Except Errno α) (node : Pack) : Except Errno (Option α) :=
  if bfRpackIsNil node then .ok none
  else do
    let value ← read node
    .ok (some value)

def bfWpackPriorities (priorities : BitVec 32 × BitVec 32) : Pack :=
  .arr [bfWpackInt priorities.1, bfWpackInt priorities.2]

def bfRpackPriorities (node : Pack) : Except Errno (BitVec 32 × BitVec 32) := do
  match ← bfRpackArray node with
  | [first, second] => do
      let p0 ← bfRpackInt first
      let p1 ← bfRpackInt second
      .ok (p0, p1)
  | _ => .error .einval

def bfHookoptsPack (opts : BfHookopts) : Pack :=
  .map [("ifindex", bfWpackOpt bfWpackInt opts.ifindex),
    ("cgpath", bfWpackOpt .str opts.cgpath),
    ("family", bfWpackOpt bfWpackUint opts.family),
    ("priorities", bfWpackOpt bfWpackPriorities opts.priorities)]

def bfHookoptsNewFromPack (node : Pack) : Except Errno BfHookopts := do
  let ifindex ← bfRpackKv (bfRpackOpt bfRpackInt) node "ifindex"
  let cgpath ← bfRpackKv (bfRpackOpt bfRpackStr) node "cgpath"
  let family ← bfRpackKv (bfRpackOpt (bfRpackUint 32)) node "family"
  let priorities ← bfRpackKv (bfRpackOpt bfRpackPriorities) node "priorities"
  .ok { ifindex, cgpath, family, priorities }

theorem bfRpackOpt_write {α : Type} {read : Pack → Except Errno α} {write : α → Pack}
    (present : ∀ value, bfRpackIsNil (write value) = false)
    (back : ∀ value, read (write value) = .ok value) (value : Option α) :
    bfRpackOpt read (bfWpackOpt write value) = .ok value := by
  cases value with
  | none => rfl
  | some value =>
      rw [bfWpackOpt, bfRpackOpt, present, if_neg Bool.false_ne_true, back]
      rfl

theorem bfRpackIsNil_int (value : BitVec 32) : bfRpackIsNil (bfWpackInt value) = false := by
  unfold bfWpackInt
  split <;> rfl

theorem bfRpackPriorities_write (priorities : BitVec 32 × BitVec 32) :
    bfRpackPriorities (bfWpackPriorities priorities) = .ok priorities := by
  simp [bfRpackPriorities, bfWpackPriorities, bfRpackArray]

/-- Options survive being saved and loaded. -/
theorem bfHookoptsNewFromPack_pack (opts : BfHookopts) :
    bfHookoptsNewFromPack (bfHookoptsPack opts) = .ok opts := by
  have ifindex := bfRpackOpt_write bfRpackIsNil_int bfRpackInt_write opts.ifindex
  have cgpath := @bfRpackOpt_write _ bfRpackStr Pack.str (fun _ => rfl) (fun _ => rfl) opts.cgpath
  have family := bfRpackOpt_write (fun _ => rfl) (bfRpackUint_write (w := 32) (by decide))
    opts.family
  have priorities := bfRpackOpt_write (fun _ => rfl) bfRpackPriorities_write opts.priorities
  simp [bfHookoptsNewFromPack, bfHookoptsPack, bfRpackKv, bfRpackKvNode, ifindex, cgpath, family,
    priorities]

end Bpfilter

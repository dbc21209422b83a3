/-
# Daemon.Save -- the saved form of codegens

What `bf_ctx_save` writes and what `bf_ctx_load` makes of it.  A loaded program mixes
three sources: the maps' dimensions, the printer messages, the image and the hook
options come from the file, the chain is rebuilt from its saved form, and the file
descriptors are opened from the pins of the chain's directory.

`CgenState` is a codegen in memory, with a kernel object in place of each file
descriptor.  `Sound` lists what the pins and the chain of a codegen must satisfy, and
`bfCgenNewFromPack_pack` says that it is then loaded as it was.

Enumerators are read unchecked; no file the daemon writes has one out of range, and
reading it has no meaning here.  Opening a chain's directory succeeds.
-/
import Bpfilter.Daemon.Priorities
import Bpfilter.Daemon.PinOwners
import Bpfilter.Lib.ChainPack

namespace Bpfilter

set_option autoImplicit false

open Ebpf (Byte)

/-! ## Maps -/

inductive BfMapType where
  | counters | printer | log | set
  deriving DecidableEq, Repr

/-- `enum bf_map_type` -/
def bfMapTypes : List BfMapType := [.counters, .printer, .log, .set]

inductive BfBpfMapType where
  | hash | array | lpmTrie | ringbuf
  deriving DecidableEq, Repr

def BfBpfMapType.code : BfBpfMapType → BitVec 32
  | .hash => 1
  | .array => 2
  | .lpmTrie => 11
  | .ringbuf => 27

def bfBpfMapTypeOf (code : BitVec 32) : Option BfBpfMapType :=
  [BfBpfMapType.hash, .array, .lpmTrie, .ringbuf].find? (·.code == code)

/-- `struct bf_map` -/
structure BfMap where
  name : String
  type : BfMapType
  bpfType : BfBpfMapType
  keySize : BitVec 64
  valueSize : BitVec 64
  nElems : BitVec 64
  fd : BpfObj
  deriving DecidableEq, Repr

/-- `_BF_LOG_MAP_SIZE`: a thousand records of 104 bytes, rounded up to a power of two. -/
def bfLogMapSize : Nat := 131072

/-- The length `bf_printer_assemble` returns: an empty printer has the empty string. -/
def bfPrinterAssembledSize (printer : BfPrinter) : Nat :=
  if bfPrinterTotalSize printer = 0 then 1 else bfPrinterTotalSize printer

/-- `cmap` of a loaded program: two counters more than rules. -/
def BfProg.cmap (prog : BfProg) : BfMap where
  name := "counters_map"
  type := .counters
  bpfType := .array
  keySize := 4
  valueSize := 16
  nElems := BitVec.ofNat 64 (prog.chain.rules.length + 2)
  fd := .cmap prog.id

/-- `pmap` of a loaded program: one value that holds all messages. -/
def BfProg.pmap (prog : BfProg) : BfMap where
  name := "printer_map"
  type := .printer
  bpfType := .array
  keySize := 4
  valueSize := BitVec.ofNat 64 (bfPrinterAssembledSize prog.code.printer)
  nElems := 1
  fd := .pmap prog.id

/-- `lmap` -/
def BfProg.lmap (prog : BfProg) : BfMap where
  name := "log_map"
  type := .log
  bpfType := .ringbuf
  keySize := 0
  valueSize := 0
  nElems := BitVec.ofNat 64 bfLogMapSize
  fd := .lmap prog.id

/-- `bf_map_new_from_set` for the set at an index, once the map is created. -/
def BfProg.setMap (prog : BfProg) (index : Nat) (set : BfSet) : BfMap where
  name := setMapName index
  type := .set
  bpfType := if set.useTrie then .lpmTrie else .hash
  keySize := BitVec.ofNat 64 set.elemSize
  valueSize := 1
  nElems := BitVec.ofNat 64 set.elems.length
  fd := .set prog.id index

/-- `sets` of a loaded program. -/
def BfProg.setMaps (prog : BfProg) : List BfMap := prog.chain.sets.mapIdx prog.setMap

def bfMapPack (map : BfMap) : Pack :=
  .map [("name", .str map.name),
    ("type", bfWpackInt (enumCode bfMapTypes map.type)),
    ("bpf_type", bfWpackInt map.bpfType.code),
    ("key_size", bfWpackUint map.keySize),
    ("value_size", bfWpackUint map.valueSize),
    ("n_elems", bfWpackUint map.nElems)]

/-- An enumerator in range. -/
def bfRpackEnum {α : Type} (decode : BitVec 32 → Option α) (node : Pack) (key : String) :
    Except GenErr α := do
  match decode (← orErrno (bfRpackKv bfRpackInt node key)) with
  | some value => .ok value
  | none => .error .undefined

/-- `bf_bpf_obj_get` of a pin in a directory. -/
def bfBpfObjGet (dir : Dir) (name : String) : Except Errno BpfObj :=
  match dir name with
  | some obj => .ok obj
  | none => .error .enoent

def bfMapNewFromPack (dir : Dir) (node : Pack) : Except GenErr BfMap := do
  let name ← orErrno (bfRpackKv bfRpackStr node "name")
  if name = "" then .error (.errno .einval)
  else do
    let type ← bfRpackEnum (enumOf bfMapTypes) node "type"
    let bpfType ← bfRpackEnum bfBpfMapTypeOf node "bpf_type"
    let keySize ← orErrno (bfRpackKv (bfRpackUint 64) node "key_size")
    let valueSize ← orErrno (bfRpackKv (bfRpackUint 64) node "value_size")
    let nElems ← orErrno (bfRpackKv (bfRpackUint 64) node "n_elems")
    if nElems = 0 then .error (.errno .einval)
    else do
      let fd ← orErrno (bfBpfObjGet dir name)
      .ok { name, type, bpfType, keySize, valueSize, nElems, fd }

/-! ## Printer messages -/

/-- `struct bf_printer_msg` -/
structure MsgState where
  offset : BitVec 64
  len : BitVec 64
  str : String
  deriving DecidableEq, Repr

def BfPrinterMsg.state (msg : BfPrinterMsg) : MsgState :=
  ⟨BitVec.ofNat 64 msg.offset, BitVec.ofNat 64 msg.len, msg.str⟩

def bfPrinterMsgPack (msg : MsgState) : Pack :=
  .map [("offset", bfWpackUint msg.offset), ("len", bfWpackUint msg.len), ("str", .str msg.str)]

def bfPrinterMsgNewFromPack (node : Pack) : Except Errno MsgState := do
  let offset ← bfRpackKv (bfRpackUint 64) node "offset"
  let len ← bfRpackKv (bfRpackUint 64) node "len"
  let str ← bfRpackKv bfRpackStr node "str"
  .ok ⟨offset, len, str⟩

def bfPrinterPack (msgs : List MsgState) : Pack := .map [("msgs", .arr (msgs.map bfPrinterMsgPack))]

def bfPrinterNewFromPack (node : Pack) : Except Errno (List MsgState) := do
  (← bfRpackKv bfRpackArray node "msgs").mapM bfPrinterMsgNewFromPack

/-! ## Programs -/

/-- `struct bf_link` -/
structure LinkState where
  hookopts : Option BfHookopts := none
  fd : Option BpfObj := none
  deriving DecidableEq, Repr

def BfLink.state (link : BfLink) : LinkState := ⟨link.hookopts, link.fd.map fun fd => .link fd.id⟩

/-- `struct bf_program` -/
structure ProgState where
  chain : BfChain
  cmap : BfMap
  pmap : BfMap
  lmap : BfMap
  sets : List BfMap
  link : LinkState
  printer : List MsgState
  img : List Byte
  imgSize : Nat
  progFd : BpfObj

def BfProg.state (prog : BfProg) : ProgState where
  chain := prog.chain
  cmap := prog.cmap
  pmap := prog.pmap
  lmap := prog.lmap
  sets := prog.setMaps
  link := prog.link.state
  printer := prog.code.printer.msgs.map BfPrinterMsg.state
  img := prog.code.img.flatMap Ebpf.BpfInsn.bytes
  imgSize := prog.code.img.length
  progFd := .prog prog.id

def bfProgramPack (prog : BfProg) : Pack :=
  .map [("cmap", bfMapPack prog.cmap),
    ("pmap", bfMapPack prog.pmap),
    ("lmap", bfMapPack prog.lmap),
    ("sets", .arr (prog.setMaps.map bfMapPack)),
    ("link", bfLinkPack prog.link),
    ("printer", bfPrinterPack (prog.code.printer.msgs.map BfPrinterMsg.state)),
    ("img", .bin (prog.code.img.flatMap Ebpf.BpfInsn.bytes))]

/-- `bf_link_new_from_pack` with the directory open. -/
def bfLinkRestore (dir : Dir) (node : Pack) : Except Errno LinkState := do
  let name ← bfRpackKv bfRpackStr node "name"
  let hookopts ← bfRpackKv (bfRpackOpt bfHookoptsNewFromPack) node "hookopts"
  let fd ← bfBpfObjGet dir name
  .ok { hookopts, fd := some fd }

/-- The link of a loaded program: without a pin it stays the unattached one of
`bf_program_new`. -/
def bfLinkRestoreOrNew (dir : Dir) (node : Pack) : Except Errno LinkState :=
  match bfLinkRestore dir node with
  | .ok link => .ok link
  | .error .enoent => .ok {}
  | .error e => .error e

/-- `bf_program_new_from_pack`; `bf_program_new` fails on a set without elements. -/
def bfProgramNewFromPack (chain : BfChain) (dir : Dir) (node : Pack) : Except GenErr ProgState := do
  if hasEmptySet chain then .error (.errno .einval)
  else do
    let cmap ← bfMapNewFromPack dir (← orErrno (bfRpackKvNode node "cmap"))
    let pmap ← bfMapNewFromPack dir (← orErrno (bfRpackKvNode node "pmap"))
    let lmap ← bfMapNewFromPack dir (← orErrno (bfRpackKvNode node "lmap"))
    let sets ← (← orErrno (bfRpackKv bfRpackArray node "sets")).mapM (bfMapNewFromPack dir)
    let link ← orErrno (bfLinkRestoreOrNew dir (← orErrno (bfRpackKvNode node "link")))
    let printer ← orErrno (bfPrinterNewFromPack (← orErrno (bfRpackKvNode node "printer")))
    let img ← orErrno (bfRpackKv bfRpackBin node "img")
    let progFd ← orErrno (bfBpfObjGet dir "bf_prog")
    .ok { chain, cmap, pmap, lmap, sets, link, printer, img, imgSize := img.length / 8, progFd }

/-! ## Codegens -/

/-- `enum bf_front` -/
def bfFronts : List BfFront := [.ipt, .nft, .cli]

/-- `struct bf_cgen` -/
structure CgenState where
  front : BfFront
  chain : BfChain
  program : Option ProgState

def BfCgen.state (cgen : BfCgen) : CgenState :=
  ⟨cgen.front, cgen.chain, cgen.program.map BfProg.state⟩

def bfCgenPack (cgen : BfCgen) : Pack :=
  .map [("front", bfWpackInt (enumCode bfFronts cgen.front)),
    ("chain", bfChainPack cgen.chain),
    ("program", bfWpackOpt bfProgramPack cgen.program)]

/-- `bf_chain_new_from_pack`, as a chain whose enumerators are in range. -/
def bfChainRestore (ndebug : Bool) (node : Pack) : Except GenErr BfChain := do
  match (← bfChainNewFromPack ndebug node).toChain with
  | some chain => .ok chain
  | none => .error .undefined

/-- `bf_cgen_new_from_pack` -/
def bfCgenNewFromPack (ndebug : Bool) (pins : String → Dir) (node : Pack) :
    Except GenErr CgenState := do
  let front ← bfRpackEnum (enumOf bfFronts) node "front"
  let chain ← bfChainRestore ndebug (← orErrno (bfRpackKvNode node "chain"))
  if !bfChainValidate chain then .error (.errno .einval)
  else do
    let child ← orErrno (bfRpackKvNode node "program")
    if bfRpackIsNil child then .ok ⟨front, chain, none⟩
    else do
      let program ← bfProgramNewFromPack chain (pins chain.name) child
      .ok ⟨front, chain, some program⟩

/-! ## Names of pins -/

theorem setMapName_toList (index : Nat) : (setMapName index).toList =
    ['s', 'e', 't', '_', '0', '0', Nat.digitChar (index % 256 / 16), Nat.digitChar (index % 16)] := by
  simp [setMapName]

theorem digitChar_inj : ∀ i < 16, ∀ j < 16, Nat.digitChar i = Nat.digitChar j → i = j := by decide

theorem setMapName_inj {i j : Nat} (small : i < 256) (small' : j < 256)
    (same : setMapName i = setMapName j) : i = j := by
  have chars := congrArg String.toList same
  rw [setMapName_toList, setMapName_toList] at chars
  simp only [List.cons.injEq, true_and, and_true] at chars
  have high := digitChar_inj _ (by omega) _ (by omega) chars.1
  have low := digitChar_inj _ (by omega) _ (by omega) chars.2
  omega

theorem lookup_of_nodup {α β : Type} [DecidableEq α] {list : List (α × β)} {key : α} {value : β}
    (nodup : (list.map Prod.fst).Nodup) (mem : (key, value) ∈ list) :
    list.lookup key = some value := by
  induction list with
  | nil => cases mem
  | cons head rest ih =>
      obtain ⟨first, obj⟩ := head
      obtain ⟨fresh, nodup⟩ := List.nodup_cons.mp nodup
      rw [List.lookup_cons]
      obtain same | later := List.mem_cons.mp mem
      · cases same
        simp
      · have other : key ≠ first := by
          rintro rfl
          exact fresh (List.mem_map.mpr ⟨_, later, rfl⟩)
        rw [beq_false_of_ne other]
        exact ih nodup later

/-- The names of a program's pins: the fixed ones, those of the sets and that of the link. -/
theorem BfProg.pinList_fst (prog : BfProg) : prog.pinList.map Prod.fst =
    ["bf_prog", "counters_map", "printer_map", "log_map"] ++
      (List.range prog.chain.sets.length).map setMapName ++
      if prog.link.hookopts.isSome then ["bf_link"] else [] := by
  rw [BfProg.pinList, BfProg.setPins, List.map_append, List.map_append, List.map_map]
  congr 1
  split <;> rfl

theorem setMapName_ne {index : Nat} {name : String} (other : name.toList.head? ≠ some 's') :
    setMapName index ≠ name := by
  rintro rfl
  rw [setMapName_toList] at other
  exact other rfl

theorem setMapNames_nodup {n : Nat} (few : n ≤ 256) : ((List.range n).map setMapName).Nodup := by
  refine List.Nodup.map_on ?_ List.nodup_range
  intro i mem j mem' same
  rw [List.mem_range] at mem mem'
  exact setMapName_inj (by omega) (by omega) same

/-- With at most 256 sets the names of a program's pins are distinct. -/
theorem BfProg.pinList_nodup {prog : BfProg} (few : prog.chain.sets.length ≤ 256) :
    (prog.pinList.map Prod.fst).Nodup := by
  have sets := setMapNames_nodup few
  rw [pinList_fst, List.nodup_append, List.nodup_append]
  refine ⟨⟨by decide, sets, ?_⟩, by split <;> decide, ?_⟩
  · have others : ∀ fixed ∈ ["bf_prog", "counters_map", "printer_map", "log_map"],
        fixed.toList.head? ≠ some 's' := by
      decide
    intro fixed mem name mem' same
    obtain ⟨index, -, rfl⟩ := List.mem_map.mp mem'
    exact setMapName_ne (others fixed mem) same.symm
  · intro name mem link mem' same
    split at mem'
    · cases List.mem_singleton.mp mem'
      subst same
      obtain mem | mem := List.mem_append.mp mem
      · revert mem
        decide
      · obtain ⟨index, -, named⟩ := List.mem_map.mp mem
        exact setMapName_ne (by decide) named
    · cases mem'

/-- Each pin of a program is found under its name. -/
theorem BfProg.pinDir_of_mem {prog : BfProg} (few : prog.chain.sets.length ≤ 256) {name : String}
    {obj : Option BpfObj} (mem : (name, obj) ∈ prog.pinList) : prog.pinDir name = obj := by
  rw [BfProg.pinDir, lookup_of_nodup (prog.pinList_nodup few) mem]
  rfl

theorem BfProg.pinDir_unlinked {prog : BfProg} (detached : prog.link.hookopts = none) :
    prog.pinDir "bf_link" = none := by
  have absent : prog.pinList.lookup "bf_link" = none := by
    rw [List.lookup_eq_none_iff]
    intro entry mem
    have named := List.mem_map_of_mem (f := Prod.fst) mem
    rw [pinList_fst, detached, Option.isSome_none, if_neg Bool.false_ne_true, List.append_nil,
      List.mem_append] at named
    rw [bne_iff_ne]
    intro same
    rw [← same] at named
    obtain named | named := named
    · revert named
      decide
    · obtain ⟨index, -, named⟩ := List.mem_map.mp named
      exact setMapName_ne (by decide) named
  rw [BfProg.pinDir, absent]
  rfl

/-- Pinning under distinct names that are free succeeds. -/
theorem pinAll_works {fails : Nat → Option Errno} (works : ∀ n, fails n = none)
    {list : List (String × Option BpfObj)} {dir : Dir} (nodup : (list.map Prod.fst).Nodup)
    (objs : ∀ entry ∈ list, entry.2.isSome = true) (free : ∀ entry ∈ list, dir entry.1 = none) :
    (pinAll fails list dir).1 = none := by
  induction list generalizing dir with
  | nil => rfl
  | cons head rest ih =>
      obtain ⟨name, obj⟩ := head
      obtain ⟨fresh, distinct⟩ := List.nodup_cons.mp nodup
      obtain ⟨obj, rfl⟩ := Option.isSome_iff_exists.mp (objs _ List.mem_cons_self)
      have unused : dir name = none := free _ List.mem_cons_self
      have pinned : bfBpfObjPin name (some obj) (fails rest.length) dir =
          .ok fun name' => if name' = name then some obj else dir name' := by
        simp [bfBpfObjPin, unused, works]
      rw [pinAll, pinned]
      apply ih distinct
      · intro entry mem
        exact objs entry (List.mem_cons_of_mem _ mem)
      · intro entry mem
        have other : entry.1 ≠ name := by
          rintro rfl
          exact fresh (List.mem_map.mpr ⟨_, mem, rfl⟩)
        rw [if_neg other]
        exact free entry (List.mem_cons_of_mem _ mem)

/-- A program whose link is whole is pinned completely. -/
theorem BfProg.pin_works {fails : Nat → Option Errno} (works : ∀ n, fails n = none) {prog : BfProg}
    (few : prog.chain.sets.length ≤ 256)
    (whole : prog.link.hookopts.isSome = true → prog.link.fd.isSome = true) :
    (pinAll fails prog.pinList .empty).1 = none := by
  apply pinAll_works works (prog.pinList_nodup few)
  · intro entry mem
    simp only [BfProg.pinList, List.mem_append, List.mem_cons, List.not_mem_nil, or_false] at mem
    obtain (mem | mem) | mem := mem
    · obtain rfl | rfl | rfl | rfl := mem <;> rfl
    · obtain ⟨index, -, rfl⟩ := List.mem_map.mp mem
      rfl
    · split at mem
      · rename_i linked
        cases List.mem_singleton.mp mem
        rw [Option.isSome_map]
        exact whole linked
      · cases mem
  · intro entry _
    rfl

/-! ## Loading what was saved -/

theorem bfBpfMapTypeOf_code (type : BfBpfMapType) : bfBpfMapTypeOf type.code = some type := by
  cases type <;> rfl

theorem bfMapType_back (type : BfMapType) :
    enumOf bfMapTypes (enumCode bfMapTypes type) = some type := by
  cases type <;> rfl

theorem bfFront_back (front : BfFront) : enumOf bfFronts (enumCode bfFronts front) = some front := by
  cases front <;> rfl

/-- A map is loaded as it was when its pin is there. -/
theorem bfMapNewFromPack_pack {dir : Dir} {map : BfMap} (named : map.name ≠ "")
    (elems : map.nElems ≠ 0) (pinned : dir map.name = some map.fd) :
    bfMapNewFromPack dir (bfMapPack map) = .ok map := by
  simp [bfMapNewFromPack, bfMapPack, bfRpackKv, bfRpackKvNode, orErrno, bfRpackStr, bfRpackEnum,
    bfBpfMapTypeOf_code, bfMapType_back, bfBpfObjGet, named, pinned]
  exact elems

theorem bfPrinterNewFromPack_pack (msgs : List MsgState) :
    bfPrinterNewFromPack (bfPrinterPack msgs) = .ok msgs := by
  have back : (msgs.map bfPrinterMsgPack).mapM bfPrinterMsgNewFromPack = .ok msgs := by
    have one : ∀ msg ∈ msgs, bfPrinterMsgNewFromPack (bfPrinterMsgPack msg) = pure msg := by
      intro msg _
      simp [bfPrinterMsgNewFromPack, bfPrinterMsgPack, bfRpackKv, bfRpackKvNode, bfRpackStr]
      rfl
    rw [mapM_write msgs one, List.map_id']
    rfl
  simp [bfPrinterNewFromPack, bfPrinterPack, bfRpackKv, bfRpackKvNode, bfRpackArray, back,
    -List.mapM_map]

theorem bfLinkRestoreOrNew_pack {dir : Dir} {link : BfLink}
    (pinned : dir "bf_link" = link.fd.map fun fd => .link fd.id)
    (whole : link.hookopts.isSome = link.fd.isSome) :
    bfLinkRestoreOrNew dir (bfLinkPack link) = .ok link.state := by
  have hookopts := bfRpackOpt_write (fun _ => rfl) bfHookoptsNewFromPack_pack link.hookopts
  have loaded : bfLinkRestore dir (bfLinkPack link) =
      (bfBpfObjGet dir "bf_link").map fun fd => { hookopts := link.hookopts, fd := some fd } := by
    simp [bfLinkRestore, bfLinkPack, bfRpackKv, bfRpackKvNode, bfRpackStr, hookopts]
    cases bfBpfObjGet dir "bf_link" <;> rfl
  cases running : link.fd with
  | none =>
      have absent : bfBpfObjGet dir "bf_link" = .error .enoent := by
        simp [bfBpfObjGet, pinned, running]
      have detached : link.hookopts = none := by simpa [running] using whole
      rw [bfLinkRestoreOrNew, loaded, absent, BfLink.state, running, detached]
      rfl
  | some fd =>
      have present : bfBpfObjGet dir "bf_link" = .ok (.link fd.id) := by
        simp [bfBpfObjGet, pinned, running]
      rw [bfLinkRestoreOrNew, loaded, present, BfLink.state, running]
      rfl

/-- The lists of a chain are short enough for their sizes to be `size_t` values. -/
structure BfChain.Countable (chain : BfChain) : Prop where
  rules : chain.rules.length + 2 < 2 ^ 64
  sets : ∀ set ∈ chain.sets, set.elems.length < 2 ^ 64

theorem ofNat_ne_zero {n : Nat} (positive : 0 < n) (small : n < 2 ^ 64) : BitVec.ofNat 64 n ≠ 0 := by
  intro zero
  have nat := congrArg BitVec.toNat zero
  rw [BitVec.toNat_ofNat, Nat.mod_eq_of_lt small] at nat
  exact positive.ne' nat

theorem flatMap_bytes_length (img : List Ebpf.BpfInsn) :
    (img.flatMap Ebpf.BpfInsn.bytes).length = 8 * img.length := by
  induction img with
  | nil => rfl
  | cons insn rest ih =>
      rw [List.flatMap_cons, List.length_append, ih, List.length_cons, Nat.mul_succ, Nat.add_comm]
      rfl

section Program

variable {prog : BfProg}

/-- The maps of the sets are loaded as they were. -/
theorem setMaps_back (few : prog.chain.sets.length ≤ 256) (countable : prog.chain.Countable)
    (filled : hasEmptySet prog.chain = false) :
    (prog.setMaps.map bfMapPack).mapM (bfMapNewFromPack prog.pinDir) = .ok prog.setMaps := by
  have one : ∀ map ∈ prog.setMaps, bfMapNewFromPack prog.pinDir (bfMapPack map) = pure map := by
    intro map mem
    obtain ⟨index, inside, rfl⟩ := List.mem_mapIdx.mp mem
    have member := List.getElem_mem inside
    have elems : prog.chain.sets[index].elems ≠ [] := by
      intro empty
      have found : hasEmptySet prog.chain = true :=
        List.any_eq_true.mpr ⟨_, member, by rw [empty]; rfl⟩
      rw [filled] at found
      cases found
    refine bfMapNewFromPack_pack (setMapName_ne (by decide)) ?_ ?_
    · exact ofNat_ne_zero (List.length_pos_iff.mpr elems) (countable.sets _ member)
    · apply BfProg.pinDir_of_mem few
      refine List.mem_append_left _ (List.mem_append_right _ ?_)
      exact List.mem_map.mpr ⟨index, List.mem_range.mpr inside, rfl⟩
  rw [mapM_write _ one, List.map_id']
  rfl

theorem pinDir_link_back (few : prog.chain.sets.length ≤ 256)
    (whole : prog.link.hookopts.isSome = prog.link.fd.isSome) :
    prog.pinDir "bf_link" = prog.link.fd.map fun fd => .link fd.id := by
  cases present : prog.link.hookopts with
  | none =>
      have closed : prog.link.fd = none := by simpa [present] using whole
      rw [BfProg.pinDir_unlinked present, closed]
      rfl
  | some opts =>
      apply BfProg.pinDir_of_mem few
      apply List.mem_append_right
      rw [present]
      exact List.mem_cons_self

/-- A program is loaded as it was when its directory holds its pins. -/
theorem bfProgramNewFromPack_pack (few : prog.chain.sets.length ≤ 256)
    (countable : prog.chain.Countable) (filled : hasEmptySet prog.chain = false)
    (whole : prog.link.hookopts.isSome = prog.link.fd.isSome) :
    bfProgramNewFromPack prog.chain prog.pinDir (bfProgramPack prog) = .ok prog.state := by
  have pinned {name : String} {obj : BpfObj} (mem : (name, some obj) ∈
      [("bf_prog", some (.prog prog.id)), ("counters_map", some (.cmap prog.id)),
        ("printer_map", some (.pmap prog.id)), ("log_map", some (BpfObj.lmap prog.id))]) :
      prog.pinDir name = some obj :=
    BfProg.pinDir_of_mem few (List.mem_append_left _ (List.mem_append_left _ mem))
  have cmap : bfMapNewFromPack prog.pinDir (bfMapPack prog.cmap) = .ok prog.cmap := by
    apply bfMapNewFromPack_pack (show "counters_map" ≠ "" by decide)
    · exact ofNat_ne_zero (by omega) countable.rules
    · exact pinned (by simp [BfProg.cmap])
  have pmap : bfMapNewFromPack prog.pinDir (bfMapPack prog.pmap) = .ok prog.pmap := by
    apply bfMapNewFromPack_pack (show "printer_map" ≠ "" by decide)
    · exact show (1 : BitVec 64) ≠ 0 by decide
    · exact pinned (by simp [BfProg.pmap])
  have lmap : bfMapNewFromPack prog.pinDir (bfMapPack prog.lmap) = .ok prog.lmap := by
    apply bfMapNewFromPack_pack (show "log_map" ≠ "" by decide)
    · exact ofNat_ne_zero (by decide) (by decide)
    · exact pinned (by simp [BfProg.lmap])
  have sets := setMaps_back few countable filled
  have link := bfLinkRestoreOrNew_pack (pinDir_link_back few whole) whole
  have loaded : prog.pinDir "bf_prog" = some (.prog prog.id) := pinned (by simp)
  have fd : bfBpfObjGet prog.pinDir "bf_prog" = .ok (.prog prog.id) := by
    rw [bfBpfObjGet, loaded]
  have size : (prog.code.img.flatMap Ebpf.BpfInsn.bytes).length / 8 = prog.code.img.length := by
    rw [flatMap_bytes_length, Nat.mul_div_cancel_left _ (by decide)]
  simp [bfProgramNewFromPack, bfProgramPack, bfRpackKv, bfRpackKvNode, bfRpackArray, bfRpackBin,
    orErrno, filled, cmap, pmap, lmap, sets, link, bfPrinterNewFromPack_pack, fd, size,
    BfProg.state, -List.mapM_map, -List.length_flatMap]

end Program

/-- What a codegen needs to be loaded as it was. -/
structure BfCgen.Restorable (ndebug : Bool) (pins : String → Dir) (cgen : BfCgen) : Prop where
  decoded : cgen.chain.Decoded ndebug
  valid : bfChainValidate cgen.chain = true
  few : cgen.chain.sets.length ≤ 256
  countable : cgen.chain.Countable
  filled : hasEmptySet cgen.chain = false
  program : ∃ prog, cgen.program = some prog ∧ prog.chain = cgen.chain ∧
    prog.link.hookopts.isSome = prog.link.fd.isSome ∧ pins cgen.chain.name = prog.pinDir

theorem bfCgenNewFromPack_pack {ndebug : Bool} {pins : String → Dir} {cgen : BfCgen}
    (restorable : cgen.Restorable ndebug pins) :
    bfCgenNewFromPack ndebug pins (bfCgenPack cgen) = .ok cgen.state := by
  obtain ⟨prog, running, own, whole, dir⟩ := restorable.program
  obtain ⟨read, made⟩ := restorable.decoded.round_trip
  have chain : bfChainRestore ndebug (bfChainPack cgen.chain) = .ok cgen.chain := by
    simp [bfChainRestore, read, made]
  have program : bfProgramNewFromPack cgen.chain (pins cgen.chain.name) (bfProgramPack prog) =
      .ok prog.state := by
    rw [dir, ← own]
    apply bfProgramNewFromPack_pack
    · exact own ▸ restorable.few
    · exact own ▸ restorable.countable
    · exact own ▸ restorable.filled
    · exact whole
  have present : bfRpackIsNil (bfProgramPack prog) = false := rfl
  simp [bfCgenNewFromPack, bfCgenPack, bfRpackEnum, bfRpackKv, bfRpackKvNode, orErrno, bfFront_back,
    chain, restorable.valid, running, bfWpackOpt, present, program, BfCgen.state]

end Bpfilter

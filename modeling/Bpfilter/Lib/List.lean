/-
# Lib.List -- doubly linked lists in memory

The list of `libbpfilter/list.c`: nodes on the heap, and a record of the length, the first and
the last node.  An access to an address that holds no node ends the run.

`Represents` relates a list in memory to the nodes it holds; `Good` is the invariant for all the
lists of a program at once, whose nodes are apart.  One lemma for each operation says what it
does to the nodes of its list (`bfListAddHead_good`, `bfListDelete_good`, ...).

`bfListForeach` is the iteration macro, with the next node cached before the body runs.
`foreach_good` is its rule: a body may delete the node it is called for and append others; the
nodes of the list at the start are visited first, each of them once.
-/
import Bpfilter.Lib.Matcher
import Bpfilter.Linked.Segment
import Bpfilter.Proc.Hoare
import Mathlib.Logic.Function.Basic

namespace Bpfilter.Heap

set_option autoImplicit false

open Linked Hoare

variable {α β : Type}

/-! ## Lists -/

/-- `struct bf_list` -/
structure BfList where
  len : Nat
  head : Option Addr
  tail : Option Addr
  deriving DecidableEq, Repr

/-- `bf_list_default` -/
def bfListDefault : BfList := ⟨0, none, none⟩

/-- The memory, and the list variables of a program. -/
structure World (α : Type) where
  cells : Cells α
  lists : Nat → BfList

/-- An access to what is not a node. -/
inductive ListFault where
  | wild
  deriving DecidableEq, Repr

abbrev ListM (α β : Type) := Proc (World α) ListFault β

def readNode (a : Addr) : ListM α (Node α) := do
  match (← get).cells a with
  | some node => pure node
  | none => throw .wild

/-- `if (p) p->next = next` -/
def setNext (p next : Option Addr) : ListM α Unit :=
  match p with
  | none => pure ()
  | some a => do
      let _ ← readNode a
      modify fun w => { w with cells := w.cells.withNext p next }

/-- `if (p) p->prev = prev` -/
def setPrev (p prev : Option Addr) : ListM α Unit :=
  match p with
  | none => pure ()
  | some a => do
      let _ ← readNode a
      modify fun w => { w with cells := w.cells.withPrev p prev }

def setList (v : Nat) (change : BfList → BfList) : ListM α Unit :=
  modify fun w => { w with lists := Function.update w.lists v (change (w.lists v)) }

/-- `bf_list_node_new`; `calloc` returns an address that is not in use, or fails. -/
def bfListNodeNew (choice : Option Addr) (data : α) : ListM α (Option Addr) := do
  match choice with
  | none => pure none
  | some a =>
      if ((← get).cells a).isSome then pure none
      else do
        modify fun w => { w with cells := w.cells.alloc a ⟨data, none, none⟩ }
        pure (some a)

/-- `bf_list_node_free` -/
def bfListNodeFree (a : Addr) : ListM α Unit := do
  let _ ← readNode a
  modify fun w => { w with cells := w.cells.free a }

/-! ## Operations -/

/-- `bf_list_add_head` -/
def bfListAddHead (v : Nat) (choice : Option Addr) (data : α) : ListM α (Option Errno) := do
  match ← bfListNodeNew choice data with
  | none => pure (some .enomem)
  | some a => do
      let list := (← get).lists v
      setNext (some a) list.head
      setPrev list.head (some a)
      setList v fun list =>
        { len := list.len + 1, head := some a, tail := list.tail.or (some a) }
      pure none

/-- `bf_list_add_tail` -/
def bfListAddTail (v : Nat) (choice : Option Addr) (data : α) : ListM α (Option Errno) := do
  match ← bfListNodeNew choice data with
  | none => pure (some .enomem)
  | some a => do
      let list := (← get).lists v
      setPrev (some a) list.tail
      setNext list.tail (some a)
      setList v fun list =>
        { len := list.len + 1, head := list.head.or (some a), tail := some a }
      pure none

/-- `bf_list_push`; the caller's pointer is taken when it works. -/
def bfListPush (v : Nat) (choice : Option Addr) (data : α) :
    ListM α (Option Errno × Option α) := do
  match ← bfListAddTail v choice data with
  | some e => pure (some e, some data)
  | none => pure (none, none)

/-- `bf_list_delete` -/
def bfListDelete (v : Nat) (a : Addr) : ListM α Unit := do
  let node ← readNode a
  setList v fun list => if list.head = some a then { list with head := node.next } else list
  setList v fun list => if list.tail = some a then { list with tail := node.prev } else list
  setNext node.prev node.next
  let node ← readNode a
  setPrev node.next node.prev
  bfListNodeFree a
  setList v fun list => { list with len := list.len - 1 }

/-- `bf_list_move` -/
def bfListMove (v : Nat) : ListM α BfList := do
  let list := (← get).lists v
  setList v fun _ => bfListDefault
  pure list

/-! ## Iteration -/

/-- `node ? node->next : NULL` -/
def nextOf (node : Option Addr) : ListM α (Option Addr) :=
  match node with
  | none => pure none
  | some a => do pure (← readNode a).next

/-- The loop of `bf_list_foreach` from the `k`-th visit on, for at most `fuel` visits: whether it
has come to its end, and the data of each node visited with what the body returned. -/
def foreachFrom (body : Nat → Addr → ListM α β) :
    Nat → Nat → Option Addr → Option Addr → ListM α (Bool × List (α × β))
  | 0, _, node, _ => pure (node.isNone, [])
  | _ + 1, _, none, _ => pure (true, [])
  | fuel + 1, k, some a, next => do
      let data := (← readNode a).data
      let result ← body k a
      let after ← nextOf next
      let (ended, visits) ← foreachFrom body fuel (k + 1) next after
      pure (ended, (data, result) :: visits)

/-- `bf_list_foreach` -/
def bfListForeach (body : Nat → Addr → ListM α β) (fuel v : Nat) :
    ListM α (Bool × List (α × β)) := do
  let head := ((← get).lists v).head
  let next ← nextOf head
  foreachFrom body fuel 0 head next

/-- What the body of a loop does at one visit: nodes to append, whether to delete the current
node, and nodes to append afterwards. -/
structure Visit (α : Type) where
  before : List (Option Addr × α)
  delete : Bool
  after : List (Option Addr × α)

/-- Append what can be allocated; the data that was. -/
def addAll (v : Nat) : List (Option Addr × α) → ListM α (List α)
  | [] => pure []
  | (choice, data) :: rest => do
      match ← bfListAddTail v choice data with
      | some _ => addAll v rest
      | none => do
          let more ← addAll v rest
          pure (data :: more)

def deleteIf (delete : Bool) (v : Nat) (a : Addr) : ListM α Unit :=
  if delete then bfListDelete v a else pure ()

/-- A body; it returns whether the node was deleted, and the data appended. -/
def visitBody (v : Nat) (visit : Visit α) (a : Addr) : ListM α (Bool × List α) := do
  let before ← addAll v visit.before
  deleteIf visit.delete v a
  let after ← addAll v visit.after
  pure (visit.delete, before ++ after)

/-- `bf_list_clean`, whose loop is given `fuel` visits; whether it has come to its end. -/
def bfListClean (fuel v : Nat) : ListM α Bool := do
  let (ended, _) ← bfListForeach (fun _ a => bfListNodeFree a) fuel v
  setList v fun _ => bfListDefault
  pure ended

/-! ## Steps -/

theorem readNode_run {w : World α} {a : Addr} {node : Node α} (here : w.cells a = some node) :
    readNode a w = .ok (node, w) := by
  unfold readNode
  rw [bind_run (get_run w), here]
  rfl

theorem setNext_run {w : World α} {p next : Option Addr}
    (valid : ∀ a, p = some a → w.cells a ≠ none) :
    setNext p next w = .ok ((), { w with cells := w.cells.withNext p next }) := by
  cases p with
  | none =>
      have same : w.cells.withNext none next = w.cells := by
        funext b
        exact withNext_other (by simp)
      rw [same]
      rfl
  | some a =>
      obtain ⟨node, here⟩ := Option.ne_none_iff_exists'.mp (valid a rfl)
      unfold setNext
      dsimp only
      rw [bind_run (readNode_run here), modify_run]

theorem setPrev_run {w : World α} {p prev : Option Addr}
    (valid : ∀ a, p = some a → w.cells a ≠ none) :
    setPrev p prev w = .ok ((), { w with cells := w.cells.withPrev p prev }) := by
  cases p with
  | none =>
      have same : w.cells.withPrev none prev = w.cells := by
        funext b
        exact withPrev_other (by simp)
      rw [same]
      rfl
  | some a =>
      obtain ⟨node, here⟩ := Option.ne_none_iff_exists'.mp (valid a rfl)
      unfold setPrev
      dsimp only
      rw [bind_run (readNode_run here), modify_run]

theorem bfListNodeFree_run {w : World α} {a : Addr} {node : Node α}
    (here : w.cells a = some node) :
    bfListNodeFree a w = .ok ((), { w with cells := w.cells.free a }) := by
  unfold bfListNodeFree
  rw [bind_run (readNode_run here), modify_run]

theorem bfListNodeNew_run (w : World α) (choice : Option Addr) (data : α) :
    bfListNodeNew choice data w = .ok (none, w) ∨
      ∃ a, w.cells a = none ∧ bfListNodeNew choice data w =
        .ok (some a, { w with cells := w.cells.alloc a ⟨data, none, none⟩ }) := by
  cases choice with
  | none => exact Or.inl rfl
  | some a =>
      unfold bfListNodeNew
      dsimp only
      rw [bind_run (get_run w)]
      cases used : w.cells a with
      | none =>
          refine Or.inr ⟨a, used, ?_⟩
          rw [if_neg (by simp), bind_run (modify_run _ _), pure_run]
      | some node =>
          refine Or.inl ?_
          rw [if_pos (by simp), pure_run]

/-! ## Representation -/

/-- The list in memory holds these nodes. -/
structure Represents (cells : Cells α) (list : BfList) (nodes : List (Addr × α)) : Prop where
  seg : Seg cells none nodes none
  nodup : (addrs nodes).Nodup
  len : list.len = nodes.length
  head : list.head = first nodes none
  tail : list.tail = last none nodes

/-- Every list variable holds its nodes, and no two of them share any. -/
structure Good (w : World α) (nodes : Nat → List (Addr × α)) : Prop where
  lists : ∀ v, Represents w.cells (w.lists v) (nodes v)
  apart : ∀ u v, u ≠ v → ∀ a ∈ addrs (nodes u), a ∉ addrs (nodes v)

theorem represents_default (cells : Cells α) : Represents cells bfListDefault [] :=
  ⟨trivial, List.nodup_nil, rfl, rfl, rfl⟩

/-- Forwards the data is read in order, backwards in reverse, and there is as much of it as the
length says. -/
theorem Represents.walks {cells : Cells α} {list : BfList} {nodes : List (Addr × α)}
    (represents : Represents cells list nodes) :
    walkNext cells list.len list.head = nodes.map Prod.snd ∧
      walkPrev cells list.len list.tail = (nodes.map Prod.snd).reverse ∧
      list.len = (nodes.map Prod.snd).length := by
  rw [represents.head, represents.tail, represents.len, List.length_map]
  exact ⟨represents.seg.walkNext (Nat.le_refl _), represents.seg.walkPrev (Nat.le_refl _), rfl⟩

theorem Represents.frame {cells cells' : Cells α} {list : BfList} {nodes : List (Addr × α)}
    (represents : Represents cells list nodes) (same : ∀ a ∈ addrs nodes, cells' a = cells a) :
    Represents cells' list nodes :=
  { represents with seg := represents.seg.frame same }

theorem Good.allocated {w : World α} {nodes : Nat → List (Addr × α)} (good : Good w nodes)
    {v : Nat} {a : Addr} (mem : a ∈ addrs (nodes v)) : w.cells a ≠ none :=
  (good.lists v).seg.allocated mem

/-- What happens to one list does not concern the others. -/
theorem Good.change {w : World α} {nodes : Nat → List (Addr × α)} (good : Good w nodes) (v : Nat)
    {cells : Cells α} {list : BfList} {own : List (Addr × α)}
    (represents : Represents cells list own)
    (same : ∀ u, u ≠ v → ∀ a ∈ addrs (nodes u), cells a = w.cells a)
    (apart : ∀ u, u ≠ v → ∀ a ∈ addrs (nodes u), a ∉ addrs own) :
    Good ⟨cells, Function.update w.lists v list⟩ (Function.update nodes v own) := by
  constructor
  · intro u
    by_cases here : u = v
    · rw [here]
      simpa only [Function.update_self] using represents
    · simp only [Function.update_of_ne here]
      exact (good.lists u).frame (same u here)
  · intro u u' different a mem mem'
    by_cases here : u = v
    · rw [here, Function.update_self] at mem
      rw [Function.update_of_ne (fun there => different (here.trans there.symm))] at mem'
      exact apart u' (fun there => different (here.trans there.symm)) a mem' mem
    · rw [Function.update_of_ne here] at mem
      by_cases there : u' = v
      · rw [there, Function.update_self] at mem'
        exact apart u here a mem mem'
      · rw [Function.update_of_ne there] at mem'
        exact good.apart u u' different a mem mem'

/-! ## What the operations do -/

/-- The memory, with another record for one list. -/
def World.put (w : World α) (v : Nat) (cells : Cells α) (list : BfList) : World α :=
  ⟨cells, Function.update w.lists v list⟩

theorem setList_first (w : World α) (v : Nat) (cells : Cells α) (change : BfList → BfList) :
    setList v change ⟨cells, w.lists⟩ = .ok ((), w.put v cells (change (w.lists v))) := rfl

theorem setList_run (w : World α) (v : Nat) (cells : Cells α) (list : BfList)
    (change : BfList → BfList) :
    setList v change (w.put v cells list) = .ok ((), w.put v cells (change list)) := by
  unfold setList
  rw [modify_run]
  simp only [World.put, Function.update_self, Function.update_idem]

theorem bfListAddTail_good {w : World α} {nodes : Nat → List (Addr × α)} (good : Good w nodes)
    (v : Nat) (choice : Option Addr) (data : α) :
    bfListAddTail v choice data w = .ok (some .enomem, w) ∨
      ∃ a w', bfListAddTail v choice data w = .ok (none, w') ∧
        Good w' (Function.update nodes v (nodes v ++ [(a, data)])) := by
  unfold bfListAddTail
  rcases bfListNodeNew_run w choice data with made | ⟨a, unused, made⟩
  · refine Or.inl ?_
    rw [bind_run made]
    rfl
  refine Or.inr ?_
  have own := good.lists v
  have fresh : ∀ u, ∀ b ∈ addrs (nodes u), b ≠ a :=
    fun u b mem same => good.allocated mem (same ▸ unused)
  obtain ⟨cells, after, cellsEq⟩ : ∃ cells : Cells α, (∀ b, b ≠ a → cells b = w.cells b) ∧
      cells = (w.cells.alloc a ⟨data, none, none⟩).withPrev (some a) (w.lists v).tail := by
    refine ⟨_, ?_, rfl⟩
    intro b other
    rw [withPrev_other (fun same => other (Option.some.inj same).symm), alloc_other other]
  have here : cells a = some ⟨data, last none (nodes v), none⟩ := by
    rw [cellsEq, withPrev_self (alloc_self ..), own.tail]
  have linked : ∀ b, (w.lists v).tail = some b → b ∈ addrs (nodes v) := by
    intro b tail
    rw [own.tail] at tail
    exact mem_of_last tail
  have apart : (w.lists v).tail ≠ some a := fun tail => fresh v a (linked a tail) rfl
  refine ⟨a, w.put v (cells.withNext (w.lists v).tail (some a))
    ⟨(w.lists v).len + 1, (w.lists v).head.or (some a), some a⟩, ?_, ?_⟩
  · rw [bind_run made]
    dsimp only
    rw [bind_run (get_run _)]
    have valid : ∀ b, some a = some b →
        (w.cells.alloc a ⟨data, none, none⟩ : Cells α) b ≠ none := by
      rintro b ⟨rfl⟩
      rw [alloc_self]
      exact Option.some_ne_none _
    rw [bind_run (setPrev_run valid)]
    dsimp only
    rw [← cellsEq]
    have valid' : ∀ b, (w.lists v).tail = some b → cells b ≠ none := by
      intro b tail
      rw [after b (fresh v b (linked b tail))]
      exact good.allocated (linked b tail)
    rw [bind_run (setNext_run valid')]
    rw [bind_run (setList_first w v _ _)]
    rfl
  · have seg := (own.seg.frame fun b mem => after b (fresh v b mem)).withNext own.nodup (some a)
    rw [← own.tail] at seg
    refine good.change v ⟨?_, ?_, ?_, ?_, ?_⟩ ?_ ?_
    · refine seg_append.mpr ⟨seg, ?_, trivial⟩
      rw [withNext_other apart]
      exact here
    · rw [addrs_append, List.nodup_append]
      refine ⟨own.nodup, List.nodup_singleton _, ?_⟩
      intro b mem c mem' same
      rw [same, List.mem_singleton.mp mem'] at mem
      exact fresh v a mem rfl
    · simp only [own.len, List.length_append, List.length_singleton]
    · simp only [own.head]
      cases nodes v <;> rfl
    · rw [last_append]
      rfl
    · intro u other b mem
      have unlinked : (w.lists v).tail ≠ some b :=
        fun tail => good.apart u v other b mem (linked b tail)
      rw [withNext_other unlinked, after b (fresh u b mem)]
    · intro u other b mem mem'
      rw [addrs_append, List.mem_append] at mem'
      rcases mem' with mem' | mem'
      · exact good.apart u v other b mem mem'
      · exact fresh u b mem (List.mem_singleton.mp mem')

theorem bfListAddHead_good {w : World α} {nodes : Nat → List (Addr × α)} (good : Good w nodes)
    (v : Nat) (choice : Option Addr) (data : α) :
    bfListAddHead v choice data w = .ok (some .enomem, w) ∨
      ∃ a w', bfListAddHead v choice data w = .ok (none, w') ∧
        Good w' (Function.update nodes v ((a, data) :: nodes v)) := by
  unfold bfListAddHead
  rcases bfListNodeNew_run w choice data with made | ⟨a, unused, made⟩
  · refine Or.inl ?_
    rw [bind_run made]
    rfl
  refine Or.inr ?_
  have own := good.lists v
  have fresh : ∀ u, ∀ b ∈ addrs (nodes u), b ≠ a :=
    fun u b mem same => good.allocated mem (same ▸ unused)
  obtain ⟨cells, after, cellsEq⟩ : ∃ cells : Cells α, (∀ b, b ≠ a → cells b = w.cells b) ∧
      cells = (w.cells.alloc a ⟨data, none, none⟩).withNext (some a) (w.lists v).head := by
    refine ⟨_, ?_, rfl⟩
    intro b other
    rw [withNext_other (fun same => other (Option.some.inj same).symm), alloc_other other]
  have here : cells a = some ⟨data, none, first (nodes v) none⟩ := by
    rw [cellsEq, withNext_self (alloc_self ..), own.head]
  have linked : ∀ b, (w.lists v).head = some b → b ∈ addrs (nodes v) := by
    intro b head
    rw [own.head] at head
    exact mem_of_first head
  have apart : (w.lists v).head ≠ some a := fun head => fresh v a (linked a head) rfl
  refine ⟨a, w.put v (cells.withPrev (w.lists v).head (some a))
    ⟨(w.lists v).len + 1, some a, (w.lists v).tail.or (some a)⟩, ?_, ?_⟩
  · rw [bind_run made]
    dsimp only
    rw [bind_run (get_run _)]
    have valid : ∀ b, some a = some b →
        (w.cells.alloc a ⟨data, none, none⟩ : Cells α) b ≠ none := by
      rintro b ⟨rfl⟩
      rw [alloc_self]
      exact Option.some_ne_none _
    rw [bind_run (setNext_run valid)]
    dsimp only
    rw [← cellsEq]
    have valid' : ∀ b, (w.lists v).head = some b → cells b ≠ none := by
      intro b head
      rw [after b (fresh v b (linked b head))]
      exact good.allocated (linked b head)
    rw [bind_run (setPrev_run valid'), bind_run (setList_first w v _ _)]
    rfl
  · have seg := (own.seg.frame fun b mem => after b (fresh v b mem)).withPrev own.nodup (some a)
    rw [← own.head] at seg
    refine good.change v ⟨⟨?_, seg⟩, ?_, ?_, rfl, ?_⟩ ?_ ?_
    · rw [withPrev_other apart]
      exact here
    · rw [addrs_cons, List.nodup_cons]
      exact ⟨fun mem => fresh v a mem rfl, own.nodup⟩
    · simp only [own.len, List.length_cons]
    · simp only [own.tail]
      rw [last]
      rcases last_mem none (nodes v) with ⟨empty, -⟩ | ⟨b, -, ends⟩
      · rw [empty]
        rfl
      · rw [ends, ends]
        rfl
    · intro u other b mem
      have unlinked : (w.lists v).head ≠ some b :=
        fun head => good.apart u v other b mem (linked b head)
      rw [withPrev_other unlinked, after b (fresh u b mem)]
    · intro u other b mem mem'
      rcases List.mem_cons.mp mem' with same | mem'
      · exact fresh u b mem same
      · exact good.apart u v other b mem mem'

/-- The record of a list after one of its nodes is gone. -/
theorem without_ends {left right : List (Addr × α)} {a : Addr} {x : α}
    (nodup : (addrs (left ++ (a, x) :: right)).Nodup) :
    (if first (left ++ (a, x) :: right) none = some a then first right none
        else first (left ++ (a, x) :: right) none) = first (left ++ right) none ∧
      (if last none (left ++ (a, x) :: right) = some a then last none left
        else last none (left ++ (a, x) :: right)) = last none (left ++ right) := by
  rw [addrs_append, addrs_cons, List.nodup_append, List.nodup_cons] at nodup
  obtain ⟨-, ⟨notRight, -⟩, apart⟩ := nodup
  rw [first_append, first_append, last_append, last_append]
  constructor
  · rcases first_mem none left with ⟨empty, -⟩ | ⟨b, mem, starts⟩
    · rw [empty]
      exact if_pos rfl
    · rw [starts, starts, if_neg]
      intro same
      exact apart b mem a List.mem_cons_self (Option.some.inj same)
  · rw [last]
    rcases last_mem (some a) right with ⟨empty, -⟩ | ⟨b, mem, ends⟩
    · rw [empty]
      exact if_pos rfl
    · rw [ends, ends, if_neg]
      intro same
      exact notRight (Option.some.inj same ▸ mem)

/-- The two statements of `bf_list_delete` that move the ends. -/
theorem moveEnds_eq (list : BfList) (a : Addr) (next prev : Option Addr) :
    (if (if list.head = some a then { list with head := next } else list).tail = some a then
        { (if list.head = some a then { list with head := next } else list) with tail := prev }
      else if list.head = some a then { list with head := next } else list) =
      ⟨list.len, if list.head = some a then next else list.head,
        if list.tail = some a then prev else list.tail⟩ := by
  by_cases isHead : list.head = some a
  · simp only [if_pos isHead]
    split <;> rfl
  · simp only [if_neg isHead]
    split <;> rfl

theorem bfListDelete_good {w : World α} {nodes : Nat → List (Addr × α)} (good : Good w nodes)
    {v : Nat} {left right : List (Addr × α)} {a : Addr} {x : α}
    (split : nodes v = left ++ (a, x) :: right) :
    ∃ w', bfListDelete v a w = .ok ((), w') ∧
      Good w' (Function.update nodes v (left ++ right)) := by
  have own := good.lists v
  rw [split] at own
  obtain ⟨segLeft, here, segRight⟩ := seg_append.mp own.seg
  have nodup := own.nodup
  rw [addrs_append, addrs_cons, List.nodup_append, List.nodup_cons] at nodup
  obtain ⟨nodupLeft, ⟨notRight, nodupRight⟩, apart⟩ := nodup
  have notLeft : a ∉ addrs left := fun mem => apart a mem a List.mem_cons_self rfl
  have lastLeft : ∀ b, last none left = some b → b ∈ addrs left := fun b => mem_of_last
  have firstRight : ∀ b, first right none = some b → b ∈ addrs right := fun b => mem_of_first
  have valid : ∀ b, b ∈ addrs (nodes v) → w.cells b ≠ none := fun b mem => good.allocated mem
  rw [split, addrs_append, addrs_cons] at valid
  -- the three stores, and what they leave alone
  obtain ⟨cells₁, eq₁⟩ : ∃ cells, cells = w.cells.withNext (last none left) (first right none) :=
    ⟨_, rfl⟩
  have same₁ : ∀ b, last none left ≠ some b → cells₁ b = w.cells b := by
    intro b other
    rw [eq₁, withNext_other other]
  obtain ⟨cells₂, eq₂⟩ : ∃ cells, cells = cells₁.withPrev (first right none) (last none left) :=
    ⟨_, rfl⟩
  have same₂ : ∀ b, first right none ≠ some b → cells₂ b = cells₁ b := by
    intro b other
    rw [eq₂, withPrev_other other]
  have here₁ : cells₁ a = some ⟨x, last none left, first right none⟩ := by
    rw [same₁ a fun same => notLeft (lastLeft a same)]
    exact here
  have here₂ : cells₂ a = some ⟨x, last none left, first right none⟩ := by
    rw [same₂ a fun same => notRight (firstRight a same)]
    exact here₁
  obtain ⟨head, tail⟩ := without_ends own.nodup
  rw [← own.head] at head
  rw [← own.tail] at tail
  refine ⟨w.put v (cells₂.free a)
    ⟨(w.lists v).len - 1, first (left ++ right) none, last none (left ++ right)⟩, ?_, ?_⟩
  · unfold bfListDelete
    rw [bind_run (readNode_run here), bind_run (setList_first w v _ _),
      bind_run (setList_run w v _ _ _), moveEnds_eq]
    dsimp only
    rw [head, tail]
    have valid₁ : ∀ b, last none left = some b → w.cells b ≠ none :=
      fun b same => valid b (List.mem_append_left _ (lastLeft b same))
    rw [bind_run (setNext_run (w := w.put v w.cells _) valid₁)]
    unfold World.put
    dsimp only
    rw [← eq₁, bind_run (readNode_run here₁)]
    have valid₂ : ∀ b, first right none = some b → cells₁ b ≠ none := by
      intro b same
      have mem := firstRight b same
      rw [same₁ b fun ends => apart b (lastLeft b ends) b (List.mem_cons_of_mem _ mem) rfl]
      exact valid b (List.mem_append_right _ (List.mem_cons_of_mem _ mem))
    rw [bind_run (setPrev_run (w := ⟨cells₁, _⟩) valid₂)]
    dsimp only
    rw [← eq₂, bind_run (bfListNodeFree_run here₂)]
    exact setList_run w v _ _ _
  · have leftSeg : Seg (cells₂.free a) none left (first right none) := by
      have seg := segLeft.withNext nodupLeft (first right none)
      rw [← eq₁] at seg
      refine seg.frame ?_
      intro b mem
      have other : b ≠ a := fun same => notLeft (same ▸ mem)
      rw [free_other other, same₂ b]
      intro starts
      exact apart b mem b (List.mem_cons_of_mem _ (firstRight b starts)) rfl
    have rightSeg : Seg (cells₂.free a) (last none left) right none := by
      have moved : Seg cells₁ (some a) right none := segRight.frame fun b mem => same₁ b fun ends =>
        apart b (lastLeft b ends) b (List.mem_cons_of_mem _ mem) rfl
      have seg := moved.withPrev nodupRight (last none left)
      rw [← eq₂] at seg
      exact seg.frame fun b mem => free_other fun same => notRight (same ▸ mem)
    refine good.change v ⟨seg_append.mpr ⟨leftSeg, rightSeg⟩, ?_, ?_, rfl, rfl⟩ ?_ ?_
    · rw [addrs_append, List.nodup_append]
      exact ⟨nodupLeft, nodupRight, fun b mem c mem' =>
        apart b mem c (List.mem_cons_of_mem _ mem')⟩
    · rw [own.len]
      simp only [List.length_append, List.length_cons]
      omega
    · intro u other b mem
      have outside : b ∉ addrs (left ++ (a, x) :: right) := by
        rw [← split]
        exact good.apart u v other b mem
      simp only [addrs_append, addrs_cons, List.mem_append, List.mem_cons, not_or] at outside
      rw [free_other outside.2.1, same₂ b fun same => outside.2.2 (firstRight b same),
        same₁ b fun same => outside.1 (lastLeft b same)]
    · intro u other b mem mem'
      refine good.apart u v other b mem ?_
      rw [split, addrs_append, addrs_cons]
      rw [addrs_append, List.mem_append] at mem'
      exact List.mem_append.mpr (mem'.imp_right (List.mem_cons_of_mem _))

theorem bfListMove_good {w : World α} {nodes : Nat → List (Addr × α)} (good : Good w nodes)
    (dst src : Nat) :
    ∃ w', (do let list ← bfListMove src; setList dst fun _ => list : ListM α Unit) w =
        .ok ((), w') ∧
      Good w' (Function.update (Function.update nodes src []) dst (nodes src)) := by
  refine ⟨⟨w.cells, Function.update (Function.update w.lists src bfListDefault) dst
    (w.lists src)⟩, rfl, ?_, ?_⟩
  · intro v
    by_cases isDst : v = dst
    · rw [isDst]
      simpa only [Function.update_self] using good.lists src
    · simp only [Function.update_of_ne isDst]
      by_cases isSrc : v = src
      · rw [isSrc]
        simpa only [Function.update_self] using represents_default w.cells
      · simpa only [Function.update_of_ne isSrc] using good.lists v
  · -- whose nodes a variable has now
    have origin : ∀ v a, a ∈ addrs (Function.update (Function.update nodes src []) dst
        (nodes src) v) → (v = dst ∧ a ∈ addrs (nodes src)) ∨
          (v ≠ dst ∧ v ≠ src ∧ a ∈ addrs (nodes v)) := by
      intro v a mem
      by_cases isDst : v = dst
      · rw [isDst, Function.update_self] at mem
        exact Or.inl ⟨isDst, mem⟩
      · rw [Function.update_of_ne isDst] at mem
        by_cases isSrc : v = src
        · rw [isSrc, Function.update_self] at mem
          cases mem
        · rw [Function.update_of_ne isSrc] at mem
          exact Or.inr ⟨isDst, isSrc, mem⟩
    intro u v different a mem mem'
    rcases origin u a mem with ⟨isDst, mem⟩ | ⟨-, notSrc, mem⟩
    · rcases origin v a mem' with ⟨isDst', -⟩ | ⟨-, notSrc', mem'⟩
      · exact different (isDst.trans isDst'.symm)
      · exact good.apart src v (Ne.symm notSrc') a mem mem'
    · rcases origin v a mem' with ⟨-, mem'⟩ | ⟨-, -, mem'⟩
      · exact good.apart u src notSrc a mem mem'
      · exact good.apart u v different a mem mem'

/-! ## Loops -/

/-- The link read for the node after the current one. -/
theorem nextOf_run {w : World α} {p n : Option Addr} {nodes : List (Addr × α)}
    (seg : Seg w.cells p nodes n) (null : n = none) :
    nextOf (first nodes none) w = .ok (first nodes.tail none, w) := by
  cases nodes with
  | nil => rfl
  | cons node rest =>
      unfold nextOf first
      dsimp only
      rw [bind_run (readNode_run seg.1), null]
      rfl

/-- One visit, and the rest of the loop. -/
theorem foreachFrom_run {body : Nat → Addr → ListM α β} {w w' w'' : World α} {fuel k : Nat}
    {a : Addr} {next after : Option Addr} {node : Node α} {result : β} {ended : Bool}
    {visits : List (α × β)} (here : w.cells a = some node) (visited : body k a w = .ok (result, w'))
    (read : nextOf next w' = .ok (after, w'))
    (rest : foreachFrom body fuel (k + 1) next after w' = .ok ((ended, visits), w'')) :
    foreachFrom body (fuel + 1) k (some a) next w =
      .ok ((ended, (node.data, result) :: visits), w'') := by
  unfold foreachFrom
  rw [bind_run (readNode_run here), bind_run visited, bind_run read, bind_run rest]
  rfl

/-- The loop of `bf_list_clean` frees the nodes it goes over, and nothing else. -/
theorem foreachFrom_free {nodes : List (Addr × α)} {fuel k : Nat} {w : World α} {p : Option Addr}
    (seg : Seg w.cells p nodes none) (nodup : (addrs nodes).Nodup) (enough : nodes.length ≤ fuel) :
    ∃ visits cells, foreachFrom (fun _ a => bfListNodeFree a) fuel k (first nodes none)
        (first nodes.tail none) w = .ok ((true, visits), ⟨cells, w.lists⟩) ∧
      ∀ b, b ∉ addrs nodes → cells b = w.cells b := by
  induction nodes generalizing fuel k w p with
  | nil => cases fuel <;> exact ⟨[], w.cells, rfl, fun b _ => rfl⟩
  | cons node rest ih =>
      cases fuel with
      | zero => cases enough
      | succ fuel =>
          rw [addrs_cons, List.nodup_cons] at nodup
          have after : Seg (w.cells.free node.1) (some node.1) rest none :=
            seg.2.frame fun b mem => free_other fun same => nodup.1 (same ▸ mem)
          obtain ⟨visits, cells, ran, same⟩ := ih (k := k + 1)
            (w := ⟨w.cells.free node.1, w.lists⟩) after nodup.2 (Nat.le_of_succ_le_succ enough)
          refine ⟨(node.2, ()) :: visits, cells, ?_, ?_⟩
          · exact foreachFrom_run seg.1 (bfListNodeFree_run seg.1) (nextOf_run after rfl) ran
          · intro b outside
            rw [addrs_cons, List.mem_cons, not_or] at outside
            rw [same b outside.2]
            exact free_other outside.1

theorem bfListClean_good {w : World α} {nodes : Nat → List (Addr × α)} (good : Good w nodes)
    (v : Nat) {fuel : Nat} (enough : (nodes v).length ≤ fuel) :
    ∃ w', bfListClean fuel v w = .ok (true, w') ∧ Good w' (Function.update nodes v []) := by
  have own := good.lists v
  obtain ⟨visits, cells, ran, same⟩ := foreachFrom_free (k := 0) own.seg own.nodup enough
  refine ⟨w.put v cells bfListDefault, ?_, ?_⟩
  · have loop : bfListForeach (fun _ a => bfListNodeFree a) fuel v w =
        .ok ((true, visits), ⟨cells, w.lists⟩) := by
      unfold bfListForeach
      rw [bind_run (get_run w), own.head, bind_run (nextOf_run own.seg rfl)]
      exact ran
    unfold bfListClean
    rw [bind_run loop]
    rfl
  · refine good.change v (represents_default cells) ?_ ?_
    · exact fun u other b mem => same b (good.apart u v other b mem)
    · exact fun _ _ _ _ => List.not_mem_nil

/-- `w'` is `w` with `own` as the nodes of the list `v`. -/
abbrev Changed (w' : World α) (nodes : Nat → List (Addr × α)) (v : Nat)
    (own : List (Addr × α)) : Prop := Good w' (Function.update nodes v own)

theorem Changed.seg {w : World α} {nodes : Nat → List (Addr × α)} {v : Nat}
    {left right : List (Addr × α)} (changed : Changed w nodes v (left ++ right)) :
    Seg w.cells (last none left) right none := by
  have own := (Good.lists changed v).seg
  rw [Function.update_self] at own
  exact (seg_append.mp own).2

theorem addAll_good {w : World α} {nodes : Nat → List (Addr × α)} (v : Nat)
    (items : List (Option Addr × α)) {own : List (Addr × α)} (changed : Changed w nodes v own) :
    ∃ added w', addAll v items w = .ok (added.map Prod.snd, w') ∧
      Changed w' nodes v (own ++ added) ∧ added.length ≤ items.length := by
  induction items generalizing w own with
  | nil =>
      refine ⟨[], w, rfl, ?_, Nat.le_refl _⟩
      rw [List.append_nil]
      exact changed
  | cons item rest ih =>
      rcases bfListAddTail_good changed v item.1 item.2 with ran | ⟨a, w₁, ran, changed₁⟩
      · obtain ⟨added, w', ranRest, changed', count⟩ := ih changed
        refine ⟨added, w', ?_, changed', Nat.le_succ_of_le count⟩
        unfold addAll
        rw [bind_run ran]
        exact ranRest
      · rw [Function.update_self, Function.update_idem] at changed₁
        obtain ⟨added, w', ranRest, changed', count⟩ := ih changed₁
        refine ⟨(a, item.2) :: added, w', ?_, ?_, Nat.succ_le_succ count⟩
        · unfold addAll
          rw [bind_run ran]
          dsimp only
          rw [bind_run ranRest]
          rfl
        · rwa [List.append_assoc, List.singleton_append] at changed'

/-- How many nodes a body asks for at a visit. -/
def Visit.requests (visit : Visit α) : Nat := visit.before.length + visit.after.length

/-- What is left of the current node. -/
def remaining (delete : Bool) (node : Addr × α) : List (Addr × α) := if delete then [] else [node]

theorem visitBody_good {w : World α} {nodes : Nat → List (Addr × α)} {v : Nat}
    {kept rest : List (Addr × α)} {node : Addr × α} (visit : Visit α)
    (changed : Changed w nodes v (kept ++ node :: rest)) :
    ∃ added w', visitBody v visit node.1 w = .ok ((visit.delete, added.map Prod.snd), w') ∧
      Changed w' nodes v (kept ++ remaining visit.delete node ++ (rest ++ added)) ∧
      added.length ≤ visit.requests := by
  obtain ⟨before, w₁, ran₁, changed₁, count₁⟩ := addAll_good v visit.before changed
  obtain ⟨w₂, ran₂, changed₂⟩ : ∃ w₂, deleteIf visit.delete v node.1 w₁ = .ok ((), w₂) ∧
      Changed w₂ nodes v (kept ++ remaining visit.delete node ++ (rest ++ before)) := by
    cases delete : visit.delete with
    | false =>
        refine ⟨w₁, rfl, ?_⟩
        simpa only [remaining, Bool.false_eq_true, if_false, List.append_assoc,
          List.singleton_append, List.cons_append, List.nil_append] using changed₁
    | true =>
        have split : Function.update nodes v ((kept ++ node :: rest) ++ before) v =
            kept ++ (node.1, node.2) :: (rest ++ before) := by
          rw [Function.update_self, List.append_assoc, List.cons_append]
        obtain ⟨w₂, ran, good⟩ := bfListDelete_good changed₁ split
        rw [Function.update_idem] at good
        refine ⟨w₂, ran, ?_⟩
        simpa only [remaining, if_true, List.append_nil] using good
  obtain ⟨after, w₃, ran₃, changed₃, count₃⟩ := addAll_good v visit.after changed₂
  refine ⟨before ++ after, w₃, ?_, ?_, ?_⟩
  · unfold visitBody
    rw [bind_run ran₁, bind_run ran₂, bind_run ran₃, List.map_append]
    rfl
  · rwa [List.append_assoc (kept ++ remaining visit.delete node), List.append_assoc rest]
      at changed₃
  · rw [List.length_append]
    exact Nat.add_le_add count₁ count₃

/-! ## The rule of iteration -/

/-- What a loop has appended. -/
def appendedBy (visits : List (α × (Bool × List α))) : List α := visits.flatMap fun visit => visit.2.2

/-- The data of the visited nodes that were not deleted. -/
def undeletedBy (visits : List (α × (Bool × List α))) : List α :=
  (visits.filter fun visit => !visit.2.1).map Prod.fst

/-- How many nodes a body asks for at `n` visits from the `k`-th on. -/
def requestsFrom (acts : Nat → Visit α) : Nat → Nat → Nat
  | _, 0 => 0
  | k, n + 1 => (acts k).requests + requestsFrom acts (k + 1) n

/-- What a loop of at most `fuel` visits over `start` does, leaving `final`: it goes over what was
there and what is appended, in this order, and ends only behind what was there; it ends unless the
body appends ever more. -/
structure Looped (acts : Nat → Visit α) (k fuel : Nat) (start final : List α) (ended : Bool)
    (visits : List (α × (Bool × List α))) : Prop where
  visited : visits.map Prod.fst = (start ++ appendedBy visits).take visits.length
  left : final = undeletedBy visits ++ (start ++ appendedBy visits).drop visits.length
  whole : ended = true → start.length ≤ visits.length
  running : ended = false → visits.length = fuel ∧ fuel < start.length + (appendedBy visits).length
  asked : (appendedBy visits).length ≤ requestsFrom acts k fuel

theorem looped_nil (acts : Nat → Visit α) (k fuel : Nat) : Looped acts k fuel [] [] true [] where
  visited := rfl
  left := rfl
  whole _ := Nat.le_refl _
  running going := by cases going
  asked := Nat.zero_le _

theorem looped_stopped (acts : Nat → Visit α) (k : Nat) (x : α) (start : List α) :
    Looped acts k 0 (x :: start) (x :: start) false [] where
  visited := rfl
  left := by simp only [undeletedBy, appendedBy, List.filter_nil, List.map_nil, List.nil_append,
    List.flatMap_nil, List.append_nil, List.length_nil, List.drop_zero]
  whole ended := by cases ended
  running _ := ⟨rfl, Nat.succ_pos _⟩
  asked := Nat.le_refl _

/-- What a visit leaves of the current data. -/
def remains (delete : Bool) (x : α) : List α := if delete then [] else [x]

theorem undeletedBy_cons (x : α) (delete : Bool) (added : List α)
    (visits : List (α × (Bool × List α))) :
    undeletedBy ((x, (delete, added)) :: visits) = remains delete x ++ undeletedBy visits := by
  cases delete <;> rfl

theorem appendedBy_cons (x : α) (delete : Bool) (added : List α)
    (visits : List (α × (Bool × List α))) :
    appendedBy ((x, (delete, added)) :: visits) = added ++ appendedBy visits := rfl

/-- Visiting the last node: what is appended there is not visited. -/
theorem looped_last (acts : Nat → Visit α) (k fuel : Nat) (x : α) {added : List α}
    (count : added.length ≤ (acts k).requests) :
    Looped acts k (fuel + 1) [x] (remains (acts k).delete x ++ added) true
      [(x, ((acts k).delete, added))] where
  visited := rfl
  left := by
    rw [undeletedBy_cons, appendedBy_cons]
    simp only [undeletedBy, appendedBy, List.filter_nil, List.map_nil, List.append_nil,
      List.flatMap_nil, List.length_cons, List.length_nil, List.cons_append, List.nil_append,
      Nat.zero_add, List.drop_succ_cons, List.drop_zero]
  whole _ := Nat.le_refl _
  running going := by cases going
  asked := by
    rw [appendedBy_cons, requestsFrom]
    simp only [appendedBy, List.flatMap_nil, List.append_nil]
    omega

/-- Visiting a node that has another behind it. -/
theorem Looped.visit {acts : Nat → Visit α} {k fuel : Nat} {x : α} {rest added final : List α}
    {ended : Bool} {visits : List (α × (Bool × List α))}
    (looped : Looped acts (k + 1) fuel (rest ++ added) final ended visits)
    (count : added.length ≤ (acts k).requests) :
    Looped acts k (fuel + 1) (x :: rest) (remains (acts k).delete x ++ final) ended
      ((x, ((acts k).delete, added)) :: visits) := by
  have all : x :: rest ++ (added ++ appendedBy visits) =
      x :: (rest ++ added ++ appendedBy visits) := by
    rw [List.cons_append, List.append_assoc]
  refine ⟨?_, ?_, ?_, ?_, ?_⟩
  · rw [appendedBy_cons, all, List.map_cons, looped.visited, List.length_cons, List.take_succ_cons]
  · rw [looped.left, appendedBy_cons, all, undeletedBy_cons, List.length_cons,
      List.drop_succ_cons, List.append_assoc (remains (acts k).delete x)]
  · intro done
    have whole := looped.whole done
    rw [List.length_append] at whole
    simp only [List.length_cons]
    omega
  · intro going
    obtain ⟨all, more⟩ := looped.running going
    rw [List.length_append] at more
    rw [appendedBy_cons]
    simp only [List.length_cons, List.length_append]
    omega
  · have asked := looped.asked
    rw [appendedBy_cons, List.length_append, requestsFrom]
    omega

/-- The data of a list of nodes. -/
def dataOf (nodes : List (Addr × α)) : List α := nodes.map Prod.snd

theorem dataOf_append (left right : List (Addr × α)) :
    dataOf (left ++ right) = dataOf left ++ dataOf right := List.map_append

theorem dataOf_remaining (delete : Bool) (node : Addr × α) :
    dataOf (remaining delete node) = remains delete node.2 := by
  cases delete <;> rfl

/-- The loop from a node on. -/
theorem foreachFrom_good {nodes : Nat → List (Addr × α)} {v : Nat} (acts : Nat → Visit α)
    (fuel k : Nat) {w : World α} {kept rest : List (Addr × α)}
    (changed : Changed w nodes v (kept ++ rest)) :
    ∃ ended visits w' own final,
      foreachFrom (fun k a => visitBody v (acts k) a) fuel k (first rest none)
        (first rest.tail none) w = .ok ((ended, visits), w') ∧
      Changed w' nodes v own ∧ dataOf own = dataOf kept ++ final ∧
      Looped acts k fuel (dataOf rest) final ended visits := by
  induction fuel generalizing k w kept rest with
  | zero =>
      refine ⟨_, [], w, _, dataOf rest, rfl, changed, dataOf_append _ _, ?_⟩
      cases rest with
      | nil => exact looped_nil acts k 0
      | cons node more => exact looped_stopped acts k node.2 (dataOf more)
  | succ fuel ih =>
      cases rest with
      | nil =>
          exact ⟨true, [], w, _, [], rfl, changed, dataOf_append _ _, looped_nil acts k _⟩
      | cons node more =>
          obtain ⟨added, w₁, visited, changed₁, count⟩ := visitBody_good (acts k) changed
          have here := changed.seg.1
          have counted : (dataOf added).length ≤ (acts k).requests := by
            rwa [dataOf, List.length_map]
          cases more with
          | nil =>
              -- the next node was cached as null before the body ran
              have stop : foreachFrom (fun k a => visitBody v (acts k) a) fuel (k + 1) none none w₁ =
                  .ok ((true, []), w₁) := by cases fuel <;> rfl
              refine ⟨true, _, w₁, _, _, foreachFrom_run here visited rfl stop, changed₁, ?_,
                looped_last acts k fuel node.2 counted⟩
              rw [dataOf_append, dataOf_append, dataOf_remaining, List.nil_append, List.append_assoc]
              rfl
          | cons next more =>
              obtain ⟨ended, visits, w', own, final, ran, changed', data, looped⟩ :=
                ih (k + 1) changed₁
              have read := nextOf_run changed₁.seg rfl
              rw [dataOf_append] at looped
              refine ⟨ended, _, w', own, remains (acts k).delete node.2 ++ final,
                foreachFrom_run here visited read ran, changed', ?_, looped.visit counted⟩
              rw [data, dataOf_append, dataOf_remaining, List.append_assoc]

/-- When no appended node is deleted, what is left are the undeleted nodes that were there, and
the appended ones. -/
theorem Looped.left_appended {acts : Nat → Visit α} {k fuel : Nat} {start final : List α}
    {visits : List (α × (Bool × List α))} (looped : Looped acts k fuel start final true visits)
    (kept : ∀ visit ∈ visits.drop start.length, visit.2.1 = false) :
    final = undeletedBy (visits.take start.length) ++ appendedBy visits := by
  have whole := looped.whole rfl
  have parts : undeletedBy visits =
      undeletedBy (visits.take start.length) ++ undeletedBy (visits.drop start.length) := by
    unfold undeletedBy
    rw [← List.map_append, ← List.filter_append, List.take_append_drop]
  have later : undeletedBy (visits.drop start.length) =
      (appendedBy visits).take (visits.length - start.length) := by
    have all : (visits.drop start.length).filter (fun visit => !visit.2.1) =
        visits.drop start.length := List.filter_eq_self.mpr fun visit mem => by simp [kept visit mem]
    rw [undeletedBy, all, List.map_drop, looped.visited, List.take_append, List.drop_append,
      List.length_take, Nat.min_eq_right whole, Nat.sub_self, List.drop_zero,
      List.drop_of_length_le (by rw [List.length_take]; omega), List.nil_append]
  rw [looped.left, parts, later, List.drop_append, List.drop_of_length_le whole, List.nil_append,
    List.append_assoc, List.take_append_drop]

theorem bfListForeach_good {w : World α} {nodes : Nat → List (Addr × α)} (good : Good w nodes)
    (v : Nat) (acts : Nat → Visit α) (fuel : Nat) :
    ∃ ended visits w' own,
      bfListForeach (fun k a => visitBody v (acts k) a) fuel v w = .ok ((ended, visits), w') ∧
      Good w' (Function.update nodes v own) ∧
      Looped acts 0 fuel (dataOf (nodes v)) (dataOf own) ended visits := by
  have changed : Changed w nodes v ([] ++ nodes v) := by
    rw [List.nil_append, Changed, Function.update_eq_self]
    exact good
  have own := good.lists v
  obtain ⟨ended, visits, w', own', final, ran, changed', data, looped⟩ :=
    foreachFrom_good acts fuel 0 changed
  refine ⟨ended, visits, w', own', ?_, changed', ?_⟩
  · unfold bfListForeach
    rw [bind_run (get_run w), own.head, bind_run (nextOf_run own.seg rfl)]
    exact ran
  · rw [data]
    exact looped

/-! ## Runs -/

inductive ListOp (α : Type) where
  | addHead (v : Nat) (choice : Option Addr) (data : α)
  | addTail (v : Nat) (choice : Option Addr) (data : α)
  | push (v : Nat) (choice : Option Addr) (data : α)
  | delete (v index : Nat)
  | move (dst src : Nat)
  | clean (v : Nat)

/-- The lists in memory, with the data each of them stands for. -/
structure Tracked (α : Type) where
  world : World α
  seqs : Nat → List α

/-- `bf_list_default` for every variable, in any memory. -/
def Tracked.start (cells : Cells α) : Tracked α := ⟨⟨cells, fun _ => bfListDefault⟩, fun _ => []⟩

/-- Record the data of a list when the call that changes it works. -/
def tracked (call : ListM α (Option Errno)) (v : Nat) (data : List α) :
    Proc (Tracked α) ListFault Unit := fun s =>
  match call s.world with
  | .ok (none, world) => .ok ((), ⟨world, Function.update s.seqs v data⟩)
  | .ok (some _, world) => .ok ((), ⟨world, s.seqs⟩)
  | .error fault => .error fault

/-- The member node at an index. -/
def nodeAt (cells : Cells α) : Nat → Option Addr → Option Addr
  | _, none => none
  | 0, some a => some a
  | index + 1, some a => (cells a).bind fun node => nodeAt cells index node.next

/-- One call.  Only members are deleted; a `bf_list_clean` that goes on does not return. -/
def ListOp.call : ListOp α → Proc (Tracked α) ListFault Unit
  | .addHead v choice data => fun s =>
      tracked (bfListAddHead v choice data) v (data :: s.seqs v) s
  | .addTail v choice data => fun s =>
      tracked (bfListAddTail v choice data) v (s.seqs v ++ [data]) s
  | .push v choice data => fun s =>
      tracked (do pure (← bfListPush v choice data).1) v (s.seqs v ++ [data]) s
  | .delete v index => fun s =>
      match nodeAt s.world.cells index (s.world.lists v).head with
      | none => .ok ((), s)
      | some a =>
          tracked (do bfListDelete v a; pure none) v ((s.seqs v).eraseIdx index) s
  | .move dst src => fun s =>
      match (do let list ← bfListMove src; setList dst fun _ => list : ListM α Unit) s.world with
      | .ok (_, world) =>
          .ok ((), ⟨world, Function.update (Function.update s.seqs src []) dst (s.seqs src)⟩)
      | .error fault => .error fault
  | .clean v => fun s =>
      match bfListClean (s.world.lists v).len v s.world with
      | .ok (true, world) => .ok ((), ⟨world, Function.update s.seqs v []⟩)
      | .ok (false, _) => .error .wild
      | .error fault => .error fault

def runOps : List (ListOp α) → Proc (Tracked α) ListFault Unit
  | [] => pure ()
  | op :: rest => do
      op.call
      runOps rest

/-- Every list stands for the data of its nodes. -/
def Tracked.Sound (s : Tracked α) : Prop :=
  ∃ nodes, Good s.world nodes ∧ ∀ v, dataOf (nodes v) = s.seqs v

theorem dataOf_update {nodes : Nat → List (Addr × α)} {seqs : Nat → List α}
    (same : ∀ v, dataOf (nodes v) = seqs v) (v : Nat) {own : List (Addr × α)} {data : List α}
    (here : dataOf own = data) (u : Nat) :
    dataOf (Function.update nodes v own u) = Function.update seqs v data u := by
  by_cases isHere : u = v
  · rw [isHere, Function.update_self, Function.update_self]
    exact here
  · rw [Function.update_of_ne isHere, Function.update_of_ne isHere]
    exact same u

theorem tracked_works {call : ListM α (Option Errno)} {v : Nat} {data : List α} {s : Tracked α}
    {world : World α} (ran : call s.world = .ok (none, world)) :
    tracked call v data s = .ok ((), ⟨world, Function.update s.seqs v data⟩) := by
  unfold tracked
  rw [ran]

theorem tracked_fails {call : ListM α (Option Errno)} {v : Nat} {data : List α} {s : Tracked α}
    {e : Errno} (ran : call s.world = .ok (some e, s.world)) :
    tracked call v data s = .ok ((), s) := by
  unfold tracked
  rw [ran]

/-- The node at an index, and what is on either side of it. -/
theorem nodeAt_seg {cells : Cells α} {p : Option Addr} {nodes : List (Addr × α)} {index : Nat}
    {a : Addr} (seg : Seg cells p nodes none)
    (found : nodeAt cells index (first nodes none) = some a) :
    ∃ left x right, nodes = left ++ (a, x) :: right ∧ left.length = index := by
  induction nodes generalizing p index with
  | nil =>
      cases index <;> cases found
  | cons node rest ih =>
      cases index with
      | zero =>
          cases found
          exact ⟨[], node.2, rest, rfl, rfl⟩
      | succ index =>
          rw [first, nodeAt, seg.1] at found
          obtain ⟨left, x, right, split, length⟩ := ih seg.2 found
          refine ⟨node :: left, x, right, ?_, congrArg (· + 1) length⟩
          rw [split]
          rfl

theorem ListOp.call_sound (op : ListOp α) {s : Tracked α} (sound : s.Sound) :
    ∃ s', op.call s = .ok ((), s') ∧ s'.Sound := by
  obtain ⟨nodes, good, same⟩ := sound
  cases op with
  | addHead v choice data =>
      rcases bfListAddHead_good good v choice data with ran | ⟨a, w', ran, good'⟩
      · exact ⟨s, tracked_fails ran, nodes, good, same⟩
      · refine ⟨_, tracked_works ran, _, good', dataOf_update same v ?_⟩
        rw [← same v]
        rfl
  | addTail v choice data =>
      rcases bfListAddTail_good good v choice data with ran | ⟨a, w', ran, good'⟩
      · exact ⟨s, tracked_fails ran, nodes, good, same⟩
      · refine ⟨_, tracked_works ran, _, good', dataOf_update same v ?_⟩
        rw [dataOf_append, same v]
        rfl
  | push v choice data =>
      have pushed : ∀ {r : Option Errno} {w' : World α},
          bfListAddTail v choice data s.world = .ok (r, w') →
          (do pure (← bfListPush v choice data).1 : ListM α (Option Errno)) s.world =
            .ok (r, w') := by
        intro r w' ran
        cases r with
        | none =>
            have pushed : bfListPush v choice data s.world = .ok ((none, none), w') := bind_run ran
            exact bind_run pushed
        | some e =>
            have pushed : bfListPush v choice data s.world = .ok ((some e, some data), w') :=
              bind_run ran
            exact bind_run pushed
      rcases bfListAddTail_good good v choice data with ran | ⟨a, w', ran, good'⟩
      · exact ⟨s, tracked_fails (pushed ran), nodes, good, same⟩
      · refine ⟨_, tracked_works (pushed ran), _, good', dataOf_update same v ?_⟩
        rw [dataOf_append, same v]
        rfl
  | delete v index =>
      cases found : nodeAt s.world.cells index (s.world.lists v).head with
      | none => exact ⟨s, by simp only [ListOp.call, found], nodes, good, same⟩
      | some a =>
          have own := good.lists v
          have reached := found
          rw [own.head] at reached
          obtain ⟨left, x, right, split, length⟩ := nodeAt_seg own.seg reached
          obtain ⟨w', ran, good'⟩ := bfListDelete_good good split
          have deleted : (do bfListDelete v a; pure none : ListM α (Option Errno)) s.world =
              .ok (none, w') := bind_run ran
          refine ⟨⟨w', Function.update s.seqs v ((s.seqs v).eraseIdx index)⟩, ?_, _, good',
            dataOf_update same v ?_⟩
          · simp only [ListOp.call, found]
            exact tracked_works deleted
          · rw [← same v, split, ← length, dataOf_append, dataOf_append]
            have size : left.length = (dataOf left).length := (List.length_map _).symm
            rw [size, List.eraseIdx_append_of_length_le (Nat.le_refl _), Nat.sub_self]
            rfl
  | move dst src =>
      obtain ⟨w', ran, good'⟩ := bfListMove_good good dst src
      refine ⟨⟨w', Function.update (Function.update s.seqs src []) dst (s.seqs src)⟩, ?_, _, good',
        dataOf_update (dataOf_update same src rfl) dst (same src)⟩
      simp only [ListOp.call, ran]
  | clean v =>
      obtain ⟨w', ran, good'⟩ := bfListClean_good good v
        (Nat.le_of_eq (good.lists v).len.symm)
      refine ⟨⟨w', Function.update s.seqs v []⟩, ?_, _, good', dataOf_update same v rfl⟩
      simp only [ListOp.call, ran]

theorem runOps_sound (ops : List (ListOp α)) {s : Tracked α} (sound : s.Sound) :
    ∃ s', runOps ops s = .ok ((), s') ∧ s'.Sound := by
  induction ops generalizing s with
  | nil => exact ⟨s, rfl, sound⟩
  | cons op rest ih =>
      obtain ⟨s₁, ran, sound₁⟩ := op.call_sound sound
      obtain ⟨s', ranRest, sound'⟩ := ih sound₁
      refine ⟨s', ?_, sound'⟩
      unfold runOps
      rw [bind_run ran]
      exact ranRest

/-- The list `v` holds `data`: it is read forwards along the links from the head, and in reverse
backwards from the tail. -/
def Holding (w : World α) (v : Nat) (data : List α) : Prop :=
  (∃ nodes, Represents w.cells (w.lists v) nodes ∧ dataOf nodes = data) ∧
    walkNext w.cells (w.lists v).len (w.lists v).head = data ∧
    walkPrev w.cells (w.lists v).len (w.lists v).tail = data.reverse ∧
    (w.lists v).len = data.length

theorem Good.holding {w : World α} {nodes : Nat → List (Addr × α)} (good : Good w nodes) (v : Nat) :
    Holding w v (dataOf (nodes v)) :=
  ⟨⟨nodes v, good.lists v, rfl⟩, (good.lists v).walks⟩

/-- **Lists.**  Any sequence of operations returns, and every list holds the data its operations
say.  From there, a loop over a list whose body deletes current nodes and appends others runs
without a wild access: it visits the nodes that were there first, each once and in order, and
leaves the undeleted ones followed by the appended ones (those it did not delete in their turn);
it ends when the body appends finitely many, and the other lists stay as they are. -/
theorem lists_hold (cells : Cells α) (ops : List (ListOp α)) :
    ∃ s, runOps ops (Tracked.start cells) = .ok ((), s) ∧
      (∀ v, Holding s.world v (s.seqs v)) ∧
      ∀ (v : Nat) (acts : Nat → Visit α) (fuel : Nat),
        ∃ ended visits w' final,
          bfListForeach (fun k a => visitBody v (acts k) a) fuel v s.world =
            .ok ((ended, visits), w') ∧
          Looped acts 0 fuel (s.seqs v) final ended visits ∧
          (ended = true → (∀ visit ∈ visits.drop (s.seqs v).length, visit.2.1 = false) →
            final = undeletedBy (visits.take (s.seqs v).length) ++ appendedBy visits) ∧
          ((s.seqs v).length + requestsFrom acts 0 fuel ≤ fuel → ended = true) ∧
          Holding w' v final ∧ ∀ u, u ≠ v → Holding w' u (s.seqs u) := by
  have start : (Tracked.start cells).Sound :=
    ⟨fun _ => [], ⟨fun _ => represents_default cells, fun _ _ _ _ mem => absurd mem List.not_mem_nil⟩,
      fun _ => rfl⟩
  obtain ⟨s, ran, nodes, good, same⟩ := runOps_sound ops start
  refine ⟨s, ran, fun v => same v ▸ good.holding v, ?_⟩
  intro v acts fuel
  obtain ⟨ended, visits, w', own, loop, good', looped⟩ := bfListForeach_good good v acts fuel
  rw [same v] at looped
  refine ⟨ended, visits, w', dataOf own, loop, looped, ?_, ?_, ?_, ?_⟩
  · rintro rfl kept
    exact looped.left_appended kept
  · intro enough
    cases ended with
    | true => rfl
    | false =>
        have more := (looped.running rfl).2
        have asked := looped.asked
        omega
  · have holding := good'.holding v
    rwa [Function.update_self] at holding
  · intro u other
    have holding := good'.holding u
    rwa [Function.update_of_ne other, same u] at holding

end Bpfilter.Heap

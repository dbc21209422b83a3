/-
# Linked.Segment -- doubly linked nodes

Cells hold nodes with a link to either side.  `Seg cells p nodes n` says that `nodes` are
linked to each other in both directions, that the first one points back to `p` and the last
one on to `n`.  Segments are cut and joined by `seg_append`; `Seg.withNext` and `Seg.withPrev`
redirect the links at their ends, `Seg.frame` says that nothing else matters.

A walk along one of the links reads a segment forwards (`Seg.walkNext`) or backwards
(`Seg.walkPrev`).
-/
import Mathlib.Data.List.Induction
import Mathlib.Data.List.Nodup

namespace Linked

set_option autoImplicit false

variable {α : Type}

/-! ## Cells -/

abbrev Addr := Nat

structure Node (α : Type) where
  data : α
  prev : Option Addr
  next : Option Addr

/-- What each address holds, if it is allocated. -/
abbrev Cells (α : Type) := Addr → Option (Node α)

def Cells.alloc (cells : Cells α) (a : Addr) (node : Node α) : Cells α :=
  fun b => if b = a then some node else cells b

def Cells.free (cells : Cells α) (a : Addr) : Cells α := fun b => if b = a then none else cells b

/-- Redirect the link forwards of the node at `link`, if that is one. -/
def Cells.withNext (cells : Cells α) (link next : Option Addr) : Cells α :=
  fun b => if link = some b then (cells b).map fun node => { node with next } else cells b

/-- Redirect the link backwards. -/
def Cells.withPrev (cells : Cells α) (link prev : Option Addr) : Cells α :=
  fun b => if link = some b then (cells b).map fun node => { node with prev } else cells b

@[simp] theorem alloc_self (cells : Cells α) (a : Addr) (node : Node α) :
    cells.alloc a node a = some node := if_pos rfl

theorem alloc_other {cells : Cells α} {a b : Addr} {node : Node α} (other : b ≠ a) :
    cells.alloc a node b = cells b := if_neg other

theorem free_other {cells : Cells α} {a b : Addr} (other : b ≠ a) : cells.free a b = cells b :=
  if_neg other

theorem withNext_other {cells : Cells α} {link next : Option Addr} {b : Addr}
    (other : link ≠ some b) : cells.withNext link next b = cells b := if_neg other

theorem withPrev_other {cells : Cells α} {link prev : Option Addr} {b : Addr}
    (other : link ≠ some b) : cells.withPrev link prev b = cells b := if_neg other

theorem withNext_self {cells : Cells α} {a : Addr} {next : Option Addr} {node : Node α}
    (here : cells a = some node) :
    cells.withNext (some a) next a = some { node with next } := by
  simp only [Cells.withNext, if_pos, here, Option.map_some]

theorem withPrev_self {cells : Cells α} {a : Addr} {prev : Option Addr} {node : Node α}
    (here : cells a = some node) :
    cells.withPrev (some a) prev a = some { node with prev } := by
  simp only [Cells.withPrev, if_pos, here, Option.map_some]

/-! ## Segments -/

/-- The addresses of a list of nodes. -/
def addrs (nodes : List (Addr × α)) : List Addr := nodes.map Prod.fst

/-- Where a list of nodes starts; `n` is what follows it. -/
def first : List (Addr × α) → Option Addr → Option Addr
  | [], n => n
  | node :: _, _ => some node.1

/-- Where a list of nodes ends; `p` is what precedes it. -/
def last : Option Addr → List (Addr × α) → Option Addr
  | p, [] => p
  | _, node :: rest => last (some node.1) rest

/-- The nodes are linked to each other, and to `p` and `n`. -/
def Seg (cells : Cells α) : Option Addr → List (Addr × α) → Option Addr → Prop
  | _, [], _ => True
  | p, node :: rest, n =>
      cells node.1 = some ⟨node.2, p, first rest n⟩ ∧ Seg cells (some node.1) rest n

@[simp] theorem addrs_nil : addrs ([] : List (Addr × α)) = [] := rfl

@[simp] theorem addrs_cons (node : Addr × α) (rest : List (Addr × α)) :
    addrs (node :: rest) = node.1 :: addrs rest := rfl

@[simp] theorem addrs_append (left right : List (Addr × α)) :
    addrs (left ++ right) = addrs left ++ addrs right := List.map_append

theorem first_append (left right : List (Addr × α)) (n : Option Addr) :
    first (left ++ right) n = first left (first right n) := by
  cases left <;> rfl

theorem last_append (p : Option Addr) (left right : List (Addr × α)) :
    last p (left ++ right) = last (last p left) right := by
  induction left generalizing p with
  | nil => rfl
  | cons node rest ih => exact ih (some node.1)

/-- The end of a list that has nodes does not depend on what precedes it. -/
theorem last_mem (p : Option Addr) (nodes : List (Addr × α)) :
    (nodes = [] ∧ last p nodes = p) ∨
      ∃ a ∈ addrs nodes, ∀ q, last q nodes = some a := by
  induction nodes generalizing p with
  | nil => exact Or.inl ⟨rfl, rfl⟩
  | cons node rest ih =>
      refine Or.inr ?_
      rcases ih (some node.1) with ⟨empty, -⟩ | ⟨a, mem, ends⟩
      · refine ⟨node.1, List.mem_cons_self, ?_⟩
        intro q
        rw [empty]
        rfl
      · exact ⟨a, List.mem_cons_of_mem _ mem, fun q => ends _⟩

theorem first_mem (n : Option Addr) (nodes : List (Addr × α)) :
    (nodes = [] ∧ first nodes n = n) ∨ ∃ a ∈ addrs nodes, ∀ q, first nodes q = some a := by
  cases nodes with
  | nil => exact Or.inl ⟨rfl, rfl⟩
  | cons node rest => exact Or.inr ⟨node.1, List.mem_cons_self, fun _ => rfl⟩

theorem mem_of_last {nodes : List (Addr × α)} {a : Addr} (ends : last none nodes = some a) :
    a ∈ addrs nodes := by
  rcases last_mem none nodes with ⟨-, none⟩ | ⟨b, mem, there⟩
  · rw [none] at ends
    cases ends
  · rw [there none] at ends
    cases ends
    exact mem

theorem mem_of_first {nodes : List (Addr × α)} {a : Addr} (starts : first nodes none = some a) :
    a ∈ addrs nodes := by
  rcases first_mem none nodes with ⟨-, none⟩ | ⟨b, mem, there⟩
  · rw [none] at starts
    cases starts
  · rw [there none] at starts
    cases starts
    exact mem

/-- A segment is cut anywhere, and joined where the links agree. -/
theorem seg_append {cells : Cells α} {p n : Option Addr} {left right : List (Addr × α)} :
    Seg cells p (left ++ right) n ↔
      Seg cells p left (first right n) ∧ Seg cells (last p left) right n := by
  induction left generalizing p with
  | nil => simp only [List.nil_append, Seg, last, true_and]
  | cons node rest ih =>
      simp only [List.cons_append, Seg, last, ih, first_append, and_assoc]

theorem Seg.frame {cells cells' : Cells α} {p n : Option Addr} {nodes : List (Addr × α)}
    (seg : Seg cells p nodes n) (same : ∀ a ∈ addrs nodes, cells' a = cells a) :
    Seg cells' p nodes n := by
  induction nodes generalizing p with
  | nil => trivial
  | cons node rest ih =>
      refine ⟨?_, ih seg.2 fun a mem => same a (List.mem_cons_of_mem _ mem)⟩
      rw [same node.1 List.mem_cons_self]
      exact seg.1

/-- The nodes of a segment are allocated. -/
theorem Seg.allocated {cells : Cells α} {p n : Option Addr} {nodes : List (Addr × α)}
    (seg : Seg cells p nodes n) {a : Addr} (mem : a ∈ addrs nodes) : cells a ≠ none := by
  induction nodes generalizing p with
  | nil => cases mem
  | cons node rest ih =>
      rcases List.mem_cons.mp mem with here | mem
      · rw [here, seg.1]
        exact Option.some_ne_none _
      · exact ih seg.2 mem

/-- Redirecting the last node forwards changes what follows a segment. -/
theorem Seg.withNext {cells : Cells α} {p n : Option Addr} {nodes : List (Addr × α)}
    (seg : Seg cells p nodes n) (nodup : (addrs nodes).Nodup) (n' : Option Addr) :
    Seg (cells.withNext (last none nodes) n') p nodes n' := by
  rcases List.eq_nil_or_concat nodes with empty | ⟨before, node, split⟩
  · rw [empty]
    trivial
  · rw [List.concat_eq_append] at split
    rw [split] at seg nodup ⊢
    obtain ⟨segBefore, here, -⟩ := seg_append.mp seg
    have link : last none (before ++ [node]) = some node.1 := last_append _ _ _
    rw [link]
    refine seg_append.mpr ⟨segBefore.frame ?_, withNext_self here, trivial⟩
    intro a mem
    apply withNext_other
    intro same
    rw [addrs_append, List.nodup_append] at nodup
    exact nodup.2.2 a mem node.1 List.mem_cons_self (Option.some.inj same).symm

/-- Redirecting the first node backwards changes what precedes it. -/
theorem Seg.withPrev {cells : Cells α} {p n : Option Addr} {nodes : List (Addr × α)}
    (seg : Seg cells p nodes n) (nodup : (addrs nodes).Nodup) (p' : Option Addr) :
    Seg (cells.withPrev (first nodes none) p') p' nodes n := by
  cases nodes with
  | nil => trivial
  | cons node rest =>
      refine ⟨withPrev_self seg.1, seg.2.frame ?_⟩
      intro a mem
      apply withPrev_other
      intro same
      rw [addrs_cons, List.nodup_cons] at nodup
      rw [Option.some.inj same] at nodup
      exact nodup.1 mem

/-! ## Walks -/

/-- The data read along the links forwards, for at most `fuel` nodes. -/
def walkNext (cells : Cells α) : Nat → Option Addr → List α
  | 0, _ => []
  | _ + 1, none => []
  | fuel + 1, some a =>
      match cells a with
      | none => []
      | some node => node.data :: walkNext cells fuel node.next

/-- The data read along the links backwards. -/
def walkPrev (cells : Cells α) : Nat → Option Addr → List α
  | 0, _ => []
  | _ + 1, none => []
  | fuel + 1, some a =>
      match cells a with
      | none => []
      | some node => node.data :: walkPrev cells fuel node.prev

theorem Seg.walkNext {cells : Cells α} {p : Option Addr} {nodes : List (Addr × α)} {fuel : Nat}
    (seg : Seg cells p nodes none) (enough : nodes.length ≤ fuel) :
    Linked.walkNext cells fuel (first nodes none) = nodes.map Prod.snd := by
  induction nodes generalizing p fuel with
  | nil => cases fuel <;> rfl
  | cons node rest ih =>
      cases fuel with
      | zero => cases enough
      | succ fuel =>
          rw [first, Linked.walkNext, seg.1]
          dsimp only
          rw [ih seg.2 (Nat.le_of_succ_le_succ enough), List.map_cons]

theorem Seg.walkPrev {cells : Cells α} {n : Option Addr} {nodes : List (Addr × α)} {fuel : Nat}
    (seg : Seg cells none nodes n) (enough : nodes.length ≤ fuel) :
    Linked.walkPrev cells fuel (last none nodes) = (nodes.map Prod.snd).reverse := by
  induction nodes using List.reverseRecOn generalizing n fuel with
  | nil => cases fuel <;> rfl
  | append_singleton before node ih =>
      rw [List.length_append, List.length_singleton] at enough
      obtain ⟨segBefore, here, -⟩ := seg_append.mp seg
      cases fuel with
      | zero => cases enough
      | succ fuel =>
          rw [last_append, last, last, Linked.walkPrev, here]
          dsimp only
          rw [ih segBefore (Nat.le_of_succ_le_succ enough), List.map_append, List.reverse_append]
          rfl

end Linked

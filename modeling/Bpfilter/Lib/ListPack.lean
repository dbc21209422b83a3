/-
# Lib.ListPack -- lists in messages

`bf_list_pack` writes a list of any kind: an element without data is nil, an element of
a list of lists is an array, and any other is an object its callback fills.  The two
lemmas say what is written, element by element.
-/
import Bpfilter.Lib.Hook

namespace Bpfilter

set_option autoImplicit false

variable {α : Type}

/-- `list->ops.pack`: no callback, one that fills an object, or `bf_list_pack` itself. -/
inductive BfListOpsPack (α : Type) where
  | absent
  | object (write : α → Pack)
  | nested (write : α → Except Errno Pack)

/-- `bf_list`, as the data of its nodes, which may be NULL. -/
structure BfList (α : Type) where
  pack : BfListOpsPack α
  data : List (Option α) := []

/-- `bf_list_add_tail` -/
def BfList.addTail (list : BfList α) (data : Option α) : BfList α :=
  { list with data := list.data ++ [data] }

/-- What the loop of `bf_list_pack` writes for a node. -/
def bfListPackNode (pack : BfListOpsPack α) : Option α → Except Errno Pack
  | none => .ok .nil
  | some data =>
      match pack with
      | .absent => .error .enotsup
      | .object write => .ok (write data)
      | .nested write => write data

def bfListPack (list : BfList α) : Except Errno (List Pack) :=
  match list.pack with
  | .absent => .error .enotsup
  | pack => list.data.mapM (bfListPackNode pack)

/-- `bf_wpack_list`: after an error the writer is flagged and its message refused. -/
def bfWpackList (list : BfList α) : Except Errno Pack :=
  match bfListPack list with
  | .ok nodes => .ok (.arr nodes)
  | .error _ => .error .einval

/-- A list of objects with holes. -/
theorem bfWpackList_object (write : α → Pack) (data : List (Option α)) :
    bfWpackList ⟨.object write, data⟩ = .ok (.arr (data.map (bfWpackOpt write))) := by
  have nodes : data.mapM (bfListPackNode (.object write)) = .ok (data.map (bfWpackOpt write)) := by
    refine mapM_pure data fun entry _ => ?_
    cases entry <;> rfl
  rw [bfWpackList, bfListPack]
  simp only [nodes]

/-- A list of lists, made from `values`. -/
theorem bfWpackList_nested {β : Type} {write : α → Except Errno Pack} {list : β → α}
    {node : β → Pack} (values : List β)
    (written : ∀ value ∈ values, write (list value) = .ok (node value)) :
    bfWpackList ⟨.nested write, values.map fun value => some (list value)⟩ =
      .ok (.arr (values.map node)) := by
  have nodes : (values.map fun value => some (list value)).mapM (bfListPackNode (.nested write)) =
      .ok (values.map node) :=
    mapM_write values written
  rw [bfWpackList, bfListPack]
  simp only [nodes]

end Bpfilter

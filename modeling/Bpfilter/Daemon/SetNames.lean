/-
# Daemon.SetNames -- the names of the set maps

`bf_program_new` names the map of a set after its position, narrowed to a byte before it
is printed, so the names of positions 256 apart are the same.  `set_maps_unique_iff` is the
exact consequence: the names are distinct, every map can be pinned next to the others and
is found again under its name, as long as there are at most 256 sets.
-/
import Bpfilter.Daemon.Save

namespace Bpfilter

set_option autoImplicit false

/-! ## Pinning a list of maps -/

/-- The pin names of a program that belong to no set. -/
def fixedPinNames : List String := ["bf_prog", "counters_map", "printer_map", "log_map", "bf_link"]

section Pinning

variable {fails : Nat → Option Errno} (works : ∀ n, fails n = none)

include works

/-- The step: a map whose name is free is pinned, and pinning goes on behind it. -/
theorem pinAll_cons_works {name : String} {obj : BpfObj} {rest : List (String × Option BpfObj)}
    {dir : Dir} (unused : dir name = none) :
    pinAll fails ((name, some obj) :: rest) dir =
      pinAll fails rest fun name' => if name' = name then some obj else dir name' := by
  have pinned : bfBpfObjPin name (some obj) (fails rest.length) dir =
      .ok fun name' => if name' = name then some obj else dir name' := by
    simp [bfBpfObjPin, unused, works]
  rw [pinAll, pinned]

/-- Under distinct names no pin is in the way of another. -/
theorem pinAll_not_eexist {list : List (String × Option BpfObj)} {dir : Dir}
    (nodup : (list.map Prod.fst).Nodup) (free : ∀ entry ∈ list, dir entry.1 = none) :
    (pinAll fails list dir).1 ≠ some .eexist := by
  induction list generalizing dir with
  | nil => simp [pinAll]
  | cons head rest ih =>
      obtain ⟨name, obj⟩ := head
      obtain ⟨fresh, distinct⟩ := List.nodup_cons.mp nodup
      cases obj with
      | none => simp [pinAll, bfBpfObjPin]
      | some obj =>
          rw [pinAll_cons_works works (free _ List.mem_cons_self)]
          apply ih distinct
          intro entry mem
          have other : entry.1 ≠ name := by
            rintro rfl
            exact fresh (List.mem_map.mpr ⟨_, mem, rfl⟩)
          rw [if_neg other]
          exact free entry (List.mem_cons_of_mem _ mem)

/-- Under distinct names the maps in front are pinned, whatever happens behind them. -/
theorem pinAll_front {front back : List (String × Option BpfObj)} {dir : Dir}
    (nodup : ((front ++ back).map Prod.fst).Nodup)
    (objs : ∀ entry ∈ front, entry.2.isSome = true)
    (free : ∀ entry ∈ front ++ back, dir entry.1 = none) {entry : String × Option BpfObj}
    (mem : entry ∈ front) : (pinAll fails (front ++ back) dir).2 entry.1 = entry.2 := by
  induction front generalizing dir with
  | nil => cases mem
  | cons head rest ih =>
      obtain ⟨name, obj⟩ := head
      obtain ⟨fresh, distinct⟩ := List.nodup_cons.mp nodup
      obtain ⟨obj, rfl⟩ := Option.isSome_iff_exists.mp (objs _ List.mem_cons_self)
      have others : ∀ other ∈ rest ++ back, other.1 ≠ name := by
        rintro other inside rfl
        exact fresh (List.mem_map.mpr ⟨_, inside, rfl⟩)
      rw [List.cons_append, pinAll_cons_works works (free _ List.mem_cons_self)]
      obtain rfl | later := List.mem_cons.mp mem
      · rw [pinAll_other others, if_pos rfl]
      · apply ih distinct (fun entry mem => objs entry (List.mem_cons_of_mem _ mem)) ?_ later
        intro entry mem
        rw [if_neg (others entry mem)]
        exact free entry (List.mem_cons_of_mem _ mem)

end Pinning

/-! ## Result -/

/-- The names of the set maps are distinct, and no other pin of the program has one of them. -/
structure BfProg.SetNamesUnique (prog : BfProg) : Prop where
  distinct : (prog.setPins.map Prod.fst).Nodup
  apart : ∀ name ∈ prog.setPins.map Prod.fst, name ∉ fixedPinNames

/-- Pinned into an empty directory, no pin of the program meets another, and every set's map is
reopened by its name. -/
structure BfProg.SetMapsReopened (prog : BfProg) : Prop where
  pinned : (pinAll (fun _ => none) prog.pinList .empty).1 ≠ some .eexist
  reopened : ∀ index < prog.chain.sets.length,
    bfBpfObjGet (pinAll (fun _ => none) prog.pinList .empty).2 (setMapName index) =
      .ok (.set prog.id index)

theorem setMapName_wraps (index : Nat) : setMapName (index + 256) = setMapName index := by
  unfold setMapName
  rw [Nat.add_mod_right, show (index + 256) % 16 = index % 16 by omega]

theorem setMapName_not_fixed (index : Nat) : setMapName index ∉ fixedPinNames := by
  intro listed
  have others : ∀ name ∈ fixedPinNames, name.toList.head? ≠ some 's' := by decide
  exact setMapName_ne (others _ listed) rfl

theorem BfProg.setPins_fst (prog : BfProg) :
    prog.setPins.map Prod.fst = (List.range prog.chain.sets.length).map setMapName := by
  rw [BfProg.setPins, List.map_map]
  rfl

theorem BfProg.setNamesUnique_iff (prog : BfProg) :
    prog.SetNamesUnique ↔ prog.chain.sets.length ≤ 256 := by
  constructor
  · rintro ⟨distinct, -⟩
    by_contra many
    rw [setPins_fst] at distinct
    have same := (List.nodup_map_iff_inj_on List.nodup_range).mp distinct 256
      (List.mem_range.mpr (by omega)) 0 (List.mem_range.mpr (by omega)) (setMapName_wraps 0)
    exact absurd same (by decide)
  · intro few
    refine ⟨?_, ?_⟩
    · rw [setPins_fst]
      exact setMapNames_nodup few
    · intro name mem
      rw [setPins_fst] at mem
      obtain ⟨index, -, rfl⟩ := List.mem_map.mp mem
      exact setMapName_not_fixed index

/-- The pins of a program are those of its maps, and behind them that of its link. -/
theorem BfProg.pinList_front (prog : BfProg) : ∃ front back, prog.pinList = front ++ back ∧
    (∀ entry ∈ front, entry.2.isSome = true) ∧ ∀ entry ∈ prog.setPins, entry ∈ front := by
  refine ⟨_, _, rfl, ?_, fun entry mem => List.mem_append_right _ mem⟩
  intro entry mem
  obtain mem | mem := List.mem_append.mp mem
  · simp only [List.mem_cons, List.not_mem_nil, or_false] at mem
    obtain rfl | rfl | rfl | rfl := mem <;> rfl
  · obtain ⟨index, -, rfl⟩ := List.mem_map.mp mem
    rfl

theorem BfProg.setMapsReopened_iff (prog : BfProg) :
    prog.SetMapsReopened ↔ prog.chain.sets.length ≤ 256 := by
  constructor
  · rintro ⟨-, reopened⟩
    by_contra many
    have first := reopened 0 (by omega)
    have again := reopened 256 (by omega)
    rw [setMapName_wraps 0, first] at again
    cases again
  · intro few
    have works : ∀ n : Nat, (fun _ : Nat => (none : Option Errno)) n = none := fun _ => rfl
    refine ⟨pinAll_not_eexist works (prog.pinList_nodup few) fun _ _ => rfl, ?_⟩
    intro index inside
    obtain ⟨front, back, split, objs, sets⟩ := prog.pinList_front
    have member : (setMapName index, some (.set prog.id index)) ∈ prog.setPins :=
      List.mem_map.mpr ⟨index, List.mem_range.mpr inside, rfl⟩
    have nodup := prog.pinList_nodup few
    rw [split] at nodup
    have free : ∀ entry ∈ front ++ back, Dir.empty entry.1 = none := fun _ _ => rfl
    have found := pinAll_front works nodup objs free (sets _ member)
    rw [bfBpfObjGet, split, found]

/-- **Set maps.**  The names of the set maps are unique, and so every one of them is pinned and
reopened as the map of its set, exactly when the chain has at most 256 sets. -/
theorem set_maps_unique_iff (prog : BfProg) :
    prog.SetNamesUnique ∧ prog.SetMapsReopened ↔ prog.chain.sets.length ≤ 256 := by
  constructor
  · exact fun unique => prog.setNamesUnique_iff.mp unique.1
  · exact fun few => ⟨prog.setNamesUnique_iff.mpr few, prog.setMapsReopened_iff.mpr few⟩

/-- A chain whose rules use 257 sets of one address each. -/
def crowdedChain : BfChain :=
  bfChainNew "crowded" .xdp .accept
    (List.replicate 257 { name := none, key := [.ip4Saddr], elemSize := 4,
                          elems := [[10, 0, 0, 1]], useTrie := false }) []

/-- The program made from it: its first and its last set have maps of one name, so
pinning it fails. -/
def crowdedProg : BfProg where
  chain := crowdedChain
  code := bfProgramNew sampleHost crowdedChain sampleMaps
  id := 1

/-- The maps of the first and the last of 257 sets have one name, and pinning the second of them
finds the first. -/
theorem crowdedProg_not_unique :
    ¬ crowdedProg.SetNamesUnique ∧ ¬ crowdedProg.SetMapsReopened := by
  have size : crowdedProg.chain.sets.length = 257 := List.length_replicate
  refine ⟨fun unique => ?_, fun reopened => ?_⟩
  · have few := crowdedProg.setNamesUnique_iff.mp unique
    omega
  · have few := crowdedProg.setMapsReopened_iff.mp reopened
    omega

end Bpfilter

import Agenda.Proofs.Ranked
import Agenda.Shard.Partition

/-!
Partitions of a list: their shards ascend, each holds something, and the elements are those of the
list. Leaving out elements before the list is parted or after it comes to the same.
-/

namespace Agenda

theorem flatMap_of_nodup {α β : Type} {keys : List α} {home : α} {rows : α → List β}
    (once : keys.Nodup) (member : home ∈ keys) (elsewhere : ∀ key, key ≠ home → rows key = []) :
    keys.flatMap rows = rows home := by
  obtain ⟨before, after, rfl⟩ := List.append_of_mem member
  obtain ⟨-, rest, apart⟩ := List.nodup_append.mp once
  have nothing {others : List α} (absent : home ∉ others) : others.flatMap rows = [] :=
    List.flatMap_eq_nil_iff.mpr fun key listed =>
      elsewhere key fun same => absent (same ▸ listed)
  have notBefore : home ∉ before := fun listed => apart home listed home List.mem_cons_self rfl
  rw [List.flatMap_append, List.flatMap_cons, nothing notBefore,
    nothing (List.nodup_cons.mp rest).1, List.nil_append, List.append_nil]

namespace ShardPartition

variable {α : Type}

theorem mem_toList {partition : ShardPartition α} {part : ShardId × List α} {element : α}
    (isPart : part ∈ partition.parts) (member : element ∈ part.2) : element ∈ partition.toList :=
  List.mem_flatMap.mpr ⟨part, isPart, member⟩

theorem flatMap_retain {ι : Type} {step : ShardId → List α → List ι}
    (idle : ∀ shard item, item ∉ step shard []) (keep : α → Bool) (partition : ShardPartition α) :
    (partition.retain keep).parts.flatMap (fun part => step part.1 part.2) =
      partition.parts.flatMap fun part => step part.1 (part.2.filter keep) := by
  simp only [retain]
  induction partition.parts with
  | nil => rfl
  | cons part rest ih =>
      rw [List.map_cons, List.flatMap_cons, ← ih]
      cases part.2.filter keep with
      | nil => simp [List.eq_nil_iff_forall_not_mem.mpr (idle part.1)]
      | cons first others => simp

theorem toList_retain (keep : α → Bool) (partition : ShardPartition α) :
    (partition.retain keep).toList = partition.toList.filter keep := by
  rw [toList, toList, List.filter_flatMap]
  exact @flatMap_retain α α (fun _ elements => elements) (fun _ _ => List.not_mem_nil) keep partition

variable [Ranked α] [Sharded α]

@[simp] theorem ofList_nil : (ofList [] : ShardPartition α) = empty :=
  rfl

theorem mem_toList_ofList {elements : List α} {element : α} :
    element ∈ (ofList elements).toList ↔ element ∈ elements := by
  simp only [toList, ofList, List.mem_flatMap, List.mem_map, Ranked.mem_sortedDistinct]
  constructor
  · rintro ⟨part, ⟨shard, -, rfl⟩, member⟩
    exact Ranked.mem_sortedDistinct.mp (List.mem_filter.mp member).1
  · intro member
    exact ⟨_, ⟨Sharded.shard element, ⟨element, member, rfl⟩, rfl⟩, by simpa using member⟩

theorem map_parts_ofList (elements : List α) :
    (ofList elements).parts.map (·.1) =
      sortedDistinct ((sortedDistinct elements).map Sharded.shard) := by
  simp [ofList, Function.comp_def]

theorem ascending_ofList (elements : List α) :
    Ranked.Ascending ((ofList elements).parts.map (·.1)) := by
  rw [map_parts_ofList]
  exact Ranked.ascending_sortedDistinct _

theorem nodup_ofList (elements : List α) : ((ofList elements).parts.map (·.1)).Nodup :=
  Ranked.nodup_of_ascending (ascending_ofList elements)

theorem isEmpty_ofList {elements : List α} :
    (ofList elements).isEmpty = true ↔ ∀ element, element ∉ (ofList elements).toList := by
  constructor
  · intro nothing element member
    simp [toList, List.isEmpty_iff.mp nothing] at member
  · intro nothing
    have none : elements = [] := by
      rw [List.eq_nil_iff_forall_not_mem]
      exact fun element member => nothing element (mem_toList_ofList.mpr member)
    rw [none]
    rfl

theorem shard_of_mem {elements : List α} {part : ShardId × List α} {element : α}
    (isPart : part ∈ (ofList elements).parts) (member : element ∈ part.2) :
    Sharded.shard element = part.1 := by
  obtain ⟨shard, -, rfl⟩ := List.mem_map.mp isPart
  exact of_decide_eq_true (List.mem_filter.mp member).2

/-- The shards ascend and each holds something. What a shard holds lives there, ascends and is not
repeated. -/
structure WellFormed (partition : ShardPartition α) : Prop where
  shards : Ranked.Ascending (partition.parts.map (·.1))
  inhabited : ∀ part ∈ partition.parts, part.2 ≠ []
  ascending : ∀ part ∈ partition.parts, Ranked.Ascending part.2
  owned : ∀ part ∈ partition.parts, ∀ element ∈ part.2, Sharded.shard element = part.1

theorem wellFormed_ofList (elements : List α) : (ofList elements).WellFormed where
  shards := ascending_ofList elements
  inhabited := by
    intro part isPart nothing
    obtain ⟨shard, occupied, rfl⟩ := List.mem_map.mp isPart
    obtain ⟨element, member, rfl⟩ := List.mem_map.mp (Ranked.mem_sortedDistinct.mp occupied)
    have kept : element ∈ (sortedDistinct elements).filter fun other =>
        Sharded.shard other = Sharded.shard element :=
      List.mem_filter.mpr ⟨member, by simp⟩
    simp [show (sortedDistinct elements).filter _ = [] from nothing] at kept
  ascending := by
    intro part isPart
    obtain ⟨shard, -, rfl⟩ := List.mem_map.mp isPart
    exact (Ranked.ascending_sortedDistinct elements).filter _
  owned := fun _ isPart _ member => shard_of_mem isPart member

theorem WellFormed.mem_part_iff {partition : ShardPartition α} (formed : partition.WellFormed)
    {part : ShardId × List α} (isPart : part ∈ partition.parts) {element : α} :
    element ∈ part.2 ↔ element ∈ partition.toList ∧ Sharded.shard element = part.1 := by
  constructor
  · exact fun member => ⟨mem_toList isPart member, formed.owned part isPart element member⟩
  · rintro ⟨listed, home⟩
    obtain ⟨other, isOther, member⟩ := List.mem_flatMap.mp listed
    have same : other.1 = part.1 := (formed.owned other isOther element member).symm.trans home
    rwa [List.inj_on_of_nodup_map (Ranked.nodup_of_ascending formed.shards) isOther isPart same] at member

theorem flatMap_filter_perm [DecidableEq α] {ρ : Type} {elements : List α} (key : ρ → α)
    {test : ρ → Bool} {rows : List ρ} (covered : ∀ row ∈ rows, test row = true → key row ∈ elements) :
    ((ofList elements).parts.flatMap fun part =>
      rows.filter fun row => part.2.contains (key row) && test row).Perm (rows.filter test) := by
  induction rows with
  | nil =>
      have nothing : ((ofList elements).parts.flatMap fun _ => ([] : List ρ)) = [] :=
        List.flatMap_eq_nil_iff.mpr fun _ _ => rfl
      simp [nothing]
  | cons row rest ih =>
      have once : ((ofList elements).parts.flatMap fun part =>
          [row].filter fun row => part.2.contains (key row) && test row) = [row].filter test := by
        cases passes : test row with
        | false => simp [passes]
        | true =>
            have listed : key row ∈ elements := covered row List.mem_cons_self passes
            have home : Sharded.shard (key row) ∈
                sortedDistinct ((sortedDistinct elements).map Sharded.shard) :=
              Ranked.mem_sortedDistinct.mpr
                (List.mem_map_of_mem (Ranked.mem_sortedDistinct.mpr listed))
            rw [ofList, List.flatMap_map, flatMap_of_nodup
              (Ranked.nodup_of_ascending (Ranked.ascending_sortedDistinct _)) home]
            · simp [passes, listed]
            · intro shard other
              simp [passes, Ne.symm other]
      have parted (kept : ρ → Bool) :
          (row :: rest).filter kept = [row].filter kept ++ rest.filter kept := by
        rw [← List.filter_append]
        rfl
      simp only [parted]
      refine (List.flatMap_append_perm _ _ _).symm.trans ?_
      rw [once]
      exact (ih fun other member => covered other (List.mem_cons_of_mem _ member)).append_left _

theorem flatMap_perm_of_parts [DecidableEq α] {ρ ι : Type} {elements : List α} (key : ρ → α)
    {test : ρ → Bool} {rows : List ρ} {entry : ρ → ι} {found : ShardId → List α → List ι}
    (covered : ∀ row, test row = true → key row ∈ elements)
    (parts : ∀ part ∈ (ofList elements).parts, (found part.1 part.2).Perm
      ((rows.filter fun row => part.2.contains (key row) && test row).map entry)) :
    ((ofList elements).parts.flatMap fun part => found part.1 part.2).Perm
      ((rows.filter test).map entry) := by
  refine (List.Perm.flatMap_left _ parts).trans ?_
  rw [← List.map_flatMap]
  exact (flatMap_filter_perm key fun row _ passes => covered row passes).map entry

theorem ofList_filter (keep : α → Bool) (elements : List α) :
    ofList (elements.filter keep) = (ofList elements).retain keep := by
  have sorted : sortedDistinct (elements.filter keep) = (sortedDistinct elements).filter keep := by
    apply Ranked.ascending_ext (Ranked.ascending_sortedDistinct _)
      ((Ranked.ascending_sortedDistinct _).filter _)
    simp
  have parts (shard : ShardId) :
      ((sortedDistinct elements).filter keep).filter (fun element => Sharded.shard element = shard) =
        ((sortedDistinct elements).filter fun element => Sharded.shard element = shard).filter keep := by
    rw [List.filter_filter, List.filter_filter]
    exact List.filter_congr fun element _ => Bool.and_comm _ _
  have shards : sortedDistinct (((sortedDistinct elements).filter keep).map Sharded.shard) =
      (sortedDistinct ((sortedDistinct elements).map Sharded.shard)).filter fun shard =>
        !(((sortedDistinct elements).filter fun element => Sharded.shard element = shard).filter
          keep).isEmpty := by
    apply Ranked.ascending_ext (Ranked.ascending_sortedDistinct _)
      ((Ranked.ascending_sortedDistinct _).filter _)
    intro shard
    simp only [Ranked.mem_sortedDistinct, List.mem_map, List.mem_filter, Bool.not_eq_true',
      List.isEmpty_eq_false_iff_exists_mem, decide_eq_true_eq]
    constructor
    · rintro ⟨element, ⟨member, passes⟩, rfl⟩
      exact ⟨⟨element, member, rfl⟩, element, ⟨member, rfl⟩, passes⟩
    · rintro ⟨-, element, ⟨member, rfl⟩, passes⟩
      exact ⟨element, ⟨member, passes⟩, rfl⟩
  simp only [ofList, retain, sorted, shards, parts, List.map_map, List.filter_map, Function.comp_def]

end ShardPartition

end Agenda

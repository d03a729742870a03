import Agenda.Proofs.Shard.Partition

/-!
What a partition answers after any filters: which elements are in it, how many they are and on how many
shards, and what each shard holds. All of it is told from the elements it was made of.
-/

namespace Agenda

namespace ShardPartition

variable {α : Type}

def retainAll (predicates : List (α → Bool)) (partition : ShardPartition α) : ShardPartition α :=
  predicates.foldl (fun kept keep => kept.retain keep) partition

theorem get_of_not_mem {partition : ShardPartition α} {shard : ShardId}
    (absent : shard ∉ partition.parts.map (·.1)) :
    partition.get shard = [] := by
  have none : partition.parts.lookup shard = none := by
    rw [List.lookup_eq_none_iff]
    rintro part isPart
    have apart : shard ≠ part.1 := fun same => absent (same ▸ List.mem_map_of_mem isPart)
    simpa using apart
  rw [get, none, Option.getD_none]

variable [Ranked α] [Sharded α]

theorem retainAll_ofList (predicates : List (α → Bool)) (elements : List α) :
    retainAll predicates (ofList elements) =
      ofList (elements.filter fun element => predicates.all fun keep => keep element) := by
  induction predicates generalizing elements with
  | nil => simp [retainAll]
  | cons keep rest ih =>
      have later := ih (elements.filter keep)
      rw [retainAll] at later ⊢
      rw [List.foldl_cons, ← ofList_filter, later, List.filter_filter]
      simp only [List.all_cons, Bool.and_comm]

namespace WellFormed

variable {partition : ShardPartition α} (formed : partition.WellFormed)
include formed

theorem get_of_mem {part : ShardId × List α} (isPart : part ∈ partition.parts) :
    partition.get part.1 = part.2 := by
  have keys := Ranked.nodup_of_ascending formed.shards
  cases found : partition.parts.lookup part.1 with
  | none =>
      have absent := List.lookup_eq_none_iff.mp found part isPart
      simp at absent
  | some elements =>
      obtain ⟨before, after, parts, -⟩ := List.lookup_eq_some_iff.mp found
      have listed : (part.1, elements) ∈ partition.parts := by simp [parts]
      rw [get, found, Option.getD_some, List.inj_on_of_nodup_map keys isPart listed rfl]

theorem ascending_get (shard : ShardId) : Ranked.Ascending (partition.get shard) := by
  by_cases occupied : shard ∈ partition.parts.map (·.1)
  · obtain ⟨part, isPart, rfl⟩ := List.mem_map.mp occupied
    rw [formed.get_of_mem isPart]
    exact formed.ascending part isPart
  · rw [get_of_not_mem occupied]
    exact List.Pairwise.nil

theorem mem_shards_iff {shard : ShardId} :
    shard ∈ partition.parts.map (·.1) ↔ ∃ element ∈ partition.toList, Sharded.shard element = shard := by
  constructor
  · intro member
    obtain ⟨part, isPart, rfl⟩ := List.mem_map.mp member
    obtain ⟨element, listed⟩ := List.exists_mem_of_ne_nil _ (formed.inhabited part isPart)
    exact ⟨element, mem_toList isPart listed, formed.owned part isPart element listed⟩
  · rintro ⟨element, member, rfl⟩
    obtain ⟨part, isPart, listed⟩ := List.mem_flatMap.mp member
    rw [formed.owned part isPart element listed]
    exact List.mem_map_of_mem isPart

theorem mem_get_iff {shard : ShardId} {element : α} :
    element ∈ partition.get shard ↔ element ∈ partition.toList ∧ Sharded.shard element = shard := by
  by_cases occupied : shard ∈ partition.parts.map (·.1)
  · obtain ⟨part, isPart, rfl⟩ := List.mem_map.mp occupied
    rw [formed.get_of_mem isPart, formed.mem_part_iff isPart]
  · rw [get_of_not_mem occupied]
    refine iff_of_false List.not_mem_nil ?_
    rintro ⟨member, home⟩
    exact occupied (formed.mem_shards_iff.mpr ⟨element, member, home⟩)

theorem contains_iff {element : α} : partition.contains element = true ↔ element ∈ partition.toList := by
  rw [contains, Ranked.bisect_iff (formed.ascending_get _), formed.mem_get_iff, and_iff_left rfl]

theorem nodup_toList : partition.toList.Nodup := by
  rw [toList, List.nodup_flatMap]
  refine ⟨fun part isPart => Ranked.nodup_of_ascending (formed.ascending part isPart), ?_⟩
  have keys := List.pairwise_map.mp (Ranked.nodup_of_ascending formed.shards)
  refine keys.imp_of_mem fun {first second} isFirst isSecond apart element inFirst inSecond => apart ?_
  rw [← formed.owned first isFirst element inFirst, formed.owned second isSecond element inSecond]

theorem ascending_toList (monotone : ∀ first second : α,
    Ranked.before (Sharded.shard first) (Sharded.shard second) = true →
      Ranked.before first second = true) : Ranked.Ascending partition.toList := by
  rw [toList, Ranked.Ascending, List.pairwise_flatMap]
  refine ⟨formed.ascending, ?_⟩
  refine (List.pairwise_map.mp formed.shards).imp_of_mem ?_
  intro first second isFirst isSecond isBefore element inFirst other inSecond
  rw [← formed.owned first isFirst element inFirst,
    ← formed.owned second isSecond other inSecond] at isBefore
  exact monotone element other isBefore

theorem size_eq [DecidableEq α] {elements : List α}
    (same : ∀ element, element ∈ partition.toList ↔ element ∈ elements) :
    partition.size = elements.dedup.length := by
  have perm : partition.toList.Perm elements.dedup :=
    (List.perm_ext_iff_of_nodup formed.nodup_toList elements.nodup_dedup).mpr fun element => by
      rw [List.mem_dedup, same]
  exact perm.length_eq

theorem shardCount_eq {elements : List α}
    (same : ∀ element, element ∈ partition.toList ↔ element ∈ elements) :
    partition.shardCount = (elements.map Sharded.shard).dedup.length := by
  have perm : (partition.parts.map (·.1)).Perm (elements.map Sharded.shard).dedup :=
    (List.perm_ext_iff_of_nodup (Ranked.nodup_of_ascending formed.shards) (List.nodup_dedup _)).mpr
      fun shard => by simp only [formed.mem_shards_iff, List.mem_dedup, List.mem_map, same]
  rw [shardCount, ← perm.length_eq, List.length_map]

end WellFormed

end ShardPartition

theorem GlobalId.shard_mono {first second : GlobalId} (le : first.value ≤ second.value) :
    first.shard.number ≤ second.shard.number := by
  simp only [shard, ShardId.idsPerShard]
  omega

theorem Id.before_iff {entity : Entity} {first second : Id entity} :
    Ranked.before first second = true ↔ first.global.value < second.global.value := by
  simp [Ranked.before, Ranked.rank]

theorem ShardId.before_iff {first second : ShardId} :
    Ranked.before first second = true ↔ first.number < second.number := by
  simp [Ranked.before, Ranked.rank]

theorem GlobalId.shard_of?_eq (id : GlobalId) :
    ShardId.of? (max id.value 0 / ShardId.idsPerShard).toNat = some id.shard :=
  dif_pos id.shard.inRange

namespace ShardPartition

/-- After any filters, a partition of some elements is the partition of those that pass. It has these on
their shards, in order and each once, and finds and counts them, and nothing else. Ids of one kind ascend
over all of it, as the shard of an id, which there always is, grows with the id. -/
theorem retained_exact {α : Type} [DecidableEq α] [Ranked α] [Sharded α] (elements : List α)
    (predicates : List (α → Bool)) {entity : Entity} (ids : List (Id entity))
    (tests : List (Id entity → Bool)) :
    let passing := elements.filter fun element => predicates.all fun keep => keep element
    let partition := retainAll predicates (ofList elements)
    partition = ofList passing ∧
    partition.WellFormed ∧
    (∀ element, partition.contains element = true ↔
      element ∈ elements ∧ ∀ keep ∈ predicates, keep element = true) ∧
    partition.size = passing.dedup.length ∧
    partition.shardCount = (passing.map Sharded.shard).dedup.length ∧
    (∀ shard, Ranked.Ascending (partition.get shard) ∧ ∀ element, element ∈ partition.get shard ↔
      element ∈ passing ∧ Sharded.shard element = shard) ∧
    (∀ shard, shard ∉ passing.map Sharded.shard → partition.get shard = []) ∧
    ((retainAll tests (ofList ids)).toList.Pairwise fun first second =>
      first.global.value < second.global.value) ∧
    (∀ first second : Id entity, first.global.value ≤ second.global.value →
      first.shard.number ≤ second.shard.number) ∧
    ∀ id : Id entity, ShardId.of? (max id.global.value 0 / ShardId.idsPerShard).toNat = some id.shard := by
  intro passing partition
  have parted : partition = ofList passing := retainAll_ofList predicates elements
  have formed : partition.WellFormed := parted ▸ wellFormed_ofList passing
  have members (element : α) : element ∈ partition.toList ↔ element ∈ passing := by
    rw [parted, mem_toList_ofList]
  have held (shard : ShardId) (element : α) :
      element ∈ partition.get shard ↔ element ∈ passing ∧ Sharded.shard element = shard := by
    rw [formed.mem_get_iff, members]
  refine ⟨parted, formed, fun element => ?_, formed.size_eq members, formed.shardCount_eq members,
    fun shard => ⟨formed.ascending_get shard, held shard⟩, fun shard absent => ?_, ?_,
    fun first second le => GlobalId.shard_mono le, fun id => id.global.shard_of?_eq⟩
  · simp only [formed.contains_iff, members, passing, List.mem_filter, List.all_eq_true]
  · refine List.eq_nil_iff_forall_not_mem.mpr fun element member => absent ?_
    obtain ⟨passes, home⟩ := (held shard element).mp member
    exact home ▸ List.mem_map_of_mem passes
  · rw [retainAll_ofList]
    refine ((wellFormed_ofList _).ascending_toList fun first second isBefore => ?_).imp Id.before_iff.mp
    refine Id.before_iff.mpr (lt_of_not_ge fun le => ?_)
    exact absurd (GlobalId.shard_mono le) (not_le_of_gt (ShardId.before_iff.mp isBefore))

/-- A negative id shares the first shard with a small one; the last id there is has a shard too. -/
theorem retained_exact_extremes :
    let last : CourseId := ⟨⟨9223372036854775807, by decide⟩⟩
    let edge : CourseId := ⟨⟨10000000000000, by decide⟩⟩
    let small : CourseId := ⟨⟨7, by decide⟩⟩
    let negative : CourseId := ⟨⟨-5, by decide⟩⟩
    let partition := retainAll [fun id => id ≠ small] (ofList [last, edge, small, negative, edge])
    partition.contains negative = true ∧ partition.contains small = false ∧ partition.size = 3 ∧
      partition.shardCount = 3 ∧ last.shard.number = 922337 ∧ partition.get ⟨1000000, by decide⟩ = [] := by
  intro last edge small negative partition
  obtain ⟨-, -, contains, size, shards, -, elsewhere, -⟩ := retained_exact
    [last, edge, small, negative, edge] [fun id => id ≠ small] ([] : List CourseId) []
  refine ⟨(contains negative).mpr (by decide), ?_, size.trans (by decide), shards.trans (by decide), rfl,
    elsewhere _ (by decide)⟩
  exact Bool.eq_false_iff.mpr fun found => absurd ((contains small).mp found) (by decide)

end ShardPartition

end Agenda

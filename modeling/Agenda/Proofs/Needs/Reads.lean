import Agenda.Proofs.Effort
import Agenda.Proofs.Needs.Listing
import Agenda.Proofs.Scope
import Agenda.Proofs.Shard.Retention

/-!
How often a query reads. A step of one shard reads a few times at most, however many rows it finds; the
whole query reads that often on each shard of its scope, and once for the ignores of the user.
-/

namespace Agenda

namespace Effort

def Unread (effort : Effort) : Prop :=
  effort.reads = 0

theorem Unread.closed : Closed Unread where
  zero := rfl
  add {left right} first second := by
    change left.reads + right.reads = 0
    rw [first, second]

end Effort

namespace Metered

variable {α β : Type} {low high fewer more : Nat}

/-- An answer at the cost of some reads, no fewer and no more than that many. -/
structure Reads (low high : Nat) (computation : Metered α) : Prop where
  answered : ∃ value, computation.outcome = .ok value
  atLeast : low ≤ computation.effort.reads
  atMost : computation.effort.reads ≤ high

namespace Reads

theorem pure (value : α) : Reads 0 0 (Pure.pure value) :=
  ⟨⟨value, rfl⟩, Nat.le_refl 0, Nat.le_refl 0⟩

theorem mono {computation : Metered α} (reads : Reads low high computation) (least : fewer ≤ low)
    (most : high ≤ more) : Reads fewer more computation :=
  ⟨reads.answered, least.trans reads.atLeast, reads.atMost.trans most⟩

theorem bind {first : Metered α} {next : α → Metered β} (starts : Reads low high first)
    (goes : ∀ value, Reads fewer more (next value)) :
    Reads (low + fewer) (high + more) (first >>= next) := by
  obtain ⟨value, answer⟩ := starts.answered
  rw [bind_of_ok answer]
  exact ⟨(goes value).answered, Nat.add_le_add starts.atLeast (goes value).atLeast,
    Nat.add_le_add starts.atMost (goes value).atMost⟩

theorem bind_unread {first : Metered α} {next : α → Metered β} (starts : Reads low high first)
    (goes : ∀ value, (next value).effort.Unread) :
    low ≤ (first >>= next).effort.reads ∧ (first >>= next).effort.reads ≤ high := by
  obtain ⟨value, answer⟩ := starts.answered
  rw [bind_of_ok answer, Effort.reads_add, goes value, Nat.add_zero]
  exact ⟨starts.atLeast, starts.atMost⟩

theorem skipIf {condition : Prop} [Decidable condition] {value : α} {further : Metered α}
    (goes : Reads low high further) :
    Reads 0 high (if condition then Pure.pure value else further) := by
  split
  · exact (pure value).mono (Nat.le_refl 0) (Nat.zero_le high)
  · exact goes.mono (Nat.zero_le low) (Nat.le_refl high)

theorem onShard {computation : Metered α} (reads : Reads low high computation) (shard : ShardId) :
    Reads low high (computation.onShard shard) := by
  obtain ⟨value, answer⟩ := reads.answered
  exact ⟨⟨value, by rw [outcome_onShard, answer, Except.mapError]⟩, reads.atLeast, reads.atMost⟩

end Reads

end Metered

open Metered (Reads)

def NeedsOptions.ignoreReads (options : NeedsOptions) : Nat :=
  if options.includeIgnored then 0 else 1

section Steps

variable {deployment : Deployment} {shard : ShardId} (online : shard ∉ deployment.offline)
include online

theorem Deployment.reads_rows {α : Type} (answer : Tables → α) : Reads 1 1 (do
    let tables ← deployment.read shard
    return answer tables) := by
  have once : Reads 1 1 (deployment.read shard) :=
    ⟨⟨_, deployment.outcome_read online⟩, Nat.le_refl 1, Nat.le_refl 1⟩
  exact once.bind fun tables => .pure (answer tables)

theorem reads_checkpointCourses (courses : List CourseId) :
    Reads 1 1 (checkpointCourses deployment shard courses) :=
  (Deployment.reads_rows online _).bind fun _ => .pure _

theorem Submitting.reads_onShard (query : Submitting) (ignored : List GlobalId)
    (courses : List CourseId) : Reads 1 4 (query.onShard deployment ignored shard courses) := by
  have listed : Reads 2 4 (query.onShard deployment ignored shard courses) :=
    .bind (reads_checkpointCourses online courses) fun _ =>
      .bind (Deployment.reads_rows online _) fun _ => .skipIf
        (.bind (Deployment.reads_rows online _) fun _ =>
          .bind (Deployment.reads_rows online _) fun _ => .pure _)
  exact listed.mono (by decide) (Nat.le_refl 4)

theorem Grading.reads_onShard (query : Grading) (ignored : List GlobalId) (courses : List CourseId) :
    Reads 1 5 (query.onShard deployment ignored shard courses) := by
  have grades (rows : List Assignment) (pending : List Submission) :
      Reads 0 1 (query.provisionallyGraded deployment shard rows pending) :=
    .skipIf (.bind (Deployment.reads_rows online _) fun _ => .pure _)
  have listed : Reads 2 5 (query.onShard deployment ignored shard courses) :=
    .bind (reads_checkpointCourses online courses) fun _ =>
      .bind (Deployment.reads_rows online _) fun _ => .skipIf
        (.bind (Deployment.reads_rows online _) fun _ => .skipIf
          (.bind (Deployment.reads_rows online _) fun _ => .bind (grades _ _) fun _ => .pure _))
  exact listed.mono (by decide) (Nat.le_refl 5)

theorem Moderation.reads_onShard (query : Moderation) (ignored : List GlobalId)
    (courses : List CourseId) : Reads 1 3 (query.onShard deployment ignored shard courses) :=
  .bind (Deployment.reads_rows online _) fun _ => .skipIf
    (.bind (Deployment.reads_rows online _) fun _ => .skipIf
      (.bind (Deployment.reads_rows online _) fun _ => .pure _))

theorem Reviews.reads_onShard (query : Reviews) (incompleteOnly : Bool) (ignored : List GlobalId)
    (courses : List CourseId) :
    Reads 1 4 (query.onShard deployment incompleteOnly ignored shard courses) :=
  .bind (Deployment.reads_rows online _) fun _ => .skipIf
    (.bind (Deployment.reads_rows online _) fun _ =>
      .bind (Deployment.reads_rows online _) fun _ =>
        .bind (Deployment.reads_rows online _) fun _ => .pure _)

theorem Quizzes.reads_onShard (query : Quizzes) (ignored : List GlobalId) (courses : List CourseId) :
    Reads 1 (if query.choice.needingSubmissionOnly then 3 else 2)
      (query.onShard deployment ignored shard courses) := by
  have attempts (rows : List Quiz) : Reads 0 (if query.choice.needingSubmissionOnly then 1 else 0)
      (query.completed deployment shard rows) := by
    unfold completed
    split
    · exact .mono (.bind (Deployment.reads_rows online _) fun _ => .pure _) (Nat.zero_le 1)
        (Nat.le_refl 1)
    · exact .pure []
  refine .mono (.bind (Deployment.reads_rows online _) fun _ => .skipIf
    (.bind (Deployment.reads_rows online _) fun _ =>
      .bind (attempts _) fun _ => .pure _)) (Nat.le_refl 1) ?_
  split <;> decide

theorem reads_ignoredIds (user : UserId) (kind : ObjectKind) (purpose : Purpose) (options : NeedsOptions)
    (home : user.shard = shard) :
    Reads options.ignoreReads options.ignoreReads
      (ignoredIds deployment user kind purpose options) := by
  subst home
  unfold ignoredIds NeedsOptions.ignoreReads
  split
  · exact .pure []
  · exact .bind (Deployment.reads_rows online _) fun _ => .pure _

end Steps

section Gathering

variable {ι κ : Type} {deployment : Deployment} {most : Nat}

theorem reads_gatherParts {step : ShardId → List κ → Metered (List ι)}
    (steps : ∀ shard ids, Reads 1 most (step shard ids)) (parts : List (ShardId × List κ)) :
    Reads parts.length (most * parts.length) (gatherParts step parts) := by
  induction parts with
  | nil => exact .pure []
  | cons part rest ih =>
      refine .mono (.bind ((steps part.1 part.2).onShard part.1) fun first =>
        .bind ih fun others => .pure (first ++ others)) ?_ ?_
      · simp only [List.length_cons]
        omega
      · simp only [List.length_cons, Nat.mul_succ]
        omega

theorem reads_ignoring [Listed ι] (online : deployment.offline = []) {user : UserId} {kind : ObjectKind}
    {purpose : Purpose} {options : NeedsOptions}
    {step : List GlobalId → ShardId → List κ → Metered (List ι)} {ending : List ι → Metered (List ι)}
    (steps : ∀ ignored shard ids, Reads 1 most (step ignored shard ids))
    (unread : ∀ items, (ending items).effort.Unread) (partition : ShardPartition κ) :
    options.ignoreReads + (partition.parts.map (·.1)).length ≤ ((do
      let ignored ← ignoredIds deployment user kind purpose options
      gather partition (step ignored)) >>= ending).effort.reads ∧
    ((do
      let ignored ← ignoredIds deployment user kind purpose options
      gather partition (step ignored)) >>= ending).effort.reads ≤
        options.ignoreReads + most * (partition.parts.map (·.1)).length := by
  have home : user.shard ∉ deployment.offline := by simp [online]
  rw [List.length_map]
  refine Reads.bind_unread (.bind (reads_ignoredIds home user kind purpose options rfl) fun ignored => ?_)
    unread
  exact .bind (reads_gatherParts (steps ignored) partition.parts) fun items => .pure (Listed.sort items)

end Gathering

theorem unread_keepPassing {ι : Type} {check : ι → Metered Bool}
    (checks : ∀ item, (check item).effort.Unread) (cap : Option Nat) (items : List ι) :
    (keepPassing check cap items).effort.Unread := by
  induction items generalizing cap with
  | nil => cases cap with
    | none => rfl
    | some count => cases count <;> rfl
  | cons item rest ih =>
      by_cases full : cap = some 0
      · subst full
        rfl
      rw [keepPassing]
      swap
      · exact full
      refine Effort.Unread.closed.bind (checks item) fun passes => ?_
      split
      · exact Effort.Unread.closed.bind (ih _) fun _ => rfl
      · exact ih cap

theorem Deployment.unread_use {α : Type} {deployment : Deployment} {facility : Facility} {effort : Effort}
    {answer : α} (cost : effort.Unread) : (deployment.use facility effort answer).effort.Unread := by
  unfold use
  cases deployment.failure? facility with
  | some failure => rfl
  | none => exact cost

namespace NeedsQuery

/-- How often a query reads one shard at most. -/
def readsPerShard : NeedsQuery → Nat
  | .submitting _ _ => 4
  | .grading _ => 5
  | .moderation => 3
  | .quizzes choice => if choice.needingSubmissionOnly then 3 else 2
  | .reviews => 4
  | .topics => 1
  | .pages => 1

def shardsTouched (query : NeedsQuery) (scope : Scope) : Nat :=
  match query with
  | .topics => (scope.contexts.map Context.shard).dedup.length
  | .pages => (scope.contexts.map Context.shard).dedup.length
  | _ => (scope.courses.toList.map Id.shard).dedup.length

variable {query : NeedsQuery} {deployment : Deployment} {user : UserId} {options : NeedsOptions}
  {scope : Scope}

theorem length_shards (resolved : (query.scope deployment user options).outcome = .ok scope) :
    (query.shards scope).length = query.shardsTouched scope := by
  obtain ⟨courses, groups, rfl⟩ := Scope.spread_of_resolve resolved
  have ofCourses : (ShardPartition.ofList courses).shardCount =
      ((ShardPartition.ofList courses).toList.map Id.shard).dedup.length :=
    (ShardPartition.wellFormed_ofList courses).shardCount_eq fun _ => Iff.rfl
  have ofContexts (scope : Scope) : scope.byShard.shardCount =
      (scope.contexts.map Context.shard).dedup.length :=
    (ShardPartition.wellFormed_ofList scope.contexts).shardCount_eq fun _ =>
      ShardPartition.mem_toList_ofList
  cases query with
  | topics => exact (List.length_map _).trans (ofContexts _)
  | pages => exact (List.length_map _).trans (ofContexts _)
  | _ => exact (List.length_map _).trans ofCourses

/-- The first items of a scope cost that many reads, whatever the tables hold. -/
theorem reads_firstItems (online : deployment.offline = []) :
    options.ignoreReads + (query.shards scope).length ≤
      (query.firstItems deployment user options scope).effort.reads ∧
    (query.firstItems deployment user options scope).effort.reads ≤
      options.ignoreReads + query.readsPerShard * (query.shards scope).length := by
  have reachable (shard : ShardId) : shard ∉ deployment.offline := by simp [online]
  have cut {ι : Type} (items : List ι) : (pure (options.truncate items) : Metered _).effort.Unread := rfl
  have checked (item : AssignmentTodo) :
      (deployment.checkOne user (Listed.context item) .selectFinalGrade).effort.Unread :=
    Deployment.unread_use rfl
  cases query with
  | submitting kind choice =>
      exact reads_ignoring online (fun ignored shard =>
        Submitting.reads_onShard (reachable shard) ⟨kind, choice, user, options⟩ ignored) cut _
  | grading kind =>
      exact reads_ignoring online (fun ignored shard =>
        Grading.reads_onShard (reachable shard) ⟨kind, user, options⟩ ignored) cut _
  | moderation =>
      exact reads_ignoring online (fun ignored shard =>
        Moderation.reads_onShard (reachable shard) ⟨user, options⟩ ignored)
        (unread_keepPassing checked options.limit) _
  | quizzes choice =>
      exact reads_ignoring online (fun ignored shard =>
        Quizzes.reads_onShard (reachable shard) ⟨choice, user, options⟩ ignored) cut _
  | reviews =>
      exact reads_ignoring online (fun ignored shard =>
        Reviews.reads_onShard (reachable shard) ⟨user, options⟩ true ignored) cut _
  | topics =>
      exact reads_ignoring online (fun _ shard _ =>
        .bind (Deployment.reads_rows (reachable shard) _) fun _ => .pure _) cut _
  | pages =>
      exact reads_ignoring online (fun _ shard _ =>
        .bind (Deployment.reads_rows (reachable shard) _) fun _ => .pure _) cut _

end NeedsQuery

end Agenda

import Agenda.Proofs.Effort
import Agenda.Proofs.Needs.ModerationList
import Agenda.Proofs.World.Expiry
import Agenda.Proofs.World.GradingPermission

/-!
Moderation with a limit, told from the tables and the grants: the answer is the beginning of what is
listed and granted, and the permission to choose final grades is checked for each listed assignment up
to the last one that the answer needs.
-/

namespace Agenda

section Checks

variable {ι : Type} {check : ι → Metered Bool} {passes : ι → Bool}

/-- How many items have to be checked for a number of them to pass: all up to the one that completes the
number, or all there are. -/
def checksFor (passes : ι → Bool) (items : List ι) : Option Nat → Nat
  | none => items.length
  | some 0 => 0
  | some (count + 1) => min (items.findIdxNth passes count + 1) items.length

variable (answers : ∀ item, check item = ⟨.ok (passes item), { singleChecks := 1 }⟩)
include answers

theorem singleChecks_cons {cap : Option Nat} (wanting : cap ≠ some 0) (item : ι) (rest : List ι) :
    (keepPassing check cap (item :: rest)).effort.singleChecks =
      1 + (keepPassing check (if passes item then cap.map fun count => count - 1 else cap)
        rest).effort.singleChecks := by
  rw [keepPassing, answers, Metered.bind_of_ok rfl]
  swap
  · exact wanting
  rw [Effort.singleChecks_add]
  cases passed : passes item with
  | false => rfl
  | true =>
      simp only [if_true]
      cases others : (keepPassing check (cap.map fun count => count - 1) rest).outcome with
      | error error => rw [Metered.bind_of_error others]
      | ok kept =>
          rw [Metered.bind_of_ok others]
          rfl

theorem singleChecks_keepPassing (cap : Option Nat) (items : List ι) :
    (keepPassing check cap items).effort.singleChecks = checksFor passes items cap := by
  -- The limit is general: each item that passes leaves one less to find in the rest.
  induction items generalizing cap with
  | nil =>
      cases cap with
      | none => rfl
      | some count => cases count <;> rfl
  | cons item rest ih =>
      cases cap with
      | none =>
          rw [singleChecks_cons answers (by simp), Option.map_none, ite_self, ih]
          simp only [checksFor, List.length_cons]
          omega
      | some count =>
          cases count with
          | zero => rfl
          | succ count =>
              rw [singleChecks_cons answers (by simp), ih]
              cases passed : passes item with
              | true =>
                  cases count with
                  | zero => simp [checksFor, passed]
                  | succ count =>
                      simp only [if_true, Option.map_some, Nat.add_sub_cancel, checksFor,
                        List.findIdxNth_cons_succ_of_pos passed, List.length_cons]
                      omega
              | false =>
                  simp only [Bool.false_eq_true, if_false, checksFor,
                    List.findIdxNth_cons_of_neg passed, List.length_cons]
                  omega

end Checks

section Reads

open Effort (Unchecked)

variable {deployment : Deployment}

theorem unchecked_gather {ι κ : Type} [Listed ι] {step : ShardId → List κ → Metered (List ι)}
    (steps : ∀ shard ids, (step shard ids).effort.Unchecked) (partition : ShardPartition κ) :
    (gather partition step).effort.Unchecked := by
  have parts (parts : List (ShardId × List κ)) : (gatherParts step parts).effort.Unchecked := by
    induction parts with
    | nil => exact Unchecked.closed.zero
    | cons part rest ih =>
        exact Unchecked.closed.bind (steps part.1 part.2) fun _ => Unchecked.closed.bind ih fun _ => rfl
  exact Unchecked.closed.bind (parts _) fun _ => rfl

theorem unchecked_ignoredIds (user : UserId) (kind : ObjectKind) (purpose : Purpose)
    (options : NeedsOptions) : (ignoredIds deployment user kind purpose options).effort.Unchecked := by
  unfold ignoredIds
  split
  · rfl
  · exact Unchecked.closed.bind (Unchecked.closed.bind rfl fun _ => rfl) fun _ => rfl

namespace Moderation

theorem unchecked_onShard (query : Moderation) (ignored : List GlobalId) (shard : ShardId)
    (courses : List CourseId) : (query.onShard deployment ignored shard courses).effort.Unchecked := by
  refine Unchecked.closed.bind (Unchecked.closed.bind rfl fun _ => rfl) fun rows => ?_
  dsimp only
  split
  · rfl
  refine Unchecked.closed.bind (Unchecked.closed.bind rfl fun _ => rfl) fun submissions => ?_
  split
  · rfl
  exact Unchecked.closed.bind (Unchecked.closed.bind rfl fun _ => rfl) fun grades => rfl

theorem unchecked_candidates (query : Moderation) (scope : Scope) :
    (query.candidates deployment scope).effort.Unchecked :=
  Unchecked.closed.bind (unchecked_ignoredIds ..) fun ignored =>
    unchecked_gather (query.unchecked_onShard ignored) scope.courses

def sorted (query : Moderation) (deployment : Deployment) (scope : Scope) : List AssignmentTodo :=
  Listed.sort (scope.courses.parts.flatMap fun part => query.found deployment
    (deployment.ignored query.user .assignment .moderation query.options) part.1 part.2)

def grants (query : Moderation) (deployment : Deployment) (item : AssignmentTodo) : Bool :=
  deployment.allows query.user (.course item.assignment.course) .selectFinalGrade

theorem outcome_candidates (query : Moderation) (online : deployment.offline = []) (scope : Scope) :
    (query.candidates deployment scope).outcome = .ok (query.sorted deployment scope) := by
  have readable : deployment.reachIgnores query.user query.options = .ok () :=
    Deployment.reachIgnores_readable (.inr (by simp [online]))
  have reachable : deployment.reach (scope.courses.parts.map (·.1)) = .ok () :=
    Deployment.reach_reachable fun shard _ => by simp [online]
  have listed : (query.candidates deployment scope).outcome = _ :=
    NeedsQuery.outcome_ignoring (query.outcome_onShard deployment) scope.courses
  rw [listed, readable, reachable]
  rfl

theorem list_served (query : Moderation) (online : deployment.offline = [])
    (working : deployment.outages = []) (scope : Scope) (cap : Option Nat) :
    let granted := (query.sorted deployment scope).filter (query.grants deployment)
    (query.list deployment scope cap).outcome = .ok (cap.elim granted granted.take) ∧
      (query.list deployment scope cap).effort.singleChecks =
        checksFor (query.grants deployment) (query.sorted deployment scope) cap := by
  have answers (item : AssignmentTodo) :
      deployment.checkOne query.user (Listed.context item) .selectFinalGrade =
        ⟨.ok (query.grants deployment item), { singleChecks := 1 }⟩ :=
    Deployment.use_served working .checkOne _ _
  rw [list, Metered.bind_of_ok (query.outcome_candidates online scope)]
  refine ⟨outcome_keepPassing (fun item => congrArg Metered.outcome (answers item)) cap _, ?_⟩
  have unchecked : (query.candidates deployment scope).effort.singleChecks = 0 :=
    query.unchecked_candidates scope
  rw [Effort.singleChecks_add, unchecked, singleChecks_keepPassing answers, Nat.zero_add]

theorem sorted_perm (query : Moderation) (distinct : deployment.tables.DistinctIds)
    {courses : List CourseId} {groups : ShardPartition GroupId} :
    (query.sorted deployment ⟨.ofList courses, groups⟩).Perm
      ((deployment.tables.assignments.filter fun row =>
        query.Lists deployment.tables ⟨.ofList courses, groups⟩ row).map fun row =>
          ⟨row, row.due, none⟩) :=
  (List.mergeSort_perm _ Listed.noLater).trans (query.flatMap_found_perm distinct groups)

theorem sorted_strict (query : Moderation) (distinct : deployment.tables.DistinctIds)
    {courses : List CourseId} {groups : ShardPartition GroupId} :
    (query.sorted deployment ⟨.ofList courses, groups⟩).Pairwise fun earlier later =>
      Listed.noLater later earlier = false := by
  apply Listed.sort_strict_of_ids
  rw [((query.flatMap_found_perm distinct groups).map Listed.id).nodup_iff, List.map_map]
  have ids : ((deployment.tables.assignments.filter fun row =>
      query.Lists deployment.tables ⟨.ofList courses, groups⟩ row).map (·.id)).Nodup :=
    distinct.assignments.sublist (List.filter_sublist.map _)
  refine List.Nodup.of_map (Id.mk : GlobalId → AssignmentId) ?_
  rw [List.map_map]
  exact ids

end Moderation

end Reads

namespace World

/-- With nothing out of order, take the assignments that the tables list for the final grader, in
strictly ascending order. A cached moderation query that misses checks the permission for each of them up
to the one that completes its limit, or for all, and never another one. It answers those that are granted,
up to the limit, if its result gets an expiry. If not, it fails with a lifetime that is no span of time,
and stops with one that leads past the last instant. -/
theorem moderation_capped (deployment : Deployment) (memory : Memory) (user : UserId)
    (options : NeedsOptions) (distinct : deployment.tables.DistinctIds)
    (online : deployment.offline = []) (working : deployment.outages = []) :
    let query : Moderation := ⟨user, options⟩
    let call : Lookup := ⟨deployment, memory, .moderation, user, options⟩
    ∃ scope, call.scope = .ok scope ∧ ∃ listed : List AssignmentTodo,
      listed.Pairwise (fun earlier later => Listed.noLater later earlier = false) ∧
      listed.Perm ((deployment.tables.assignments.filter fun row =>
        query.Lists deployment.tables scope row).map fun row => ⟨row, row.due, none⟩) ∧
      (scope.courses.isEmpty = false → call.found? scope = none →
        let granted := listed.filter (query.grants deployment)
        call.result.2.effort.singleChecks =
          memory.effort.singleChecks + checksFor (query.grants deployment) listed options.limit ∧
        (deployment.now.add? call.lifetime ≠ none →
          call.result.1 = .ok (options.limit.elim granted granted.take)) ∧
        (deployment.now.add? call.lifetime = none → call.result.1 = .error
          (if Cache.longestLifetime < call.lifetime then .failed .lifetimeOutOfRange
          else .timeOverflow))) := by
  intro query call
  obtain ⟨scope, resolved⟩ :=
    Scope.outcome_resolve_served working user (options.scopeRequest NeedsQuery.moderation.permission)
  obtain ⟨courses, groups, rfl⟩ := Scope.spread_of_resolve resolved
  let scope : Scope := ⟨.ofList courses, .ofList groups⟩
  refine ⟨scope, resolved, query.sorted deployment scope, query.sorted_strict distinct,
    query.sorted_perm distinct, fun inside missing => ?_⟩
  intro granted
  obtain ⟨answer, checks⟩ := query.list_served online working scope options.limit
  have misses : call.Misses scope (options.limit.elim granted granted.take) :=
    ⟨⟨rfl, resolved, inside⟩, Deployment.failure?_eq_none working .readToken, missing, answer⟩
  have readEntry := Deployment.failure?_eq_none working .readEntry
  have writeEntry := Deployment.failure?_eq_none working .writeEntry
  refine ⟨?_, fun representable => ?_, fun late => ?_⟩
  · have asked : (NeedsQuery.moderation.scope deployment user options).effort.singleChecks = 0 :=
      (Scope.effort_resolve deployment user _).singleChecks
    rw [Lookup.effort_of_missing misses.toAsks misses.reached readEntry misses.missing,
      Effort.singleChecks_add, Effort.singleChecks_add]
    change memory.effort.singleChecks +
      (NeedsQuery.moderation.scope deployment user options).effort.singleChecks +
        (query.list deployment scope options.limit).effort.singleChecks = _
    rw [asked, checks, Nat.add_zero]
  · exact Lookup.answered_of_misses misses readEntry writeEntry representable
  · by_cases long : Cache.longestLifetime < call.lifetime
    · rw [if_pos long]
      exact (Lookup.result_of_long misses readEntry writeEntry long).1
    · rw [if_neg long]
      exact (Lookup.result_of_late misses readEntry writeEntry (Duration.not_lt.mp long) late).1

def provisionalEssay (id : AssignmentId) (course : CourseId) (now : Instant) : Assignment :=
  { essay with id, course, updated := now, moderated := true, finalGrader := some classUser }

def seminar : CourseId :=
  ⟨sampleId 2⟩

def rome : Instant → Assignment :=
  provisionalEssay ⟨sampleId 5⟩ seminar

def motion : Instant → Assignment :=
  provisionalEssay ⟨sampleId 10⟩ lecture

def heat : Instant → Assignment :=
  provisionalEssay ⟨sampleId 11⟩ lecture

def moderatedClass (now : Instant) : Deployment :=
  let work (number : Nat) (row : Assignment) : Submission :=
    ⟨⟨sampleId number⟩, row.id, ⟨sampleId 7⟩, .submitted, some .onlineTextEntry, false, false, false,
      none⟩
  let grade (number : Nat) : ProvisionalGrade :=
    ⟨⟨sampleId number⟩, ⟨sampleId 8⟩⟩
  { tables := {
      memberships := [⟨classUser, [⟨lecture, .teacher, .active, false⟩,
        ⟨seminar, .teacher, .active, false⟩], []⟩]
      assignments := [heat now, motion now, rome now]
      submissions := [work 20 (rome now), work 21 (motion now), work 22 (heat now)]
      provisionalGrades := [grade 20, grade 21, grade 22] }
    grants := [⟨classUser, .course lecture, .selectFinalGrade⟩]
    offline := []
    outages := []
    now := now
    config := {} }

/-- For one essay two are checked. -/
theorem moderation_capped_second :
    let now := practice.deployment.now
    let call : Lookup := ⟨moderatedClass now, .empty, .moderation, classUser, { limit := some 1 }⟩
    call.result.1 = .ok [(⟨motion now, none, none⟩ : AssignmentTodo)] ∧
      call.result.2.effort.singleChecks = 2 := by
  intro now call
  let item (row : Assignment) : AssignmentTodo := ⟨row, row.due, none⟩
  obtain ⟨scope, resolved, listed, strict, perm, capped⟩ :=
    moderation_capped (moderatedClass now) .empty classUser { limit := some 1 }
      ⟨by decide, by decide⟩ rfl rfl
  have area : scope = ⟨.ofList [lecture, seminar], .empty⟩ :=
    (Except.ok.inj resolved).symm
  subst area
  have kept : (moderatedClass now).tables.assignments.filter (fun row =>
      Moderation.Lists ⟨classUser, { limit := some 1 }⟩ (moderatedClass now).tables
        ⟨.ofList [lecture, seminar], .empty⟩ row) = [heat now, motion now, rome now] :=
    List.filter_eq_self.mpr (by decide +kernel)
  rw [kept] at perm
  have order : listed = [rome now, motion now, heat now].map item := by
    have turned : listed.Perm ([rome now, motion now, heat now].map item) :=
      perm.trans ((List.reverse_perm [rome now, motion now, heat now]).map item)
    refine turned.eq_of_pairwise (fun first second _ _ before after => ?_) strict (by decide +kernel)
    have either := Listed.noLater_total first second
    rw [after, before] at either
    cases either
  subst order
  obtain ⟨checks, answer, -⟩ := capped rfl rfl
  have granted : ([rome now, motion now, heat now].map item).filter
      (Moderation.grants ⟨classUser, { limit := some 1 }⟩ (moderatedClass now)) =
        [motion now, heat now].map item := by
    rw [List.map_cons, List.filter_cons_of_neg (by decide), List.filter_eq_self.mpr (by decide)]
  have two : checksFor (Moderation.grants ⟨classUser, { limit := some 1 }⟩ (moderatedClass now))
      ([rome now, motion now, heat now].map item) (some 1) = 2 := by decide
  have answered := answer (by decide +kernel)
  rw [granted] at answered
  refine ⟨answered, ?_⟩
  rw [checks, two]
  rfl

/-- In the last second there is no expiry two hours ahead, and the call of the same grader stops. -/
theorem moderation_overflows :
    let now : Instant := ⟨⟨262142, 12, 31, by decide⟩, 86399, 0, by decide, by decide⟩
    let call : Lookup := ⟨moderatedClass now, .empty, .moderation, classUser, { limit := some 1 }⟩
    (moderatedClass now).tables.DistinctIds ∧ (moderatedClass now).offline = [] ∧
      (∃ scope, call.scope = .ok scope ∧ scope.courses.isEmpty = false ∧ call.found? scope = none) ∧
      call.result.1 = .error .timeOverflow := by
  intro now call
  let scope : Scope := ⟨.ofList [lecture, seminar], .empty⟩
  have late : call.deployment.now.add? call.lifetime = none := by decide +kernel
  have misses : call.Misses scope _ := {
    enabled := rfl
    resolved := rfl
    inside := rfl
    reached := rfl
    missing := rfl
    computed := (Moderation.list_served ⟨classUser, { limit := some 1 }⟩ rfl rfl scope (some 1)).1 }
  refine ⟨⟨by decide, by decide⟩, rfl, ⟨scope, rfl, rfl, rfl⟩, ?_⟩
  exact (Lookup.result_of_late misses rfl rfl (by decide) late).1

end World

end Agenda

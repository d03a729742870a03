import Agenda.Proofs.Dashboard.Calls
import Agenda.Proofs.Needs.SameRows

/-!
Dashboards do not depend on the order of rows: the queries do not, and a course has one name.
-/

namespace Agenda

namespace TodoList

open Metered (Corresponds)

variable {left right : Deployment} (same : left.SameRows right)

include same

theorem gradingMatrix_sameRows (user : UserId) (contexts : List Context) :
    gradingMatrix left user contexts = gradingMatrix right user contexts := by
  have allowed : left.allows = right.allows := by
    funext user context permission
    exact same.allows user context permission
  simp only [gradingMatrix, Deployment.checkMany, Deployment.use, allowed, same.failure?]

theorem readNames_sameRows (parts : List (ShardId × List Context)) :
    Corresponds (fun rows others => rows.Perm others ∧ rows ⊆ left.tables.courses)
      (readNames left parts) (readNames right parts) := by
  induction parts with
  | nil => exact .pure ⟨.refl _, List.nil_subset _⟩
  | cons part rest ih =>
      obtain ⟨shard, contexts⟩ := part
      refine .bind (same.readCourses shard _) fun rows others read => ?_
      refine .bind ih fun further furtherOther found => ?_
      exact .pure ⟨read.1.append found.1, List.append_subset.mpr ⟨read.2, found.2⟩⟩

theorem nameIn_sameRows {rows others : List Course} (perm : rows.Perm others)
    (stored : rows ⊆ left.tables.courses) : nameIn rows = nameIn others := by
  funext context
  have found : (rows.reverse.find? fun row => .course row.id = context) =
      others.reverse.find? fun row => .course row.id = context := by
    refine find?_perm ((List.reverse_perm _).trans (perm.trans (List.reverse_perm _).symm)) ?_
    intro first firstListed second secondListed own further
    simp only [List.mem_reverse, decide_eq_true_eq] at *
    exact List.inj_on_of_nodup_map same.keys.courses (stored firstListed) (stored secondListed)
      (Context.course.inj (own.trans further.symm))
  simp only [nameIn, found]

theorem finish_sameRows (limits : DashboardLimits) (user : UserId)
    (grading moderation submitting : List AssignmentTodo) (reviewing : List PeerReviewTodo) :
    finish left limits user grading moderation submitting reviewing =
      finish right limits user grading moderation submitting reviewing := by
  simp only [finish, gradingMatrix_sameRows same]
  refine Metered.session_bind_congr fun matrix _ => ?_
  refine (readNames_sameRows same _).session_bind_eq fun rows others read => ?_
  simp only [ofItems, nameIn_sameRows same read.1 read.2]

theorem build_sameRows (limits : DashboardLimits) (user : UserId) :
    build left limits user = build right limits user := by
  simp only [build_eq_calls, NeedsQuery.runCached_sameRows same, finish_sameRows same]

end TodoList

end Agenda

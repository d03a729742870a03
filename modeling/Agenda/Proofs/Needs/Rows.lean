import Agenda.Proofs.Needs.Ignored
import Agenda.Proofs.Shard.Partition

/-!
What a query finds is of the kind that the query is about, and belongs to a context of its scope.
-/

namespace Agenda

theorem Tables.of_mem_assignmentsOn {tables : Tables} {shard : ShardId} {query : AssignmentQuery}
    {row : Assignment} (member : row ∈ tables.assignmentsOn shard query) :
    row.course ∈ query.courses ∧ row.isSubAssignment = query.subAssignments := by
  have admitted := (List.mem_filter.mp member).2
  simp only [AssignmentQuery.admits, Bool.and_eq_true, List.contains_eq_mem, decide_eq_true_eq,
    beq_iff_eq] at admitted
  exact ⟨admitted.2.1.1.1, admitted.2.1.2⟩

namespace Submitting

theorem row_of_found {query : Submitting} {deployment : Deployment} {ignored : List GlobalId}
    {shard : ShardId} {courses : List CourseId} {item : AssignmentTodo}
    (listed : item ∈ query.found deployment ignored shard courses) :
    item.assignment.course ∈ courses ∧
      item.assignment.isSubAssignment = decide (query.kind = .subAssignment) := by
  obtain ⟨row, candidate, made⟩ := List.mem_filterMap.mp listed
  rw [query.assignment_of_item? made]
  exact Tables.of_mem_assignmentsOn (List.mem_filter.mp candidate).1

end Submitting

namespace Grading

theorem row_of_found {query : Grading} {deployment : Deployment} {ignored : List GlobalId}
    {shard : ShardId} {courses : List CourseId} {item : AssignmentTodo}
    (listed : item ∈ query.found deployment ignored shard courses) :
    item.assignment.course ∈ courses ∧
      item.assignment.isSubAssignment = decide (query.kind = .subAssignment) := by
  obtain ⟨row, candidate, made⟩ := List.mem_filterMap.mp listed
  rw [assignment_of_item? made]
  exact Tables.of_mem_assignmentsOn (List.mem_filter.mp (Ranked.mem_of_mem_indexBy candidate)).1

end Grading

namespace Moderation

theorem row_of_found {query : Moderation} {deployment : Deployment} {ignored : List GlobalId}
    {shard : ShardId} {courses : List CourseId} {item : AssignmentTodo}
    (listed : item ∈ query.found deployment ignored shard courses) :
    item.assignment.course ∈ courses ∧ item.assignment.isSubAssignment = false := by
  obtain ⟨row, kept, rfl⟩ := List.mem_map.mp listed
  exact Tables.of_mem_assignmentsOn
    (List.mem_filter.mp (Ranked.mem_of_mem_indexBy (List.mem_filter.mp kept).1)).1

end Moderation

theorem Quizzes.course_of_found {query : Quizzes} {deployment : Deployment} {ignored : List GlobalId}
    {shard : ShardId} {courses : List CourseId} {item : QuizTodo}
    (listed : item ∈ query.found deployment ignored shard courses) : item.quiz.course ∈ courses := by
  obtain ⟨row, candidate, made⟩ := List.mem_filterMap.mp listed
  rw [query.quiz_of_item? made]
  have owned := (List.mem_filter.mp (List.mem_filter.mp candidate).1).2
  simp only [Bool.and_eq_true, List.contains_eq_mem, decide_eq_true_eq] at owned
  exact owned.2

theorem Reviews.course_of_found {query : Reviews} {deployment : Deployment} {ignored : List GlobalId}
    {shard : ShardId} {courses : List CourseId} {item : PeerReviewTodo}
    (listed : item ∈ query.found deployment ignored shard courses) : item.request.course ∈ courses := by
  obtain ⟨row, requested, made⟩ := List.mem_filterMap.mp listed
  rw [query.request_of_item? made]
  have owned := (List.mem_filter.mp (List.mem_filter.mp requested).1).2
  simp only [Bool.and_eq_true, List.contains_eq_mem, decide_eq_true_eq] at owned
  exact owned.1.2

namespace Viewing

variable {query : Viewing} {deployment : Deployment} {ignored : List GlobalId} {shard : ShardId}
  {contexts : List Context}

theorem context_of_foundTopics {topic : DiscussionTopic}
    (listed : topic ∈ query.foundTopics deployment ignored shard contexts) :
    topic.context ∈ contexts := by
  have owned := (List.mem_filter.mp (List.mem_filter.mp listed).1).2
  simp only [Bool.and_eq_true, List.contains_eq_mem, decide_eq_true_eq] at owned
  exact owned.2

theorem context_of_foundPages {page : WikiPage}
    (listed : page ∈ query.foundPages deployment ignored shard contexts) :
    page.context ∈ contexts := by
  have owned := (List.mem_filter.mp (List.mem_filter.mp listed).1).2
  simp only [Bool.and_eq_true, List.contains_eq_mem, decide_eq_true_eq] at owned
  exact owned.2

end Viewing

def AssignmentTodo.kind (item : AssignmentTodo) : ObjectKind :=
  if item.assignment.isSubAssignment then .subAssignment else .assignment

theorem AssignmentTodo.kind_eq {item : AssignmentTodo} (kind : AssignmentKind)
    (half : item.assignment.isSubAssignment = decide (kind = .subAssignment)) :
    item.kind = kind.objectKind := by
  cases kind <;> simp [AssignmentTodo.kind, half, AssignmentKind.objectKind]

namespace NeedsQuery

variable {query : NeedsQuery} {deployment : Deployment} {user : UserId} {options : NeedsOptions}
  {scope : Scope} {ignored : List GlobalId}

def kindOf : (query : NeedsQuery) → query.Item → ObjectKind
  | .submitting _ _, item => AssignmentTodo.kind item
  | .grading _, item => AssignmentTodo.kind item
  | .moderation, item => AssignmentTodo.kind item
  | .quizzes _, _ => .quiz
  | .reviews, _ => .assessmentRequest
  | .topics, _ => .discussionTopic
  | .pages, _ => .wikiPage

theorem kindOf_found {item : query.Item}
    (listed : item ∈ query.found deployment user options scope ignored) :
    query.kindOf item = query.objectKind := by
  cases query with
  | submitting kind choice =>
      obtain ⟨part, -, found⟩ := List.mem_flatMap.mp listed
      exact AssignmentTodo.kind_eq kind (Submitting.row_of_found found).2
  | grading kind =>
      obtain ⟨part, -, found⟩ := List.mem_flatMap.mp listed
      exact AssignmentTodo.kind_eq kind (Grading.row_of_found found).2
  | moderation =>
      obtain ⟨part, -, found⟩ := List.mem_flatMap.mp listed
      exact AssignmentTodo.kind_eq .assignment (Moderation.row_of_found found).2
  | quizzes choice => rfl
  | reviews => rfl
  | topics => rfl
  | pages => rfl

theorem context_of_found {item : query.Item}
    (listed : item ∈ query.found deployment user options scope ignored) :
    Listed.context item ∈ scope.contexts := by
  have inCourses {part : ShardId × List CourseId} (isPart : part ∈ scope.courses.parts) {id : CourseId}
      (member : id ∈ part.2) : Context.course id ∈ scope.contexts :=
    List.mem_append_left _ (List.mem_map_of_mem (ShardPartition.mem_toList isPart member))
  have inContexts {part : ShardId × List Context} (isPart : part ∈ scope.byShard.parts)
      {context : Context} (member : context ∈ part.2) : context ∈ scope.contexts :=
    ShardPartition.mem_toList_ofList.mp (ShardPartition.mem_toList isPart member)
  cases query with
  | submitting kind choice =>
      obtain ⟨part, isPart, found⟩ := List.mem_flatMap.mp listed
      exact inCourses isPart (Submitting.row_of_found found).1
  | grading kind =>
      obtain ⟨part, isPart, found⟩ := List.mem_flatMap.mp listed
      exact inCourses isPart (Grading.row_of_found found).1
  | moderation =>
      obtain ⟨part, isPart, found⟩ := List.mem_flatMap.mp listed
      exact inCourses isPart (Moderation.row_of_found found).1
  | quizzes choice =>
      obtain ⟨part, isPart, found⟩ := List.mem_flatMap.mp listed
      exact inCourses isPart (Quizzes.course_of_found found)
  | reviews =>
      obtain ⟨part, isPart, found⟩ := List.mem_flatMap.mp listed
      exact inCourses isPart (Reviews.course_of_found found)
  | topics =>
      obtain ⟨part, isPart, found⟩ := List.mem_flatMap.mp listed
      exact inContexts isPart (Viewing.context_of_foundTopics found)
  | pages =>
      obtain ⟨part, isPart, found⟩ := List.mem_flatMap.mp listed
      exact inContexts isPart (Viewing.context_of_foundPages found)

theorem mem_found_of_sorted {item : query.Item}
    (member : item ∈ query.sorted deployment user options scope) :
    item ∈ query.found deployment user options scope (query.ignored deployment user options) :=
  (List.mergeSort_perm _ _).mem_iff.mp member

theorem sublist_of_firstItems {items : List query.Item}
    (listed : (query.firstItems deployment user options scope).outcome = .ok items) :
    items.Sublist (keepAll query.leftIn (query.sorted deployment user options scope)) := by
  rw [outcome_firstItems_eq] at listed
  obtain ⟨-, -, chosen⟩ := bind_eq_ok.mp listed
  exact choose_sublist chosen

theorem mem_found_of_firstItems {items : List query.Item}
    (listed : (query.firstItems deployment user options scope).outcome = .ok items)
    {item : query.Item} (member : item ∈ items) :
    item ∈ query.found deployment user options scope (query.ignored deployment user options) := by
  have kept := (sublist_of_firstItems listed).subset member
  rw [keepAll_eq_filter] at kept
  exact mem_found_of_sorted (List.mem_filter.mp kept).1

theorem sublist_of_run {items : List query.Item}
    (listed : (query.run deployment user options).outcome = .ok items) :
    items = [] ∨ ∃ scope, (query.scope deployment user options).outcome = .ok scope ∧
      items.Sublist (query.sorted deployment user options scope) := by
  cases disabled : query.isDisabled deployment.config with
  | true =>
      rw [outcome_run_disabled disabled] at listed
      exact .inl (Except.ok.inj listed).symm
  | false =>
      rw [outcome_run_enabled disabled] at listed
      obtain ⟨scope, resolved, inScope⟩ := bind_eq_ok.mp listed
      rw [outcome_list] at inScope
      obtain ⟨-, -, chosen⟩ := bind_eq_ok.mp inScope
      exact .inr ⟨scope, resolved, choose_sublist chosen⟩

/-- Every item of a list belongs to the scope that the query resolves. -/
theorem inScope_of_run {items : List query.Item}
    (listed : (query.run deployment user options).outcome = .ok items) {item : query.Item}
    (member : item ∈ items) : ∃ scope, (query.scope deployment user options).outcome = .ok scope ∧
      Listed.context item ∈ scope.contexts := by
  rcases sublist_of_run listed with rfl | ⟨scope, resolved, sublist⟩
  · cases member
  · exact ⟨scope, resolved, context_of_found (mem_found_of_sorted (sublist.subset member))⟩

end NeedsQuery

end Agenda

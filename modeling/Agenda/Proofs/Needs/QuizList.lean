import Agenda.Proofs.Needs.Criteria
import Agenda.Proofs.Scope

/-!
The ungraded quizzes of a student, told from the tables alone: each row of a quiz that is still to be
taken stands on the list once, with the dates that the student has. Quizzes share the table of overrides
with assignments, and what it holds for those makes no difference.
-/

namespace Agenda

namespace Tables

variable (tables : Tables)

def quizDatesFor (user : UserId) (row : Quiz) : EffectiveDates :=
  let rows := tables.overrides.filter fun other => other.target = .quiz row.id && other.user = user
  (rows.getLast?.map (·.dates)).getD row.dates

def HasCompleted (user : UserId) (quiz : QuizId) : Prop :=
  ∃ row ∈ tables.quizAttempts, row.quiz = quiz ∧ row.user = user ∧ row.completed

instance (user : UserId) (quiz : QuizId) : Decidable (tables.HasCompleted user quiz) :=
  inferInstanceAs (Decidable (∃ row ∈ tables.quizAttempts, _))

end Tables

namespace Quizzes

/-- The quiz is still to be taken: open, due in the window, and without a completed attempt if those
are left out. -/
@[mk_iff]
structure IsStillOpen (query : Quizzes) (tables : Tables) (now : Instant) (row : Quiz) : Prop where
  unfinished : query.choice.needingSubmissionOnly → ¬tables.HasCompleted query.user row.id
  unlocked : (tables.quizDatesFor query.user row).isLocked now = false
  due : query.options.withinWindow (tables.quizDatesFor query.user row).due

/-- A quiz of a scope that is listed for a student at a time. -/
@[mk_iff]
structure Lists (query : Quizzes) (tables : Tables) (scope : Scope) (now : Instant) (row : Quiz) :
    Prop where
  held : scope.Holds (.course row.course) row.id.shard
  available : row.state = .available
  ungraded : row.type = .practice ∨ row.type = .survey
  visible : row.isVisibleTo query.user
  wanted : query.options.includeIgnored ∨
    ¬tables.Ignores query.user ⟨.quiz, row.id.global⟩ .submitting
  still : query.IsStillOpen tables now row

instance (query : Quizzes) (tables : Tables) (now : Instant) (row : Quiz) :
    Decidable (query.IsStillOpen tables now row) :=
  decidable_of_iff _ (isStillOpen_iff query tables now row).symm

instance (query : Quizzes) (tables : Tables) (scope : Scope) (now : Instant) (row : Quiz) :
    Decidable (query.Lists tables scope now row) :=
  decidable_of_iff _ (lists_iff query tables scope now row).symm

variable {query : Quizzes} {deployment : Deployment} {scope : Scope} {shard : ShardId}
  {courses : List CourseId} {row : Quiz}

theorem contains_completedOn (home : row.id.shard = shard) :
    (query.completedOn deployment shard).contains row.id = false ↔
      (query.choice.needingSubmissionOnly → ¬deployment.tables.HasCompleted query.user row.id) := by
  unfold completedOn
  by_cases asked : query.choice.needingSubmissionOnly = true
  swap
  · simp [asked]
  simp only [asked, if_true, forall_const, List.contains_eq_mem, decide_eq_false_iff_not,
    Tables.attemptsOn, List.mem_map, List.mem_filter, Bool.and_eq_true, decide_eq_true_eq,
    Tables.HasCompleted]
  refine not_congr ⟨?_, ?_⟩
  · rintro ⟨other, ⟨⟨member, -, mine⟩, done⟩, same⟩
    exact ⟨other, member, same, mine, done⟩
  · rintro ⟨other, member, same, mine, done⟩
    exact ⟨other, ⟨⟨member, by rw [same, home], mine⟩, done⟩, same⟩

theorem isUngraded_iff {type : QuizType} :
    type.isUngraded = true ↔ type = .practice ∨ type = .survey := by
  cases type <;> decide

theorem isCandidate_iff :
    query.isCandidate (deployment.ignored query.user .quiz .submitting query.options) row = true ↔
      row.state = .available ∧ (row.type = .practice ∨ row.type = .survey) ∧
        row.isVisibleTo query.user ∧ (query.options.includeIgnored ∨
          ¬deployment.tables.Ignores query.user ⟨.quiz, row.id.global⟩ .submitting) := by
  simp only [isCandidate, isUngraded_iff, Bool.and_eq_true, Bool.not_eq_true', decide_eq_true_eq,
    Deployment.contains_ignored, and_assoc]

theorem item?_eq (home : row.id.shard = shard) :
    query.item? deployment.now (deployment.tables.overridesOn shard query.user)
        (query.completedOn deployment shard) row =
      if query.IsStillOpen deployment.tables deployment.now row then
        some ⟨row, (deployment.tables.quizDatesFor query.user row).due⟩
      else none := by
  have dates : (DueDateOverride.datesOf? (deployment.tables.overridesOn shard query.user)
      (.quiz row.id)).getD row.dates = deployment.tables.quizDatesFor query.user row := by
    rw [Tables.datesOf?_overridesOn _ (.quiz row.id) home]
    rfl
  simp only [item?, dates]
  refine if_congr ?_ rfl rfl
  simp only [isStillOpen_iff, ← contains_completedOn home, Bool.and_eq_true, Bool.not_eq_true',
    and_assoc]

theorem found_eq (owned : ∀ course ∈ courses, course.shard = shard)
    (covered : ∀ course ∈ courses, course ∈ scope.courses.toList) :
    query.found deployment (deployment.ignored query.user .quiz .submitting query.options) shard
        courses =
      (deployment.tables.quizzes.filter fun row =>
        courses.contains row.course && query.Lists deployment.tables scope deployment.now row).map
          fun row => ⟨row, (deployment.tables.quizDatesFor query.user row).due⟩ := by
  rw [found, candidates, Tables.quizzesOn, List.filter_filter, List.filterMap_filter,
    ← List.filterMap_eq_map', List.filterMap_filter]
  refine List.filterMap_congr fun row _ => ?_
  by_cases asked : row.course ∈ courses
  swap
  · simp [asked]
  by_cases home : row.id.shard = shard
  swap
  · have away : ¬query.Lists deployment.tables scope deployment.now row := fun lists =>
      home (lists.held.home.trans (owned _ asked))
    simp [home, away]
  have held : scope.Holds (.course row.course) shard := ⟨covered _ asked, (owned _ asked).symm⟩
  rw [item?_eq home, ← ite_and]
  refine if_congr ?_ rfl rfl
  simp only [Bool.and_eq_true, isCandidate_iff, lists_iff, held, home, asked, List.contains_eq_mem,
    decide_eq_true_eq, true_and, and_true, and_assoc]

theorem flatMap_found_perm {groups : ShardPartition GroupId} :
    ((ShardPartition.ofList courses).parts.flatMap fun part => query.found deployment
        (deployment.ignored query.user .quiz .submitting query.options) part.1 part.2).Perm
      ((deployment.tables.quizzes.filter fun row =>
        query.Lists deployment.tables ⟨.ofList courses, groups⟩ deployment.now row).map fun row =>
          ⟨row, (deployment.tables.quizDatesFor query.user row).due⟩) := by
  refine ShardPartition.flatMap_perm_of_parts Quiz.course (fun row listed => ?_)
    fun part isPart => .of_eq ?_
  · exact ShardPartition.mem_toList_ofList.mp (of_decide_eq_true listed).held.covered
  · exact query.found_eq (fun course member => ShardPartition.shard_of_mem isPart member)
      fun course member => ShardPartition.mem_toList isPart member

end Quizzes

def Deployment.withWork (deployment : Deployment) (submissions : List Submission)
    (overrides : List DueDateOverride) : Deployment :=
  { deployment with tables := { deployment.tables with
      submissions := submissions
      overrides := overrides } }

def OverrideTarget.isQuiz : OverrideTarget → Bool
  | .assignment _ => false
  | .quiz _ => true

section OtherWork

variable {deployment : Deployment} {submissions : List Submission} {overrides : List DueDateOverride}

theorem Deployment.read_withWork {α : Type} {shard : ShardId} {answer : Tables → Metered α}
    (same : answer (deployment.withWork submissions overrides).tables = answer deployment.tables) :
    (deployment.withWork submissions overrides).read shard >>= answer =
      deployment.read shard >>= answer := by
  have offline : (deployment.withWork submissions overrides).offline = deployment.offline := rfl
  cases reached : deployment.offline.contains shard with
  | true => simp only [read, offline, reached, if_true]
  | false =>
      simp only [read, offline, reached, Bool.false_eq_true, if_false]
      exact congrArg (Metered.bind (.spend { reads := 1 } (.ok ())) fun _ => ·) same

variable (same : (overrides.filter (·.target.isQuiz)) =
  deployment.tables.overrides.filter (·.target.isQuiz))
include same

theorem Deployment.readOverrides_withWork (shard : ShardId) (user : UserId) (rows : List Quiz) :
    (deployment.withWork submissions overrides).readOverrides shard user
        (rows.map fun row => .quiz row.id) =
      deployment.readOverrides shard user (rows.map fun row => .quiz row.id) := by
  have wanted (all : List DueDateOverride) : (all.filter fun row => row.target.shard = shard &&
      row.user = user && (rows.map fun row => OverrideTarget.quiz row.id).contains row.target) =
        (all.filter (·.target.isQuiz)).filter fun row => row.target.shard = shard && row.user = user &&
          (rows.map fun row => OverrideTarget.quiz row.id).contains row.target := by
    rw [List.filter_filter]
    refine List.filter_congr fun row _ => ?_
    cases target : row.target <;> simp [OverrideTarget.isQuiz]
  refine read_withWork (congrArg pure ?_)
  rw [wanted, wanted deployment.tables.overrides, ← same]
  rfl

theorem Quizzes.onShard_withWork (query : Quizzes) (ignored : List GlobalId) (shard : ShardId)
    (courses : List CourseId) :
    query.onShard (deployment.withWork submissions overrides) ignored shard courses =
      query.onShard deployment ignored shard courses := by
  have quizzes : (deployment.withWork submissions overrides).readQuizzes shard courses =
      deployment.readQuizzes shard courses := Deployment.read_withWork rfl
  have completed (rows : List Quiz) :
      query.completed (deployment.withWork submissions overrides) shard rows =
        query.completed deployment shard rows := by
    have attempts : (deployment.withWork submissions overrides).readQuizAttempts shard query.user
        (rows.map (·.id)) = deployment.readQuizAttempts shard query.user (rows.map (·.id)) :=
      Deployment.read_withWork rfl
    simp only [Quizzes.completed, attempts]
  simp only [onShard, quizzes, completed, Deployment.readOverrides_withWork same]
  rfl

theorem Quizzes.list_withWork (query : Quizzes) (scope : Scope) :
    query.list (deployment.withWork submissions overrides) scope = query.list deployment scope := by
  have ignores : ignoredIds (deployment.withWork submissions overrides) query.user .quiz .submitting
      query.options = ignoredIds deployment query.user .quiz .submitting query.options := by
    have rows : (deployment.withWork submissions overrides).readIgnores query.user .submitting =
        deployment.readIgnores query.user .submitting := Deployment.read_withWork rfl
    simp only [ignoredIds, rows]
  have steps (ignored : List GlobalId) :
      query.onShard (deployment.withWork submissions overrides) ignored =
        query.onShard deployment ignored :=
    funext fun shard => funext fun courses => query.onShard_withWork same ignored shard courses
  simp only [list, ignores, steps]

theorem NeedsQuery.load_withWork (choice : QuizOptions) (user : UserId) (options : NeedsOptions) :
    (quizzes choice).load (deployment.withWork submissions overrides) user options [] none =
      (quizzes choice).load deployment user options [] none := by
  have listed (scope : Scope) :
      (quizzes choice).list (deployment.withWork submissions overrides) user options scope =
        (quizzes choice).list deployment user options scope :=
    Quizzes.list_withWork same ⟨choice, user, options⟩ scope
  have scopes : (quizzes choice).scope (deployment.withWork submissions overrides) user options =
      (quizzes choice).scope deployment user options := rfl
  simp only [load, run, scopes, listed]
  rfl

end OtherWork

namespace NeedsQuery

/-- With no shard offline, a quiz query of a resolved scope lists each ungraded quiz that the tables list
for the student, once for each of its rows and with the due date that the student has, in ascending order
of that date, or else of the last change, and then of the ids. With no outage there is such a scope. What
the tables hold of overrides and submissions of assignments makes no difference. -/
theorem quizzes_list (deployment : Deployment) (choice : QuizOptions) (user : UserId)
    (options : NeedsOptions) (online : deployment.offline = []) :
    (deployment.outages = [] → ∃ scope,
      ((quizzes choice).scope deployment user options).outcome = .ok scope) ∧
    (∀ scope, ((quizzes choice).scope deployment user options).outcome = .ok scope →
      ∃ items : List QuizTodo,
        ((quizzes choice).load deployment user options [] none).outcome = .ok items ∧
        items.Pairwise (fun earlier later => Listed.noLater earlier later) ∧
        items.Perm ((deployment.tables.quizzes.filter fun row =>
          Quizzes.Lists ⟨choice, user, options⟩ deployment.tables scope deployment.now row).map
            fun row => ⟨row, (deployment.tables.quizDatesFor user row).due⟩)) ∧
    ∀ submissions overrides,
      (overrides.filter fun row => row.target.isQuiz) =
        (deployment.tables.overrides.filter fun row => row.target.isQuiz) →
      (quizzes choice).load (deployment.withWork submissions overrides) user options [] none =
        (quizzes choice).load deployment user options [] none := by
  refine ⟨fun working => Scope.outcome_resolve_served working user _, fun scope resolved => ?_,
    fun submissions overrides same => load_withWork same choice user options⟩
  obtain ⟨courses, groups, rfl⟩ := Scope.spread_of_resolve resolved
  let query : Quizzes := ⟨choice, user, options⟩
  let found : List QuizTodo := (ShardPartition.ofList courses).parts.flatMap fun part =>
    query.found deployment (deployment.ignored user .quiz .submitting options) part.1 part.2
  have listed : ((quizzes choice).load deployment user options [] none).outcome =
      .ok (Listed.sort found) := outcome_load_of_scope online rfl resolved
  refine ⟨_, listed, Listed.sort_sorted found, ?_⟩
  exact (List.mergeSort_perm found Listed.noLater).trans query.flatMap_found_perm

/-- Of two quizzes on two shards one was completed. The other was closed, but the last of its overrides
leaves it open; closing the assignment of the same id changes nothing. -/
theorem quizzes_list_survey :
    let student : UserId := ⟨⟨7, by decide⟩⟩
    let physics : CourseId := ⟨⟨1, by decide⟩⟩
    let history : CourseId := ⟨⟨10000000000001, by decide⟩⟩
    let yesterday : Instant := ⟨⟨2026, 1, 10, by decide⟩, 43200, 0, by decide, by decide⟩
    let today : Instant := ⟨⟨2026, 1, 11, by decide⟩, 43200, 0, by decide, by decide⟩
    let tomorrow : Instant := ⟨⟨2026, 1, 12, by decide⟩, 43200, 0, by decide, by decide⟩
    let closed : EffectiveDates := ⟨none, none, some yesterday⟩
    let warmUp : Quiz :=
      ⟨⟨⟨5, by decide⟩⟩, physics, "Warm-up", .available, .practice, .none, today, none⟩
    let survey : Quiz :=
      ⟨⟨⟨10000000000005, by decide⟩⟩, history, "Survey", .available, .survey, closed, today, none⟩
    let deployment : Deployment := {
      tables := {
        memberships := [⟨student, [⟨physics, .student, .active, false⟩,
          ⟨history, .student, .active, false⟩], []⟩]
        quizzes := [survey, warmUp]
        overrides := [⟨.quiz survey.id, student, closed⟩,
          ⟨.quiz survey.id, student, ⟨some tomorrow, none, none⟩⟩]
        quizAttempts := [⟨warmUp.id, student, true⟩] }
      grants := []
      offline := []
      outages := []
      now := today
      config := {} }
    let others := deployment.tables.overrides ++ [⟨.assignment ⟨survey.id.global⟩, student, closed⟩]
    ((quizzes ⟨true⟩).load (deployment.withWork [] others) student {} [] none).outcome =
      .ok [(⟨survey, some tomorrow⟩ : QuizTodo)] := by
  intro student physics history yesterday today tomorrow closed warmUp survey deployment others
  obtain ⟨-, listed, apart⟩ := quizzes_list deployment ⟨true⟩ student {} rfl
  let scope : Scope := ⟨.ofList [physics, history], .empty⟩
  obtain ⟨items, loaded, -, perm⟩ := listed scope rfl
  let query : Quizzes := ⟨⟨true⟩, student, {}⟩
  have stays : query.Lists deployment.tables scope deployment.now survey := {
    held := ⟨by decide, rfl⟩
    available := rfl
    ungraded := .inr rfl
    visible := rfl
    wanted := .inr (by rintro ⟨row, member, -⟩; cases member)
    still := {
      unfinished := fun _ => by decide
      unlocked := rfl
      due := rfl } }
  have completed : ¬query.Lists deployment.tables scope deployment.now warmUp := fun lists =>
    lists.still.unfinished rfl ⟨_, List.mem_singleton_self _, rfl, rfl, rfl⟩
  have kept : ([survey, warmUp].filter fun row =>
      decide (query.Lists deployment.tables scope deployment.now row)) = [survey] := by
    rw [List.filter_cons_of_pos (by simpa using stays), List.filter_cons_of_neg (by simpa using completed)]
    rfl
  change items.Perm (([survey, warmUp].filter fun row =>
    decide (query.Lists deployment.tables scope deployment.now row)).map _) at perm
  rw [kept] at perm
  rw [apart [] others rfl, loaded, List.perm_singleton.mp perm]
  rfl

end NeedsQuery

end Agenda

import Agenda.Proofs.Dashboard.Calls
import Agenda.Proofs.Dashboard.Entry
import Agenda.Proofs.Needs.IgnoreTable
import Agenda.Proofs.World.GradingPermission

/-!
A dashboard equals its definition. When nothing is cached each of its six calls answers the beginning
of a whole list; merging halves that were cut is cutting the merged whole, the check of permissions
drops nothing, and the names are those of the course table.
-/

namespace Agenda

namespace TodoList

theorem nameIn_eq_of_filter {courses others : List Course} {context : Context}
    (same : courses.filter (fun row => .course row.id = context) =
      others.filter fun row => .course row.id = context) :
    nameIn courses context = nameIn others context := by
  have found (rows : List Course) :
      (rows.reverse.find? fun row => .course row.id = context) =
        (rows.filter fun row => .course row.id = context).getLast? := by
    rw [← List.head?_filter, List.filter_reverse, List.head?_reverse]
  rw [nameIn, nameIn, found, found, same]

/-- The names read shard by shard are those of the whole table. -/
theorem nameIn_readNames (tables : Tables) {contexts : List Context} {course : CourseId}
    (member : .course course ∈ contexts) :
    nameIn ((ShardPartition.ofList contexts).parts.flatMap fun part =>
      tables.courses.filter fun row =>
        row.id.shard = part.1 && (part.2.filterMap Context.course?).contains row.id)
      (.course course) = nameIn tables.courses (.course course) := by
  apply nameIn_eq_of_filter
  rw [List.filter_flatMap, ShardPartition.ofList, List.flatMap_map]
  rw [flatMap_of_nodup (Ranked.nodup_of_ascending (Ranked.ascending_sortedDistinct _))
    (by
      simp only [Ranked.mem_sortedDistinct, List.mem_map]
      exact ⟨.course course, member, rfl⟩ : course.shard ∈ _)]
  · rw [List.filter_filter]
    refine List.filter_congr fun row _ => ?_
    by_cases same : row.id = course
    · subst same
      have listed : row.id ∈ ((sortedDistinct contexts).filter fun other =>
          Sharded.shard other = row.id.shard).filterMap Context.course? :=
        List.mem_filterMap.mpr ⟨.course row.id, by simpa using ⟨member, rfl⟩, rfl⟩
      simp [listed]
    · simp [same]
  · intro shard other
    rw [List.filter_filter, List.filter_eq_nil_iff]
    intro row _ here
    simp only [Bool.and_eq_true, decide_eq_true_eq, Context.course.injEq] at here
    exact other (by rw [← here.2.1, here.1])

theorem filter_of_gradingMatrix {deployment : Deployment} {user : UserId} {contexts : List Context}
    {matrix : PermissionMatrix} {grading : List AssignmentTodo}
    (checked : (gradingMatrix deployment user contexts).outcome = .ok matrix)
    (covered : ∀ item ∈ grading, Listed.context item ∈ contexts)
    (allowed : ∀ item ∈ grading,
      deployment.allows user (Listed.context item) .manageGrades = true) :
    (grading.filter fun item => matrix.allowsAny (Listed.context item) gradingPermissions) =
      grading := by
  refine List.filter_eq_self.mpr fun item member => ?_
  have some := covered item member
  rw [gradingMatrix, if_neg (by simpa using List.ne_nil_of_mem some)] at checked
  have granted : matrix.allows (Listed.context item) .manageGrades = true :=
    (Deployment.allows_of_matrix checked).mpr
      ⟨some, by simp [gradingPermissions], allowed item member⟩
  exact List.any_eq_true.mpr ⟨.manageGrades, by simp [gradingPermissions], granted⟩

def ofLists (courses : List Course) (visible : Nat)
    (grading moderation submitting : List AssignmentTodo) (reviewing : List PeerReviewTodo) :
    TodoList where
  entries
    | .grading => grading.map (TodoEntry.ofAssignment .grading (nameIn courses))
    | .moderation => moderation.map (TodoEntry.ofAssignment .moderation (nameIn courses))
    | .submitting => submitting.map (TodoEntry.ofAssignment .submitting (nameIn courses))
    | .reviewing => reviewing.map (TodoEntry.ofReview (nameIn courses))
  visibleLimit := visible

/-- The dashboard shows these rows in their order, category by category. -/
structure Presents (courses : List Course) (visible : Nat)
    (grading moderation submitting : List AssignmentTodo) (reviewing : List PeerReviewTodo)
    (list : TodoList) : Prop where
  grading : List.Forall₂ (TodoEntry.ShowsAssignment courses .grading) grading (list.entries .grading)
  moderation : List.Forall₂ (TodoEntry.ShowsAssignment courses .moderation) moderation
    (list.entries .moderation)
  submitting : List.Forall₂ (TodoEntry.ShowsAssignment courses .submitting) submitting
    (list.entries .submitting)
  reviewing : List.Forall₂ (TodoEntry.ShowsReview courses) reviewing (list.entries .reviewing)
  visibleLimit : list.visibleLimit = visible

theorem presents_ofLists (courses : List Course) (visible : Nat)
    (grading moderation submitting : List AssignmentTodo) (reviewing : List PeerReviewTodo) :
    (ofLists courses visible grading moderation submitting reviewing).Presents courses visible
      grading moderation submitting reviewing := by
  have shows {ι : Type} {shown : ι → TodoEntry → Prop} {entryOf : ι → TodoEntry} (items : List ι)
      (each : ∀ item, shown item (entryOf item)) : List.Forall₂ shown items (items.map entryOf) :=
    List.forall₂_map_right_iff.mpr (List.forall₂_same.mpr fun item _ => each item)
  exact ⟨shows grading (TodoEntry.ofAssignment_shows courses .grading),
    shows moderation (TodoEntry.ofAssignment_shows courses .moderation),
    shows submitting (TodoEntry.ofAssignment_shows courses .submitting),
    shows reviewing (TodoEntry.ofReview_shows courses), rfl⟩

theorem mem_contextsOf {grading moderation submitting : List AssignmentTodo}
    {reviewing : List PeerReviewTodo} {context : Context} :
    context ∈ contextsOf grading moderation submitting reviewing ↔
      (∃ item ∈ grading, Listed.context item = context) ∨
      (∃ item ∈ moderation, Listed.context item = context) ∨
      (∃ item ∈ submitting, Listed.context item = context) ∨
      ∃ item ∈ reviewing, Listed.context item = context := by
  simp only [contextsOf, Ranked.mem_sortedDistinct, List.map_append, List.mem_append, List.mem_map,
    or_assoc]

theorem merge_take {limits : DashboardLimits} {first second : List AssignmentTodo}
    (firstSorted : first.Pairwise fun left right => Listed.noLater left right)
    (secondSorted : second.Pairwise fun left right => Listed.noLater left right) :
    merge { limit := some limits.fetch } (first.take limits.fetch) (second.take limits.fetch) =
      (Listed.sort (first ++ second)).take limits.fetch :=
  Listed.take_sort_take (Nat.le_refl _) (Nat.le_refl _) firstSorted secondSorted

theorem one_lt_length_sortedDistinct {contexts : List Context} :
    1 < (sortedDistinct contexts).length ↔ ∃ first ∈ contexts, ∃ second ∈ contexts, first ≠ second := by
  have once : (sortedDistinct contexts).Nodup :=
    Ranked.nodup_of_ascending (Ranked.ascending_sortedDistinct contexts)
  rw [← List.toFinset_card_of_nodup once, Finset.one_lt_card]
  simp only [List.mem_toFinset, Ranked.mem_sortedDistinct]

theorem mem_allEntries {list : TodoList} {entry : TodoEntry} :
    entry ∈ list.allEntries ↔ ∃ category, entry ∈ list.entries category := by
  rw [allEntries, List.mem_flatMap]
  constructor
  · rintro ⟨category, -, listed⟩
    exact ⟨category, listed⟩
  · rintro ⟨category, listed⟩
    exact ⟨category, by cases category <;> decide, listed⟩

def writtenCategory (list : TodoList) (name : String) (category : TodoCategory) : Json :=
  .object [
    ("category", .string name),
    ("visible", .array (((list.entries category).take list.visibleLimit).map TodoEntry.written)),
    ("hiddenCount", Json.natural ((list.entries category).length - list.visibleLimit))]

theorem categorySnapshot_eq (list : TodoList) (category : TodoCategory) :
    list.categorySnapshot category = list.writtenCategory (Vocabulary.name category) category := by
  have shown : JsonFormat.encode (list.visible category) =
      .array (((list.entries category).take list.visibleLimit).map TodoEntry.written) :=
    congrArg Json.array (List.map_congr_left fun entry _ => entry.encode_eq_written)
  rw [categorySnapshot, shown]
  rfl

/-- What the snapshot of a list says of its entries. -/
structure Summarized (list : TodoList) : Prop where
  shown : ∀ category, list.visible category = (list.entries category).take list.visibleLimit
  counted : ∀ category, (list.visible category).length + list.hiddenCount category =
    (list.entries category).length
  total : list.totalHiddenCount = list.hiddenCount .grading + list.hiddenCount .moderation +
    list.hiddenCount .submitting + list.hiddenCount .reviewing
  anyItems : list.anyItems = true ↔ ∃ category, list.entries category ≠ []
  showContext : list.showContext = true ↔ ∃ first second : TodoEntry,
    (∃ category, first ∈ list.entries category) ∧ (∃ category, second ∈ list.entries category) ∧
      first.context ≠ second.context
  categories : list.snapshot = .object [
    ("categories", .array [
      list.writtenCategory "grading" .grading, list.writtenCategory "moderation" .moderation,
      list.writtenCategory "submitting" .submitting, list.writtenCategory "reviewing" .reviewing]),
    ("totalHiddenCount", Json.natural list.totalHiddenCount),
    ("anyItems", .boolean list.anyItems),
    ("showContext", .boolean list.showContext)]

theorem summarized (list : TodoList) : list.Summarized where
  shown _ := rfl
  counted category := by
    rw [visible, hiddenCount, List.length_take]
    omega
  total := by
    change 0 + _ + _ + _ + _ = _
    rw [Nat.zero_add]
  anyItems := by
    rw [TodoList.anyItems, Bool.not_eq_true', List.isEmpty_eq_false_iff_exists_mem]
    simp only [mem_allEntries, ne_eq, List.eq_nil_iff_forall_not_mem, not_forall, not_not]
    exact exists_comm
  showContext := by
    simp only [TodoList.showContext, decide_eq_true_eq, one_lt_length_sortedDistinct, List.mem_map,
      mem_allEntries]
    constructor
    · rintro ⟨_, ⟨first, firstListed, rfl⟩, _, ⟨second, secondListed, rfl⟩, apart⟩
      exact ⟨first, second, firstListed, secondListed, apart⟩
    · rintro ⟨first, second, firstListed, secondListed, apart⟩
      exact ⟨_, ⟨first, firstListed, rfl⟩, _, ⟨second, secondListed, rfl⟩, apart⟩
  categories := by
    change Json.object [("categories", .array (TodoCategory.all.map list.categorySnapshot)), _, _, _] = _
    rw [funext list.categorySnapshot_eq]
    rfl

section Definition

variable {deployment : Deployment} (working : deployment.outages = [])
  (online : deployment.offline = [])
include working online

theorem finish_eq_ofLists {limits : DashboardLimits} {user : UserId}
    {grading moderation submitting : List AssignmentTodo} {reviewing : List PeerReviewTodo}
    (allowed : ∀ item ∈ grading,
      deployment.allows user (Listed.context item) .manageGrades = true) (memory : Memory) :
    (finish deployment limits user grading moderation submitting reviewing memory).1 =
      .ok (ofLists deployment.tables.courses limits.visible grading moderation submitting
        reviewing) := by
  let contexts := contextsOf grading moderation submitting reviewing
  obtain ⟨matrix, checked⟩ := gradingMatrix_served (Deployment.failure?_eq_none working _) user contexts
  have permitted := filter_of_gradingMatrix checked
    (fun item member => mem_contextsOf.mpr (.inl ⟨item, member, rfl⟩)) allowed
  have named {ι : Type} [Listed ι] {items : List ι} (make : (Context → String) → ι → TodoEntry)
      (own : ∀ item nameOf other, nameOf (Listed.context item) = other (Listed.context item) →
        make nameOf item = make other item)
      (isCourse : ∀ item : ι, ∃ course, Listed.context item = .course course)
      (among : ∀ item ∈ items, Listed.context item ∈ contexts) :
      items.map (make (nameIn ((ShardPartition.ofList contexts).parts.flatMap fun part =>
        deployment.tables.courses.filter fun row => row.id.shard = part.1 &&
          (part.2.filterMap Context.course?).contains row.id))) =
        items.map (make (nameIn deployment.tables.courses)) :=
    List.map_congr_left fun item member => by
      obtain ⟨course, same⟩ := isCourse item
      refine own item _ _ ?_
      rw [same]
      exact nameIn_readNames deployment.tables (same ▸ among item member)
  have ofAssignments (purpose : Purpose) {items : List AssignmentTodo}
      (among : ∀ item ∈ items, Listed.context item ∈ contexts) :=
    named (TodoEntry.ofAssignment purpose) (fun item nameOf other same => by
      simp only [TodoEntry.ofAssignment]
      rw [show nameOf (.course item.assignment.course) = _ from same]
      rfl) (fun item => ⟨item.assignment.course, rfl⟩) among
  rw [finish_outcome, checked, Except.bind, outcome_readNames online]
  refine congrArg Except.ok ?_
  simp only [ofItems, permitted, ofLists, TodoList.mk.injEq, and_true]
  funext category
  cases category with
  | grading =>
      exact ofAssignments .grading fun item member => mem_contextsOf.mpr (.inl ⟨item, member, rfl⟩)
  | moderation =>
      exact ofAssignments .moderation fun item member =>
        mem_contextsOf.mpr (.inr (.inl ⟨item, member, rfl⟩))
  | submitting =>
      exact ofAssignments .submitting fun item member =>
        mem_contextsOf.mpr (.inr (.inr (.inl ⟨item, member, rfl⟩)))
  | reviewing =>
      refine named TodoEntry.ofReview (fun item nameOf other same => ?_)
        (fun item => ⟨item.request.course, rfl⟩) fun item member =>
          mem_contextsOf.mpr (.inr (.inr (.inr ⟨item, member, rfl⟩)))
      simp only [TodoEntry.ofReview]
      rw [show nameOf (.course item.request.course) = _ from same]
      rfl

variable (representable : deployment.now.add? (.ofSeconds deployment.config.cacheSeconds) ≠ none)
include representable

theorem build_eq_ofLists {limits : DashboardLimits} {user : UserId} {memory : Memory}
    (empty : ∀ key, memory.cache.entries key = none)
    (free : Sha256.CollisionFree ((lookups deployment user { limit := some limits.fetch } queries
      memory).flatMap Event.hashedTexts))
    {plainGrading checkpointGrading moderation plainSubmitting checkpointSubmitting :
      List AssignmentTodo} {reviews : List PeerReviewTodo}
    (first : ((NeedsQuery.grading .assignment).run deployment user .default).outcome =
      .ok plainGrading)
    (second : ((NeedsQuery.grading .subAssignment).run deployment user .default).outcome =
      .ok checkpointGrading)
    (third : (NeedsQuery.moderation.run deployment user .default).outcome = .ok moderation)
    (fourth : ((NeedsQuery.submitting .assignment {}).run deployment user .default).outcome =
      .ok plainSubmitting)
    (fifth : ((NeedsQuery.submitting .subAssignment {}).run deployment user .default).outcome =
      .ok checkpointSubmitting)
    (sixth : (NeedsQuery.reviews.run deployment user .default).outcome = .ok reviews) :
    (build deployment limits user memory).1 = .ok (ofLists deployment.tables.courses limits.visible
      ((Listed.sort (plainGrading ++ checkpointGrading)).take limits.fetch)
      (moderation.take limits.fetch)
      ((Listed.sort (plainSubmitting ++ checkpointSubmitting)).take limits.fetch)
      ((reviews.filter Reviews.isUnfinished).take limits.fetch)) := by
  let options : NeedsOptions := { limit := some limits.fetch }
  let expects (query : NeedsQuery) (outcome : Except Stop (List query.Item)) : Prop :=
    outcome = (query.load deployment user options query.leftIn options.limit).outcome.mapError
      .failed
  have known {query : NeedsQuery} {whole items : List query.Item}
      (listed : (query.run deployment user .default).outcome = .ok whole)
      (came : expects query (.ok items)) : items = (keepAll query.leftIn whole).take limits.fetch := by
    have same := query.run_limit deployment user .default (some limits.fetch)
    have unlimited : query.run deployment user options = query.run deployment user .default := same
    simp only [expects, NeedsQuery.outcome_load, unlimited, listed] at came
    exact Except.ok.inj came
  have served (query : NeedsQuery) (stop : Stop) (came : expects query (.error stop)) : False := by
    obtain ⟨items, listed⟩ := NeedsQuery.outcome_run_served working online query user options
    simp only [expects, NeedsQuery.outcome_load, listed] at came
    cases came
  generalize definition : ofLists _ _ _ _ _ _ = list
  let holds (outcome : Except Stop TodoList) : Prop := outcome = .ok list
  have promised : (build deployment limits user).Promises deployment user options expects queries
      holds := by
    refine build_promises ?_ fun query stop came => (served query stop came).elim
    intro gradingItems checkpointItems moderationItems submittingItems otherItems reviewItems
      gradingCame checkpointsCame moderationCame submittingCame othersCame reviewsCame memory
    have grading : merge options gradingItems checkpointItems = _ :=
      known first gradingCame ▸ known second checkpointsCame ▸
        merge_take (NeedsQuery.pairwise_of_run first) (NeedsQuery.pairwise_of_run second)
    have submitting : merge options submittingItems otherItems = _ :=
      known fourth submittingCame ▸ known fifth othersCame ▸
        merge_take (NeedsQuery.pairwise_of_run fourth) (NeedsQuery.pairwise_of_run fifth)
    have allowed (item : AssignmentTodo)
        (member : item ∈ (Listed.sort (plainGrading ++ checkpointGrading)).take limits.fetch) :
        deployment.allows user (Listed.context item) .manageGrades = true := by
      have whole : item ∈ plainGrading ++ checkpointGrading :=
        (List.mergeSort_perm _ _).mem_iff.mp (List.mem_of_mem_take member)
      rcases List.mem_append.mp whole with plain | checkpoint
      · exact (NeedsQuery.mayGrade_of_run first item plain).granted rfl
      · exact (NeedsQuery.mayGrade_of_run second item checkpoint).granted rfl
    change (finish deployment limits user (merge options gradingItems checkpointItems) moderationItems
      (merge options submittingItems otherItems) reviewItems memory).1 = .ok list
    rw [grading, submitting, known third moderationCame, known sixth reviewsCame]
    exact (finish_eq_ofLists working online allowed memory).trans (congrArg Except.ok definition)
  exact promised memory fun call member => by
    have came := Lookup.result_of_mem_lookups working online representable (by decide) free empty
      member
    obtain ⟨query, -, reached, -, same⟩ := of_mem_lookups member
    obtain rfl := Event.lookup.inj same
    exact came

/-- A dashboard equals its definition: it is always built, its categories are the first items of the
whole lists with default options, graders see every item fetched for them, and the names are those
of the last rows of the course table. -/
theorem build_exact (limits : DashboardLimits) (user : UserId) {memory : Memory}
    (empty : ∀ key, memory.cache.entries key = none)
    (free : Sha256.CollisionFree ((lookups deployment user { limit := some limits.fetch } queries
      memory).flatMap Event.hashedTexts)) :
    ∃ (plainGrading checkpointGrading moderation plainSubmitting checkpointSubmitting :
      List AssignmentTodo) (reviews : List PeerReviewTodo) (list : TodoList),
      ((NeedsQuery.grading .assignment).run deployment user .default).outcome = .ok plainGrading ∧
      ((NeedsQuery.grading .subAssignment).run deployment user .default).outcome =
        .ok checkpointGrading ∧
      (NeedsQuery.moderation.run deployment user .default).outcome = .ok moderation ∧
      ((NeedsQuery.submitting .assignment {}).run deployment user .default).outcome =
        .ok plainSubmitting ∧
      ((NeedsQuery.submitting .subAssignment {}).run deployment user .default).outcome =
        .ok checkpointSubmitting ∧
      (NeedsQuery.reviews.run deployment user .default).outcome = .ok reviews ∧
      (build deployment limits user memory).1 = .ok list ∧
      list.Presents deployment.tables.courses limits.visible
        ((Listed.sort (plainGrading ++ checkpointGrading)).take limits.fetch)
        (moderation.take limits.fetch)
        ((Listed.sort (plainSubmitting ++ checkpointSubmitting)).take limits.fetch)
        ((reviews.filter fun item => item.request.state = .assigned).take limits.fetch) ∧
      list.Summarized := by
  have served (query : NeedsQuery) := NeedsQuery.outcome_run_served working online query user .default
  obtain ⟨plainGrading, first⟩ := served (.grading .assignment)
  obtain ⟨checkpointGrading, second⟩ := served (.grading .subAssignment)
  obtain ⟨moderation, third⟩ := served .moderation
  obtain ⟨plainSubmitting, fourth⟩ := served (.submitting .assignment {})
  obtain ⟨checkpointSubmitting, fifth⟩ := served (.submitting .subAssignment {})
  obtain ⟨reviews, sixth⟩ := served .reviews
  exact ⟨plainGrading, checkpointGrading, moderation, plainSubmitting, checkpointSubmitting, reviews, _,
    first, second, third, fourth, fifth, sixth, build_eq_ofLists working online representable empty free
      first second third fourth fifth sixth, presents_ofLists _ _ _ _ _ _, summarized _⟩

end Definition

end TodoList

def classRequest (kind : AssignmentKind) : CacheRequest :=
  (NeedsQuery.grading kind).cacheRequest {} classUser hundred gradingScope

theorem class_hashedTexts (rows : List Ignore) (memory : Memory) :
    TodoList.hashedTexts (gradedClass.deployment.withIgnores rows) memory classUser hundred =
      (classRequest .assignment).hashedTexts (memory.cache.tokens classUser) ++
        (classRequest .subAssignment).hashedTexts (memory.cache.tokens classUser) := by
  simp only [TodoList.hashedTexts, TodoList.queries, List.flatMap_cons, List.flatMap_nil]
  have grading (kind : AssignmentKind) : Lookup.hashedTexts
      ⟨gradedClass.deployment.withIgnores rows, memory, .grading kind, classUser, hundred⟩ =
        (classRequest kind).hashedTexts (memory.cache.tokens classUser) := by
    have asks : Lookup.Asks ⟨gradedClass.deployment.withIgnores rows, memory, .grading kind, classUser,
        hundred⟩ gradingScope := ⟨rfl, rfl, rfl⟩
    exact Lookup.hashedTexts_of_asks asks rfl
  have others (query : NeedsQuery) (other : query ∈ [.moderation, .submitting .assignment {},
      .submitting .subAssignment {}, .reviews]) : Lookup.hashedTexts
        ⟨gradedClass.deployment.withIgnores rows, memory, query, classUser, hundred⟩ = [] := by
    simp only [List.mem_cons, List.not_mem_nil, or_false] at other
    rcases other with rfl | rfl | rfl | rfl <;> rfl
  rw [grading, grading, others .moderation (by simp), others (.submitting .assignment {}) (by simp),
    others (.submitting .subAssignment {}) (by simp), others .reviews (by simp)]
  simp

theorem class_collisionFree : Sha256.CollisionFree
    ((classRequest .assignment).hashedTexts .zero ++ (classRequest .subAssignment).hashedTexts .zero ++
      ((classRequest .assignment).hashedTexts (.ofCount 2) ++
        (classRequest .subAssignment).hashedTexts (.ofCount 2))) := by
  let plain := classRequest .assignment
  let checkpoints := classRequest .subAssignment
  have distinct : ([contextText plain.contexts, plain.params.canonical.text,
      (plain.parts .zero).material, (checkpoints.parts .zero).material,
      (plain.parts (.ofCount 2)).material, (checkpoints.parts (.ofCount 2)).material].map
        Sha256.ofText).Nodup := by
    simp only [plain, checkpoints, classRequest, CacheRequest.parts, NeedsQuery.cacheRequest,
      CacheKeyParts.material, Json.digest, params_grading]
    decide +kernel
  have sameContexts : checkpoints.contexts = plain.contexts := rfl
  have sameParams : checkpoints.params = plain.params := rfl
  refine (Sha256.CollisionFree.of_nodup distinct).subset ?_
  change plain.hashedTexts .zero ++ checkpoints.hashedTexts .zero ++
    (plain.hashedTexts (.ofCount 2) ++ checkpoints.hashedTexts (.ofCount 2)) ⊆ _
  simp [CacheRequest.hashedTexts, CacheKeyParts.hashedTexts, CacheRequest.parts, sameContexts,
    sameParams]

def essayEntry : TodoEntry where
  kind := .assignment
  purpose := .grading
  id := sampleId 10
  title := "Essay"
  context := .course lecture
  contextName := "course_1"
  due := none
  needsGradingCount := some 1

theorem lecture_named : CourseNamed [] lecture "course_1" := by
  have named : CourseNamed [] lecture ("course_" ++ toString lecture.global.value) :=
    .missing fun row member => nomatch member
  rwa [show "course_" ++ toString lecture.global.value = "course_1" by decide +kernel] at named

/-- The dashboard of a grader with one essay to grade; the course has no row to name it. -/
theorem TodoList.build_exact_class :
    ∃ list, (build gradedClass.deployment {} classUser gradedClass.memory).1 = .ok list ∧
      list.entries .grading = [essayEntry] ∧ list.Summarized := by
  have free : Sha256.CollisionFree ((lookups gradedClass.deployment classUser hundred queries
      gradedClass.memory).flatMap Event.hashedTexts) := by
    have hashed : (lookups gradedClass.deployment classUser hundred queries
        gradedClass.memory).flatMap Event.hashedTexts ⊆ _ :=
      lookups_hashedTexts (rfl : gradedClass.memory.cache.tokens classUser = _)
    rw [show gradedClass.deployment = gradedClass.deployment.withIgnores [] from rfl,
      class_hashedTexts] at hashed
    exact class_collisionFree.subset (List.Subset.trans hashed (List.subset_append_left _ _))
  have listed (kind : AssignmentKind) (items : List AssignmentTodo)
      (inScope : ((NeedsQuery.grading kind).list gradedClass.deployment classUser hundred
        gradingScope).outcome = .ok items) :
      ((NeedsQuery.grading kind).run gradedClass.deployment classUser .default).outcome =
        .ok items := by
    have resolved : ((NeedsQuery.grading kind).scope gradedClass.deployment classUser
        hundred).outcome = .ok gradingScope := gradingCall_misses.resolved
    have enabled : (NeedsQuery.grading kind).isDisabled gradedClass.deployment.config = false := rfl
    have unlimited := (NeedsQuery.grading kind).run_limit gradedClass.deployment classUser .default
      (some 100)
    change (NeedsQuery.grading kind).run gradedClass.deployment classUser hundred = _ at unlimited
    rw [← unlimited, NeedsQuery.outcome_run_enabled enabled, resolved]
    exact inScope
  have nothing : ((NeedsQuery.grading .subAssignment).list gradedClass.deployment classUser hundred
      gradingScope).outcome = .ok [] := by
    have found : (NeedsQuery.grading .subAssignment).found gradedClass.deployment classUser hundred
        gradingScope [] = [] := rfl
    rw [NeedsQuery.outcome_list, NeedsQuery.sorted]
    change Except.ok (Listed.sort ((NeedsQuery.grading .subAssignment).found gradedClass.deployment
      classUser hundred gradingScope [])) = _
    rw [found]
    exact congrArg Except.ok (List.mergeSort_nil : Listed.sort ([] : List AssignmentTodo) = [])
  have representable : gradedClass.deployment.now.add?
      (.ofSeconds gradedClass.deployment.config.cacheSeconds) ≠ none := by decide +kernel
  obtain ⟨plain, checkpoints, _, _, _, _, list, first, second, -, -, -, -, built, presents, summary⟩ :=
    build_exact rfl rfl representable {} classUser (fun key => rfl) free
  obtain rfl := Except.ok.inj ((listed .assignment _ (essay_listed _ _ false)).symm.trans first)
  obtain rfl := Except.ok.inj ((listed .subAssignment _ nothing).symm.trans second)
  have essayShown : essayEntry.ShowsAssignment [] .grading essayItem :=
    ⟨rfl, rfl, rfl, rfl, rfl, rfl, rfl, lecture_named⟩
  have shown : List.Forall₂ (TodoEntry.ShowsAssignment [] .grading) [essayItem]
      (list.entries .grading) := by
    have cut : (Listed.sort [essayItem]).take 100 = [essayItem] := by
      rw [show Listed.sort [essayItem] = [essayItem] from List.mergeSort_singleton _]
      rfl
    exact cut ▸ presents.grading
  refine ⟨list, built, ?_, summary⟩
  obtain ⟨entry, rest, entryShown, restShown, entries⟩ := List.forall₂_cons_left_iff.mp shown
  rw [entries, entryShown.unique essayShown, List.forall₂_nil_left_iff.mp restShown]

end Agenda

import Agenda.Proofs.World.Schedule
import Agenda.Proofs.World.Soundness

/-!
No answer is older than an ignore. However the turns of queries, ignores and clears alternate, a
query that reads the token of its user after the bump of an ignore or a clear answers what some
computation found that did all its reads after the ignores were edited.
-/

namespace Agenda

namespace Deed

def latest : Deed → Nat
  | .readToken _ _ => 1
  | .read _ => 4
  | .compute _ _ _ => 4
  | .answer _ _ => 5
  | .record _ => 0
  | .clear _ _ => 0
  | .bump _ => 1
  | .nothing => 6

def reached : Deed → Nat
  | .readToken _ _ => 2
  | .read _ => 4
  | .compute _ _ _ => 5
  | .answer _ _ => 6
  | .record _ => 1
  | .clear _ _ => 1
  | .bump _ => 1
  | .nothing => 0

def editsIgnores : Deed → Bool
  | .record _ => true
  | .clear _ _ => true
  | _ => false

end Deed

namespace Task.Takes

variable {world after : World} {task next : Task} {deed : Deed}

theorem rank_le (takes : Takes world task (deed, next) after) : task.rank ≤ next.rank := by
  cases takes with
  | quietly _ forth _ => exact forth
  | _ => simp [rank]

theorem reached_le (takes : Takes world task (deed, next) after) : deed.reached ≤ next.rank := by
  cases takes <;> simp [rank, Deed.reached]

theorem rank_le_latest (takes : Takes world task (deed, next) after) : task.rank ≤ deed.latest := by
  cases takes with
  | @quietly task _ _ _ _ _ => cases task <;> simp [rank, Deed.latest]
  | _ => simp [rank, Deed.latest]

end Task.Takes

namespace Occurrence

def bumps (user : UserId) : Occurrence → Bool
  | .deed _ (.bump other) => other = user
  | _ => false

def hashedTexts : Occurrence → List String
  | .deed _ (.readToken ask token) => ask.request.hashedTexts token
  | _ => []

theorem hashedTexts_subset {log : List Occurrence} {place id : Nat} {ask : Ask} {token : BatchToken}
    (seen : log[place]? = some (.deed id (.readToken ask token))) :
    ask.request.hashedTexts token ⊆ log.flatMap hashedTexts := fun _ member =>
  List.mem_flatMap.mpr ⟨.deed id (.readToken ask token), List.mem_of_getElem? seen, member⟩

end Occurrence

def Task.ExplainedBy (history : List Occurrence) (id : Nat) : Task → Prop
  | .keyed ask token => .deed id (.readToken ask token) ∈ history
  | .missed ask token => .deed id (.readToken ask token) ∈ history
  | .computing ask token survey =>
      .deed id (.readToken ask token) ∈ history ∧
        ∀ source ∈ survey.sources, .deed id (.read source) ∈ history
  | .storing ask token items =>
      .deed id (.readToken ask token) ∈ history ∧
        ∃ survey, .deed id (.compute ask survey items) ∈ history
  | _ => True

def CacheEntry.ExplainedBy (history : List Occurrence) (key : CacheKey) (entry : CacheEntry) : Prop :=
  ∃ id ask token survey items, .deed id (.readToken ask token) ∈ history ∧
    .deed id (.compute ask survey items) ∈ history ∧ key = ask.key token ∧
    entry.value = ⟨token, JsonFormat.encode items⟩

namespace System

/-- A system that came about by what was seen: tokens count bumps, entries were computed, tasks
remember what they did, and no task goes back. -/
structure ExplainedBy (system : System) (history : List Occurrence) : Prop where
  tokens : ∀ user, system.world.memory.cache.tokens user =
    .ofCount (history.countP (Occurrence.bumps user))
  entries : ∀ key entry, system.world.memory.cache.entries key = some entry →
    entry.ExplainedBy history key
  tasks : ∀ id, (system.tasks id).ExplainedBy history id
  ranks : ∀ id deed, .deed id deed ∈ history → deed.reached ≤ (system.tasks id).rank

end System

theorem Task.ExplainedBy.append {history : List Occurrence} {id : Nat} {task : Task}
    (explained : task.ExplainedBy history id) (more : List Occurrence) :
    task.ExplainedBy (history ++ more) id := by
  have kept {occurrence : Occurrence} (seen : occurrence ∈ history) : occurrence ∈ history ++ more :=
    List.mem_append_left more seen
  cases task with
  | keyed ask token => exact kept explained
  | missed ask token => exact kept explained
  | computing ask token survey =>
      exact ⟨kept explained.1, fun source member => kept (explained.2 source member)⟩
  | storing ask token items =>
      obtain ⟨read, survey, computed⟩ := explained
      exact ⟨kept read, survey, kept computed⟩
  | _ => trivial

theorem CacheEntry.ExplainedBy.append {history : List Occurrence} {key : CacheKey} {entry : CacheEntry}
    (explained : entry.ExplainedBy history key) (more : List Occurrence) :
    entry.ExplainedBy (history ++ more) key := by
  obtain ⟨id, ask, token, survey, items, read, computed, keys, value⟩ := explained
  exact ⟨id, ask, token, survey, items, List.mem_append_left more read,
    List.mem_append_left more computed, keys, value⟩

theorem Task.explainedBy_of_holdsToken_eq_false {task : Task} (free : task.holdsToken = false)
    (history : List Occurrence) (id : Nat) : task.ExplainedBy history id := by
  cases task <;> trivial

namespace System.ExplainedBy

variable {system : System} {history : List Occurrence}

theorem start (tables : Tables) (grants : List PermissionGrant) (now : Instant) (config : Config)
    (operations : Nat → Operation) :
    (System.start (World.start tables grants now config) operations).ExplainedBy [] where
  tokens user := rfl
  entries key entry stored := nomatch stored
  tasks id := by
    change ((operations id).task).ExplainedBy [] id
    cases operations id <;> trivial
  ranks id deed seen := nomatch seen

theorem turn (explained : system.ExplainedBy history) {id : Nat} {deed : Deed} {next : Task}
    {after : World}
    (tokens : ∀ user, after.memory.cache.tokens user =
      .ofCount ((history ++ [Occurrence.deed id deed]).countP (Occurrence.bumps user)))
    (entries : ∀ key entry, after.memory.cache.entries key = some entry →
      system.world.memory.cache.entries key = some entry ∨ entry.ExplainedBy history key)
    (task : next.ExplainedBy (history ++ [Occurrence.deed id deed]) id)
    (forth : (system.tasks id).rank ≤ next.rank) (reached : deed.reached ≤ next.rank) :
    System.ExplainedBy ⟨after, Function.update system.tasks id next⟩ (history ++ [Occurrence.deed id deed]) where
  tokens := tokens
  entries key entry stored := by
    rcases entries key entry stored with before | own
    · exact (explained.entries key entry before).append _
    · exact own.append _
  tasks other := by
    by_cases same : other = id
    · subst same
      simpa using task
    · simpa [same] using (explained.tasks other).append _
  ranks other earlier seen := by
    by_cases same : other = id
    · subst same
      rcases List.mem_append.mp seen with before | now
      · simpa using (explained.ranks other earlier before).trans forth
      · obtain rfl : earlier = deed := by simpa using now
        simpa using reached
    · rcases List.mem_append.mp seen with before | now
      · simpa [same] using explained.ranks other earlier before
      · simp [same] at now

theorem tokens_of_quiet (explained : system.ExplainedBy history) {after : World}
    (same : after.memory.cache.tokens = system.world.memory.cache.tokens) {occurrence : Occurrence}
    (quiet : ∀ user, occurrence.bumps user = false) (user : UserId) :
    after.memory.cache.tokens user =
      .ofCount ((history ++ [occurrence]).countP (Occurrence.bumps user)) := by
  rw [same, explained.tokens user, List.countP_append]
  simp [quiet user]

theorem quietTurn (explained : system.ExplainedBy history) {id : Nat} {deed : Deed} {next : Task}
    {after : World} (forgets : system.world.memory.cache.Forgets after.memory.cache)
    (quiet : ∀ user, (Occurrence.deed id deed).bumps user = false)
    (task : next.ExplainedBy (history ++ [Occurrence.deed id deed]) id)
    (forth : (system.tasks id).rank ≤ next.rank) (reached : deed.reached ≤ next.rank) :
    System.ExplainedBy ⟨after, Function.update system.tasks id next⟩
      (history ++ [Occurrence.deed id deed]) :=
  explained.turn (explained.tokens_of_quiet forgets.tokens quiet)
    (fun key entry stored => .inl (forgets.entries key entry stored)) task forth reached

theorem take (explained : system.ExplainedBy history) (id : Nat) {deed : Deed} {next : Task}
    {after : World} (takes : Task.Takes system.world (system.tasks id) (deed, next) after) :
    System.ExplainedBy ⟨after, Function.update system.tasks id next⟩
      (history ++ [Occurrence.deed id deed]) := by
  have known := explained.tasks id
  have before := known.append [Occurrence.deed id deed]
  have now : Occurrence.deed id deed ∈ history ++ [Occurrence.deed id deed] := by simp
  have forth := takes.rank_le
  have reached := takes.reached_le
  generalize current : system.tasks id = task at takes known before forth
  rw [← current] at forth
  cases takes with
  | quietly forgets _ free =>
      exact explained.quietTurn forgets (fun user => rfl)
        (Task.explainedBy_of_holdsToken_eq_false free _ id) forth reached
  | readToken forgets => exact explained.quietTurn forgets (fun user => rfl) now forth reached
  | hit forgets stored readable =>
      exact explained.quietTurn forgets (fun user => rfl) trivial forth reached
  | miss forgets => exact explained.quietTurn forgets (fun user => rfl) before forth reached
  | read =>
      refine explained.quietTurn (Cache.forgets_of_eq rfl) (fun user => rfl)
        ⟨before, fun source member => ?_⟩ forth reached
      obtain rfl : source = system.world.deployment := by simpa [Survey.sources] using member
      exact now
  | @compute ask token survey items after forgets computed =>
      exact explained.quietTurn forgets (fun user => rfl) ⟨before.1, survey, now⟩ forth reached
  | @store ask token items after tokens entries =>
      -- The new entry is explained by what the task did before, not by this turn.
      obtain ⟨read, survey, computed⟩ := known
      refine explained.turn (explained.tokens_of_quiet tokens fun user => rfl)
        (fun key entry stored => (entries key entry stored).imp_right ?_) trivial forth reached
      rintro ⟨keys, value⟩
      exact ⟨id, ask, token, survey, items, read, computed, keys, value⟩
  | record forgets => exact explained.quietTurn forgets (fun user => rfl) trivial forth reached
  | clear forgets => exact explained.quietTurn forgets (fun user => rfl) trivial forth reached
  | @bump user rest after bumped =>
      refine explained.turn (fun other => ?_) (fun key entry stored => .inl ?_) trivial forth reached
      · rw [bumped]
        exact Cache.tokens_bump _ user explained.tokens (fun third => rfl) other
      · rw [bumped] at stored
        exact stored

theorem reread (explained : system.ExplainedBy history) (id : Nat) (part : Part) :
    (system.step (.reread id part)).2.ExplainedBy
      (history ++ [(system.step (.reread id part)).1]) := by
  have known := (explained.tasks id).append
    [Occurrence.deed id ((system.tasks id).reread part system.world.deployment).1]
  have quiet (user : UserId) : (Occurrence.deed id
      ((system.tasks id).reread part system.world.deployment).1).bumps user = false := by
    cases system.tasks id <;> rfl
  refine explained.quietTurn (Cache.forgets_of_eq rfl) quiet ?_ ?_ ?_
  · cases current : system.tasks id with
    | computing ask token survey =>
        rw [current] at known
        refine ⟨known.1, fun source member => ?_⟩
        rcases List.mem_cons.mp (survey.mem_sources_more.mp member) with rfl | before
        · simp [Task.reread]
        · exact known.2 source before
    | _ =>
        rw [current] at known
        exact known
  · cases system.tasks id <;> exact le_rfl
  · cases system.tasks id <;> first | exact le_rfl | exact Nat.zero_le _

theorem change (explained : system.ExplainedBy history) (deployment : Deployment) :
    (system.step (.change deployment)).2.ExplainedBy (history ++ [.change]) where
  tokens := explained.tokens_of_quiet rfl fun user => rfl
  entries key entry stored := (explained.entries key entry stored).append _
  tasks id := (explained.tasks id).append _
  ranks id deed seen := explained.ranks id deed (by simpa using seen)

theorem step (explained : system.ExplainedBy history) (turn : Turn) :
    (system.step turn).2.ExplainedBy (history ++ [(system.step turn).1]) := by
  cases turn with
  | take id => exact explained.take id (Task.takes_take (system.tasks id) system.world)
  | reread id part => exact explained.reread id part
  | change deployment => exact explained.change deployment

theorem at_place (explained : system.ExplainedBy history) {turns : List Turn} {place : Nat}
    {occurrence : Occurrence} (seen : (system.log turns)[place]? = some occurrence) :
    ∃ (before : System) (turn : Turn),
      before.ExplainedBy (history ++ (system.log turns).take place) ∧
        (before.step turn).1 = occurrence := by
  induction turns generalizing system history place with
  | nil => cases seen
  | cons turn rest ih =>
      cases place with
      | zero =>
          refine ⟨system, turn, by simpa using explained, ?_⟩
          simpa [System.log] using seen
      | succ place =>
          obtain ⟨before, later, known, happened⟩ := ih (explained.step turn) seen
          refine ⟨before, later, ?_, happened⟩
          simpa [System.log] using known

variable {turn : Turn} {id : Nat}

theorem reached_le_latest (explained : system.ExplainedBy history) {earlier deed : Deed}
    (seen : .deed id earlier ∈ history) (happens : (system.step turn).1 = .deed id deed) :
    earlier.reached ≤ deed.latest := by
  refine (explained.ranks id earlier seen).trans ?_
  rcases System.step_deed happens with ⟨next, after, takes⟩ | ⟨⟨ask, token, survey, computing⟩, rfl⟩ | rfl
  · exact takes.rank_le_latest
  · rw [computing]
    exact le_rfl
  · cases system.tasks id <;> simp [Task.rank, Deed.latest]

theorem token_of_readToken (explained : system.ExplainedBy history) {ask : Ask} {token : BatchToken}
    (happens : (system.step turn).1 = .deed id (.readToken ask token)) :
    token = .ofCount (history.countP (Occurrence.bumps ask.user)) := by
  rcases System.step_deed happens with ⟨next, after, takes⟩ | ⟨-, impossible⟩ | impossible
  · generalize system.tasks id = task at takes
    cases takes with
    | readToken forgets => exact explained.tokens ask.user
  · cases impossible
  · cases impossible

theorem view_of_compute (explained : system.ExplainedBy history) {ask : Ask} {survey : Survey}
    {items : List ask.query.Item}
    (happens : (system.step turn).1 = .deed id (.compute ask survey items)) :
    (ask.firstItems survey.view).outcome = .ok items ∧
      ∀ source ∈ survey.sources, .deed id (.read source) ∈ history := by
  rcases System.step_deed happens with ⟨next, after, takes⟩ | ⟨-, impossible⟩ | impossible
  · have known := explained.tasks id
    generalize system.tasks id = task at takes known
    cases takes with
    | compute forgets computed => exact ⟨computed, known.2⟩
  · cases impossible
  · cases impossible

theorem source_of_answer (explained : system.ExplainedBy history) {ask : Ask}
    {items : List ask.query.Item} (happens : (system.step turn).1 = .deed id (.answer ask items)) :
    ∃ token, .deed id (.readToken ask token) ∈ history ∧
      ∃ worker source mark survey computed, .deed worker (.readToken source mark) ∈ history ∧
        .deed worker (.compute source survey computed) ∈ history ∧
        source.key mark = ask.key token ∧
        JsonFormat.ofJson (JsonFormat.encode computed) = .ok items := by
  rcases System.step_deed happens with ⟨next, after, takes⟩ | ⟨-, impossible⟩ | impossible
  · have known := explained.tasks id
    generalize system.tasks id = task at takes known
    cases takes with
    | hit forgets stored readable =>
        obtain ⟨worker, source, mark, survey, computed, read, done, keys, value⟩ :=
          explained.entries _ _ stored
        rw [value] at readable
        exact ⟨_, known, worker, source, mark, survey, computed, read, done, keys.symm, readable⟩
    | store tokens entries =>
        obtain ⟨read, survey, done⟩ := known
        exact ⟨_, read, id, ask, _, survey, items, read, done, rfl, JsonFormat.ofJson_encode items⟩
  · cases impossible
  · cases impossible

end System.ExplainedBy

theorem mem_take_iff {α : Type} {list : List α} {element : α} {last : Nat} :
    element ∈ list.take last ↔ ∃ place < last, list[place]? = some element := by
  rw [List.mem_iff_getElem?]
  constructor
  · rintro ⟨place, found⟩
    rw [List.getElem?_take] at found
    split at found
    · exact ⟨place, ‹_›, found⟩
    · cases found
  · rintro ⟨place, before, found⟩
    exact ⟨place, by rw [List.getElem?_take_of_lt before, found]⟩

namespace System

section Logs

variable {system : System} {turns : List Turn} (explained : system.ExplainedBy [])

include explained

theorem reached_le_latest {first second id : Nat} {earlier deed : Deed} (before : first < second)
    (seen : (system.log turns)[first]? = some (.deed id earlier))
    (follows : (system.log turns)[second]? = some (.deed id deed)) :
    earlier.reached ≤ deed.latest := by
  obtain ⟨reached, turn, known, happens⟩ := explained.at_place follows
  exact known.reached_le_latest (mem_take_iff.mpr ⟨first, before, seen⟩) happens

theorem readToken_unique {first second id : Nat} {ask other : Ask} {token mark : BatchToken}
    (one : (system.log turns)[first]? = some (.deed id (.readToken ask token)))
    (two : (system.log turns)[second]? = some (.deed id (.readToken other mark))) :
    first = second := by
  rcases Nat.lt_trichotomy first second with before | same | after
  · have order := reached_le_latest explained before one two
    simp [Deed.reached, Deed.latest] at order
  · exact same
  · have order := reached_le_latest explained after two one
    simp [Deed.reached, Deed.latest] at order

theorem edit_lt_bump {edit bump id : Nat} {deed : Deed} {user : UserId}
    (edited : (system.log turns)[edit]? = some (.deed id deed)) (edits : deed.editsIgnores = true)
    (bumped : (system.log turns)[bump]? = some (.deed id (.bump user))) : edit < bump := by
  rcases Nat.lt_trichotomy edit bump with before | same | after
  · exact before
  · subst same
    rw [edited] at bumped
    cases bumped
    cases edits
  · have order := reached_le_latest explained after bumped edited
    cases deed <;> simp [Deed.reached, Deed.latest, Deed.editsIgnores] at order edits

theorem readToken_lt_read {first place id : Nat} {ask : Ask} {token : BatchToken} {source : Deployment}
    (looked : (system.log turns)[first]? = some (.deed id (.readToken ask token)))
    (read : (system.log turns)[place]? = some (.deed id (.read source))) : first < place := by
  rcases Nat.lt_trichotomy first place with before | same | after
  · exact before
  · subst same
    rw [looked] at read
    cases read
  · have order := reached_le_latest explained after read looked
    simp [Deed.reached, Deed.latest] at order

theorem bump_lt_of_same_token (few : ∀ user, (system.log turns).countP (Occurrence.bumps user) < 2 ^ 64)
    {first bump second id other editor : Nat} {ask source : Ask} {token : BatchToken}
    (looked : (system.log turns)[first]? = some (.deed id (.readToken ask token)))
    (again : (system.log turns)[second]? = some (.deed other (.readToken source token)))
    (users : source.user = ask.user)
    (bumped : (system.log turns)[bump]? = some (.deed editor (.bump ask.user)))
    (before : bump < first) : bump < second := by
  obtain ⟨_, _, knownFirst, happensFirst⟩ := explained.at_place looked
  obtain ⟨_, _, knownSecond, happensSecond⟩ := explained.at_place again
  have counts := (knownFirst.token_of_readToken happensFirst).symm.trans
    (knownSecond.token_of_readToken happensSecond)
  rw [users, List.nil_append, List.nil_append] at counts
  have bound (count : Nat) :
      ((system.log turns).take count).countP (Occurrence.bumps ask.user) < 2 ^ 64 :=
    lt_of_le_of_lt (List.take_sublist count _).countP_le (few ask.user)
  have same := BatchToken.ofCount_injective (bound first) (bound second) counts
  by_contra notBefore
  have more := countP_take_lt (Nat.le_of_not_lt notBefore) before bumped
    (by simp [Occurrence.bumps] : Occurrence.bumps ask.user _ = true)
  omega

end Logs

/-- No answer is older than an ignore or a clear that the query could know of: if it reads the token
of its user after the bump that goes with an edit of the ignores, then its answer was computed by a
task, itself or another, that read nothing before the edit. -/
theorem answer_follows_edit (tables : Tables) (grants : List PermissionGrant) (now : Instant)
    (config : Config) (operations : Nat → Operation) (turns : List Turn) {log : List Occurrence}
    (ran : (start (World.start tables grants now config) operations).log turns = log)
    (free : Sha256.CollisionFree (log.flatMap Occurrence.hashedTexts))
    (few : ∀ user, log.countP (Occurrence.bumps user) < 2 ^ 64)
    {editor reader edit bump read answer : Nat} {deed : Deed} {asked ask : Ask} {token : BatchToken}
    {items : List ask.query.Item} (edited : log[edit]? = some (.deed editor deed))
    (edits : deed.editsIgnores = true)
    (bumped : log[bump]? = some (.deed editor (.bump asked.user)))
    (looked : log[read]? = some (.deed reader (.readToken asked token))) (later : bump < read)
    (answered : log[answer]? = some (.deed reader (.answer ask items))) :
    ∃ (worker : Nat) (others : Config) (area : Scope) (survey : Survey), ∃ done < answer,
      (∀ context, context ∈ area.contexts ↔ context ∈ ask.scope.contexts) ∧
      log[done]? = some (.deed worker (.compute (ask.about others area) survey items)) ∧
      ((ask.about others area).firstItems survey.view).outcome = .ok items ∧
      (∀ source ∈ survey.sources, ∃ place < done, log[place]? = some (.deed worker (.read source))) ∧
      ∀ place source, log[place]? = some (.deed worker (.read source)) → edit < place := by
  subst ran
  have explained := ExplainedBy.start tables grants now config operations
  obtain ⟨_, _, known, happens⟩ := explained.at_place answered
  obtain ⟨mark, looks, worker, ⟨query, user, options, config, area⟩, token', survey, computed, reads,
    computes, keys, readable⟩ := known.source_of_answer happens
  rw [List.nil_append] at looks reads computes
  obtain ⟨place, -, look⟩ := mem_take_iff.mp looks
  obtain rfl := readToken_unique explained looked look
  rw [looked] at look
  cases look
  obtain ⟨first, -, look⟩ := mem_take_iff.mp reads
  obtain ⟨done, before, computation⟩ := mem_take_iff.mp computes
  obtain ⟨rfl, rfl, rfl, contexts, rfl⟩ := NeedsQuery.eq_of_key_eq (free.subset
    (List.append_subset.mpr ⟨Occurrence.hashedTexts_subset look,
      Occurrence.hashedTexts_subset looked⟩)) keys
  obtain rfl : computed = items := by
    rw [JsonFormat.ofJson_encode] at readable
    exact Except.ok.inj readable
  obtain ⟨_, _, knownThen, happensThen⟩ := explained.at_place computation
  obtain ⟨outcome, sources⟩ := knownThen.view_of_compute happensThen
  refine ⟨worker, config, area, survey, done, before, contexts, computation, outcome,
    fun source member => ?_, fun place source read => ?_⟩
  · exact mem_take_iff.mp (sources source member)
  · have first := edit_lt_bump explained edited edits bumped
    have second := bump_lt_of_same_token explained few looked look rfl bumped later
    have third := readToken_lt_read explained look read
    omega

def practiceAsk : Ask :=
  ⟨.quizzes {}, World.practiceCall.user, .default, {}, World.practiceScope⟩

def practiceIgnore : Ignore :=
  ⟨World.practiceCall.user, ⟨.quiz, World.practiceQuiz.global⟩, .submitting, false⟩

def practiceIgnored : Deployment :=
  { World.practice.deployment with tables :=
    { World.practice.deployment.tables with ignores := [practiceIgnore] } }

def practiceOperations : Nat → Operation
  | 1 => .ignore practiceIgnore
  | _ => .ask (.quizzes {}) World.practiceCall.user .default

def practiceTurns : List Turn :=
  [0, 0, 0, 0].map .take ++ .take 0 :: ([1, 1, 2, 2, 2, 0, 2].map .take ++ .take 2 :: [.take 2])

def practiceLog : List Occurrence :=
  [.deed 0 .nothing, .deed 0 (.readToken practiceAsk .zero), .deed 0 .nothing,
    .deed 0 (.read World.practice.deployment),
    .deed 0 (.compute practiceAsk ⟨World.practice.deployment, []⟩ World.practiceItems),
    .deed 1 (.record practiceIgnore), .deed 1 (.bump practiceAsk.user), .deed 2 .nothing,
    .deed 2 (.readToken practiceAsk (.next .zero)), .deed 2 .nothing,
    .deed 0 (.answer practiceAsk World.practiceItems), .deed 2 (.read practiceIgnored),
    .deed 2 (.compute practiceAsk ⟨practiceIgnored, []⟩ []), .deed 2 (.answer practiceAsk [])]

theorem practice_ignored_items : (practiceAsk.firstItems practiceIgnored).outcome = .ok [] := by
  have sorted : Listed.sort ([] : List QuizTodo) = [] := List.mergeSort_nil
  have ignores : (ignoredIds practiceIgnored practiceAsk.user .quiz .submitting .default).outcome =
      .ok [World.practiceQuiz.global] := rfl
  have found : (gatherParts
      (Quizzes.onShard ⟨{}, practiceAsk.user, .default⟩ practiceIgnored [World.practiceQuiz.global])
      practiceAsk.scope.courses.parts).outcome = .ok [] := rfl
  have list := Quizzes.outcome_list ignores found
  rw [sorted] at list
  exact (NeedsQuery.outcome_firstItems (.quizzes {}) practiceIgnored practiceAsk.user .default rfl
    practiceAsk.scope).trans (congrArg (Except.map _) list)

theorem practice_log :
    (start World.practice practiceOperations).log practiceTurns = practiceLog := by
  rw [practiceTurns,
    log_compute practiceAsk .zero ⟨World.practice.deployment, []⟩ rfl World.practice_misses.computed,
    log_compute practiceAsk (.next .zero) ⟨practiceIgnored, []⟩ rfl practice_ignored_items]
  rfl

/-- The second query answers without the quiz, which it computed after the ignore: what the first
one stores in the meantime is not served to it. -/
theorem answer_follows_edit_practice :
    ∃ (worker : Nat) (others : Config) (area : Scope) (survey : Survey), ∃ done < 13,
      (∀ context, context ∈ area.contexts ↔ context ∈ practiceAsk.scope.contexts) ∧
      practiceLog[done]? = some (.deed worker (.compute (practiceAsk.about others area) survey [])) ∧
      ((practiceAsk.about others area).firstItems survey.view).outcome = .ok [] ∧
      (∀ source ∈ survey.sources, ∃ place < done,
        practiceLog[place]? = some (.deed worker (.read source))) ∧
      ∀ place source, practiceLog[place]? = some (.deed worker (.read source)) → 5 < place := by
  have free : Sha256.CollisionFree (practiceLog.flatMap Occurrence.hashedTexts) :=
    World.practice_collisionFree.subset (List.Subset.refl _)
  exact answer_follows_edit _ _ _ _ practiceOperations practiceTurns practice_log free
    (fun user => (List.countP_le_length).trans_lt (by decide : practiceLog.length < 2 ^ 64))
    (rfl : practiceLog[5]? = _) rfl (rfl : practiceLog[6]? = _) (rfl : practiceLog[8]? = _)
    (by decide) (rfl : practiceLog[13]? = _)

end System

end Agenda

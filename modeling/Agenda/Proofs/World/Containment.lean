import Agenda.Proofs.Cache.Stored
import Agenda.Proofs.Scope
import Agenda.Proofs.World.Soundness
import Agenda.Proofs.World.Source

/-!
What an answer is about. Every item belongs to a context that the query covers now, also when the
answer comes from the cache: the key of an entry tells for which contexts it was computed.
-/

namespace Agenda

/-- The query of the user covers the context: it is in the scope that is resolved now, and the user
has joined it. -/
structure Deployment.Covers (deployment : Deployment) (query : NeedsQuery) (user : UserId)
    (options : NeedsOptions) (context : Context) : Prop where
  inScope : ∃ scope, (query.scope deployment user options).outcome = .ok scope ∧
    context ∈ scope.contexts
  joined : deployment.Joined user context

namespace NeedsQuery

variable {query : NeedsQuery} {deployment : Deployment} {user : UserId} {options : NeedsOptions}

theorem covers_of_scope {scope : Scope}
    (resolved : (query.scope deployment user options).outcome = .ok scope) {context : Context}
    (member : context ∈ scope.contexts) : deployment.Covers query user options context :=
  ⟨⟨scope, resolved, member⟩, Scope.joined_of_resolve resolved member⟩

theorem covers_of_load {predicates : List (query.Item → Bool)} {limit : Option Nat}
    {items : List query.Item}
    (listed : (query.load deployment user options predicates limit).outcome = .ok items)
    {item : query.Item} (member : item ∈ items) :
    deployment.Covers query user options (Listed.context item) := by
  rw [outcome_load] at listed
  obtain ⟨all, ran, rfl⟩ := map_eq_ok.mp listed
  have kept : item ∈ keepAll predicates all := by
    cases limit with
    | none => exact member
    | some limit => exact List.mem_of_mem_take member
  rw [keepAll_eq_filter] at kept
  obtain ⟨scope, resolved, covered⟩ := inScope_of_run ran (List.mem_filter.mp kept).1
  exact covers_of_scope resolved covered

end NeedsQuery

theorem Lookup.covers_of_answer {later : Lookup} {history : List Event}
    (explained : later.memory.cache.ExplainedBy history)
    (free : Sha256.CollisionFree ((history ++ [Event.lookup later]).flatMap Event.hashedTexts))
    {items : List later.query.Item} (answered : later.result.1 = .ok items) {item : later.query.Item}
    (member : item ∈ items) :
    later.deployment.Covers later.query later.user later.options (Listed.context item) := by
  rcases later.asks_or_empty answered with ⟨scope, asks⟩ | rfl
  · obtain ⟨_, earlier, memory, area, -, misses, contexts, -⟩ :=
      later.source explained free asks answered
    have covered := NeedsQuery.context_of_found (found_of_misses misses member)
    exact NeedsQuery.covers_of_scope asks.resolved ((contexts _).mp covered)
  · cases member

/-- Nothing is listed that the query does not cover: neither in a list that is computed, whole or
filtered or cut, nor in a cached one at any point of a run, whatever was edited before. -/
theorem NeedsQuery.items_covered (query : NeedsQuery) (user : UserId) (options : NeedsOptions) :
    (∀ (deployment : Deployment) (predicates : List (query.Item → Bool)) (limit : Option Nat)
      (items : List query.Item),
      (query.load deployment user options predicates limit).outcome = .ok items →
      ∀ item ∈ items, deployment.Covers query user options (Listed.context item)) ∧
    (∀ (tables : Tables) (grants : List PermissionGrant) (now : Instant) (config : Config)
      (steps : List World.Step) (items : List query.Item),
      let start := World.start tables grants now config
      (∀ step ∈ steps, step.writesByHand = false) →
      Sha256.CollisionFree
        ((start.trace (steps ++ [.cached query user options])).flatMap Event.hashedTexts) →
      (query.runCached (start.run steps).deployment user options (start.run steps).memory).1 =
        .ok items →
      ∀ item ∈ items,
        (start.run steps).deployment.Covers query user options (Listed.context item)) := by
  refine ⟨fun deployment predicates limit items listed item member => covers_of_load listed member, ?_⟩
  intro tables grants now config steps items start queried free answered item member
  let call : Lookup := ⟨(start.run steps).deployment, (start.run steps).memory, query, user, options⟩
  have explained := (World.start_explained tables grants now config queried).1
  rw [World.trace_append] at free
  exact call.covers_of_answer explained free answered member

namespace World

def teachingSteps (course : CourseId) : List Step :=
  [.cached (.quizzes {}) practiceCall.user .default,
    .replace .memberships (practice.deployment.tables.memberships.map fun joined =>
      { joined with courses := joined.courses ++ [⟨course, .teacher, .active, false⟩] })]

theorem items_covered_practice :
    let steps := teachingSteps ⟨⟨2, by decide⟩⟩
    let teaching := practice.run steps
    ((NeedsQuery.quizzes {}).runCached teaching.deployment practiceCall.user .default
      teaching.memory).1 = .ok practiceItems ∧
    ∀ item ∈ practiceItems, teaching.deployment.Covers (.quizzes {}) practiceCall.user .default
      (Listed.context item) := by
  intro steps teaching
  have expires : ((practice.deployment.now.add? (practiceCall.request practiceScope).lifetime).any
      fun expiry => decide (practice.deployment.now < expiry)) = true := by
    decide +kernel
  obtain ⟨expiry, representable, times⟩ := (Option.any_eq_true _ _).mp expires
  have answered : practiceCall.result.1 = .ok practiceItems :=
    Lookup.answered_of_misses practice_misses rfl rfl
      (Option.ne_none_iff_exists'.mpr ⟨expiry, representable⟩)
  have held : teaching.memory.cache.entries
      ((practiceCall.request practiceScope).key practiceCall.token) =
        some ⟨⟨practiceCall.token, JsonFormat.encode practiceItems⟩, expiry⟩ :=
    Lookup.stored_of_misses practice_misses answered representable
  have fresh : teaching.deployment.now < expiry := of_decide_eq_true times
  let later := practiceCall.elsewhere teaching.deployment teaching.memory
  have asks : later.Asks practiceScope := ⟨rfl, rfl, rfl⟩
  have tokens : teaching.memory.cache.tokens practiceCall.user = practiceCall.token :=
    congrFun practiceCall.cache_after.1 practiceCall.user
  have served : later.result.1 = .ok practiceItems :=
    congrArg Prod.fst (Lookup.result_of_stored held fresh tokens asks (fun context => Iff.rfl) rfl rfl)
  have within : (practice.trace (steps ++ [.cached (.quizzes {}) practiceCall.user
      .default])).flatMap Event.hashedTexts ⊆ practiceCall.hashedTexts := by
    have events : practice.trace (steps ++ [.cached (.quizzes {}) practiceCall.user
        .default]) = [.lookup practiceCall, .lookup later] := rfl
    rw [events]
    simp [Event.hashedTexts, practice_texts asks rfl tokens, later]
  exact ⟨served, (NeedsQuery.items_covered (.quizzes {}) practiceCall.user .default).2 _ _ _ _
    steps practiceItems (by decide) (practice_free.subset within) served⟩

end World

end Agenda

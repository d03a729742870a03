import Agenda.Proofs.Needs.Rows
import Agenda.Proofs.World.Soundness

/-!
Where the answer of a call comes from when its cache came about by a history: from the call itself or
from an earlier one of the same query for the same contexts, under the same token.
-/

namespace Agenda

namespace Lookup

variable {lookup : Lookup}

theorem asks_or_empty {items : List lookup.query.Item} (answered : lookup.result.1 = .ok items) :
    (∃ scope, lookup.Asks scope) ∨ items = [] :=
  lookup.asks_or_idle.imp_right fun idle => idle.2 items answered

theorem found_of_misses {scope : Scope} {items : List lookup.query.Item}
    (misses : lookup.Misses scope items) {item : lookup.query.Item} (member : item ∈ items) :
    item ∈ lookup.query.found lookup.deployment lookup.user lookup.options scope
      (lookup.query.ignored lookup.deployment lookup.user lookup.options) :=
  NeedsQuery.mem_found_of_firstItems misses.computed member

theorem answered_of_misses {scope : Scope} {items : List lookup.query.Item}
    (misses : lookup.Misses scope items) (readEntry : lookup.deployment.failure? .readEntry = none)
    (writeEntry : lookup.deployment.failure? .writeEntry = none)
    (representable : lookup.deployment.now.add? (lookup.request scope).lifetime ≠ none) :
    lookup.result.1 = .ok items := by
  have computed : (lookup.query.firstItems lookup.deployment lookup.user lookup.options scope).outcome =
      .ok items := misses.computed
  rw [result_of_asks misses.toAsks,
    CacheRequest.fetch_fst_of_missing misses.reached readEntry writeEntry misses.not_found
      representable, computed]
  rfl

theorem source {later : Lookup} {history : List Event}
    (explained : later.memory.cache.ExplainedBy history)
    (free : Sha256.CollisionFree ((history ++ [Event.lookup later]).flatMap Event.hashedTexts))
    {scope : Scope} (asks : later.Asks scope) {items : List later.query.Item}
    (answered : later.result.1 = .ok items) :
    ∃ (place : Nat) (deployment : Deployment) (memory : Memory) (area : Scope),
      (history ++ [Event.lookup later])[place]? = some (.lookup (later.elsewhere deployment memory)) ∧
      (later.elsewhere deployment memory).Misses area items ∧
      (∀ context, context ∈ area.contexts ↔ context ∈ scope.contexts) ∧
      (later.elsewhere deployment memory).token = later.token := by
  obtain ⟨reached, misses | found⟩ := answer_cases asks answered
  · exact ⟨history.length, later.deployment, later.memory, scope, by simp [elsewhere], misses,
      fun context => Iff.rfl, rfl⟩
  · obtain ⟨entry, stored, -, -, read⟩ :=
      ((later.request scope).found?_eq_some later.deployment later.memory).mp found
    obtain ⟨place, earlier, taken, stores⟩ := explained.entries _ _ stored
    have hashed : earlier.hashedTexts ++ later.hashedTexts ⊆
        (history ++ [Event.lookup later]).flatMap Event.hashedTexts := by
      rw [List.flatMap_append]
      refine List.append_subset.mpr ⟨fun text member => List.mem_append_left _ ?_, fun text member =>
        List.mem_append_right _ ?_⟩
      · exact List.mem_flatMap.mpr ⟨.lookup earlier, List.mem_of_getElem? taken, member⟩
      · exact List.mem_flatMap.mpr ⟨.lookup later, List.mem_singleton_self _, member⟩
    obtain ⟨deployment, memory, area, rfl, misses, contexts, tokens, -⟩ :=
      source_of_stored stores asks reached (free.subset hashed) read
    refine ⟨place, deployment, memory, area, ?_, misses, contexts, tokens⟩
    rw [List.getElem?_append_left (List.getElem?_eq_some_iff.mp taken).1, taken]

end Lookup

namespace World

variable (world : World)

theorem trace_append (steps others : List Step) :
    world.trace (steps ++ others) = world.trace steps ++ (world.run steps).trace others := by
  induction steps generalizing world with
  | nil => rfl
  | cons step rest ih => simp only [List.cons_append, trace, ih, List.append_assoc]; rfl

theorem deployment_of_mem_trace {steps : List Step} {call : Lookup}
    (member : .lookup call ∈ world.trace steps) :
    ∃ place < steps.length, call.deployment = (world.run (steps.take place)).deployment := by
  induction steps generalizing world with
  | nil => cases member
  | cons step rest ih =>
      rcases List.mem_append.mp member with now | later
      · exact ⟨0, by simp, world.deployment_of_mem_events now⟩
      · obtain ⟨place, bound, same⟩ := ih (world.after step) later
        exact ⟨place + 1, by simpa using bound, same⟩

/-- The cache that each call of a run meets came about by what happened before. -/
theorem start_explained (tables : Tables) (grants : List PermissionGrant) (now : Instant)
    (config : Config) {steps : List Step} (queried : ∀ step ∈ steps, step.writesByHand = false) :
    ((start tables grants now config).run steps).memory.cache.ExplainedBy
        ((start tables grants now config).trace steps) ∧
      ∀ (place : Nat) (call : Lookup),
        ((start tables grants now config).trace steps)[place]? = some (.lookup call) →
          call.memory.cache.ExplainedBy (((start tables grants now config).trace steps).take place) := by
  have explained := ((start tables grants now config).trace_evolves steps queried).explained
    Cache.ExplainedBy.empty
  simpa using explained

end World

end Agenda

import Agenda.Proofs.Dashboard.Alike
import Agenda.Proofs.World.GradingPermission

/-!
Users do not influence each other. Two worlds that are alike for a user stay so whatever others do in
one of them, and answer the steps of the user the same; so the answers of a run are those of the run
without the steps of others.
-/

namespace Agenda

namespace World

namespace Step

def user? : Step → Option UserId
  | .cached _ user _ => some user
  | .listed _ user _ _ _ => some user
  | .anyListed _ user _ _ => some user
  | .dashboard user _ => some user
  | .resolve user _ => some user
  | .ignore row => some row.user
  | .touch user => some user
  | .token user => some user
  | .fetch request _ => some request.user
  | .fetchIds request _ => some request.user
  | _ => none

def staysFor (user : UserId) (step : Step) : Bool :=
  step.user?.all fun other => other = user

def request? : Step → Option CacheRequest
  | .fetch request _ => some request
  | .fetchIds request _ => some request
  | _ => none

def hashedTexts (world : World) (step : Step) : List String :=
  (step.events world).flatMap Event.hashedTexts ++
    match step.request?, world.deployment.failure? .readToken with
    | some request, none => request.hashedTexts (world.memory.cache.tokens request.user)
    | _, _ => []

end Step

def hashedTexts : World → List Step → List String
  | _, [] => []
  | world, step :: rest => step.hashedTexts world ++ hashedTexts (world.after step) rest

def answersTo (user : UserId) : World → List Step → List (Σ step : Step, Except Stop step.Answer)
  | _, [] => []
  | world, step :: rest =>
      if step.user? = some user then
        ⟨step, (step.perform world).1⟩ :: answersTo user (world.after step) rest
      else answersTo user (world.after step) rest

/-- Worlds that differ at most in what others ignore and in what is cached for others. -/
structure AlikeFor (user : UserId) (texts : List String) (first second : World) : Prop where
  deployment : second.deployment =
    first.deployment.withIgnores second.deployment.tables.ignores
  ignores : (second.deployment.tables.ignores.filter fun row => row.user = user) =
    first.deployment.tables.ignores.filter fun row => row.user = user
  cache : first.memory.cache.AlikeFor user texts second.memory.cache

structure SameFor (user : UserId) (texts : List String) {α : Type}
    (first second : Except Stop α × World) : Prop where
  answer : first.1 = second.1
  alike : first.2.AlikeFor user texts second.2

namespace AlikeFor

variable {user : UserId} {texts : List String} {first second third : World}

theorem refl (world : World) : world.AlikeFor user texts world :=
  ⟨rfl, rfl, .refl _⟩

theorem trans (alike : first.AlikeFor user texts second) (further : second.AlikeFor user texts third) :
    first.AlikeFor user texts third where
  deployment := by rw [further.deployment, alike.deployment]; rfl
  ignores := further.ignores.trans alike.ignores
  cache := alike.cache.trans further.cache

theorem change (alike : first.AlikeFor user texts second) (edit : Deployment → Deployment)
    (apart : ∀ deployment rows,
      edit (deployment.withIgnores rows) = (edit deployment).withIgnores rows)
    (ignores : ∀ deployment, (edit deployment).tables.ignores = deployment.tables.ignores) :
    AlikeFor user texts { first with deployment := edit first.deployment }
      { second with deployment := edit second.deployment } where
  deployment := by
    change edit second.deployment = (edit first.deployment).withIgnores _
    rw [ignores, ← apart, ← alike.deployment]
  ignores := by
    change (edit second.deployment).tables.ignores.filter _ =
      (edit first.deployment).tables.ignores.filter _
    rw [ignores, ignores]
    exact alike.ignores
  cache := alike.cache

theorem ofSession {α : Type} (alike : first.AlikeFor user texts second)
    (session : Deployment → Session α)
    (agrees : (session first.deployment first.memory).1 =
        (session second.deployment second.memory).1 ∧
      (session first.deployment first.memory).2.cache.AlikeFor user texts
        (session second.deployment second.memory).2.cache) :
    SameFor user texts (Action.ofSession session first) (Action.ofSession session second) :=
  ⟨agrees.1, alike.deployment, alike.ignores, agrees.2⟩

theorem edit (alike : first.AlikeFor user texts second) {rows others : List Ignore}
    (same : (others.filter fun row => row.user = user) = rows.filter fun row => row.user = user) :
    AlikeFor user texts (first.withIgnores rows) (second.withIgnores others) where
  deployment := by
    change second.deployment.withIgnores others = (first.deployment.withIgnores rows).withIgnores others
    rw [alike.deployment]
    rfl
  ignores := same
  cache := alike.cache

theorem outages (alike : first.AlikeFor user texts second) :
    second.deployment.outages = first.deployment.outages := by
  rw [alike.deployment]
  rfl

theorem now (alike : first.AlikeFor user texts second) :
    second.deployment.now = first.deployment.now := by
  rw [alike.deployment]
  rfl

theorem failure? (alike : first.AlikeFor user texts second) (facility : Facility) :
    second.deployment.failure? facility = first.deployment.failure? facility := by
  simp only [Deployment.failure?, alike.outages]

theorem ofMatches {α : Type} (alike : first.AlikeFor user texts second)
    (session : Deployment → Session α)
    (agrees : Session.Matches user texts (session first.deployment) (session second.deployment)) :
    SameFor user texts (Action.ofSession session first) (Action.ofSession session second) :=
  alike.ofSession session (agrees first.memory second.memory alike.cache)

end AlikeFor

variable (world : World)

theorem touchAll_cache {users : List UserId} (once : users.Nodup)
    (works : world.deployment.failure? .advanceToken = none) :
    (touchAll users world).2.memory.cache.entries = world.memory.cache.entries ∧
      ∀ user, (touchAll users world).2.memory.cache.tokens user =
        if user ∈ users then (world.memory.cache.tokens user).next
        else world.memory.cache.tokens user := by
  induction users generalizing world with
  | nil => exact ⟨rfl, fun user => rfl⟩
  | cons first rest ih =>
      obtain ⟨fresh, restOnce⟩ := List.nodup_cons.mp once
      change (Action.bind (touch first) (fun _ => touchAll rest) world).2.memory.cache.entries = _ ∧
        ∀ user, (Action.bind (touch first) (fun _ => touchAll rest) world).2.memory.cache.tokens user =
          _
      simp only [Action.bind, world.touch_served first works]
      let touched : World := { world with memory :=
        { world.memory with cache := (world.memory.cache.advanceToken first).2 } }
      obtain ⟨entries, tokens⟩ := ih touched restOnce works
      refine ⟨entries, fun user => ?_⟩
      rw [tokens user, show touched.memory.cache.tokens user = _ from
        world.memory.cache.advanceToken_tokens first user]
      by_cases same : user = first
      · subst same
        simp [fresh]
      · simp [same]

theorem touchAll_refused {failure : ServiceFailure} {users : List UserId}
    (broken : world.deployment.failure? .advanceToken = some failure) :
    (touchAll users world).2 = world := by
  cases users with
  | nil => rfl
  | cons first rest =>
      change (Action.bind (touch first) (fun _ => touchAll rest) world).2 = world
      simp only [Action.bind, world.touch_refused first broken]

variable {world} {user : UserId} {texts : List String} {first second : World}

theorem AlikeFor.touchAll (alike : first.AlikeFor user texts second) {users others : List UserId}
    (once : users.Nodup) (othersOnce : others.Nodup) (same : user ∈ users ↔ user ∈ others) :
    AlikeFor user texts (World.touchAll users first).2 (World.touchAll others second).2 := by
  cases works : first.deployment.failure? .advanceToken with
  | some failure =>
      rw [first.touchAll_refused works, second.touchAll_refused ((alike.failure? _).trans works)]
      exact alike
  | none =>
      obtain ⟨entries, tokens⟩ := first.touchAll_cache once works
      obtain ⟨otherEntries, otherTokens⟩ :=
        second.touchAll_cache othersOnce ((alike.failure? _).trans works)
      refine ⟨?_, ?_, ?_, ?_⟩
      · rw [touchAll_deployment, touchAll_deployment]
        exact alike.deployment
      · rw [touchAll_deployment, touchAll_deployment]
        exact alike.ignores
      · simp only [tokens, otherTokens, same, alike.cache.tokens]
      · rw [entries, otherEntries]
        exact alike.cache.entries

theorem AlikeFor.of_session {α : Type} {session : Deployment → Session α}
    (spares : (session world.deployment world.memory).2.cache.AlikeFor user texts
      world.memory.cache) :
    AlikeFor user texts (Action.ofSession session world).2 world :=
  ⟨rfl, rfl, spares⟩

theorem Step.hashedTexts_append {step : Step} (hashed : step.hashedTexts world ⊆ texts) :
    (step.events world).flatMap Event.hashedTexts ⊆ texts ∧
      ∀ request, step.request? = some request → world.deployment.failure? .readToken = none →
        request.hashedTexts (world.memory.cache.tokens request.user) ⊆ texts := by
  obtain ⟨events, own⟩ := List.append_subset.mp hashed
  refine ⟨events, fun request asked works => ?_⟩
  rw [asked, works] at own
  exact own

theorem AlikeFor.of_touchAll {users : List UserId} (foreign : user ∉ users) :
    AlikeFor user texts (World.touchAll users world).2 world := by
  induction users generalizing world with
  | nil => exact .refl world
  | cons first rest ih =>
      rw [List.mem_cons, not_or] at foreign
      change AlikeFor user texts (Action.bind (touch first) (fun _ => World.touchAll rest) world).2 world
      cases works : world.deployment.failure? .advanceToken with
      | some failure =>
          simp only [Action.bind, world.touch_refused first works]
          exact .refl world
      | none =>
          simp only [Action.bind, world.touch_served first works]
          exact (ih foreign.2).trans ⟨rfl, rfl, .of_advanceToken _ (Ne.symm foreign.1)⟩

theorem alike_after_of_foreign (free : Sha256.CollisionFree texts) {step : Step}
    (foreign : step.staysFor user = false) (hashed : step.hashedTexts world ⊆ texts) :
    AlikeFor user texts (world.after step) world := by
  obtain ⟨events, requested⟩ := Step.hashedTexts_append hashed
  have other {owner : UserId} (own : step.user? = some owner) : owner ≠ user := by
    rw [Step.staysFor, own] at foreign
    simpa using foreign
  cases step with
  | cached query owner options =>
      refine .of_session (NeedsQuery.runCached_spares free (other rfl) ?_)
      simpa [Step.events, Event.hashedTexts] using events
  | listed query owner options keep limit =>
      rw [show world.after (.listed query owner options keep limit) = _ from
        world.bind_pure_world (.ofMetered fun deployment => query.run deployment owner options) _]
      exact .of_session (.refl _)
  | anyListed query owner options keep =>
      rw [show world.after (.anyListed query owner options keep) = _ from
        world.bind_pure_world (.ofMetered fun deployment => query.run deployment owner options) _]
      exact .of_session (.refl _)
  | dashboard owner limits =>
      exact .of_session (TodoList.build_spares free (other rfl) world.memory events)
  | resolve owner request => exact .of_session (.refl _)
  | ignore row =>
      cases works : world.deployment.failure? .saveIgnore with
      | some failure =>
          rw [show world.after (.ignore row) = world from congrArg Prod.snd (world.ignore_refused works)]
          exact .refl world
      | none =>
          rw [world.after_ignore works]
          refine (AlikeFor.of_touchAll (by simpa using Ne.symm (other rfl))).trans ⟨rfl, ?_, .refl _⟩
          exact ((Ignore.filter_upsert user row _).trans (if_neg (other rfl))).symm
  | touch owner =>
      rw [show world.after (.touch owner) = _ from (world.touchAll_single owner).symm]
      exact .of_touchAll (by simpa using Ne.symm (other rfl))
  | token owner =>
      refine .of_session ?_
      simp only [Session.readToken, Session.useCache]
      cases world.deployment.failure? .readToken <;> exact .refl _
  | fetch request result =>
      exact .of_session (CacheRequest.fetch_spares free (other rfl) (requested request rfl))
  | fetchIds request result =>
      exact .of_session (CacheRequest.fetch_spares free (other rfl) (requested request rfl))
  | _ => cases foreign

theorem SameFor.map {α β : Type} {action change : Action α}
    (same : SameFor user texts (action first) (change second)) (make : α → β) :
    SameFor user texts (Action.bind action (fun value => .pure (make value)) first)
      (Action.bind change (fun value => .pure (make value)) second) := by
  simp only [Action.bind]
  generalize action first = left at same ⊢
  generalize change second = right at same ⊢
  obtain ⟨outcome, after⟩ := left
  obtain ⟨other, afterOther⟩ := right
  obtain ⟨answers, alike⟩ := same
  cases answers
  cases outcome <;> exact ⟨rfl, alike⟩

theorem ignore_alike (alike : first.AlikeFor user texts second) {row : Ignore}
    (own : row.user = user) :
    SameFor user texts (World.ignore row first) (World.ignore row second) := by
  cases saves : first.deployment.failure? .saveIgnore with
  | some failure =>
      rw [first.ignore_refused saves, second.ignore_refused ((alike.failure? _).trans saves)]
      exact ⟨rfl, alike⟩
  | none =>
      rw [first.ignore_served saves, second.ignore_served ((alike.failure? _).trans saves), own]
      have rows : ((row.upsert second.deployment.tables.ignores).filter fun row => row.user = user) =
          (row.upsert first.deployment.tables.ignores).filter fun row => row.user = user := by
        rw [Ignore.filter_upsert, Ignore.filter_upsert, alike.ignores]
      have edited := alike.edit rows
      exact (edited.ofMatches (fun deployment => .touch deployment user) (.touch edited.outages)).map
        fun _ => row

theorem clearOnChange_alike (alike : first.AlikeFor user texts second) (asset : Asset)
    (purpose : Purpose) : AlikeFor user texts (first.after (.clearOnChange asset purpose))
      (second.after (.clearOnChange asset purpose)) := by
  cases clears : first.deployment.failure? .clearIgnores with
  | some failure =>
      rw [first.after_clearOnChange_refused clears,
        second.after_clearOnChange_refused ((alike.failure? _).trans clears)]
      exact alike
  | none =>
      rw [first.after_clearOnChange clears,
        second.after_clearOnChange ((alike.failure? _).trans clears)]
      have once (rows : List Ignore) : (Ignore.transientUsers asset purpose rows).Nodup :=
        Ranked.nodup_of_ascending (Ranked.ascending_sortedDistinct _)
      have lasting (rows : List Ignore) :
          ((Ignore.lasting asset purpose rows).filter fun row => row.user = user) =
            Ignore.lasting asset purpose (rows.filter fun row => row.user = user) := by
        simp only [Ignore.lasting, List.filter_filter, Bool.and_comm]
      have touched (rows : List Ignore) : user ∈ Ignore.transientUsers asset purpose rows ↔
          ∃ row ∈ rows.filter fun row => row.user = user, row.isTransient asset purpose = true := by
        simp only [Ignore.transientUsers, Ranked.mem_sortedDistinct, List.mem_map, List.mem_filter,
          decide_eq_true_eq]
        constructor
        · rintro ⟨row, ⟨member, ends⟩, own⟩
          exact ⟨row, ⟨member, own⟩, ends⟩
        · rintro ⟨row, ⟨member, own⟩, ends⟩
          exact ⟨row, ⟨member, ends⟩, own⟩
      refine (alike.edit ?_).touchAll (once _) (once _) ?_
      · rw [lasting, lasting, alike.ignores]
      · rw [touched, touched, alike.ignores]

/-- A step that is not for somebody else keeps worlds alike, and if it is for the user it answers
the same in both. -/
theorem perform_alike {step : Step} (stays : step.staysFor user = true)
    (alike : first.AlikeFor user texts second) (hashed : step.hashedTexts first ⊆ texts) :
    (step.user? = some user → (step.perform first).1 = (step.perform second).1) ∧
      AlikeFor user texts (first.after step) (second.after step) := by
  obtain ⟨events, requested⟩ := Step.hashedTexts_append hashed
  have owned {owner : UserId} (own : step.user? = some owner) : owner = user := by
    rw [Step.staysFor, own] at stays
    simpa using stays
  have ran (query : NeedsQuery) (options : NeedsOptions) := alike.ofMatches
    (fun deployment => .ofMetered (query.run deployment user options))
    (.ofMetered (by rw [alike.deployment, NeedsQuery.outcome_run_withIgnores alike.ignores]))
  have silent (other : step.user? = none) {after further : World}
      (alike : after.AlikeFor user texts further) :
      (step.user? = some user → (step.perform first).1 = (step.perform second).1) ∧
        after.AlikeFor user texts further :=
    ⟨fun own => absurd (own.symm.trans other) (Option.some_ne_none user), alike⟩
  have edits (edit : Deployment → Deployment) (other : step.user? = none)
      (apart : ∀ deployment rows,
        edit (deployment.withIgnores rows) = (edit deployment).withIgnores rows)
      (ignores : ∀ deployment, (edit deployment).tables.ignores = deployment.tables.ignores) :
      (step.user? = some user → (step.perform first).1 = (step.perform second).1) ∧
        AlikeFor user texts { first with deployment := edit first.deployment }
          { second with deployment := edit second.deployment } :=
    silent other (alike.change edit apart ignores)
  cases step with
  | cached query owner options =>
      obtain rfl := owned rfl
      have answers := alike.ofSession (fun deployment => query.runCached deployment owner options) (by
        rw [alike.deployment]
        exact NeedsQuery.runCached_alike alike.ignores alike.cache
          (by simpa [Step.events, Event.hashedTexts] using events))
      exact ⟨fun _ => answers.answer, answers.alike⟩
  | listed query owner options keep limit =>
      obtain rfl := owned rfl
      have answers := (ran query options).map fun items =>
        limit.elim (Step.keepIds keep items) (Step.keepIds keep items).take
      exact ⟨fun _ => answers.answer, answers.alike⟩
  | anyListed query owner options keep =>
      obtain rfl := owned rfl
      have answers := (ran query options).map fun items => !(Step.keepIds keep items).isEmpty
      exact ⟨fun _ => answers.answer, answers.alike⟩
  | dashboard owner limits =>
      obtain rfl := owned rfl
      have answers := alike.ofSession (fun deployment => TodoList.build deployment limits owner) (by
        rw [alike.deployment]
        exact TodoList.build_agree alike.ignores _ _ alike.cache events)
      exact ⟨fun _ => answers.answer, answers.alike⟩
  | resolve owner request =>
      have answers := alike.ofMatches (fun deployment => .ofMetered (Scope.resolve deployment owner
        request)) (.ofMetered (by rw [alike.deployment]; rfl))
      exact ⟨fun _ => answers.answer, answers.alike⟩
  | ignore row =>
      have answers := ignore_alike alike (owned rfl)
      exact ⟨fun _ => answers.answer, answers.alike⟩
  | clearOnChange asset purpose =>
      exact silent rfl (clearOnChange_alike alike asset purpose)
  | touch owner =>
      obtain rfl := owned rfl
      have answers := alike.ofMatches (fun deployment => .touch deployment owner)
        (.touch alike.outages)
      exact ⟨fun _ => answers.answer, answers.alike⟩
  | token owner =>
      obtain rfl := owned rfl
      have answers := alike.ofMatches (fun deployment => .readToken deployment owner)
        (.readToken alike.outages)
      exact ⟨fun _ => answers.answer, answers.alike⟩
  | readEntry key =>
      exact silent rfl ⟨alike.deployment, alike.ignores,
        Session.Matches.readEntry_cache alike.outages alike.now key alike.cache⟩
  | writeEntry key value lifetime =>
      exact silent rfl
        (alike.ofMatches (fun deployment => .writeEntry deployment key value lifetime)
          (.writeEntry alike.outages alike.now key value lifetime)).alike
  | fetch request result =>
      obtain rfl := owned rfl
      have answers := alike.ofSession (fun deployment => request.fetch (α := Json) deployment
        (.spend { computations := 1 } result))
        (CacheRequest.fetch_alike alike.outages alike.now rfl alike.cache (requested request rfl))
      exact ⟨fun _ => answers.answer, answers.alike⟩
  | fetchIds request result =>
      obtain rfl := owned rfl
      have answers := alike.ofSession (fun deployment => request.fetch (α := List GlobalId) deployment
        (.spend { computations := 1 } result))
        (CacheRequest.fetch_alike alike.outages alike.now rfl alike.cache (requested request rfl))
      exact ⟨fun _ => answers.answer, answers.alike⟩
  | advance span =>
      refine silent rfl ?_
      change AlikeFor user texts (World.advance span first).2
        (World.advance span second).2
      simp only [World.advance, alike.now]
      split
      · exact alike
      · exact alike.change (fun deployment => { deployment with now := _ }) (fun _ _ => rfl) fun _ => rfl
  | setClock instant =>
      exact edits (fun deployment => { deployment with now := instant }) rfl (fun _ _ => rfl) fun _ => rfl
  | takeOffline shard =>
      exact edits (fun deployment => { deployment with offline := shard :: deployment.offline }) rfl
        (fun _ _ => rfl) fun _ => rfl
  | breakDown facility failure =>
      exact edits (fun deployment => { deployment with
        outages := (facility, failure) :: deployment.outages }) rfl (fun _ _ => rfl) fun _ => rfl
  | heal =>
      exact edits (fun deployment => { deployment with outages := [] }) rfl (fun _ _ => rfl)
        fun _ => rfl
  | insert table row =>
      cases table with
      | ignores =>
          refine silent rfl (alike.edit ?_)
          let added : Ignore := row
          change (second.deployment.tables.ignores ++ [added]).filter _ =
            (first.deployment.tables.ignores ++ [added]).filter _
          rw [List.filter_append, List.filter_append, alike.ignores]
      | _ =>
          exact edits (fun deployment => { deployment with tables := deployment.tables.insert _ row })
            rfl (fun _ _ => rfl) fun _ => rfl
  | replace table rows =>
      cases table with
      | ignores => exact silent rfl (alike.edit rfl)
      | _ =>
          exact edits (fun deployment => { deployment with tables := deployment.tables.replace _ rows })
            rfl (fun _ _ => rfl) fun _ => rfl
  | readTable table => exact silent rfl alike

theorem answersTo_filter (free : Sha256.CollisionFree texts) {steps : List Step}
    (hashed : first.hashedTexts steps ⊆ texts) (alike : first.AlikeFor user texts second) :
    answersTo user first steps = answersTo user second (steps.filter (Step.staysFor user)) := by
  induction steps generalizing first second with
  | nil => rfl
  | cons step rest ih =>
      obtain ⟨now, later⟩ := List.append_subset.mp hashed
      cases stays : step.staysFor user with
      | false =>
          have other : step.user? ≠ some user := by
            intro own
            simp [Step.staysFor, own] at stays
          have goes := ih later ((alike_after_of_foreign free stays now).trans alike)
          simpa [answersTo, other, stays] using goes
      | true =>
          obtain ⟨answers, after⟩ := perform_alike stays alike now
          have goes := ih later after
          by_cases own : step.user? = some user
          · simp [answersTo, own, stays, answers own, goes]
          · simp [answersTo, own, stays, goes]

/-- Users do not influence each other: without the steps of others a run answers the steps of a user
the same. -/
theorem answers_isolated (user : UserId) (world : World) (steps : List Step)
    (free : Sha256.CollisionFree (world.hashedTexts steps)) :
    answersTo user world steps = answersTo user world (steps.filter (Step.staysFor user)) :=
  answersTo_filter free (List.Subset.refl _) (.refl world)

theorem after_cached (world : World) (query : NeedsQuery) (user : UserId) (options : NeedsOptions) :
    world.after (.cached query user options) = { world with
      memory := Lookup.result ⟨world.deployment, world.memory, query, user, options⟩ |>.2 } :=
  rfl

def otherGrader : UserId :=
  ⟨sampleId 8⟩

def sharedClass : World :=
  let membership : Membership := ⟨lecture, .designer, .active, false⟩
  let grant (user : UserId) : PermissionGrant := ⟨user, .course lecture, .manageGrades⟩
  .start { (classroom membership []).deployment.tables with
      memberships := [⟨classUser, [membership], []⟩, ⟨otherGrader, [membership], []⟩] }
    [grant classUser, grant otherGrader] classNoon {}

def otherIgnore : Ignore :=
  ⟨otherGrader, ⟨.assignment, essay.id.global⟩, .grading, true⟩

def otherCall : Lookup :=
  ⟨sharedClass.deployment, sharedClass.memory, .grading .assignment, otherGrader, hundred⟩

def seenClass : World :=
  { sharedClass with memory := otherCall.result.2 }

theorem seenClass_eq :
    sharedClass.after (.cached (.grading .assignment) otherGrader hundred) = seenClass :=
  sharedClass.after_cached _ _ _

def ignoredClass : World :=
  (touchAll [otherGrader] (seenClass.withIgnores [otherIgnore])).2

theorem ignoredClass_eq : seenClass.after (.ignore otherIgnore) = ignoredClass :=
  seenClass.after_ignore rfl

theorem ignoredClass_token : ignoredClass.memory.cache.tokens classUser = .zero := by
  have alike : AlikeFor classUser [] ignoredClass (seenClass.withIgnores [otherIgnore]) :=
    .of_touchAll (by decide)
  have tokens : seenClass.memory.cache.tokens = sharedClass.memory.cache.tokens :=
    otherCall.cache_after.1
  rw [alike.cache.tokens]
  exact congrFun tokens classUser

def ownCall : Lookup :=
  ⟨ignoredClass.deployment, ignoredClass.memory, .grading .assignment, classUser, hundred⟩

/-- One grader looks at the list and ignores the essay before the other asks. -/
theorem answers_isolated_class :
    answersTo classUser sharedClass [.cached (.grading .assignment) otherGrader hundred,
        .ignore otherIgnore, .cached (.grading .assignment) classUser hundred] =
      answersTo classUser sharedClass [.cached (.grading .assignment) classUser hundred] := by
  let request (user : UserId) : CacheRequest :=
    (NeedsQuery.grading .assignment).cacheRequest {} user hundred gradingScope
  have otherTexts : otherCall.hashedTexts = (request otherGrader).hashedTexts .zero :=
    Lookup.hashedTexts_of_asks (⟨rfl, rfl, rfl⟩ : otherCall.Asks gradingScope) rfl
  have ownTexts : ownCall.hashedTexts = (request classUser).hashedTexts .zero := by
    rw [← ignoredClass_token]
    exact Lookup.hashedTexts_of_asks (⟨rfl, rfl, rfl⟩ : ownCall.Asks gradingScope) rfl
  have texts : sharedClass.hashedTexts [.cached (.grading .assignment) otherGrader hundred,
      .ignore otherIgnore, .cached (.grading .assignment) classUser hundred] =
        otherCall.hashedTexts ++ ownCall.hashedTexts := by
    have bumped : (Step.ignore otherIgnore).events seenClass = [.bump otherGrader] := rfl
    simp only [hashedTexts, seenClass_eq, ignoredClass_eq, Step.hashedTexts, Step.request?,
      List.append_nil, bumped]
    simp [Step.events, Event.hashedTexts, otherCall, ownCall]
  have distinct : ([contextText (request classUser).contexts,
      (request classUser).params.canonical.text, ((request otherGrader).parts .zero).material,
      ((request classUser).parts .zero).material].map Sha256.ofText).Nodup := by
    simp only [request, CacheRequest.parts, NeedsQuery.cacheRequest, CacheKeyParts.material, Json.digest,
      params_grading]
    decide +kernel
  have sameContexts : (request otherGrader).contexts = (request classUser).contexts := rfl
  have sameParams : (request otherGrader).params = (request classUser).params := rfl
  refine answers_isolated classUser sharedClass _ ?_
  rw [texts, otherTexts, ownTexts]
  refine (Sha256.CollisionFree.of_nodup distinct).subset ?_
  simp [CacheRequest.hashedTexts, CacheKeyParts.hashedTexts, CacheRequest.parts, sameContexts,
    sameParams]

end World

end Agenda

import Agenda.Proofs.Ignore
import Agenda.Proofs.World.Isolation

/-!
The ledger of ignores in a world. Whatever calls it has had, its table is that of a map; the next call
edits the map, advances the tokens of the users whose entries it writes or takes away, and leaves all
else as it was.
-/

namespace Agenda

namespace World

theorem touchAll_answer {world : World} {users : List UserId}
    (works : world.deployment.failure? .advanceToken = none) : (touchAll users world).1 = .ok () := by
  induction users generalizing world with
  | nil => rfl
  | cons first rest ih =>
      change (Action.bind (touch first) (fun _ => touchAll rest) world).1 = .ok ()
      simp only [Action.bind, world.touch_served first works]
      exact ih works

theorem bind_pure_answer {α β : Type} {world : World} {first : Action α} {value : α}
    (answered : (first world).1 = .ok value) (answer : β) :
    (Action.bind first (fun _ => Action.pure answer) world).1 = .ok answer := by
  simp only [Action.bind]
  generalize first world = outcome at answered
  obtain ⟨result, after⟩ := outcome
  cases answered
  rfl

inductive LedgerCall where
  | ignore (row : Ignore)
  | clearOnChange (asset : Asset) (purpose : Purpose)

structure LedgerWorks (deployment : Deployment) : Prop where
  saves : deployment.failure? .saveIgnore = none
  clears : deployment.failure? .clearIgnores = none
  advances : deployment.failure? .advanceToken = none

namespace LedgerCall

def step : LedgerCall → Step
  | ignore row => .ignore row
  | clearOnChange asset purpose => .clearOnChange asset purpose

def edit (map : IgnoreMap) : LedgerCall → IgnoreMap
  | ignore row => map.set row
  | clearOnChange asset purpose => map.clear asset purpose

def Touches (map : IgnoreMap) (user : UserId) : LedgerCall → Prop
  | ignore row => user = row.user
  | clearOnChange asset purpose => map user asset purpose = some false

def Answers (map : IgnoreMap) : (call : LedgerCall) → Except Stop call.step.Answer → Prop
  | ignore row, outcome => outcome = .ok row
  | clearOnChange asset purpose, outcome => ∃ users : List UserId, outcome = .ok users ∧
      users.Pairwise (fun earlier later => earlier.global.value < later.global.value) ∧
      ∀ user, user ∈ users ↔ map user asset purpose = some false

structure Effect (map : IgnoreMap) (world : World) (call : LedgerCall) : Prop where
  answers : call.Answers map (call.step.perform world).1
  edits : (call.edit map).Describes (world.after call.step).deployment.tables.ignores
  elsewhere : (world.after call.step).deployment =
    world.deployment.withIgnores (world.after call.step).deployment.tables.ignores
  entries : (world.after call.step).memory.cache.entries = world.memory.cache.entries
  advances : ∀ user, call.Touches map user →
    ((world.after call.step).memory.cache.tokens user).value.toNat =
      ((world.memory.cache.tokens user).value.toNat + 1) % 2 ^ 64
  spares : ∀ user, ¬call.Touches map user →
    (world.after call.step).memory.cache.tokens user = world.memory.cache.tokens user

variable {map : IgnoreMap} {world : World} {call : LedgerCall}

theorem effect_of_touchAll {users : List UserId} {rows : List Ignore}
    (works : LedgerWorks world.deployment)
    (performed : world.after call.step = (touchAll users (world.withIgnores rows)).2)
    (once : users.Nodup) (touched : ∀ user, user ∈ users ↔ call.Touches map user)
    (edits : (call.edit map).Describes rows) (answers : call.Answers map (call.step.perform world).1) :
    call.Effect map world := by
  obtain ⟨entries, tokens⟩ := (world.withIgnores rows).touchAll_cache once works.advances
  have edited : (world.after call.step).deployment = world.deployment.withIgnores rows := by
    rw [performed, touchAll_deployment]
    rfl
  refine ⟨answers, ?_, ?_, ?_, fun user own => ?_, fun user foreign => ?_⟩
  · rw [edited]
    exact edits
  · rw [edited]
    rfl
  · rw [performed, entries]
    rfl
  · rw [performed, tokens, if_pos ((touched user).mpr own), BatchToken.toNat_next]
    rfl
  · rw [performed, tokens, if_neg (mt (touched user).mp foreign)]
    rfl

theorem effect (works : LedgerWorks world.deployment)
    (describes : map.Describes world.deployment.tables.ignores) (call : LedgerCall) :
    call.Effect map world := by
  cases call with
  | ignore row =>
      refine effect_of_touchAll works (world.after_ignore works.saves) (List.nodup_singleton _)
        (fun user => List.mem_singleton) (describes.upsert row) ?_
      change (World.ignore row world).1 = .ok row
      rw [world.ignore_served works.saves]
      refine bind_pure_answer (congrArg Prod.fst (touch_served _ row.user ?_)) row
      exact works.advances
  | clearOnChange asset purpose =>
      let users := Ignore.transientUsers asset purpose world.deployment.tables.ignores
      have ascending := Ranked.ascending_sortedDistinct
        ((world.deployment.tables.ignores.filter (Ignore.isTransient asset purpose)).map (·.user))
      have members (user : UserId) : user ∈ users ↔ map user asset purpose = some false :=
        describes.mem_transientUsers
      refine effect_of_touchAll works (world.after_clearOnChange works.clears)
        (Ranked.nodup_of_ascending ascending) members (describes.lasting asset purpose)
        ⟨users, ?_, ascending.imp ?_, members⟩
      · have served : World.clearOnChange asset purpose world =
            Action.bind (touchAll users) (fun _ => Action.pure users) (world.withIgnores
              (Ignore.lasting asset purpose world.deployment.tables.ignores)) :=
          world.editIgnores_served works.clears
        change (World.clearOnChange asset purpose world).1 = .ok users
        rw [served]
        refine bind_pure_answer (touchAll_answer ?_) users
        exact works.advances
      · intro earlier later before
        simpa [Ranked.before, Ranked.rank] using before

/-- A run of calls edits the map call by call. -/
theorem run_describes (works : LedgerWorks world.deployment)
    (describes : map.Describes world.deployment.tables.ignores) (calls : List LedgerCall) :
    let reached := world.run (calls.map step)
    (calls.foldl edit map).Describes reached.deployment.tables.ignores ∧
      reached.deployment = world.deployment.withIgnores reached.deployment.tables.ignores := by
  induction calls generalizing world map with
  | nil => exact ⟨describes, rfl⟩
  | cons call rest ih =>
      have first := effect works describes call
      have still : LedgerWorks (world.after call.step).deployment := by
        rw [first.elsewhere]
        exact ⟨works.saves, works.clears, works.advances⟩
      obtain ⟨later, elsewhere⟩ := ih still first.edits
      refine ⟨later, elsewhere.trans ?_⟩
      rw [first.elsewhere]
      rfl

end LedgerCall

/-- After any calls of the ledger its table is that of a map: the one of the rows at first, edited by
each call. No other table has changed, and each call from there answers and does what the map says. -/
theorem ledger_refines_map (world : World)
    (once : (world.deployment.tables.ignores.map Ignore.identity).Nodup)
    (works : LedgerWorks world.deployment) (calls : List LedgerCall) :
    let map := calls.foldl LedgerCall.edit (.ofRows world.deployment.tables.ignores)
    let reached := world.run (calls.map LedgerCall.step)
    map.Describes reached.deployment.tables.ignores ∧
      reached.deployment = world.deployment.withIgnores reached.deployment.tables.ignores ∧
      ∀ call : LedgerCall, call.Effect map reached := by
  intro map reached
  obtain ⟨describes, elsewhere⟩ :=
    LedgerCall.run_describes works (IgnoreMap.describes_ofRows once) calls
  refine ⟨describes, elsewhere, LedgerCall.effect ?_ describes⟩
  rw [elsewhere]
  exact ⟨works.saves, works.clears, works.advances⟩

/-- Two users ignore a quiz, one of them for good, and then each of them the other way. A change of the
quiz ends the ignore that is no longer for good and keeps the other. The token of its user, at first the
last one before the wrap-around, has come round to zero by then and moves on to one. -/
theorem ledger_refines_map_quiz :
    let ann : UserId := ⟨⟨7, by decide⟩⟩
    let bob : UserId := ⟨⟨8, by decide⟩⟩
    let quiz : Asset := ⟨.quiz, ⟨10, by decide⟩⟩
    let tables : Tables :=
      { ignores := [⟨ann, quiz, .submitting, true⟩, ⟨bob, quiz, .submitting, false⟩] }
    let begun := World.start tables [] ⟨⟨2026, 1, 11, by decide⟩, 0, 0, by decide, by decide⟩ {}
    let world : World := { begun with memory := { begun.memory with
      cache := { begun.memory.cache with tokens := fun _ => ⟨18446744073709551615⟩ } } }
    let calls : List LedgerCall :=
      [.ignore ⟨bob, quiz, .submitting, true⟩, .ignore ⟨ann, quiz, .submitting, false⟩]
    let reached := world.run (calls.map LedgerCall.step)
    let changed := reached.after (.clearOnChange quiz .submitting)
    (∃ users, (World.clearOnChange quiz .submitting reached).1 = .ok users ∧
      ann ∈ users ∧ bob ∉ users) ∧
    ⟨ann, quiz, .submitting, false⟩ ∉ changed.deployment.tables.ignores ∧
    ⟨bob, quiz, .submitting, true⟩ ∈ changed.deployment.tables.ignores ∧
    (reached.memory.cache.tokens ann).value.toNat = 0 ∧
    (changed.memory.cache.tokens ann).value.toNat = 1 ∧
    changed.memory.cache.tokens bob = reached.memory.cache.tokens bob := by
  intro ann bob quiz tables begun world calls reached changed
  obtain ⟨-, -, effect⟩ := ledger_refines_map world (by decide) ⟨rfl, rfl, rfl⟩ calls
  obtain ⟨answers, edits, -, -, advances, spares⟩ := effect (.clearOnChange quiz .submitting)
  obtain ⟨users, answered, -, members⟩ := answers
  let map := calls.foldl LedgerCall.edit (.ofRows world.deployment.tables.ignores)
  have ended : map ann quiz .submitting = some false := by decide
  have stays : map bob quiz .submitting = some true := by decide
  have wrapped : (reached.memory.cache.tokens ann).value.toNat = 0 := by decide
  have advanced := advances ann ended
  refine ⟨⟨users, answered, (members ann).mpr ended, fun listed => ?_⟩, fun listed => ?_,
    (edits.mem_iff _ _ _ _).mpr ?_, wrapped, ?_, spares bob ?_⟩
  · have cleared : map bob quiz .submitting = some false := (members bob).mp listed
    rw [stays] at cleared
    cases cleared
  · have kept : map.clear quiz .submitting ann quiz .submitting = some false :=
      (edits.mem_iff _ _ _ _).mp listed
    revert kept
    decide
  · change map.clear quiz .submitting bob quiz .submitting = some true
    decide
  · rw [wrapped] at advanced
    exact advanced
  · change map bob quiz .submitting ≠ some false
    decide

end World

end Agenda

import Agenda.Proofs.Ignore
import Agenda.Proofs.Needs.Criteria
import Agenda.Proofs.Needs.Rows

/-!
What queries see of the table of ignores: the ids that one user ignores for one kind and purpose.
Nothing else about a query depends on that table.
-/

namespace Agenda

namespace Deployment

variable (deployment : Deployment) (rows : List Ignore)

def withIgnores : Deployment :=
  { deployment with tables := { deployment.tables with ignores := rows } }

theorem outcome_read_withIgnores (shard : ShardId) :
    ((deployment.withIgnores rows).read shard).outcome =
      (deployment.read shard).outcome.map fun tables => { tables with ignores := rows } := by
  by_cases offline : shard ∈ deployment.offline
  · have still : shard ∈ (deployment.withIgnores rows).offline := offline
    rw [outcome_read_offline offline, outcome_read_offline still]
    rfl
  · rw [outcome_read _ offline, outcome_read (deployment.withIgnores rows) offline]
    rfl

theorem reach_withIgnores (shards : List ShardId) :
    (deployment.withIgnores rows).reach shards = deployment.reach shards := by
  induction shards with
  | nil => rfl
  | cons shard rest ih =>
      rw [reach, reach, ih, outcome_read_withIgnores]
      cases (deployment.read shard).outcome <;> rfl

theorem reachIgnores_withIgnores (user : UserId) (options : NeedsOptions) :
    (deployment.withIgnores rows).reachIgnores user options = deployment.reachIgnores user options := by
  rw [reachIgnores, reachIgnores, outcome_read_withIgnores]
  cases (deployment.read user.shard).outcome <;> rfl

theorem mem_ignored {user : UserId} {kind : ObjectKind} {purpose : Purpose} {options : NeedsOptions}
    (limited : options.includeIgnored = false) {id : GlobalId} (permanent : Bool) :
    id ∈ deployment.ignored user kind purpose options ↔
      deployment.tables.ignores.any (·.sameIdentity ⟨user, ⟨kind, id⟩, purpose, permanent⟩) = true := by
  simp only [mem_ignored_iff, limited, true_and, Tables.Ignores, List.any_eq_true, Ignore.sameIdentity_iff]

end Deployment

namespace NeedsQuery

variable (query : NeedsQuery) (deployment : Deployment) (rows : List Ignore) (user : UserId)
  (options : NeedsOptions) (scope : Scope)

theorem scope_withIgnores :
    query.scope (deployment.withIgnores rows) user options = query.scope deployment user options :=
  rfl

theorem access_withIgnores :
    query.access (deployment.withIgnores rows) user options scope =
      query.access deployment user options scope := by
  rw [access, access, Deployment.reachIgnores_withIgnores, Deployment.reach_withIgnores]

theorem found_withIgnores (ignored : List GlobalId) :
    query.found (deployment.withIgnores rows) user options scope ignored =
      query.found deployment user options scope ignored := by
  cases query <;> rfl

theorem choose_withIgnores (cap : Option Nat) (items : List query.Item) :
    query.choose (deployment.withIgnores rows) user cap items =
      query.choose deployment user cap items := by
  cases query <;> rfl

section OwnRows

variable {query deployment rows user options}
  (same : (rows.filter fun row => row.user = user) =
    deployment.tables.ignores.filter fun row => row.user = user)
include same

theorem ignored_withIgnores (query : NeedsQuery) (options : NeedsOptions) :
    query.ignored (deployment.withIgnores rows) user options =
      query.ignored deployment user options := by
  have own (table : List Ignore) (purpose : Purpose) :
      (table.filter fun row => row.user = user && row.purpose = purpose) =
        (table.filter fun row => row.user = user).filter fun row => row.purpose = purpose := by
    rw [List.filter_filter]
    exact List.filter_congr fun row _ => Bool.and_comm _ _
  have rest : (deployment.withIgnores rows).tables.ignores = rows := rfl
  simp only [ignored, Deployment.ignored, rest, own, same]

theorem sorted_withIgnores (query : NeedsQuery) (options : NeedsOptions) (scope : Scope) :
    query.sorted (deployment.withIgnores rows) user options scope =
      query.sorted deployment user options scope := by
  rw [sorted, sorted, ignored_withIgnores same, found_withIgnores]

theorem outcome_firstItems_withIgnores (query : NeedsQuery) (options : NeedsOptions) (scope : Scope) :
    (query.firstItems (deployment.withIgnores rows) user options scope).outcome =
      (query.firstItems deployment user options scope).outcome := by
  simp only [outcome_firstItems_eq, access_withIgnores, choose_withIgnores, sorted_withIgnores same]

theorem outcome_run_withIgnores (query : NeedsQuery) (options : NeedsOptions) :
    (query.run (deployment.withIgnores rows) user options).outcome =
      (query.run deployment user options).outcome := by
  cases disabled : query.isDisabled deployment.config with
  | true =>
      have still : query.isDisabled (deployment.withIgnores rows).config = true := disabled
      rw [outcome_run_disabled disabled, outcome_run_disabled still]
  | false =>
      have still : query.isDisabled (deployment.withIgnores rows).config = false := disabled
      rw [outcome_run_enabled disabled, outcome_run_enabled still, scope_withIgnores]
      simp only [outcome_list, access_withIgnores, choose_withIgnores, sorted_withIgnores same]

end OwnRows

end NeedsQuery

end Agenda

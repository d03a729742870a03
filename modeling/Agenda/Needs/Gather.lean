import Agenda.Needs.Item
import Agenda.Needs.Options
import Agenda.Store

/-!
What the needs-queries share: one step for each shard of a partition, in ascending order, and the
ignores of the user.
-/

namespace Agenda

/-- Runs a step on each part, one after the other, and joins what they find. The first step that
fails ends the rest, and its error names the shard. -/
def gatherParts {ι α : Type} (step : ShardId → List ι → Metered (List α)) :
    List (ShardId × List ι) → Metered (List α)
  | [] => return []
  | (shard, ids) :: rest => do
      let first ← (step shard ids).onShard shard
      let others ← gatherParts step rest
      return first ++ others

def gather {ι α : Type} [Listed α] (partition : ShardPartition ι)
    (step : ShardId → List ι → Metered (List α)) : Metered (List α) := do
  let items ← gatherParts step partition.parts
  return Listed.sort items

def ignoredIds (deployment : Deployment) (user : UserId) (kind : ObjectKind) (purpose : Purpose)
    (options : NeedsOptions) : Metered (List GlobalId) :=
  if options.includeIgnored then return []
  else do
    let rows ← deployment.readIgnores user purpose
    return (rows.filter fun row => row.asset.kind = kind).map (·.asset.id)

def checkpointCourses (deployment : Deployment) (shard : ShardId) (courses : List CourseId) :
    Metered (List CourseId) := do
  let rows ← deployment.readCourses shard courses
  return (rows.filter (·.checkpoints)).map (·.id)

end Agenda

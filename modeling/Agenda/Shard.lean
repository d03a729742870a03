import Agenda.Id

/-!
Shards. Every id tells the shard that owns its record: each shard has ten million million ids, and
the first shard also has the negative ones.
-/

namespace Agenda

structure ShardId where
  number : Nat
  inRange : number < 4294967296
deriving DecidableEq, Repr

namespace ShardId

def idsPerShard : Int := 10000000000000

def of? (number : Nat) : Option ShardId :=
  if inRange : number < 4294967296 then some ⟨number, inRange⟩ else none

def text (shard : ShardId) : String :=
  "shard-" ++ toString shard.number

def globalId? (shard : ShardId) (offset : GlobalId) : Option GlobalId :=
  GlobalId.of? (shard.number * idsPerShard + offset.value)

instance : Ranked ShardId where
  rank shard := (shard.number, 0)
  rank_injective := by
    rintro ⟨left, _⟩ ⟨right, _⟩ same
    simp only [Prod.mk.injEq, Int.natCast_inj, and_true] at same
    simp only [same]

instance : JsonFormat ShardId where
  encode shard := Json.natural shard.number
  decode document := do
    let number ← document.natural
    match of? number with
    | some shard => .ok shard
    | none => .error .misshapen

end ShardId

/-- The shard that owns the record of an id. No id is beyond the shards that there are. -/
def GlobalId.shard (id : GlobalId) : ShardId where
  number := (max id.value 0 / ShardId.idsPerShard).toNat
  inRange := by
    have bound := id.inRange.2
    simp only [ShardId.idsPerShard]
    omega

class Sharded (α : Type) where
  shard : α → ShardId

instance {entity : Entity} : Sharded (Id entity) where
  shard id := id.global.shard

def Id.shard {entity : Entity} (id : Id entity) : ShardId :=
  id.global.shard

end Agenda

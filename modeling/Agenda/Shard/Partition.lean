import Agenda.Shard

/-!
Partitions: a set of things by the shards they live on, shards ascending, and on each shard the
things ascending.
-/

namespace Agenda

structure ShardPartition (α : Type) where
  parts : List (ShardId × List α)
deriving DecidableEq

namespace ShardPartition

variable {α : Type}

def empty : ShardPartition α :=
  ⟨[]⟩

def ofList [Ranked α] [Sharded α] (elements : List α) : ShardPartition α :=
  let sorted := sortedDistinct elements
  let shards := sortedDistinct (sorted.map Sharded.shard)
  ⟨shards.map fun shard => (shard, sorted.filter fun element => Sharded.shard element = shard)⟩

def isEmpty (partition : ShardPartition α) : Bool :=
  partition.parts.isEmpty

def toList (partition : ShardPartition α) : List α :=
  partition.parts.flatMap (·.2)

def size (partition : ShardPartition α) : Nat :=
  partition.toList.length

def shardCount (partition : ShardPartition α) : Nat :=
  partition.parts.length

def get (partition : ShardPartition α) (shard : ShardId) : List α :=
  (partition.parts.lookup shard).getD []

def contains [Ranked α] [Sharded α] (partition : ShardPartition α) (element : α) : Bool :=
  Ranked.bisect element (partition.get (Sharded.shard element))

/-- The elements that pass; a shard where none passes is no part any more. -/
def retain (keep : α → Bool) (partition : ShardPartition α) : ShardPartition α :=
  let kept := partition.parts.map fun part => (part.1, part.2.filter keep)
  ⟨kept.filter fun part => !part.2.isEmpty⟩

end ShardPartition

end Agenda

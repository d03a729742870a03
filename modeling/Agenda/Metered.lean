import Agenda.Error

/-!
Metered computations: an outcome, and the effort that went into it. Effort counts also when the
outcome is an error.
-/

namespace Agenda

/-- What a computation asked of the services. -/
structure Effort where
  reads : Nat := 0
  singleChecks : Nat := 0
  bulkChecks : Nat := 0
  computations : Nat := 0
deriving DecidableEq, Repr

namespace Effort

def zero : Effort :=
  {}

def add (left right : Effort) : Effort where
  reads := left.reads + right.reads
  singleChecks := left.singleChecks + right.singleChecks
  bulkChecks := left.bulkChecks + right.bulkChecks
  computations := left.computations + right.computations

instance : Add Effort := ⟨add⟩

end Effort

structure Metered (α : Type) where
  outcome : Except Error α
  effort : Effort

namespace Metered

variable {α β : Type}

def pure (value : α) : Metered α :=
  ⟨.ok value, .zero⟩

def bind (first : Metered α) (next : α → Metered β) : Metered β :=
  match first.outcome with
  | .error error => ⟨.error error, first.effort⟩
  | .ok value =>
      let second := next value
      ⟨second.outcome, first.effort + second.effort⟩

instance : Monad Metered where
  pure := pure
  bind := bind

def fail (error : Error) : Metered α :=
  ⟨.error error, .zero⟩

def spend (effort : Effort) (outcome : Except Error α) : Metered α :=
  ⟨outcome, effort⟩

def onShard (computation : Metered α) (shard : ShardId) : Metered α :=
  ⟨computation.outcome.mapError (·.onShard shard), computation.effort⟩

end Metered

end Agenda

import Agenda.Cache
import Mathlib

/-!
Batch tokens as counters: after so many bumps a user has the token of that number, and numbers below
the wrap-around have different tokens.
-/

namespace Agenda

namespace BatchToken

def ofCount (count : Nat) : BatchToken :=
  ⟨UInt64.ofNat count⟩

theorem toNat_next (token : BatchToken) :
    token.next.value.toNat = (token.value.toNat + 1) % 2 ^ 64 := by
  simp [next, UInt64.toNat_add]

@[simp] theorem next_ofCount (count : Nat) : (ofCount count).next = ofCount (count + 1) := by
  simp [next, ofCount, UInt64.ofNat_add]

@[simp] theorem toNat_ofCount (count : Nat) : (ofCount count).value.toNat = count % 2 ^ 64 :=
  UInt64.toNat_ofNat'

theorem ofCount_injective {first second : Nat} (firstBound : first < 2 ^ 64)
    (secondBound : second < 2 ^ 64) (same : ofCount first = ofCount second) : first = second := by
  have values : (UInt64.ofNat first).toNat = (UInt64.ofNat second).toNat :=
    congrArg (fun token => token.value.toNat) same
  rwa [UInt64.toNat_ofNat', UInt64.toNat_ofNat', Nat.mod_eq_of_lt firstBound,
    Nat.mod_eq_of_lt secondBound] at values

end BatchToken

namespace Cache

variable (cache : Cache) (user : UserId)

@[simp] theorem advanceToken_entries : (cache.advanceToken user).2.entries = cache.entries :=
  rfl

theorem advanceToken_tokens (other : UserId) :
    (cache.advanceToken user).2.tokens other =
      if other = user then (cache.tokens user).next else cache.tokens other :=
  rfl

/-- Tokens that count the bumps of a history count one more after another bump. -/
theorem tokens_bump {ε : Type} {bumps : UserId → ε → Bool} {history : List ε} {event : ε}
    (counts : ∀ user, cache.tokens user = .ofCount (history.countP (bumps user)))
    (bump : ∀ other, bumps other event = decide (user = other)) (other : UserId) :
    (cache.advanceToken user).2.tokens other =
      .ofCount ((history ++ [event]).countP (bumps other)) := by
  rw [advanceToken_tokens, List.countP_append, List.countP_singleton, bump]
  by_cases same : other = user
  · subst same
    simp [counts]
  · have different : ¬ user = other := fun equal => same equal.symm
    simp [same, different, counts]

end Cache

end Agenda

/-!
Types with a rank, and what ranks give: sets as ascending lists without repetition, and tables as
one row for each key.
-/

namespace Agenda

class Ranked (α : Type) where
  rank : α → Int × Int
  rank_injective : ∀ left right, rank left = rank right → left = right

namespace Ranked

variable {α ρ : Type} [Ranked α]

def before (left right : α) : Bool :=
  let a := rank left
  let b := rank right
  decide (a.1 < b.1) || (decide (a.1 = b.1) && decide (a.2 < b.2))

def insert (element : α) : List α → List α
  | [] => [element]
  | first :: rest =>
      if before element first then element :: first :: rest
      else if before first element then first :: insert element rest
      else first :: rest

/-- The elements of a list in ascending order, each once. -/
def sortedDistinct (elements : List α) : List α :=
  elements.foldr insert []

/-- Whether an ascending list has an element, looked for in one half after the other. -/
def bisect (wanted : α) (elements : List α) : Bool :=
  let half := elements.length / 2
  if inside : half < elements.length then
    let middle := elements.get ⟨half, inside⟩
    if before wanted middle then bisect wanted (elements.take half)
    else if before middle wanted then bisect wanted (elements.drop (half + 1))
    else true
  else false
termination_by elements.length
decreasing_by
  all_goals
    simp only [List.length_take, List.length_drop]
    omega

/-- For each key in ascending order the last row that has it. -/
def indexBy (key : ρ → α) (rows : List ρ) : List ρ :=
  (sortedDistinct (rows.map key)).filterMap fun wanted =>
    rows.reverse.find? fun row => rank (key row) == rank wanted

end Ranked

export Ranked (sortedDistinct indexBy)

end Agenda

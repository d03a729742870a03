import Agenda.Proofs.Json.Canonical
import Agenda.Proofs.Json.RoundTrip

/-!
Plain JSON, read without a shape in mind. Of members of one name the last one counts, so a value is
read back as it was written when none of its objects repeats a name.
-/

namespace Agenda

namespace Json

mutual

/-- The value as a reader takes it: of members of one name the last one counts, at every depth. -/
def settled : Json → Json
  | .array items => .array (settledItems items)
  | .object members => .object (overlay [] (settledMembers members))
  | .null => .null
  | .boolean value => .boolean value
  | .number value => .number value
  | .string text => .string text

def settledItems : List Json → List Json
  | [] => []
  | item :: rest => item.settled :: settledItems rest

def settledMembers : List (String × Json) → List (String × Json)
  | [] => []
  | (name, value) :: rest => (name, value.settled) :: settledMembers rest

end

theorem itemValues_itemDocuments {items : List Json}
    (reads : ∀ item ∈ items, item.document.value = .ok item.settled) :
    Document.itemValues (itemDocuments items) = .ok (settledItems items) := by
  induction items with
  | nil => rfl
  | cons item rest ih =>
      have first := reads item List.mem_cons_self
      have others := ih fun value member => reads value (List.mem_cons_of_mem _ member)
      simp only [itemDocuments, Document.itemValues, settledItems, first, others, bind, Except.bind]

theorem memberValues_memberDocuments {members : List (String × Json)}
    (reads : ∀ member ∈ members, member.2.document.value = .ok member.2.settled) :
    Document.memberValues (memberDocuments members) = .ok (settledMembers members) := by
  induction members with
  | nil => rfl
  | cons member rest ih =>
      obtain ⟨name, value⟩ := member
      have first : value.document.value = .ok value.settled := reads (name, value) List.mem_cons_self
      have others := ih fun other found => reads other (List.mem_cons_of_mem _ found)
      simp only [memberDocuments, Document.memberValues, settledMembers, Reading.use, first, others,
        bind, Except.bind]

theorem value_document (value : Json) : value.document.value = .ok value.settled := by
  induction value using Json.induction with
  | null => rfl
  | boolean value => cases value <;> rfl
  | number value => rfl
  | string text => rfl
  | array items reads =>
      simp only [document, Document.value, settled, itemValues_itemDocuments reads, bind,
        Except.bind, Document.orFault]
  | object members reads =>
      simp only [document, Document.value, settled, memberValues_memberDocuments reads, bind,
        Except.bind, Document.orFault]

theorem insertMember_of_not_mem {name : String} (value : Json) {members : List (String × Json)}
    (missing : name ∉ members.map Prod.fst) :
    insertMember name value members = members ++ [(name, value)] := by
  induction members with
  | nil => rfl
  | cons member rest ih =>
      rw [List.map_cons, List.mem_cons, not_or] at missing
      rw [insertMember, if_neg (Ne.symm missing.1), ih missing.2, List.cons_append]

theorem overlay_of_nodup {lower upper : List (String × Json)}
    (distinct : ((lower ++ upper).map Prod.fst).Nodup) : overlay lower upper = lower ++ upper := by
  induction upper generalizing lower with
  | nil => exact (List.append_nil lower).symm
  | cons member rest ih =>
      obtain ⟨name, value⟩ := member
      have missing : name ∉ lower.map Prod.fst := by
        rw [List.map_append, List.nodup_append'] at distinct
        exact fun found => distinct.2.2 found List.mem_cons_self
      have further : ((lower ++ [(name, value)] ++ rest).map Prod.fst).Nodup := by
        simpa using distinct
      calc overlay lower ((name, value) :: rest)
        _ = overlay (insertMember name value lower) rest := rfl
        _ = overlay (lower ++ [(name, value)]) rest := by rw [insertMember_of_not_mem value missing]
        _ = lower ++ [(name, value)] ++ rest := ih further
        _ = lower ++ (name, value) :: rest := (List.append_cons _ _ _).symm

theorem settledItems_eq_self {items : List Json} (same : ∀ item ∈ items, item.settled = item) :
    settledItems items = items := by
  induction items with
  | nil => rfl
  | cons item rest ih =>
      rw [settledItems, same item List.mem_cons_self,
        ih fun value member => same value (List.mem_cons_of_mem _ member)]

theorem settledMembers_eq_self {members : List (String × Json)}
    (same : ∀ member ∈ members, member.2.settled = member.2) : settledMembers members = members := by
  induction members with
  | nil => rfl
  | cons member rest ih =>
      obtain ⟨name, value⟩ := member
      have first : value.settled = value := same (name, value) List.mem_cons_self
      rw [settledMembers, first, ih fun other found => same other (List.mem_cons_of_mem _ found)]

theorem Proper.settled_eq_self {value : Json} (proper : value.Proper) : value.settled = value := by
  induction proper with
  | null => rfl
  | boolean value => rfl
  | number value => rfl
  | string text => rfl
  | array _ same => rw [settled, settledItems_eq_self same]
  | object distinct _ same =>
      rw [settled, settledMembers_eq_self same]
      exact congrArg Json.object (overlay_of_nodup distinct)

end Json

end Agenda

import Agenda.Ranked
import Mathlib

/-!
Ascending lists without repetition: the list of a set is sorted, has the same members, and is the
same for any two lists with the same members.
-/

namespace Agenda

namespace Ranked

variable {α : Type} [Ranked α]

theorem before_irrefl (element : α) : before element element = false := by
  simp [before]

theorem before_trans {first second third : α} (firstBefore : before first second = true)
    (secondBefore : before second third = true) : before first third = true := by
  simp only [before, Bool.or_eq_true, Bool.and_eq_true, decide_eq_true_eq] at *
  omega

theorem eq_of_not_before {left right : α} (notBefore : before left right = false)
    (notAfter : before right left = false) : left = right := by
  simp only [before, Bool.or_eq_false_iff, Bool.and_eq_false_iff, decide_eq_false_iff_not] at *
  apply rank_injective
  apply Prod.ext <;> omega

def Ascending (elements : List α) : Prop :=
  elements.Pairwise fun first second => before first second = true

@[simp] theorem mem_insert {element other : α} {elements : List α} :
    other ∈ Ranked.insert element elements ↔ other = element ∨ other ∈ elements := by
  induction elements with
  | nil => simp [Ranked.insert]
  | cons first rest ih =>
      simp only [Ranked.insert]
      split
      · simp
      split
      · simp only [List.mem_cons, ih]
        tauto
      · rename_i notBefore notAfter
        have same := eq_of_not_before (by simpa using notBefore) (by simpa using notAfter)
        subst same
        simp

theorem ascending_insert {element : α} {elements : List α} (ascending : Ascending elements) :
    Ascending (Ranked.insert element elements) := by
  induction elements with
  | nil => simp [Ranked.insert, Ascending]
  | cons first rest ih =>
      obtain ⟨firstBefore, restAscending⟩ := List.pairwise_cons.mp ascending
      simp only [Ranked.insert]
      split
      · rename_i elementBefore
        refine List.pairwise_cons.mpr ⟨?_, ascending⟩
        intro other member
        rcases List.mem_cons.mp member with rfl | later
        · exact elementBefore
        · exact before_trans elementBefore (firstBefore other later)
      split
      · rename_i firstBeforeElement
        refine List.pairwise_cons.mpr ⟨?_, ih restAscending⟩
        intro other member
        rcases mem_insert.mp member with rfl | later
        · exact firstBeforeElement
        · exact firstBefore other later
      · exact ascending

@[simp] theorem mem_sortedDistinct {element : α} {elements : List α} :
    element ∈ sortedDistinct elements ↔ element ∈ elements := by
  induction elements with
  | nil => rfl
  | cons first rest ih =>
      change element ∈ Ranked.insert first (sortedDistinct rest) ↔ _
      rw [mem_insert, ih, List.mem_cons]

theorem ascending_sortedDistinct (elements : List α) : Ascending (sortedDistinct elements) := by
  induction elements with
  | nil => exact List.Pairwise.nil
  | cons first rest ih => exact ascending_insert ih

theorem nodup_of_ascending {elements : List α} (ascending : Ascending elements) : elements.Nodup :=
  ascending.imp fun {first second} isBefore equal => by
    rw [equal, before_irrefl] at isBefore
    cases isBefore

theorem ascending_ext {left right : List α} (leftAscending : Ascending left)
    (rightAscending : Ascending right) (same : ∀ element, element ∈ left ↔ element ∈ right) :
    left = right := by
  have perm : left.Perm right :=
    (List.perm_ext_iff_of_nodup (nodup_of_ascending leftAscending)
      (nodup_of_ascending rightAscending)).mpr same
  refine List.Perm.eq_of_pairwise ?_ leftAscending rightAscending perm
  intro first second _ _ isBefore isAfter
  have circular := before_trans isBefore isAfter
  rw [before_irrefl] at circular
  cases circular

section Halves

variable {below above : List α} {middle wanted : α} (ascending : Ascending (below ++ middle :: above))
include ascending

theorem mem_below_iff (isBefore : before wanted middle = true) :
    wanted ∈ below ++ middle :: above ↔ wanted ∈ below := by
  refine ⟨fun member => (List.mem_append.mp member).resolve_right fun later => ?_,
    List.mem_append_left _⟩
  have circular : before wanted wanted = true := by
    rcases List.mem_cons.mp later with same | further
    · rwa [← same] at isBefore
    · exact before_trans isBefore
        ((List.pairwise_cons.mp (List.pairwise_append.mp ascending).2.1).1 wanted further)
  rw [before_irrefl] at circular
  cases circular

theorem mem_above_iff (isAfter : before middle wanted = true) :
    wanted ∈ below ++ middle :: above ↔ wanted ∈ above := by
  refine ⟨fun member => by_contra fun notAbove => ?_,
    fun member => List.mem_append_right _ (List.mem_cons_of_mem _ member)⟩
  have circular : before wanted wanted = true := by
    rcases List.mem_append.mp member with sooner | later
    · exact before_trans
        ((List.pairwise_append.mp ascending).2.2 wanted sooner middle List.mem_cons_self) isAfter
    · rwa [← (List.mem_cons.mp later).resolve_right notAbove] at isAfter
  rw [before_irrefl] at circular
  cases circular

end Halves

/-- In an ascending list the search by halves finds the members. -/
theorem bisect_iff {wanted : α} {elements : List α} (ascending : Ascending elements) :
    bisect wanted elements = true ↔ wanted ∈ elements := by
  have halves {elements : List α} {half : Nat} (inside : half < elements.length) :
      elements = elements.take half ++ elements.get ⟨half, inside⟩ :: elements.drop (half + 1) := by
    rw [List.get_eq_getElem, ← List.drop_eq_getElem_cons inside, List.take_append_drop]
  fun_induction bisect wanted elements with
  | case1 elements half inside middle isBefore ih =>
      have parts := ascending
      rw [halves inside] at parts
      refine (ih (ascending.sublist (List.take_sublist _ _))).trans ?_
      rw [← mem_below_iff parts isBefore, ← halves inside]
  | case2 elements half inside middle notBefore isAfter ih =>
      have parts := ascending
      rw [halves inside] at parts
      refine (ih (ascending.sublist (List.drop_sublist _ _))).trans ?_
      rw [← mem_above_iff parts isAfter, ← halves inside]
  | case3 elements half inside middle notBefore notAfter =>
      have same : wanted = middle := eq_of_not_before (by simpa using notBefore) (by simpa using notAfter)
      simp [same, middle]
  | case4 elements half outside =>
      have none : elements = [] := List.eq_nil_of_length_eq_zero (by omega)
      simp [none]

theorem sortedDistinct_eq_iff {left right : List α} :
    sortedDistinct left = sortedDistinct right ↔ ∀ element, element ∈ left ↔ element ∈ right := by
  constructor
  · intro same element
    rw [← mem_sortedDistinct, same, mem_sortedDistinct]
  · intro same
    apply ascending_ext (ascending_sortedDistinct left) (ascending_sortedDistinct right)
    intro element
    rw [mem_sortedDistinct, mem_sortedDistinct, same]

theorem sortedDistinct_perm {left right : List α} (perm : left.Perm right) :
    sortedDistinct left = sortedDistinct right :=
  sortedDistinct_eq_iff.mpr fun _ => perm.mem_iff

section Index

variable {ρ : Type} {key : ρ → α}

theorem mem_indexBy {rows : List ρ} {row : ρ} :
    row ∈ indexBy key rows ↔
      rows.reverse.find? (fun other => rank (key other) == rank (key row)) = some row := by
  simp only [indexBy, List.mem_filterMap, mem_sortedDistinct, List.mem_map]
  constructor
  · rintro ⟨wanted, -, found⟩
    have same : key row = wanted := rank_injective _ _ (by simpa using List.find?_some found)
    rwa [same]
  · intro found
    exact ⟨key row, ⟨row, by simpa using List.mem_of_find?_eq_some found, rfl⟩, found⟩

theorem mem_of_mem_indexBy {rows : List ρ} {row : ρ} (indexed : row ∈ indexBy key rows) :
    row ∈ rows := by
  simpa using List.mem_of_find?_eq_some (mem_indexBy.mp indexed)

theorem exists_mem_indexBy {rows : List ρ} {row : ρ} (member : row ∈ rows) :
    ∃ other ∈ indexBy key rows, key other = key row := by
  have present : (rows.reverse.find? fun other => rank (key other) == rank (key row)).isSome := by
    rw [List.find?_isSome]
    exact ⟨row, by simpa using member, by simp⟩
  obtain ⟨other, found⟩ := Option.isSome_iff_exists.mp present
  have same : key other = key row := rank_injective _ _ (by simpa using List.find?_some found)
  exact ⟨other, mem_indexBy.mpr (by rwa [same]), same⟩

theorem indexBy_filter (keep : α → Bool) (rows : List ρ) :
    indexBy key (rows.filter fun row => keep (key row)) =
      (indexBy key rows).filter fun row => keep (key row) := by
  have keys : sortedDistinct ((rows.filter fun row => keep (key row)).map key) =
      (sortedDistinct (rows.map key)).filter keep := by
    apply ascending_ext (ascending_sortedDistinct _) ((ascending_sortedDistinct _).filter _)
    intro element
    simp only [mem_sortedDistinct, List.mem_map, List.mem_filter]
    constructor
    · rintro ⟨row, ⟨member, kept⟩, rfl⟩
      exact ⟨⟨row, member, rfl⟩, kept⟩
    · rintro ⟨⟨row, member, rfl⟩, kept⟩
      exact ⟨row, ⟨member, kept⟩, rfl⟩
  rw [indexBy, indexBy, keys, List.filterMap_filter, List.filter_filterMap]
  refine List.filterMap_congr fun wanted _ => ?_
  have ofKey {row : ρ}
      (found : rows.reverse.find? (fun row => rank (key row) == rank wanted) = some row) :
      key row = wanted :=
    rank_injective _ _ (by simpa using List.find?_some found)
  cases kept : keep wanted with
  | true =>
      have same : (rows.filter fun row => keep (key row)).reverse.find?
          (fun row => rank (key row) == rank wanted) =
            rows.reverse.find? fun row => rank (key row) == rank wanted := by
        rw [← List.filter_reverse, List.find?_filter]
        refine List.find?_congr fun row _ => ?_
        by_cases hit : rank (key row) = rank wanted
        · simp [rank_injective _ _ hit, kept]
        · simp [hit]
      rw [if_pos rfl, same]
      cases found : rows.reverse.find? fun row => rank (key row) == rank wanted with
      | none => rfl
      | some row => simp [Option.filter, ofKey found, kept]
  | false =>
      cases found : rows.reverse.find? fun row => rank (key row) == rank wanted with
      | none => rfl
      | some row => simp [Option.filter, ofKey found, kept]

theorem indexBy_filter_of_nodup {rows : List ρ} (distinct : (rows.map key).Nodup) (test : ρ → Bool) :
    indexBy key (rows.filter test) = (indexBy key rows).filter test := by
  let keep (wanted : α) : Bool := rows.any fun row => rank (key row) == rank wanted && test row
  have agrees {row : ρ} (member : row ∈ rows) : keep (key row) = test row := by
    rw [Bool.eq_iff_iff]
    simp only [keep, List.any_eq_true, Bool.and_eq_true, beq_iff_eq]
    constructor
    · rintro ⟨other, listed, same, passes⟩
      rwa [← List.inj_on_of_nodup_map distinct listed member (rank_injective _ _ same)]
    · intro passes
      exact ⟨row, member, rfl, passes⟩
  calc indexBy key (rows.filter test)
      = indexBy key (rows.filter fun row => keep (key row)) := by
        rw [List.filter_congr fun row member => (agrees member).symm]
    _ = (indexBy key rows).filter fun row => keep (key row) := indexBy_filter keep rows
    _ = (indexBy key rows).filter test :=
        List.filter_congr fun row indexed => agrees (mem_of_mem_indexBy indexed)

theorem pairwise_indexBy (rows : List ρ) :
    (indexBy key rows).Pairwise fun first second => before (key first) (key second) = true := by
  have wantedOf {wanted : α} {row : ρ}
      (found : (rows.reverse.find? fun row => rank (key row) == rank wanted) = some row) :
      key row = wanted :=
    rank_injective _ _ (by simpa using List.find?_some found)
  rw [indexBy, List.pairwise_filterMap]
  refine (ascending_sortedDistinct (rows.map key)).imp ?_
  intro first second isBefore row found other further
  rwa [wantedOf found, wantedOf further]

theorem map_indexBy (rows : List ρ) :
    (indexBy key rows).map key = sortedDistinct (rows.map key) := by
  apply ascending_ext (List.pairwise_map.mpr (pairwise_indexBy rows)) (ascending_sortedDistinct _)
  intro wanted
  rw [mem_sortedDistinct, List.mem_map, List.mem_map]
  constructor
  · rintro ⟨row, indexed, same⟩
    exact ⟨row, mem_of_mem_indexBy indexed, same⟩
  · rintro ⟨row, member, rfl⟩
    exact exists_mem_indexBy member

theorem nodup_map_indexBy (rows : List ρ) : ((indexBy key rows).map key).Nodup := by
  rw [map_indexBy]
  exact nodup_of_ascending (ascending_sortedDistinct _)

theorem mem_indexBy_of_nodup {rows : List ρ} (distinct : (rows.map key).Nodup) {row : ρ} :
    row ∈ indexBy key rows ↔ row ∈ rows := by
  constructor
  · exact mem_of_mem_indexBy
  · intro member
    obtain ⟨other, indexed, same⟩ : ∃ other ∈ indexBy key rows, key other = key row :=
      exists_mem_indexBy member
    rwa [← List.inj_on_of_nodup_map distinct (mem_of_mem_indexBy indexed) member same]

theorem indexBy_perm_rows {rows : List ρ} (distinct : (rows.map key).Nodup) :
    (indexBy key rows).Perm rows :=
  (List.perm_ext_iff_of_nodup (nodup_map_indexBy rows).of_map distinct.of_map).mpr fun _ =>
    mem_indexBy_of_nodup distinct

theorem indexBy_perm {rows others : List ρ} (perm : rows.Perm others)
    (distinct : (rows.map key).Nodup) : indexBy key rows = indexBy key others := by
  have further : (others.map key).Nodup := (perm.map key).nodup_iff.mp distinct
  have indexed : (indexBy key rows).Perm (indexBy key others) :=
    (indexBy_perm_rows distinct).trans (perm.trans (indexBy_perm_rows further).symm)
  refine indexed.eq_of_pairwise ?_ (pairwise_indexBy rows) (pairwise_indexBy others)
  intro first second _ _ isBefore isAfter
  have circular := before_trans isBefore isAfter
  rw [before_irrefl] at circular
  cases circular

end Index

end Ranked

theorem find?_key_eq_some {κ ρ : Type} [DecidableEq κ] {key : ρ → κ} {rows : List ρ}
    (distinct : (rows.map key).Nodup) {wanted : κ} {row : ρ} :
    rows.find? (fun row => key row = wanted) = some row ↔ row ∈ rows ∧ key row = wanted := by
  constructor
  · intro found
    exact ⟨List.mem_of_find?_eq_some found, by simpa using List.find?_some found⟩
  · rintro ⟨member, named⟩
    cases found : rows.find? fun row => key row = wanted with
    | none => simpa [named] using List.find?_eq_none.mp found row member
    | some other =>
        have same : key other = key row := .trans (by simpa using List.find?_some found) named.symm
        rw [List.inj_on_of_nodup_map distinct (List.mem_of_find?_eq_some found) member same]

end Agenda

import Agenda.Json.Format
import Agenda.Proofs.Json.Text

/-!
Canonical values: sorting the members at every depth gives two values one text exactly when they
are alike, that is, when they differ only in the order of members. Numbers count by their text.
-/

namespace Agenda

namespace Json

/-- Two values that differ at most in the order of members, at any depth. -/
inductive Alike : Json → Json → Prop
  | null : Alike .null .null
  | boolean (value : Bool) : Alike (.boolean value) (.boolean value)
  | number {left right : JsonNumber} :
      left.chars = right.chars → Alike (.number left) (.number right)
  | string (text : String) : Alike (.string text) (.string text)
  | array {left right : List Json} :
      List.Forall₂ Alike left right → Alike (.array left) (.array right)
  | object {left ordered right : List (String × Json)} :
      left.map Prod.fst = ordered.map Prod.fst →
      List.Forall₂ Alike (left.map Prod.snd) (ordered.map Prod.snd) →
      ordered.Perm right → Alike (.object left) (.object right)

@[refl] theorem Alike.refl (value : Json) : Alike value value := by
  induction value using Json.induction with
  | null => exact .null
  | boolean value => exact .boolean value
  | number value => exact .number rfl
  | string text => exact .string text
  | array items ih => exact .array (List.forall₂_same.mpr ih)
  | object members ih =>
      refine .object rfl (List.forall₂_same.mpr fun value found => ?_) (.refl members)
      obtain ⟨member, inMembers, rfl⟩ := List.mem_map.mp found
      exact ih member inMembers

/-- No object in the value has two members of one name. -/
inductive Proper : Json → Prop
  | null : Proper .null
  | boolean (value : Bool) : Proper (.boolean value)
  | number (value : JsonNumber) : Proper (.number value)
  | string (text : String) : Proper (.string text)
  | array {items : List Json} : (∀ item ∈ items, Proper item) → Proper (.array items)
  | object {members : List (String × Json)} : (members.map Prod.fst).Nodup →
      (∀ member ∈ members, Proper member.2) → Proper (.object members)

theorem canonicalItems_eq_map (items : List Json) : canonicalItems items = items.map canonical := by
  induction items with
  | nil => rfl
  | cons item rest ih => rw [canonicalItems, ih, List.map_cons]

def canonicalMember (member : String × Json) : String × Json :=
  (member.1, member.2.canonical)

theorem canonicalMembers_eq_map (members : List (String × Json)) :
    canonicalMembers members = members.map canonicalMember := by
  induction members with
  | nil => rfl
  | cons member rest ih =>
      obtain ⟨name, value⟩ := member
      rw [canonicalMembers, ih, List.map_cons]
      rfl

theorem sortMembers_canonicalMembers (members : List (String × Json)) :
    sortMembers (canonicalMembers members) = (sortMembers members).map canonicalMember := by
  rw [canonicalMembers_eq_map, sortMembers, sortMembers]
  exact (List.map_mergeSort (f := canonicalMember) fun _ _ _ _ => rfl).symm

theorem sortMembers_perm (members : List (String × Json)) : (sortMembers members).Perm members :=
  List.mergeSort_perm _ _

theorem sortMembers_sorted (members : List (String × Json)) :
    (sortMembers members).Pairwise fun first second => first.1 ≤ second.1 := by
  have transitive (a b c : String × Json) (first : decide (a.1 ≤ b.1) = true)
      (second : decide (b.1 ≤ c.1) = true) : decide (a.1 ≤ c.1) = true := by
    rw [decide_eq_true_eq] at *
    exact String.le_trans first second
  have total (a b : String × Json) : (decide (a.1 ≤ b.1) || decide (b.1 ≤ a.1)) = true := by
    simpa only [Bool.or_eq_true, decide_eq_true_eq] using String.le_total a.1 b.1
  exact (List.pairwise_mergeSort transitive total members).imp fun before => by
    simpa only [decide_eq_true_eq] using before

theorem sortMembers_eq_of_perm {sorted members : List (String × Json)}
    (perm : sorted.Perm members) (distinct : (members.map Prod.fst).Nodup)
    (ordered : sorted.Pairwise fun first second => first.1 ≤ second.1) :
    sortMembers members = sorted := by
  refine List.Perm.eq_of_pairwise ?_ (sortMembers_sorted members) ordered
    ((sortMembers_perm members).trans perm.symm)
  intro first second firstMember secondMember before after
  have inLeft : first ∈ members := (sortMembers_perm members).mem_iff.mp firstMember
  have inRight : second ∈ members := perm.mem_iff.mp secondMember
  exact List.inj_on_of_nodup_map distinct inLeft inRight (String.le_antisymm before after)

theorem shape_canonical (value : Json) : value.canonical.shape = value.shape := by
  cases value <;> rfl

theorem shape_eq_of_canonical_chars {left right : Json}
    (same : left.canonical.chars = right.canonical.chars) : left.shape = right.shape := by
  rw [← shape_canonical left, ← shape_canonical right]
  exact shape_eq_of_chars_append (congrArg (· ++ []) same)

theorem forall₂_imp_of_mem {α β : Type} {first second : α → β → Prop} {left : List α}
    {right : List β} (imply : ∀ a ∈ left, ∀ b, first a b → second a b)
    (related : List.Forall₂ first left right) : List.Forall₂ second left right := by
  induction related with
  | nil => exact .nil
  | cons head _ ih =>
      exact .cons (imply _ List.mem_cons_self _ head)
        (ih fun a member => imply a (List.mem_cons_of_mem _ member))

theorem canonical_chars_array {items others : List Json} :
    (canonical (.array items)).chars = (canonical (.array others)).chars ↔
      List.Forall₂ (fun a b => a.canonical.chars = b.canonical.chars) items others := by
  simp only [canonical, chars, canonicalItems_eq_map]
  constructor
  · intro same
    have agree := (itemChars_append_inj (fun item _ => readsOneWay item) (List.cons.inj same).2).1
    rwa [List.forall₂_map_left_iff, List.forall₂_map_right_iff] at agree
  · intro agree
    have texts : List.Forall₂ (fun a b => chars a = chars b) (items.map canonical)
        (others.map canonical) := by
      rwa [List.forall₂_map_left_iff, List.forall₂_map_right_iff]
    rw [itemChars_congr texts]

theorem canonical_chars_object {members others : List (String × Json)} :
    (canonical (.object members)).chars = (canonical (.object others)).chars ↔
      List.Forall₂ (fun a b => a.1 = b.1 ∧ a.2.canonical.chars = b.2.canonical.chars)
        (sortMembers members) (sortMembers others) := by
  simp only [canonical, chars, sortMembers_canonicalMembers]
  constructor
  · intro same
    have agree :=
      (memberChars_append_inj (fun member _ => readsOneWay member.2) (List.cons.inj same).2).1
    rwa [List.forall₂_map_left_iff, List.forall₂_map_right_iff] at agree
  · intro agree
    have texts : List.Forall₂ SameMember ((sortMembers members).map canonicalMember)
        ((sortMembers others).map canonicalMember) := by
      rwa [List.forall₂_map_left_iff, List.forall₂_map_right_iff]
    rw [memberChars_congr texts]

theorem forall₂_members_iff {related : Json → Json → Prop} {left right : List (String × Json)} :
    List.Forall₂ (fun a b => a.1 = b.1 ∧ related a.2 b.2) left right ↔
      left.map Prod.fst = right.map Prod.fst ∧
        List.Forall₂ related (left.map Prod.snd) (right.map Prod.snd) := by
  induction left generalizing right with
  | nil => cases right <;> simp
  | cons first rest ih =>
      cases right with
      | nil => simp
      | cons other others =>
          simp only [List.forall₂_cons, ih, List.map_cons, List.cons.injEq]
          tauto

theorem alike_of_canonical_chars {left : Json} : ∀ {right : Json},
    left.canonical.chars = right.canonical.chars → Alike left right := by
  induction left using Json.induction with
  | null =>
      intro right same
      have shapes := shape_eq_of_canonical_chars same
      cases right with
      | null => exact .null
      | boolean other => cases other <;> cases shapes
      | _ => cases shapes
  | boolean value =>
      intro right same
      have shapes := shape_eq_of_canonical_chars same
      cases right with
      | boolean other =>
          have values : value = other := by
            cases value <;> cases other <;> first | rfl | cases shapes
          subst other
          exact .boolean value
      | _ => cases value <;> cases shapes
  | number value =>
      intro right same
      have shapes := shape_eq_of_canonical_chars same
      cases right with
      | number other => exact .number same
      | boolean other => cases other <;> cases shapes
      | _ => cases shapes
  | string text =>
      intro right same
      have shapes := shape_eq_of_canonical_chars same
      cases right with
      | string other =>
          have texts := (quoted_append_inj (congrArg (· ++ []) same)).1
          subst other
          exact .string text
      | boolean other => cases other <;> cases shapes
      | _ => cases shapes
  | array items ih =>
      intro right same
      have shapes := shape_eq_of_canonical_chars same
      cases right with
      | array others =>
          exact .array (forall₂_imp_of_mem (fun item member other => ih item member)
            (canonical_chars_array.mp same))
      | boolean other => cases other <;> cases shapes
      | _ => cases shapes
  | object members ih =>
      intro right same
      have shapes := shape_eq_of_canonical_chars same
      cases right with
      | object others =>
          have agree : List.Forall₂ (fun a b => a.1 = b.1 ∧ Alike a.2 b.2) (sortMembers members)
              (sortMembers others) :=
            forall₂_imp_of_mem
              (fun member found other both =>
                ⟨both.1, ih member ((sortMembers_perm members).mem_iff.mp found) both.2⟩)
              (canonical_chars_object.mp same)
          obtain ⟨ordered, related, perm⟩ :=
            List.perm_comp_forall₂ (sortMembers_perm members).symm agree
          obtain ⟨names, values⟩ := forall₂_members_iff.mp related
          exact .object names values (perm.trans (sortMembers_perm others))
      | boolean other => cases other <;> cases shapes
      | _ => cases shapes

theorem canonical_chars_of_alike {left : Json} : ∀ {right : Json}, left.Proper → right.Proper →
    Alike left right → left.canonical.chars = right.canonical.chars := by
  induction left using Json.induction with
  | null =>
      intro right _ _ alike
      cases alike
      rfl
  | boolean value =>
      intro right _ _ alike
      cases alike
      rfl
  | number value =>
      intro right _ _ alike
      cases alike with
      | number same => exact same
  | string text =>
      intro right _ _ alike
      cases alike
      rfl
  | array items ih =>
      intro right leftProper rightProper alike
      obtain _ | _ | _ | _ | leftItems := leftProper
      cases alike with
      | @array _ others related =>
          obtain _ | _ | _ | _ | rightItems := rightProper
          rw [canonical_chars_array]
          have both := List.forall₂_iff_zip.mp related
          refine List.forall₂_iff_zip.mpr ⟨both.1, fun {item other} found => ?_⟩
          have members := List.of_mem_zip found
          exact ih item members.1 (leftItems item members.1) (rightItems other members.2)
            (both.2 found)
  | object members ih =>
      intro right leftProper rightProper alike
      obtain _ | _ | _ | _ | _ | ⟨leftNames, leftValues⟩ := leftProper
      cases alike with
      | @object _ ordered others names values perm =>
          obtain _ | _ | _ | _ | _ | ⟨rightNames, rightValues⟩ := rightProper
          obtain ⟨sorted, related, sortedPerm⟩ := List.perm_comp_forall₂
            (sortMembers_perm members) (forall₂_members_iff.mpr ⟨names, values⟩)
          have sortedNames := (forall₂_members_iff.mp related).1
          have isSorted : sorted.Pairwise fun first second => first.1 ≤ second.1 := by
            rw [← List.pairwise_map (f := Prod.fst) (R := (· ≤ ·)), ← sortedNames, List.pairwise_map]
            exact sortMembers_sorted members
          rw [canonical_chars_object,
            sortMembers_eq_of_perm (sortedPerm.trans perm) rightNames isSorted]
          have both := List.forall₂_iff_zip.mp related
          refine List.forall₂_iff_zip.mpr ⟨both.1, fun {member other} found => ?_⟩
          have inZip := List.of_mem_zip found
          have inLeft := (sortMembers_perm members).mem_iff.mp inZip.1
          have inRight := (sortedPerm.trans perm).mem_iff.mp inZip.2
          exact ⟨(both.2 found).1, ih member inLeft (leftValues member inLeft)
            (rightValues other inRight) (both.2 found).2⟩

theorem canonical_text_eq_iff {left right : Json} (leftProper : left.Proper)
    (rightProper : right.Proper) : left.canonical.text = right.canonical.text ↔ Alike left right := by
  rw [text, text, String.ofList_inj]
  exact ⟨alike_of_canonical_chars, canonical_chars_of_alike leftProper rightProper⟩

end Json

end Agenda

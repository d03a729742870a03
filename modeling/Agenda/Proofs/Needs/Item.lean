import Agenda.Needs.Item
import Agenda.Proofs.Time.Instant

/-!
The order of lists: by time and id, items of the same time and id as they came. Leaving items out
before sorting or after it makes no difference, and neither does cutting two sorted lists before they
are merged or after it.
-/

namespace Agenda

theorem cut_unique {α : Type} {test : α → Bool} {before after first second : List α}
    (same : before ++ after = first ++ second) (beforeFails : ∀ element ∈ before, test element = false)
    (afterPasses : ∀ element ∈ after, test element = true)
    (firstFails : ∀ element ∈ first, test element = false)
    (secondPasses : ∀ element ∈ second, test element = true) : before = first ∧ after = second := by
  have cut (left right : List α) (leftFails : ∀ element ∈ left, test element = false)
      (rightPasses : ∀ element ∈ right, test element = true) :
      (left ++ right).filter test = right := by
    rw [List.filter_append, List.filter_eq_nil_iff.mpr (by simpa using leftFails),
      List.filter_eq_self.mpr rightPasses, List.nil_append]
  have lasts : after = second := by
    rw [← cut before after beforeFails afterPasses, same, cut first second firstFails secondPasses]
  rw [lasts] at same
  exact ⟨List.append_cancel_right same, lasts⟩

namespace Listed

variable {ι : Type} [Listed ι]

/-- An item of an earlier time comes first, and of one time the item with the lesser id. -/
theorem noLater_iff {first second : ι} : noLater first second = true ↔
    time first < time second ∨
      time first = time second ∧ (Listed.id first).value ≤ (Listed.id second).value := by
  have sameTime : (time first).order = (time second).order ↔ time first = time second :=
    ⟨Instant.order_injective, congrArg _⟩
  simp only [noLater, Bool.or_eq_true, Bool.and_eq_true, decide_eq_true_eq, sameTime]
  exact Iff.rfl

theorem noLater_trans (first second third : ι) (firstBefore : noLater first second = true)
    (secondBefore : noLater second third = true) : noLater first third = true := by
  simp only [noLater, Bool.or_eq_true, Bool.and_eq_true, decide_eq_true_eq] at *
  omega

theorem noLater_total (first second : ι) : (noLater first second || noLater second first) = true := by
  simp only [noLater, Bool.or_eq_true, Bool.and_eq_true, decide_eq_true_eq]
  omega

theorem sort_sorted (items : List ι) : (sort items).Pairwise fun first second => noLater first second :=
  List.pairwise_mergeSort noLater_trans noLater_total items

theorem sort_cons (item : ι) (rest : List ι) :
    ∃ before after, sort (item :: rest) = before ++ item :: after ∧ sort rest = before ++ after ∧
      (∀ other ∈ before, noLater item other = false) ∧ ∀ other ∈ after, noLater item other = true := by
  obtain ⟨before, after, whole, tail, earlier⟩ :=
    List.mergeSort_cons noLater_trans noLater_total item rest
  refine ⟨before, after, whole, tail, fun other member => by simpa using earlier other member, ?_⟩
  have sorted := sort_sorted (item :: rest)
  rw [sort, whole, List.pairwise_append, List.pairwise_cons] at sorted
  exact sorted.2.1.1

theorem filter_sort (keep : ι → Bool) (items : List ι) :
    (sort items).filter keep = sort (items.filter keep) := by
  induction items with
  | nil => simp [sort]
  | cons item rest ih =>
      obtain ⟨before, after, whole, tail, earlier, later⟩ := sort_cons item rest
      by_cases kept : keep item = true
      · obtain ⟨keptBefore, keptAfter, keptWhole, keptTail, keptEarlier, keptLater⟩ :=
          sort_cons item (rest.filter keep)
        have parts : before.filter keep ++ after.filter keep = keptBefore ++ keptAfter := by
          rw [← List.filter_append, ← tail, ih, keptTail]
        obtain ⟨firsts, seconds⟩ := cut_unique parts
          (fun other member => earlier other (List.mem_filter.mp member).1)
          (fun other member => later other (List.mem_filter.mp member).1) keptEarlier keptLater
        rw [whole, List.filter_append, List.filter_cons_of_pos kept, List.filter_cons_of_pos kept,
          keptWhole, firsts, seconds]
      · rw [whole, List.filter_append, List.filter_cons_of_neg kept, List.filter_cons_of_neg kept,
          ← ih, tail, List.filter_append]

theorem sort_eq_self {items : List ι}
    (sorted : items.Pairwise fun first second => noLater first second) : sort items = items :=
  List.mergeSort_of_pairwise sorted

theorem id_eq_of_noLater {first second : ι} (before : noLater first second = true)
    (after : noLater second first = true) : Listed.id first = Listed.id second := by
  simp only [noLater, Bool.or_eq_true, Bool.and_eq_true, decide_eq_true_eq] at before after
  apply Ranked.rank_injective
  apply Prod.ext
  · change (Listed.id first).value = (Listed.id second).value
    omega
  · rfl

def ToldApart (items : List ι) : Prop :=
  ∀ first ∈ items, ∀ second ∈ items, Listed.id first = Listed.id second → first = second

theorem sort_perm {items others : List ι} (perm : items.Perm others) (apart : ToldApart items) :
    sort items = sort others := by
  have sorted : (sort items).Perm (sort others) :=
    (List.mergeSort_perm items noLater).trans (perm.trans (List.mergeSort_perm others noLater).symm)
  refine sorted.eq_of_pairwise ?_ (sort_sorted items) (sort_sorted others)
  intro first second firstListed secondListed before after
  exact apart first ((List.mergeSort_perm items noLater).mem_iff.mp firstListed) second
    (perm.mem_iff.mpr ((List.mergeSort_perm others noLater).mem_iff.mp secondListed))
    (id_eq_of_noLater before after)

theorem sort_strict {items : List ι} (apart : ToldApart items) (once : items.Nodup) :
    (sort items).Pairwise fun earlier later => noLater later earlier = false := by
  have perm := List.mergeSort_perm items noLater
  have differ : (sort items).Pairwise fun first second => first ≠ second := perm.nodup_iff.mpr once
  refine ((sort_sorted items).and differ).imp_of_mem fun {first second} firstListed secondListed
    both => ?_
  by_contra after
  exact both.2 (apart first (perm.mem_iff.mp firstListed) second (perm.mem_iff.mp secondListed)
    (id_eq_of_noLater both.1 (by simpa using after)))

theorem sort_strict_of_ids {items : List ι} (ids : (items.map Listed.id).Nodup) :
    (sort items).Pairwise fun earlier later => noLater later earlier = false :=
  sort_strict (fun _ firstListed _ secondListed same =>
    List.inj_on_of_nodup_map ids firstListed secondListed same) ids.of_map

theorem sort_cons_first {item : ι} {rest : List ι}
    (first : ∀ other ∈ rest, noLater item other = true) : sort (item :: rest) = item :: sort rest := by
  obtain ⟨earlier, later, whole, tail, fails, -⟩ := sort_cons item rest
  cases earlier with
  | nil =>
      rw [whole, tail]
      rfl
  | cons other others =>
      have among : other ∈ rest := (List.mergeSort_perm rest noLater).mem_iff.mp
        (by rw [show rest.mergeSort noLater = _ from tail]; simp)
      have notFirst := fails other List.mem_cons_self
      rw [first other among] at notFirst
      cases notFirst

theorem sort_append_cons {before after : List ι} {item : ι}
    (passed : ∀ other ∈ before, noLater other item = false)
    (first : ∀ other ∈ after, noLater item other = true) :
    sort (before ++ item :: after) = item :: sort (before ++ after) := by
  induction before with
  | nil => exact sort_cons_first first
  | cons start rest ih =>
      have inner := ih fun other member => passed other (List.mem_cons_of_mem _ member)
      obtain ⟨earlier, later, whole, tail, fails, passes⟩ := sort_cons start (rest ++ item :: after)
      obtain ⟨others, remaining, without, parts, othersFail, othersPass⟩ :=
        sort_cons start (rest ++ after)
      rw [List.cons_append, List.cons_append, whole, without]
      rw [inner] at tail
      cases earlier with
      | nil =>
          have notFirst := passed start List.mem_cons_self
          rw [passes item (by rw [← List.nil_append later, ← tail]; simp)] at notFirst
          cases notFirst
      | cons other earlier =>
          obtain ⟨rfl, same⟩ := List.cons.inj tail
          obtain ⟨firsts, lasts⟩ := cut_unique (parts.symm.trans same) othersFail othersPass
            (fun element member => fails element (List.mem_cons_of_mem _ member)) passes
          rw [firsts, lasts, List.cons_append]

/-- Merging the beginnings of two sorted lists finds the beginning of all their items. -/
theorem take_sort_take {count leftCount rightCount : Nat} {left right : List ι}
    (leftLong : count ≤ leftCount) (rightLong : count ≤ rightCount)
    (leftSorted : left.Pairwise fun first second => noLater first second)
    (rightSorted : right.Pairwise fun first second => noLater first second) :
    (sort (left.take leftCount ++ right.take rightCount)).take count =
      (sort (left ++ right)).take count := by
  induction count generalizing leftCount rightCount left right with
  | zero => rfl
  | succ count ih =>
      cases left with
      | nil =>
          simp only [List.take_nil, List.nil_append]
          rw [sort_eq_self (rightSorted.sublist (List.take_sublist _ _)), sort_eq_self rightSorted,
            List.take_take, min_eq_left rightLong]
      | cons first others =>
          obtain ⟨firstBefore, othersSorted⟩ := List.pairwise_cons.mp leftSorted
          cases right with
          | nil =>
              simp only [List.take_nil, List.append_nil]
              rw [sort_eq_self (leftSorted.sublist (List.take_sublist _ _)), sort_eq_self leftSorted,
                List.take_take, min_eq_left leftLong]
          | cons second rest =>
              obtain ⟨secondBefore, restSorted⟩ := List.pairwise_cons.mp rightSorted
              obtain ⟨leftCount, rfl⟩ : ∃ fewer, leftCount = fewer + 1 := ⟨leftCount - 1, by omega⟩
              obtain ⟨rightCount, rfl⟩ : ∃ fewer, rightCount = fewer + 1 :=
                ⟨rightCount - 1, by omega⟩
              rw [List.take_succ_cons, List.take_succ_cons]
              cases order : noLater first second with
              | true =>
                  have leads (other : ι) (member : other ∈ others ++ second :: rest) :
                      noLater first other = true := by
                    rcases List.mem_append.mp member with own | theirs
                    · exact firstBefore other own
                    · rcases List.mem_cons.mp theirs with rfl | later
                      · exact order
                      · exact noLater_trans _ _ _ order (secondBefore other later)
                  have cut : others.take leftCount ++ second :: rest.take rightCount ⊆
                      others ++ second :: rest :=
                    ((List.take_sublist _ _).append ((List.take_sublist _ _).cons_cons second)).subset
                  rw [List.cons_append, List.cons_append, sort_cons_first leads,
                    sort_cons_first fun other member => leads other (cut member),
                    List.take_succ_cons, List.take_succ_cons, ← List.take_succ_cons]
                  exact congrArg _ (ih (Nat.le_of_succ_le_succ leftLong) (Nat.le_of_succ_le rightLong)
                    othersSorted rightSorted)
              | false =>
                  have behind (other : ι) (member : other ∈ first :: others) :
                      noLater other second = false := by
                    rcases List.mem_cons.mp member with rfl | own
                    · exact order
                    · by_contra before
                      have sooner := noLater_trans _ _ _ (firstBefore other own)
                        (Bool.not_eq_false _ ▸ before)
                      rw [order] at sooner
                      cases sooner
                  have cut : first :: others.take leftCount ⊆ first :: others :=
                    ((List.take_sublist _ _).cons_cons first).subset
                  rw [sort_append_cons behind secondBefore,
                    sort_append_cons (fun other member => behind other (cut member))
                      fun other member => secondBefore other (List.mem_of_mem_take member),
                    List.take_succ_cons, List.take_succ_cons, ← List.take_succ_cons]
                  exact congrArg _ (ih (Nat.le_of_succ_le leftLong) (Nat.le_of_succ_le_succ rightLong)
                    leftSorted restSorted)

end Listed

end Agenda

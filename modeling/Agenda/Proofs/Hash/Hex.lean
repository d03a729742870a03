import Agenda.Hash.Sha256
import Agenda.Proofs.Text.Digits

/-!
The hexadecimal text of a digest: sixty-four lower-case digits, from which the digest can be read
back. What no proof can say of the hash itself is a condition on texts: that no two of them share a
digest.
-/

namespace Agenda

namespace Sha256

/-- No two different texts of the list have the same digest. -/
def CollisionFree (texts : List String) : Prop :=
  ∀ left ∈ texts, ∀ right ∈ texts, ofText left = ofText right → left = right

instance (texts : List String) : Decidable (CollisionFree texts) :=
  inferInstanceAs (Decidable (∀ left ∈ texts, ∀ right ∈ texts, ofText left = ofText right → left = right))

theorem CollisionFree.subset {fewer texts : List String} (free : CollisionFree texts)
    (within : fewer ⊆ texts) : CollisionFree fewer :=
  fun left leftMember right rightMember =>
    free left (within leftMember) right (within rightMember)

theorem CollisionFree.without_last {first second third : List String}
    (free : CollisionFree (first ++ (second ++ third))) : CollisionFree (first ++ second) :=
  free.subset (List.append_subset.mpr ⟨List.subset_append_left _ _,
    fun _ member => List.mem_append_right _ (List.mem_append_left _ member)⟩)

theorem CollisionFree.without_second {first second third : List String}
    (free : CollisionFree (first ++ (second ++ third))) : CollisionFree (first ++ third) :=
  free.subset (List.append_subset.mpr ⟨List.subset_append_left _ _,
    fun _ member => List.mem_append_right _ (List.mem_append_right _ member)⟩)

theorem CollisionFree.of_nodup {texts : List String} (distinct : (texts.map ofText).Nodup) :
    CollisionFree texts :=
  fun _ leftMember _ rightMember same =>
    List.inj_on_of_nodup_map distinct leftMember rightMember same

def hexDigits : List Char :=
  ['0', '1', '2', '3', '4', '5', '6', '7', '8', '9', 'a', 'b', 'c', 'd', 'e', 'f']

theorem hexDigit_mem {value : Nat} (bound : value < 16) : Text.hexDigit value ∈ hexDigits := by
  revert value
  decide

theorem length_wordHex (word : UInt32) : (wordHex word).length = 8 := by
  simp [wordHex]

theorem mem_hexDigits_of_mem_wordHex {word : UInt32} {digit : Char}
    (member : digit ∈ wordHex word) : digit ∈ hexDigits := by
  simp only [wordHex, List.mem_map] at member
  obtain ⟨unit, -, rfl⟩ := member
  exact hexDigit_mem (Nat.mod_lt _ (by omega))

theorem wordHex_injective {left right : UInt32} (same : wordHex left = wordHex right) :
    left = right := by
  have digit (unit : Nat) (place : Text.hexDigit (left.toNat / unit % 16) =
      Text.hexDigit (right.toNat / unit % 16)) :
      left.toNat / unit % 16 = right.toNat / unit % 16 :=
    Text.hexDigit_injective (Nat.mod_lt _ (by omega)) (Nat.mod_lt _ (by omega)) place
  simp only [wordHex, List.map_cons, List.map_nil, List.cons.injEq, and_true] at same
  obtain ⟨first, second, third, fourth, fifth, sixth, seventh, eighth⟩ := same
  have leftBound := left.toNat_lt
  have rightBound := right.toNat_lt
  have top : left.toNat / 268435456 = right.toNat / 268435456 := by
    have same := digit _ first
    omega
  have down (unit : Nat) (above : left.toNat / (unit * 16) = right.toNat / (unit * 16))
      (place : left.toNat / unit % 16 = right.toNat / unit % 16) :
      left.toNat / unit = right.toNat / unit := by
    rw [← Nat.div_div_eq_div_mul, ← Nat.div_div_eq_div_mul] at above
    omega
  have all := down 1 (down 16 (down 256 (down 4096 (down 65536 (down 1048576 (down 16777216 top
    (digit _ second)) (digit _ third)) (digit _ fourth)) (digit _ fifth)) (digit _ sixth))
    (digit _ seventh)) (digit _ eighth)
  rw [Nat.div_one, Nat.div_one] at all
  exact UInt32.toNat_inj.mp all

theorem length_hex_toList (state : Sha256) : state.hex.toList.length = 64 := by
  simp [hex, toList, length_wordHex]

theorem mem_hexDigits_of_mem_hex {state : Sha256} {digit : Char}
    (member : digit ∈ state.hex.toList) : digit ∈ hexDigits := by
  simp only [hex, String.toList_ofList, List.mem_flatMap] at member
  obtain ⟨word, -, inWord⟩ := member
  exact mem_hexDigits_of_mem_wordHex inWord

theorem flatMap_wordHex_injective : ∀ {left right : List UInt32},
    left.flatMap wordHex = right.flatMap wordHex → left = right := by
  intro left
  induction left with
  | nil =>
      intro right same
      cases right with
      | nil => rfl
      | cons word rest => simp [wordHex] at same
  | cons word rest ih =>
      intro right same
      cases right with
      | nil => simp [wordHex] at same
      | cons other others =>
          simp only [List.flatMap_cons] at same
          obtain ⟨words, rests⟩ := List.append_inj same (by rw [length_wordHex, length_wordHex])
          rw [wordHex_injective words, ih rests]

theorem hex_injective {left right : Sha256} (same : left.hex = right.hex) : left = right := by
  have words := flatMap_wordHex_injective (String.ofList_inj.mp same)
  cases left
  cases right
  simpa [toList] using words

end Sha256

end Agenda

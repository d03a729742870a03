import Agenda.Learning.Ignore
import Agenda.Proofs.Ranked

/-!
The table of ignores as a map. Where no two rows are about the same, an ignore sets what its user,
asset and purpose are mapped to, and a change of an asset takes away what is not permanent.
-/

namespace Agenda

namespace Ignore

def identity (row : Ignore) : UserId × Asset × Purpose :=
  (row.user, row.asset, row.purpose)

theorem sameIdentity_iff {left right : Ignore} : left.sameIdentity right = true ↔
    left.user = right.user ∧ left.asset = right.asset ∧ left.purpose = right.purpose := by
  simp [sameIdentity, and_assoc]

theorem sameIdentity_congr {left right : Ignore} (same : left.sameIdentity right = true)
    (probe : Ignore) : left.sameIdentity probe = right.sameIdentity probe := by
  obtain ⟨users, assets, purposes⟩ := sameIdentity_iff.mp same
  simp only [sameIdentity, users, assets, purposes]

theorem any_upsert (row probe : Ignore) (rows : List Ignore) :
    (row.upsert rows).any (·.sameIdentity probe) =
      (rows.any (·.sameIdentity probe) || row.sameIdentity probe) := by
  induction rows with
  | nil => simp [upsert]
  | cons first rest ih =>
      cases same : first.sameIdentity row with
      | true =>
          have kept : ({ first with permanent := row.permanent } : Ignore).sameIdentity probe =
              first.sameIdentity probe := rfl
          have probed := sameIdentity_congr same probe
          simp only [upsert, same, if_true, List.any_cons, kept, probed]
          cases row.sameIdentity probe <;> simp
      | false => simp [upsert, same, ih, Bool.or_assoc]

theorem filter_upsert (user : UserId) (row : Ignore) (rows : List Ignore) :
    (row.upsert rows).filter (fun row => row.user = user) =
      if row.user = user then row.upsert (rows.filter fun row => row.user = user)
      else rows.filter fun row => row.user = user := by
  induction rows with
  | nil => by_cases own : row.user = user <;> simp [upsert, own]
  | cons first rest ih =>
      cases same : first.sameIdentity row with
      | true =>
          have users := (sameIdentity_iff.mp same).1
          by_cases own : row.user = user <;> simp [upsert, same, own, users]
      | false =>
          by_cases own : row.user = user <;> by_cases firstOwn : first.user = user <;>
            simp [upsert, same, own, firstOwn, ih]

theorem sameIdentity_iff_eq {left right : Ignore} :
    left.sameIdentity right = true ↔ left.identity = right.identity := by
  simp [sameIdentity_iff, identity]

theorem map_identity_upsert (row : Ignore) (rows : List Ignore) :
    (row.upsert rows).map identity =
      if row.identity ∈ rows.map identity then rows.map identity
      else rows.map identity ++ [row.identity] := by
  induction rows with
  | nil => rfl
  | cons first rest ih =>
      cases same : first.sameIdentity row with
      | true =>
          have named : first.identity = row.identity := sameIdentity_iff_eq.mp same
          have listed : row.identity ∈ (first :: rest).map identity := by simp [named]
          rw [upsert, if_pos same, if_pos listed]
          rfl
      | false =>
          have differ : row.identity ≠ first.identity := by
            intro named
            have equal := sameIdentity_iff_eq.mpr named.symm
            rw [same] at equal
            cases equal
          simp only [upsert, same, Bool.false_eq_true, if_false, List.map_cons, ih, List.mem_cons, differ,
            false_or]
          split <;> rfl

theorem nodup_upsert (row : Ignore) {rows : List Ignore} (once : (rows.map identity).Nodup) :
    ((row.upsert rows).map identity).Nodup := by
  rw [map_identity_upsert]
  split
  · exact once
  · rename_i fresh
    rw [List.nodup_append]
    refine ⟨once, by simp, ?_⟩
    rintro other listed new isNew rfl
    rw [List.mem_singleton] at isNew
    exact fresh (isNew ▸ listed)

theorem upsert_perm (row : Ignore) {rows others : List Ignore} (perm : rows.Perm others)
    (once : (rows.map identity).Nodup) : (row.upsert rows).Perm (row.upsert others) := by
  induction perm with
  | nil => exact .refl _
  | cons first perm ih =>
      obtain ⟨-, restOnce⟩ := List.nodup_cons.mp once
      simp only [upsert]
      split
      · exact perm.cons _
      · exact (ih restOnce).cons _
  | swap first second rest =>
      obtain ⟨fresh, -⟩ := List.nodup_cons.mp once
      simp only [upsert]
      cases own : first.sameIdentity row with
      | false => cases second.sameIdentity row <;> exact .swap ..
      | true =>
          cases further : second.sameIdentity row with
          | false => exact .swap ..
          | true =>
              have named := (sameIdentity_iff_eq.mp further).trans (sameIdentity_iff_eq.mp own).symm
              exact absurd (List.mem_cons.mpr (.inl named)) fresh
  | trans first _ ih ihFurther =>
      exact (ih once).trans (ihFurther ((first.map identity).nodup_iff.mp once))

theorem mem_upsert {row other : Ignore} {rows : List Ignore} (once : (rows.map identity).Nodup) :
    other ∈ row.upsert rows ↔ other = row ∨ other ∈ rows ∧ other.identity ≠ row.identity := by
  induction rows with
  | nil => simp [upsert]
  | cons first rest ih =>
      obtain ⟨fresh, restOnce⟩ := List.nodup_cons.mp once
      cases same : first.sameIdentity row with
      | true =>
          obtain ⟨users, assets, purposes⟩ := sameIdentity_iff.mp same
          have written : ({ first with permanent := row.permanent } : Ignore) = row := by
            rw [users, assets, purposes]
          have named : first.identity = row.identity := sameIdentity_iff_eq.mp same
          have later (listed : other ∈ rest) : other.identity ≠ row.identity := fun again =>
            fresh (named.trans again.symm ▸ List.mem_map_of_mem listed)
          rw [upsert, if_pos same, written, List.mem_cons, List.mem_cons]
          constructor
          · rintro (own | listed)
            · exact .inl own
            · exact .inr ⟨.inr listed, later listed⟩
          · rintro (own | ⟨rfl | listed, differs⟩)
            · exact .inl own
            · exact absurd named differs
            · exact .inr listed
      | false =>
          have differs : first.identity ≠ row.identity := fun named => by
            rw [sameIdentity_iff_eq.mpr named] at same
            cases same
          rw [upsert, if_neg (by simp [same]), List.mem_cons, List.mem_cons, ih restOnce]
          constructor
          · rintro (rfl | own | ⟨listed, other⟩)
            · exact .inr ⟨.inl rfl, differs⟩
            · exact .inl own
            · exact .inr ⟨.inr listed, other⟩
          · rintro (own | ⟨rfl | listed, other⟩)
            · exact .inr (.inl own)
            · exact .inl rfl
            · exact .inr (.inr ⟨listed, other⟩)

theorem isTransient_iff {asset : Asset} {purpose : Purpose} {row : Ignore} :
    isTransient asset purpose row = true ↔
      row.asset = asset ∧ row.purpose = purpose ∧ row.permanent = false := by
  simp [isTransient, and_assoc]

end Ignore

/-- Whether a user ignores an asset for a purpose, and if so whether for good. -/
def IgnoreMap : Type :=
  UserId → Asset → Purpose → Option Bool

namespace IgnoreMap

def ofRows (rows : List Ignore) : IgnoreMap := fun user asset purpose =>
  (rows.find? fun row => row.identity = (user, asset, purpose)).map (·.permanent)

def set (map : IgnoreMap) (row : Ignore) : IgnoreMap := fun user asset purpose =>
  if (user, asset, purpose) = row.identity then some row.permanent else map user asset purpose

def clear (map : IgnoreMap) (asset : Asset) (purpose : Purpose) : IgnoreMap :=
  fun user other reason =>
    if other = asset ∧ reason = purpose ∧ map user other reason = some false then none
    else map user other reason

/-- No two rows are about the same, and there is a row for each entry of the map. -/
structure Describes (map : IgnoreMap) (rows : List Ignore) : Prop where
  once : (rows.map Ignore.identity).Nodup
  mem_iff : ∀ user asset purpose permanent,
    ⟨user, asset, purpose, permanent⟩ ∈ rows ↔ map user asset purpose = some permanent

variable {map : IgnoreMap} {rows : List Ignore}

theorem describes_ofRows (once : (rows.map Ignore.identity).Nodup) : (ofRows rows).Describes rows := by
  refine ⟨once, fun user asset purpose permanent => ?_⟩
  simp only [ofRows, Option.map_eq_some_iff, find?_key_eq_some once]
  constructor
  · exact fun member => ⟨_, ⟨member, rfl⟩, rfl⟩
  · rintro ⟨row, ⟨member, named⟩, rfl⟩
    cases named
    exact member

theorem Describes.upsert (describes : map.Describes rows) (row : Ignore) :
    (map.set row).Describes (row.upsert rows) := by
  refine ⟨Ignore.nodup_upsert row describes.once, fun user asset purpose permanent => ?_⟩
  rw [Ignore.mem_upsert describes.once, describes.mem_iff, set]
  by_cases own : (user, asset, purpose) = row.identity
  · obtain ⟨rfl, rfl, rfl⟩ : user = row.user ∧ asset = row.asset ∧ purpose = row.purpose := by
      simpa [Ignore.identity] using own
    rw [if_pos own, Option.some.injEq]
    constructor
    · rintro (same | ⟨-, other⟩)
      · exact (congrArg Ignore.permanent same).symm
      · exact absurd own other
    · rintro rfl
      exact .inl rfl
  · rw [if_neg own]
    constructor
    · rintro (same | ⟨mapped, -⟩)
      · exact absurd (congrArg Ignore.identity same) own
      · exact mapped
    · exact fun mapped => .inr ⟨mapped, own⟩

theorem Describes.lasting (describes : map.Describes rows) (asset : Asset) (purpose : Purpose) :
    (map.clear asset purpose).Describes (Ignore.lasting asset purpose rows) := by
  refine ⟨describes.once.sublist (List.filter_sublist.map _), fun user other reason permanent => ?_⟩
  rw [Ignore.lasting, List.mem_filter, describes.mem_iff, Bool.not_eq_true', ← Bool.not_eq_true,
    Ignore.isTransient_iff, clear]
  split
  · rename_i cleared
    obtain ⟨rfl, rfl, transient⟩ := cleared
    simp [transient]
  · rename_i stays
    constructor
    · exact fun listed => listed.1
    · intro mapped
      refine ⟨mapped, ?_⟩
      rintro ⟨rfl, rfl, rfl⟩
      exact stays ⟨rfl, rfl, mapped⟩

theorem Describes.mem_transientUsers (describes : map.Describes rows) {asset : Asset}
    {purpose : Purpose} {user : UserId} :
    user ∈ Ignore.transientUsers asset purpose rows ↔ map user asset purpose = some false := by
  rw [Ignore.transientUsers, Ranked.mem_sortedDistinct, ← describes.mem_iff]
  simp only [List.mem_map, List.mem_filter, Ignore.isTransient_iff]
  constructor
  · rintro ⟨⟨user, asset, purpose, permanent⟩, ⟨member, rfl, rfl, rfl⟩, rfl⟩
    exact member
  · exact fun member => ⟨_, ⟨member, rfl, rfl, rfl⟩, rfl⟩

end IgnoreMap

end Agenda

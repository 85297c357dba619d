import Postit.Core.Posts
import Postit.Framework.Results

/-!
# Resolving a variant

Which overrides resolve, and to what.  The loop over the override's media IDs is read off as one
pass for the items and one for the violations.
-/

namespace Postit.Posts

open Postit.Framework
open Postit.Data (AccountId)

variable {items : List MediaItem} {before ids : List MediaAssetId} {id : MediaAssetId}
  {account : AccountId} {item : MediaItem}

/-- What keeps the ID at a position from being selected: it was there before, or it is none of the
post's. -/
def Offends (items : List MediaItem) (ids : List MediaAssetId) (p : MediaAssetId × ℕ) : Prop :=
  p.1 ∈ ids.take p.2 ∨ ∀ item ∈ items, item.asset ≠ p.1

instance (items : List MediaItem) (ids : List MediaAssetId) (p : MediaAssetId × ℕ) :
    Decidable (Offends items ids p) := by
  unfold Offends
  infer_instance

/-- The violation of an ID that offends. -/
def offence (account : AccountId) (ids : List MediaAssetId) (p : MediaAssetId × ℕ) : Violation :=
  overrideViolation account
    (if p.1 ∈ ids.take p.2 then .overrideMediaDuplicate else .overrideMediaNotInPost) p.1 p.2

/-- An ID selects the post's first item with it, or offends. -/
lemma selectItem_cases (items : List MediaItem) (account : AccountId) (ids : List MediaAssetId)
    (p : MediaAssetId × ℕ) :
    (¬ Offends items ids p ∧ ∃ item, items.find? (fun item => item.asset = p.1) = some item ∧
        selectItem items (ids.take p.2) p.1 = .ok item) ∨
      (Offends items ids p ∧ ∃ code, selectItem items (ids.take p.2) p.1 = .error code ∧
        overrideViolation account code p.1 p.2 = offence account ids p) := by
  by_cases hbefore : p.1 ∈ ids.take p.2
  · refine .inr ⟨.inl hbefore, .overrideMediaDuplicate, if_pos hbefore, ?_⟩
    rw [offence, if_pos hbefore]
  · cases hfind : items.find? fun item => item.asset = p.1 with
    | some item =>
      refine .inl ⟨?_, item, rfl, by
        refine (if_neg hbefore).trans ?_
        rw [hfind]
        rfl⟩
      rintro (h | h)
      · exact hbefore h
      · exact h item (List.mem_of_find?_eq_some hfind)
          (by simpa using List.find?_some hfind)
    | none =>
      refine .inr ⟨.inr fun item hitem hasset => ?_, .overrideMediaNotInPost,
        (if_neg hbefore).trans (by rw [hfind]; rfl), by rw [offence, if_neg hbefore]⟩
      exact List.find?_eq_none.mp hfind item hitem (decide_eq_true hasset)

/-- The loop, from what it has so far: the items of the IDs that do not offend, and the violations
of those that do. -/
lemma foldl_select (items : List MediaItem) (account : AccountId) (ids : List MediaAssetId)
    (l : List (MediaAssetId × ℕ)) (acc : List MediaItem × List Violation) :
    l.foldl (selectStep items account ids) acc =
      (acc.1 ++ (l.filter fun p => ¬ Offends items ids p).filterMap
          (fun p => items.find? fun item => item.asset = p.1),
        acc.2 ++ (l.filter fun p => Offends items ids p).map (offence account ids)) := by
  induction l generalizing acc with
  | nil => simp
  | cons p l ih =>
    rw [List.foldl_cons, ih]
    rcases selectItem_cases items account ids p with ⟨hp, item, hfind, hselect⟩ |
      ⟨hp, code, hselect, hviolation⟩
    · simp [selectStep, hselect, hp, hfind]
    · simp [selectStep, hselect, hp, hviolation]

lemma selectMedia_eq (items : List MediaItem) (account : AccountId) (ids : List MediaAssetId) :
    selectMedia items account ids =
      ((ids.zipIdx.filter fun p => ¬ Offends items ids p).filterMap
          (fun p => items.find? fun item => item.asset = p.1),
        (ids.zipIdx.filter fun p => Offends items ids p).map (offence account ids)) := by
  rw [selectMedia, foldl_select, List.nil_append, List.nil_append]

/-- No ID offends when they are distinct, and all of them the post's. -/
lemma forall_not_offends_iff :
    (∀ p ∈ ids.zipIdx, ¬ Offends items ids p) ↔
      ids.Nodup ∧ ∀ id ∈ ids, ∃ item ∈ items, item.asset = id := by
  constructor
  · intro h
    have hat : ∀ i (hi : i < ids.length), ¬ Offends items ids (ids[i], i) := fun i hi =>
      h _ (List.mk_mem_zipIdx_iff_getElem?.mpr (List.getElem?_eq_getElem hi))
    constructor
    · rw [List.nodup_iff_pairwise_ne, List.pairwise_iff_getElem]
      intro i j hi hj hij heq
      refine hat j hj (.inl ?_)
      rw [← heq]
      exact List.mem_take_iff_getElem.mpr ⟨i, by omega, rfl⟩
    · intro id hid
      obtain ⟨i, hi, rfl⟩ := List.mem_iff_getElem.mp hid
      by_contra hnone
      refine hat i hi (.inr fun item hitem hasset => hnone ⟨item, hitem, hasset⟩)
  · rintro ⟨hnodup, hposts⟩ ⟨id, i⟩ hp hoffends
    have hi := List.mk_mem_zipIdx_iff_getElem?.mp hp
    rcases hoffends with hbefore | hnone
    · obtain ⟨hlt, hget⟩ := List.getElem?_eq_some_iff.mp hi
      obtain ⟨j, hj, hjd⟩ := List.mem_take_iff_getElem.mp hbefore
      have hne := List.pairwise_iff_getElem.mp (List.nodup_iff_pairwise_ne.mp hnodup) j i
        (by omega) hlt (by omega)
      exact hne (hjd.trans hget.symm)
    · obtain ⟨item, hitem, hasset⟩ := hposts id (List.mem_of_getElem? hi)
      exact hnone item hitem hasset

/-- The violations of an override's IDs, one for each that offends. -/
def offences (account : AccountId) (items : List MediaItem) (ids : List MediaAssetId) :
    List Violation :=
  (ids.zipIdx.filter fun p => Offends items ids p).map (offence account ids)

lemma offences_eq_nil_iff : offences account items ids = [] ↔
    ids.Nodup ∧ ∀ id ∈ ids, ∃ item ∈ items, item.asset = id := by
  rw [← forall_not_offends_iff, offences, List.map_eq_nil_iff, List.filter_eq_nil_iff]
  simp only [decide_eq_true_eq]

/-- A media override, resolved. -/
lemma resolveMedia_some (post : Post) (account : AccountId) (ids : List MediaAssetId) :
    resolveMedia post account (some ids) =
      if (offences account post.media ids).isEmpty then
        .ok (ids.filterMap fun id => post.media.find? fun item => item.asset = id)
      else .error (offences account post.media ids) := by
  have hmedia := selectMedia_eq post.media account ids
  rw [← offences] at hmedia
  simp only [resolveMedia, hmedia]
  split_ifs with hnone
  · have hkept := forall_not_offends_iff.2
      (offences_eq_nil_iff.1 (List.isEmpty_iff.mp hnone))
    rw [List.filter_eq_self.mpr fun p hp => decide_eq_true (hkept p hp)]
    conv_rhs => rw [← List.zipIdx_map_fst 0 ids, List.filterMap_map]
    rfl
  · rfl

/-- The items found for IDs that all have one are theirs, in the same order. -/
lemma map_asset_filterMap (hposts : ∀ id ∈ ids, ∃ item ∈ items, item.asset = id) :
    (ids.filterMap fun id => items.find? fun item => item.asset = id).map MediaItem.asset =
      ids := by
  induction ids with
  | nil => rfl
  | cons id ids ih =>
    obtain ⟨item, hitem, hasset⟩ := hposts id List.mem_cons_self
    have hrest := ih fun id hid => hposts id (List.mem_cons_of_mem _ hid)
    cases hfind : items.find? fun item => item.asset = id with
    | none => exact absurd (decide_eq_true hasset) (List.find?_eq_none.mp hfind item hitem)
    | some found =>
      have hfound : found.asset = id := by simpa using List.find?_some hfind
      rw [List.filterMap_cons, hfind]
      simp only [List.map_cons, hrest, hfound]

section

variable {post : Post} {sel : Option (List MediaAssetId)} {media : List MediaItem}
  {violations : List Violation}

lemma resolveMedia_isOk_iff : (∃ media, resolveMedia post account sel = .ok media) ↔
    ∀ ids, sel = some ids → ids.Nodup ∧ ∀ id ∈ ids, ∃ item ∈ post.media, item.asset = id := by
  cases sel with
  | none => exact ⟨fun _ _ h => (nomatch h), fun _ => ⟨_, rfl⟩⟩
  | some ids =>
    have hgood : offences account post.media ids = [] ↔ _ := offences_eq_nil_iff
    simp only [resolveMedia_some, Option.some.injEq, forall_eq', ← hgood, List.isEmpty_iff]
    split_ifs with hnone
    · exact ⟨fun _ => hnone, fun _ => ⟨_, rfl⟩⟩
    · exact ⟨fun ⟨_, h⟩ => (nomatch h), fun h => absurd h hnone⟩

/-- The media of a variant: the override's selection, or the post's. -/
lemma resolveMedia_ok (h : resolveMedia post account sel = .ok media) :
    (sel = none → media = post.media) ∧
      ∀ ids, sel = some ids → media.map MediaItem.asset = ids ∧
        ∀ item ∈ media, post.media.find? (fun own => own.asset = item.asset) = some item := by
  cases sel with
  | none => exact ⟨fun _ => (Except.ok.inj h).symm, fun _ hids => nomatch hids⟩
  | some selected =>
    refine ⟨fun hids => (nomatch hids), ?_⟩
    rintro ids ⟨⟩
    rw [resolveMedia_some] at h
    split_ifs at h with hnone
    obtain ⟨-, hposts⟩ := offences_eq_nil_iff.1 (List.isEmpty_iff.mp hnone)
    obtain rfl := Except.ok.inj h
    refine ⟨map_asset_filterMap hposts, fun item hitem => ?_⟩
    obtain ⟨id, -, hfind⟩ := List.mem_filterMap.mp hitem
    have hasset : item.asset = id := by simpa using List.find?_some hfind
    rw [hasset, hfind]

lemma resolveMedia_error (h : resolveMedia post account sel = .error violations) :
    ∃ ids, sel = some ids ∧ violations = offences account post.media ids := by
  cases sel with
  | none => cases h
  | some ids =>
    rw [resolveMedia_some] at h
    split_ifs at h
    exact ⟨ids, rfl, (Except.error.inj h).symm⟩

end

end Postit.Posts

import Mathlib.Data.List.Enum
import Postit.Core.Compose
import Postit.Core.Violations
import Postit.Data.Schema

/-!
# Posts and their variants

A post is what its targets share, and an override what one account changes in it.  `resolveVariant`
puts the two together: what one target publishes.
-/

namespace Postit

/-- A hexadecimal digit, in lower case. -/
def hexChar (n : ℕ) : Char := if n < 10 then Char.ofNat (48 + n) else Char.ofNat (87 + n)

/-- A UUID as it is printed, from the number it is. -/
def uuidText (id : ℕ) : String :=
  let digits := (List.range 32).map fun i => hexChar (id / 16 ^ (31 - i) % 16)
  String.ofList ((digits.take 8) ++ '-' :: ((digits.drop 8).take 4) ++ '-' ::
    ((digits.drop 12).take 4) ++ '-' :: ((digits.drop 16).take 4) ++ '-' :: digits.drop 20)

example : uuidText 0x67e5504410b1426f9247bb680e5fe0c8 =
    "67e55044-10b1-426f-9247-bb680e5fe0c8" := by
  decide +kernel

lemma mem_uuidText {id : ℕ} {c : Char} (h : c ∈ (uuidText id).toList) :
    c = '-' ∨ ∃ n < 16, c = hexChar n := by
  have hdigit {l : List Char} (hl : l ⊆ (List.range 32).map fun i =>
      hexChar (id / 16 ^ (31 - i) % 16)) (hc : c ∈ l) : c = '-' ∨ ∃ n < 16, c = hexChar n := by
    obtain ⟨i, -, rfl⟩ := List.mem_map.mp (hl hc)
    exact .inr ⟨_, Nat.mod_lt _ (by decide), rfl⟩
  have hmid {l : List Char} (n m : ℕ) : (l.drop n).take m ⊆ l :=
    fun _ hc => List.mem_of_mem_drop (List.mem_of_mem_take hc)
  simp only [uuidText, String.toList_ofList, List.mem_append, List.mem_cons] at h
  rcases h with ((((h | h | h) | h | h) | h | h) | h | h)
  · exact hdigit (List.take_subset _ _) h
  · exact .inl h
  · exact hdigit (hmid _ _) h
  · exact .inl h
  · exact hdigit (hmid _ _) h
  · exact .inl h
  · exact hdigit (hmid _ _) h
  · exact .inl h
  · exact hdigit (List.drop_subset _ _) h

namespace Posts

open Postit.Framework
open Postit.Data (AccountId PlatformId)

abbrev MediaAssetId := ℕ

/-- Whether a post starts a conversation or answers one. -/
inductive PostKind
  | post
  | comment
  deriving DecidableEq, Repr

/-- What a comment answers. -/
structure ReplyTo where
  remotePostId : String
  remoteCommentId : Option String := none
  url : Option Url := none

/-- One media asset attached to a post. -/
structure MediaItem where
  asset : MediaAssetId
  altText : Option String := none
  deriving DecidableEq, Repr

/-- One block of an email body, of which only the images refer to anything. -/
inductive EmailBlock
  | heading
  | text
  | image (asset : MediaAssetId)
  | button
  | divider
  deriving DecidableEq, Repr

/-- An email: its subject and its blocks. -/
structure EmailDocument where
  subject : String
  blocks : List EmailBlock
  deriving DecidableEq, Repr

/-- A connected account and the platform it lives on. -/
structure AccountRef where
  platform : PlatformId
  account : AccountId
  remoteId : String

/-- The content shared by every target of a publish. -/
structure Post where
  kind : PostKind
  text : Str
  media : List MediaItem := []
  link : Option Url := none
  tags : List Str := []
  discloseAiGenerated : Bool := false
  replyTo : Option ReplyTo := none

/-- Changes one account makes to the shared post. -/
structure PostOverride where
  text : Option Str := none
  -- absent keeps the post's link, a null removes it
  link : Option (Option Url) := none
  tags : Option (List Str) := none
  -- a subset of the post's media, in the order to publish it
  media : Option (List MediaAssetId) := none
  email : Option EmailDocument := none
  options : Members := []

/-- What one target publishes. -/
structure Variant extends Postit.Variant where
  target : AccountRef
  kind : PostKind
  media : List MediaItem
  discloseAiGenerated : Bool
  replyTo : Option ReplyTo
  email : Option EmailDocument
  options : Members

/-! ## Overriding the media -/

section Media

variable (items : List MediaItem)

/-- The post's item for an ID of the override, after the IDs before it, or the rule the ID
breaks. -/
def selectItem (before : List MediaAssetId) (id : MediaAssetId) :
    Except ViolationCode MediaItem :=
  if id ∈ before then throw .overrideMediaDuplicate
  else
    match items.find? fun item => item.asset = id with
    | some item => pure item
    | none => throw .overrideMediaNotInPost

/-- Where an override's media ID stands. -/
def overridePath (account : AccountId) (index : ℕ) : String :=
  "overrides." ++ uuidText account ++ ".media[" ++ toString index ++ "]"

/-- The violation of the ID at a position. -/
def overrideViolation (account : AccountId) (code : ViolationCode) (id : MediaAssetId)
    (index : ℕ) : Violation :=
  (({ code } : Violation).at_ (overridePath account index)).param "id" (.string (uuidText id))

/-- One ID of the loop: its item is selected, or its violation added. -/
def selectStep (account : AccountId) (ids : List MediaAssetId)
    (acc : List MediaItem × List Violation) (p : MediaAssetId × ℕ) :
    List MediaItem × List Violation :=
  match selectItem items (ids.take p.2) p.1 with
  | .ok item => (acc.1 ++ [item], acc.2)
  | .error code => (acc.1, acc.2 ++ [overrideViolation account code p.1 p.2])

/-- The items the override selects, and what is wrong with the other IDs. -/
def selectMedia (account : AccountId) (ids : List MediaAssetId) :
    List MediaItem × List Violation :=
  ids.zipIdx.foldl (selectStep items account ids) ([], [])

end Media

/-- The media of a variant. -/
def resolveMedia (post : Post) (account : AccountId) :
    Option (List MediaAssetId) → Except (List Violation) (List MediaItem)
  | none => pure post.media
  | some ids =>
    let (selected, violations) := selectMedia post.media account ids
    if violations.isEmpty then pure selected else throw violations

/-- The post with one account's override applied. -/
def resolveVariant (post : Post) (target : AccountRef) (override : Option PostOverride) :
    Except (List Violation) Variant :=
  let variant : Variant :=
    { target
      kind := post.kind
      text := post.text
      media := post.media
      link := post.link
      tags := post.tags
      discloseAiGenerated := post.discloseAiGenerated
      replyTo := post.replyTo
      email := none
      options := [] }
  match override with
  | none => pure variant
  | some own => do
    let media ← resolveMedia post target.account own.media
    pure { variant with
      text := own.text.getD post.text
      link := own.link.getD post.link
      tags := own.tags.getD post.tags
      email := own.email
      options := own.options
      media }

end Posts

end Postit

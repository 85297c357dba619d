import Postit.Core.Text
import Postit.Framework.Base64

/-!
# Signed email links

One-click unsubscribe, click tracking, and the open pixel.  A token is URL-safe unpadded base64 of a
payload and the first 16 bytes of `HMAC-SHA256(key, label || 0x00 || payload)`.  The label keeps a
token of one kind from verifying as another.

The MAC and the `url` crate are outside: `Hmac` and `Urls` carry what is documented of them.
-/

namespace Postit.EmailLinks

open Postit.Framework

/-! ## What is outside -/

/-- HMAC-SHA256, of a key and a message; and the standard library's lowercasing. -/
structure Hmac where
  mac (key msg : Bytes) : Bytes
  length_mac : ∀ key msg, (mac key msg).length = 32
  toLowercase : String → String

/-- An address a browser opens. -/
def webSchemes : List String := ["http", "https"]

/-- Characters a URL's path keeps as they are. -/
def keptInPath (s : String) : Prop := ∀ c ∈ s.toList, Base64.IsUrlSafe c ∨ c = '/'

instance (s : String) : Decidable (keptInPath s) := List.decidableBAll _ s.toList

/-- The operations of the `url` crate the links use.  A printed URL parses to itself and the empty
text to none; setting the path, the query or the fragment leaves the other parts; and a path that is
only extended, by what a path keeps as it is and from a `/` on, is set as it is given. -/
structure Urls where
  Url : Type
  parse : String → Option Url
  asStr : Url → String
  scheme : Url → String
  path : Url → String
  setPath : Url → String → Url
  dropQuery : Url → Url
  dropFragment : Url → Url
  parse_asStr : ∀ u, parse (asStr u) = some u
  parse_empty : parse "" = none
  scheme_setPath : ∀ u p, scheme (setPath u p) = scheme u
  scheme_dropQuery : ∀ u, scheme (dropQuery u) = scheme u
  scheme_dropFragment : ∀ u, scheme (dropFragment u) = scheme u
  path_dropQuery : ∀ u, path (dropQuery u) = path u
  path_dropFragment : ∀ u, path (dropFragment u) = path u
  path_setPath : ∀ u ext, scheme u ∈ webSchemes → keptInPath ext →
    ext = "/" ∨ (path u).toList.getLast? = some '/' →
      path (setPath u (path u ++ ext)) = path u ++ ext

/-! ## Text as bytes -/

/-- `str::as_bytes` -/
def asBytes (s : String) : Bytes := s.toByteArray.data.toList

/-- `std::str::from_utf8` -/
def fromUtf8 (bytes : Bytes) : Option String := String.fromUTF8? ⟨bytes.toArray⟩

/-! ## What the tokens carry -/

/-- A UUID. -/
abbrev Uuid := { bytes : Bytes // bytes.length = 16 }

/-- `Uuid::from_slice` -/
def Uuid.fromSlice (bytes : Bytes) : Option Uuid :=
  if h : bytes.length = 16 then some ⟨bytes, h⟩ else none

/-- A hash. -/
abbrev Hash := { bytes : Bytes // bytes.length = 32 }

/-- `<[u8; 32]>::try_from` -/
def Hash.fromSlice (bytes : Bytes) : Option Hash :=
  if h : bytes.length = 32 then some ⟨bytes, h⟩ else none

/-- The language of the unsubscribe page. -/
inductive EmailLanguage
  | enUs
  deriving DecidableEq, Repr

/-- What an unsubscribe token carries. -/
structure Unsubscribe where
  owner : Uuid
  hash : Hash
  language : EmailLanguage
  send : Uuid
  deriving DecidableEq

/-- What a click token carries. -/
structure Click (urls : Urls) where
  send : Uuid
  destination : urls.Url

/-- What an open token carries. -/
structure Open where
  send : Uuid
  deriving DecidableEq

/-- Whom a message goes to, as far as the links read it. -/
structure DirectRecipient where
  sendId : Uuid
  address : String

/-! ## Signing and verifying -/

/-- The length of a tag. -/
def tagLen : ℕ := 16

/-- The three kinds of links. -/
inductive Kind
  | unsubscribe
  | click
  | openPixel
  deriving DecidableEq, Repr

/-- The label of a kind. -/
def Kind.label : Kind → Bytes
  | .unsubscribe => asBytes "postit-unsub-v1"
  | .click => asBytes "postit-click-v1"
  | .openPixel => asBytes "postit-open-v1"

/-- Whether a browser opens the URL. -/
def isWeb {urls : Urls} (u : urls.Url) : Prop := urls.scheme u ∈ webSchemes

instance {urls : Urls} (u : urls.Url) : Decidable (isWeb u) := inferInstanceAs (Decidable (_ ∈ _))

/-- Signs and verifies email links under a key.  The base's path ends in `/`. -/
structure Links (urls : Urls) where
  key : Bytes
  base : urls.Url
  web : isWeb base
  slash : (urls.path base).toList.getLast? = some '/'

/-- The base as it is kept: its path ended in `/`, its query and fragment dropped. -/
def Links.normalize (urls : Urls) (base : urls.Url) : urls.Url :=
  let base :=
    if (urls.path base).toList.getLast? = some '/' then base
    else urls.setPath base (urls.path base ++ "/")
  urls.dropFragment (urls.dropQuery base)

lemma Links.isWeb_normalize {urls : Urls} {base : urls.Url} (h : isWeb base) :
    isWeb (normalize urls base) := by
  unfold normalize isWeb
  rw [urls.scheme_dropFragment, urls.scheme_dropQuery]
  split
  · exact h
  · rw [urls.scheme_setPath]
    exact h

lemma Links.slash_normalize {urls : Urls} {base : urls.Url} (h : isWeb base) :
    (urls.path (normalize urls base)).toList.getLast? = some '/' := by
  unfold normalize
  rw [urls.path_dropFragment, urls.path_dropQuery]
  split
  · next hslash => exact hslash
  · have hkept : keptInPath "/" := by
      intro c hc
      exact Or.inr (by simpa using hc)
    rw [urls.path_setPath base "/" h hkept (Or.inl rfl)]
    simp

/-- Links under `base`; `none` stands for `NotWebBase`. -/
def Links.new (urls : Urls) (key : Bytes) (base : urls.Url) : Option (Links urls) :=
  if h : isWeb base then
    some
      { key := key
        base := normalize urls base
        web := isWeb_normalize h
        slash := slash_normalize h }
  else none

section Tokens

variable (hmac : Hmac) {urls : Urls} (links : Links urls)

/-- The MAC of a payload of a kind. -/
def Links.mac (label payload : Bytes) : Bytes := hmac.mac links.key (label ++ [0] ++ payload)

/-- The token of a payload. -/
def Links.seal (label payload : Bytes) : List Char :=
  let tag := links.mac hmac label payload
  Base64.encode (payload ++ tag.take tagLen)

/-- `Mac::verify_truncated_left` -/
def verifyTruncatedLeft (mac tag : Bytes) : Bool :=
  tag.length ≠ 0 && tag.length ≤ mac.length && mac.take tag.length = tag

/-- The payload of `token` when its tag is valid for `label`. -/
def Links.open? (label : Bytes) (token : List Char) : Option Bytes :=
  (Base64.decode token).bind fun raw =>
    if raw.length < tagLen then none
    else
      let payload := raw.take (raw.length - tagLen)
      let tag := raw.drop (raw.length - tagLen)
      if verifyTruncatedLeft (links.mac hmac label payload) tag then some payload else none

/-- The link of a token: `public`, the route and the token behind the base. -/
def Links.url (route : String) (token : List Char) : urls.Url :=
  urls.setPath links.base
    (urls.path links.base ++ ("public/" ++ route ++ "/" ++ String.ofList token))

/-- The language of a byte. -/
def readLanguage (b : UInt8) : Option EmailLanguage := if b = 0 then some .enUs else none

/-- What the payload of an unsubscribe token says. -/
def readUnsubscribe (p : Bytes) : Option Unsubscribe := do
  if p.length ≠ 16 + 32 + 1 + 16 then none
  else
    let owner ← Uuid.fromSlice (p.take 16)
    let hash ← Hash.fromSlice ((p.drop 16).take 32)
    let language ← (p.drop 48).head?.bind readLanguage
    let send ← Uuid.fromSlice (p.drop 49)
    some { owner := owner, hash := hash, language := language, send := send }

/-- What the payload of a click token says. -/
def readClick (p : Bytes) : Option (Click urls) := do
  if p.length ≤ 16 then none
  else
    let send ← Uuid.fromSlice (p.take 16)
    let text ← fromUtf8 (p.drop 16)
    let destination ← urls.parse text
    if isWeb destination then some { send := send, destination := destination } else none

/-- What the payload of an open token says. -/
def readOpen (p : Bytes) : Option Open := (Uuid.fromSlice p).map fun send => { send := send }

/-- The decoded unsubscribe token, or `none` when forged, damaged, or of another kind. -/
def Links.verifyUnsubscribe (token : List Char) : Option Unsubscribe :=
  (links.open? hmac Kind.unsubscribe.label token).bind readUnsubscribe

/-- The decoded click token, or `none` when forged, damaged, or of another kind. -/
def Links.verifyClick (token : List Char) : Option (Click urls) :=
  (links.open? hmac Kind.click.label token).bind readClick

/-- The decoded open token, or `none` when forged, damaged, or of another kind. -/
def Links.verifyOpen (token : List Char) : Option Open :=
  (links.open? hmac Kind.openPixel.label token).bind readOpen

end Tokens

/-! ## The links of an owner -/

section OwnerLinks

variable (hmac : Hmac) {urls : Urls} (links : Links urls)

/-- `email_hash`: the MAC of the address, trimmed and lowercased. -/
def emailHash (key : Bytes) (address : String) : Hash :=
  ⟨hmac.mac key (asBytes (hmac.toLowercase (trim address))), hmac.length_mac _ _⟩

/-- The byte of a language. -/
def EmailLanguage.byte : EmailLanguage → UInt8
  | .enUs => 0

/-- The payload of an unsubscribe token. -/
def Unsubscribe.payload (p : Unsubscribe) : Bytes :=
  p.owner.1 ++ p.hash.1 ++ [p.language.byte] ++ p.send.1

/-- The payload of a click token. -/
def Click.payload (p : Click urls) : Bytes := p.send.1 ++ asBytes (urls.asStr p.destination)

/-- The payload of an open token. -/
def Open.payload (p : Open) : Bytes := p.send.1

/-- The link in a message to `recipient` that unsubscribes them from `owner`'s list. -/
def Links.unsubscribeUrl (owner : Uuid) (recipient : DirectRecipient) (language : EmailLanguage) :
    urls.Url :=
  let payload : Unsubscribe :=
    { owner := owner
      hash := emailHash hmac links.key recipient.address
      language := language
      send := recipient.sendId }
  links.url "u" (links.seal hmac Kind.unsubscribe.label payload.payload)

/-- The link that counts a click and redirects.  A destination that is not on the web is left as it
is: the verifier would refuse it. -/
def Links.clickUrl (sendId : Uuid) (destination : urls.Url) : urls.Url :=
  if isWeb destination then
    let payload : Click urls := { send := sendId, destination := destination }
    links.url "t/c" (links.seal hmac Kind.click.label payload.payload)
  else destination

/-- The link of the pixel that counts an open. -/
def Links.openPixelUrl (sendId : Uuid) : urls.Url :=
  let payload : Open := { send := sendId }
  links.url "t/o" (links.seal hmac Kind.openPixel.label payload.payload)

end OwnerLinks

end Postit.EmailLinks

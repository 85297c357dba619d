import Mathlib.Data.List.TakeDrop
import Postit.Api.EmailLinks

/-!
# What a signed email link says

A token is the payload it was made of and that payload's tag under the label of its kind, and
nothing else is: a verifier accepts a token exactly when it is the token of the payload it reads
(`open?_eq_some_iff`).  So each link verifies to what was put into it, under its own kind only.

No function to 16 bytes is injective on all messages.  What is assumed of the MAC is that it tells
the three kinds of one payload apart (`Separates`), which is all the argument needs.
-/

namespace Postit.EmailLinks

open Postit.Framework

/-- The message a tag is made of. -/
def message (kind : Kind) (payload : Bytes) : Bytes := kind.label ++ [0] ++ payload

/-- The MAC cut to 16 bytes is injective on the messages a payload has under the three labels. -/
def Hmac.Separates (hmac : Hmac) (key : Bytes) : Prop :=
  ∀ (payload : Bytes) (kind kind' : Kind),
    (hmac.mac key (message kind payload)).take tagLen =
      (hmac.mac key (message kind' payload)).take tagLen →
    message kind payload = message kind' payload

/-- The token in a link: the last segment of its path. -/
def token {urls : Urls} (u : urls.Url) : List Char :=
  (((urls.path u).toList.splitOn '/').getLast?).getD []

section Sealing

variable {hmac : Hmac} {urls : Urls} {links : Links urls}

lemma length_tag (label payload : Bytes) :
    ((links.mac hmac label payload).take tagLen).length = tagLen := by
  rw [List.length_take, Links.mac, hmac.length_mac]
  rfl

lemma label_take_injective {kind kind' : Kind} (h : kind.label.take 8 = kind'.label.take 8) :
    kind = kind' := by
  cases kind <;> cases kind' <;> first | rfl | exact absurd h (by decide)

/-- The labels differ within their first eight bytes, so a message has one kind and one payload. -/
lemma message_injective {kind kind' : Kind} {payload payload' : Bytes}
    (h : message kind payload = message kind' payload') : kind = kind' ∧ payload = payload' := by
  have htake : ∀ (kind : Kind) payload, (message kind payload).take 8 = kind.label.take 8 := by
    intro kind payload
    cases kind <;> rfl
  have hkind : kind = kind' := by
    apply label_take_injective
    rw [← htake kind payload, ← htake kind' payload', h]
  subst hkind
  exact ⟨rfl, List.append_cancel_left h⟩

lemma verifyTruncatedLeft_iff (label payload tag : Bytes) (h : tag.length = tagLen) :
    verifyTruncatedLeft (links.mac hmac label payload) tag = true ↔
      tag = (links.mac hmac label payload).take tagLen := by
  have hlen : (links.mac hmac label payload).length = 32 := hmac.length_mac _ _
  simp [verifyTruncatedLeft, h, hlen, tagLen, eq_comm]

/-- A token opens to a payload exactly when it is that payload's token. -/
lemma open?_eq_some_iff (label : Bytes) (t : List Char) (payload : Bytes) :
    links.open? hmac label t = some payload ↔ t = links.seal hmac label payload := by
  constructor
  · intro h
    obtain ⟨raw, hraw, h⟩ := Option.bind_eq_some_iff.mp h
    split at h
    · cases h
    next hlen =>
    dsimp only at h
    split at h
    swap
    · cases h
    next htag =>
    cases h
    have hdrop : (raw.drop (raw.length - tagLen)).length = tagLen := by
      rw [List.length_drop]
      omega
    rw [verifyTruncatedLeft_iff _ _ _ hdrop] at htag
    rw [Links.seal, ← htag, List.take_append_drop]
    exact (Base64.encode_of_decode hraw).symm
  · rintro rfl
    have hlen := @length_tag hmac urls links label payload
    have hsub : (payload ++ (links.mac hmac label payload).take tagLen).length - tagLen =
        payload.length := by
      rw [List.length_append, hlen]
      omega
    rw [Links.open?, Links.seal, Base64.decode_encode, Option.bind_some,
      if_neg (by rw [List.length_append, hlen]; omega)]
    simp only [hsub, List.take_left', List.drop_left']
    exact if_pos ((verifyTruncatedLeft_iff label payload _ hlen).mpr rfl)

/-- A token belongs to one kind and one payload. -/
lemma seal_injective (h : hmac.Separates links.key) {kind kind' : Kind} {payload payload' : Bytes}
    (heq : links.seal hmac kind.label payload = links.seal hmac kind'.label payload') :
    kind = kind' ∧ payload = payload' := by
  have hraw := Base64.encode_injective heq
  have hlens : payload.length = payload'.length := by
    have := congrArg List.length hraw
    rw [List.length_append, List.length_append, length_tag, length_tag] at this
    omega
  obtain ⟨rfl, htags⟩ := List.append_inj hraw hlens
  exact message_injective (h payload kind kind' htags)

/-- A token does not open under another label. -/
lemma open?_seal_of_ne (h : hmac.Separates links.key) {kind kind' : Kind} (hne : kind ≠ kind')
    (payload : Bytes) :
    links.open? hmac kind'.label (links.seal hmac kind.label payload) = none := by
  cases hopen : links.open? hmac kind'.label (links.seal hmac kind.label payload) with
  | none => rfl
  | some payload' =>
    have heq := (open?_eq_some_iff _ _ _).mp hopen
    exact absurd (seal_injective h heq).1 hne

end Sealing

/-! ## Payloads -/

section Payloads

variable {urls : Urls}

@[simp] lemma fromSlice_val (id : Uuid) : Uuid.fromSlice id.1 = some id := dif_pos id.2

lemma of_fromSlice {bytes : Bytes} {id : Uuid} (h : Uuid.fromSlice bytes = some id) :
    id.1 = bytes := by
  unfold Uuid.fromSlice at h
  split at h
  · cases h
    rfl
  · cases h

@[simp] lemma hash_fromSlice_val (hash : Hash) : Hash.fromSlice hash.1 = some hash :=
  dif_pos hash.2

lemma of_hash_fromSlice {bytes : Bytes} {hash : Hash} (h : Hash.fromSlice bytes = some hash) :
    hash.1 = bytes := by
  unfold Hash.fromSlice at h
  split at h
  · cases h
    rfl
  · cases h

@[simp] lemma fromUtf8_asBytes (s : String) : fromUtf8 (asBytes s) = some s := by
  have hbytes : (⟨(asBytes s).toArray⟩ : ByteArray) = s.toByteArray := by
    simp [asBytes]
  rw [fromUtf8, hbytes, String.fromUTF8?, dif_pos s.isValidUTF8]
  rfl

lemma asBytes_of_fromUtf8 {bytes : Bytes} {s : String} (h : fromUtf8 bytes = some s) :
    asBytes s = bytes := by
  unfold fromUtf8 String.fromUTF8? at h
  split at h
  · cases h
    rfl
  · cases h

lemma readOpen_eq_some_iff (bytes : Bytes) (p : Open) :
    readOpen bytes = some p ↔ bytes = p.payload := by
  constructor
  · intro h
    obtain ⟨send, hsend, rfl⟩ := Option.map_eq_some_iff.mp h
    exact (of_fromSlice hsend).symm
  · rintro rfl
    simp [readOpen, Open.payload]

lemma readLanguage_eq_some_iff (b : UInt8) (language : EmailLanguage) :
    readLanguage b = some language ↔ b = language.byte := by
  cases language
  simp [readLanguage, EmailLanguage.byte]

/-- The four parts of an unsubscribe payload are found where they were put. -/
lemma readUnsubscribe_payload (p : Unsubscribe) : readUnsubscribe p.payload = some p := by
  obtain ⟨owner, hash, language, send⟩ := p
  have howner : owner.1.length = 16 := owner.2
  have hhash : hash.1.length = 32 := hash.2
  have hsend : send.1.length = 16 := send.2
  have htake : (Unsubscribe.payload ⟨owner, hash, language, send⟩).take 16 = owner.1 := by
    simp [Unsubscribe.payload, howner]
  have hdrop : (Unsubscribe.payload ⟨owner, hash, language, send⟩).drop 16 =
      hash.1 ++ [language.byte] ++ send.1 := by
    simp [Unsubscribe.payload, howner]
  have hmid : (hash.1 ++ [language.byte] ++ send.1).take 32 = hash.1 := by
    simp [hhash]
  have hlast : (Unsubscribe.payload ⟨owner, hash, language, send⟩).drop 48 =
      language.byte :: send.1 := by
    rw [show 48 = 16 + 32 from rfl, ← List.drop_drop, hdrop]
    simp [hhash]
  have hend : (Unsubscribe.payload ⟨owner, hash, language, send⟩).drop 49 = send.1 := by
    rw [show 49 = 48 + 1 from rfl, ← List.drop_drop, hlast]
    rfl
  have hlen : (Unsubscribe.payload ⟨owner, hash, language, send⟩).length = 16 + 32 + 1 + 16 := by
    simp [Unsubscribe.payload, howner, hhash, hsend]
  have hlanguage : readLanguage language.byte = some language :=
    (readLanguage_eq_some_iff _ _).mpr rfl
  simp [readUnsubscribe, hlen, htake, hdrop, hmid, hlast, hend, hlanguage, -List.append_assoc]

lemma readUnsubscribe_eq_some_iff (bytes : Bytes) (p : Unsubscribe) :
    readUnsubscribe bytes = some p ↔ bytes = p.payload := by
  constructor
  · intro h
    unfold readUnsubscribe at h
    split at h
    · cases h
    simp only [Option.bind_eq_bind, Option.bind_eq_some_iff] at h
    obtain ⟨owner, howner, hash, hhash, language, ⟨b, hb, hlanguage⟩, send, hsend, h⟩ := h
    cases h
    rw [readLanguage_eq_some_iff] at hlanguage
    subst hlanguage
    -- the parts are the pieces between the cuts at 16, 48 and 49
    have hlast : bytes.drop 48 = language.byte :: bytes.drop 49 := by
      rw [List.head?_eq_some_iff] at hb
      obtain ⟨rest, hrest⟩ := hb
      rw [show 49 = 48 + 1 from rfl, ← List.drop_drop, hrest]
      rfl
    have hmid : bytes.drop 16 = (bytes.drop 16).take 32 ++ bytes.drop 48 := by
      rw [show 48 = 16 + 32 from rfl, ← List.drop_drop, List.take_append_drop]
    rw [Unsubscribe.payload, of_fromSlice howner, of_fromSlice hsend, of_hash_fromSlice hhash,
      List.append_assoc, List.append_assoc, List.singleton_append, ← hlast, ← hmid,
      List.take_append_drop]
  · rintro rfl
    exact readUnsubscribe_payload p

/-- The text of a click payload is one that parses to the destination; the destination's own print
is one such text. -/
lemma readClick_eq_some_iff (bytes : Bytes) (p : Click urls) :
    readClick bytes = some p ↔
      ∃ text, bytes = p.send.1 ++ asBytes text ∧ urls.parse text = some p.destination ∧
        isWeb p.destination := by
  constructor
  · intro h
    unfold readClick at h
    split at h
    · cases h
    simp only [Option.bind_eq_bind, Option.bind_eq_some_iff] at h
    obtain ⟨send, hsend, text, htext, destination, hparse, h⟩ := h
    split at h
    swap
    · cases h
    next hweb =>
    cases h
    refine ⟨text, ?_, hparse, hweb⟩
    rw [of_fromSlice hsend, asBytes_of_fromUtf8 htext, List.take_append_drop]
  · rintro ⟨text, rfl, hparse, hweb⟩
    have hsend : p.send.1.length = 16 := p.send.2
    -- the empty text is no URL, so there is a byte behind the ID
    have hne : asBytes text ≠ [] := by
      intro hnil
      have hempty : text = "" := by
        have := fromUtf8_asBytes text
        rw [hnil, show fromUtf8 [] = some "" from fromUtf8_asBytes ""] at this
        exact (Option.some.inj this).symm
      rw [hempty, urls.parse_empty] at hparse
      cases hparse
    have hlen : ¬(p.send.1 ++ asBytes text).length ≤ 16 := by
      have := List.length_pos_of_ne_nil hne
      rw [List.length_append]
      omega
    have htake : (p.send.1 ++ asBytes text).take 16 = p.send.1 := by simp [hsend]
    have hdrop : (p.send.1 ++ asBytes text).drop 16 = asBytes text := by simp [hsend]
    simp [readClick, hlen, htake, hdrop, hparse, hweb, -List.length_append]

lemma readClick_payload {p : Click urls} (h : isWeb p.destination) : readClick p.payload = some p :=
  (readClick_eq_some_iff _ _).mpr ⟨urls.asStr p.destination, rfl, urls.parse_asStr _, h⟩

end Payloads

/-! ## The links -/

section Links

variable {hmac : Hmac} {urls : Urls} {links : Links urls}

lemma slash_notMem_seal (label payload : Bytes) : '/' ∉ links.seal hmac label payload := by
  intro h
  have hsafe := Base64.isUrlSafe_of_mem_encode h
  revert hsafe
  decide

/-- The token of a link is the one it was built with. -/
lemma token_url {route : String} (hroute : keptInPath route) (label payload : Bytes) :
    token (links.url route (links.seal hmac label payload)) = links.seal hmac label payload := by
  have hkept : keptInPath ("public/" ++ route ++ "/" ++
      String.ofList (links.seal hmac label payload)) := by
    intro c hc
    simp only [String.toList_append, String.toList_ofList, List.mem_append] at hc
    rcases hc with ((hc | hc) | hc) | hc
    · have hpublic : keptInPath "public/" := by decide
      exact hpublic c hc
    · exact hroute c hc
    · exact Or.inr (by simpa using hc)
    · exact Or.inl (Base64.isUrlSafe_of_mem_encode hc)
  rw [token, Links.url, urls.path_setPath _ _ links.web hkept (Or.inr links.slash)]
  simp only [String.toList_append, String.toList_ofList]
  rw [show "/".toList = ['/'] from rfl, List.append_assoc, ← List.append_assoc,
    List.singleton_append, ← List.append_assoc, List.splitOn_append_cons_self,
    List.splitOn_eq_singleton (slash_notMem_seal label payload), List.getLast?_concat,
    Option.getD_some]

end Links

/-- Each link verifies under its own kind to what was put into it and is refused by the two others;
a token a verifier accepts is the token of the payload it read, which for an unsubscribe and an open
link is the payload of what it returns and for a click link ends in a text of the destination; and
no two pairs of a kind and a payload have the same token. -/
theorem links_verify_what_was_signed (hmac : Hmac) (urls : Urls) (links : Links urls)
    (hmacSeparates : hmac.Separates links.key) :
    (∀ owner recipient language,
      let t := token (links.unsubscribeUrl hmac owner recipient language)
      links.verifyUnsubscribe hmac t = some
        { owner := owner
          hash := emailHash hmac links.key recipient.address
          language := language
          send := recipient.sendId } ∧
      links.verifyClick hmac t = none ∧ links.verifyOpen hmac t = none) ∧
    (∀ send destination, isWeb destination →
      let t := token (links.clickUrl hmac send destination)
      links.verifyClick hmac t = some { send := send, destination := destination } ∧
      links.verifyUnsubscribe hmac t = none ∧ links.verifyOpen hmac t = none) ∧
    (∀ send,
      let t := token (links.openPixelUrl hmac send)
      links.verifyOpen hmac t = some { send := send } ∧
      links.verifyUnsubscribe hmac t = none ∧ links.verifyClick hmac t = none) ∧
    (∀ t p, links.verifyUnsubscribe hmac t = some p ↔
      t = links.seal hmac Kind.unsubscribe.label p.payload) ∧
    (∀ t p, links.verifyClick hmac t = some p ↔
      ∃ text, urls.parse text = some p.destination ∧ isWeb p.destination ∧
        t = links.seal hmac Kind.click.label (p.send.1 ++ asBytes text)) ∧
    (∀ t p, links.verifyOpen hmac t = some p ↔
      t = links.seal hmac Kind.openPixel.label p.payload) ∧
    (∀ (kind kind' : Kind) (payload payload' : Bytes),
      links.seal hmac kind.label payload = links.seal hmac kind'.label payload' →
      kind = kind' ∧ payload = payload') := by
  have hopen : ∀ (kind : Kind) payload,
      links.open? hmac kind.label (links.seal hmac kind.label payload) = some payload :=
    fun kind payload => (open?_eq_some_iff _ _ _).mpr rfl
  have hrefuse : ∀ {kind kind' : Kind}, kind ≠ kind' → ∀ payload,
      links.open? hmac kind'.label (links.seal hmac kind.label payload) = none :=
    fun hne payload => open?_seal_of_ne hmacSeparates hne payload
  refine ⟨?_, ?_, ?_, ?_, ?_, ?_, fun _ _ _ _ => seal_injective hmacSeparates⟩
  · intro owner recipient language t
    have ht : t = links.seal hmac Kind.unsubscribe.label _ := token_url (by decide) _ _
    rw [ht, Links.verifyUnsubscribe, Links.verifyClick, Links.verifyOpen, hopen,
      hrefuse (by decide), hrefuse (by decide)]
    exact ⟨readUnsubscribe_payload _, rfl, rfl⟩
  · intro send destination hweb t
    have hurl : links.clickUrl hmac send destination = links.url "t/c" _ := if_pos hweb
    have ht : t = links.seal hmac Kind.click.label _ :=
      (congrArg token hurl).trans (token_url (by decide) _ _)
    rw [ht, Links.verifyUnsubscribe, Links.verifyClick, Links.verifyOpen, hopen,
      hrefuse (by decide), hrefuse (by decide)]
    exact ⟨readClick_payload hweb, rfl, rfl⟩
  · intro send t
    have ht : t = links.seal hmac Kind.openPixel.label _ := token_url (by decide) _ _
    rw [ht, Links.verifyUnsubscribe, Links.verifyClick, Links.verifyOpen, hopen,
      hrefuse (by decide), hrefuse (by decide)]
    exact ⟨(readOpen_eq_some_iff _ _).mpr rfl, rfl, rfl⟩
  · intro t p
    simp [Links.verifyUnsubscribe, Option.bind_eq_some_iff, open?_eq_some_iff,
      readUnsubscribe_eq_some_iff]
  · intro t p
    simp only [Links.verifyClick, Option.bind_eq_some_iff, open?_eq_some_iff,
      readClick_eq_some_iff]
    constructor
    · rintro ⟨_, ht, text, rfl, hparse, hweb⟩
      exact ⟨text, hparse, hweb, ht⟩
    · rintro ⟨text, hparse, hweb, ht⟩
      exact ⟨_, ht, text, rfl, hparse, hweb⟩
  · intro t p
    simp [Links.verifyOpen, Option.bind_eq_some_iff, open?_eq_some_iff, readOpen_eq_some_iff]

/-! ## A key and a site -/

namespace Sample

/-- The send with the number 9. -/
def send : Uuid := ⟨[0, 0, 0, 0, 0, 0, 0, 0, 0, 0, 0, 0, 0, 0, 0, 9], rfl⟩

/-- The MACs of that send's messages under the key `0123456789abcdef0123456789abcdef`. -/
def macOf : Kind → Bytes
  | .unsubscribe =>
    [235, 110, 148, 116, 16, 31, 37, 131, 128, 153, 250, 9, 182, 183, 186, 247,
      242, 170, 36, 239, 126, 42, 170, 164, 93, 61, 196, 70, 14, 115, 177, 1]
  | .click =>
    [52, 87, 178, 96, 224, 52, 16, 68, 96, 127, 115, 71, 93, 178, 241, 93,
      170, 151, 135, 175, 143, 220, 35, 3, 247, 102, 234, 117, 123, 59, 252, 235]
  | .openPixel =>
    [216, 114, 224, 202, 187, 14, 122, 175, 39, 220, 199, 106, 19, 208, 246, 127,
      103, 236, 217, 106, 194, 46, 164, 213, 167, 191, 233, 247, 89, 130, 201, 215]

/-- The kind of a message of the send. -/
def kindOf (msg : Bytes) : Option Kind :=
  [Kind.unsubscribe, .click, .openPixel].find? fun kind => msg = message kind send.1

/-- The send's messages have their MACs; any other message has its own first bytes. -/
def mac (msg : Bytes) : Bytes :=
  match kindOf msg with
  | some kind => macOf kind
  | none => msg.takeD 32 0

lemma length_mac (msg : Bytes) : (mac msg).length = 32 := by
  unfold mac
  split
  · next kind _ => cases kind <;> rfl
  · exact List.takeD_length 32 msg 0

/-- HMAC-SHA256 where the sample needs it. -/
def hmac : Hmac where
  mac _ := mac
  length_mac _ := length_mac
  toLowercase := id

lemma kindOf_message (kind : Kind) (payload : Bytes) :
    kindOf (message kind payload) = if payload = send.1 then some kind else none := by
  split
  · next h =>
    subst h
    cases kind <;> decide
  · next h =>
    apply List.find?_eq_none.mpr
    intro kind' _ heq
    exact h (message_injective (of_decide_eq_true heq)).2

lemma separates (key : Bytes) : hmac.Separates key := by
  intro payload kind kind' h
  suffices hkind : kind = kind' by rw [hkind]
  change (mac _).take tagLen = (mac _).take tagLen at h
  rw [mac, mac, kindOf_message, kindOf_message] at h
  by_cases hsend : payload = send.1
  · simp only [hsend, if_true] at h
    have htags : ∀ kind kind', (macOf kind).take tagLen = (macOf kind').take tagLen →
        kind = kind' := by
      intro kind kind' h
      cases kind <;> cases kind' <;> first | rfl | exact absurd h (by decide)
    exact htags kind kind' h
  · simp only [hsend, if_false] at h
    have hfirst : ∀ kind, ((message kind payload).takeD 32 0).take 8 = kind.label.take 8 := by
      intro kind
      cases kind <;> rfl
    apply label_take_injective
    rw [← hfirst, ← hfirst]
    have := congrArg (List.take 8) h
    simpa only [List.take_take, show min 8 tagLen = 8 from rfl] using this

/-- The URLs of one site, by their paths, without queries and fragments. -/
def urls : Urls where
  Url := { path : String // path.toList.head? = some '/' }
  parse s :=
    if h : s.toList.take 22 = "https://postit.example".toList ∧
        (s.toList.drop 22).head? = some '/' then
      some ⟨String.ofList (s.toList.drop 22), by simpa using h.2⟩
    else none
  asStr u := "https://postit.example" ++ u.1
  scheme _ := "https"
  path u := u.1
  setPath u p := if h : p.toList.head? = some '/' then ⟨p, h⟩ else u
  dropQuery := id
  dropFragment := id
  parse_asStr := by
    intro u
    have hlen : "https://postit.example".toList.length = 22 := by decide
    have htake : ("https://postit.example" ++ u.1).toList.take 22 =
        "https://postit.example".toList := by
      rw [String.toList_append, List.take_left' hlen]
    have hdrop : ("https://postit.example" ++ u.1).toList.drop 22 = u.1.toList := by
      rw [String.toList_append, List.drop_left' hlen]
    simp only [htake, hdrop, u.2, and_self, dite_true, String.ofList_toList]
  parse_empty := rfl
  scheme_setPath _ _ := rfl
  scheme_dropQuery _ := rfl
  scheme_dropFragment _ := rfl
  path_dropQuery _ := rfl
  path_dropFragment _ := rfl
  path_setPath := by
    intro u ext _ _ _
    have hhead : (u.1 ++ ext).toList.head? = some '/' := by
      rw [String.toList_append, List.head?_append, u.2, Option.some_or]
    rw [dif_pos hhead]

/-- Links at the root of the site. -/
def links : Links urls where
  key := asBytes "0123456789abcdef0123456789abcdef"
  base := ⟨"/", rfl⟩
  web := List.mem_cons_of_mem _ List.mem_cons_self
  slash := rfl

end Sample

theorem open_pixel_verifies :
    let t := token (Sample.links.openPixelUrl Sample.hmac Sample.send)
    Sample.links.verifyOpen Sample.hmac t = some { send := Sample.send } ∧
    Sample.links.verifyUnsubscribe Sample.hmac t = none ∧
    Sample.links.verifyClick Sample.hmac t = none :=
  (links_verify_what_was_signed Sample.hmac Sample.urls Sample.links (Sample.separates _)).2.2.1
    Sample.send

end Postit.EmailLinks

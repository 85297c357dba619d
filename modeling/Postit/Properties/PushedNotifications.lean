import Postit.Notify.Push

/-!
# Pushed notifications

A payload is a fixed text but for the names its line carries: its length is that of the payload of
the same notice without names, and what the names take within quotes (`length_payload`).  What fits
is delivered and reads back; what does not is refused, and no column bounds a name.
-/

namespace Postit.Push

open Postit.Framework
open Postit.Framework.JsonStrings (escapedLen)
open Postit.Notify (AccountLabel)

/-! ## What it is to be pushed and read -/

section Pushing

variable (p : Ece.Primitives)

/-- A device has keys that a registration accepts, and holds the private key of its public one. -/
def Device.Holds (device : Device) (uaPrivate : Bytes) : Prop :=
  ∃ ua, p.fromSlice uaPrivate = some ua ∧
    Ece.parsePublicKey p device.p256dh = .ok (p.publicKey ua) ∧ device.auth.length = Ece.authLen

/-- A body that a device reads as a plaintext. -/
def Device.Reads (device : Device) (uaPrivate : Bytes) (body plaintext : Bytes) : Prop :=
  body.length ≤ 4096 ∧ Ece.decrypt p body uaPrivate device.auth = .ok plaintext

/-- A notification is pushed to a device, which reads its payload. -/
def Pushed (row : NotificationRow) (locale : Locale) (device : Device) (uaPrivate : Bytes)
    (sender : p.SecretKey) (salt : Ece.Salt) : Prop :=
  ∃ body, message p row locale device (some sender) (some salt) = .ok body ∧
    device.Reads p uaPrivate body (payload row locale)

end Pushing

/-! ## The names of a notice -/

/-- An account without its names. -/
def unnamed (a : AccountLabel) : AccountLabel := { a with accountName := "", platform := "" }

namespace DeliveryNotice

def blank (n : DeliveryNotice) : DeliveryNotice := { n with account := unnamed n.account }

end DeliveryNotice

namespace AccountNotice

def blank (n : AccountNotice) : AccountNotice := { n with account := unnamed n.account }

end AccountNotice

namespace Notice

/-- A notice without its names. -/
def blank : Notice → Notice
  | deliveryDeadLettered n => deliveryDeadLettered n.blank
  | deliveryFailed n => deliveryFailed n.blank
  | deliveryOutcomeUnknown n => deliveryOutcomeUnknown n.blank
  | deliveryParked n => deliveryParked n.blank
  | deliveryStale n => deliveryStale n.blank
  | deliveryPublished n => deliveryPublished n.blank
  | accountNeedsReconnect n => accountNeedsReconnect n.blank
  | accountRevokedByPlatform n => accountRevokedByPlatform n.blank
  | reconnectByPassed n => reconnectByPassed n.blank
  | reconnectReminder n => reconnectReminder n.blank
  | newComments n => newComments { n with account := unnamed n.account }
  | delegationChanged n => delegationChanged { n with partyName := "" }
  | jobPartial n => jobPartial n
  | recurrenceSkipped n => recurrenceSkipped n
  | userPending => userPending

/-- The ID of the platform a notice names. -/
def platform (notice : Notice) : Option String := notice.account.map AccountLabel.platform

/-- The bytes a notice's names take within quotes. -/
def namesLen (notice : Notice) : ℕ :=
  escapedLen (notice.label.getD "").toList + escapedLen (notice.platform.getD "").toList

/-- The bytes of what the catalogue says of a notice: its kind, its title, and its line but for the
names. -/
def textLen (notice : Notice) (locale : Locale) : ℕ :=
  escapedLen (kindName notice.kind).toList + escapedLen (pushTitle locale notice.kind) +
    escapedLen (pushBody locale (noticeMessageArgs notice.blank locale) notice.kind)

end Notice

/-! ## The length of a payload -/

/-- A line takes what it takes without names, and its names. -/
lemma escapedLen_pushBody (notice : Notice) (locale : Locale) :
    escapedLen (pushBody locale (noticeMessageArgs notice locale) notice.kind) =
      escapedLen (pushBody locale (noticeMessageArgs notice.blank locale) notice.kind) +
        notice.namesLen := by
  cases locale
  cases notice with
  | jobPartial _ | recurrenceSkipped _ | userPending =>
    -- no name is told
    simp only [Notice.blank, Notice.namesLen, Notice.label, Notice.platform, Notice.account,
      Option.map_none, Option.getD_none, String.toList_empty, JsonStrings.escapedLen_nil,
      Nat.add_zero]
  | newComments n =>
    unfold pushBody noticeLine
    simp only [noticeMessageArgs, noticeArgs, accountArgs, Notice.kind, Notice.namesLen,
      Notice.label, Notice.platform, Notice.account, Notice.blank, unnamed, Option.map_some,
      Option.getD_some, String.toList_empty]
    by_cases hcount : n.count.toNat = 1
    · simp only [plural, if_pos hcount, JsonStrings.escapedLen_append, JsonStrings.escapedLen_nil]
      omega
    · simp only [plural, if_neg hcount, JsonStrings.escapedLen_append, JsonStrings.escapedLen_nil]
      omega
  | _ n =>
    unfold pushBody noticeLine
    simp only [noticeMessageArgs, noticeArgs, accountArgs, Notice.kind, Notice.namesLen,
      Notice.label, Notice.platform, Notice.account, Notice.blank, unnamed, DeliveryNotice.blank,
      AccountNotice.blank, Option.map_some, Option.map_none, Option.getD_some, Option.getD_none,
      String.toList_empty, JsonStrings.escapedLen_append, JsonStrings.escapedLen_nil]
    omega

/-- The digits of an ID stand for themselves. -/
lemma escapedLen_uuidText (id : ℕ) : escapedLen (uuidText id).toList = 36 := by
  have hhex : ∀ n < 16, JsonStrings.escapeChar (hexChar n) = [hexChar n] ∧
      (hexChar n).utf8Size = 1 := by decide
  have hdash : JsonStrings.escapeChar '-' = ['-'] ∧ '-'.utf8Size = 1 := by decide
  rw [JsonStrings.escapedLen_of_plain]
  · simp [uuidText]
  · intro c hc
    obtain rfl | ⟨n, hn, rfl⟩ := mem_uuidText hc
    · exact hdash
    · exact hhex n hn

/-- A payload takes the catalogue's text, the names, and 121 bytes of keys and IDs. -/
lemma length_payload (row : NotificationRow) (locale : Locale) :
    (payload row locale).length = row.notice.namesLen + row.notice.textLen locale + 121 := by
  have hbody := escapedLen_pushBody row.notice locale
  have hkeys : escapedLen "id".toList = 2 ∧ escapedLen "kind".toList = 4 ∧
      escapedLen "title".toList = 5 ∧ escapedLen "body".toList = 4 ∧
      escapedLen "tag".toList = 3 := by decide +kernel
  have hmarks : '{'.utf8Size = 1 ∧ ':'.utf8Size = 1 ∧ ','.utf8Size = 1 ∧ '}'.utf8Size = 1 := by
    decide
  obtain ⟨hid, hkind, htitle, hbodyKey, htag⟩ := hkeys
  obtain ⟨hopen, hcolon, hcomma, hclose⟩ := hmarks
  unfold payload Notice.textLen
  simp only [JsonStrings.object, JsonStrings.members, Str.length_toUtf8, Str.utf8Len_append,
    Str.utf8Len_cons, JsonStrings.utf8Len_quoted, escapedLen_uuidText, hbody, hid, hkind, htitle,
    hbodyKey, htag, hopen, hcolon, hcomma, hclose, Str.utf8Len_nil]
  omega

/-! ## What fits is pushed -/

section Fits

variable {p : Ece.Primitives} {row : NotificationRow} {locale : Locale} {device : Device}
  {uaPrivate : Bytes} {sender : p.SecretKey} {salt : Ece.Salt}

/-- A plaintext that fits is sealed into a body the device reads. -/
lemma reads_sealBody (hdevice : device.Holds p uaPrivate) {plaintext : Bytes}
    (hfits : plaintext.length ≤ Ece.maxPlaintext) :
    ∃ body, Ece.sealBody p plaintext device.p256dh device.auth sender salt = .ok body ∧
      device.Reads p uaPrivate body plaintext := by
  obtain ⟨ua, hprivate, hpublic, hauth⟩ := hdevice
  obtain ⟨body, hbody, hlength, hread⟩ := Ece.decrypt_sealBody hfits hauth hprivate hpublic
  refine ⟨body, hbody, ?_, hread⟩
  rw [hlength]
  exact Nat.add_le_add_right hfits 103

/-- A message is the payload, sealed. -/
lemma message_eq :
    message p row locale device (some sender) (some salt) =
      (Ece.sealBody p (payload row locale) device.p256dh device.auth sender salt).mapError
        fun | .push text => ⟨text⟩ := by
  simp only [message, Ece.encrypt, Ece.orInvalid_some, bind, Except.bind]

lemma pushed_of_le (hdevice : device.Holds p uaPrivate)
    (hfits : (payload row locale).length ≤ Ece.maxPlaintext) :
    Pushed p row locale device uaPrivate sender salt := by
  obtain ⟨body, hbody, hread⟩ : ∃ body, Ece.sealBody p (payload row locale) device.p256dh
      device.auth sender salt = .ok body ∧ device.Reads p uaPrivate body (payload row locale) :=
    reads_sealBody hdevice hfits
  exact ⟨body, by rw [message_eq, hbody]; rfl, hread⟩

lemma message_of_lt (h : Ece.maxPlaintext < (payload row locale).length) :
    message p row locale device (some sender) (some salt) =
      .error ⟨"web push encryption failed: the message is too long"⟩ := by
  rw [message_eq, Ece.sealBody_long h]
  rfl

end Fits

/-- A notification is pushed to a device and read there exactly when its names fit into what its
text leaves of a message.  Every plaintext of at most `maxPlaintext` bytes is, and no longer one. -/
theorem pushed_iff (p : Ece.Primitives) (device : Device) (uaPrivate : Bytes)
    (hdevice : device.Holds p uaPrivate) (sender : p.SecretKey) (salt : Ece.Salt) :
    (∀ row locale, Pushed p row locale device uaPrivate sender salt ↔
      row.notice.namesLen + row.notice.textLen locale + 121 ≤ Ece.maxPlaintext) ∧
    ∀ plaintext : Bytes,
      (plaintext.length ≤ Ece.maxPlaintext →
        ∃ body, Ece.sealBody p plaintext device.p256dh device.auth sender salt = .ok body ∧
          device.Reads p uaPrivate body plaintext) ∧
      (Ece.maxPlaintext < plaintext.length →
        Ece.sealBody p plaintext device.p256dh device.auth sender salt =
          .error (.push "web push encryption failed: the message is too long")) := by
  refine ⟨fun row locale => ?_, fun plaintext => ⟨fun h => reads_sealBody hdevice h, fun h => ?_⟩⟩
  · rw [← length_payload row locale]
    constructor
    · rintro ⟨body, hbody, -⟩
      by_contra hlong
      rw [message_of_lt (Nat.lt_of_not_le hlong)] at hbody
      cases hbody
    · exact pushed_of_le hdevice
  · rw [Ece.sealBody_long h]
    rfl

/-! ### The standard's key pairs -/

/-- The two parties of the standard's example. -/
inductive Party
  | subscriber
  | server
  deriving DecidableEq, Repr

namespace Party

def privateKey : Party → Bytes
  | subscriber => bytesOf 32 0xab5757a70dd4a53e553a6bbf71ffefea2874ec07a6b379e3c48f895a02dc33de
  | server => bytesOf 32 0xc9f58f89813e9f8e872e71f42aa64e1757c9254dcc62b72ddc010bb4043ea11c

def point : Party → Bytes
  | subscriber =>
    bytesOf 33 0x042571b2becdfde360551aaf1ed0f4cd366c11cebe555f89bcb7b186a533391731 ++
      bytesOf 32 0x68ece2ebe018597bd30479b86e3c8f8eced577ca59187e9246990db682008b0e
  | server =>
    bytesOf 33 0x04fe33f4ab0dea71914db55823f73b54948f41306d920732dbb9a59a5328648220 ++
      bytesOf 32 0x0e597a7b7bc260ba1c227998580992e93973002f3012a28ae8f06bbb78e5ec0f

/-- The party a reading of bytes gives. -/
def ofBytes (read : Party → Bytes) (bytes : Bytes) : Option Party :=
  if bytes = read subscriber then some subscriber
  else if bytes = read server then some server
  else none

end Party

def sampleDevice : Device := ⟨Party.subscriber.point, bytesOf 16 0x05305932a1c7eabe13b6cec9fda48882⟩

def sampleSalt : Ece.Salt := ⟨bytesOf 16 0x0c6bfaadad67958803092d454676f397, by decide⟩

def sampleSecret : Bytes :=
  bytesOf 32 0x932acbd63208387133837b0cd995911c3441eb66000998614a592727aef6912b

def sampleIkm : Bytes :=
  bytesOf 32 0x4b895831bfcbd05c427aad16843c7cd772a0498a94dba90ecb359476c5d8cab8

def sampleCek : Bytes :=
  bytesOf 16 0xa088555b4e0c45dcb65cdf4288a2f14e

def sampleNonce : Bytes :=
  bytesOf 12 0xe21ffde6495727913faa7a0d

/-- Ada's delegation changed. -/
def sampleRow : NotificationRow :=
  ⟨0x67e5504410b1426f9247bb680e5fe0c8, .delegationChanged ⟨"Ada"⟩⟩

def sampleRecord : Bytes := payload sampleRow .enUs ++ [2]

def sampleSealed : Bytes :=
  bytesOf 36 0xdeddd25140e8b82016d9e6bb49ee1112ac35e6e4f601589f83be214ed5edbd49f6890668 ++
    bytesOf 36 0x265568df0602aa8c538d8b52170ba742a301b686ae72f4df917527d3bb6fb8d1c14757ea ++
    bytesOf 36 0x902dbe2a42304dbcb677f5771ba0bf13bbd31f7d0c69449562ac4fcf057f23b2314923c4 ++
    bytesOf 36 0x3f884aab2b112bdd8f5f58d8ddc8665b799e2b67cca17fd756e4eda10f33ee0597726b83 ++
    bytesOf 36 0xdfce6f44ae1603f35e7f1f36de66d0ea0476da17b2cabb631be34eeeb157319a33972c73 ++
    bytesOf 33 0xe140b7976ba2abc9d65a4cd7d218628afa7a3e468db623b4cd8be9c54287d7d68c

/-- The derivations of the sample's keys. -/
def sampleHkdf (salt ikm info : Bytes) : Option Bytes :=
  if (salt, ikm, info) = (sampleDevice.auth, sampleSecret,
      Ece.webPushInfo ++ Party.subscriber.point ++ Party.server.point) then some sampleIkm
  else if (salt, ikm, info) = (sampleSalt.1, sampleIkm, Ece.cekInfo) then some sampleCek
  else if (salt, ikm, info) = (sampleSalt.1, sampleIkm, Ece.nonceInfo) then some sampleNonce
  else none

section OneCall

variable (key₀ nonce₀ msg₀ sealed₀ : Bytes)

/-- A cipher that is the real one at one call; elsewhere the tag is sixteen zeros. -/
def callEncrypt (key nonce msg : Bytes) : Option Bytes :=
  if key = key₀ ∧ nonce = nonce₀ ∧ msg = msg₀ then some sealed₀
  else some (msg ++ List.replicate 16 0)

def callDecrypt (key nonce sealed : Bytes) : Option Bytes :=
  if key = key₀ ∧ nonce = nonce₀ ∧ sealed = sealed₀ then some msg₀
  else if sealed.drop (sealed.length - 16) = List.replicate 16 0 then
    some (sealed.take (sealed.length - 16))
  else none

variable {key₀ nonce₀ msg₀ sealed₀}

lemma length_callEncrypt (hlength : sealed₀.length = msg₀.length + 16)
    {key nonce msg sealed : Bytes}
    (h : callEncrypt key₀ nonce₀ msg₀ sealed₀ key nonce msg = some sealed) :
    sealed.length = msg.length + 16 := by
  unfold callEncrypt at h
  split_ifs at h with hcall
  · obtain ⟨-, -, rfl⟩ := hcall
    cases h
    exact hlength
  · cases h
    simp

lemma callDecrypt_callEncrypt
    (htag : sealed₀.drop (sealed₀.length - 16) ≠ List.replicate 16 0) {key nonce msg sealed : Bytes}
    (h : callEncrypt key₀ nonce₀ msg₀ sealed₀ key nonce msg = some sealed) :
    callDecrypt key₀ nonce₀ msg₀ sealed₀ key nonce sealed = some msg := by
  unfold callEncrypt at h
  split_ifs at h with hcall
  · obtain ⟨rfl, rfl, rfl⟩ := hcall
    cases h
    exact if_pos ⟨rfl, rfl, rfl⟩
  · cases h
    have hother : msg ++ List.replicate 16 0 ≠ sealed₀ := by
      rintro rfl
      simp at htag
    unfold callDecrypt
    rw [if_neg fun h => hother h.2.2, if_pos (by simp)]
    simp

end OneCall

/-- Primitives that are the real ones at the standard's keys and the sample's message; elsewhere a
key is zeros. -/
def samplePrimitives : Ece.Primitives where
  SecretKey := Party
  PublicKey := Party
  publicKey := id
  fromSlice := Party.ofBytes Party.privateKey
  fromSec1Bytes := Party.ofBytes Party.point
  uncompressed := Party.point
  diffieHellman a b := if a = b then [] else sampleSecret
  hkdf salt ikm info len :=
    match sampleHkdf salt ikm info with
    | some okm => if okm.length = len then some okm else some (List.replicate len 0)
    | none => some (List.replicate len 0)
  encrypt := callEncrypt sampleCek sampleNonce sampleRecord sampleSealed
  decrypt := callDecrypt sampleCek sampleNonce sampleRecord sampleSealed
  limit := 2 ^ 36
  diffieHellman_comm a b := by cases a <;> cases b <;> rfl
  length_uncompressed key := by cases key <;> decide
  head?_uncompressed key := by cases key <;> decide
  fromSec1Bytes_uncompressed key := by cases key <;> decide
  hkdf_length salt ikm info len _ := by
    cases sampleHkdf salt ikm info with
    | none => exact ⟨_, rfl, List.length_replicate⟩
    | some okm =>
      by_cases hlength : okm.length = len
      · exact ⟨okm, if_pos hlength, hlength⟩
      · exact ⟨_, if_neg hlength, List.length_replicate⟩
  maxPlaintext_lt_limit := by decide
  encrypt_isSome key nonce msg _ := by
    unfold callEncrypt
    split <;> rfl
  length_encrypt h := length_callEncrypt (by decide +kernel) h
  decrypt_encrypt h := callDecrypt_callEncrypt (by decide +kernel) h

lemma sampleDevice_holds :
    sampleDevice.Holds samplePrimitives (Party.privateKey .subscriber) := by
  refine ⟨Party.subscriber, ?_, ?_, by decide⟩
  · show Party.ofBytes Party.privateKey (Party.privateKey .subscriber) = some .subscriber
    exact if_pos rfl
  · exact Ece.parsePublicKey_uncompressed (p := samplePrimitives) Party.subscriber

theorem pushed_iff_sample :
    Pushed samplePrimitives sampleRow .enUs sampleDevice (Party.privateKey .subscriber) Party.server
      sampleSalt :=
  ((pushed_iff samplePrimitives sampleDevice (Party.privateKey .subscriber) sampleDevice_holds
    Party.server sampleSalt).1 sampleRow .enUs).mpr (by decide +kernel)

/-! ### A name as long as a message -/

/-- A failed delivery to an account with a name of four thousand letters. -/
def longNamed : NotificationRow :=
  ⟨1, .deliveryFailed ⟨2, ⟨3, String.ofList (List.replicate 4000 'a'), "mastodon"⟩, none⟩⟩

theorem not_pushed :
    sampleDevice.Holds samplePrimitives (Party.privateKey .subscriber) ∧
      message samplePrimitives longNamed .enUs sampleDevice (some Party.server) (some sampleSalt) =
        .error ⟨"web push encryption failed: the message is too long"⟩ := by
  refine ⟨sampleDevice_holds, message_of_lt ?_⟩
  have hname := JsonStrings.length_le_escapedLen (List.replicate 4000 'a')
  have hlabel : longNamed.notice.label = some (String.ofList (List.replicate 4000 'a')) := rfl
  rw [length_payload, Notice.namesLen, hlabel, Option.getD_some, String.toList_ofList]
  rw [List.length_replicate] at hname
  simp only [Ece.maxPlaintext]
  omega

end Postit.Push

import Mathlib.Data.List.Basic
import Postit.Framework.Bytes

/-!
# The body of a Web Push message

One record of `aes128gcm` behind a header of salt, record size and sender key, with the keys derived
from a Diffie-Hellman secret.

The curve, the key derivation and the cipher are outside; `Primitives` carries what is known of
them.  What the code draws at random is an argument.
-/

namespace Postit.Ece

open Postit.Framework

/-- Why a push cannot be built. -/
inductive NotifyError
  | push (text : String)
  deriving DecidableEq, Repr

/-- The record size written in the header. -/
def recordSize : UInt32 := 4096

/-- The largest plaintext one message holds: the whole body has 4096 bytes at most, of which 86 are
the header, 16 the tag and one the delimiter. -/
def maxPlaintext : ℕ := 3993

/-- An uncompressed point of the curve. -/
def publicKeyLen : ℕ := 65

/-- The subscription's authentication secret. -/
def authLen : ℕ := 16

/-! ## What is outside -/

/-- P-256, HKDF with SHA-256, and AES-128-GCM.  The secret of two parties is the same from either
side; an uncompressed point is 65 bytes from `4` on and reads back as itself; the derivation gives up
to 255 blocks of 32 bytes; the cipher appends a tag of 16 bytes, refuses only messages beyond its
limit, and decrypts what it encrypted. -/
structure Primitives where
  SecretKey : Type
  PublicKey : Type
  publicKey : SecretKey → PublicKey
  fromSlice : Bytes → Option SecretKey
  fromSec1Bytes : Bytes → Option PublicKey
  uncompressed : PublicKey → Bytes
  diffieHellman : SecretKey → PublicKey → Bytes
  /-- Of a salt, keying material, an info and a length. -/
  hkdf : Bytes → Bytes → Bytes → ℕ → Option Bytes
  /-- Under a key and a nonce. -/
  encrypt : Bytes → Bytes → Bytes → Option Bytes
  decrypt : Bytes → Bytes → Bytes → Option Bytes
  limit : ℕ
  diffieHellman_comm : ∀ a b, diffieHellman a (publicKey b) = diffieHellman b (publicKey a)
  length_uncompressed : ∀ key, (uncompressed key).length = publicKeyLen
  head?_uncompressed : ∀ key, (uncompressed key).head? = some 4
  fromSec1Bytes_uncompressed : ∀ key, fromSec1Bytes (uncompressed key) = some key
  hkdf_length : ∀ salt ikm info len, len ≤ 255 * 32 →
    ∃ okm, hkdf salt ikm info len = some okm ∧ okm.length = len
  maxPlaintext_lt_limit : maxPlaintext < limit
  encrypt_isSome : ∀ key nonce msg, msg.length ≤ limit → (encrypt key nonce msg).isSome
  length_encrypt : ∀ {key nonce msg sealed}, encrypt key nonce msg = some sealed →
    sealed.length = msg.length + 16
  decrypt_encrypt : ∀ {key nonce msg sealed}, encrypt key nonce msg = some sealed →
    decrypt key nonce sealed = some msg

/-! ## Sealing and opening -/

def invalid (what : String) : NotifyError := .push ("web push encryption failed: " ++ what)

/-- `Option::ok_or`, of what failed. -/
def orInvalid {α : Type} (what : String) (value : Option α) : Except NotifyError α :=
  value.elim (.error (invalid what)) .ok

/-- A salt. -/
abbrev Salt := { bytes : Bytes // bytes.length = 16 }

/-- `WebPush: info` and a zero byte. -/
def webPushInfo : Bytes := [87, 101, 98, 80, 117, 115, 104, 58, 32, 105, 110, 102, 111, 0]

/-- `Content-Encoding: aes128gcm` and a zero byte. -/
def cekInfo : Bytes :=
  [67, 111, 110, 116, 101, 110, 116, 45, 69, 110, 99, 111, 100, 105, 110, 103, 58, 32, 97, 101, 115,
    49, 50, 56, 103, 99, 109, 0]

/-- `Content-Encoding: nonce` and a zero byte. -/
def nonceInfo : Bytes :=
  [67, 111, 110, 116, 101, 110, 116, 45, 69, 110, 99, 111, 100, 105, 110, 103, 58, 32, 110, 111, 110,
    99, 101, 0]

section Crypto

variable (p : Primitives)

/-- The subscription's public key, which must be an uncompressed point. -/
def parsePublicKey (bytes : Bytes) : Except NotifyError p.PublicKey :=
  if bytes.length ≠ publicKeyLen ∨ bytes.head? ≠ some 4 then
    .error (invalid "the subscription key is not an uncompressed P-256 point")
  else orInvalid "the subscription key is not on P-256" (p.fromSec1Bytes bytes)

/-- The content encryption key and the nonce. -/
def derive (ecdhSecret auth uaPublic asPublic salt : Bytes) : Except NotifyError (Bytes × Bytes) := do
  let keyInfo := webPushInfo ++ uaPublic ++ asPublic
  let ikm ← orInvalid "hkdf" (p.hkdf auth ecdhSecret keyInfo 32)
  let cek ← orInvalid "hkdf" (p.hkdf salt ikm cekInfo 16)
  let nonce ← orInvalid "hkdf" (p.hkdf salt ikm nonceInfo 12)
  return (cek, nonce)

/-- The header of a body: salt, record size, and the sender's key behind its length. -/
def header (salt : Salt) (asPublic : Bytes) : Except NotifyError Bytes :=
  if asPublic.length < 256 then
    .ok (salt.1 ++ toBeBytes recordSize ++ UInt8.ofNat asPublic.length :: asPublic)
  else .error (invalid "key id too long")

/-- The key of the cipher. -/
def contentKey (cek : Bytes) : Except NotifyError Bytes :=
  if cek.length = 16 then .ok cek else .error (invalid "bad content key")

/-- Encrypts `plaintext` for the subscription with a sender key and a salt. -/
def sealBody (plaintext uaPublic auth : Bytes) (sender : p.SecretKey) (salt : Salt) :
    Except NotifyError Bytes :=
  if maxPlaintext < plaintext.length then .error (invalid "the message is too long")
  else if auth.length ≠ authLen then
    .error (invalid "the authentication secret is not 16 bytes")
  else do
    let ua ← parsePublicKey p uaPublic
    let asPublic := p.uncompressed (p.publicKey sender)
    let shared := p.diffieHellman sender ua
    let (cek, nonce) ← derive p shared auth (p.uncompressed ua) asPublic salt.1
    let key ← contentKey cek
    -- the delimiter of the last and only record
    let sealed ← orInvalid "aes-gcm failed" (p.encrypt key nonce (plaintext ++ [2]))
    let head ← header salt asPublic
    return head ++ sealed

/-- Encrypts `plaintext` with a fresh sender key and salt, each of them missing when the random
source fails. -/
def encrypt (plaintext uaPublic auth : Bytes) (sender : Option p.SecretKey) (salt : Option Salt) :
    Except NotifyError Bytes := do
  let sender ← orInvalid "no random source" sender
  let salt ← orInvalid "no random source" salt
  sealBody p plaintext uaPublic auth sender salt

/-- The record without its delimiter. -/
def undelimited (record : Bytes) : Except NotifyError Bytes :=
  if record.getLast? = some 2 then .ok record.dropLast else .error (invalid "missing delimiter")

/-- The salt, the sender's key and the record of a body.  The record size is skipped. -/
def splitBody (body : Bytes) : Except NotifyError (Bytes × Bytes × Bytes) :=
  if body.length < 21 then .error (invalid "short body")
  else
    let rest := body.drop 16
    let idLen := (rest.getD 4 0).toNat
    let rest := rest.drop 5
    if rest.length < idLen then .error (invalid "short key id")
    else .ok (body.take 16, rest.take idLen, rest.drop idLen)

/-- Decrypts a one-record body as the subscriber holding `uaPrivate` and `auth` would. -/
def decrypt (body uaPrivate auth : Bytes) : Except NotifyError Bytes := do
  let ua ← orInvalid "bad subscriber key" (p.fromSlice uaPrivate)
  let (salt, asPublic, sealed) ← splitBody body
  let sender ← parsePublicKey p asPublic
  let shared := p.diffieHellman ua sender
  let (cek, nonce) ← derive p shared auth (p.uncompressed (p.publicKey ua)) asPublic salt
  let key ← contentKey cek
  let record ← orInvalid "does not open" (p.decrypt key nonce sealed)
  undelimited record

end Crypto

/-! ## What is sealed opens -/

section RoundTrip

variable {p : Primitives} {plaintext uaPublic auth : Bytes} {sender : p.SecretKey} {salt : Salt}

@[simp] lemma orInvalid_some {α : Type} (what : String) (a : α) : orInvalid what (some a) = .ok a :=
  rfl

lemma parsePublicKey_uncompressed (key : p.PublicKey) :
    parsePublicKey p (p.uncompressed key) = .ok key := by
  simp [parsePublicKey, p.length_uncompressed, p.head?_uncompressed, p.fromSec1Bytes_uncompressed]

variable (p) in
/-- The keys can always be derived. -/
lemma derive_ok (ecdhSecret auth uaPublic asPublic salt : Bytes) :
    ∃ cek nonce, derive p ecdhSecret auth uaPublic asPublic salt = .ok (cek, nonce) ∧
      cek.length = 16 := by
  obtain ⟨ikm, hikm, _⟩ := p.hkdf_length auth ecdhSecret (webPushInfo ++ uaPublic ++ asPublic) 32
    (by decide)
  obtain ⟨cek, hcek, hlength⟩ := p.hkdf_length salt ikm cekInfo 16 (by decide)
  obtain ⟨nonce, hnonce, _⟩ := p.hkdf_length salt ikm nonceInfo 12 (by decide)
  refine ⟨cek, nonce, ?_, hlength⟩
  simp only [derive, hikm, hcek, hnonce, orInvalid_some, bind, Except.bind, pure, Except.pure]

/-- The parts of a sealed body are where they are looked for. -/
lemma splitBody_header (salt : Salt) {asPublic : Bytes} (hlength : asPublic.length = publicKeyLen)
    (sealed : Bytes) :
    ∃ head, header salt asPublic = .ok head ∧ head.length = 86 ∧
      splitBody (head ++ sealed) = .ok (salt.1, asPublic, sealed) := by
  have hsalt := salt.2
  have hid : UInt8.ofNat asPublic.length = 65 := by rw [hlength]; rfl
  refine ⟨_, if_pos (by rw [hlength]; decide), ?_, ?_⟩
  · simp [hsalt, hlength, publicKeyLen]
  · have htake : (salt.1 ++ toBeBytes recordSize ++ UInt8.ofNat asPublic.length :: asPublic ++
        sealed).take 16 = salt.1 := by
      rw [List.append_assoc, List.append_assoc]
      exact List.take_left' hsalt
    have hdrop : (salt.1 ++ toBeBytes recordSize ++ UInt8.ofNat asPublic.length :: asPublic ++
        sealed).drop 16 = toBeBytes recordSize ++ UInt8.ofNat asPublic.length :: (asPublic ++ sealed) := by
      rw [List.append_assoc, List.append_assoc]
      exact List.drop_left' hsalt
    unfold splitBody
    have hlong : ¬ (salt.1 ++ toBeBytes recordSize ++ UInt8.ofNat asPublic.length :: asPublic ++
        sealed).length < 21 := by
      simp only [List.length_append, List.length_cons, length_toBeBytes, hsalt, hlength,
        publicKeyLen]
      omega
    rw [if_neg hlong, htake, hdrop, hid]
    have hrest : (toBeBytes recordSize ++ (65 : UInt8) :: (asPublic ++ sealed)).drop 5 =
        asPublic ++ sealed := rfl
    have hlen : ((toBeBytes recordSize ++ (65 : UInt8) :: (asPublic ++ sealed)).getD 4 0).toNat =
        asPublic.length := by
      rw [hlength]
      rfl
    simp only [hrest, hlen]
    rw [if_neg (by simp), List.take_left, List.drop_left]

/-- A plaintext that fits is sealed, and the subscriber opens what it is sealed into. -/
theorem decrypt_sealBody {uaPrivate : Bytes} {ua : p.SecretKey}
    (hplaintext : plaintext.length ≤ maxPlaintext) (hauth : auth.length = authLen)
    (hprivate : p.fromSlice uaPrivate = some ua)
    (hpublic : parsePublicKey p uaPublic = .ok (p.publicKey ua)) :
    ∃ body, sealBody p plaintext uaPublic auth sender salt = .ok body ∧
      body.length = plaintext.length + 103 ∧ decrypt p body uaPrivate auth = .ok plaintext := by
  obtain ⟨cek, nonce, hderive, hcek⟩ := derive_ok p (p.diffieHellman sender (p.publicKey ua)) auth
    (p.uncompressed (p.publicKey ua)) (p.uncompressed (p.publicKey sender)) salt.1
  have hkey : contentKey cek = .ok cek := if_pos hcek
  have hrecord : (plaintext ++ [2]).length ≤ p.limit := by
    have := p.maxPlaintext_lt_limit
    rw [List.length_append, List.length_singleton]
    omega
  obtain ⟨sealed, hsealed⟩ := Option.isSome_iff_exists.mp (p.encrypt_isSome cek nonce _ hrecord)
  obtain ⟨head, hhead, hlength, hsplit⟩ :=
    splitBody_header salt (p.length_uncompressed (p.publicKey sender)) sealed
  refine ⟨head ++ sealed, ?_, ?_, ?_⟩
  · rw [sealBody, if_neg (Nat.not_lt.mpr hplaintext), if_neg (not_not.mpr hauth)]
    simp only [hpublic, hderive, hkey, hsealed, hhead, orInvalid_some, bind, Except.bind, pure,
      Except.pure]
  · rw [List.length_append, hlength, p.length_encrypt hsealed, List.length_append,
      List.length_singleton]
    omega
  · rw [p.diffieHellman_comm] at hderive
    simp only [decrypt, hprivate, hsplit, parsePublicKey_uncompressed, hderive, hkey,
      p.decrypt_encrypt hsealed, orInvalid_some, bind, Except.bind]
    rw [undelimited, if_pos (by simp), List.dropLast_concat]

/-- A plaintext that does not fit is refused. -/
lemma sealBody_long (h : maxPlaintext < plaintext.length) :
    sealBody p plaintext uaPublic auth sender salt = .error (invalid "the message is too long") :=
  if_pos h

end RoundTrip

end Postit.Ece

import Mathlib.Data.List.AList
import Mathlib.Data.List.MinMax
import Postit.Framework.Bytes
import Postit.Framework.Table

/-!
# The vault's envelopes

A value is encrypted under a data key of its own, and the data key under the newest of the vault's
key-encryption keys, both for the table, column and row the value is kept in.  Rotating a key
re-wraps the data key and leaves the rest as it is.

The cipher, the key derivation and the value's JSON are outside: `Cipher` and `Codec` carry what is
known of the first and the last.  What the code draws at random is an argument.
-/

namespace Postit.Sealing

open Postit.Framework

/-- Why a vault could not be built or a value could not be sealed or opened. -/
inductive VaultError
  | noKeys
  | keyTooShort (version : UInt32)
  | invalidVersion
  | duplicateVersion (version : UInt32)
  | unknownKeyVersion (version : UInt32)
  | malformed
  | authenticationFailed
  | serialization
  deriving DecidableEq, Repr

/-! ## What is outside -/

/-- An authenticated cipher with a 16-byte tag.  It refuses only messages beyond its limit, and
what it encrypted it decrypts under the same key, nonce and associated data. -/
structure Cipher where
  encrypt (key nonce msg aad : Bytes) : Option Bytes
  decrypt (key nonce msg aad : Bytes) : Option Bytes
  limit : ℕ
  dekLen_le_limit : 32 ≤ limit
  encrypt_isSome : ∀ key nonce msg aad, msg.length ≤ limit → (encrypt key nonce msg aad).isSome
  length_encrypt : ∀ {key nonce msg aad sealed}, encrypt key nonce msg aad = some sealed →
    sealed.length = msg.length + 16
  decrypt_encrypt : ∀ {key nonce msg aad sealed}, encrypt key nonce msg aad = some sealed →
    decrypt key nonce sealed aad = some msg

/-- A JSON encoding of values: what was encoded decodes to what it was. -/
structure Codec (α : Type) where
  toVec : α → Option Bytes
  fromSlice : Bytes → Option α
  fromSlice_toVec : ∀ {value bytes}, toVec value = some bytes → fromSlice bytes = some value

/-! ## Keys -/

/-- A key-encryption key, or a data key. -/
abbrev Key := { bytes : Bytes // bytes.length = 32 }

/-- A nonce. -/
abbrev Nonce := { bytes : Bytes // bytes.length = 24 }

/-- A row's ID. -/
abbrev Uuid := { bytes : Bytes // bytes.length = 16 }

/-- The key-encryption keys by version; there is no version `0`. -/
abbrev Keks := { keks : Table UInt32 Key // (0 : UInt32) ∉ keks }

/-- The keys a vault holds, and the newest of their versions. -/
structure Vault where
  keks : Keks
  newest : UInt32
  held : newest ∈ keks.1
  greatest : ∀ version ∈ keks.1, version ≤ newest

section FromKeys

variable (deriveKek : UInt32 → Bytes → Key)

/-- Adds the key of a version, derived from its material. -/
def addKey (keks : Keks) (entry : UInt32 × Bytes) : Except VaultError Keks :=
  if hzero : entry.1 = 0 then .error .invalidVersion
  else if entry.2.length < 32 then .error (.keyTooShort entry.1)
  else if entry.1 ∈ keks.1 then .error (.duplicateVersion entry.1)
  else .ok ⟨keks.1.insert entry.1 (deriveKek entry.1 entry.2), by
    rw [AList.mem_insert]
    exact fun h => h.elim (fun h => hzero h.symm) keks.2⟩

/-- Builds a vault from versions and key material. -/
def Vault.fromKeys (keys : List (UInt32 × Bytes)) : Except VaultError Vault :=
  match keys.foldlM (addKey deriveKek) ⟨∅, AList.notMem_empty 0⟩ with
  | .error e => .error e
  | .ok keks =>
    match hmax : keks.1.keys.argmax UInt32.toNat with
    | none => .error .noKeys
    | some newest => .ok
      { keks := keks
        newest := newest
        held := AList.mem_keys.mpr (List.argmax_mem hmax)
        greatest := fun _ hversion => UInt32.le_iff_toNat_le.mpr
          (List.le_of_mem_argmax (AList.mem_keys.mp hversion) hmax) }

end FromKeys

namespace Vault

/-- The key-encryption key of a version. -/
def kek (vault : Vault) (version : UInt32) : Except VaultError Key :=
  match vault.keks.1.lookup version with
  | none => .error (.unknownKeyVersion version)
  | some kek => .ok kek

lemma newest_ne_zero (vault : Vault) : vault.newest ≠ 0 := by
  intro h
  have hheld := vault.held
  rw [h] at hheld
  exact vault.keks.2 hheld

/-- The newest version and its key-encryption key. -/
def newestKek (vault : Vault) : Except VaultError ({ version : UInt32 // version ≠ 0 } × Key) := do
  let kek ← vault.kek vault.newest
  return (⟨vault.newest, vault.newest_ne_zero⟩, kek)

end Vault

/-! ## Sealed values -/

/-- Where a sealed value lives. -/
structure SealContext where
  table : String
  column : String
  row : Uuid
  deriving DecidableEq

/-- The version of the storage format, the first byte of every sealed value. -/
def formatVersion : UInt8 := 1

/-- The domain tag leading the associated data, `postit.vault.v1`. -/
def domain : Bytes := [112, 111, 115, 116, 105, 116, 46, 118, 97, 117, 108, 116, 46, 118, 49]

/-- The bytes from one offset to another. -/
def slice (bytes : Bytes) (start stop : ℕ) : Bytes := (bytes.take stop).drop start

def versionAt : ℕ := 1

def wrapNonceAt : ℕ := versionAt + 4

def wrappedDekAt : ℕ := wrapNonceAt + 24

def dataNonceAt : ℕ := wrappedDekAt + 32 + 16

def ciphertextAt : ℕ := dataNonceAt + 24

/-- The header and the tag of an empty ciphertext. -/
def minLen : ℕ := ciphertextAt + 16

/-- The big-endian key version at its offset, or `0` when the bytes are too short. -/
def readVersion (bytes : Bytes) : UInt32 := (fromBeBytes? (slice bytes versionAt wrapNonceAt)).getD 0

/-- The header of a sealed value is one of this format. -/
def WellFormed (bytes : Bytes) : Prop :=
  minLen ≤ bytes.length ∧ bytes.head? = some formatVersion ∧ readVersion bytes ≠ 0

instance (bytes : Bytes) : Decidable (WellFormed bytes) := inferInstanceAs (Decidable (_ ∧ _ ∧ _))

/-- A sealed value, as it is stored. -/
structure Sealed where
  bytes : Bytes
  wellFormed : WellFormed bytes
  deriving DecidableEq

namespace Sealed

/-- Wraps stored bytes, checking the header. -/
def fromBytes (bytes : Bytes) : Except VaultError Sealed :=
  if h : WellFormed bytes then .ok ⟨bytes, h⟩ else .error .malformed

/-- The version of the key that wraps the data key. -/
def keyVersion (s : Sealed) : UInt32 := readVersion s.bytes

def wrapNonce (s : Sealed) : Bytes := slice s.bytes wrapNonceAt wrappedDekAt

def wrappedDek (s : Sealed) : Bytes := slice s.bytes wrappedDekAt dataNonceAt

def dataNonce (s : Sealed) : Bytes := slice s.bytes dataNonceAt ciphertextAt

def ciphertext (s : Sealed) : Bytes := s.bytes.drop ciphertextAt

/-- The data nonce and ciphertext, which rotation keeps as they are. -/
def payload (s : Sealed) : Bytes := s.bytes.drop dataNonceAt

lemma length_payload (s : Sealed) : 40 ≤ s.payload.length := by
  have hlen := s.wellFormed.1
  simp only [minLen, ciphertextAt] at hlen
  rw [payload, List.length_drop]
  omega

lemma dataNonce_eq (s : Sealed) : s.dataNonce = s.payload.take 24 := by
  rw [dataNonce, slice, payload, List.take_drop, ciphertextAt]

lemma ciphertext_eq (s : Sealed) : s.ciphertext = s.payload.drop 24 := by
  rw [ciphertext, payload, List.drop_drop, ciphertextAt]

end Sealed

/-- The format byte, key version, wrap nonce and wrapped data key. -/
def header (version : UInt32) (wrapNonce wrapped : Bytes) : Bytes :=
  formatVersion :: toBeBytes version ++ wrapNonce ++ wrapped

section Layout

variable {version : UInt32} {wrapNonce wrapped payload : Bytes} (hnonce : wrapNonce.length = 24)
  (hwrapped : wrapped.length = 48)

lemma header_append (version : UInt32) (wrapNonce wrapped payload : Bytes) :
    header version wrapNonce wrapped ++ payload =
      formatVersion :: (toBeBytes version ++ (wrapNonce ++ (wrapped ++ payload))) := by
  simp [header]

lemma readVersion_header : readVersion (header version wrapNonce wrapped ++ payload) = version := by
  have hslice : slice (header version wrapNonce wrapped ++ payload) versionAt wrapNonceAt =
      toBeBytes version := by
    rw [header_append]
    simp [slice, versionAt, wrapNonceAt, toBeBytes]
  rw [readVersion, hslice, fromBeBytes?_toBeBytes, Option.getD_some]

include hnonce in
lemma slice_wrapNonce :
    slice (header version wrapNonce wrapped ++ payload) wrapNonceAt wrappedDekAt = wrapNonce := by
  have htake : (wrapNonce ++ (wrapped ++ payload)).take 24 = wrapNonce :=
    List.take_left' hnonce
  rw [header_append]
  simpa [slice, versionAt, wrapNonceAt, wrappedDekAt, toBeBytes] using htake

include hnonce hwrapped in
lemma slice_wrappedDek :
    slice (header version wrapNonce wrapped ++ payload) wrappedDekAt dataNonceAt = wrapped := by
  have htake : (wrapNonce ++ (wrapped ++ payload)).take 72 = wrapNonce ++ wrapped := by
    rw [← List.append_assoc]
    exact List.take_left' (by simp [hnonce, hwrapped])
  have hdrop : (wrapNonce ++ wrapped).drop 24 = wrapped := List.drop_left' hnonce
  rw [header_append]
  simpa [slice, versionAt, wrapNonceAt, wrappedDekAt, dataNonceAt, toBeBytes, htake] using hdrop

include hnonce hwrapped in
lemma drop_dataNonceAt :
    (header version wrapNonce wrapped ++ payload).drop dataNonceAt = payload :=
  List.drop_left' (by simp [header, hnonce, hwrapped, dataNonceAt, wrappedDekAt, wrapNonceAt,
    versionAt])

include hnonce hwrapped in
lemma wellFormed_header (hversion : version ≠ 0) (hpayload : 40 ≤ payload.length) :
    WellFormed (header version wrapNonce wrapped ++ payload) := by
  refine ⟨?_, by simp [header], by rwa [readVersion_header]⟩
  simp only [header, List.cons_append, List.length_cons, List.length_append, length_toBeBytes,
    hnonce, hwrapped, minLen, ciphertextAt, dataNonceAt, wrappedDekAt, wrapNonceAt, versionAt]
  omega

end Layout

/-- Wraps the bytes of an envelope that was just built. -/
def Sealed.fromValid (version : { version : UInt32 // version ≠ 0 }) (wrapNonce : Nonce)
    (wrapped : { bytes : Bytes // bytes.length = 48 })
    (payload : { bytes : Bytes // 40 ≤ bytes.length }) : Sealed where
  bytes := header version.1 wrapNonce.1 wrapped.1 ++ payload.1
  wellFormed := wellFormed_header wrapNonce.2 wrapped.2 version.2 payload.2

/-- The UTF-8 of a string. -/
def asBytes (s : String) : Bytes := s.toByteArray.data.toList

/-- The domain tag, table, column and row, each behind its length. -/
def associatedData (ctx : SealContext) : Except VaultError Bytes :=
  match lengthPrefixed? [domain, asBytes ctx.table, asBytes ctx.column, ctx.row.1] with
  | none => .error .serialization
  | some aad => .ok aad

/-! ## Sealing and opening -/

/-- A ciphertext of the message: as long, and a tag. -/
abbrev CiphertextOf (msg : Bytes) := { bytes : Bytes // bytes.length = msg.length + 16 }

/-- Encryption under a key, authenticating the associated data. -/
def encrypt (c : Cipher) (key : Key) (nonce : Nonce) (msg aad : Bytes) :
    Except VaultError (CiphertextOf msg) :=
  match h : c.encrypt key.1 nonce.1 msg aad with
  | none => .error .serialization
  | some bytes => .ok ⟨bytes, c.length_encrypt h⟩

/-- Decryption; any failure is an authentication failure. -/
def decrypt (c : Cipher) (key nonce msg aad : Bytes) : Except VaultError Bytes :=
  match c.decrypt key nonce msg aad with
  | none => .error .authenticationFailed
  | some bytes => .ok bytes

namespace Vault

variable (c : Cipher) {α : Type} (codec : Codec α) (vault : Vault)

/-- Seals a value with a data key and nonces drawn by the caller. -/
def sealParts (value : α) (ctx : SealContext) (dek : Key) (wrapNonce dataNonce : Nonce) :
    Except VaultError Sealed := do
  let plaintext ← (codec.toVec value).elim (.error .serialization) .ok
  let aad ← associatedData ctx
  let (version, kek) ← vault.newestKek
  let wrapped ← encrypt c kek wrapNonce dek.1 aad
  let ciphertext ← encrypt c dek dataNonce plaintext aad
  return .fromValid version wrapNonce ⟨wrapped.1, by rw [wrapped.2, dek.2]⟩
    ⟨dataNonce.1 ++ ciphertext.1, by
      rw [List.length_append, dataNonce.2, ciphertext.2]
      omega⟩

/-- Decrypts the data key under its recorded key version. -/
def unwrapDek (s : Sealed) (aad : Bytes) : Except VaultError Key := do
  let kek ← vault.kek s.keyVersion
  let dek ← decrypt c kek.1 s.wrapNonce s.wrappedDek aad
  if h : dek.length = 32 then return ⟨dek, h⟩ else throw .malformed

/-- Opens a value sealed for the row, column and table. -/
def open_ (s : Sealed) (ctx : SealContext) : Except VaultError α := do
  let aad ← associatedData ctx
  let dek ← vault.unwrapDek c s aad
  let plaintext ← decrypt c dek.1 s.dataNonce s.ciphertext aad
  (codec.fromSlice plaintext).elim (.error .serialization) .ok

/-- Re-wraps the data key under the newest key version, leaving the data nonce and ciphertext as
they are.  There is nothing to do when it is on the newest version. -/
def rewrap (s : Sealed) (ctx : SealContext) (wrapNonce : Nonce) :
    Except VaultError (Option Sealed) := do
  let (newest, kek) ← vault.newestKek
  if s.keyVersion = newest.1 then return none
  let aad ← associatedData ctx
  let dek ← vault.unwrapDek c s aad
  let wrapped ← encrypt c kek wrapNonce dek.1 aad
  return some (.fromValid newest wrapNonce ⟨wrapped.1, by rw [wrapped.2, dek.2]⟩
    ⟨s.payload, s.length_payload⟩)

end Vault

/-! ## What each part of an envelope is -/

section FromValid

variable (version : { version : UInt32 // version ≠ 0 }) (wrapNonce : Nonce)
  (wrapped : { bytes : Bytes // bytes.length = 48 }) (payload : { bytes : Bytes // 40 ≤ bytes.length })

@[simp] lemma Sealed.keyVersion_fromValid :
    (fromValid version wrapNonce wrapped payload).keyVersion = version.1 :=
  readVersion_header

@[simp] lemma Sealed.wrapNonce_fromValid :
    (fromValid version wrapNonce wrapped payload).wrapNonce = wrapNonce.1 :=
  slice_wrapNonce wrapNonce.2

@[simp] lemma Sealed.wrappedDek_fromValid :
    (fromValid version wrapNonce wrapped payload).wrappedDek = wrapped.1 :=
  slice_wrappedDek wrapNonce.2 wrapped.2

@[simp] lemma Sealed.payload_fromValid :
    (fromValid version wrapNonce wrapped payload).payload = payload.1 :=
  drop_dataNonceAt wrapNonce.2 wrapped.2

end FromValid

@[simp] lemma Sealed.fromBytes_bytes (s : Sealed) : fromBytes s.bytes = .ok s := by
  rw [fromBytes, dif_pos s.wellFormed]

lemma encrypt_eq_ok {c : Cipher} {key : Key} {nonce : Nonce} {msg aad : Bytes}
    {sealed : CiphertextOf msg} :
    encrypt c key nonce msg aad = .ok sealed ↔
      c.encrypt key.1 nonce.1 msg aad = some sealed.1 := by
  unfold encrypt
  split
  · next h => simp [h]
  · next bytes h => simp [h, Subtype.ext_iff]

lemma decrypt_eq_ok {c : Cipher} {key nonce msg aad bytes : Bytes} :
    decrypt c key nonce msg aad = .ok bytes ↔ c.decrypt key nonce msg aad = some bytes := by
  unfold decrypt
  cases c.decrypt key nonce msg aad <;> simp

lemma associatedData_eq_ok {ctx : SealContext} {aad : Bytes} :
    associatedData ctx = .ok aad ↔
      lengthPrefixed? [domain, asBytes ctx.table, asBytes ctx.column, ctx.row.1] = some aad := by
  unfold associatedData
  cases lengthPrefixed? [domain, asBytes ctx.table, asBytes ctx.column, ctx.row.1] <;> simp

lemma asBytes_injective : Function.Injective asBytes := by
  intro s t h
  apply String.toByteArray_inj.mp
  apply ByteArray.ext
  exact Array.toList_inj.mp h

/-- No two places have the same associated data. -/
lemma associatedData_injective {ctx ctx' : SealContext} {aad : Bytes}
    (h : associatedData ctx = .ok aad) (h' : associatedData ctx' = .ok aad) : ctx = ctx' := by
  have hparts := lengthPrefixed_injective (associatedData_eq_ok.1 h) (associatedData_eq_ok.1 h')
  simp only [List.cons.injEq, and_true, true_and] at hparts
  obtain ⟨htable, hcolumn, hrow⟩ := hparts
  cases ctx
  cases ctx'
  simp_all [asBytes_injective.eq_iff, Subtype.ext_iff]

end Postit.Sealing

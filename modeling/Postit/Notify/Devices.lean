import Postit.Data.PushEndpoints
import Postit.Framework.Base64
import Postit.Framework.Results
import Postit.Http.Policy
import Postit.Notify.Push

/-!
# The devices a user registers

What `PushEndpoints` checks of a device, the transaction it registers one in, and what a `push_send`
job reads and sends.  A registration tries twice: its second transaction is for a row that was
written outside the endpoint's lock.

What comes back from the push service is a matter of `settle`, of which the removal of a device and
the time of a success are here.
-/

namespace Postit.Push

open Postit.Framework
open Postit.Data (UserId)
open Postit.Http (AddressPolicy isAllowed)
open Postit.Notify (NotificationId)
open Postit.Sealing (Cipher Codec Key Nonce Sealed Vault VaultError)

/-! ## What is outside -/

/-- The host of a URL. -/
inductive Host
  | ip (addr : IpAddr)
  | domain (name : String)
  deriving DecidableEq

/-- The `url` crate, as far as an endpoint is read.  A printed URL parses to itself. -/
structure Urls where
  Url : Type
  decEq : DecidableEq Url
  parse : Str → Option Url
  asStr : Url → Str
  scheme : Url → String
  host : Url → Option Host
  username : Url → String
  password : Url → Option String
  fragment : Url → Option String
  parse_asStr : ∀ u, parse (asStr u) = some u

instance (urls : Urls) : DecidableEq urls.Url := urls.decEq

lemma Urls.asStr_injective (urls : Urls) : Function.Injective urls.asStr := by
  intro u v h
  have hv := urls.parse_asStr v
  rw [← h, urls.parse_asStr u] at hv
  exact Option.some.inj hv

/-- What the service calls: the curve and the cipher of a push, URLs, SHA-256, the vault's cipher,
and the JSON of a text. -/
structure Outside where
  primitives : Ece.Primitives
  urls : Urls
  sha256 : Bytes → Option EndpointHash
  cipher : Cipher
  codec : Codec Str

/-! ## Registering -/

/-- The longest endpoint URL accepted. -/
def maxEndpointLen : ℕ := 2048

/-- The longest device label accepted, in characters. -/
def maxDeviceLabel : ℕ := 100

/-- A device to register, as the browser or app reports it. -/
structure NewDevice where
  endpoint : Str
  p256dh : Str
  auth : Str
  platform : PushPlatform
  deviceLabel : Str
  deriving DecidableEq

/-- Why registering or removing a device failed. -/
inductive PushEndpointError
  | disabled
  | invalid (field : String)
  | notFound
  | data (e : DataError)
  | vault (e : VaultError)
  deriving DecidableEq, Repr

/-- What the service and the sender have: the vault, whether push is on, and whether `http`
endpoints and private addresses are accepted. -/
structure Deps where
  vault : Vault
  keys : Bool
  allowPrivate : Bool

/-- `char::is_control` -/
def isControl (c : Char) : Bool := c.toNat < 32 ∨ (127 ≤ c.toNat ∧ c.toNat < 160)

/-- `str::trim_end_matches` -/
def trimEndMatches (c : Char) (s : Str) : Str := (s.reverse.dropWhile (· = c)).reverse

/-- A key of a given length, as a browser sends it. -/
def decodeKey (value : Str) (len : ℕ) (field : String) : Except PushEndpointError Bytes :=
  match Base64.decode (trimEndMatches '=' (Str.trim value)) with
  | none => .error (.invalid field)
  | some bytes => if bytes.length = len then .ok bytes else .error (.invalid field)

section Service

variable (o : Outside) (deps : Deps)

/-- Whether a host may be registered.  An address is checked against the policy now, a name on each
send. -/
def hostAllowed (policy : AddressPolicy) : Option Host → Bool
  | some (.ip ip) => isAllowed ip policy
  | some (.domain _) => true
  | none => false

/-- Whether a registration accepts a parsed endpoint. -/
def accepts (url : o.urls.Url) : Bool :=
  (o.urls.scheme url = "https" ∨ (o.urls.scheme url = "http" ∧ deps.allowPrivate)) ∧
    hostAllowed { allowPrivate := deps.allowPrivate } (o.urls.host url) ∧
    o.urls.username url = "" ∧ o.urls.password url = none ∧ o.urls.fragment url = none

def validateEndpoint (endpoint : Str) : Except PushEndpointError o.urls.Url :=
  if maxEndpointLen < endpoint.utf8Len then .error (.invalid "endpoint")
  else
    match o.urls.parse (Str.trim endpoint) with
    | none => .error (.invalid "endpoint")
    | some url => if accepts o deps url then .ok url else .error (.invalid "endpoint")

def validateLabel (label : Str) : Except PushEndpointError Str :=
  let label := Str.trim label
  if maxDeviceLabel < label.length ∨ label.any isControl then .error (.invalid "device_label")
  else .ok label

/-- The UTF-8 of an endpoint. -/
def endpointBytes (url : o.urls.Url) : Bytes := (o.urls.asStr url).toUtf8

/-- A device that passed the checks. -/
structure Registration where
  endpoint : o.urls.Url
  hash : EndpointHash
  hash_eq : o.sha256 (endpointBytes o endpoint) = some hash
  p256dh : Bytes
  auth : Bytes
  platform : PushPlatform
  deviceLabel : Str

def checkEnabled : Except PushEndpointError Unit :=
  if deps.keys then .ok () else .error .disabled

/-- The hash of an endpoint. -/
def hashEndpoint (url : o.urls.Url) :
    Except PushEndpointError { hash // o.sha256 (endpointBytes o url) = some hash } :=
  match (o.sha256 (endpointBytes o url)).attach with
  | none => .error (.invalid "endpoint")
  | some hash => .ok hash

/-- The registration of a device. -/
def validate (device : NewDevice) : Except PushEndpointError (Registration o) := do
  checkEnabled deps
  let url ← validateEndpoint o deps device.endpoint
  let p256dh ← decodeKey device.p256dh Ece.publicKeyLen "p256dh"
  let _ ← (Ece.parsePublicKey o.primitives p256dh).mapError fun _ => .invalid "p256dh"
  let auth ← decodeKey device.auth Ece.authLen "auth"
  let label ← validateLabel device.deviceLabel
  let ⟨hash, hash_eq⟩ ← hashEndpoint o url
  return ⟨url, hash, hash_eq, p256dh, auth, device.platform, label⟩

/-- What sealing a value draws. -/
structure Draws where
  dek : Key
  wrapNonce : Nonce
  dataNonce : Nonce
  deriving DecidableEq

/-- Seals a value for a column of the row. -/
def sealFor (id : PushEndpointId) (value : Str) (column : String) (draws : Draws) :
    Except PushEndpointError Sealed :=
  (deps.vault.sealParts o.cipher o.codec value (PushEndpointRepo.sealContext id column) draws.dek
    draws.wrapNonce draws.dataNonce).mapError .vault

/-- One transaction of a registration: the state it begins in under the endpoint's lock, the ID it
generates if it finds none, and what it draws. -/
structure Round where
  db : Devices
  fresh : PushEndpointId
  endpoint : Draws
  p256dh : Draws
  auth : Draws
  now : Time

/-- The row to register, sealed for its ID. -/
def sealDevice (user : UserId) (reg : Registration o) (id : PushEndpointId) (round : Round) :
    Except PushEndpointError NewPushEndpoint := do
  let endpoint ← sealFor o deps id (o.urls.asStr reg.endpoint) "endpoint" round.endpoint
  let p256dh ← sealFor o deps id (Base64.encode reg.p256dh) "p256dh" round.p256dh
  let auth ← sealFor o deps id (Base64.encode reg.auth) "auth" round.auth
  return ⟨id, user, endpoint, reg.hash, p256dh, auth, reg.platform, reg.deviceLabel⟩

/-- The transaction of a round. -/
def registerTx (user : UserId) (reg : Registration o) (round : Round) :
    Except PushEndpointError (PushEndpointId × Devices) := do
  let id := (PushEndpointRepo.findId round.db user reg.hash).getD round.fresh
  let new ← sealDevice o deps user reg id round
  let (id, db) ← (PushEndpointRepo.upsert round.db new round.now).mapError .data
  return (id, PushEndpointRepo.deleteForOtherUsers db user reg.hash)

/-- The rounds, up to the first that does not find another ID stored. -/
def registerRounds (user : UserId) (reg : Registration o) (last : Option DataError) :
    List Round → Except PushEndpointError (PushEndpointId × Devices)
  | [] => .error (last.elim .notFound .data)
  | round :: rounds =>
    match registerTx o deps user reg round with
    | .error (.data (.conflict text)) => registerRounds user reg (some (.conflict text)) rounds
    | result => result

/-- Registers one of the user's devices. -/
def register (user : UserId) (device : NewDevice) (first second : Round) :
    Except PushEndpointError (PushEndpointId × Devices) := do
  let reg ← validate o deps device
  registerRounds o deps user reg none [first, second]

end Service

/-- Removes one of the user's devices. -/
def delete (db : Devices) (user : UserId) (id : PushEndpointId) :
    Except PushEndpointError Unit × Devices :=
  let (found, db') := PushEndpointRepo.delete db user id
  (if found then .ok () else .error .notFound, db')

/-! ## Sending -/

/-- `push_send`: one notification to one device. -/
structure PushSend where
  notification : NotificationId
  endpoint : PushEndpointId
  deriving DecidableEq

/-- `notifications`: whose each is, and what it tells. -/
abbrev Notifications := Table NotificationId (UserId × Notice)

/-- One of the user's notifications. -/
def getForUser (notifications : Notifications) (user : UserId) (id : NotificationId) :
    Option NotificationRow :=
  match notifications.lookup id with
  | some (owner, notice) => if owner = user then some ⟨id, notice⟩ else none
  | none => none

/-- The device and the notification of a job, if both still exist. -/
def readJob (db : Devices) (notifications : Notifications) (job : PushSend) :
    Option (PushEndpointRow × NotificationRow) :=
  match PushEndpointRepo.get db job.endpoint with
  | none => none
  | some row => (getForUser notifications row.user job.notification).map fun n => (row, n)

section Sender

variable (o : Outside) (deps : Deps)

/-- A device's opened values. -/
structure Opened extends Device where
  url : o.urls.Url

/-- Opens a value sealed for a column of the row. -/
def openFor (id : PushEndpointId) (value : Sealed) (column : String) : Except Fatal Str :=
  (deps.vault.open_ o.cipher o.codec value (PushEndpointRepo.sealContext id column)).mapError
    fun _ => ⟨"stored push endpoint cannot be opened"⟩

/-- A stored value, read. -/
def orMalformed {α : Type} (value : Option α) : Except Fatal α :=
  value.elim (.error ⟨"stored push endpoint is malformed"⟩) .ok

/-- The values of a row. -/
def openRow (id : PushEndpointId) (row : PushEndpointRow) : Except Fatal (Opened o) := do
  let url ← openFor o deps id row.endpoint "endpoint"
  let p256dh ← openFor o deps id row.p256dh "p256dh"
  let auth ← openFor o deps id row.auth "auth"
  let url ← orMalformed (o.urls.parse url)
  let p256dh ← orMalformed (Base64.decode p256dh)
  let auth ← orMalformed (Base64.decode auth)
  return { p256dh, auth, url }

/-- What a job posts, and where. -/
structure Outgoing where
  url : o.urls.Url
  body : Bytes
  notification : NotificationRow

/-- What a job posts: nothing when push is off or when the device or the notification is gone.
`locales` has the users' preferences. -/
def outgoing (db : Devices) (notifications : Notifications) (locales : Table UserId String)
    (job : PushSend) (sender : Option o.primitives.SecretKey) (salt : Option Ece.Salt) :
    Except Fatal (Option (Outgoing o)) :=
  if deps.keys then
    match readJob db notifications job with
    | none => .ok none
    | some (row, notification) => do
      let locale := ((locales.lookup row.user).bind Locale.fromTag).getD .enUs
      let device ← openRow o deps job.endpoint row
      let body ← message o.primitives notification locale device.toDevice sender salt
      return some ⟨device.url, body, notification⟩
  else .ok none

end Sender

end Postit.Push

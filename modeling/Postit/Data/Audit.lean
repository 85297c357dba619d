import Postit.Core.Documents
import Postit.Framework.Bytes
import Postit.Framework.Results
import Postit.Identity.Users

/-!
# The audit log

Events are built by `AuditEvent`, whose builder keeps references to users under details keys that
end in `_user_id`, and written by `AuditLog.record`, which refuses one to a user whose row is gone.
`AuditLog.pseudonymizeUser` replaces every reference to a user by the user's pseudonym.

The MAC and the text of a UUID are outside: `Uuids` carries what is documented of them.
-/

namespace Postit.Audit

open Postit.Framework
open Postit.Identity (UserStatus)

/-! ## Users' IDs and pseudonyms -/

/-- A UUID. -/
abbrev Uuid := { bytes : Bytes // bytes.length = 16 }

/-- The version of a UUID: the upper half of byte 6. -/
def Uuid.version (id : Uuid) : UInt8 := (id.1.getD 6 0) >>> 4

/-- HMAC-SHA256, of a key and a message; and the text of a UUID, which parses to it. -/
structure Uuids where
  mac : Bytes → Bytes → Bytes
  length_mac : ∀ key msg, (mac key msg).length = 32
  text : Uuid → String
  parse : String → Option Uuid
  parse_text : ∀ id, parse (text id) = some id

variable (uuids : Uuids)

/-- The MAC of the user's ID, truncated and stamped as version 8 with the RFC 4122 variant. -/
def pseudonymFor (key : Bytes) (user : Uuid) : Uuid :=
  let digest := (uuids.mac key user.1).take 16
  let versioned := digest.modify 6 fun b => (b &&& 0x0f) ||| 0x80
  let stamped := versioned.modify 8 fun b => (b &&& 0x3f) ||| 0x80
  ⟨stamped, by simp [stamped, versioned, digest, uuids.length_mac]⟩

/-! ## Events -/

/-- The kinds of audited event. -/
inductive AuditEventKind
  | userProvisioned
  | userApproved
  | userDisabled
  | userEnabled
  | roleChanged
  | bootstrapAdminGranted
  | userDeleted
  | emailSent
  | emailDropped
  | emailFailed
  | jobRetried
  | jobCancelled
  | jobDeleted
  | jobTriggered
  | vaultRotationStarted
  | vaultRotationCompleted
  | accountConnected
  | accountDisconnected
  | accountNeedsReconnect
  | accountsImported
  | accountRevokedByPlatform
  | delegationGranted
  | delegationChanged
  | delegationRevoked
  | delegationLeft
  | delegationExpired
  | publishConfirmed
  | publishJobRescheduled
  | publishJobCancelled
  | deliveryCancelled
  | deliveryRetried
  | deliveryResolved
  | deliveryPublished
  | deliveryDeadLettered
  | deliveryOutcomeUnknown
  | contactListDeleted
  | suppressionRemoved
  | contactsImported
  | contactsExported
  | aiProviderCreated
  | aiProviderUpdated
  | aiProviderDeleted
  | aiProviderKeyChanged
  deriving DecidableEq, Repr

/-- A misuse of the builder's user-reference keys. -/
inductive AuditError
  | keyMustEndUserId (key : String)
  | keyMustNotEndUserId (key : String)
  deriving DecidableEq, Repr

abbrev IpAddr := String

/-- Where an audited action came from. -/
structure AuditContext where
  ip : Option IpAddr := none
  requestId : Option Uuid := none

/-- The end of a details key that holds a user's ID. -/
def userIdSuffix : String := "_user_id"

/-- `str::ends_with` -/
def endsWith (key suff : String) : Bool := suff.toList.isSuffixOf key.toList

/-- An event as its builder makes it: what is under a key that ends in `_user_id` is the ID of a
user. -/
structure AuditEvent where
  kind : AuditEventKind
  actorUserId : Option Uuid := none
  ownerId : Option Uuid := none
  subjectUserId : Option Uuid := none
  ip : Option IpAddr := none
  requestId : Option Uuid := none
  details : Members := []
  userIds : ∀ m ∈ details, endsWith m.1 userIdSuffix = true → ∃ id, m.2 = .string (uuids.text id)

namespace AuditEvent

variable {uuids}

/-- A new event of `kind` with no references or details. -/
def new (kind : AuditEventKind) : AuditEvent uuids := { kind, userIds := by simp }

/-- The user who performed the action. -/
def actor (event : AuditEvent uuids) (id : Uuid) : AuditEvent uuids :=
  { event with actorUserId := some id }

/-- The owner of the workspace the action touched. -/
def owner (event : AuditEvent uuids) (id : Uuid) : AuditEvent uuids :=
  { event with ownerId := some id }

/-- The user the action was about. -/
def subject (event : AuditEvent uuids) (id : Uuid) : AuditEvent uuids :=
  { event with subjectUserId := some id }

/-- Records the request that caused the event; absent parts stay. -/
def context (event : AuditEvent uuids) (ctx : AuditContext) : AuditEvent uuids :=
  { event with ip := ctx.ip.or event.ip, requestId := ctx.requestId.or event.requestId }

/-- Attaches a reference to a user. -/
def detailUserId (event : AuditEvent uuids) (key : String) (id : Uuid) :
    Except AuditError (AuditEvent uuids) :=
  if endsWith key userIdSuffix then
    .ok
      { event with
        details := event.details.insert key (.string (uuids.text id))
        userIds := by
          intro m hm hkey
          rcases Members.mem_insert hm with rfl | hm
          · exact ⟨id, rfl⟩
          · exact event.userIds m hm hkey }
  else .error (.keyMustEndUserId key)

/-- Attaches any other detail. -/
def detail (event : AuditEvent uuids) (key : String) (value : Json) :
    Except AuditError (AuditEvent uuids) :=
  if hkey : endsWith key userIdSuffix then .error (.keyMustNotEndUserId key)
  else
    .ok
      { event with
        details := event.details.insert key value
        userIds := by
          intro m hm hend
          rcases Members.mem_insert hm with rfl | hm
          · exact absurd hend hkey
          · exact event.userIds m hm hend }

end AuditEvent

/-! ## The tables -/

/-- A row of `audit_events`. -/
structure AuditRow where
  id : ℕ
  recordedAt : Time
  actorUserId : Option Uuid
  ownerId : Option Uuid
  subjectUserId : Option Uuid
  kind : AuditEventKind
  ip : Option IpAddr
  requestId : Option Uuid
  details : Members

/-- The users with their statuses and the audit events; and, which nothing reads, every ID a user
was given and the events as they were written. -/
structure Db where
  users : Table Uuid UserStatus := ∅
  events : List AuditRow := []
  issued : List Uuid := []
  recorded : List AuditRow := []

inductive DataError
  | conflict (reason : String)
  | notFound
  | userDeleting
  deriving DecidableEq, Repr

/-- A part of a pattern of `LIKE`: any text, any character, or this one. -/
inductive Wildcard
  | anyText
  | anyChar
  | char (c : Char)
  deriving DecidableEq, Repr

/-- The parts of a pattern: a backslash takes the next character as it is. -/
def wildcards : List Char → List Wildcard
  | [] => []
  | '\\' :: c :: pattern => .char c :: wildcards pattern
  | '%' :: pattern => .anyText :: wildcards pattern
  | '_' :: pattern => .anyChar :: wildcards pattern
  | c :: pattern => .char c :: wildcards pattern

/-- Whether a text is of the pattern. -/
def fits : List Wildcard → List Char → Bool
  | [], s => s.isEmpty
  | .anyText :: pattern, s => s.tails.any fun rest => fits pattern rest
  | .anyChar :: _, [] | .char _ :: _, [] => false
  | .anyChar :: pattern, _ :: s => fits pattern s
  | .char c :: pattern, d :: s => c = d && fits pattern s

/-- `LIKE` -/
def like (s pattern : String) : Bool := fits (wildcards pattern.toList) s.toList

/-- An `UPDATE` of the events that satisfy the condition, and how many there are. -/
def updateEvents (events : List AuditRow) (p : AuditRow → Bool) (f : AuditRow → AuditRow) :
    List AuditRow × ℕ :=
  (events.map fun row => if p row then f row else row, events.countP p)

/-- Whether a JSON value is the text. -/
def isText (value : Json) (text : String) : Bool :=
  match value with
  | .string s => s = text
  | _ => false

namespace AuditLog

variable {uuids}

/-- The users an event refers to, each once. -/
def referenced (event : AuditEvent uuids) : List Uuid :=
  ([event.actorUserId, event.ownerId, event.subjectUserId].reduceOption ++
    (event.details.filter fun m => endsWith m.1 userIdSuffix).filterMap fun m =>
      match m.2 with
      | .string s => uuids.parse s
      | _ => none).dedup

/-- The row of an event. -/
def row (now : Time) (id : ℕ) (event : AuditEvent uuids) : AuditRow where
  id := id
  recordedAt := now
  actorUserId := event.actorUserId
  ownerId := event.ownerId
  subjectUserId := event.subjectUserId
  kind := event.kind
  ip := event.ip
  requestId := event.requestId
  details := event.details

/-- Writes an event, unless a user it refers to is gone. -/
def record (db : Db) (now : Time) (id : ℕ) (event : AuditEvent uuids) : Except DataError Db :=
  let referenced := referenced event
  let locked := referenced.filter fun id => (db.users.lookup id).isSome
  if locked.length ≠ referenced.length then .error (.conflict "audit references a deleted user")
  else
    .ok
      { db with
        events := db.events ++ [row now id event]
        recorded := db.recorded ++ [row now id event] }

variable (uuids)

/-- The keys the rewrite of the details looks at. -/
def isUserIdKey (key : String) : Bool := like key "%\\_user\\_id"

/-- Replaces every reference to the user by the pseudonym, and clears the address of the events the
user performed; the rows touched. -/
def pseudonymizeUser (events : List AuditRow) (user : Uuid) (key : Bytes) : List AuditRow × ℕ :=
  let pseudo := pseudonymFor uuids key user
  let rawText := uuids.text user
  let pseudoText := uuids.text pseudo
  let (events, n₁) := updateEvents events (fun r => r.actorUserId = some user ∧ r.ip.isSome)
    ({ · with ip := none })
  let (events, n₂) := updateEvents events (fun r => r.actorUserId = some user)
    ({ · with actorUserId := some pseudo })
  let (events, n₃) := updateEvents events (fun r => r.ownerId = some user)
    ({ · with ownerId := some pseudo })
  let (events, n₄) := updateEvents events (fun r => r.subjectUserId = some user)
    ({ · with subjectUserId := some pseudo })
  let (events, n₅) := updateEvents events
    (fun r => r.details.any fun m => isUserIdKey m.1 && isText m.2 rawText)
    fun r =>
      { r with
        details := r.details.map fun m =>
          (m.1, if isUserIdKey m.1 && isText m.2 rawText then .string pseudoText else m.2) }
  (events, n₁ + n₂ + n₃ + n₄ + n₅)

end AuditLog

end Postit.Audit

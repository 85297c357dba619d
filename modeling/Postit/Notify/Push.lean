import Postit.Core.Delivery
import Postit.Core.Posts
import Postit.Framework.JsonStrings
import Postit.Notify.Ece
import Postit.Notify.Notifications

/-!
# What a push says

The notices with what a push tells of them, their lines in the catalogue, and the payload of a
message.  A notice's other IDs and the dates of a reconnect notice are left out: no line tells them.
-/

namespace Postit.Push

open Postit.Framework
open Postit.Data (PlatformId)
open Postit.Notify (NotificationKind AccountLabel CommentsNotice)

/-- A UUID, as the number it is. -/
abbrev Uuid := ℕ

/-! ## Notices -/

/-- Payload of the delivery kinds. -/
structure DeliveryNotice where
  jobId : Uuid
  account : AccountLabel
  parkReason : Option ParkReason
  deriving DecidableEq

/-- Payload of `job_partial`. -/
structure JobNotice where
  jobId : Uuid
  failed : UInt32
  deriving DecidableEq

/-- Payload of the account kinds, and what is told of the reconnect-by ones. -/
structure AccountNotice where
  account : AccountLabel
  deriving DecidableEq

/-- Why a recurrence skipped an occurrence. -/
inductive SkipReason
  | aiProviderMissing
  | rewriteInvalid
  | jobActive
  deriving DecidableEq, Repr

/-- Payload of `recurrence_skipped`. -/
structure RecurrenceNotice where
  reason : SkipReason
  deriving DecidableEq

/-- Payload of `delegation_changed`. -/
structure DelegationNotice where
  /-- The other party's display name. -/
  partyName : String
  deriving DecidableEq

/-- A notification with its payload. -/
inductive Notice
  | deliveryDeadLettered (n : DeliveryNotice)
  | deliveryFailed (n : DeliveryNotice)
  | deliveryOutcomeUnknown (n : DeliveryNotice)
  | deliveryParked (n : DeliveryNotice)
  | deliveryStale (n : DeliveryNotice)
  | jobPartial (n : JobNotice)
  | accountNeedsReconnect (n : AccountNotice)
  | accountRevokedByPlatform (n : AccountNotice)
  | reconnectByPassed (n : AccountNotice)
  | recurrenceSkipped (n : RecurrenceNotice)
  | deliveryPublished (n : DeliveryNotice)
  | reconnectReminder (n : AccountNotice)
  | delegationChanged (n : DelegationNotice)
  | newComments (n : CommentsNotice)
  | userPending
  deriving DecidableEq

namespace Notice

def kind : Notice → NotificationKind
  | deliveryDeadLettered _ => .deliveryDeadLettered
  | deliveryFailed _ => .deliveryFailed
  | deliveryOutcomeUnknown _ => .deliveryOutcomeUnknown
  | deliveryParked _ => .deliveryParked
  | deliveryStale _ => .deliveryStale
  | jobPartial _ => .jobPartial
  | accountNeedsReconnect _ => .accountNeedsReconnect
  | accountRevokedByPlatform _ => .accountRevokedByPlatform
  | reconnectByPassed _ => .reconnectByPassed
  | recurrenceSkipped _ => .recurrenceSkipped
  | deliveryPublished _ => .deliveryPublished
  | reconnectReminder _ => .reconnectReminder
  | delegationChanged _ => .delegationChanged
  | newComments _ => .newComments
  | userPending => .userPending

/-- The account a notice names. -/
def account : Notice → Option AccountLabel
  | deliveryDeadLettered n | deliveryFailed n | deliveryOutcomeUnknown n | deliveryParked n
  | deliveryStale n | deliveryPublished n => some n.account
  | accountNeedsReconnect n | accountRevokedByPlatform n | reconnectByPassed n
  | reconnectReminder n => some n.account
  | newComments n => some n.account
  | jobPartial _ | recurrenceSkipped _ | delegationChanged _ | userPending => none

/-- The label a notice's line names: the account's display name, or the other party's name for a
delegation notice. -/
def label : Notice → Option String
  | delegationChanged n => some n.partyName
  | notice => notice.account.map AccountLabel.accountName

end Notice

/-- The kind's name as it is stored. -/
def kindName : NotificationKind → String
  | .deliveryDeadLettered => "delivery_dead_lettered"
  | .deliveryFailed => "delivery_failed"
  | .deliveryOutcomeUnknown => "delivery_outcome_unknown"
  | .deliveryParked => "delivery_parked"
  | .deliveryStale => "delivery_stale"
  | .jobPartial => "job_partial"
  | .accountNeedsReconnect => "account_needs_reconnect"
  | .accountRevokedByPlatform => "account_revoked_by_platform"
  | .reconnectByPassed => "reconnect_by_passed"
  | .recurrenceSkipped => "recurrence_skipped"
  | .deliveryPublished => "delivery_published"
  | .reconnectReminder => "reconnect_reminder"
  | .delegationChanged => "delegation_changed"
  | .newComments => "new_comments"
  | .userPending => "user_pending"

/-! ## The catalogue -/

/-- The locales a text can be rendered in. -/
inductive Locale
  | enUs
  deriving DecidableEq, Repr

def Locale.fromTag (tag : String) : Option Locale := if tag = "en-US" then some .enUs else none

/-- `park-reason-<reason>` -/
def parkReasonText : Locale → Option ParkReason → String
  | .enUs, some .ownerDisabled => "the workspace owner's account is disabled"
  | .enUs, some .accountNeedsReconnect => "the account must be reconnected"
  | .enUs, some .platformUnavailable => "the platform is not available"
  | .enUs, some .platformDisabled => "an administrator turned the platform off"
  | .enUs, some .livePublishDisabled => "live publishing is turned off"
  | .enUs, some .quotaExceeded => "the platform's posting limit was reached"
  | .enUs, some .outcomeUnresolvable =>
    "postit cannot tell whether it went out, so you need to decide"
  | .enUs, none => "something outside postit is blocking it"

/-- `skip-reason-<reason>` -/
def skipReasonText : Locale → SkipReason → String
  | .enUs, .aiProviderMissing => "no AI provider is set up for the rewrite"
  | .enUs, .rewriteInvalid => "the AI rewrite was not usable"
  | .enUs, .jobActive => "the previous occurrence is still publishing"

/-- The arguments of a notice's line: `$account` (`$name` for a delegation notice), `$platform`,
`$count` and `$reason`, translated. -/
structure Args where
  label : Str := []
  platform : Str := []
  reason : Str := []
  count : ℕ := 0
  deriving DecidableEq

/-- The arguments that name an account, with `label` for its name. -/
def accountArgs (a : AccountLabel) (label : String) : Args :=
  { label := label.toList, platform := a.platform.toList }

/-- The arguments of a notice's line, with `label` standing for its label. -/
def noticeArgs (notice : Notice) (locale : Locale) (label : String) : Args :=
  match notice with
  | .deliveryParked n | .deliveryStale n =>
    { accountArgs n.account label with reason := (parkReasonText locale n.parkReason).toList }
  | .deliveryDeadLettered n | .deliveryFailed n | .deliveryOutcomeUnknown n
  | .deliveryPublished n => accountArgs n.account label
  | .accountNeedsReconnect n | .accountRevokedByPlatform n | .reconnectByPassed n
  | .reconnectReminder n => accountArgs n.account label
  | .newComments n => { accountArgs n.account label with count := n.count.toNat }
  | .jobPartial n => { count := n.failed.toNat }
  | .recurrenceSkipped n => { reason := (skipReasonText locale n.reason).toList }
  | .delegationChanged _ => { label := label.toList }
  | .userPending => {}

/-- The arguments of a notice's line, label included. -/
def noticeMessageArgs (notice : Notice) (locale : Locale) : Args :=
  noticeArgs notice locale (notice.label.getD "")

/-- A number as it is shown. -/
def shown (n : ℕ) : Str := (toString n).toList

/-- A text by the plural category of a number. -/
def plural (count : ℕ) (one other : Str) : Str := if count = 1 then one else other

/-- `notice-<kind>` -/
def noticeLine (locale : Locale) (a : Args) (kind : NotificationKind) : Str :=
  match locale, kind with
  | .enUs, .deliveryDeadLettered => "A post to ".toList ++ a.label ++ " on ".toList ++ a.platform ++
      " could not be published after several attempts.".toList
  | .enUs, .deliveryFailed => "A post to ".toList ++ a.label ++ " on ".toList ++ a.platform ++
      " failed.".toList
  | .enUs, .deliveryOutcomeUnknown => "postit could not confirm whether a post to ".toList ++
      a.label ++ " on ".toList ++ a.platform ++ " went out.".toList
  | .enUs, .deliveryParked => "A post to ".toList ++ a.label ++ " on ".toList ++ a.platform ++
      " is on hold: ".toList ++ a.reason ++ ".".toList
  | .enUs, .deliveryStale => "A post to ".toList ++ a.label ++ " on ".toList ++ a.platform ++
      " has been on hold too long and needs you: ".toList ++ a.reason ++ ".".toList
  | .enUs, .jobPartial =>
    plural a.count "A post went out, but one of its accounts failed.".toList
      ("A post went out, but ".toList ++ shown a.count ++ " of its accounts failed.".toList)
  | .enUs, .accountNeedsReconnect => a.label ++ " on ".toList ++ a.platform ++
      " needs to be reconnected.".toList
  | .enUs, .accountRevokedByPlatform => a.platform ++ " revoked postit's access to ".toList ++
      a.label ++ ".".toList
  | .enUs, .reconnectByPassed => "The date to reconnect ".toList ++ a.label ++ " on ".toList ++
      a.platform ++ " has passed.".toList
  | .enUs, .recurrenceSkipped => "A recurring post skipped an occurrence: ".toList ++ a.reason ++
      ".".toList
  | .enUs, .deliveryPublished => "A post to ".toList ++ a.label ++ " on ".toList ++ a.platform ++
      " was published.".toList
  | .enUs, .reconnectReminder => "Reconnect ".toList ++ a.label ++ " on ".toList ++ a.platform ++
      " soon to keep publishing.".toList
  | .enUs, .delegationChanged => "Your shared access with ".toList ++ a.label ++ " changed.".toList
  | .enUs, .newComments =>
    plural a.count (a.label ++ " on ".toList ++ a.platform ++ " has a new comment.".toList)
      (a.label ++ " on ".toList ++ a.platform ++ " has ".toList ++ shown a.count ++
        " new comments.".toList)
  | .enUs, .userPending => "A new user is waiting for approval.".toList

/-- `push-title-<kind>` -/
def pushTitle : Locale → NotificationKind → Str
  | .enUs, .deliveryDeadLettered => "Post not published".toList
  | .enUs, .deliveryFailed => "Post failed".toList
  | .enUs, .deliveryOutcomeUnknown => "Post status unknown".toList
  | .enUs, .deliveryParked => "Post on hold".toList
  | .enUs, .deliveryStale => "Post needs you".toList
  | .enUs, .jobPartial => "Post partly published".toList
  | .enUs, .accountNeedsReconnect => "Reconnect an account".toList
  | .enUs, .accountRevokedByPlatform => "Account access revoked".toList
  | .enUs, .reconnectByPassed => "Reconnect date passed".toList
  | .enUs, .recurrenceSkipped => "Recurring post skipped".toList
  | .enUs, .deliveryPublished => "Post published".toList
  | .enUs, .reconnectReminder => "Reconnect soon".toList
  | .enUs, .delegationChanged => "Shared access changed".toList
  | .enUs, .newComments => "New comments".toList
  | .enUs, .userPending => "New user waiting".toList

/-- `push-body-<kind>`, which repeats the kind's line. -/
def pushBody (locale : Locale) (args : Args) (kind : NotificationKind) : Str :=
  noticeLine locale args kind

/-! ## The message -/

/-- A stored notification. -/
structure NotificationRow where
  id : Uuid
  notice : Notice
  deriving DecidableEq

/-- The tag a notification's pushes share: the job for the failures of a delivery and `job_partial`,
else the notification itself. -/
def pushTag (id : Uuid) : Notice → Uuid
  | .deliveryDeadLettered n | .deliveryFailed n | .deliveryOutcomeUnknown n | .deliveryParked n
  | .deliveryStale n => n.jobId
  | .jobPartial n => n.jobId
  | _ => id

/-- The payload's JSON. -/
def payload (row : NotificationRow) (locale : Locale) : Bytes :=
  let kind := row.notice.kind
  let args := noticeMessageArgs row.notice locale
  (JsonStrings.object
    [("id".toList, (uuidText row.id).toList),
      ("kind".toList, (kindName kind).toList),
      ("title".toList, pushTitle locale kind),
      ("body".toList, pushBody locale args kind),
      ("tag".toList, (uuidText (pushTag row.id row.notice)).toList)]).toUtf8

/-- A device's opened keys. -/
structure Device where
  p256dh : Bytes
  auth : Bytes
  deriving DecidableEq

/-- Why a `push_send` job fails for good. -/
structure Fatal where
  text : String
  deriving DecidableEq, Repr

/-- The body a push to the device carries. -/
def message (p : Ece.Primitives) (row : NotificationRow) (locale : Locale) (device : Device)
    (sender : Option p.SecretKey) (salt : Option Ece.Salt) : Except Fatal Bytes :=
  (Ece.encrypt p (payload row locale) device.p256dh device.auth sender salt).mapError
    fun | .push text => ⟨text⟩

end Postit.Push

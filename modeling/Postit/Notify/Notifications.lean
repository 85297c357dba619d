import Mathlib.Data.List.Induction
import Postit.Data.Schema
import Postit.Framework.Table
import Postit.Identity.Users

/-!
# Notifications

The table `notifications` with what records a row and what takes rows for an email.  `emailed_at`
means settled for email: a row that waits for no email has it from the start.

Push, what a user has read, and the payloads of all kinds but `new_comments` are left out.
-/

namespace Postit.Notify

open Postit.Data (UserId AccountId PlatformId)
open Postit.Framework
open Postit.Identity (UserStatus)

abbrev NotificationId := ℕ

/-- What a notification is about. -/
inductive NotificationKind
  | deliveryDeadLettered
  | deliveryFailed
  | deliveryOutcomeUnknown
  | deliveryParked
  | deliveryStale
  | jobPartial
  | accountNeedsReconnect
  | accountRevokedByPlatform
  | reconnectByPassed
  | recurrenceSkipped
  | deliveryPublished
  | reconnectReminder
  | delegationChanged
  | newComments
  | userPending
  deriving DecidableEq, Repr

inductive Severity
  | info
  | critical
  deriving DecidableEq, Repr

namespace NotificationKind

/-- How urgent the kind is. -/
def severity : NotificationKind → Severity
  | .deliveryPublished | .reconnectReminder | .delegationChanged | .newComments | .userPending =>
    .info
  | _ => .critical

/-- Whether the kind may be emailed at all. -/
def emailAllowed (kind : NotificationKind) : Bool := kind.severity = .critical

/-- Whether email is on when the user has not chosen. -/
def defaultEmail (kind : NotificationKind) : Bool := kind.emailAllowed

end NotificationKind

/-- An account as a notification names it. -/
structure AccountLabel where
  accountId : AccountId
  accountName : String
  platform : PlatformId
  deriving DecidableEq

/-- Payload of `new_comments`. -/
structure CommentsNotice where
  account : AccountLabel
  count : UInt32
  deriving DecidableEq

inductive Notice
  | newComments (n : CommentsNotice)
  | other (kind : NotificationKind) (h : kind ≠ .newComments)
  deriving DecidableEq

def Notice.kind : Notice → NotificationKind
  | .newComments _ => .newComments
  | .other kind _ => kind

/-- A row of `notifications`.  `emailWanted` is what it was recorded with, and no column. -/
structure Row where
  userId : UserId
  ownerId : Option UserId
  notice : Notice
  emailWanted : Bool
  emailedAt : Option Time
  createdAt : Time
  deriving DecidableEq

/-! ## Preferences -/

/-- What a user chose about emails, the choices for single kinds in `switches`. -/
structure UserPreferences where
  emailNotifications : Bool := true
  commentDigest : Bool := false
  switches : Table NotificationKind (Option Bool) := ∅

/-- Whether the kind is emailed: the user's choice, else the kind's default. -/
def UserPreferences.email (p : UserPreferences) (kind : NotificationKind) : Bool :=
  kind.emailAllowed && ((p.switches.lookup kind).bind id).getD kind.defaultEmail

/-- Whether a row of the kind waits for an email. -/
def emailWanted (prefs : Option UserPreferences) (kind : NotificationKind) : Bool :=
  let (master, digest) := match prefs with
    | none => (true, false)
    | some p => (p.emailNotifications, p.commentDigest)
  match kind.severity with
  | .critical => master && (match prefs with
    | none => kind.defaultEmail
    | some p => p.email kind)
  | .info => kind == .newComments && master && digest

/-! ## Recording -/

/-- The two kinds of email about notifications. -/
inductive MailKind
  | notificationAlert
  | commentDigest
  deriving DecidableEq, Repr

/-- A `send_email` job.  The row that an alert is enqueued with is not in its payload. -/
structure SendEmail where
  kind : MailKind
  recipient : UserId
  enqueuedWith : Option NotificationId
  deriving DecidableEq, Repr

/-- What sending needs of a user. -/
structure User where
  status : UserStatus
  emailVerified : Bool
  email : Option String
  deriving DecidableEq

/-- Users and their preferences, the notifications, the IDs given out, and the jobs enqueued. -/
structure Db where
  users : Table UserId User := ∅
  preferences : Table UserId UserPreferences := ∅
  rows : Table NotificationId Row := ∅
  nextId : NotificationId := 0
  jobs : List SendEmail := []

/-- The recipients, each once. -/
def distinct (targets : List (UserId × Option UserId)) : List (UserId × Option UserId) :=
  targets.foldl (fun seen t => if t.1 ∈ seen.map Prod.fst then seen else seen ++ [t]) []

namespace Db

/-- Records the notice for one recipient, and enqueues an alert for a critical row that waits for
an email. -/
def recordFor (now : Time) (notice : Notice) (s : Db) (target : UserId × Option UserId) : Db :=
  let wanted := emailWanted (s.preferences.lookup target.1) notice.kind
  let row : Row :=
    { userId := target.1
      ownerId := target.2
      notice
      emailWanted := wanted
      emailedAt := if wanted then none else some now
      createdAt := now }
  let jobs := if wanted && notice.kind.severity = .critical then
    s.jobs ++ [⟨.notificationAlert, target.1, some s.nextId⟩] else s.jobs
  { s with rows := s.rows.insert s.nextId row, nextId := s.nextId + 1, jobs }

/-- `Notifier::record`, with the recipients resolved. -/
def record (s : Db) (now : Time) (targets : List (UserId × Option UserId)) (notice : Notice) : Db :=
  (distinct targets).foldl (recordFor now notice) s

/-! ## Taking rows -/

/-- The rows an email of the kind is about: critical ones for an alert, new comments for a
digest. -/
def isAbout (r : Row) : MailKind → Bool
  | .notificationAlert => r.notice.kind.severity = .critical
  | .commentDigest => r.notice.kind = .newComments

def isDue (user : UserId) (kind : MailKind) (r : Row) : Bool :=
  r.userId = user ∧ r.emailedAt = none ∧ isAbout r kind

/-- The rows taken, oldest first. -/
def take (s : Db) (user : UserId) (kind : MailKind) : List (NotificationId × Row) :=
  (s.rows.select fun _ r => isDue user kind r).insertionSort fun a b =>
    a.2.createdAt < b.2.createdAt ∨ (a.2.createdAt = b.2.createdAt ∧ a.1 ≤ b.1)

/-- The rows are settled for email. -/
def markEmailed (s : Db) (ids : List NotificationId) (now : Time) : Db :=
  { s with rows := s.rows.updateWhere (fun id _ => id ∈ ids) ({ · with emailedAt := some now }) }

end Db

/-! ## What an email says -/

def saturatingAdd (a b : UInt32) : UInt32 :=
  if a.toNat + b.toNat < 2 ^ 32 then a + b else UInt32.ofNat (2 ^ 32 - 1)

/-- The comments are added to the line of their account, under the newer label, or come in a line
of their own. -/
def addLine (n : CommentsNotice) : List CommentsNotice → List CommentsNotice
  | [] => [n]
  | c :: lines =>
    if c.account.accountId = n.account.accountId then
      { n with count := saturatingAdd c.count n.count } :: lines
    else c :: addLine n lines

/-- One line for each account. -/
def digestLines (comments : List CommentsNotice) : List CommentsNotice :=
  comments.foldl (fun lines n => addLine n lines) []

def Notice.comments : Notice → Option CommentsNotice
  | .newComments n => some n
  | .other _ _ => none

inductive MailContent
  | notificationAlert (notices : List Notice)
  | commentDigest (comments : List CommentsNotice)
  deriving DecidableEq

/-- The content of an email of the kind about the rows, none when there is nothing to say. -/
def content (kind : MailKind) (taken : List (NotificationId × Row)) : Option MailContent :=
  match kind with
  | .notificationAlert =>
    if taken.isEmpty then none else some (.notificationAlert (taken.map fun r => r.2.notice))
  | .commentDigest =>
    let comments := digestLines (taken.filterMap fun r => r.2.notice.comments)
    if comments.isEmpty then none else some (.commentDigest comments)

/-! ## The lines of a digest -/

lemma toNat_saturatingAdd (a b : UInt32) :
    (saturatingAdd a b).toNat = min (a.toNat + b.toNat) (2 ^ 32 - 1) := by
  unfold saturatingAdd
  split_ifs with h
  · rw [UInt32.toNat_add, Nat.mod_eq_of_lt h]
    omega
  · have hmax : (UInt32.ofNat (2 ^ 32 - 1)).toNat = 2 ^ 32 - 1 := rfl
    rw [hmax]
    omega

/-- The comments on one account. -/
def totalOn (comments : List CommentsNotice) (account : AccountId) : ℕ :=
  ((comments.filter fun n => n.account.accountId = account).map fun n => n.count.toNat).sum

lemma totalOn_concat (comments : List CommentsNotice) (n : CommentsNotice) (account : AccountId) :
    totalOn (comments ++ [n]) account =
      totalOn comments account + if n.account.accountId = account then n.count.toNat else 0 := by
  unfold totalOn
  rw [List.filter_append, List.map_append, List.sum_append]
  by_cases h : n.account.accountId = account <;> simp [h]

/-- The accounts of lines. -/
def accounts (lines : List CommentsNotice) : List AccountId :=
  lines.map fun c => c.account.accountId

lemma accounts_addLine (n : CommentsNotice) (lines : List CommentsNotice) :
    accounts (addLine n lines) =
      if n.account.accountId ∈ accounts lines then accounts lines
      else accounts lines ++ [n.account.accountId] := by
  induction lines with
  | nil => rfl
  | cons c lines ih =>
    have hcons : ∀ c lines, accounts (c :: lines) = c.account.accountId :: accounts lines :=
      fun _ _ => rfl
    unfold addLine
    by_cases hc : c.account.accountId = n.account.accountId
    · rw [if_pos hc, if_pos (by simp [hcons, hc])]
      simp [hcons, hc]
    · have hne : ¬ n.account.accountId = c.account.accountId := fun h => hc h.symm
      rw [if_neg hc]
      simp only [hcons, List.mem_cons, hne, false_or, ih]
      by_cases hm : n.account.accountId ∈ accounts lines
      · rw [if_pos hm, if_pos hm]
      · rw [if_neg hm, if_neg hm]
        rfl

lemma mem_addLine {n c : CommentsNotice} {lines : List CommentsNotice}
    (hnodup : (accounts lines).Nodup) (h : c ∈ addLine n lines) :
    (c ∈ lines ∧ c.account.accountId ≠ n.account.accountId) ∨
      (c = n ∧ n.account.accountId ∉ accounts lines) ∨
      ∃ d ∈ lines, d.account.accountId = n.account.accountId ∧
        c = { n with count := saturatingAdd d.count n.count } := by
  induction lines with
  | nil =>
    obtain rfl := List.mem_singleton.mp h
    exact .inr (.inl ⟨rfl, List.not_mem_nil⟩)
  | cons d lines ih =>
    obtain ⟨hd, hrest⟩ := List.nodup_cons.mp hnodup
    unfold addLine at h
    split_ifs at h with hn
    · rcases List.mem_cons.mp h with rfl | hc
      · exact .inr (.inr ⟨d, List.mem_cons_self, hn, rfl⟩)
      · refine .inl ⟨List.mem_cons_of_mem _ hc, fun hcn => hd ?_⟩
        exact List.mem_map.mpr ⟨c, hc, hcn.trans hn.symm⟩
    · rcases List.mem_cons.mp h with rfl | hc
      · exact .inl ⟨List.mem_cons_self, hn⟩
      · rcases ih hrest hc with ⟨hc, hne⟩ | ⟨rfl, hnew⟩ | ⟨e, he, hen, rfl⟩
        · exact .inl ⟨List.mem_cons_of_mem _ hc, hne⟩
        · refine .inr (.inl ⟨rfl, fun hmem => ?_⟩)
          rcases List.mem_cons.mp hmem with heq | hmem
          · exact hn heq.symm
          · exact hnew hmem
        · exact .inr (.inr ⟨e, List.mem_cons_of_mem _ he, hen, rfl⟩)

/-- Each account with comments has one line, with all of them up to the largest count. -/
lemma digestLines_spec (comments : List CommentsNotice) :
    (accounts (digestLines comments)).Nodup ∧
      (∀ account, account ∈ accounts (digestLines comments) ↔ account ∈ accounts comments) ∧
      ∀ c ∈ digestLines comments,
        c.count.toNat = min (totalOn comments c.account.accountId) (2 ^ 32 - 1) := by
  induction comments using List.reverseRecOn with
  | nil => simp [digestLines, accounts]
  | append_singleton comments n ih =>
    obtain ⟨hnodup, hmem, hcounts⟩ := ih
    have hlines : digestLines (comments ++ [n]) = addLine n (digestLines comments) := by
      rw [digestLines, List.foldl_append]
      rfl
    have haccounts := accounts_addLine n (digestLines comments)
    rw [← hlines] at haccounts
    refine ⟨?_, fun account => ?_, fun c hc => ?_⟩
    · rw [haccounts]
      split_ifs with hold
      · exact hnodup
      · refine List.nodup_append.mpr ⟨hnodup, List.nodup_singleton _, ?_⟩
        rintro a ha b hb rfl
        exact hold (List.mem_singleton.mp hb ▸ ha)
    · have hconcat : account ∈ accounts (comments ++ [n]) ↔
          account ∈ accounts comments ∨ account = n.account.accountId := by
        simp [accounts]
      rw [haccounts, hconcat]
      split_ifs with hold
      · refine (hmem account).trans ⟨.inl, ?_⟩
        rintro (h | rfl)
        · exact h
        · exact (hmem _).mp hold
      · rw [List.mem_append, List.mem_singleton, hmem]
    · rw [hlines] at hc
      rw [totalOn_concat]
      have hbound := n.count.toNat_lt
      rcases mem_addLine hnodup hc with ⟨hc, hne⟩ | ⟨rfl, hnew⟩ | ⟨d, hd, hdn, rfl⟩
      · rw [if_neg (Ne.symm hne), Nat.add_zero]
        exact hcounts c hc
      · have hzero : totalOn comments c.account.accountId = 0 := by
          have hnone : ∀ m ∈ comments, ¬ m.account.accountId = c.account.accountId :=
            fun m hm heq => hnew ((hmem _).mpr (List.mem_map.mpr ⟨m, hm, heq⟩))
          rw [totalOn, List.filter_eq_nil_iff.mpr (by simpa using hnone)]
          rfl
        rw [hzero, if_pos rfl]
        omega
      · have hd := hcounts d hd
        rw [hdn] at hd
        show (saturatingAdd d.count n.count).toNat =
          min (totalOn comments n.account.accountId + _) _
        rw [toNat_saturatingAdd, if_pos rfl, hd]
        omega

end Postit.Notify

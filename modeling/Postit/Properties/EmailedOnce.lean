import Postit.Framework.Pool
import Postit.Framework.Trace
import Postit.Mail.Send

/-!
# Emails lose and repeat nothing

A notification is in at most one email, and in none that it was not recorded for.  When a run of
the alert job enqueued with a critical notification has ended in success, an alert with that
notification has been sent (`emailed_once`).  A digest has one line for each account with comments
among the notifications it took, with their sum as far as a `u32` goes (`count_saturates`).
-/

namespace Postit.Notify

open Postit.Data (UserId)
open Postit.Framework

namespace Db

/-- The notification was recorded for the user to be emailed about in emails of the kind. -/
def Suits (s : Db) (user : UserId) (kind : MailKind) (id : NotificationId) : Prop :=
  ∃ r, s.rows.lookup id = some r ∧ r.userId = user ∧ r.emailWanted = true ∧ isAbout r kind = true

def Settled (s : Db) (id : NotificationId) : Prop :=
  ∃ r, s.rows.lookup id = some r ∧ r.emailedAt ≠ none

def notices (s : Db) (ids : List NotificationId) : List Notice :=
  ids.filterMap fun id => (s.rows.lookup id).map Row.notice

/-- The new comments the notifications are about. -/
def comments (s : Db) (ids : List NotificationId) : List CommentsNotice :=
  (s.notices ids).filterMap Notice.comments

/-- What an email of the kind says about the notifications. -/
def mailContent (s : Db) (ids : List NotificationId) : MailKind → MailContent
  | .notificationAlert => .notificationAlert (s.notices ids)
  | .commentDigest => .commentDigest (digestLines (s.comments ids))

/-- An alert is enqueued with a critical notification that it may be about. -/
def JobOk (s : Db) (job : SendEmail) : Prop :=
  ∀ id, job.enqueuedWith = some id →
    job.kind = .notificationAlert ∧ s.Suits job.recipient .notificationAlert id

structure Ok (s : Db) : Prop where
  fresh : ∀ id r, s.rows.lookup id = some r → id < s.nextId
  unwanted : ∀ id r, s.rows.lookup id = some r → r.emailedAt = none → r.emailWanted = true
  enqueued : ∀ id r, s.rows.lookup id = some r → r.emailWanted = true →
    r.notice.kind.severity = .critical → ⟨.notificationAlert, r.userId, some id⟩ ∈ s.jobs
  jobs : ∀ job ∈ s.jobs, s.JobOk job

variable {s t : Db} {user : UserId} {kind : MailKind} {id : NotificationId}
  {ids : List NotificationId}

/-! ### Rows stay -/

/-- No row goes, and of what is in it only `emailed_at` changes. -/
def Keeps (s t : Db) : Prop :=
  ∀ id r, s.rows.lookup id = some r → ∃ emailedAt,
    t.rows.lookup id = some { r with emailedAt } ∧ (r.emailedAt ≠ none → emailedAt ≠ none)

lemma Suits.mono (h : s.Suits user kind id) (hkeeps : s.Keeps t) : t.Suits user kind id := by
  obtain ⟨r, hr, huser, hwanted, habout⟩ := h
  obtain ⟨emailedAt, ht, -⟩ := hkeeps id r hr
  refine ⟨_, ht, huser, hwanted, ?_⟩
  cases kind <;> exact habout

lemma Settled.mono (h : s.Settled id) (hkeeps : s.Keeps t) : t.Settled id := by
  obtain ⟨r, hr, hmarked⟩ := h
  obtain ⟨emailedAt, ht, hstays⟩ := hkeeps id r hr
  exact ⟨_, ht, hstays hmarked⟩

lemma JobOk.mono {job : SendEmail} (h : s.JobOk job) (hkeeps : s.Keeps t) : t.JobOk job :=
  fun id hid => ⟨(h id hid).1, (h id hid).2.mono hkeeps⟩

lemma notices_eq (hkeeps : s.Keeps t) (hids : ∀ id ∈ ids, s.Suits user kind id) :
    t.notices ids = s.notices ids := by
  refine List.filterMap_congr fun id hid => ?_
  obtain ⟨r, hr, -⟩ := hids id hid
  obtain ⟨emailedAt, ht, -⟩ := hkeeps id r hr
  rw [hr, ht]
  rfl

lemma mailContent_eq (hkeeps : s.Keeps t) (hids : ∀ id ∈ ids, s.Suits user kind id) :
    t.mailContent ids kind = s.mailContent ids kind := by
  have hnotices := notices_eq hkeeps hids
  cases kind with
  | notificationAlert => exact congrArg MailContent.notificationAlert hnotices
  | commentDigest =>
    show MailContent.commentDigest (digestLines ((t.notices ids).filterMap _)) = _
    rw [hnotices]
    rfl

/-- The rows there are stay as they are. -/
def Extends (s t : Db) : Prop := ∀ id r, s.rows.lookup id = some r → t.rows.lookup id = some r

lemma Extends.keeps (h : s.Extends t) : s.Keeps t := fun id r hr =>
  ⟨r.emailedAt, h id r hr, fun hmarked => hmarked⟩

lemma Extends.settled (h : s.Extends t) (hsuits : s.Suits user kind id) (ht : t.Settled id) :
    s.Settled id := by
  obtain ⟨r, hr, -⟩ := hsuits
  obtain ⟨r', hr', hmarked⟩ := ht
  obtain rfl := Option.some.inj ((h id r hr).symm.trans hr')
  exact ⟨r, hr, hmarked⟩

/-! ### Recording -/

lemma recordFor_extends (h : s.Ok) (now : Time) (notice : Notice)
    (target : UserId × Option UserId) : s.Extends (s.recordFor now notice target) := by
  intro id r hr
  exact (AList.lookup_insert_ne (h.fresh id r hr).ne).trans hr

/-- A row recorded settled waits for no email. -/
lemma of_lookup_recordFor {now : Time} {notice : Notice} {target : UserId × Option UserId}
    {r : Row} (h : (s.recordFor now notice target).rows.lookup id = some r) :
    s.rows.lookup id = some r ∨ (id = s.nextId ∧ r.userId = target.1 ∧ r.notice = notice ∧
      r.emailWanted = emailWanted (s.preferences.lookup target.1) notice.kind ∧
      (r.emailWanted = true ↔ r.emailedAt = none)) := by
  by_cases hnew : id = s.nextId
  · subst hnew
    obtain rfl := Option.some.inj ((AList.lookup_insert _).symm.trans h)
    refine .inr ⟨rfl, rfl, rfl, rfl, ?_⟩
    show emailWanted _ _ = true ↔ (if _ then none else some now) = none
    split_ifs with hwanted
    · exact iff_of_true hwanted rfl
    · exact iff_of_false hwanted not_false
  · exact .inl ((AList.lookup_insert_ne hnew).symm.trans h)

lemma Ok.recordFor (h : s.Ok) (now : Time) (notice : Notice) (target : UserId × Option UserId) :
    (s.recordFor now notice target).Ok := by
  have hkeeps := (recordFor_extends h now notice target).keeps
  refine ⟨fun id r hr => ?_, fun id r hr hdue => ?_, fun id r hr hwanted hcritical => ?_,
    fun job hjob => ?_⟩
  · rcases of_lookup_recordFor hr with hold | ⟨rfl, -⟩
    · exact (h.fresh id r hold).trans (Nat.lt_succ_self _)
    · exact Nat.lt_succ_self _
  · rcases of_lookup_recordFor hr with hold | ⟨-, -, -, -, hiff⟩
    · exact h.unwanted id r hold hdue
    · exact hiff.mpr hdue
  · show _ ∈ (if _ then s.jobs ++ [_] else s.jobs)
    rcases of_lookup_recordFor hr with hold | ⟨rfl, huser, rfl, hprefs, -⟩
    · have hjob := h.enqueued id r hold hwanted hcritical
      split_ifs
      · exact List.mem_append_left _ hjob
      · exact hjob
    · rw [if_pos (by rw [← hprefs, hwanted, hcritical]; rfl), huser]
      exact List.mem_append_right _ (List.mem_singleton_self _)
  · have hjobs : (s.recordFor now notice target).jobs = if _ then s.jobs ++ [_] else s.jobs := rfl
    rw [hjobs] at hjob
    split_ifs at hjob with hnew
    case neg => exact (h.jobs job hjob).mono hkeeps
    rcases List.mem_append.mp hjob with hold | hnewjob
    · exact (h.jobs job hold).mono hkeeps
    · obtain rfl := List.mem_singleton.mp hnewjob
      rintro id ⟨⟩
      rw [Bool.and_eq_true] at hnew
      exact ⟨rfl, _, AList.lookup_insert _, rfl, hnew.1, hnew.2⟩

/-! ### Taking and marking -/

lemma mem_take {r : Row} :
    (id, r) ∈ s.take user kind ↔ s.rows.lookup id = some r ∧ isDue user kind r = true := by
  rw [take, List.mem_insertionSort, Table.mem_select]

lemma nodup_take : ((s.take user kind).map Prod.fst).Nodup := by
  rw [take, ((List.perm_insertionSort _ _).map Prod.fst).nodup_iff]
  exact Table.nodup_select _ _

lemma suits_of_mem_take (h : s.Ok) (hid : id ∈ (s.take user kind).map Prod.fst) :
    s.Suits user kind id ∧ ¬ s.Settled id := by
  obtain ⟨⟨id, r⟩, hmem, rfl⟩ := List.mem_map.mp hid
  obtain ⟨hr, hdue⟩ := mem_take.1 hmem
  obtain ⟨huser, hopen, habout⟩ := of_decide_eq_true hdue
  refine ⟨⟨r, hr, huser, h.unwanted id r hr hopen, habout⟩, fun ⟨r', hr', hmarked⟩ => ?_⟩
  obtain rfl := Option.some.inj (hr.symm.trans hr')
  exact hmarked hopen

/-- What suits the email and is not settled is taken. -/
lemma mem_take_of_suits (h : s.Suits user kind id) (hopen : ¬ s.Settled id) :
    id ∈ (s.take user kind).map Prod.fst := by
  obtain ⟨r, hr, huser, -, habout⟩ := h
  have hdue : r.emailedAt = none := by_contra fun hmarked => hopen ⟨r, hr, hmarked⟩
  exact List.mem_map.mpr ⟨(id, r), mem_take.2 ⟨hr, decide_eq_true ⟨huser, hdue, habout⟩⟩, rfl⟩

lemma notices_take :
    s.notices ((s.take user kind).map Prod.fst) =
      (s.take user kind).map fun row => row.2.notice := by
  have hmap : ∀ rows : List (NotificationId × Row),
      (∀ row ∈ rows, s.rows.lookup row.1 = some row.2) →
      s.notices (rows.map Prod.fst) = rows.map fun row => row.2.notice := by
    intro rows hrows
    induction rows with
    | nil => rfl
    | cons row rows ih =>
      have hrow := hrows row List.mem_cons_self
      have hrest := ih fun row hmem => hrows row (List.mem_cons_of_mem _ hmem)
      unfold notices at hrest ⊢
      rw [List.map_cons, List.filterMap_cons, hrow, hrest]
      rfl
  exact hmap _ fun row hrow => (mem_take.1 hrow).1

lemma content_take {c : MailContent} (h : content kind (s.take user kind) = some c) :
    c = s.mailContent ((s.take user kind).map Prod.fst) kind := by
  unfold content at h
  cases kind with
  | notificationAlert =>
    simp only at h
    split_ifs at h
    rw [mailContent, notices_take]
    exact (Option.some.inj h).symm
  | commentDigest =>
    simp only at h
    split_ifs at h
    rw [mailContent, comments, notices_take, List.filterMap_map]
    exact (Option.some.inj h).symm

/-- There is nothing to say only when nothing was taken. -/
lemma take_eq_nil (h : content kind (s.take user kind) = none) : s.take user kind = [] := by
  unfold content at h
  cases kind with
  | notificationAlert =>
    simp only at h
    split_ifs at h with hempty
    exact List.isEmpty_iff.mp hempty
  | commentDigest =>
    simp only at h
    split_ifs at h with hempty
    refine List.eq_nil_iff_forall_not_mem.mpr fun ⟨id, r⟩ hmem => ?_
    obtain ⟨-, -, habout⟩ := of_decide_eq_true (mem_take.1 hmem).2
    have hkind : r.notice.kind = .newComments := of_decide_eq_true habout
    obtain ⟨n, hn⟩ : ∃ n, r.notice.comments = some n := by
      cases hnotice : r.notice with
      | newComments n => exact ⟨n, rfl⟩
      | other k hk =>
        rw [hnotice] at hkind
        exact absurd hkind hk
    have haccount : n.account.accountId ∈
        accounts ((s.take user .commentDigest).filterMap fun r => r.2.notice.comments) :=
      List.mem_map.mpr ⟨n, List.mem_filterMap.mpr ⟨_, hmem, hn⟩, rfl⟩
    rw [← (digestLines_spec _).2.1, List.isEmpty_iff.mp hempty] at haccount
    cases haccount

lemma lookup_markEmailed (now : Time) :
    (s.markEmailed ids now).rows.lookup id =
      (s.rows.lookup id).map fun r => if id ∈ ids then { r with emailedAt := some now } else r := by
  have hupdate : (s.markEmailed ids now).rows.lookup id = _ := Table.lookup_updateWhere ..
  simpa only [decide_eq_true_eq] using hupdate

lemma markEmailed_keeps (now : Time) : s.Keeps (s.markEmailed ids now) := by
  intro id r hr
  rw [lookup_markEmailed, hr, Option.map_some]
  split_ifs
  · exact ⟨some now, rfl, fun _ => Option.some_ne_none _⟩
  · exact ⟨r.emailedAt, rfl, fun h => h⟩

/-- Only the marked rows are settled by it. -/
lemma of_settled_markEmailed {now : Time} (h : (s.markEmailed ids now).Settled id) :
    s.Settled id ∨ id ∈ ids := by
  by_cases hid : id ∈ ids
  · exact .inr hid
  · obtain ⟨r, hr, hmarked⟩ := h
    rw [lookup_markEmailed] at hr
    obtain ⟨r', hr', rfl⟩ := Option.map_eq_some_iff.mp hr
    rw [if_neg hid] at hmarked
    exact .inl ⟨r', hr', hmarked⟩

lemma settled_markEmailed (now : Time) (h : s.Suits user kind id) (hid : id ∈ ids) :
    (s.markEmailed ids now).Settled id := by
  obtain ⟨r, hr, -⟩ := h
  refine ⟨{ r with emailedAt := some now }, ?_, Option.some_ne_none _⟩
  rw [lookup_markEmailed, hr, Option.map_some, if_pos hid]

lemma Ok.markEmailed (h : s.Ok) (ids : List NotificationId) (now : Time) :
    (s.markEmailed ids now).Ok := by
  have hrow : ∀ {id r}, (s.markEmailed ids now).rows.lookup id = some r →
      ∃ r', s.rows.lookup id = some r' ∧ r.userId = r'.userId ∧ r.notice = r'.notice ∧
        r.emailWanted = r'.emailWanted ∧ (r.emailedAt = none → r'.emailedAt = none) := by
    intro id r hr
    rw [lookup_markEmailed] at hr
    obtain ⟨r', hr', rfl⟩ := Option.map_eq_some_iff.mp hr
    refine ⟨r', hr', ?_⟩
    split_ifs
    · exact ⟨rfl, rfl, rfl, (fun hdue => nomatch hdue)⟩
    · exact ⟨rfl, rfl, rfl, fun hdue => hdue⟩
  refine ⟨fun id r hr => ?_, fun id r hr hdue => ?_, fun id r hr hwanted hcritical => ?_,
    fun job hjob => (h.jobs job hjob).mono (markEmailed_keeps now)⟩
  · obtain ⟨r', hr', -⟩ := hrow hr
    exact h.fresh id r' hr'
  · obtain ⟨r', hr', -, -, hwanted, hopen⟩ := hrow hr
    rw [hwanted]
    exact h.unwanted id r' hr' (hopen hdue)
  · obtain ⟨r', hr', huser, hnotice, hwanted', -⟩ := hrow hr
    rw [huser]
    exact h.enqueued id r' hr' (hwanted' ▸ hwanted) (hnotice ▸ hcritical)

end Db

end Postit.Notify

namespace Postit.Mail

open Postit.Data (UserId)
open Postit.Framework
open Postit.Notify

namespace World

/-! ## What holds at every committed state -/

/-- The notification is in an alert that was sent. -/
def Alerted (s : World) (id : NotificationId) : Prop :=
  ∃ e ∈ s.sent, e.kind = .notificationAlert ∧ id ∈ e.taken

/-- The run has sent the email about the rows and not committed yet. -/
def Pending (s : World) (id : NotificationId) : Prop :=
  ∃ (i : ℕ) (r : Run) (now : Time) (ids : List NotificationId),
    s.runs[i]? = some r ∧ r.phase = .mailed now ids ∧ id ∈ ids

def EmailOk (s : World) (e : Email) : Prop :=
  (∀ id ∈ e.taken, s.db.Suits e.recipient e.kind id) ∧ e.content = s.db.mailContent e.taken e.kind

/-- A run that goes on has or had the notification its job was enqueued with. -/
def PhaseOk (s : World) (job : SendEmail) : Phase → Prop
  | .started | .locked _ => True
  | .loaded _ ids content =>
    s.EmailOk ⟨job.kind, job.recipient, ids, content⟩ ∧ ids.Nodup ∧
      (∀ id ∈ ids, ¬ s.db.Settled id) ∧
      ∀ id, job.enqueuedWith = some id → id ∈ ids ∨ s.Alerted id
  | .mailed _ ids =>
    (∃ content, ⟨job.kind, job.recipient, ids, content⟩ ∈ s.sent) ∧
      ∀ id, job.enqueuedWith = some id → s.Alerted id
  | .ended outcome => outcome = .sent ∨ outcome = .skipped →
      ∀ id, job.enqueuedWith = some id → s.Alerted id

structure Ok (s : World) : Prop where
  db : s.db.Ok
  runs : ∀ (i : ℕ) r, s.runs[i]? = some r → s.db.JobOk r.job ∧ s.PhaseOk r.job r.phase
  alone : ∀ user, Alone (fun r : Run => r.holdsLock = true ∧ r.job.recipient = user) s.runs
  once : (s.sent.flatMap Email.taken).Nodup
  emails : ∀ e ∈ s.sent, s.EmailOk e ∧ ∀ id ∈ e.taken, s.db.Settled id ∨ s.Pending id
  alerted : ∀ id r, s.db.rows.lookup id = some r → r.emailWanted = true →
    r.notice.kind.severity = .critical → r.emailedAt ≠ none → s.Alerted id

variable {s t : World} {i : ℕ} {r : Run} {p : Phase}

lemma Alerted.mono {id : NotificationId} (h : s.Alerted id) (hsent : s.sent ⊆ t.sent) :
    t.Alerted id := by
  obtain ⟨e, he, hkind, hid⟩ := h
  exact ⟨e, hsent he, hkind, hid⟩

lemma EmailOk.mono {e : Email} (h : s.EmailOk e) (hkeeps : s.db.Keeps t.db) : t.EmailOk e := by
  refine ⟨fun id hid => (h.1 id hid).mono hkeeps, ?_⟩
  rw [Db.mailContent_eq hkeeps h.1]
  exact h.2

/-- What is settled meanwhile is nothing the run has loaded. -/
lemma PhaseOk.mono {job : SendEmail} (h : s.PhaseOk job p) (hkeeps : s.db.Keeps t.db)
    (hsent : s.sent ⊆ t.sent)
    (hopen : ∀ now ids content, p = .loaded now ids content →
      ∀ id ∈ ids, t.db.Settled id → s.db.Settled id) : t.PhaseOk job p := by
  cases p with
  | started => trivial
  | locked now => trivial
  | loaded now ids content =>
    obtain ⟨hemail, hnodup, hunsettled, hcovers⟩ := h
    refine ⟨hemail.mono hkeeps, hnodup, fun id hid hsettled => ?_, fun id hid => ?_⟩
    · exact hunsettled id hid (hopen now ids content rfl id hid hsettled)
    · exact (hcovers id hid).imp_right fun halerted => halerted.mono hsent
  | mailed now ids =>
    obtain ⟨⟨content, hmem⟩, hcovers⟩ := h
    exact ⟨⟨content, hsent hmem⟩, fun id hid => (hcovers id hid).mono hsent⟩
  | ended outcome => exact fun hsuccess id hid => (h hsuccess id hid).mono hsent

/-! ## The database changes -/

/-- A change of the database that leaves the rows there as they are, and adds none that is settled
and wanted. -/
lemma Ok.of_extends (h : s.Ok) {db : Db} (hdb : db.Ok) (hextends : s.db.Extends db)
    (hnew : ∀ id r, db.rows.lookup id = some r → s.db.rows.lookup id = some r ∨
      (r.emailWanted = true → r.emailedAt = none)) : ({ s with db } : World).Ok := by
  have hkeeps := hextends.keeps
  refine ⟨hdb, fun i r hi => ?_, h.alone, h.once, fun e he => ?_,
    fun id r hr hwanted hcritical hmarked => ?_⟩
  · obtain ⟨hjob, hphase⟩ := h.runs i r hi
    refine ⟨hjob.mono hkeeps, hphase.mono hkeeps (List.Subset.refl _) ?_⟩
    intro now ids content hloaded id hid
    rw [hloaded] at hphase
    exact hextends.settled (hphase.1.1 id hid)
  · obtain ⟨hemail, hids⟩ := h.emails e he
    exact ⟨hemail.mono hkeeps, fun id hid => (hids id hid).imp_left fun hset => hset.mono hkeeps⟩
  · rcases hnew id r hr with hold | hopen
    · exact h.alerted id r hold hwanted hcritical hmarked
    · exact absurd (hopen hwanted) hmarked

lemma Ok.record (h : s.Ok) (now : Time) (targets : List (UserId × Option UserId))
    (notice : Notice) : ({ s with db := s.db.record now targets notice } : World).Ok := by
  unfold Db.record
  generalize distinct targets = targets
  induction targets generalizing s with
  | nil => exact h
  | cons target targets ih =>
    refine ih (s := { s with db := s.db.recordFor now notice target }) ?_
    refine h.of_extends (h.db.recordFor now notice target)
      (Db.recordFor_extends h.db now notice target) fun id r hr => ?_
    rcases Db.of_lookup_recordFor hr with hold | ⟨-, -, -, -, hiff⟩
    · exact .inl hold
    · exact .inr hiff.mp

/-! ## A run goes on -/

lemma alone_goOn (h : s.Ok) (hi : s.runs[i]? = some r)
    (hlock : ({ r with phase := p } : Run).holdsLock = true →
      r.holdsLock = true ∨ s.isLocked r.job.recipient = false) (user : UserId) :
    Alone (fun r : Run => r.holdsLock = true ∧ r.job.recipient = user)
      (s.runs.set i { r with phase := p }) := by
  by_cases hholds : ({ r with phase := p } : Run).holdsLock = true ∧ r.job.recipient = user
  · obtain ⟨hnow, rfl⟩ := hholds
    rcases hlock hnow with hbefore | hfree
    · exact (h.alone _).set hi ⟨hbefore, rfl⟩ _
    · have hidle : ∀ (j : ℕ) c, s.runs[j]? = some c →
          ¬ (c.holdsLock = true ∧ c.job.recipient = r.job.recipient) := by
        intro j c hj hc
        rw [isLocked, List.any_eq_false] at hfree
        exact hfree c (List.mem_of_getElem? hj) (by simp [hc.1, hc.2])
      intro j k a b hj hk ha hb
      rcases of_getElem?_set hj with ⟨rfl, -⟩ | ⟨-, hold⟩
      · rcases of_getElem?_set hk with ⟨rfl, -⟩ | ⟨-, hold⟩
        · rfl
        · exact absurd hb (hidle k b hold)
      · exact absurd ha (hidle j a hold)
  · refine (h.alone user).of_idle hholds fun j c hj => ?_
    rcases of_getElem?_set hj with ⟨-, rfl⟩ | ⟨-, hold⟩
    · exact .inl rfl
    · exact .inr hold

/-- What is pending in other runs stays pending. -/
lemma Pending.goOn {id : NotificationId} (h : s.Pending id) (hi : s.runs[i]? = some r) :
    (s.goOn i r p).Pending id ∨ ∃ now ids, r.phase = .mailed now ids ∧ id ∈ ids := by
  obtain ⟨j, a, now, ids, hj, hmailed, hid⟩ := h
  by_cases hji : j = i
  · subst hji
    obtain rfl := Option.some.inj (hi.symm.trans hj)
    exact .inr ⟨now, ids, hmailed, hid⟩
  · exact .inl ⟨j, a, now, ids, (List.getElem?_set_ne (Ne.symm hji)).trans hj, hmailed, hid⟩

lemma Ok.goOn (h : s.Ok) (hi : s.runs[i]? = some r)
    (hlock : ({ r with phase := p } : Run).holdsLock = true →
      r.holdsLock = true ∨ s.isLocked r.job.recipient = false)
    (hphase : ∀ now ids, r.phase ≠ .mailed now ids) (hp : s.PhaseOk r.job p) :
    (s.goOn i r p).Ok := by
  refine ⟨h.db, fun j a hj => ?_, alone_goOn h hi hlock, h.once, fun e he => ?_, h.alerted⟩
  · rcases of_getElem?_set hj with ⟨rfl, rfl⟩ | ⟨-, hold⟩
    · exact ⟨(h.runs _ r hi).1, hp⟩
    · exact h.runs j a hold
  · obtain ⟨hemail, hids⟩ := h.emails e he
    refine ⟨hemail, fun id hid => (hids id hid).imp_right fun hpending => ?_⟩
    rcases hpending.goOn hi with hpending | ⟨now, ids, hmailed, -⟩
    · exact hpending
    · exact absurd hmailed (hphase now ids)

lemma phaseOk_locked (now : Time) : s.PhaseOk r.job (s.locked now r) := by
  have hfailed : ∀ {outcome : Outcome}, outcome ≠ .sent → outcome ≠ .skipped →
      s.PhaseOk r.job (.ended outcome) :=
    fun hsent hskipped hsuccess => absurd hsuccess (not_or.mpr ⟨hsent, hskipped⟩)
  unfold locked
  split
  · exact hfailed nofun nofun
  · split
    · exact hfailed nofun nofun
    · trivial

/-- Of the rows that suit the job, those not taken are settled, and then an alert was sent with
them. -/
lemma taken_or_alerted (h : s.Ok) (hjob : s.db.JobOk r.job) {id : NotificationId}
    (hid : r.job.enqueuedWith = some id) :
    id ∈ (s.db.take r.job.recipient r.job.kind).map Prod.fst ∨ s.Alerted id := by
  obtain ⟨hkind, hsuits⟩ := hjob id hid
  by_cases hsettled : s.db.Settled id
  · obtain ⟨row, hrow, -, hwanted, habout⟩ := hsuits
    obtain ⟨row', hrow', hmarked⟩ := hsettled
    obtain rfl := Option.some.inj (hrow.symm.trans hrow')
    exact .inr (h.alerted id row hrow hwanted (of_decide_eq_true habout) hmarked)
  · rw [hkind]
    exact .inl (Db.mem_take_of_suits hsuits hsettled)

/-- Two runs that have loaded or sent an email about one notification are the same. -/
lemma index_eq_of_suits (h : s.Ok) {j : ℕ} {a b : Run} {k l : MailKind} {id : NotificationId}
    (hi : s.runs[i]? = some a) (hj : s.runs[j]? = some b) (ha : a.holdsLock = true)
    (hb : b.holdsLock = true) (hsuits : s.db.Suits a.job.recipient k id)
    (hsuits' : s.db.Suits b.job.recipient l id) : i = j := by
  obtain ⟨row, hrow, huser, -⟩ := hsuits
  obtain ⟨row', hrow', huser', -⟩ := hsuits'
  obtain rfl := Option.some.inj (hrow.symm.trans hrow')
  exact h.alone a.job.recipient i j a b hi hj ⟨ha, rfl⟩ ⟨hb, huser'.symm.trans huser⟩

lemma Ok.load (h : s.Ok) (hi : s.runs[i]? = some r) {now : Time} (hphase : r.phase = .locked now)
    (hstep : s.perform (.load i) = some t) : t.Ok := by
  simp only [perform, hi, hphase] at hstep
  have hholds : r.holdsLock = true := by simp [Run.holdsLock, hphase]
  have hnotmailed : ∀ now ids, r.phase ≠ .mailed now ids := by simp [hphase]
  obtain ⟨hjob, -⟩ := h.runs i r hi
  split at hstep
  · rename_i hnone
    obtain rfl := Option.some.inj hstep
    have hnil := Db.take_eq_nil hnone
    have hok : ({ s with db := s.db.markEmailed [] now } : World).Ok := by
      refine h.of_extends (h.db.markEmailed [] now) (fun id row hrow => ?_) fun id row hrow => ?_
      · rw [Db.lookup_markEmailed, hrow]
        rfl
      · rw [Db.lookup_markEmailed] at hrow
        obtain ⟨row', hrow', rfl⟩ := Option.map_eq_some_iff.mp hrow
        exact .inl hrow'
    rw [hnil]
    refine hok.goOn hi (fun hlock => nomatch hlock) hnotmailed fun _ id hid => ?_
    rcases taken_or_alerted h hjob hid with htaken | halerted
    · rw [hnil] at htaken
      cases htaken
    · exact halerted
  · rename_i content hsome
    obtain rfl := Option.some.inj hstep
    refine h.goOn hi (fun _ => .inl hholds) hnotmailed ⟨⟨fun id hid => ?_, ?_⟩, Db.nodup_take,
      fun id hid => ?_, fun id hid => taken_or_alerted h hjob hid⟩
    · exact (Db.suits_of_mem_take h.db hid).1
    · exact Db.content_take hsome
    · exact (Db.suits_of_mem_take h.db hid).2

lemma Ok.send (h : s.Ok) (hi : s.runs[i]? = some r) {now : Time} {ids : List NotificationId}
    {content : MailContent} (hphase : r.phase = .loaded now ids content) :
    (({ s with sent := s.sent ++ [⟨r.job.kind, r.job.recipient, ids, content⟩] } : World).goOn i r
      (.mailed now ids)).Ok := by
  have hholds : r.holdsLock = true := by simp [Run.holdsLock, hphase]
  obtain ⟨hjob, hloaded⟩ := h.runs i r hi
  rw [hphase] at hloaded
  obtain ⟨hemail, hnodup, hunsettled, hcovers⟩ := hloaded
  have hsent : s.sent ⊆ s.sent ++ [(⟨r.job.kind, r.job.recipient, ids, content⟩ : Email)] :=
    List.subset_append_left _ _
  refine ⟨h.db, fun j a hj => ?_, alone_goOn (s := s) h hi fun _ => .inl hholds, ?_, fun e he => ?_,
    fun id row hrow hwanted hcritical hmarked => ?_⟩
  · rcases of_getElem?_set hj with ⟨rfl, rfl⟩ | ⟨-, hold⟩
    · refine ⟨hjob, ⟨content, List.mem_append_right _ (List.mem_singleton_self _)⟩,
        fun id hid => ?_⟩
      rcases hcovers id hid with htaken | halerted
      · exact ⟨_, List.mem_append_right _ (List.mem_singleton_self _), (hjob id hid).1, htaken⟩
      · exact halerted.mono hsent
    · obtain ⟨hjob', hphase'⟩ := h.runs j a hold
      exact ⟨hjob', hphase'.mono (Db.Extends.keeps fun _ _ h => h) hsent fun _ _ _ _ _ _ h => h⟩
  · show ((s.sent ++ [_]).flatMap Email.taken).Nodup
    rw [List.flatMap_append, List.flatMap_singleton]
    refine List.nodup_append.mpr ⟨h.once, hnodup, ?_⟩
    rintro id hid _ hnew rfl
    obtain ⟨e, he, hid⟩ := List.mem_flatMap.mp hid
    rcases (h.emails e he).2 id hid with hsettled | ⟨j, b, now', ids', hj, hmailed, hid'⟩
    · exact hunsettled id hnew hsettled
    · obtain ⟨-, hb⟩ := h.runs j b hj
      rw [hmailed] at hb
      obtain ⟨⟨content', hmem⟩, -⟩ := hb
      have hbholds : b.holdsLock = true := by simp [Run.holdsLock, hmailed]
      obtain rfl := index_eq_of_suits h hi hj hholds hbholds (hemail.1 id hnew)
        ((h.emails _ hmem).1.1 id hid')
      obtain rfl := Option.some.inj (hi.symm.trans hj)
      rw [hphase] at hmailed
      cases hmailed
  · rcases List.mem_append.mp he with hold | hnew
    · obtain ⟨hok, hids⟩ := h.emails e hold
      refine ⟨hok, fun id hid => (hids id hid).imp_right fun hpending => ?_⟩
      rcases hpending.goOn hi with hpending | ⟨now', ids', hmailed, -⟩
      · exact hpending
      · rw [hphase] at hmailed
        cases hmailed
    · obtain rfl := List.mem_singleton.mp hnew
      refine ⟨hemail, fun id hid => .inr ⟨i, { r with phase := .mailed now ids }, now, ids, ?_, rfl,
        hid⟩⟩
      exact List.getElem?_set_self (List.getElem?_eq_some_iff.mp hi).1
  · exact (h.alerted id row hrow hwanted hcritical hmarked).mono hsent

lemma Ok.commit (h : s.Ok) (hi : s.runs[i]? = some r) {now : Time} {ids : List NotificationId}
    (hphase : r.phase = .mailed now ids) :
    (({ s with db := s.db.markEmailed ids now } : World).goOn i r (.ended .sent)).Ok := by
  have hholds : r.holdsLock = true := by simp [Run.holdsLock, hphase]
  obtain ⟨hjob, hmailed⟩ := h.runs i r hi
  rw [hphase] at hmailed
  obtain ⟨⟨content, hmem⟩, hcovers⟩ := hmailed
  obtain ⟨⟨hsuits, -⟩, -⟩ := h.emails _ hmem
  have hkeeps : s.db.Keeps (s.db.markEmailed ids now) := Db.markEmailed_keeps now
  refine ⟨h.db.markEmailed ids now, fun j a hj => ?_,
    alone_goOn (s := s) h hi (fun hlock => nomatch hlock), h.once, fun e he => ?_,
    fun id row hrow hwanted hcritical hmarked => ?_⟩
  · rcases of_getElem?_set hj with ⟨rfl, rfl⟩ | ⟨hji, hold⟩
    · exact ⟨hjob.mono hkeeps, fun _ id hid => hcovers id hid⟩
    · obtain ⟨hjob', hphase'⟩ := h.runs j a hold
      refine ⟨hjob'.mono hkeeps, hphase'.mono hkeeps (List.Subset.refl _) ?_⟩
      intro now' ids' content' hloaded id hid hsettled
      -- The other run has loaded nothing that this one marks.
      refine (Db.of_settled_markEmailed hsettled).resolve_right fun hmine => hji ?_
      rw [hloaded] at hphase'
      have haholds : a.holdsLock = true := by simp [Run.holdsLock, hloaded]
      exact index_eq_of_suits h hold hi haholds hholds (hphase'.1.1 id hid) (hsuits id hmine)
  · obtain ⟨hemail, hids⟩ := h.emails e he
    refine ⟨hemail.mono hkeeps, fun id hid => ?_⟩
    rcases hids id hid with hsettled | hpending
    · exact .inl (hsettled.mono hkeeps)
    · rcases hpending.goOn hi with hpending | ⟨now', ids', hmailed, hmine⟩
      · exact .inr hpending
      · rw [hphase] at hmailed
        cases hmailed
        exact .inl (Db.settled_markEmailed now (hemail.1 id hid) hmine)
  · have hlookup : (s.db.markEmailed ids now).rows.lookup id = some row := hrow
    rw [Db.lookup_markEmailed] at hlookup
    obtain ⟨row', hrow', rfl⟩ := Option.map_eq_some_iff.mp hlookup
    split_ifs at hwanted hcritical hmarked with hmine
    · refine ⟨_, hmem, ?_, hmine⟩
      obtain ⟨row'', hrow'', -, -, habout⟩ := hsuits id hmine
      obtain rfl := Option.some.inj (hrow'.symm.trans hrow'')
      show r.job.kind = .notificationAlert
      cases hkind : r.job.kind with
      | notificationAlert => rfl
      | commentDigest =>
        rw [hkind] at habout
        have hcomments : row'.notice.kind = .newComments := of_decide_eq_true habout
        rw [hcomments] at hcritical
        cases hcritical
    · exact h.alerted id row' hrow' hwanted hcritical hmarked

lemma ok_empty : ({} : World).Ok := by
  have hnone : ∀ id r, (∅ : Table NotificationId Row).lookup id ≠ some r := by simp
  refine ⟨⟨fun id r hr => absurd hr (hnone id r), fun id r hr => absurd hr (hnone id r),
    fun id r hr => absurd hr (hnone id r), fun _ hjob => absurd hjob List.not_mem_nil⟩,
    fun i r hi => ?_, fun _ i j a b hi => ?_, List.nodup_nil,
    fun _ he => absurd he List.not_mem_nil, fun id r hr => absurd hr (hnone id r)⟩
  · cases hi
  · cases hi

lemma Ok.step {e : Event} (h : s.Ok) (hstep : s.Step e t) : t.Ok := by
  have hrows : ∀ {db : Db}, db.Ok → db.rows = s.db.rows → ({ s with db } : World).Ok := by
    intro db hdb hsame
    refine h.of_extends hdb (fun id row hrow => ?_) fun id row hrow => .inl ?_
    · rw [hsame]
      exact hrow
    · rw [← hsame]
      exact hrow
  cases e with
  | setUser id user =>
    simp only [Step, perform] at hstep
    split_ifs at hstep
    obtain rfl := Option.some.inj hstep
    exact hrows ⟨h.db.fresh, h.db.unwanted, h.db.enqueued, h.db.jobs⟩ rfl
  | setPreferences id preferences =>
    obtain rfl := Option.some.inj hstep
    exact hrows ⟨h.db.fresh, h.db.unwanted, h.db.enqueued, h.db.jobs⟩ rfl
  | record now targets notice =>
    obtain rfl := Option.some.inj hstep
    exact h.record now targets notice
  | enqueueDigest user =>
    obtain rfl := Option.some.inj hstep
    refine hrows ⟨h.db.fresh, h.db.unwanted, fun id row hrow hwanted hcritical => ?_,
      fun job hjob => ?_⟩ rfl
    · exact List.mem_append_left _ (h.db.enqueued id row hrow hwanted hcritical)
    · rcases List.mem_append.mp hjob with hold | hnew
      · exact h.db.jobs job hold
      · obtain rfl := List.mem_singleton.mp hnew
        exact nofun
  | fetch job =>
    obtain ⟨job, hjob, rfl⟩ := Option.map_eq_some_iff.mp hstep
    refine ⟨h.db, fun i r hi => ?_, fun user => ?_, h.once, fun e he => ?_, h.alerted⟩
    · rcases of_getElem?_concat hi with ⟨-, rfl⟩ | hold
      · exact ⟨h.db.jobs job (List.mem_of_getElem? hjob), trivial⟩
      · exact h.runs i r hold
    · refine (h.alone user).of_idle (b := { job }) (fun hholds => nomatch hholds.1) ?_
      intro j c hj
      exact (of_getElem?_concat hj).imp_left And.right
    · obtain ⟨hemail, hids⟩ := h.emails e he
      refine ⟨hemail, fun id hid => (hids id hid).imp_right ?_⟩
      rintro ⟨i, r, now, ids, hi, hmailed, hmem⟩
      have hlt : i < s.runs.length := (List.getElem?_eq_some_iff.mp hi).1
      exact ⟨i, r, now, ids, (List.getElem?_append_left hlt).trans hi, hmailed, hmem⟩
  | lock i now =>
    simp only [Step, perform] at hstep
    split at hstep
    case h_2 => cases hstep
    case h_1 r hi =>
      split_ifs at hstep with hfree
      obtain rfl := Option.some.inj hstep
      refine h.goOn hi (fun _ => .inr (eq_false_of_ne_true hfree.2)) ?_ (phaseOk_locked now)
      simp [hfree.1]
  | load i =>
    have hperform := hstep
    simp only [Step, perform] at hstep
    split at hstep
    case h_2 => cases hstep
    case h_1 r hi =>
      split at hstep
      case h_2 => cases hstep
      case h_1 now hphase => exact h.load hi hphase hperform
  | send i =>
    simp only [Step, perform] at hstep
    split at hstep
    case h_2 => cases hstep
    case h_1 r hi =>
      split at hstep
      case h_2 => cases hstep
      case h_1 now ids content hphase =>
        obtain rfl := Option.some.inj hstep
        exact h.send hi hphase
  | commit i =>
    simp only [Step, perform] at hstep
    split at hstep
    case h_2 => cases hstep
    case h_1 r hi =>
      split at hstep
      case h_2 => cases hstep
      case h_1 now ids hphase =>
        obtain rfl := Option.some.inj hstep
        exact h.commit hi hphase
  | fail i =>
    simp only [Step, perform] at hstep
    split at hstep
    case h_2 => cases hstep
    case h_1 r hi =>
      have hfail : (∀ now ids, r.phase ≠ .mailed now ids) → (s.goOn i r (.ended .failed)).Ok :=
        fun hphase => h.goOn hi (fun hlock => nomatch hlock) hphase fun hsuccess => by
          simp at hsuccess
      split at hstep
      case h_4 => cases hstep
      all_goals
        rename_i hphase
        obtain rfl := Option.some.inj hstep
        exact hfail (by simp [hphase])

/-! ## The emails sent -/

/-- At every committed state: no notification is in two emails or twice in one; every email is
about notifications recorded for it; with every critical one that waits for an email an alert is
enqueued, and a run of it that ended in success leaves the notification in an alert sent; a digest
has one line for each account, with the comments of the notifications it took up to the largest
count. -/
theorem emailed_once {es : List Event} {s : World} (h : Framework.Run Step {} es s) :
    (s.sent.flatMap Email.taken).Nodup ∧
      (∀ e ∈ s.sent, ∀ id ∈ e.taken, s.db.Suits e.recipient e.kind id) ∧
      (∀ id row, s.db.rows.lookup id = some row → row.emailWanted = true →
        row.notice.kind.severity = .critical →
        ⟨.notificationAlert, row.userId, some id⟩ ∈ s.db.jobs) ∧
      (∀ r ∈ s.runs, r.phase = .ended .sent ∨ r.phase = .ended .skipped →
        ∀ id, r.job.enqueuedWith = some id →
          ∃ e ∈ s.sent, e.kind = .notificationAlert ∧ e.recipient = r.job.recipient ∧
            id ∈ e.taken) ∧
      ∀ e ∈ s.sent, e.kind = .commentDigest → ∃ lines, e.content = .commentDigest lines ∧
        (accounts lines).Nodup ∧
        (∀ account, account ∈ accounts lines ↔ account ∈ accounts (s.db.comments e.taken)) ∧
        ∀ line ∈ lines, line.count.toNat =
          min (totalOn (s.db.comments e.taken) line.account.accountId) (2 ^ 32 - 1) := by
  have hok : s.Ok := h.invariant (I := Ok) (fun hstep hs => hs.step hstep) ok_empty
  refine ⟨hok.once, fun e he => (hok.emails e he).1.1, hok.db.enqueued,
    fun r hr hended id hid => ?_, fun e he hkind => ?_⟩
  · obtain ⟨i, hi⟩ := List.getElem?_of_mem hr
    obtain ⟨hjob, hphase⟩ := hok.runs i r hi
    have halerted : s.Alerted id := by
      rcases hended with hended | hended <;> rw [hended] at hphase
      · exact hphase (.inl rfl) id hid
      · exact hphase (.inr rfl) id hid
    obtain ⟨e, he, hkind, hmem⟩ := halerted
    obtain ⟨row, hrow, huser, -⟩ := (hok.emails e he).1.1 id hmem
    obtain ⟨-, row', hrow', huser', -⟩ := hjob id hid
    obtain rfl := Option.some.inj (hrow.symm.trans hrow')
    exact ⟨e, he, hkind, huser.symm.trans huser', hmem⟩
  · have hcontent := (hok.emails e he).1.2
    rw [hkind] at hcontent
    exact ⟨_, hcontent, digestLines_spec _⟩

/-- A critical notification is recorded while an alert with another one is being sent. -/
def recordedMeanwhile : List Event :=
  [.setUser 1 ⟨.active, true, some "a@example.org"⟩,
    .record 0 [(1, none)] (.other .deliveryFailed nofun), .fetch 0, .lock 0 5, .load 0,
    .record 6 [(1, none)] (.other .deliveryParked nofun), .fetch 1, .fetch 1, .send 0, .commit 0,
    .lock 2 7, .load 2, .send 2, .commit 2, .lock 1 8, .load 1]

theorem emailed_once_meanwhile : ∃ s, Framework.Run Step {} recordedMeanwhile s ∧
    s.sent.map Email.taken = [[0], [1]] ∧ (s.sent.flatMap Email.taken).Nodup ∧
    ∃ e ∈ s.sent, e.recipient = 1 ∧ 1 ∈ e.taken := by
  have hrun : (recordedMeanwhile.foldlM perform {}).map (fun s =>
      (s.sent.map Email.taken, s.runs[1]?)) =
      some ([[0], [1]], some ⟨⟨.notificationAlert, 1, some 1⟩, .ended .skipped⟩) := by
    decide
  obtain ⟨s, hs, heq⟩ := Option.map_eq_some_iff.mp hrun
  obtain ⟨hsent, hskipped⟩ := Prod.mk.inj heq
  have hrun : Framework.Run Step {} recordedMeanwhile s := .of_foldlM (fun h => h) hs
  obtain ⟨honce, -, -, halerts, -⟩ := emailed_once hrun
  obtain ⟨e, he, -, hrecipient, hid⟩ :=
    halerts _ (List.mem_of_getElem? hskipped) (.inr rfl) 1 rfl
  exact ⟨s, hrun, hsent, honce, e, he, hrecipient, hid⟩

/-- Two notices about one account, of which the first has the largest count there is. -/
def manyComments : List Event :=
  [.setUser 1 ⟨.active, true, some "a@example.org"⟩, .setPreferences 1 { commentDigest := true },
    .record 0 [(1, none)] (.newComments ⟨⟨7, "name", "youtube"⟩, 4294967295⟩),
    .record 1 [(1, none)] (.newComments ⟨⟨7, "name", "youtube"⟩, 1⟩),
    .enqueueDigest 1, .fetch 0, .lock 0 2, .load 0, .send 0, .commit 0]

/-- **A line's sum stops at the largest count.** -/
theorem count_saturates : ¬ ∀ es (s : World), Framework.Run Step {} es s → ∀ e ∈ s.sent, ∀ lines,
    e.content = .commentDigest lines → ∀ line ∈ lines,
      line.count.toNat = totalOn (s.db.comments e.taken) line.account.accountId := by
  intro h
  have hrun : (manyComments.foldlM perform {}).map (fun s =>
      (s.sent, totalOn (s.db.comments [0, 1]) 7)) =
      some ([⟨.commentDigest, 1, [0, 1], .commentDigest [⟨⟨7, "name", "youtube"⟩, 4294967295⟩]⟩],
        4294967296) := by
    decide
  obtain ⟨s, hs, heq⟩ := Option.map_eq_some_iff.mp hrun
  obtain ⟨hsent, htotal⟩ := Prod.mk.inj heq
  have hline := h _ s (.of_foldlM (fun h => h) hs) _ (by rw [hsent]; exact List.mem_cons_self) _ rfl
    _ List.mem_cons_self
  rw [htotal] at hline
  exact absurd hline (by decide)

end World

end Postit.Mail

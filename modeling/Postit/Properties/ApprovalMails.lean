import Postit.Framework.Pool
import Postit.Framework.Trace
import Postit.Identity.Approvals

/-!
# Approval mails: one per interval, and whom they miss

Of the approval mails that went to one admin and whose runs committed, each began an interval or
more after the one before (`approval_mails_spaced`).

A pending user whose sign-up enqueued a job for an admin is told of in a mail to the admin by the
time a run of the job, or of one it was put off to, has ended in success; the exception is a sign-up
that began before a mail's run did and committed after the mail's list was read
(`sign_up_announced`).
-/

namespace Postit.Identity.Approvals

open Postit.Data (UserId)
open Postit.Framework

variable {interval : Duration} {s t : World} {e : Event} {i j : ℕ} {r : Run} {p : Phase}
  {id a u : UserId} {row : UserRow} {now since m : Instant} {mail : Mail}

/-! ## What a step does -/

/-- A run goes on by itself. -/
inductive Onward (interval : Duration) (s : World) (r : Run) : Phase → Prop
  | lock {now : Instant} (hphase : r.phase = .started) (hfree : s.isLocked r.recipient = false) :
    Onward interval s r (s.locked now r)
  | skip {now : Instant} {recipient : UserRow} (hphase : r.phase = .locked now recipient)
    (hload : load interval s now r.recipient recipient = some .skip) :
    Onward interval s r (.ended .skipped)
  | list {now since : Instant} {recipient : UserRow} {pending : List (UserId × UserRow)}
    (hphase : r.phase = .locked now recipient)
    (hload : load interval s now r.recipient recipient = some (.send since pending)) :
    Onward interval s r (.listed now since pending s.users.keys)
  | count {now since : Instant} {pending : List (UserId × UserRow)} {seen : List UserId}
    (hphase : r.phase = .listed now since pending seen) :
    Onward interval s r (.counted (mailOf r.recipient now pending
      ((pendingAfter s.users since).map Prod.fst) seen))
  | fail : Onward interval s r (.ended .failed)

/-- What a step can make of a world. -/
inductive Does (interval : Duration) (s : World) : World → Prop
  | signUp {id : UserId} {row : UserRow} (hid : id ∉ s.used) :
    Does interval s { s with used := id :: s.used, signUps := s.signUps ++ [{ id, row }] }
  | commitSignUp {i : ℕ} {signUp : SignUp} {jobs : List Job} (hi : s.signUps[i]? = some signUp)
    (hopen : signUp.committed = false) (hjobs : signUp.row.status ≠ .pending ∧ jobs = [] ∨
      ∃ clock, enqueuePendingApprovalEmails interval s clock signUp.id = some jobs) :
    Does interval s { s with
      users := s.users.insert signUp.id signUp.row
      signUps := s.signUps.set i { signUp with committed := true }
      jobs := s.jobs ++ jobs }
  | setUser {id : UserId} {row old : UserRow} (hold : s.users.lookup id = some old)
    (hfree : s.isLocked id = false) (hcreated : row.createdAt.nanos = old.createdAt.nanos)
    (hpending : row.status = .pending → old.status = .pending) :
    Does interval s { s with users := s.users.insert id row }
  | deleteUser {id : UserId} (hfree : s.isLocked id = false) :
    Does interval s { s with users := s.users.erase id, markers := s.markers.erase id }
  | fetch {job : ℕ} {payload : Job} (hjob : s.jobs[job]? = some payload) :
    Does interval s { s with
      runs := s.runs ++ [{ job, recipient := payload.recipient, about := payload.about }] }
  | goOn {i : ℕ} {r : Run} {p : Phase} (hi : s.runs[i]? = some r) (hp : Onward interval s r p) :
    Does interval s (s.goOn i r p)
  | putOff {i : ℕ} {r : Run} {now runAt : Instant} {recipient : UserRow}
    (hi : s.runs[i]? = some r) (hphase : r.phase = .locked now recipient) :
    Does interval s ((s.putOff r runAt).goOn i r (.ended .deferred))
  | send {i : ℕ} {r : Run} {mail : Mail} (hi : s.runs[i]? = some r)
    (hphase : r.phase = .counted mail) :
    Does interval s ({ s with sent := s.sent ++ [mail] }.goOn i r (.mailed mail))
  | commit {i : ℕ} {r : Run} {mail : Mail} (hi : s.runs[i]? = some r)
    (hphase : r.phase = .mailed mail) :
    Does interval s ({ s with
      markers := s.markers.insert r.recipient mail.now
      recorded := s.recorded ++ [mail] }.goOn i r (.ended .sent))

lemma does_of_load (hi : s.runs[i]? = some r) (hstep : s.perform interval (.load i) = some t) :
    Does interval s t := by
  rw [World.perform, hi] at hstep
  dsimp only at hstep
  cases hphase : r.phase with
  | locked now recipient =>
    rw [hphase] at hstep
    dsimp only at hstep
    rcases hload : load interval s now r.recipient recipient with - | (- | at_ | ⟨since, pending⟩)
    all_goals rw [hload] at hstep; dsimp only at hstep
    · cases hstep
      exact .goOn hi .fail
    · cases hstep
      exact .goOn hi (.skip hphase hload)
    · rcases hdefer : deferredTo now at_ with - | runAt
      all_goals rw [hdefer] at hstep; cases hstep
      · exact .goOn hi .fail
      · exact .putOff hi hphase
    · cases hstep
      exact .goOn hi (.list hphase hload)
  | started | listed | counted | mailed | ended =>
    rw [hphase] at hstep
    cases hstep

lemma does_of_step (hstep : World.Step interval s e t) : Does interval s t := by
  rw [World.Step] at hstep
  cases e with
  | signUp id row =>
    rw [World.perform] at hstep
    split at hstep
    · cases hstep
    · next hid =>
      cases hstep
      exact .signUp hid
  | commitSignUp i clock =>
    rw [World.perform] at hstep
    cases hi : s.signUps[i]? with
    | none =>
      rw [hi] at hstep
      cases hstep
    | some signUp =>
      rw [hi] at hstep
      dsimp only at hstep
      split at hstep
      · cases hstep
      next hopen =>
      have hopen := Bool.eq_false_of_not_eq_true hopen
      split at hstep
      · obtain ⟨jobs, hjobs, rfl⟩ := Option.map_eq_some_iff.mp hstep
        exact .commitSignUp hi hopen (.inr ⟨clock, hjobs⟩)
      · next hstatus =>
        cases hstep
        have hdoes : Does interval s _ := .commitSignUp hi hopen (.inl ⟨hstatus, rfl⟩)
        rwa [List.append_nil] at hdoes
  | setUser id row =>
    rw [World.perform] at hstep
    cases hold : s.users.lookup id with
    | none =>
      rw [hold] at hstep
      cases hstep
    | some old =>
      rw [hold] at hstep
      dsimp only at hstep
      split at hstep
      · cases hstep
      next hnot =>
      cases hstep
      push Not at hnot
      exact .setUser hold (Bool.eq_false_of_not_eq_true hnot.1) hnot.2.1 hnot.2.2
  | deleteUser id =>
    rw [World.perform] at hstep
    split at hstep
    · cases hstep
    · next hfree =>
      cases hstep
      exact .deleteUser (Bool.eq_false_of_not_eq_true hfree)
  | fetch job =>
    obtain ⟨payload, hjob, rfl⟩ := Option.map_eq_some_iff.mp hstep
    exact .fetch hjob
  | lock i now =>
    rw [World.perform] at hstep
    cases hi : s.runs[i]? with
    | none => rw [hi] at hstep; cases hstep
    | some r =>
      rw [hi] at hstep
      dsimp only at hstep
      split at hstep
      · next hphase =>
        split at hstep
        · cases hstep
        · next hfree =>
          cases hstep
          exact .goOn hi (.lock hphase (Bool.eq_false_of_not_eq_true hfree))
      · cases hstep
  | load i =>
    cases hi : s.runs[i]? with
    | none => rw [World.perform, hi] at hstep; cases hstep
    | some r => exact does_of_load hi hstep
  | count i =>
    rw [World.perform] at hstep
    cases hi : s.runs[i]? with
    | none => rw [hi] at hstep; cases hstep
    | some r =>
      rw [hi] at hstep
      dsimp only at hstep
      split at hstep
      · next hphase =>
        cases hstep
        exact .goOn hi (.count hphase)
      · cases hstep
  | send i =>
    rw [World.perform] at hstep
    cases hi : s.runs[i]? with
    | none => rw [hi] at hstep; cases hstep
    | some r =>
      rw [hi] at hstep
      dsimp only at hstep
      split at hstep
      · next hphase =>
        cases hstep
        exact .send hi hphase
      · cases hstep
  | commit i =>
    rw [World.perform] at hstep
    cases hi : s.runs[i]? with
    | none => rw [hi] at hstep; cases hstep
    | some r =>
      rw [hi] at hstep
      dsimp only at hstep
      split at hstep
      · next hphase =>
        cases hstep
        exact .commit hi hphase
      · cases hstep
  | fail i =>
    rw [World.perform] at hstep
    cases hi : s.runs[i]? with
    | none => rw [hi] at hstep; cases hstep
    | some r =>
      rw [hi] at hstep
      dsimp only at hstep
      split at hstep
      · cases hstep
      · cases hstep
        exact .goOn hi .fail

/-! ## IDs and locks -/

/-- The users that were there when the run's list was read. -/
def Phase.seen : Phase → List UserId
  | .listed _ _ _ seen => seen
  | .counted mail | .mailed mail => mail.seen
  | .started | .locked .. | .ended _ => []

/-- The mail of a run that has counted. -/
def Phase.mail? : Phase → Option Mail
  | .counted mail | .mailed mail => some mail
  | .started | .locked .. | .listed .. | .ended _ => none

/-- Nothing knows of the user. -/
structure World.Unheard (s : World) (id : UserId) : Prop where
  users : s.users.lookup id = none
  jobs : ∀ job ∈ s.jobs, job.about ≠ id
  runs : ∀ (i : ℕ) r, s.runs[i]? = some r → r.about ≠ id ∧ id ∉ r.phase.seen
  sent : ∀ mail ∈ s.sent, id ∉ mail.seen
  recorded : ∀ mail ∈ s.recorded, mail.recipient ≠ id

/-- IDs are given out once, and the lock on a row is held by one run at a time. -/
structure World.Sound (s : World) : Prop where
  new : ∀ id, id ∉ s.used → s.Unheard id
  opened : ∀ (i : ℕ) signUp, s.signUps[i]? = some signUp →
    signUp.id ∈ s.used ∧ (signUp.committed = false → s.Unheard signUp.id)
  once : ∀ (i j : ℕ) signUp signUp', s.signUps[i]? = some signUp → s.signUps[j]? = some signUp' →
    signUp.id = signUp'.id → i = j
  alone : ∀ user, Alone (fun r : Run => r.holdsLock = true ∧ r.recipient = user) s.runs
  locked : ∀ (i : ℕ) r, s.runs[i]? = some r → r.holdsLock = true →
    s.users.lookup r.recipient ≠ none
  mails : ∀ (i : ℕ) r, s.runs[i]? = some r → ∀ mail ∈ r.phase.mail?, mail.recipient = r.recipient

lemma not_locked (hfree : s.isLocked id = false) (hi : s.runs[i]? = some r)
    (hholds : r.holdsLock = true) : r.recipient ≠ id := by
  rintro rfl
  have hlocked : s.isLocked r.recipient = true :=
    List.any_eq_true.mpr ⟨r, List.mem_of_getElem? hi, by simp [hholds]⟩
  rw [hfree] at hlocked
  cases hlocked

lemma Onward.not_seen (h : Onward interval s r p) (hid : s.users.lookup id = none)
    (hseen : id ∉ r.phase.seen) : id ∉ p.seen := by
  cases h with
  | lock hphase hfree =>
    unfold World.locked
    repeat' split
    all_goals exact List.not_mem_nil
  | skip | fail => exact List.not_mem_nil
  | list hphase hload =>
    intro hmem
    exact AList.lookup_eq_none.mp hid (AList.mem_keys.mpr hmem)
  | count hphase =>
    rw [hphase] at hseen
    exact hseen

lemma Onward.holds (h : Onward interval s r p)
    (hp : ({ r with phase := p } : Run).holdsLock = true) : r.holdsLock = true ∨
      s.isLocked r.recipient = false ∧ s.users.lookup r.recipient ≠ none := by
  cases h with
  | lock hphase hfree =>
    refine .inr ⟨hfree, fun hnone => ?_⟩
    rw [World.locked, hnone] at hp
    cases hp
  | skip | fail => cases hp
  | list hphase | count hphase => exact .inl (by rw [Run.holdsLock, hphase])

lemma Onward.mail_recipient (h : Onward interval s r p) : ∀ mail ∈ p.mail?,
    mail.recipient = r.recipient := by
  cases h with
  | lock hphase hfree =>
    unfold World.locked
    repeat' split
    all_goals exact fun _ hmail => by cases hmail
  | skip | fail | list hphase => exact fun _ hmail => by cases hmail
  | count hphase =>
    intro mail hmail
    cases hmail
    rfl

lemma of_approvalJob {markers : Table UserId Instant} {clock : Instant} {job : Job}
    (h : approvalJob interval markers clock id a = some job) :
    job.recipient = a ∧ job.about = id ∧ job.deferred = false := by
  unfold approvalJob at h
  split at h
  · cases h
    exact ⟨rfl, rfl, rfl⟩
  · obtain ⟨slot, -, rfl⟩ := Option.map_eq_some_iff.mp h
    exact ⟨rfl, rfl, rfl⟩

/-- The jobs that are enqueued are for the sign-up, and there is one for every admin. -/
lemma of_enqueue {clock : Instant} {jobs : List Job}
    (h : enqueuePendingApprovalEmails interval s clock id = some jobs) :
    (∀ job ∈ jobs, job.about = id) ∧ ∀ admin ∈ listActiveAdminIds s.users,
      ∃ job ∈ jobs, job.recipient = admin ∧ job.about = id ∧ job.deferred = false := by
  unfold enqueuePendingApprovalEmails at h
  generalize listActiveAdminIds s.users = admins at h
  induction admins generalizing jobs with
  | nil =>
    obtain rfl : [] = jobs := Option.some.inj h
    exact ⟨fun _ hjob => (List.not_mem_nil hjob).elim,
      fun _ hadmin => (List.not_mem_nil hadmin).elim⟩
  | cons admin admins ih =>
    rw [List.mapM_cons] at h
    obtain ⟨job, hjob, h⟩ := Option.bind_eq_some_iff.mp h
    obtain ⟨rest, hrest, h⟩ := Option.bind_eq_some_iff.mp h
    obtain rfl := Option.some.inj h
    obtain ⟨habout, hall⟩ := ih hrest
    have hone := of_approvalJob hjob
    refine ⟨List.forall_mem_cons.mpr ⟨hone.2.1, habout⟩,
      List.forall_mem_cons.mpr ⟨⟨job, List.mem_cons_self, hone⟩, fun admin' hadmin => ?_⟩⟩
    obtain ⟨job', hmem, hjob'⟩ := hall admin' hadmin
    exact ⟨job', List.mem_cons_of_mem _ hmem, hjob'⟩

namespace World

/-- A run goes on, and what it writes tells nothing of a user nothing knows of. -/
lemma Sound.become (h : s.Sound) {jobs : List Job} {markers : Table UserId Instant}
    {sent recorded : List Mail} (hi : s.runs[i]? = some r)
    (hseen : ∀ id, s.Unheard id → id ∉ p.seen)
    (hholds : ({ r with phase := p } : Run).holdsLock = true → r.holdsLock = true ∨
      s.isLocked r.recipient = false ∧ s.users.lookup r.recipient ≠ none)
    (hmail : ∀ mail ∈ p.mail?, mail.recipient = r.recipient)
    (hjobs : ∀ id, s.Unheard id → ∀ job ∈ jobs, job.about ≠ id)
    (hsent : ∀ id, s.Unheard id → ∀ mail ∈ sent, id ∉ mail.seen)
    (hrecorded : ∀ id, s.Unheard id → ∀ mail ∈ recorded, mail.recipient ≠ id) :
    ({ s with jobs, markers, sent, recorded }.goOn i r p).Sound := by
  have hun : ∀ id, s.Unheard id →
      ({ s with jobs, markers, sent, recorded }.goOn i r p).Unheard id := by
    intro id hid
    refine ⟨hid.users, hjobs id hid, fun j r' hj => ?_, hsent id hid, hrecorded id hid⟩
    rcases of_getElem?_set hj with ⟨-, rfl⟩ | ⟨-, hold⟩
    · exact ⟨(hid.runs i r hi).1, hseen id hid⟩
    · exact hid.runs j r' hold
  refine ⟨fun id hid => hun id (h.new id hid), fun j signUp hj => ?_, h.once, fun user => ?_,
    fun j r' hj hr' => ?_, fun j r' hj => ?_⟩
  · exact ⟨(h.opened j signUp hj).1, fun hopen => hun _ ((h.opened j signUp hj).2 hopen)⟩
  · by_cases hp : ({ r with phase := p } : Run).holdsLock = true ∧ r.recipient = user
    · rcases hholds hp.1 with hbefore | ⟨hfree, -⟩
      · exact (h.alone user).set hi ⟨hbefore, hp.2⟩ _
      · intro j k c d hj hk hc hd
        have hat : ∀ {l : ℕ} {c : Run}, (s.runs.set i { r with phase := p })[l]? = some c →
            c.holdsLock = true ∧ c.recipient = user → l = i := by
          intro l c hl hc
          rcases of_getElem?_set hl with ⟨hli, -⟩ | ⟨-, hold⟩
          · exact hli
          · exact absurd (hc.2.trans hp.2.symm) (not_locked hfree hold hc.1)
        rw [hat hj hc, hat hk hd]
    · refine (h.alone user).of_idle hp fun j c hj => ?_
      exact (of_getElem?_set hj).imp And.right And.right
  · rcases of_getElem?_set hj with ⟨-, rfl⟩ | ⟨-, hold⟩
    · rcases hholds hr' with hbefore | ⟨-, hthere⟩
      · exact h.locked i r hi hbefore
      · exact hthere
    · exact h.locked j r' hold hr'
  · rcases of_getElem?_set hj with ⟨-, rfl⟩ | ⟨-, hold⟩
    · exact hmail
    · exact h.mails j r' hold

/-- The rows change, and no run that has a lock loses its recipient. -/
lemma Sound.rewrite (h : s.Sound) {users : Table UserId UserRow} {markers : Table UserId Instant}
    (hnone : ∀ id, s.users.lookup id = none → users.lookup id = none)
    (hlocked : ∀ (i : ℕ) r, s.runs[i]? = some r → r.holdsLock = true →
      users.lookup r.recipient ≠ none) : ({ s with users, markers } : World).Sound := by
  have hun : ∀ id, s.Unheard id → ({ s with users, markers } : World).Unheard id := fun id hid =>
    ⟨hnone id hid.users, hid.jobs, hid.runs, hid.sent, hid.recorded⟩
  exact ⟨fun id hid => hun id (h.new id hid), fun j signUp hj => ⟨(h.opened j signUp hj).1,
    fun hopen => hun _ ((h.opened j signUp hj).2 hopen)⟩, h.once, h.alone, hlocked, h.mails⟩

lemma Sound.signUp (h : s.Sound) (hid : id ∉ s.used) :
    ({ s with used := id :: s.used, signUps := s.signUps ++ [{ id, row }] } : World).Sound := by
  have hun : ∀ id', s.Unheard id' → ({ s with
      used := id :: s.used, signUps := s.signUps ++ [{ id, row }] } : World).Unheard id' :=
    fun id' hid' => ⟨hid'.users, hid'.jobs, hid'.runs, hid'.sent, hid'.recorded⟩
  refine ⟨fun id' hid' => hun id' (h.new id' fun hmem => hid' (List.mem_cons_of_mem _ hmem)),
    fun j signUp hj => ?_, fun j k signUp signUp' hj hk heq => ?_, h.alone, h.locked, h.mails⟩
  · rcases of_getElem?_concat hj with ⟨-, rfl⟩ | hold
    · exact ⟨List.mem_cons_self, fun _ => hun _ (h.new id hid)⟩
    · have hopened := h.opened j signUp hold
      exact ⟨List.mem_cons_of_mem _ hopened.1, fun hopen => hun _ (hopened.2 hopen)⟩
  · rcases of_getElem?_concat hj with ⟨rfl, rfl⟩ | hold <;>
      rcases of_getElem?_concat hk with ⟨rfl, rfl⟩ | hold'
    · rfl
    · have heq : id = signUp'.id := heq
      exact absurd (heq ▸ (h.opened k signUp' hold').1) hid
    · have heq : signUp.id = id := heq
      exact absurd (heq ▸ (h.opened j signUp hold).1) hid
    · exact h.once j k signUp signUp' hold hold' heq

lemma Sound.commitSignUp (h : s.Sound) {signUp : SignUp} {jobs : List Job}
    (hi : s.signUps[i]? = some signUp) (hjobs : ∀ job ∈ jobs, job.about = signUp.id) :
    ({ s with
      users := s.users.insert signUp.id signUp.row
      signUps := s.signUps.set i { signUp with committed := true }
      jobs := s.jobs ++ jobs } : World).Sound := by
  have hun : ∀ id, id ≠ signUp.id → s.Unheard id → ({ s with
      users := s.users.insert signUp.id signUp.row
      signUps := s.signUps.set i { signUp with committed := true }
      jobs := s.jobs ++ jobs } : World).Unheard id := by
    intro id hne hid
    refine ⟨(AList.lookup_insert_ne hne).trans hid.users, fun job hjob => ?_, hid.runs, hid.sent,
      hid.recorded⟩
    rcases List.mem_append.mp hjob with hold | hnew
    · exact hid.jobs job hold
    · exact fun heq => hne (heq.symm.trans (hjobs job hnew))
  refine ⟨fun id hid => hun id ?_ (h.new id hid), fun j signUp' hj => ?_,
    fun j k a b hj hk heq => ?_, h.alone, fun j r hj hr => ?_, h.mails⟩
  · exact fun heq => hid (heq ▸ (h.opened i signUp hi).1)
  · rcases of_getElem?_set hj with ⟨-, rfl⟩ | ⟨hji, hold⟩
    · exact ⟨(h.opened i signUp hi).1, (fun hopen => by cases hopen)⟩
    · refine ⟨(h.opened j signUp' hold).1, fun hopen => hun _ (fun heq => ?_)
        ((h.opened j signUp' hold).2 hopen)⟩
      exact hji (h.once j i signUp' signUp hold hi heq)
  · have hback : ∀ {l : ℕ} {c : SignUp}, (s.signUps.set i { signUp with committed := true })[l]? =
        some c → ∃ c', s.signUps[l]? = some c' ∧ c'.id = c.id := by
      intro l c hl
      rcases of_getElem?_set hl with ⟨rfl, rfl⟩ | ⟨-, hold⟩
      · exact ⟨signUp, hi, rfl⟩
      · exact ⟨c, hold, rfl⟩
    obtain ⟨a', ha', haid⟩ := hback hj
    obtain ⟨b', hb', hbid⟩ := hback hk
    exact h.once j k a' b' ha' hb' (haid.trans (heq.trans hbid.symm))
  · by_cases heq : r.recipient = signUp.id
    · rw [heq, AList.lookup_insert]
      exact Option.some_ne_none _
    · rw [AList.lookup_insert_ne heq]
      exact h.locked j r hj hr

lemma Unheard.fresh (h : s.Unheard id) (hi : s.runs[i]? = some r)
    (hphase : r.phase.mail? = some mail) : id ∉ mail.seen := by
  have hseen := (h.runs i r hi).2
  cases hp : r.phase <;> rw [hp] at hphase hseen <;> cases hphase <;> exact hseen

lemma about_of_modify {jobs : List Job} {job : Job}
    (h : job ∈ jobs.modify i ({ · with deferred := true })) :
    ∃ job' ∈ jobs, job'.about = job.about := by
  obtain ⟨j, hj⟩ := List.mem_iff_getElem?.mp h
  rw [List.getElem?_modify] at hj
  obtain ⟨job', hjob', rfl⟩ := Option.map_eq_some_iff.mp hj
  refine ⟨job', List.mem_of_getElem? hjob', ?_⟩
  split <;> rfl

lemma Sound.step (h : s.Sound) (hdoes : Does interval s t) : t.Sound := by
  cases hdoes with
  | signUp hid => exact h.signUp hid
  | commitSignUp hi hopen hjobs =>
    refine h.commitSignUp hi ?_
    rcases hjobs with ⟨-, rfl⟩ | ⟨clock, hjobs⟩
    · exact fun _ hjob => (List.not_mem_nil hjob).elim
    · exact (of_enqueue hjobs).1
  | @setUser id row old hold hfree =>
    refine h.rewrite (fun id' hnone => ?_) fun i r hi hholds => ?_
    · refine (AList.lookup_insert_ne fun heq => ?_).trans hnone
      rw [heq, hold] at hnone
      cases hnone
    · rw [AList.lookup_insert_ne (not_locked hfree hi hholds)]
      exact h.locked i r hi hholds
  | @deleteUser id hfree =>
    refine h.rewrite (fun id' hnone => ?_) fun i r hi hholds => ?_
    · by_cases heq : id' = id
      · rw [heq, AList.lookup_erase]
      · rwa [AList.lookup_erase_ne heq]
    · rw [AList.lookup_erase_ne (not_locked hfree hi hholds)]
      exact h.locked i r hi hholds
  | @fetch job payload hjob =>
    have hun : ∀ id, s.Unheard id → World.Unheard { s with runs := s.runs ++
        [{ job, recipient := payload.recipient, about := payload.about }] } id := by
      intro id hid
      refine ⟨hid.users, hid.jobs, fun j r hj => ?_, hid.sent, hid.recorded⟩
      rcases of_getElem?_concat hj with ⟨-, rfl⟩ | hold
      · exact ⟨hid.jobs payload (List.mem_of_getElem? hjob), List.not_mem_nil⟩
      · exact hid.runs j r hold
    refine ⟨fun id hid => hun id (h.new id hid), fun j signUp hj => ⟨(h.opened j signUp hj).1,
      fun hopen => hun _ ((h.opened j signUp hj).2 hopen)⟩, h.once, fun user => ?_,
      fun j r hj hr => ?_, fun j r hj => ?_⟩
    · refine (h.alone user).of_idle
        (b := { job, recipient := payload.recipient, about := payload.about })
        (fun hworking => by cases hworking.1) fun j c hj => ?_
      exact (of_getElem?_concat hj).imp_left And.right
    · rcases of_getElem?_concat hj with ⟨-, rfl⟩ | hold
      · cases hr
      · exact h.locked j r hold hr
    · rcases of_getElem?_concat hj with ⟨-, rfl⟩ | hold
      · exact fun _ hmail => by cases hmail
      · exact h.mails j r hold
  | @goOn i r p hi hp =>
    exact h.become hi (fun id hid => hp.not_seen hid.users (hid.runs i r hi).2) hp.holds
      hp.mail_recipient (fun id hid => hid.jobs) (fun id hid => hid.sent) fun id hid => hid.recorded
  | @putOff i r now runAt recipient hi hphase =>
    refine h.become (p := .ended .deferred) hi (fun _ _ => List.not_mem_nil)
      (fun hp => by cases hp) (fun _ hmail => by cases hmail) (fun id hid job hjob => ?_)
      (fun id hid => hid.sent)
      fun id hid => hid.recorded
    rcases List.mem_append.mp hjob with hold | hnew
    · obtain ⟨job', hmem, habout⟩ := about_of_modify hold
      exact habout ▸ hid.jobs job' hmem
    · obtain rfl := List.mem_singleton.mp hnew
      exact (hid.runs i r hi).1
  | @send i r mail hi hphase =>
    have hmail : r.phase.mail? = some mail := by rw [hphase]; rfl
    refine h.become hi (fun id hid => hid.fresh hi hmail) (fun _ => .inl ?_)
      (fun mail' hmail' => ?_) (fun id hid => hid.jobs) (fun id hid mail' hmem => ?_)
      fun id hid => hid.recorded
    · rw [Run.holdsLock, hphase]
    · cases hmail'
      exact h.mails i r hi mail hmail
    · rcases List.mem_append.mp hmem with hold | hnew
      · exact hid.sent mail' hold
      · exact List.mem_singleton.mp hnew ▸ hid.fresh hi hmail
  | @commit i r mail hi hphase =>
    have hmail : r.phase.mail? = some mail := by rw [hphase]; rfl
    refine h.become (p := .ended .sent) hi (fun _ _ => List.not_mem_nil)
      (fun hp => by cases hp) (fun _ hmail => by cases hmail) (fun id hid => hid.jobs)
      (fun id hid => hid.sent)
      fun id hid mail' hmem => ?_
    rcases List.mem_append.mp hmem with hold | hnew
    · exact hid.recorded mail' hold
    · obtain rfl := List.mem_singleton.mp hnew
      rw [h.mails i r hi mail' hmail]
      rintro rfl
      exact h.locked i r hi (by rw [Run.holdsLock, hphase]) hid.users

end World

/-! ## One mail per interval -/

lemma nextSlot_eq_some {slot : Instant} (h : nextSlot interval m = some slot) :
    slot.nanos = m.nanos + interval.nanos := by
  unfold nextSlot chronoInterval at h
  have hslot := Instant.nanos_of_checkedAddSigned h
  cases hd : TimeDelta.fromStd interval.nanos with
  | some d =>
    rw [hd, Option.getD_some, TimeDelta.nanos_of_ofNanos hd] at hslot
    exact hslot
  | none =>
    -- nothing is that late
    rw [hd, Option.getD_none] at hslot
    have hlast := slot.nanos_le
    have hfirst := m.le_nanos
    have hlong : (longest).nanos = TimeDelta.limit := rfl
    rw [hslot, hlong] at hlast
    simp only [Instant.minUtc, Instant.maxUtc, TimeDelta.limit, maxI64] at hfirst hlast
    omega

/-- What is counted from: the last mail, or when the admin was approved or signed up. -/
def sinceOf (marker : Option Instant) (recipient : UserRow) : Instant :=
  (marker.or recipient.approvedAt).getD recipient.createdAt

lemma load_eq_send {pending : List (UserId × UserRow)}
    (h : load interval s now id row = some (.send since pending)) :
    since = sinceOf (s.markers.lookup id) row ∧ pending = listPendingCreatedAfter s.users since ∧
      ∀ m, s.markers.lookup id = some m → m.nanos + interval.nanos ≤ now.nanos := by
  unfold load at h
  split at h
  · cases h
  dsimp only at h
  split at h
  · cases h
  cases hmarker : s.markers.lookup id with
  | none =>
    rw [hmarker] at h
    cases h
    exact ⟨rfl, rfl, (fun _ hm => by cases hm)⟩
  | some sent =>
    rw [hmarker] at h
    obtain ⟨slot, hslot, h⟩ := Option.map_eq_some_iff.mp h
    split at h
    · cases h
    · next hlate =>
      cases h
      refine ⟨rfl, rfl, fun m hm => ?_⟩
      obtain rfl := Option.some.inj hm
      rw [nextSlot_eq_some hslot] at hlate
      omega

/-- When a run that found the interval over began. -/
def Phase.checked? : Phase → Option Instant
  | .listed now .. => some now
  | .counted mail | .mailed mail => some mail.now
  | .started | .locked .. | .ended _ => none

lemma holdsLock_of_checked {now : Instant} (h : r.phase.checked? = some now) :
    r.holdsLock = true := by
  rw [Run.holdsLock]
  cases hp : r.phase <;> rw [hp] at h <;> first | rfl | cases h

/-- Where both mails went to one admin, the later one's run began the interval after the earlier
one's, or later. -/
def Apart (interval : Duration) (mail later : Mail) : Prop :=
  mail.recipient = later.recipient → mail.now.nanos + interval.nanos ≤ later.now.nanos

/-- The time of the last mail is no earlier than any of those recorded, and a run that found the
interval over still has it over. -/
structure Spaced (interval : Duration) (s : World) : Prop where
  sound : s.Sound
  recorded : ∀ mail ∈ s.recorded, s.users.lookup mail.recipient ≠ none →
    ∃ m, s.markers.lookup mail.recipient = some m ∧ mail.now.nanos ≤ m.nanos
  runs : ∀ (i : ℕ) r, s.runs[i]? = some r → ∀ now, r.phase.checked? = some now →
    ∀ m, s.markers.lookup r.recipient = some m → m.nanos + interval.nanos ≤ now.nanos
  spaced : s.recorded.Pairwise (Apart interval)

lemma Onward.checked (h : Onward interval s r p)
    (hbefore : ∀ now, r.phase.checked? = some now →
      ∀ m, s.markers.lookup r.recipient = some m → m.nanos + interval.nanos ≤ now.nanos) :
    ∀ now, p.checked? = some now →
      ∀ m, s.markers.lookup r.recipient = some m → m.nanos + interval.nanos ≤ now.nanos := by
  cases h with
  | lock hphase hfree =>
    unfold World.locked
    repeat' split
    all_goals exact fun _ hnow => by cases hnow
  | skip | fail => exact fun _ hnow => by cases hnow
  | list hphase hload =>
    intro now hnow
    cases hnow
    exact (load_eq_send hload).2.2
  | count hphase =>
    intro now hnow
    cases hnow
    exact hbefore _ (by rw [hphase]; rfl)

lemma Spaced.step (h : Spaced interval s) (hdoes : Does interval s t) : Spaced interval t := by
  have hsound := h.sound.step hdoes
  cases hdoes with
  | signUp hid => exact ⟨hsound, h.recorded, h.runs, h.spaced⟩
  | @commitSignUp i signUp jobs hi hopen hjobs =>
    refine ⟨hsound, fun mail hmail hthere => h.recorded mail hmail ?_, h.runs, h.spaced⟩
    have hne := ((h.sound.opened i signUp hi).2 hopen).recorded mail hmail
    rwa [AList.lookup_insert_ne hne] at hthere
  | @setUser id row old hold =>
    refine ⟨hsound, fun mail hmail hthere => h.recorded mail hmail fun hnone => ?_, h.runs,
      h.spaced⟩
    refine hthere ((AList.lookup_insert_ne fun heq => ?_).trans hnone)
    rw [heq, hold] at hnone
    cases hnone
  | @deleteUser id hfree =>
    refine ⟨hsound, fun mail hmail hthere => ?_, fun i r hi now hnow m hm => ?_, h.spaced⟩
    · have hne : mail.recipient ≠ id := fun heq => hthere (by rw [heq, AList.lookup_erase])
      rw [AList.lookup_erase_ne hne] at hthere ⊢
      exact h.recorded mail hmail hthere
    · rw [AList.lookup_erase_ne (not_locked hfree hi (holdsLock_of_checked hnow))] at hm
      exact h.runs i r hi now hnow m hm
  | fetch hjob =>
    refine ⟨hsound, h.recorded, fun j r hj => ?_, h.spaced⟩
    rcases of_getElem?_concat hj with ⟨-, rfl⟩ | hold
    · exact fun _ hnow => by cases hnow
    · exact h.runs j r hold
  | @goOn i r p hi hp =>
    refine ⟨hsound, h.recorded, fun j r' hj => ?_, h.spaced⟩
    rcases of_getElem?_set hj with ⟨-, rfl⟩ | ⟨-, hold⟩
    · exact hp.checked (h.runs i r hi)
    · exact h.runs j r' hold
  | @putOff i r now runAt recipient hi hphase =>
    refine ⟨hsound, h.recorded, fun j r' hj => ?_, h.spaced⟩
    rcases of_getElem?_set hj with ⟨-, rfl⟩ | ⟨-, hold⟩
    · exact fun _ hnow => by cases hnow
    · exact h.runs j r' hold
  | @send i r mail hi hphase =>
    refine ⟨hsound, h.recorded, fun j r' hj => ?_, h.spaced⟩
    rcases of_getElem?_set hj with ⟨-, rfl⟩ | ⟨-, hold⟩
    · intro now hnow
      cases hnow
      exact h.runs i r hi _ (by rw [hphase]; rfl)
    · exact h.runs j r' hold
  | @commit i r mail hi hphase =>
    have hmail : mail.recipient = r.recipient := h.sound.mails i r hi mail (by rw [hphase]; rfl)
    have hholds : r.holdsLock = true := by rw [Run.holdsLock, hphase]
    have hover := h.runs i r hi mail.now (by rw [hphase]; rfl)
    have hthere := h.sound.locked i r hi hholds
    have hlater : ∀ earlier ∈ s.recorded, earlier.recipient = mail.recipient →
        earlier.now.nanos + interval.nanos ≤ mail.now.nanos := by
      intro earlier hmem heq
      rw [hmail] at heq
      obtain ⟨m, hm, hle⟩ := h.recorded earlier hmem (heq ▸ hthere)
      have hle' := hover m (heq ▸ hm)
      omega
    refine ⟨hsound, fun mail' hmem hthere' => ?_, fun j r' hj now hnow m hm => ?_, ?_⟩
    · by_cases heq : mail'.recipient = r.recipient
      · refine ⟨mail.now, heq ▸ AList.lookup_insert _, ?_⟩
        rcases List.mem_append.mp hmem with hold | hnew
        · have := hlater mail' hold (heq.trans hmail.symm)
          omega
        · rw [List.mem_singleton.mp hnew]
      · rcases List.mem_append.mp hmem with hold | hnew
        · obtain ⟨m, hm, hle⟩ := h.recorded mail' hold hthere'
          exact ⟨m, (AList.lookup_insert_ne heq).trans hm, hle⟩
        · exact absurd (List.mem_singleton.mp hnew ▸ hmail) heq
    · rcases of_getElem?_set hj with ⟨-, rfl⟩ | ⟨hji, hold⟩
      · cases hnow
      · -- no other run has the lock
        have hne : r'.recipient ≠ r.recipient := fun heq =>
          (h.sound.alone r.recipient).others hi ⟨hholds, rfl⟩ hji hold
            ⟨holdsLock_of_checked hnow, heq⟩
        exact h.runs j r' hold now hnow m ((AList.lookup_insert_ne hne).symm.trans hm)
    · refine List.pairwise_append.mpr ⟨h.spaced, List.pairwise_singleton _ _, ?_⟩
      intro earlier hearlier later hlate
      rw [List.mem_singleton.mp hlate]
      exact hlater earlier hearlier

/-- Nothing has been enqueued, run or sent, and no sign-up is open; the users' IDs are given out. -/
structure World.Start (s : World) : Prop where
  used : ∀ id, id ∉ s.used → s.users.lookup id = none
  signUps : s.signUps = []
  markers : s.markers = ∅
  jobs : s.jobs = []
  runs : s.runs = []
  sent : s.sent = []
  recorded : s.recorded = []

lemma World.Start.sound (h : s.Start) : s.Sound where
  new id hid := ⟨h.used id hid, by simp [h.jobs], by simp [h.runs], by simp [h.sent],
    by simp [h.recorded]⟩
  opened := by simp [h.signUps]
  once := by simp [h.signUps]
  alone user i j r r' hi := by simp [h.runs] at hi
  locked := by simp [h.runs]
  mails := by simp [h.runs]

/-- In every run, of any two approval mails to one admin whose runs committed, the later one's run
began the interval after the earlier one's, or later. -/
theorem approval_mails_spaced (hstart : s.Start) {es : List Event}
    (hrun : Framework.Run (World.Step interval) s es t) :
    t.recorded.Pairwise (Apart interval) := by
  have hspaced : Spaced interval s := by
    refine ⟨hstart.sound, ?_, ?_, ?_⟩
    · simp [hstart.recorded]
    · simp [hstart.runs]
    · simp [hstart.recorded]
  exact (hrun.invariant (fun hstep h => h.step (does_of_step hstep)) hspaced).spaced

/-! ### Two mails -/

/-- A time close to 1970. -/
def sampleTime (n : Fin 1000) : Instant where
  nanos := n.val
  le_nanos := Instant.minUtc_le_zero.trans (Int.natCast_nonneg n.val)
  nanos_le := (Int.ofNat_le.mpr n.isLt.le).trans (by decide)

def sampleRow (role : UserRole) (status : UserStatus) (createdAt : Instant) : UserRow :=
  { role, status, email := some "a@b.example", emailVerified := true, displayName := "A",
    approvedAt := none, createdAt }

def sampleAdmin : UserRow := sampleRow .admin .active (sampleTime 0)

def sampleStart : World where
  users := (∅ : Table UserId UserRow).insert 1 sampleAdmin
  used := [1]

def sampleInterval : Duration := .capped 15

/-- A sign-up and a run that mails it. -/
def sampleMail (i : ℕ) (id : UserId) (created now : Instant) : List Event :=
  [.signUp id (sampleRow .member .pending created), .commitSignUp i created, .fetch i, .lock i now,
    .load i, .count i, .send i, .commit i]

lemma sampleStart_start : sampleStart.Start where
  used _ hid := AList.lookup_insert_ne fun heq => hid (List.mem_singleton.mpr heq)
  signUps := rfl
  markers := rfl
  jobs := rfl
  runs := rfl
  sent := rfl
  recorded := rfl

theorem approval_mails_spaced_sample : ∃ t, Framework.Run (World.Step sampleInterval) sampleStart
    (sampleMail 0 2 (sampleTime 5) (sampleTime 10) ++
      sampleMail 1 3 (sampleTime 11) (sampleTime 30)) t ∧
    t.recorded.length = 2 ∧ t.recorded.Pairwise (Apart sampleInterval) := by
  have hsome : ((sampleMail 0 2 (sampleTime 5) (sampleTime 10) ++
      sampleMail 1 3 (sampleTime 11) (sampleTime 30)).foldlM (World.perform sampleInterval)
        sampleStart).map (fun t => t.recorded.length) = some 2 := rfl
  obtain ⟨t, ht, hlen⟩ := Option.map_eq_some_iff.mp hsome
  have hrun : Framework.Run (World.Step sampleInterval) sampleStart _ t :=
    Framework.Run.of_foldlM (fun h => h) ht
  exact ⟨t, hrun, hlen, approval_mails_spaced sampleStart_start hrun⟩

/-! ## Whom the mails tell of -/

/-- The mail lists the user, or lists as many as it may and counted the user. -/
def Mail.Covers (mail : Mail) (u : UserId) : Prop :=
  u ∈ mail.listed ∨ mail.listed.length = pendingListCap ∧ u ∈ mail.counted

/-- The user was not there when the mail's list was read, though the sign-up had begun when the
mail's run did. -/
def Mail.Overtakes (mail : Mail) (u : UserId) (created : Instant) : Prop :=
  u ∉ mail.seen ∧ created.nanos ≤ mail.now.nanos

/-- A mail to the admin covers the sign-up or has overtaken it. -/
def World.Told (s : World) (a u : UserId) (created : Instant) : Prop :=
  ∃ mail ∈ s.sent, mail.recipient = a ∧ (mail.Covers u ∨ mail.Overtakes u created)

/-- The user is pending and signed up after the admin had been approved. -/
def World.Waits (s : World) (row : UserRow) (u : UserId) (created : Instant) : Prop :=
  ∃ user, s.users.lookup u = some user ∧ user.status = .pending ∧ user.createdAt = created ∧
    (sinceOf none row).nanos < created.nanos

variable {created : Instant} {old : List UserId}

namespace World

lemma Told.mono (h : s.Told a u created) (hsent : s.sent ⊆ t.sent) : t.Told a u created := by
  obtain ⟨mail, hmem, htold⟩ := h
  exact ⟨mail, hsent hmem, htold⟩

/-- What a run to the admin has read holds of everyone who waits. -/
def PhaseOk (s : World) (a : UserId) (row : UserRow) (about : UserId) : Phase → Prop
  | .started => True
  | .locked _ recipient => recipient = row
  | .listed _ since pending seen =>
    since = sinceOf (s.markers.lookup a) row ∧
      (∀ u created, s.Waits row u created → u ∈ seen → since.nanos < created.nanos →
        u ∈ pending.map Prod.fst ∨ pending.length = pendingListCap) ∧
      ∀ created, s.Waits row about created → about ∈ seen
  | .counted mail =>
    (∀ u created, s.Waits row u created → u ∈ mail.seen → s.Told a u created ∨ mail.Covers u) ∧
      ∀ created, s.Waits row about created → about ∈ mail.seen
  | .mailed mail =>
    mail ∈ s.sent ∧ (∀ u created, s.Waits row u created → u ∈ mail.seen → s.Told a u created) ∧
      ∀ created, s.Waits row about created → about ∈ mail.seen
  | .ended outcome => outcome = .sent ∨ outcome = .skipped →
      ∀ created, s.Waits row about created → s.Told a about created

/-- Who has come to wait is nobody that the run knows of. -/
lemma PhaseOk.mono (h : s.PhaseOk a row r.about r.phase)
    (hwaits : ∀ u created, t.Waits row u created →
      s.Waits row u created ∨ (r.about ≠ u ∧ u ∉ r.phase.seen))
    (hsent : s.sent ⊆ t.sent)
    (hmarker : r.holdsLock = true → t.markers.lookup a = s.markers.lookup a) :
    t.PhaseOk a row r.about r.phase := by
  have habout : ∀ created, t.Waits row r.about created → s.Waits row r.about created :=
    fun created hw => (hwaits _ created hw).resolve_right fun hnew => hnew.1 rfl
  have hseen : ∀ u created, u ∈ r.phase.seen → t.Waits row u created → s.Waits row u created :=
    fun u created hmem hw => (hwaits u created hw).resolve_right fun hnew => hnew.2 hmem
  rw [Run.holdsLock] at hmarker
  generalize r.phase = p at *
  cases p with
  | started => trivial
  | locked now recipient => exact h
  | listed now since pending seen =>
    obtain ⟨hsince, hlisted, hthere⟩ := h
    refine ⟨hsince.trans (by rw [hmarker rfl]), fun u created hw hmem => ?_, fun created hw => ?_⟩
    · exact hlisted u created (hseen u created hmem hw) hmem
    · exact hthere created (habout created hw)
  | counted mail =>
    obtain ⟨hcovers, hthere⟩ := h
    refine ⟨fun u created hw hmem => ?_, fun created hw => hthere created (habout created hw)⟩
    exact (hcovers u created (hseen u created hmem hw) hmem).imp_left fun htold => htold.mono hsent
  | mailed mail =>
    obtain ⟨hmem, htold, hthere⟩ := h
    refine ⟨hsent hmem, fun u created hw hmem => ?_,
      fun created hw => hthere created (habout created hw)⟩
    exact (htold u created (hseen u created hmem hw) hmem).mono hsent
  | ended outcome =>
    exact fun hsuccess created hw => (h hsuccess created (habout created hw)).mono hsent

end World

/-- Everybody who waits has a job that was not put off, unless they were there at the start; and
where the last mail's run began after they signed up, a mail tells of them. -/
structure Announced (a : UserId) (row : UserRow) (old : List UserId) (s : World) : Prop where
  sound : s.Sound
  admin : s.users.lookup a = some row
  markers : ∀ m, s.markers.lookup a = some m →
    (∃ mail ∈ s.sent, mail.recipient = a ∧ mail.now = m) ∧
      ∀ u created, s.Waits row u created → created.nanos ≤ m.nanos → s.Told a u created
  runs : ∀ (i : ℕ) r, s.runs[i]? = some r → r.recipient = a → s.PhaseOk a row r.about r.phase
  payloads : ∀ (i : ℕ) r, s.runs[i]? = some r →
    ∃ job, s.jobs[r.job]? = some job ∧ job.recipient = r.recipient ∧ job.about = r.about
  jobs : ∀ u created, s.Waits row u created → u ∈ old ∨
    ∃ job ∈ s.jobs, job.recipient = a ∧ job.about = u ∧ job.deferred = false

lemma pendingListCap_pos : 0 < pendingListCap := by decide

lemma mem_pendingAfter (h : s.Waits row u created) (hsince : since.nanos < created.nanos) :
    u ∈ (pendingAfter s.users since).map Prod.fst := by
  obtain ⟨user, hu, hpending, rfl, -⟩ := h
  exact List.mem_map.mpr ⟨(u, user), Table.mem_select.mpr ⟨hu, decide_eq_true ⟨hpending, hsince⟩⟩,
    rfl⟩

/-- Who waits and signed up since is listed, or the list is full. -/
lemma mem_listPending (h : s.Waits row u created) (hsince : since.nanos < created.nanos) :
    u ∈ (listPendingCreatedAfter s.users since).map Prod.fst ∨
      (listPendingCreatedAfter s.users since).length = pendingListCap := by
  unfold listPendingCreatedAfter
  have hmem := mem_pendingAfter h hsince
  by_cases hlong : (pendingAfter s.users since).length ≤ pendingListCap
  · refine .inl ?_
    rw [List.take_of_length_le (by rwa [List.length_insertionSort])]
    exact ((List.perm_insertionSort _ _).map Prod.fst).mem_iff.mpr hmem
  · refine .inr ?_
    rw [List.length_take, List.length_insertionSort]
    omega

/-- Who signed up before the last mail's run began is told of. -/
lemma Announced.told_of_le (h : Announced a row old s) (hw : s.Waits row u created)
    (hle : created.nanos ≤ (sinceOf (s.markers.lookup a) row).nanos) : s.Told a u created := by
  cases hm : s.markers.lookup a with
  | none =>
    obtain ⟨-, -, -, -, hafter⟩ := hw
    rw [hm] at hle
    omega
  | some m =>
    rw [hm] at hle
    exact (h.markers m hm).2 u created hw hle

lemma Announced.told_of_skip (h : Announced a row old s) (hrole : row.role = .admin)
    (hload : load interval s now a row = some .skip) (hw : s.Waits row u created) :
    s.Told a u created := by
  refine h.told_of_le hw ?_
  unfold load at hload
  rw [if_neg (not_not.mpr hrole)] at hload
  dsimp only at hload
  by_contra hlate
  have hmem := mem_listPending hw (not_le.mp hlate)
  unfold sinceOf at hmem
  split at hload
  · next hempty =>
    rw [List.isEmpty_iff.mp hempty] at hmem
    rcases hmem with hmem | hlen
    · cases hmem
    · exact pendingListCap_pos.ne hlen
  · cases hm : s.markers.lookup a <;> rw [hm] at hload
    · cases hload
    · obtain ⟨slot, -, hload⟩ := Option.map_eq_some_iff.mp hload
      split at hload <;> cases hload

lemma Announced.onward (h : Announced a row old s) (hrole : row.role = .admin)
    (hi : s.runs[i]? = some r) (hr : r.recipient = a) (hp : Onward interval s r p) :
    s.PhaseOk a row r.about p := by
  have hphaseOk := h.runs i r hi hr
  cases hp with
  | lock hphase hfree =>
    unfold World.locked
    rw [hr, h.admin]
    dsimp only
    split
    · exact fun hsuccess => by rcases hsuccess with hs | hs <;> cases hs
    · rfl
  | skip hphase hload =>
    rw [hphase] at hphaseOk
    obtain rfl : _ = row := hphaseOk
    rw [hr] at hload
    exact fun _ created hw => h.told_of_skip hrole hload hw
  | list hphase hload =>
    rw [hphase] at hphaseOk
    obtain rfl : _ = row := hphaseOk
    rw [hr] at hload
    obtain ⟨hsince, rfl, -⟩ := load_eq_send hload
    refine ⟨hsince, fun u created hw _ hlate => mem_listPending hw hlate, fun created hw => ?_⟩
    obtain ⟨user, hu, -⟩ := hw
    exact AList.mem_keys.mp (AList.lookup_isSome.mp (by rw [hu]; rfl))
  | count hphase =>
    rw [hphase] at hphaseOk
    obtain ⟨hsince, hlisted, hthere⟩ := hphaseOk
    refine ⟨fun u created hw hmem => ?_, hthere⟩
    by_cases hlate : created.nanos ≤ (sinceOf (s.markers.lookup a) row).nanos
    · exact .inl (h.told_of_le hw hlate)
    · rw [← hsince, not_le] at hlate
      refine .inr ((hlisted u created hw hmem hlate).imp id fun hfull => ?_)
      exact ⟨by rw [mailOf, List.length_map]; exact hfull, mem_pendingAfter hw hlate⟩
  | fail => exact fun hsuccess => by rcases hsuccess with hs | hs <;> cases hs

/-- Rows and jobs change: nobody comes to wait whom a run or a mail knows of, nor without a job. -/
lemma Announced.rewrite (h : Announced a row old s) (hsound : t.Sound)
    (hadmin : t.users.lookup a = some row) (hruns : t.runs = s.runs) (hsent : t.sent = s.sent)
    (hmarker : ∀ m, t.markers.lookup a = some m → s.markers.lookup a = some m)
    (hheld : s.isLocked a = true → t.markers.lookup a = s.markers.lookup a)
    (hwaits : ∀ u created, t.Waits row u created → s.Waits row u created ∨ s.Unheard u)
    (hjobs : s.jobs <+: t.jobs)
    (hnew : ∀ u created, t.Waits row u created → s.Waits row u created ∨
      ∃ job ∈ t.jobs, job.recipient = a ∧ job.about = u ∧ job.deferred = false) :
    Announced a row old t := by
  have hsub : s.sent ⊆ t.sent := hsent ▸ List.Subset.refl _
  refine ⟨hsound, hadmin, fun m hm => ?_, fun i r hi hr => ?_, fun i r hi => ?_,
    fun u created hw => ?_⟩
  · obtain ⟨⟨mail, hmem, hto, hnow⟩, htold⟩ := h.markers m (hmarker m hm)
    refine ⟨⟨mail, hsent ▸ hmem, hto, hnow⟩, fun u created hw hle => ?_⟩
    rcases hwaits u created hw with hold | hun
    · exact (htold u created hold hle).mono hsub
    · exact ⟨mail, hsent ▸ hmem, hto, .inr ⟨hun.sent mail hmem, hnow ▸ hle⟩⟩
  · rw [hruns] at hi
    refine (h.runs i r hi hr).mono (fun u created hw => ?_) hsub
      fun hholds => hheld ?_
    · exact (hwaits u created hw).imp_right fun hun => hun.runs i r hi
    · exact List.any_eq_true.mpr ⟨r, List.mem_of_getElem? hi, by simp [hholds, hr]⟩
  · rw [hruns] at hi
    obtain ⟨job, hjob, hpayload⟩ := h.payloads i r hi
    obtain ⟨more, hmore⟩ := hjobs
    refine ⟨job, ?_, hpayload⟩
    rw [← hmore, List.getElem?_append_left (List.getElem?_eq_some_iff.mp hjob).1, hjob]
  · rcases hnew u created hw with hold | hjob
    · refine (h.jobs u created hold).imp_right fun ⟨job, hmem, hjob⟩ => ?_
      exact ⟨job, hjobs.subset hmem, hjob⟩
    · exact .inr hjob

/-- A run goes on, and the jobs, the mails and the admin's last mail are what is said of them. -/
lemma Announced.become (jobs : List Job) (h : Announced a row old s)
    {markers : Table UserId Instant}
    {sent recorded : List Mail} (hi : s.runs[i]? = some r)
    (hsound : ({ s with jobs, markers, sent, recorded }.goOn i r p).Sound)
    (hsent : s.sent ⊆ sent)
    (hphase : r.recipient = a →
      World.PhaseOk { s with jobs, markers, sent, recorded } a row r.about p)
    (hheld : ∀ (j : ℕ) r', s.runs[j]? = some r' → j ≠ i → r'.recipient = a → r'.holdsLock = true →
      markers.lookup a = s.markers.lookup a)
    (hmarkers : ∀ m, markers.lookup a = some m →
      (∃ mail ∈ sent, mail.recipient = a ∧ mail.now = m) ∧
      ∀ u created, s.Waits row u created → created.nanos ≤ m.nanos →
        World.Told { s with jobs, markers, sent, recorded } a u created)
    (hpayloads : ∀ (j : ℕ) job, s.jobs[j]? = some job → ∃ job', jobs[j]? = some job' ∧
      job'.recipient = job.recipient ∧ job'.about = job.about)
    (hjobs : ∀ u, (∃ job ∈ s.jobs, job.recipient = a ∧ job.about = u ∧ job.deferred = false) →
      ∃ job ∈ jobs, job.recipient = a ∧ job.about = u ∧ job.deferred = false) :
    Announced a row old ({ s with jobs, markers, sent, recorded }.goOn i r p) := by
  refine ⟨hsound, h.admin, hmarkers, fun j r' hj hr' => ?_, fun j r' hj => ?_,
    fun u created hw => (h.jobs u created hw).imp_right (hjobs u)⟩
  · rcases of_getElem?_set hj with ⟨-, rfl⟩ | ⟨hji, hold⟩
    · exact hphase hr'
    · refine (h.runs j r' hold hr').mono (fun u created hw => .inl hw) hsent fun hholds => ?_
      exact hheld j r' hold hji hr' hholds
  · have hback : ∃ r₀, s.runs[j]? = some r₀ ∧ r₀.job = r'.job ∧ r₀.recipient = r'.recipient ∧
        r₀.about = r'.about := by
      rcases of_getElem?_set hj with ⟨rfl, rfl⟩ | ⟨-, hold⟩
      · exact ⟨r, hi, rfl, rfl, rfl⟩
      · exact ⟨r', hold, rfl, rfl, rfl⟩
    obtain ⟨r₀, hr₀, hjob, hrecipient, habout⟩ := hback
    obtain ⟨payload, hpayload, hto, hfor⟩ := h.payloads j r₀ hr₀
    obtain ⟨payload', hpayload', hto', hfor'⟩ := hpayloads _ payload hpayload
    rw [hjob] at hpayload'
    exact ⟨payload', hpayload', hto'.trans (hto.trans hrecipient), hfor'.trans (hfor.trans habout)⟩

/-- Who waits after a row was written waited before, or the row is new. -/
lemma waits_insert {user : UserRow}
    (hw : World.Waits { s with users := s.users.insert id user } row u created) :
    s.Waits row u created ∨ u = id ∧ user.status = .pending ∧ user.createdAt = created ∧
      (sinceOf none row).nanos < created.nanos := by
  obtain ⟨user', hu, hpending, hcreated, hafter⟩ := hw
  by_cases hid : u = id
  · subst hid
    obtain rfl : user = user' := Option.some.inj ((AList.lookup_insert _).symm.trans hu)
    exact .inr ⟨rfl, hpending, hcreated, hafter⟩
  · exact .inl ⟨user', (AList.lookup_insert_ne hid).symm.trans hu, hpending, hcreated, hafter⟩

lemma Announced.step (h : Announced a row old s) (hrole : row.role = .admin)
    (hactive : row.status = .active) (hdoes : Does interval s t)
    (hadmin : t.users.lookup a = some row) : Announced a row old t := by
  have hsound := h.sound.step hdoes
  cases hdoes with
  | signUp hid =>
    exact h.rewrite hsound hadmin rfl rfl (fun _ hm => hm) (fun _ => rfl)
      (fun u created hw => .inl hw) List.prefix_rfl fun u created hw => .inl hw
  | @commitSignUp i signUp jobs hi hopen hjobs =>
    refine h.rewrite hsound hadmin rfl rfl (fun _ hm => hm) (fun _ => rfl) (fun u created hw => ?_)
      (List.prefix_append _ _) fun u created hw => ?_
    · refine (waits_insert hw).imp_right fun hnew => ?_
      exact hnew.1 ▸ (h.sound.opened i signUp hi).2 hopen
    · refine (waits_insert hw).imp_right fun ⟨hu, hpending, _⟩ => ?_
      subst hu
      rcases hjobs with ⟨hnot, -⟩ | ⟨clock, hjobs⟩
      · exact absurd hpending hnot
      · have hlisted : a ∈ listActiveAdminIds s.users := by
          refine List.mem_map.mpr ⟨(a, row), (List.mem_insertionSort _).mpr ?_, rfl⟩
          exact Table.mem_select.mpr ⟨h.admin, decide_eq_true ⟨hrole, hactive⟩⟩
        obtain ⟨job, hmem, hjob⟩ := (of_enqueue hjobs).2 a hlisted
        exact ⟨job, List.mem_append_right _ hmem, hjob⟩
  | @setUser id user before hbefore hfree hcreated hpending =>
    have hwaits : ∀ u created,
        World.Waits { s with users := s.users.insert id user } row u created →
        s.Waits row u created := by
      intro u created hw
      rcases waits_insert hw with hold | ⟨rfl, hnow, hat, hafter⟩
      · exact hold
      · exact ⟨before, hbefore, hpending hnow, (Instant.ext hcreated).symm.trans hat, hafter⟩
    exact h.rewrite hsound hadmin rfl rfl (fun _ hm => hm) (fun _ => rfl)
      (fun u created hw => .inl (hwaits u created hw)) List.prefix_rfl
      fun u created hw => .inl (hwaits u created hw)
  | @deleteUser id hfree =>
    have hne : a ≠ id := by
      rintro rfl
      exact absurd (AList.lookup_erase a s.users) (hadmin ▸ Option.some_ne_none _)
    have hwaits : ∀ u created, World.Waits { s with
        users := s.users.erase id, markers := s.markers.erase id } row u created →
        s.Waits row u created := by
      rintro u created ⟨user, hu, hw⟩
      by_cases hid : u = id
      · subst hid
        exact absurd (AList.lookup_erase u s.users) (hu ▸ Option.some_ne_none _)
      · exact ⟨user, (AList.lookup_erase_ne hid).symm.trans hu, hw⟩
    exact h.rewrite hsound hadmin rfl rfl (fun m hm => (AList.lookup_erase_ne hne).symm.trans hm)
      (fun _ => AList.lookup_erase_ne hne) (fun u created hw => .inl (hwaits u created hw))
      List.prefix_rfl fun u created hw => .inl (hwaits u created hw)
  | @fetch job payload hjob =>
    refine ⟨hsound, hadmin, h.markers, fun i r hi hr => ?_, fun i r hi => ?_, h.jobs⟩
    · rcases of_getElem?_concat hi with ⟨-, rfl⟩ | hold
      · trivial
      · exact (h.runs i r hold hr).mono (fun u created hw => .inl hw) (List.Subset.refl _)
          fun _ => rfl
    · rcases of_getElem?_concat hi with ⟨-, rfl⟩ | hold
      · exact ⟨payload, hjob, rfl, rfl⟩
      · exact h.payloads i r hold
  | @goOn i r p hi hp =>
    exact h.become _ hi hsound (List.Subset.refl _) (fun hr => h.onward hrole hi hr hp)
      (fun _ _ _ _ _ _ => rfl) h.markers (fun _ job hjob => ⟨job, hjob, rfl, rfl⟩)
      fun _ hjob => hjob
  | @putOff i r now runAt recipient hi hphase =>
    have hmodified : ∀ (j : ℕ) job, s.jobs[j]? = some job → (s.putOff r runAt).jobs[j]? =
        some (if r.job = j then { job with deferred := true } else job) := by
      intro j job hjob
      have hlt := (List.getElem?_eq_some_iff.mp hjob).1
      rw [World.putOff, List.getElem?_append_left (by rwa [List.length_modify]),
        List.getElem?_modify, hjob]
      rfl
    refine h.become (s.putOff r runAt).jobs hi hsound (List.Subset.refl _)
      (fun _ hsuccess => by rcases hsuccess with hs | hs <;> cases hs) (fun _ _ _ _ _ _ => rfl)
      h.markers (fun j job hjob => ⟨_, hmodified j job hjob, ?_, ?_⟩) fun u hjob => ?_
    · split <;> rfl
    · split <;> rfl
    · obtain ⟨job, hmem, hto, hfor, hopen⟩ := hjob
      obtain ⟨j, hj⟩ := List.mem_iff_getElem?.mp hmem
      by_cases hput : r.job = j
      · -- the job it was put off to
        obtain ⟨payload, hpayload, hto', hfor'⟩ := h.payloads i r hi
        rw [hput, hj, Option.some.injEq] at hpayload
        subst hpayload
        refine ⟨_, List.mem_append_right _ (List.mem_singleton_self _), hto'.symm.trans hto,
          hfor'.symm.trans hfor, rfl⟩
      · have hsame := hmodified j job hj
        rw [if_neg hput] at hsame
        exact ⟨job, List.mem_of_getElem? hsame, hto, hfor, hopen⟩
  | @send i r mail hi hphase =>
    refine h.become _ hi hsound (List.subset_append_left _ _) (fun hr => ?_)
      (fun _ _ _ _ _ _ => rfl) (fun m hm => ?_) (fun _ job hjob => ⟨job, hjob, rfl, rfl⟩)
      fun _ hjob => hjob
    · have hphaseOk := h.runs i r hi hr
      rw [hphase] at hphaseOk
      obtain ⟨hcovers, hthere⟩ := hphaseOk
      have hmem : mail ∈ s.sent ++ [mail] := List.mem_append_right _ (List.mem_singleton_self _)
      refine ⟨hmem, fun u created hw hseen => ?_, hthere⟩
      rcases hcovers u created hw hseen with htold | hcovered
      · exact htold.mono (List.subset_append_left _ _)
      · have hto := h.sound.mails i r hi mail (by rw [hphase]; rfl)
        exact ⟨mail, hmem, hto.trans hr, .inl hcovered⟩
    · obtain ⟨⟨mail', hmem, hlast⟩, htold⟩ := h.markers m hm
      exact ⟨⟨mail', List.mem_append_left _ hmem, hlast⟩, fun u created hw hle =>
        (htold u created hw hle).mono (List.subset_append_left _ _)⟩
  | @commit i r mail hi hphase =>
    have hholds : r.holdsLock = true := by rw [Run.holdsLock, hphase]
    refine h.become _ hi hsound (List.Subset.refl _) (fun hr _ created hw => ?_)
      (fun j r' hj hji hr' hholds' => ?_) (fun m hm => ?_)
      (fun _ job hjob => ⟨job, hjob, rfl, rfl⟩) fun _ hjob => hjob
    · have hphaseOk := h.runs i r hi hr
      rw [hphase] at hphaseOk
      exact hphaseOk.2.1 _ created hw (hphaseOk.2.2 created hw)
    · refine AList.lookup_insert_ne fun heq => ?_
      exact (h.sound.alone a).others hi ⟨hholds, heq.symm⟩ hji hj ⟨hholds', hr'⟩
    · by_cases hr : r.recipient = a
      · have hphaseOk := h.runs i r hi hr
        rw [hphase] at hphaseOk
        obtain ⟨hmem, htold, -⟩ := hphaseOk
        obtain rfl : mail.now = m := by
          rw [hr, AList.lookup_insert] at hm
          exact Option.some.inj hm
        have hto := (h.sound.mails i r hi mail (by rw [hphase]; rfl)).trans hr
        refine ⟨⟨mail, hmem, hto, rfl⟩, fun u created hw hle => ?_⟩
        by_cases hseen : u ∈ mail.seen
        · exact htold u created hw hseen
        · exact ⟨mail, hmem, hto, .inr ⟨hseen, hle⟩⟩
      · exact h.markers m ((AList.lookup_insert_ne (Ne.symm hr)).symm.trans hm)

/-- A step that leaves the admin's row as it is. -/
def AdminStays (interval : Duration) (a : UserId) (row : UserRow) (s : World) (e : Event)
    (t : World) : Prop :=
  World.Step interval s e t ∧ t.users.lookup a = some row

/-- In every run through which an active admin's row stays as it is: for a user who signed up in it,
later than the admin was approved, and is pending still, there is a job for the admin that has not
been put off; and once a run of any of the user's jobs for the admin ended in success, a mail to the
admin lists or counts the user, or was decided before the sign-up committed by a run that began
after the sign-up did. -/
theorem sign_up_announced (hstart : s.Start) {es : List Event}
    (hrun : Framework.Run (AdminStays interval a row) s es t) (hadmin : s.users.lookup a = some row)
    (hrole : row.role = .admin) (hactive : row.status = .active) (hnew : s.users.lookup u = none)
    (hwaits : t.Waits row u created) :
    (∃ job ∈ t.jobs, job.recipient = a ∧ job.about = u ∧ job.deferred = false) ∧
      ∀ r ∈ t.runs, r.recipient = a → r.about = u →
        r.phase = .ended .sent ∨ r.phase = .ended .skipped → t.Told a u created := by
  have hbefore : Announced a row s.users.keys s := by
    refine ⟨hstart.sound, hadmin, ?_, ?_, ?_, fun u created hw => .inl ?_⟩
    · simp [hstart.markers]
    · simp [hstart.runs]
    · simp [hstart.runs]
    · obtain ⟨user, hu, -⟩ := hw
      exact AList.mem_keys.mp (AList.lookup_isSome.mp (by rw [hu]; rfl))
  have h : Announced a row s.users.keys t := hrun.invariant
    (fun hstep h => h.step hrole hactive (does_of_step hstep.1) hstep.2) hbefore
  refine ⟨(h.jobs u created hwaits).resolve_left ?_, fun r hr hto hfor hended => ?_⟩
  · exact fun hmem => AList.lookup_eq_none.mp hnew (AList.mem_keys.mpr hmem)
  · obtain ⟨i, hi⟩ := List.mem_iff_getElem?.mp hr
    have hphase := h.runs i r hi hto
    rw [hfor] at hphase
    rcases hended with hended | hended <;> rw [hended] at hphase
    · exact hphase (.inl rfl) created hwaits
    · exact hphase (.inr rfl) created hwaits

/-- A step, where the admin's row is the same after it. -/
def keepAdmin (s : World) (e : Event) : Option World :=
  (s.perform sampleInterval e).filter fun t => t.users.lookup 1 = some sampleAdmin

lemma keepAdmin_adminStays (h : keepAdmin s e = some t) :
    AdminStays sampleInterval 1 sampleAdmin s e t := by
  obtain ⟨hstep, hadmin⟩ := Option.filter_eq_some_iff.mp h
  exact ⟨hstep, of_decide_eq_true hadmin⟩

theorem sign_up_announced_sample : ∃ t, Framework.Run (AdminStays sampleInterval 1 sampleAdmin)
    sampleStart (sampleMail 0 2 (sampleTime 5) (sampleTime 10)) t ∧ t.Told 1 2 (sampleTime 5) := by
  have hsome : ((sampleMail 0 2 (sampleTime 5) (sampleTime 10)).foldlM keepAdmin
      sampleStart).map (fun t => (t.users.lookup 2, t.runs)) =
    some (some (sampleRow .member .pending (sampleTime 5)),
      [{ job := 0, recipient := 1, about := 2, phase := .ended .sent }]) := rfl
  obtain ⟨t, ht, hread⟩ := Option.map_eq_some_iff.mp hsome
  obtain ⟨huser, hruns⟩ := Prod.ext_iff.mp hread
  have hrun : Framework.Run (AdminStays sampleInterval 1 sampleAdmin) sampleStart _ t :=
    Framework.Run.of_foldlM keepAdmin_adminStays ht
  have hwaits : t.Waits sampleAdmin 2 (sampleTime 5) := ⟨_, huser, rfl, rfl, by decide⟩
  obtain ⟨-, htold⟩ := sign_up_announced sampleStart_start hrun rfl rfl rfl rfl hwaits
  have hmem : { job := 0, recipient := 1, about := 2, phase := .ended .sent } ∈ t.runs := by
    rw [show t.runs = _ from hruns]
    exact List.mem_singleton_self _
  exact ⟨t, hrun, htold _ hmem rfl rfl (.inl rfl)⟩

end Postit.Identity.Approvals

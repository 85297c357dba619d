import Postit.Framework.Pool
import Postit.Framework.Trace
import Postit.Identity.Admin

/-!
# There is always an admin

Once there is an active admin there always is one, and nobody becomes an admin but by the
bootstrap rule or a change of role (`admins_rightful`).  A user who is being deleted stays so until
the row is gone, no other row goes, and there is one deletion job for each.

Each step is one of a few deeds (`Deed`), with what its guards saw; the rest is by cases on them.
-/

namespace Postit.Identity

open Postit.Data (UserId)
open Postit.Framework

/-! ## What a step does -/

/-- What a row says about the user's rights. -/
def UserRecord.standing (u : UserRecord) : UserRole × UserStatus := (u.role, u.status)

/-- No user but these has other rights. -/
def SameBut (p : UserId → Prop) (s t : Directory) : Prop :=
  ∀ k, ¬ p k →
    (t.users.lookup k).map UserRecord.standing = (s.users.lookup k).map UserRecord.standing

/-- What a run deletes in the end. -/
def DeletionRun.user : DeletionRun → Option UserId
  | .loaded user | .scrubbed user => some user
  | .ended => none

/-- Every run in the second state is of a user with a job or one of the first's. -/
def RunsFrom (s t : Directory) : Prop :=
  ∀ run ∈ t.runs, ∀ k, run.user = some k → k ∈ s.jobs ∨ ∃ run' ∈ s.runs, run'.user = some k

lemma runsFrom_of_eq {s t : Directory} (h : t.runs = s.runs) : RunsFrom s t :=
  fun run hrun _ hk => .inr ⟨run, h ▸ hrun, hk⟩

/-- What one step does to users and jobs. -/
inductive Deed (bootstrap : BootstrapSettings) (s t : Directory) : Action → Prop
  | quiet (a : Action) (same : SameBut (fun _ => False) s t) (jobs : t.jobs = s.jobs)
      (nextId : s.nextId ≤ t.nextId) (runs : RunsFrom s t) : Deed bootstrap s t a
  | enter (claims : Claims) (user : UserRecord) (fresh : s.users.lookup s.nextId = none)
      (now : t.users.lookup s.nextId = some user) (entered : Entered bootstrap s.users claims user)
      (same : SameBut (· = s.nextId) s t) (jobs : t.jobs = s.jobs)
      (nextId : t.nextId = s.nextId + 1) (runs : RunsFrom s t) : Deed bootstrap s t (.signIn claims)
  | move (a : Action) (k : UserId) (u v : UserRecord) (was : s.users.lookup k = some u)
      (now : t.users.lookup k = some v) (present : u.status ≠ .deleting)
      (stays : v.status ≠ .deleting) (settled : v.status ≠ .pending)
      (role : v.role = .admin → u.role = .admin ∨ a = .changeRole k .admin)
      (other : u.IsActiveAdmin → v.IsActiveAdmin ∨ ∃ j, j ≠ k ∧ s.users.ActiveAdmin j)
      (same : SameBut (· = k) s t) (jobs : t.jobs = s.jobs) (nextId : t.nextId = s.nextId)
      (runs : RunsFrom s t) : Deed bootstrap s t a
  | delete (a : Action) (k : UserId) (u v : UserRecord) (was : s.users.lookup k = some u)
      (now : t.users.lookup k = some v) (present : u.status ≠ .deleting)
      (deleting : v.status = .deleting) (role : v.role = u.role)
      (other : u.IsActiveAdmin → ∃ j, j ≠ k ∧ s.users.ActiveAdmin j)
      (same : SameBut (· = k) s t) (jobs : t.jobs = k :: s.jobs) (nextId : t.nextId = s.nextId)
      (runs : RunsFrom s t) : Deed bootstrap s t a
  | remove (a : Action) (k : UserId) (i : ℕ) (run : s.runs[i]? = some (.scrubbed k))
      (gone : t.users.lookup k = none) (same : SameBut (· = k) s t) (jobs : t.jobs = s.jobs)
      (nextId : t.nextId = s.nextId) (runs : RunsFrom s t) : Deed bootstrap s t a

variable {bootstrap : BootstrapSettings} {s t : Directory} {a : Action} {target : UserId}

namespace UserAdminService

lemma ensure_ok {condition : Prop} [Decidable condition] {err : IdentityError} {x : Unit}
    (h : ensure condition err = .ok x) : condition := by
  unfold ensure at h
  split_ifs at h with hc
  exact hc

lemma lockPresent_ok {u : UserRecord} (h : lockPresent s target = .ok u) :
    s.users.lookup target = some u ∧ u.status ≠ .deleting := by
  obtain ⟨row, hrow, h⟩ := bind_eq_ok h
  split_ifs at h with hdeleting
  cases h
  exact ⟨UsersRepo.lockById_ok hrow, hdeleting⟩

/-- A changed row leaves the others. -/
lemma sameBut_of_updateOne {users' : Users} {u : UserRecord} {f : UserRecord → UserRecord}
    {hf : ∀ u, (f u).identity = u.identity}
    (h : UsersRepo.updateOne s.users target f hf = .ok (users', u)) (jobs : List UserId) :
    SameBut (· = target) s { s with users := users', jobs } := by
  obtain ⟨row, -, -, hall⟩ := UsersRepo.updateOne_ok h
  intro k hk
  show (users'.lookup k).map _ = _
  rw [hall, if_neg hk]

lemma startDeletion_ok {u : UserRecord} (hu : s.users.lookup target = some u)
    (hpresent : u.status ≠ .deleting)
    (hother : u.IsActiveAdmin → ∃ j, j ≠ target ∧ s.users.ActiveAdmin j)
    (h : startDeletion s target = .ok t) (a : Action) : Deed bootstrap s t a := by
  obtain ⟨⟨users', row⟩, hset, h⟩ := bind_eq_ok h
  cases h
  obtain ⟨was, hwas, -, hall⟩ := UsersRepo.updateOne_ok hset
  obtain rfl : was = u := Option.some.inj (hwas.symm.trans hu)
  exact .delete a target was { was with status := .deleting } hwas (by rw [hall, if_pos rfl]) hpresent rfl rfl hother
    (sameBut_of_updateOne hset _) rfl rfl (runsFrom_of_eq rfl)

lemma moveStatus_ok {u : UserRecord} {from_ to_ : UserStatus} (hu : s.users.lookup target = some u)
    (hpresent : u.status ≠ .deleting) (hfrom : from_ ≠ .active) (hto : to_ = .active)
    (h : moveStatus s target u from_ to_ = .ok t) (a : Action) : Deed bootstrap s t a := by
  obtain ⟨x, hcheck, h⟩ := bind_eq_ok h
  obtain ⟨⟨users', row⟩, hset, h⟩ := bind_eq_ok h
  cases h
  have hstatus := ensure_ok hcheck
  obtain ⟨was, hwas, -, hall⟩ := UsersRepo.updateOne_ok hset
  obtain rfl : was = u := Option.some.inj (hwas.symm.trans hu)
  subst hto
  refine .move a target was { was with status := .active } hwas (by rw [hall, if_pos rfl]) hpresent (by simp) (by simp) .inl ?_
    (sameBut_of_updateOne hset _) rfl rfl (runsFrom_of_eq rfl)
  exact fun hadmin => absurd (hstatus.symm.trans hadmin.2) hfrom

lemma approve_ok (h : approve s target = .ok t) (a : Action) : Deed bootstrap s t a := by
  obtain ⟨u, hu, h⟩ := bind_eq_ok h
  obtain ⟨hlookup, hpresent⟩ := lockPresent_ok hu
  exact moveStatus_ok hlookup hpresent (by decide) rfl h a

lemma enable_ok (h : enable s target = .ok t) (a : Action) : Deed bootstrap s t a := by
  obtain ⟨u, hu, h⟩ := bind_eq_ok h
  obtain ⟨hlookup, hpresent⟩ := lockPresent_ok hu
  exact moveStatus_ok hlookup hpresent (by decide) rfl h a

lemma disable_ok (h : disable s target = .ok t) (a : Action) : Deed bootstrap s t a := by
  obtain ⟨u, hu, h⟩ := bind_eq_ok h
  obtain ⟨x, hactive, h⟩ := bind_eq_ok h
  obtain ⟨y, hlast, h⟩ := bind_eq_ok h
  obtain ⟨⟨users', row⟩, hset, h⟩ := bind_eq_ok h
  cases h
  obtain ⟨hlookup, hpresent⟩ := lockPresent_ok hu
  obtain ⟨was, hwas, -, hall⟩ := UsersRepo.updateOne_ok hset
  obtain rfl : was = u := Option.some.inj (hwas.symm.trans hlookup)
  refine .move a target was { was with status := .disabled } hwas (by rw [hall, if_pos rfl])
    hpresent (by simp) (by simp) .inl ?_ (sameBut_of_updateOne hset _) rfl rfl (runsFrom_of_eq rfl)
  intro hadmin
  have hcount : 1 < UsersRepo.countActiveAdmins s.users :=
    not_le.mp fun hle => ensure_ok hlast ⟨hadmin.1, hle⟩
  exact .inr (UsersRepo.exists_other_of_count hcount target)

lemma changeRole_ok {role : UserRole} (h : changeRole s target role = .ok t) :
    Deed bootstrap s t (.changeRole target role) := by
  obtain ⟨u, hu, h⟩ := bind_eq_ok h
  obtain ⟨x, hsettled, h⟩ := bind_eq_ok h
  obtain ⟨y, hlast, h⟩ := bind_eq_ok h
  obtain ⟨⟨users', row⟩, hset, h⟩ := bind_eq_ok h
  cases h
  obtain ⟨hlookup, hpresent⟩ := lockPresent_ok hu
  obtain ⟨was, hwas, -, hall⟩ := UsersRepo.updateOne_ok hset
  obtain rfl : was = u := Option.some.inj (hwas.symm.trans hlookup)
  have hsettled := ensure_ok hsettled
  refine .move _ target was { was with role } hwas (by rw [hall, if_pos rfl]) hpresent hpresent
    ?_ ?_ ?_ (sameBut_of_updateOne hset _) rfl rfl (runsFrom_of_eq rfl)
  · rintro hpending
    rcases hsettled with hactive | hdisabled
    · cases hactive.symm.trans hpending
    · cases hdisabled.symm.trans hpending
  · intro (hrole : role = .admin)
    exact .inr (hrole ▸ rfl)
  · intro hadmin
    cases role with
    | admin => exact .inl ⟨rfl, hadmin.2⟩
    | member =>
      have hcount : 1 < UsersRepo.countActiveAdmins s.users :=
        not_le.mp fun hle => ensure_ok hlast ⟨hadmin.1, rfl, hadmin.2, hle⟩
      exact .inr (UsersRepo.exists_other_of_count hcount target)

lemma delete_ok (h : delete s target = .ok t) (a : Action) : Deed bootstrap s t a := by
  obtain ⟨u, hu, h⟩ := bind_eq_ok h
  obtain ⟨x, hlast, h⟩ := bind_eq_ok h
  obtain ⟨hlookup, hpresent⟩ := lockPresent_ok hu
  refine startDeletion_ok hlookup hpresent (fun hadmin => ?_) h a
  have hcount : 1 < UsersRepo.countActiveAdmins s.users :=
    not_le.mp fun hle => ensure_ok hlast ⟨hadmin.1, hadmin.2, hle⟩
  exact UsersRepo.exists_other_of_count hcount target

end UserAdminService

lemma sameBut_of_lookup {p : UserId → Prop} (h : ∀ k, ¬ p k → t.users.lookup k = s.users.lookup k) :
    SameBut p s t := fun k hk => congrArg (Option.map UserRecord.standing) (h k hk)

lemma signIn_ok {claims : Claims} (h : signIn bootstrap s claims = .ok t) :
    Deed bootstrap s t (.signIn claims) := by
  obtain ⟨⟨users', key, user⟩, htransform, h⟩ := bind_eq_ok h
  cases h
  obtain ⟨hnow, hothers, -, hcases⟩ := transform_ok htransform
  rcases hcases with ⟨u, hu, -, hrole, hstatus⟩ | ⟨rfl, hfresh, -, hentered⟩
  · refine .quiet _ (fun k _ => ?_) rfl (Nat.le_succ _) (runsFrom_of_eq rfl)
    by_cases hk : k = key
    · subst hk
      show (users'.lookup k).map _ = _
      rw [hnow, hu]
      exact congrArg some (Prod.ext hrole hstatus)
    · exact congrArg (Option.map UserRecord.standing) (hothers k hk)
  · exact .enter claims user hfresh hnow hentered (sameBut_of_lookup hothers) rfl rfl
      (runsFrom_of_eq rfl)

lemma purgePendingUser_ok (h : purgePendingUser s target = .ok t) (a : Action) :
    Deed bootstrap s t a := by
  unfold purgePendingUser at h
  cases hu : s.users.lookup target with
  | none =>
    simp only [hu] at h
    cases h
    exact .quiet _ (fun _ _ => rfl) rfl le_rfl (runsFrom_of_eq rfl)
  | some u =>
    simp only [hu] at h
    split_ifs at h with hstatus
    · refine UserAdminService.startDeletion_ok hu ?_ (fun hadmin => ?_) h a
      · rw [hstatus]
        decide
      · cases hstatus.symm.trans hadmin.2
    · cases h
      exact .quiet _ (fun _ _ => rfl) rfl le_rfl (runsFrom_of_eq rfl)

/-- What holds in every state: a pending user is a member, IDs were given out, and the deletion
jobs are those of the users being deleted or gone. -/
structure Sane (s : Directory) : Prop where
  members : ∀ k u, s.users.lookup k = some u → u.status = .pending → u.role = .member
  known : ∀ k u, s.users.lookup k = some u → k < s.nextId
  jobsKnown : ∀ k ∈ s.jobs, k < s.nextId
  counted : ∀ k u, s.users.lookup k = some u →
    s.jobs.count k = if u.status = .deleting then 1 else 0
  once : ∀ k, s.jobs.count k ≤ 1
  runs : ∀ run ∈ s.runs, ∀ k, run.user = some k → k ∈ s.jobs

lemma runsFrom_set {i : ℕ} {run run' : DeletionRun} (hrun : s.runs[i]? = some run)
    (huser : ∀ k, run'.user = some k → run.user = some k) {t : Directory}
    (h : t.runs = s.runs.set i run' := by rfl) : RunsFrom s t := by
  intro r hr k hk
  rw [h] at hr
  rcases List.mem_or_eq_of_mem_set hr with hr | rfl
  · exact .inr ⟨r, hr, hk⟩
  · exact .inr ⟨run, List.mem_of_getElem? hrun, huser k hk⟩

lemma runsFrom_end {i : ℕ} {run : DeletionRun} (hrun : s.runs[i]? = some run) {t : Directory}
    (h : t.runs = s.runs.set i .ended := by rfl) : RunsFrom s t := by
  have huser : ∀ k, DeletionRun.ended.user = some k → run.user = some k := fun _ hk => nomatch hk
  exact runsFrom_set hrun huser h

lemma deed_of_step (h : s.Step bootstrap a t) : Deed bootstrap s t a := by
  unfold Directory.Step at h
  cases a with
  | signIn claims => exact signIn_ok (ok_of_toOption h)
  | approve target => exact UserAdminService.approve_ok (ok_of_toOption h) _
  | disable target => exact UserAdminService.disable_ok (ok_of_toOption h) _
  | enable target => exact UserAdminService.enable_ok (ok_of_toOption h) _
  | changeRole target role => exact UserAdminService.changeRole_ok (ok_of_toOption h)
  | deleteUser actor target =>
    obtain ⟨x, -, h⟩ := bind_eq_ok (ok_of_toOption h)
    exact UserAdminService.delete_ok h _
  | deleteSelf user => exact UserAdminService.delete_ok (ok_of_toOption h) _
  | purgePending id => exact purgePendingUser_ok (ok_of_toOption h) _
  | load user =>
    rw [Directory.perform] at h
    split_ifs at h with hjob
    cases h
    refine .quiet _ (fun _ _ => rfl) rfl le_rfl fun run hrun k hk => ?_
    rcases List.mem_append.mp hrun with hrun | hrun
    · exact .inr ⟨run, hrun, hk⟩
    · have huser : k = user := by
        rw [List.mem_singleton.mp hrun, DeleteUserHandler.load] at hk
        split at hk
        · cases hk
        · split_ifs at hk
          · exact (Option.some.inj hk).symm
          · cases hk
      exact .inl (huser ▸ hjob)
  | scrub i =>
    rw [Directory.perform] at h
    split at h
    · next user hrun =>
      cases h
      refine .quiet _ (fun _ _ => rfl) rfl le_rfl (runsFrom_set hrun fun k hk => ?_)
      exact hk
    · cases h
  | remove i =>
    rw [Directory.perform] at h
    split at h
    · next user hrun =>
      cases h
      refine .remove _ user i hrun ?_ (sameBut_of_lookup fun k hk => ?_) rfl rfl
        (runsFrom_end hrun)
      · show (s.users.erase user).lookup user = none
        rw [IndexedTable.lookup_erase, if_pos rfl]
      · show (s.users.erase user).lookup k = _
        rw [IndexedTable.lookup_erase, if_neg hk]
    · cases h
  | crash i =>
    rw [Directory.perform] at h
    split_ifs at h with hi
    cases h
    exact .quiet _ (fun _ _ => rfl) rfl le_rfl
      (runsFrom_end (List.getElem?_eq_getElem hi))

/-! ## What holds in every state -/

lemma lookup_of_same {p : UserId → Prop} (h : SameBut p s t) {k : UserId} (hk : ¬ p k)
    {u : UserRecord} (hu : t.users.lookup k = some u) :
    ∃ v, s.users.lookup k = some v ∧ v.role = u.role ∧ v.status = u.status := by
  have hsame := h k hk
  rw [hu, Option.map_some] at hsame
  obtain ⟨v, hv, hstanding⟩ := Option.map_eq_some_iff.mp hsame.symm
  exact ⟨v, hv, congrArg Prod.fst hstanding, congrArg Prod.snd hstanding⟩

lemma activeAdmin_of_same {p : UserId → Prop} (h : SameBut p s t) {k : UserId} (hk : ¬ p k)
    (hadmin : s.users.ActiveAdmin k) : t.users.ActiveAdmin k := by
  obtain ⟨u, hu, hrole, hstatus⟩ := hadmin
  have hback : SameBut p t s := fun j hj => (h j hj).symm
  obtain ⟨v, hv, hvrole, hvstatus⟩ := lookup_of_same hback hk hu
  exact ⟨v, hv, hvrole.trans hrole, hvstatus.trans hstatus⟩

/-- A row the step did not touch is as it was. -/
lemma Sane.row (h : Sane s) {p : UserId → Prop} (hsame : SameBut p s t) {k : UserId} (hk : ¬ p k)
    {u : UserRecord} (hu : t.users.lookup k = some u) :
    (u.status = .pending → u.role = .member) ∧ k < s.nextId ∧
      s.jobs.count k = if u.status = .deleting then 1 else 0 := by
  obtain ⟨v, hv, hrole, hstatus⟩ := lookup_of_same hsame hk hu
  rw [← hrole, ← hstatus]
  exact ⟨h.members k v hv, h.known k v hv, h.counted k v hv⟩

lemma Sane.runsOf (h : Sane s) (hruns : RunsFrom s t) (hjobs : ∀ k ∈ s.jobs, k ∈ t.jobs) :
    ∀ run ∈ t.runs, ∀ k, run.user = some k → k ∈ t.jobs := by
  intro run hrun k hk
  rcases hruns run hrun k hk with hjob | ⟨run', hrun', hk'⟩
  · exact hjobs k hjob
  · exact hjobs k (h.runs run' hrun' k hk')

lemma Sane.count_nextId (h : Sane s) : s.jobs.count s.nextId = 0 :=
  List.count_eq_zero.mpr fun hmem => lt_irrefl _ (h.jobsKnown _ hmem)

lemma Sane.deed (h : Sane s) (hdeed : Deed bootstrap s t a) : Sane t := by
  cases hdeed with
  | quiet _ same jobs nextId runs =>
    have hrow := fun k u hu => h.row same (k := k) (u := u) not_false hu
    refine ⟨fun k u hu => (hrow k u hu).1, fun k u hu => (hrow k u hu).2.1.trans_le nextId, ?_, ?_,
      ?_, h.runsOf runs (by simp [jobs])⟩
    · exact fun k hk => (h.jobsKnown k (jobs ▸ hk)).trans_le nextId
    · exact fun k u hu => jobs ▸ (hrow k u hu).2.2
    · exact jobs ▸ h.once
  | enter claims user fresh now entered same jobs nextId runs =>
    have hrow : ∀ k u, t.users.lookup k = some u → (k = s.nextId ∧ u = user) ∨
        ((u.status = .pending → u.role = .member) ∧ k < s.nextId ∧
          s.jobs.count k = if u.status = .deleting then 1 else 0) := by
      intro k u hu
      by_cases hk : k = s.nextId
      · exact .inl ⟨hk, Option.some.inj (hu.symm.trans (hk ▸ now))⟩
      · exact .inr (h.row same hk hu)
    have hentered : (user.status = .pending → user.role = .member) ∧ user.status ≠ .deleting := by
      rcases entered with ⟨hrole, hstatus⟩ | ⟨⟨-, hstatus⟩, -⟩
      · exact ⟨fun _ => hrole, hstatus ▸ by decide⟩
      · rw [hstatus]
        exact ⟨(fun hpending => nomatch hpending), by decide⟩
    refine ⟨fun k u hu => ?_, fun k u hu => ?_, ?_, fun k u hu => ?_, jobs ▸ h.once,
      h.runsOf runs (by simp [jobs])⟩
    · rcases hrow k u hu with ⟨rfl, rfl⟩ | ⟨hmember, -⟩
      · exact hentered.1
      · exact hmember
    · rw [nextId]
      rcases hrow k u hu with ⟨rfl, rfl⟩ | ⟨-, hlt, -⟩
      · exact Nat.lt_succ_self _
      · exact Nat.lt_succ_of_lt hlt
    · intro k hk
      rw [nextId]
      exact Nat.lt_succ_of_lt (h.jobsKnown k (jobs ▸ hk))
    · rw [jobs]
      rcases hrow k u hu with ⟨rfl, rfl⟩ | ⟨-, -, hcount⟩
      · rw [h.count_nextId, if_neg hentered.2]
      · exact hcount
  | move _ k u v was now present stays settled role other same jobs nextId runs =>
    have hrow : ∀ j w, t.users.lookup j = some w → (j = k ∧ w = v) ∨
        ((w.status = .pending → w.role = .member) ∧ j < s.nextId ∧
          s.jobs.count j = if w.status = .deleting then 1 else 0) := by
      intro j w hw
      by_cases hj : j = k
      · exact .inl ⟨hj, Option.some.inj (hw.symm.trans (hj ▸ now))⟩
      · exact .inr (h.row same hj hw)
    refine ⟨fun j w hw => ?_, fun j w hw => ?_, ?_, fun j w hw => ?_, jobs ▸ h.once,
      h.runsOf runs (by simp [jobs])⟩
    · rcases hrow j w hw with ⟨rfl, rfl⟩ | ⟨hmember, -⟩
      · exact fun hpending => absurd hpending settled
      · exact hmember
    · rw [nextId]
      rcases hrow j w hw with ⟨rfl, rfl⟩ | ⟨-, hlt, -⟩
      · exact h.known j u was
      · exact hlt
    · exact fun j hj => nextId ▸ h.jobsKnown j (jobs ▸ hj)
    · rw [jobs]
      rcases hrow j w hw with ⟨rfl, rfl⟩ | ⟨-, -, hcount⟩
      · rw [h.counted j u was, if_neg present, if_neg stays]
      · exact hcount
  | delete _ k u v was now present deleting role other same jobs nextId runs =>
    have hnone : s.jobs.count k = 0 := by rw [h.counted k u was, if_neg present]
    have hrow : ∀ j w, t.users.lookup j = some w → (j = k ∧ w = v) ∨
        (j ≠ k ∧ (w.status = .pending → w.role = .member) ∧ j < s.nextId ∧
          s.jobs.count j = if w.status = .deleting then 1 else 0) := by
      intro j w hw
      by_cases hj : j = k
      · exact .inl ⟨hj, Option.some.inj (hw.symm.trans (hj ▸ now))⟩
      · exact .inr ⟨hj, h.row same hj hw⟩
    refine ⟨fun j w hw => ?_, fun j w hw => ?_, ?_, fun j w hw => ?_, fun j => ?_,
      h.runsOf runs fun j hj => jobs ▸ List.mem_cons_of_mem _ hj⟩
    · rcases hrow j w hw with ⟨rfl, rfl⟩ | ⟨-, hmember, -⟩
      · exact fun hpending => absurd (deleting.symm.trans hpending) (by decide)
      · exact hmember
    · rw [nextId]
      rcases hrow j w hw with ⟨rfl, rfl⟩ | ⟨-, -, hlt, -⟩
      · exact h.known j u was
      · exact hlt
    · intro j hj
      rw [nextId]
      rcases List.mem_cons.mp (jobs ▸ hj) with rfl | hj
      · exact h.known j u was
      · exact h.jobsKnown j hj
    · rw [jobs, List.count_cons]
      rcases hrow j w hw with ⟨rfl, rfl⟩ | ⟨hj, -, -, hcount⟩
      · rw [hnone, if_pos deleting]
        simp
      · rw [hcount]
        simp [Ne.symm hj]
    · rw [jobs, List.count_cons]
      by_cases hj : k = j
      · subst hj
        rw [hnone]
        simp
      · have := h.once j
        simp [hj, this]
  | remove _ k i run gone same jobs nextId runs =>
    have hrow : ∀ j w, t.users.lookup j = some w →
        (w.status = .pending → w.role = .member) ∧ j < s.nextId ∧
          s.jobs.count j = if w.status = .deleting then 1 else 0 := by
      intro j w hw
      have hj : j ≠ k := by
        rintro rfl
        cases gone.symm.trans hw
      exact h.row same hj hw
    refine ⟨fun j w hw => (hrow j w hw).1, fun j w hw => nextId ▸ (hrow j w hw).2.1, ?_,
      fun j w hw => jobs ▸ (hrow j w hw).2.2, jobs ▸ h.once, h.runsOf runs (by simp [jobs])⟩
    exact fun j hj => nextId ▸ h.jobsKnown j (jobs ▸ hj)

lemma Sane.step (hstep : s.Step bootstrap a t) (h : Sane s) : Sane t :=
  h.deed (deed_of_step hstep)

lemma sane_init : Sane {} := by
  refine ⟨nofun, nofun, nofun, nofun, fun k => Nat.zero_le _, nofun⟩

/-! ## The first admin and the last -/

/-- Some user is an active admin. -/
def Directory.Governed (s : Directory) : Prop := ∃ k, s.users.ActiveAdmin k

/-- The user with this ID is being deleted, or the row is gone. -/
def Directory.Leaving (s : Directory) (k : UserId) : Prop :=
  k < s.nextId ∧ ∀ u, s.users.lookup k = some u → u.status = .deleting

/-- A deed leaves an admin. -/
lemma Deed.governed (h : Deed bootstrap s t a) (hs : Sane s) (hgoverned : s.Governed) :
    t.Governed := by
  obtain ⟨k, hk⟩ := hgoverned
  cases h with
  | quiet _ same => exact ⟨k, activeAdmin_of_same same not_false hk⟩
  | enter claims user fresh now entered same =>
    refine ⟨k, activeAdmin_of_same same ?_ hk⟩
    rintro rfl
    obtain ⟨u, hu, -⟩ := hk
    cases fresh.symm.trans hu
  | move _ j u v was now present stays settled role other same =>
    by_cases hkj : k = j
    · subst hkj
      obtain ⟨w, hw, hadmin⟩ := hk
      obtain rfl : w = u := Option.some.inj (hw.symm.trans was)
      rcases other hadmin with hv | ⟨i, hi, hiadmin⟩
      · exact ⟨k, v, now, hv⟩
      · exact ⟨i, activeAdmin_of_same same hi hiadmin⟩
    · exact ⟨k, activeAdmin_of_same same hkj hk⟩
  | delete _ j u v was now present deleting role other same =>
    by_cases hkj : k = j
    · subst hkj
      obtain ⟨w, hw, hadmin⟩ := hk
      obtain rfl : w = u := Option.some.inj (hw.symm.trans was)
      obtain ⟨i, hi, hiadmin⟩ := other hadmin
      exact ⟨i, activeAdmin_of_same same hi hiadmin⟩
    · exact ⟨k, activeAdmin_of_same same hkj hk⟩
  | remove _ j i run gone same =>
    refine ⟨k, activeAdmin_of_same same ?_ hk⟩
    rintro rfl
    -- the user of a run is being deleted, and no admin is
    obtain ⟨u, hu, -, hactive⟩ := hk
    have hjob := hs.runs _ (List.mem_of_getElem? run) k rfl
    have hcount := hs.counted k u hu
    rw [hactive, if_neg (by decide)] at hcount
    exact List.count_eq_zero.mp hcount hjob

/-- Being deleted is final. -/
lemma Deed.leaving (h : Deed bootstrap s t a) {k : UserId} (hleaving : s.Leaving k) :
    t.Leaving k := by
  obtain ⟨hknown, hdeleting⟩ := hleaving
  have hrow : ∀ {p : UserId → Prop}, SameBut p s t → ¬ p k →
      ∀ u, t.users.lookup k = some u → u.status = .deleting := by
    intro p same hk u hu
    obtain ⟨v, hv, -, hstatus⟩ := lookup_of_same same hk hu
    exact hstatus ▸ hdeleting v hv
  cases h with
  | quiet _ same jobs nextId => exact ⟨hknown.trans_le nextId, hrow same not_false⟩
  | enter claims user fresh now entered same jobs nextId =>
    exact ⟨nextId ▸ Nat.lt_succ_of_lt hknown, hrow same hknown.ne⟩
  | move _ j u v was now present stays settled role other same jobs nextId =>
    refine ⟨nextId ▸ hknown, hrow same ?_⟩
    rintro rfl
    exact present (hdeleting u was)
  | delete _ j u v was now present deleting role other same jobs nextId =>
    refine ⟨nextId ▸ hknown, hrow same ?_⟩
    rintro rfl
    exact present (hdeleting u was)
  | remove _ j i run gone same jobs nextId =>
    refine ⟨nextId ▸ hknown, fun u hu => ?_⟩
    by_cases hkj : k = j
    · subst hkj
      cases gone.symm.trans hu
    · exact hrow same hkj u hu

/-- Who was not an admin becomes one by a change of role or the bootstrap rule. -/
lemma Deed.rightful (h : Deed bootstrap s t a) {k : UserId} {v : UserRecord}
    (hv : t.users.lookup k = some v) (hadmin : v.role = .admin)
    (hnot : ∀ u, s.users.lookup k = some u → u.role ≠ .admin) :
    a = .changeRole k .admin ∨
      ∃ claims, a = .signIn claims ∧ s.users.lookup k = none ∧
        claims.bootstraps bootstrap = true ∧ ¬ s.Governed := by
  have hold : ∀ {p : UserId → Prop}, SameBut p s t → ¬ p k → False := by
    intro p same hk
    obtain ⟨u, hu, hrole, -⟩ := lookup_of_same same hk hv
    exact hnot u hu (hrole.trans hadmin)
  cases h with
  | quiet _ same => exact (hold same not_false).elim
  | enter claims user fresh now entered same =>
    by_cases hk : k = s.nextId
    · subst hk
      obtain rfl : v = user := Option.some.inj (hv.symm.trans now)
      rcases entered with ⟨hmember, -⟩ | ⟨-, hmatches, hnone⟩
      · cases hmember.symm.trans hadmin
      · exact .inr ⟨claims, rfl, fresh, hmatches, fun ⟨j, hj⟩ => hnone j hj⟩
    · exact (hold same hk).elim
  | move _ j u w was now present stays settled role other same =>
    by_cases hk : k = j
    · subst hk
      obtain rfl : v = w := Option.some.inj (hv.symm.trans now)
      rcases role hadmin with hrole | hchange
      · exact absurd hrole (hnot u was)
      · exact .inl hchange
    · exact (hold same hk).elim
  | delete _ j u w was now present deleting role other same =>
    by_cases hk : k = j
    · subst hk
      obtain rfl : v = w := Option.some.inj (hv.symm.trans now)
      exact absurd (role.symm.trans hadmin) (hnot u was)
    · exact (hold same hk).elim
  | remove _ j i run gone same =>
    by_cases hk : k = j
    · subst hk
      cases gone.symm.trans hv
    · exact (hold same hk).elim

/-- Only the row of a user who is being deleted is removed. -/
lemma Deed.removed (h : Deed bootstrap s t a) (hs : Sane s) {k : UserId} {u : UserRecord}
    (hu : s.users.lookup k = some u) (hgone : t.users.lookup k = none) : u.status = .deleting := by
  have hkept : ∀ {p : UserId → Prop}, SameBut p s t → p k := by
    intro p same
    by_contra hk
    have hsame := same k hk
    rw [hu, hgone] at hsame
    cases hsame
  cases h with
  | quiet _ same => exact (hkept same).elim
  | enter claims user fresh now entered same =>
    obtain rfl : k = s.nextId := hkept same
    cases fresh.symm.trans hu
  | move _ j w v was now present stays settled role other same =>
    obtain rfl : k = j := hkept same
    cases now.symm.trans hgone
  | delete _ j w v was now present deleting role other same =>
    obtain rfl : k = j := hkept same
    cases now.symm.trans hgone
  | remove _ j i run gone same =>
    obtain rfl : k = j := hkept same
    have hjob := hs.runs _ (List.mem_of_getElem? run) k rfl
    have hcount := hs.counted k u hu
    by_contra hstatus
    rw [if_neg hstatus] at hcount
    exact List.count_eq_zero.mp hcount hjob

/-- **There is always an admin, and only a rightful one.**  In every run of the directory: a
pending user is a member; once there is an active admin there is one from then on; who becomes an
admin does so by a change of role or, when there is no active admin, as a new user who matches the
bootstrap rule; a user who is being deleted stays so until the row is gone for good, no other row
is removed, and each has one deletion job. -/
theorem admins_rightful {es : List Action} (h : Run (Directory.Step bootstrap) {} es s) :
    (∀ k u, s.users.lookup k = some u →
        (u.status = .pending → u.role = .member) ∧
          s.jobs.count k = if u.status = .deleting then 1 else 0) ∧
      (∀ k, s.jobs.count k ≤ 1) ∧
      (∀ fs t, Run (Directory.Step bootstrap) s fs t →
        (s.Governed → t.Governed) ∧
          (∀ k u, s.users.lookup k = some u → u.status = .deleting → t.Leaving k)) ∧
      (∀ a t, s.Step bootstrap a t →
        (∀ k v, t.users.lookup k = some v → v.role = .admin →
          (∀ u, s.users.lookup k = some u → u.role ≠ .admin) →
            a = .changeRole k .admin ∨
              ∃ claims, a = .signIn claims ∧ s.users.lookup k = none ∧
                claims.bootstraps bootstrap = true ∧ ¬ s.Governed) ∧
          (∀ k u, s.users.lookup k = some u → t.users.lookup k = none → u.status = .deleting)) := by
  have hs : Sane s := h.invariant Sane.step sane_init
  refine ⟨fun k u hu => ⟨hs.members k u hu, hs.counted k u hu⟩, hs.once, fun fs t hrun => ?_,
    fun a t hstep => ?_⟩
  · constructor
    · intro hgoverned
      have hboth : Sane t ∧ t.Governed :=
        hrun.invariant (I := fun s => Sane s ∧ s.Governed)
          (fun hstep hi => ⟨hi.1.step hstep, (deed_of_step hstep).governed hi.1 hi.2⟩)
          ⟨hs, hgoverned⟩
      exact hboth.2
    · intro k u hu hdeleting
      have hleaving : s.Leaving k := by
        refine ⟨hs.known k u hu, fun v hv => ?_⟩
        rwa [Option.some.inj (hv.symm.trans hu)]
      exact hrun.invariant (I := fun s => s.Leaving k)
        (fun hstep hi => (deed_of_step hstep).leaving hi) hleaving
  · have hdeed := deed_of_step hstep
    exact ⟨fun k v hv hadmin hnot => hdeed.rightful hv hadmin hnot,
      fun k u hu hgone => hdeed.removed hs hu hgone⟩

/-- The first user matches the rule, makes the second an admin, and leaves. -/
def handover : List Action :=
  [.signIn { iss := "idp", sub := "first" }, .signIn { iss := "idp", sub := "second" }, .approve 1,
    .changeRole 1 .admin, .deleteSelf 0, .load 0, .scrub 0, .remove 0]

def firstSubject : BootstrapSettings := { adminSubject := some "first" }

def secondAdmin : UserRecord where
  oidcIssuer := "idp"
  oidcSubject := "second"
  displayName := "second"
  role := .admin
  status := .active

/-- After the first user has left, the second governs. -/
theorem admins_rightful_handover :
    ∃ s, Run (Directory.Step firstSubject) {} handover s ∧ s.users.lookup 0 = none ∧
      (∀ k, s.jobs.count k ≤ 1) ∧ ∀ fs t, Run (Directory.Step firstSubject) s fs t → t.Governed := by
  have hend : (handover.foldlM (Directory.perform firstSubject) {}).map
      (fun s => (s.users.lookup 0, s.users.lookup 1)) = some (none, some secondAdmin) := by
    decide
  obtain ⟨s, hfold, hrows⟩ := Option.map_eq_some_iff.mp hend
  obtain ⟨hgone, hsecond⟩ := Prod.ext_iff.mp hrows
  have hs : Run (Directory.Step firstSubject) {} handover s := Run.of_foldlM (fun h => h) hfold
  obtain ⟨-, honce, hlater, -⟩ := admins_rightful hs
  exact ⟨s, hs, hgone, honce, fun fs t h => (hlater fs t h).1 ⟨1, _, hsecond, rfl, rfl⟩⟩

end Postit.Identity

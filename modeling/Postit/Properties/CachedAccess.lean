import Postit.Framework.Pool
import Postit.Framework.Trace
import Postit.Identity.Cache

/-!
# The principal cache keeps no outdated access

When every committed change has been invalidated and nothing is in the middle of an insert or an
invalidation, the cache returns nothing for an identity or what the database holds for the user it
has now (`cached_access_current`).

An outdated principal is never alone: in the cache it is accompanied by a change not yet
invalidated or by someone about to evict it, and in a call by such a change or by a counter that
has moved on since the call read it (`Inv`).
-/

namespace Postit.Identity

open Postit.Data (UserId)
open Postit.Framework

/-! ## Principals and rows -/

/-- The database holds this role and status for the user. -/
def Users.Holds (users : Users) (p : Principal) : Prop :=
  ∃ row, users.lookup p.userId = some row ∧ p.role = row.role ∧ p.status = row.status

namespace CacheTask

/-- The reading of the counter a call goes by. -/
def reading : CacheTask → Option ℕ
  | .counted _ g | .resolved _ g _ | .checked _ g _ | .indexed _ g _ | .inserted g _ => some g
  | .missed _ | .evicting _ | .evictingAll | .done => none

/-- The principal a call read, with its reading of the counter. -/
def principal : CacheTask → Option (ℕ × Principal)
  | .resolved _ g p | .checked _ g p | .indexed _ g p | .inserted g p => some (g, p)
  | .missed _ | .counted _ _ | .evicting _ | .evictingAll | .done => none

/-- The identity a call will index, with the user it has. -/
def entry : CacheTask → Option ((String × String) × UserId)
  | .resolved identity _ p | .checked identity _ p | .indexed identity _ p =>
    some (identity, p.userId)
  | .missed _ | .counted _ _ | .inserted _ _ | .evicting _ | .evictingAll | .done => none

/-- Whether this one will evict the user's principal, given the counter. -/
def Clears (generation : ℕ) (user : UserId) : CacheTask → Prop
  | .evicting u => u = user
  | .evictingAll => True
  | .inserted g p => p.userId = user ∧ g < generation
  | .missed _ | .counted _ _ | .resolved _ _ _ | .checked _ _ _ | .indexed _ _ _ | .done => False

end CacheTask

namespace Process

/-- The user was created for this identity, and has it if there is a row. -/
def Owned (s : Process) (identity : String × String) (user : UserId) : Prop :=
  user < s.nextId ∧ ∀ row, s.users.lookup user = some row → row.identity = identity

/-- Somebody will evict the user's principal. -/
def Cleared (s : Process) (user : UserId) : Prop :=
  ∃ task ∈ s.tasks, task.Clears s.cache.generation user

/-- What a call has read is the database's, or something tells it otherwise. -/
structure Fits (s : Process) (task : CacheTask) : Prop where
  reading : ∀ g, task.reading = some g → g ≤ s.cache.generation
  principal : ∀ g p, task.principal = some (g, p) →
    s.users.Holds p ∨ p.userId ∈ s.changed ∨ g < s.cache.generation
  entry : ∀ identity user, task.entry = some (identity, user) → s.Owned identity user

/-- An outdated principal does not stay. -/
structure Inv (s : Process) : Prop where
  known : ∀ k row, s.users.lookup k = some row → k < s.nextId
  tasks : ∀ task ∈ s.tasks, s.Fits task
  index : ∀ identity user, s.cache.identityIndex identity = some user → s.Owned identity user
  principals : ∀ user p, s.cache.principals user = some p →
    p.userId = user ∧ (s.users.Holds p ∨ user ∈ s.changed ∨ s.Cleared user)

/-! ## Going on -/

/-- What was read before stays right, or something tells so. -/
structure Onward (s t : Process) : Prop where
  generation : s.cache.generation ≤ t.cache.generation
  owned : ∀ identity user, s.Owned identity user → t.Owned identity user
  held : ∀ p, s.users.Holds p ∨ p.userId ∈ s.changed →
    t.users.Holds p ∨ p.userId ∈ t.changed ∨ s.cache.generation < t.cache.generation

variable {s t : Process} {bootstrap : BootstrapSettings} {i : ℕ} {task : CacheTask}

lemma Onward.of_eq (husers : t.users = s.users) (hnext : t.nextId = s.nextId)
    (hchanged : t.changed = s.changed) (hgeneration : t.cache.generation = s.cache.generation) :
    Onward s t := by
  refine ⟨hgeneration.ge, fun identity user h => ?_, fun p h => ?_⟩
  · unfold Owned at h ⊢
    rwa [husers, hnext]
  · rw [husers, hchanged]
    rcases h with h | h
    · exact .inl h
    · exact .inr (.inl h)

lemma CacheTask.reading_of_principal {g : ℕ} {p : Principal}
    (h : task.principal = some (g, p)) : task.reading = some g := by
  cases task <;> cases h <;> rfl

lemma Fits.onward (h : s.Fits task) (hst : Onward s t) : t.Fits task := by
  refine ⟨fun g hg => (h.reading g hg).trans hst.generation, fun g p hp => ?_,
    fun identity user he => hst.owned identity user (h.entry identity user he)⟩
  have hle := h.reading g (CacheTask.reading_of_principal hp)
  have hmoved : s.cache.generation < t.cache.generation →
      t.users.Holds p ∨ p.userId ∈ t.changed ∨ g < t.cache.generation :=
    fun hlt => .inr (.inr (hle.trans_lt hlt))
  rcases h.principal g p hp with hholds | hchanged | hlt
  · rcases hst.held p (.inl hholds) with hholds | hchanged | hlt
    · exact .inl hholds
    · exact .inr (.inl hchanged)
    · exact hmoved hlt
  · rcases hst.held p (.inr hchanged) with hholds | hchanged | hlt
    · exact .inl hholds
    · exact .inr (.inl hchanged)
    · exact hmoved hlt
  · exact .inr (.inr (hlt.trans_le hst.generation))

lemma mem_become (h : task ∈ (s.become i new).tasks) : task = new ∨ task ∈ s.tasks :=
  (List.mem_or_eq_of_mem_set h).symm

lemma mem_spawn (h : task ∈ (s.spawn new).tasks) : task = new ∨ task ∈ s.tasks := by
  rcases List.mem_append.mp h with h | h
  · exact .inr h
  · exact .inl (List.mem_singleton.mp h)

/-- Who is not about to evict may do something else. -/
lemma Cleared.become {old new : CacheTask} {user : UserId} (h : s.Cleared user)
    (hi : s.tasks[i]? = some old)
    (hold : old.Clears s.cache.generation user → new.Clears s.cache.generation user) :
    (s.become i new).Cleared user := by
  obtain ⟨task, htask, hclears⟩ := h
  obtain ⟨j, hj⟩ := List.mem_iff_getElem?.mp htask
  have hlt : i < s.tasks.length := (List.getElem?_eq_some_iff.mp hi).1
  by_cases hij : i = j
  · subst hij
    obtain rfl : task = old := Option.some.inj (hj.symm.trans hi)
    refine ⟨new, List.mem_of_getElem? (i := i) ?_, hold hclears⟩
    show (s.tasks.set i new)[i]? = some new
    rw [List.getElem?_set_self hlt]
  · refine ⟨task, List.mem_of_getElem? (i := j) ?_, hclears⟩
    show (s.tasks.set i new)[j]? = some task
    rw [List.getElem?_set_ne hij]
    exact hj

lemma Cleared.spawn {new : CacheTask} {user : UserId} (h : s.Cleared user) :
    (s.spawn new).Cleared user := by
  obtain ⟨task, htask, hclears⟩ := h
  exact ⟨task, List.mem_append_left _ htask, hclears⟩

/-! ## The database -/

/-- A change of one row leaves the others, and every identity. -/
lemma applyChange_ok {users users' : Users} {user : UserId} {change : UserChange}
    (h : applyChange users user change = .ok users') :
    (∃ row, users.lookup user = some row) ∧
      (∀ k, k ≠ user → users'.lookup k = users.lookup k) ∧
      ∀ k row, users'.lookup k = some row →
        ∃ was, users.lookup k = some was ∧ row.identity = was.identity := by
  have hupdate : ∀ {f : UserRecord → UserRecord} {hf : ∀ u, (f u).identity = u.identity}
      {row : UserRecord}, UsersRepo.updateOne users user f hf = .ok (users', row) →
      (∃ row, users.lookup user = some row) ∧
        (∀ k, k ≠ user → users'.lookup k = users.lookup k) ∧
        ∀ k row, users'.lookup k = some row →
          ∃ was, users.lookup k = some was ∧ row.identity = was.identity := by
    intro f hf row h
    obtain ⟨was, hwas, -, hall⟩ := UsersRepo.updateOne_ok h
    refine ⟨⟨was, hwas⟩, fun k hk => by rw [hall, if_neg hk], fun k row hrow => ?_⟩
    rw [hall] at hrow
    split_ifs at hrow with hk
    · subst hk
      exact ⟨was, hwas, Option.some.inj hrow ▸ hf was⟩
    · exact ⟨row, hrow, rfl⟩
  cases change with
  | setStatus status =>
    obtain ⟨⟨users'', row⟩, hset, rfl⟩ := map_eq_ok h
    exact hupdate hset
  | setRole role =>
    obtain ⟨⟨users'', row⟩, hset, rfl⟩ := map_eq_ok h
    exact hupdate hset
  | grantAdmin =>
    obtain ⟨⟨users'', row⟩, hset, rfl⟩ := map_eq_ok h
    exact hupdate hset
  | delete =>
    rw [applyChange] at h
    split at h
    · cases h
    · next was hwas =>
      obtain rfl := Except.ok.inj h
      refine ⟨⟨was, hwas⟩, fun k hk => by rw [IndexedTable.lookup_erase, if_neg hk],
        fun k row hrow => ?_⟩
      rw [IndexedTable.lookup_erase] at hrow
      split_ifs at hrow
      exact ⟨row, hrow, rfl⟩

lemma Onward.change {users' : Users} {user : UserId} {change : UserChange}
    (h : applyChange s.users user change = .ok users') :
    Onward s { s with users := users', changed := user :: s.changed } := by
  obtain ⟨-, hothers, hidentity⟩ := applyChange_ok h
  refine ⟨le_rfl, fun identity u howned => ⟨howned.1, fun row hrow => ?_⟩, fun p hp => ?_⟩
  · obtain ⟨was, hwas, hsame⟩ := hidentity u row hrow
    exact hsame.trans (howned.2 was hwas)
  · by_cases hpu : p.userId = user
    · exact .inr (.inl (hpu ▸ List.mem_cons_self))
    · rcases hp with ⟨row, hrow, hsame⟩ | hp
      · exact .inl ⟨row, (hothers _ hpu).trans hrow, hsame⟩
      · exact .inr (.inl (List.mem_cons_of_mem _ hp))

lemma known_of_change {users' : Users} {user : UserId} {change : UserChange}
    (hknown : ∀ k row, s.users.lookup k = some row → k < s.nextId)
    (h : applyChange s.users user change = .ok users') :
    ∀ k row, users'.lookup k = some row → k < s.nextId := by
  intro k row hrow
  obtain ⟨was, hwas, -⟩ := (applyChange_ok h).2.2 k row hrow
  exact hknown k was hwas

/-- A sign-in changes nobody's rights. -/
lemma Onward.transform {users' : Users} {key : UserId} {user : UserRecord} {claims : Claims}
    (hknown : ∀ k row, s.users.lookup k = some row → k < s.nextId)
    (h : transform bootstrap s.users s.nextId claims = .ok (users', key, user)) :
    Onward s { s with users := users', nextId := s.nextId + 1 } ∧
      (∀ k row, users'.lookup k = some row → k < s.nextId + 1) ∧
      users'.lookup key = some user ∧ user.identity = (claims.iss, claims.sub) := by
  obtain ⟨hnow, hothers, hidentity, hcases⟩ := transform_ok h
  have hkey : key < s.nextId + 1 := by
    rcases hcases with ⟨u, hu, -⟩ | ⟨rfl, -⟩
    · exact Nat.lt_succ_of_lt (hknown key u hu)
    · exact Nat.lt_succ_self _
  have hlookup : ∀ k row, users'.lookup k = some row → (k = key ∧ row = user) ∨
      (k ≠ key ∧ s.users.lookup k = some row) := by
    intro k row hrow
    by_cases hk : k = key
    · exact .inl ⟨hk, Option.some.inj (hrow.symm.trans (hk ▸ hnow))⟩
    · exact .inr ⟨hk, (hothers k hk).symm.trans hrow⟩
  refine ⟨⟨le_rfl, fun identity u howned => ⟨Nat.lt_succ_of_lt howned.1, fun row hrow => ?_⟩,
    fun p hp => ?_⟩, fun k row hrow => ?_, hnow, hidentity⟩
  · rcases hlookup u row hrow with ⟨rfl, rfl⟩ | ⟨-, hrow⟩
    · rcases hcases with ⟨was, hwas, hsame, -⟩ | ⟨rfl, -⟩
      · exact hsame.trans (howned.2 was hwas)
      · exact absurd howned.1 (lt_irrefl _)
    · exact howned.2 row hrow
  · rcases hp with ⟨row, hrow, hrole, hstatus⟩ | hp
    · refine .inl ?_
      by_cases hpk : p.userId = key
      · rcases hcases with ⟨was, hwas, -, hrole', hstatus'⟩ | ⟨rfl, hfree, -⟩
        · obtain rfl : row = was := Option.some.inj (hrow.symm.trans (hpk ▸ hwas))
          exact ⟨user, hpk ▸ hnow, hrole.trans hrole'.symm, hstatus.trans hstatus'.symm⟩
        · rw [hpk, hfree] at hrow
          cases hrow
      · exact ⟨row, (hothers _ hpk).trans hrow, hrole, hstatus⟩
    · exact .inr (.inl hp)
  · rcases hlookup k row hrow with ⟨rfl, -⟩ | ⟨-, hrow⟩
    · exact hkey
    · exact Nat.lt_succ_of_lt (hknown k row hrow)

/-! ## The invariant -/

/-- The database goes on, the cache and those at work on it as they are. -/
lemma Inv.onward (h : s.Inv) (hst : Onward s t) (hcache : t.cache = s.cache)
    (htasks : t.tasks = s.tasks) (hknown : ∀ k row, t.users.lookup k = some row → k < t.nextId) :
    t.Inv := by
  refine ⟨hknown, fun task htask => (h.tasks task (htasks ▸ htask)).onward hst,
    fun identity user hindex => hst.owned _ _ (h.index identity user (hcache ▸ hindex)),
    fun user p hp => ?_⟩
  obtain ⟨rfl, hcurrent⟩ := h.principals user p (hcache ▸ hp)
  refine ⟨rfl, ?_⟩
  have hkept : ∀ h : s.users.Holds p ∨ p.userId ∈ s.changed,
      t.users.Holds p ∨ p.userId ∈ t.changed ∨ t.Cleared p.userId := by
    intro h
    rcases hst.held p h with hholds | hchanged | hlt
    · exact .inl hholds
    · exact .inr (.inl hchanged)
    · rw [hcache] at hlt
      exact absurd hlt (lt_irrefl _)
  rcases hcurrent with hholds | hchanged | ⟨task, htask, hclears⟩
  · exact hkept (.inl hholds)
  · exact hkept (.inr hchanged)
  · exact .inr (.inr ⟨task, htasks ▸ htask, hcache ▸ hclears⟩)

/-- Somebody goes on in a way that evicts no less than before. -/
lemma Inv.become {old new : CacheTask} (h : s.Inv) (hi : s.tasks[i]? = some old)
    (hnew : s.Fits new)
    (hclears : ∀ user, old.Clears s.cache.generation user → new.Clears s.cache.generation user) :
    (s.become i new).Inv := by
  have hst : Onward s (s.become i new) := .of_eq rfl rfl rfl rfl
  refine ⟨h.known, fun task htask => ?_, h.index, fun user p hp => ?_⟩
  · rcases mem_become htask with rfl | htask
    · exact hnew.onward hst
    · exact (h.tasks task htask).onward hst
  · obtain ⟨huser, hholds | hchanged | hcleared⟩ := h.principals user p hp
    · exact ⟨huser, .inl hholds⟩
    · exact ⟨huser, .inr (.inl hchanged)⟩
    · exact ⟨huser, .inr (.inr (hcleared.become hi (hclears user)))⟩

lemma Inv.spawn {new : CacheTask} (h : s.Inv) (hnew : s.Fits new) : (s.spawn new).Inv := by
  have hst : Onward s (s.spawn new) := .of_eq rfl rfl rfl rfl
  refine ⟨h.known, fun task htask => ?_, h.index, fun user p hp => ?_⟩
  · rcases mem_spawn htask with rfl | htask
    · exact hnew.onward hst
    · exact (h.tasks task htask).onward hst
  · obtain ⟨huser, hholds | hchanged | hcleared⟩ := h.principals user p hp
    · exact ⟨huser, .inl hholds⟩
    · exact ⟨huser, .inr (.inl hchanged)⟩
    · exact ⟨huser, .inr (.inr hcleared.spawn)⟩

lemma fits_idle (s : Process) (h : task.reading = none) (he : task.entry = none) :
    s.Fits task := by
  refine ⟨fun g hg => ?_, fun g p hp => ?_, fun identity user hentry => ?_⟩
  · rw [h] at hg
    cases hg
  · rw [CacheTask.reading_of_principal hp] at h
    cases h
  · rw [he] at hentry
    cases hentry

lemma fits_done (s : Process) : s.Fits .done := fits_idle s rfl rfl

/-- Whoever clears nothing may stop. -/
lemma Inv.stop {old : CacheTask} (h : s.Inv) (hi : s.tasks[i]? = some old)
    (hold : ∀ user, ¬ old.Clears s.cache.generation user) : (s.become i .done).Inv :=
  h.become hi (fits_done s) fun user hclears => absurd hclears (hold user)

/-- The index is written by a call that knows the user's identity. -/
lemma Inv.insertIndex {identity : String × String} {user : UserId} (h : s.Inv)
    (howned : s.Owned identity user) :
    ({ s with cache := s.cache.insertIndex identity user } : Process).Inv := by
  have hst : Onward s { s with cache := s.cache.insertIndex identity user } :=
    .of_eq rfl rfl rfl rfl
  refine ⟨h.known, fun task htask => (h.tasks task htask).onward hst, fun x u hindex => ?_,
    h.principals⟩
  change Function.update s.cache.identityIndex identity (some user) x = some u at hindex
  by_cases hx : x = identity
  · rw [hx, Function.update_self, Option.some.injEq] at hindex
    rw [hx, ← hindex]
    exact hst.owned _ _ howned
  · rw [Function.update_of_ne hx] at hindex
    exact hst.owned _ _ (h.index x u hindex)

/-- A principal goes from the cache, and whoever was about to evict it has done so. -/
lemma Inv.evict {user : UserId} (h : s.Inv) {new : List CacheTask}
    (hnew : ∀ task ∈ new, task = .done ∨ task ∈ s.tasks)
    (hcleared : ∀ u, u ≠ user → s.Cleared u →
      ({ s with cache := s.cache.evict user, tasks := new } : Process).Cleared u) :
    ({ s with cache := s.cache.evict user, tasks := new } : Process).Inv := by
  have hst : Onward s { s with cache := s.cache.evict user, tasks := new } :=
    .of_eq rfl rfl rfl rfl
  refine ⟨h.known, fun task htask => ?_, h.index, fun u p hp => ?_⟩
  · rcases hnew task htask with rfl | htask
    · exact fits_done _
    · exact (h.tasks task htask).onward hst
  · change Function.update s.cache.principals user none u = some p at hp
    by_cases hu : u = user
    · rw [hu, Function.update_self] at hp
      cases hp
    · rw [Function.update_of_ne hu] at hp
      obtain ⟨huser, hholds | hchanged | hclears⟩ := h.principals u p hp
      · exact ⟨huser, .inl hholds⟩
      · exact ⟨huser, .inr (.inl hchanged)⟩
      · exact ⟨huser, .inr (.inr (hcleared u hu hclears))⟩

/-- An insert that writes its principal: an outdated one it will evict itself. -/
lemma Inv.insertPrincipal {identity : String × String} {g : ℕ} {p : Principal} (h : s.Inv)
    (hi : s.tasks[i]? = some (.indexed identity g p)) :
    ({ s with cache := s.cache.insertPrincipal p }.become i (.inserted g p)).Inv := by
  have hfits := h.tasks _ (List.mem_of_getElem? hi)
  have hread := hfits.reading g rfl
  have hfresh := hfits.principal g p rfl
  let s' : Process := { s with cache := s.cache.insertPrincipal p }
  have hst : Onward s (s'.become i (.inserted g p)) := .of_eq rfl rfl rfl rfl
  have hnew : (s'.become i (.inserted g p)).Fits (.inserted g p) :=
    ⟨fun _ hg => Option.some.inj hg ▸ hread, fun _ _ hp => by cases hp; exact hfresh,
      fun _ _ he => nomatch he⟩
  have hmem : CacheTask.inserted g p ∈ (s'.become i (.inserted g p)).tasks :=
    List.mem_set (List.getElem?_eq_some_iff.mp hi).1 _
  refine ⟨h.known, fun task htask => ?_, h.index, fun u q hq => ?_⟩
  · rcases mem_become htask with rfl | htask
    · exact hnew
    · exact (h.tasks task htask).onward hst
  · change Function.update s.cache.principals p.userId (some p) u = some q at hq
    by_cases hu : u = p.userId
    · subst hu
      rw [Function.update_self, Option.some.injEq] at hq
      subst hq
      refine ⟨rfl, ?_⟩
      rcases hfresh with hholds | hchanged | hlt
      · exact .inl hholds
      · exact .inr (.inl hchanged)
      · exact .inr (.inr ⟨_, hmem, rfl, hlt⟩)
    · rw [Function.update_of_ne hu] at hq
      obtain ⟨huser, hholds | hchanged | hclears⟩ := h.principals u q hq
      · exact ⟨huser, .inl hholds⟩
      · exact ⟨huser, .inr (.inl hchanged)⟩
      · have hkept : s'.Cleared u := hclears
        exact ⟨huser, .inr (.inr (hkept.become hi fun hold => hold.elim))⟩

lemma Inv.insertStep (h : s.Inv) (hi : s.tasks[i]? = some task)
    (hstep : s.insertStep i task = some t) : t.Inv := by
  have hfits := h.tasks _ (List.mem_of_getElem? hi)
  match task, hstep with
  | .resolved identity g p, hstep =>
    rw [Process.insertStep] at hstep
    split_ifs at hstep with hmoved
    · exact Option.some.inj hstep ▸ h.stop hi fun _ hclears => hclears
    · refine Option.some.inj hstep ▸ h.become hi ?_ fun _ hclears => hclears
      exact ⟨hfits.reading, hfits.principal, hfits.entry⟩
  | .checked identity g p, hstep =>
    obtain rfl := Option.some.inj hstep
    refine (h.insertIndex (hfits.entry identity p.userId rfl)).become hi ?_ fun _ hclears => hclears
    exact (⟨hfits.reading, hfits.principal, hfits.entry⟩ : s.Fits (.indexed identity g p)).onward
      (.of_eq rfl rfl rfl rfl)
  | .indexed identity g p, hstep => exact Option.some.inj hstep ▸ h.insertPrincipal hi
  | .inserted g p, hstep =>
    rw [Process.insertStep] at hstep
    split_ifs at hstep with hmoved
    · refine Option.some.inj hstep ▸ h.become hi (fits_idle s rfl rfl) fun _ hclears => ?_
      exact hclears.1
    · refine Option.some.inj hstep ▸ h.stop hi fun _ hclears => ?_
      exact hclears.2.ne (not_not.mp hmoved).symm

/-- An invalidation bumps the counter before it evicts. -/
lemma Inv.invalidate {changed : List UserId} {evicting : CacheTask} (h : s.Inv)
    (hread : evicting.reading = none) (hentry : evicting.entry = none)
    (hchanged : ∀ u ∈ s.changed, u ∈ changed ∨ ∀ g, evicting.Clears g u) :
    ({ s with changed := changed, cache := s.cache.bump }.spawn evicting).Inv := by
  have hlt : s.cache.generation < s.cache.bump.generation := Nat.lt_succ_self _
  have hst : Onward s ({ s with changed := changed, cache := s.cache.bump }.spawn evicting) :=
    ⟨hlt.le, fun _ _ howned => howned, fun p hp => .inr (.inr hlt)⟩
  refine ⟨h.known, fun task htask => ?_, h.index, fun u p hp => ?_⟩
  · rcases mem_spawn htask with rfl | htask
    · exact fits_idle _ hread hentry
    · exact (h.tasks task htask).onward hst
  · obtain ⟨huser, hholds | hin | ⟨task, htask, hclears⟩⟩ := h.principals u p hp
    · exact ⟨huser, .inl hholds⟩
    · rcases hchanged u hin with hin | hclears
      · exact ⟨huser, .inr (.inl hin)⟩
      · exact ⟨huser, .inr (.inr ⟨evicting, List.mem_append_right _ (by simp), hclears _⟩)⟩
    · refine ⟨huser, .inr (.inr ⟨task, List.mem_append_left _ htask, ?_⟩)⟩
      match task, hclears with
      | .evicting _, hclears => exact hclears
      | .evictingAll, _ => trivial
      | .inserted _ _, hclears => exact ⟨hclears.1, hclears.2.trans hlt⟩

lemma Inv.evictAll (h : s.Inv) (i : ℕ) :
    ({ s with cache := s.cache.evictAll }.become i .done).Inv := by
  have hst : Onward s ({ s with cache := s.cache.evictAll }.become i .done) :=
    .of_eq rfl rfl rfl rfl
  refine ⟨h.known, fun task htask => ?_, h.index, fun u p hp => nomatch hp⟩
  rcases mem_become htask with rfl | htask
  · exact fits_done _
  · exact (h.tasks task htask).onward hst

lemma Inv.expireIndex (h : s.Inv) (identity : String × String) :
    ({ s with cache := s.cache.evictIndex identity } : Process).Inv := by
  have hst : Onward s { s with cache := s.cache.evictIndex identity } := .of_eq rfl rfl rfl rfl
  refine ⟨h.known, fun task htask => (h.tasks task htask).onward hst, fun x u hindex => ?_,
    h.principals⟩
  change Function.update s.cache.identityIndex identity none x = some u at hindex
  by_cases hx : x = identity
  · rw [hx, Function.update_self] at hindex
    cases hindex
  · rw [Function.update_of_ne hx] at hindex
    exact hst.owned _ _ (h.index x u hindex)

lemma Inv.resolve {claims : Claims} {g : ℕ} {users' : Users} {key : UserId} {user : UserRecord}
    (h : s.Inv) (hi : s.tasks[i]? = some (.counted claims g))
    (htransform : Identity.transform bootstrap s.users s.nextId claims =
      .ok (users', key, user)) :
    ({ s with users := users', nextId := s.nextId + 1 }.become i
      (.resolved (claims.iss, claims.sub) g (.ofRecord key user))).Inv := by
  obtain ⟨hst, hknown, hnow, hidentity⟩ := Onward.transform h.known htransform
  have hread := (h.tasks _ (List.mem_of_getElem? hi)).reading g rfl
  refine (h.onward hst rfl rfl hknown).become hi ?_ fun _ hclears => hclears
  refine ⟨fun _ hg => Option.some.inj hg ▸ hread, fun g' p hp => ?_, fun x u hentry => ?_⟩
  · cases hp
    exact .inl ⟨user, hnow, rfl, rfl⟩
  · cases hentry
    refine ⟨hknown key user hnow, fun row hrow => ?_⟩
    rw [Option.some.inj (hrow.symm.trans hnow)]
    exact hidentity

/-- Every step keeps the invariant. -/
lemma Inv.step {a : CacheAction} (hstep : s.Step bootstrap a t) (h : s.Inv) : t.Inv := by
  unfold Process.Step at hstep
  match a with
  | .change user change =>
    obtain ⟨users', hchange, rfl⟩ := map_eq_ok (ok_of_toOption hstep)
    have hknown := known_of_change h.known hchange
    exact h.onward (.change hchange) rfl rfl hknown
  | .signIn claims =>
    obtain ⟨⟨users', key, user⟩, htransform, rfl⟩ := map_eq_ok (ok_of_toOption hstep)
    obtain ⟨hst, hknown, -⟩ := Onward.transform h.known htransform
    exact h.onward hst rfl rfl hknown
  | .miss claims =>
    rw [Process.perform] at hstep
    split_ifs at hstep
    exact Option.some.inj hstep ▸ h.spawn (fits_idle s rfl rfl)
  | .count i =>
    rw [Process.perform] at hstep
    split at hstep
    · next claims hi =>
      refine Option.some.inj hstep ▸ h.become hi ?_ fun _ hclears => hclears
      exact ⟨fun _ hg => (Option.some.inj hg).ge, (fun _ _ hp => nomatch hp),
        (fun _ _ he => nomatch he)⟩
    · cases hstep
  | .resolve i =>
    rw [Process.perform] at hstep
    split at hstep
    · next claims g hi =>
      obtain ⟨⟨users', key, user⟩, htransform, rfl⟩ := map_eq_ok (ok_of_toOption hstep)
      exact h.resolve hi htransform
    · cases hstep
  | .insert i =>
    obtain ⟨task, hi, hstep⟩ := Option.bind_eq_some_iff.mp hstep
    exact h.insertStep hi hstep
  | .fail i =>
    rw [Process.perform] at hstep
    split at hstep
    · next hi => exact Option.some.inj hstep ▸ h.stop hi fun _ hclears => hclears
    · next hi => exact Option.some.inj hstep ▸ h.stop hi fun _ hclears => hclears
    · next hi => exact Option.some.inj hstep ▸ h.stop hi fun _ hclears => hclears
    · cases hstep
  | .invalidateUser user =>
    refine Option.some.inj hstep ▸ h.invalidate rfl rfl fun u hu => ?_
    by_cases huser : u = user
    · exact .inr fun g => huser.symm
    · exact .inl (List.mem_filter.mpr ⟨hu, by simpa using huser⟩)
  | .invalidateAll => exact Option.some.inj hstep ▸ h.invalidate rfl rfl fun u hu => .inl hu
  | .evict i =>
    rw [Process.perform] at hstep
    split at hstep
    · next user hi =>
      refine Option.some.inj hstep ▸ h.evict (fun task htask => ?_) fun u hu hcleared => ?_
      · exact (List.mem_or_eq_of_mem_set htask).symm
      · exact hcleared.become hi fun hclears => absurd hclears.symm hu
    · exact Option.some.inj hstep ▸ h.evictAll i
    · cases hstep
  | .expireIndex identity => exact Option.some.inj hstep ▸ h.expireIndex identity
  | .expirePrincipal user =>
    exact Option.some.inj hstep ▸ h.evict (fun _ htask => .inr htask) fun _ _ hcleared => hcleared

lemma inv_init : ({} : Process).Inv :=
  ⟨(fun _ _ h => nomatch h), (fun _ h => nomatch h), (fun _ _ h => nomatch h),
    (fun _ _ h => nomatch h)⟩

/-- **No outdated access.**  In a run that is settled, the cache has nothing for an identity, or the
role and status the database holds for the user the identity has now. -/
theorem cached_access_current {es : List CacheAction}
    (h : Run (Process.Step bootstrap) {} es s) (hsettled : s.Settled) (identity : String × String) :
    s.cache.get identity = none ∨
      ∃ p row, s.cache.get identity = some p ∧
        s.users.byIndex identity = some (p.userId, row) ∧ p.role = row.role ∧
          p.status = row.status := by
  have hinv : s.Inv := h.invariant Inv.step inv_init
  obtain ⟨hchanged, hidle⟩ := hsettled
  rcases hget : s.cache.get identity with _ | p
  · exact .inl rfl
  obtain ⟨user, hindex, hp⟩ := Option.bind_eq_some_iff.mp hget
  obtain ⟨rfl, hcurrent⟩ := hinv.principals user p hp
  have hholds : s.users.Holds p := by
    rcases hcurrent with hholds | hin | ⟨task, htask, hclears⟩
    · exact hholds
    · rw [hchanged] at hin
      cases hin
    · refine absurd ?_ (hidle task htask)
      match task, hclears with
      | .evicting _, _ => trivial
      | .evictingAll, _ => trivial
      | .inserted _ _, _ => trivial
  obtain ⟨row, hrow, hrole, hstatus⟩ := hholds
  have hidentity := (hinv.index identity p.userId hindex).2 row hrow
  exact .inr ⟨p, row, rfl, IndexedTable.byIndex_eq_some_iff.mpr ⟨hrow, hidentity⟩, hrole, hstatus⟩

def ada : Claims := { iss := "idp", sub := "ada" }

/-- A call reads the user pending and is overtaken by her approval while it inserts; a second call
caches what the database holds. -/
def overtakenInsert : List CacheAction :=
  [.miss ada, .count 0, .resolve 0, .insert 0, .insert 0, .change 0 (.setStatus .active),
    .invalidateUser 0, .insert 0, .insert 0, .evict 1, .evict 0, .miss ada, .count 2, .resolve 2,
    .insert 2, .insert 2, .insert 2, .insert 2]

/-- After both, the cache has the approved user. -/
theorem cached_access_current_overtaken :
    ∃ s, Run (Process.Step {}) {} overtakenInsert s ∧
      s.cache.get ("idp", "ada") = some { userId := 0, role := .member, status := .active } ∧
      (s.cache.get ("idp", "ada") = none ∨
        ∃ p row, s.cache.get ("idp", "ada") = some p ∧
          s.users.byIndex ("idp", "ada") = some (p.userId, row) ∧ p.role = row.role ∧
            p.status = row.status) := by
  have hend : (overtakenInsert.foldlM (Process.perform {}) {}).map
      (fun s => (decide s.Settled, s.cache.get ("idp", "ada"))) =
        some (true, some { userId := 0, role := .member, status := .active }) := by
    decide
  obtain ⟨s, hfold, hfacts⟩ := Option.map_eq_some_iff.mp hend
  obtain ⟨hsettled, hget⟩ := Prod.ext_iff.mp hfacts
  have hrun : Run (Process.Step {}) {} overtakenInsert s := Run.of_foldlM (fun h => h) hfold
  exact ⟨s, hrun, hget, cached_access_current hrun (of_decide_eq_true hsettled) ("idp", "ada")⟩

end Process

end Postit.Identity

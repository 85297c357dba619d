import Mathlib.Data.List.MinMax
import Mathlib.Order.Nat
import Postit.Jobs.Ledger

/-!
# The life of a job

What the ledger says about one job: its row and its attempts.  A transaction moves every job in one
of a few ways (`Life.Move`), or takes the last attempt back (`Life.Requeued`).  This is what the
record of a job is meant to be; that it is, is shown for one move at a time, and each transaction
of the ledger is a move of every job (`Moves`).
-/

namespace Postit.Jobs

open Postit.Framework

/-- A job's row and its attempts. -/
@[ext] structure Life where
  row : Option Job
  attempts : ℕ → Option Attempt

namespace Life

variable {l l' : Life}

/-- The attempt is there and has no end. -/
def Open (l : Life) (n : ℕ) : Prop := ∃ a, l.attempts n = some a ∧ a.finishedAt = none

/-- The record is exact. -/
structure Sound (l : Life) : Prop where
  known : ∀ n, (∃ a, l.attempts n = some a) ↔ ∃ j, l.row = some j ∧ 1 ≤ n ∧ n ≤ j.attempts
  opens : ∀ n, l.Open n ↔ ∃ j, l.row = some j ∧ j.state = .running ∧ n = j.attempts
  finished : ∀ j, l.row = some j → (j.finishedAt.isSome ↔ j.state.isFinished)

/-- The attempt ends, unless it has ended. -/
def closeOpen (f : Attempt → Attempt) (a : Attempt) : Attempt :=
  if a.finishedAt = none then f a else a

/-- What a transaction may do to a job, without taking an attempt back. -/
inductive Move (l l' : Life) : Prop
  | kept (row : l'.row = l.row) (attempts : l'.attempts = l.attempts)
  | unlinked {j : Job} (row : l.row = some j)
      (row' : l'.row = some { j with retriedFrom := none }) (attempts : l'.attempts = l.attempts)
  | enqueued {j : Job} (row : l.row = none) (row' : l'.row = some j) (state : j.state = .queued)
      (count : j.attempts = 0) (finishedAt : j.finishedAt = none)
      (attempts : l'.attempts = l.attempts)
  | begun {j j' : Job} {a : Attempt} (f : Attempt → Attempt) (row : l.row = some j)
      (row' : l'.row = some j') (waits : j.state.isFinished = false) (state : j'.state = .running)
      (count : j'.attempts = j.attempts + 1) (finishedAt : j'.finishedAt = j.finishedAt)
      (hf : ∀ a, (f a).finishedAt ≠ none) (ha : a.finishedAt = none)
      (attempts : l'.attempts = Function.update (fun n => (l.attempts n).map (closeOpen f))
        (j.attempts + 1) (some a))
  | ended {j j' : Job} (f : Attempt → Attempt) (row : l.row = some j) (row' : l'.row = some j')
      (running : j.state = .running) (state : j'.state ≠ .running)
      (count : j'.attempts = j.attempts)
      (finishedAt : j'.finishedAt.isSome ↔ j'.state.isFinished)
      (hf : ∀ a, (f a).finishedAt ≠ none)
      (attempts : l'.attempts = fun n => (l.attempts n).map (closeOpen f))
  | cancelled {j j' : Job} (row : l.row = some j) (row' : l'.row = some j')
      (waits : j.state.isWaiting) (state : j'.state = .cancelled) (count : j'.attempts = j.attempts)
      (finishedAt : j'.finishedAt.isSome) (attempts : l'.attempts = l.attempts)
  | swept {j j' : Job} {a : Attempt} (row : l.row = some j) (row' : l'.row = some j')
      (waits : j.state.isWaiting) (state : j'.state = .killed)
      (count : j'.attempts = j.attempts + 1) (finishedAt : j'.finishedAt.isSome)
      (ha : a.finishedAt ≠ none)
      (attempts : l'.attempts = Function.update l.attempts (j.attempts + 1) (some a))
  | deleted {j : Job} (row : l.row = some j) (finished : j.state.isFinished) (row' : l'.row = none)
      (attempts : l'.attempts = fun _ => none)

/-- The open attempt is taken back. -/
structure Requeued (l l' : Life) (n : ℕ) : Prop where
  opened : l.Open n
  moved : ∃ j j', l.row = some j ∧ l'.row = some j' ∧ j'.state = .queued ∧
    j'.attempts + 1 = j.attempts ∧ j'.finishedAt = j.finishedAt
  attempts : l'.attempts = Function.update l.attempts n none

/-! ## The record stays exact -/

lemma sound_some {j : Job} (hrow : l.row = some j) :
    l.Sound ↔ (∀ n, (∃ a, l.attempts n = some a) ↔ 1 ≤ n ∧ n ≤ j.attempts) ∧
      (∀ n, l.Open n ↔ j.state = .running ∧ n = j.attempts) ∧
      (j.finishedAt.isSome ↔ j.state.isFinished) := by
  constructor
  · intro h
    refine ⟨fun n => ?_, fun n => ?_, h.finished j hrow⟩
    · rw [h.known, hrow]
      simp only [Option.some.injEq, exists_eq_left']
    · rw [h.opens, hrow]
      simp only [Option.some.injEq, exists_eq_left']
  · rintro ⟨hknown, hopens, hfinished⟩
    refine ⟨fun n => ?_, fun n => ?_, fun j' hj' => ?_⟩
    · rw [hknown, hrow]
      simp only [Option.some.injEq, exists_eq_left']
    · rw [hopens, hrow]
      simp only [Option.some.injEq, exists_eq_left']
    · obtain rfl := Option.some.inj (hrow.symm.trans hj')
      exact hfinished

lemma sound_none (hrow : l.row = none) : l.Sound ↔ ∀ n, l.attempts n = none := by
  constructor
  · intro h n
    refine Option.eq_none_iff_forall_ne_some.mpr fun a ha => ?_
    obtain ⟨j, hj, -⟩ := (h.known n).mp ⟨a, ha⟩
    rw [hrow] at hj
    cases hj
  · intro h
    refine ⟨fun n => ⟨?_, ?_⟩, fun n => ⟨?_, ?_⟩, fun j hj => ?_⟩
    · rintro ⟨a, ha⟩
      cases (h n).symm.trans ha
    · rintro ⟨j, hj, -⟩
      cases hrow.symm.trans hj
    · rintro ⟨a, ha, -⟩
      cases (h n).symm.trans ha
    · rintro ⟨j, hj, -⟩
      cases hrow.symm.trans hj
    · cases hrow.symm.trans hj

lemma closeOpen_ended {f : Attempt → Attempt} (hf : ∀ a, (f a).finishedAt ≠ none) (a : Attempt) :
    (closeOpen f a).finishedAt ≠ none := by
  unfold closeOpen
  split_ifs with ha
  · exact hf a
  · exact ha

lemma closeOpen_of_ended {f : Attempt → Attempt} {a : Attempt} (ha : a.finishedAt ≠ none) :
    closeOpen f a = a := if_neg ha

lemma exists_map {o : Option Attempt} {f : Attempt → Attempt} :
    (∃ a, o.map f = some a) ↔ ∃ a, o = some a := by
  cases o <;> simp

/-- Numbers go on by one. -/
lemma known_succ {o : ℕ → Option Attempt} {a : Attempt} {k : ℕ}
    (h : ∀ n, (∃ a, o n = some a) ↔ 1 ≤ n ∧ n ≤ k) (n : ℕ) :
    (∃ b, Function.update o (k + 1) (some a) n = some b) ↔ 1 ≤ n ∧ n ≤ k + 1 := by
  by_cases hn : n = k + 1
  · subst hn
    simp
  · rw [Function.update_of_ne hn, h]
    omega

lemma Move.sound (hmove : Move l l') (h : l.Sound) : l'.Sound := by
  cases hmove with
  | kept row attempts => rwa [show l' = l from Life.ext row attempts]
  | unlinked row row' attempts =>
    obtain ⟨hknown, hopens, hfinished⟩ := (sound_some row).mp h
    refine (sound_some row').mpr ⟨fun n => ?_, fun n => ?_, hfinished⟩
    · rw [attempts]
      exact hknown n
    · rw [Open, attempts]
      exact hopens n
  | enqueued row row' state count finishedAt attempts =>
    have hnone := (sound_none row).mp h
    refine (sound_some row').mpr ⟨fun n => ?_, fun n => ?_, ?_⟩
    · rw [attempts, hnone n, count]
      simp
      omega
    · rw [Open, attempts, hnone n, state]
      simp
    · rw [finishedAt, state]
      simp [JobState.isFinished]
  | @begun j j' a f row row' waits state count finishedAt hf ha attempts =>
    obtain ⟨hknown, hopens, hfinished⟩ := (sound_some row).mp h
    refine (sound_some row').mpr ⟨fun n => ?_, fun n => ?_, ?_⟩
    · rw [attempts, count]
      exact known_succ (fun n => exists_map.trans (hknown n)) n
    · rw [Open, attempts, state, count]
      by_cases hn : n = j.attempts + 1
      · subst hn
        simpa using ha
      · rw [Function.update_of_ne hn]
        refine iff_of_false ?_ fun h => hn h.2
        rintro ⟨b, hb, hopen⟩
        obtain ⟨c, -, rfl⟩ := Option.map_eq_some_iff.mp hb
        exact closeOpen_ended hf c hopen
    · rw [finishedAt, hfinished, waits, state]
      simp [JobState.isFinished]
  | @ended j j' f row row' running state count finishedAt hf attempts =>
    obtain ⟨hknown, -, -⟩ := (sound_some row).mp h
    refine (sound_some row').mpr ⟨fun n => ?_, fun n => ?_, finishedAt⟩
    · rw [attempts, count]
      exact exists_map.trans (hknown n)
    · refine iff_of_false ?_ fun h => state h.1
      rintro ⟨b, hb, hopen⟩
      rw [attempts] at hb
      obtain ⟨c, -, rfl⟩ := Option.map_eq_some_iff.mp hb
      exact closeOpen_ended hf c hopen
  | @cancelled j j' row row' waits state count finishedAt attempts =>
    obtain ⟨hknown, hopens, -⟩ := (sound_some row).mp h
    refine (sound_some row').mpr ⟨fun n => ?_, fun n => ?_, ?_⟩
    · rw [attempts, count]
      exact hknown n
    · rw [Open, attempts]
      refine (hopens n).trans (iff_of_false (fun h => ?_) fun h => ?_)
      · rw [h.1] at waits
        cases waits
      · rw [state] at h
        cases h.1
    · rw [finishedAt, state]
      rfl
  | @swept j j' a row row' waits state count finishedAt ha attempts =>
    obtain ⟨hknown, hopens, -⟩ := (sound_some row).mp h
    refine (sound_some row').mpr ⟨fun n => ?_, fun n => ?_, ?_⟩
    · rw [attempts, count]
      exact known_succ hknown n
    · rw [Open, attempts, state]
      refine iff_of_false ?_ fun h => nomatch h.1
      rintro ⟨b, hb, hopen⟩
      by_cases hn : n = j.attempts + 1
      · subst hn
        rw [Function.update_self] at hb
        exact ha (Option.some.inj hb ▸ hopen)
      · rw [Function.update_of_ne hn] at hb
        rw [((hopens n).mp ⟨b, hb, hopen⟩).1] at waits
        cases waits
    · rw [finishedAt, state]
      rfl
  | deleted row finished row' attempts =>
    exact (sound_none row').mpr fun n => by rw [attempts]

lemma Requeued.sound {n : ℕ} (hmove : Requeued l l' n) (h : l.Sound) : l'.Sound := by
  obtain ⟨j, j', row, row', state, count, finishedAt⟩ := hmove.moved
  obtain ⟨hknown, hopens, hfinished⟩ := (sound_some row).mp h
  obtain ⟨running, rfl⟩ := (hopens n).mp hmove.opened
  refine (sound_some row').mpr ⟨fun m => ?_, fun m => ?_, ?_⟩
  · rw [hmove.attempts]
    by_cases hm : m = j.attempts
    · subst hm
      simp
      omega
    · rw [Function.update_of_ne hm, hknown]
      omega
  · rw [Open, hmove.attempts, state]
    refine iff_of_false ?_ fun h => nomatch h.1
    rintro ⟨b, hb, hopen⟩
    by_cases hm : m = j.attempts
    · subst hm
      rw [Function.update_self] at hb
      cases hb
    · rw [Function.update_of_ne hm] at hb
      exact hm ((hopens m).mp ⟨b, hb, hopen⟩).2
  · rw [finishedAt, hfinished, running, state]
    simp [JobState.isFinished]

/-! ## What stays -/

/-- A finished row goes on as it is, loses its link to the job it retried, or is deleted. -/
def KeepsRow (j : Job) (row : Option Job) : Prop :=
  row = some j ∨ row = some { j with retriedFrom := none } ∨ row = none

lemma Move.keepsRow (hmove : Move l l') {j : Job} (hrow : l.row = some j)
    (hfinished : j.state.isFinished) : KeepsRow j l'.row := by
  have hwaits : ∀ {j' : Job}, l.row = some j' → j'.state.isWaiting → False := by
    intro j' row waits
    obtain rfl := Option.some.inj (hrow.symm.trans row)
    cases hstate : j.state <;> simp_all [JobState.isWaiting, JobState.isFinished]
  cases hmove with
  | kept row attempts => exact .inl (row.trans hrow)
  | unlinked row row' attempts =>
    obtain rfl := Option.some.inj (hrow.symm.trans row)
    exact .inr (.inl row')
  | enqueued row => cases hrow.symm.trans row
  | begun f row row' waits =>
    obtain rfl := Option.some.inj (hrow.symm.trans row)
    exact absurd hfinished (by simp [waits])
  | ended f row row' running =>
    obtain rfl := Option.some.inj (hrow.symm.trans row)
    rw [running] at hfinished
    cases hfinished
  | cancelled row row' waits => exact (hwaits row waits).elim
  | swept row row' waits => exact (hwaits row waits).elim
  | deleted row finished row' attempts => exact .inr (.inr row')

/-- An attempt that ended stays as it is, until its job is deleted. -/
lemma Move.keepsAttempt (hmove : Move l l') (h : l.Sound) {n : ℕ} {a : Attempt}
    (ha : l.attempts n = some a) (hended : a.finishedAt ≠ none) :
    l'.attempts n = some a ∨ l'.row = none := by
  have hold : ∀ {j : Job}, l.row = some j → n ≠ j.attempts + 1 := by
    intro j row
    have := ((sound_some row).mp h).1 n |>.mp ⟨a, ha⟩
    omega
  have hclosed : ∀ f, (l.attempts n).map (closeOpen f) = some a := by
    intro f
    rw [ha, Option.map_some, closeOpen_of_ended hended]
  cases hmove with
  | kept row attempts => exact .inl (attempts ▸ ha)
  | unlinked row row' attempts => exact .inl (attempts ▸ ha)
  | enqueued row row' state count finishedAt attempts => exact .inl (attempts ▸ ha)
  | begun f row row' waits state count finishedAt hf hopen attempts =>
    rw [attempts, Function.update_of_ne (hold row)]
    exact .inl (hclosed f)
  | ended f row row' running state count finishedAt hf attempts =>
    rw [attempts]
    exact .inl (hclosed f)
  | cancelled row row' waits state count finishedAt attempts => exact .inl (attempts ▸ ha)
  | swept row row' waits state count finishedAt hended attempts =>
    rw [attempts, Function.update_of_ne (hold row)]
    exact .inl ha
  | deleted row finished row' attempts => exact .inr row'

/-- Attempts are counted up. -/
lemma Move.count_le (hmove : Move l l') {j j' : Job} (hrow : l.row = some j)
    (hrow' : l'.row = some j') : j.attempts ≤ j'.attempts := by
  cases hmove with
  | kept row attempts =>
    obtain rfl := Option.some.inj (hrow.symm.trans (row.symm.trans hrow'))
    exact le_rfl
  | unlinked row row' attempts =>
    obtain rfl := Option.some.inj (hrow.symm.trans row)
    obtain rfl := Option.some.inj (hrow'.symm.trans row')
    exact le_rfl
  | enqueued row => cases hrow.symm.trans row
  | begun f row row' waits state count =>
    obtain rfl := Option.some.inj (hrow.symm.trans row)
    obtain rfl := Option.some.inj (hrow'.symm.trans row')
    omega
  | ended f row row' running state count =>
    obtain rfl := Option.some.inj (hrow.symm.trans row)
    obtain rfl := Option.some.inj (hrow'.symm.trans row')
    omega
  | cancelled row row' waits state count =>
    obtain rfl := Option.some.inj (hrow.symm.trans row)
    obtain rfl := Option.some.inj (hrow'.symm.trans row')
    omega
  | swept row row' waits state count =>
    obtain rfl := Option.some.inj (hrow.symm.trans row)
    obtain rfl := Option.some.inj (hrow'.symm.trans row')
    omega
  | deleted row finished row' attempts => cases hrow'.symm.trans row'

end Life

/-! ## Transactions move every job -/

namespace Ledger

/-- The job's attempts, by number. -/
def attemptsAt (t : Table (JobId × ℕ) Attempt) (k : JobId) : ℕ → Option Attempt :=
  fun n => t.lookup (k, n)

/-- What the ledger says about the job. -/
def life (s : Ledger) (k : JobId) : Life := ⟨s.jobs.lookup k, attemptsAt s.attempts k⟩

/-- Every record is exact, and IDs given out later have no row. -/
structure Sound (s : Ledger) : Prop where
  lives : ∀ k, (s.life k).Sound
  fresh : ∀ k j, s.jobs.lookup k = some j → k < s.nextId

/-- Every job moves, and new rows have new IDs. -/
structure Moves (s t : Ledger) : Prop where
  next : s.nextId ≤ t.nextId
  rows : ∀ k j, t.jobs.lookup k = some j →
    (∃ i, s.jobs.lookup k = some i) ∨ (s.nextId ≤ k ∧ k < t.nextId)
  lives : ∀ k, (s.life k).Move (t.life k)

variable {s t : Ledger} {id k : JobId} {j : Job} {n : ℕ}

lemma Moves.refl (s : Ledger) : s.Moves s := ⟨le_rfl, fun _ j h => .inl ⟨j, h⟩, fun _ => .kept rfl rfl⟩

/-- No row is new. -/
lemma Moves.of_old (hnext : t.nextId = s.nextId)
    (hrows : ∀ k, s.jobs.lookup k = none → t.jobs.lookup k = none)
    (hlives : ∀ k, (s.life k).Move (t.life k)) : s.Moves t := by
  refine ⟨hnext.ge, fun k j hj => .inl ?_, hlives⟩
  cases hk : s.jobs.lookup k with
  | none => cases (hrows k hk).symm.trans hj
  | some i => exact ⟨i, rfl⟩

lemma Moves.sound (h : s.Moves t) (hs : s.Sound) : t.Sound := by
  refine ⟨fun k => (h.lives k).sound (hs.lives k), fun k j hj => ?_⟩
  rcases h.rows k j hj with ⟨i, hi⟩ | ⟨-, hk⟩
  · exact (hs.fresh k i hi).trans_le h.next
  · exact hk

/-! ### Reading tables -/

lemma lookup_updateJob (f : Job → Job) :
    (s.updateJob id f).jobs.lookup k =
      if k = id then (s.jobs.lookup k).map f else s.jobs.lookup k := by
  rw [updateJob, Table.lookup_updateWhere]
  by_cases hk : k = id <;> simp [hk]

section Attempts

variable {u : Table (JobId × ℕ) Attempt} {a : Attempt}

lemma attemptsAt_insert : attemptsAt (u.insert (k, n) a) k =
    Function.update (attemptsAt u k) n (some a) := by
  funext m
  by_cases hm : m = n
  · subst hm
    simp [attemptsAt]
  · have hne : (k, m) ≠ (k, n) := fun h => hm (congrArg Prod.snd h)
    rw [Function.update_of_ne hm]
    exact AList.lookup_insert_ne hne

lemma attemptsAt_insert_ne (hk : k ≠ id) :
    attemptsAt (u.insert (id, n) a) k = attemptsAt u k := by
  funext m
  exact AList.lookup_insert_ne fun h => hk (congrArg Prod.fst h)

lemma attemptsAt_erase : attemptsAt (u.erase (k, n)) k =
    Function.update (attemptsAt u k) n none := by
  funext m
  by_cases hm : m = n
  · subst hm
    simp [attemptsAt]
  · have hne : (k, m) ≠ (k, n) := fun h => hm (congrArg Prod.snd h)
    rw [Function.update_of_ne hm]
    exact AList.lookup_erase_ne hne

lemma attemptsAt_erase_ne (hk : k ≠ id) : attemptsAt (u.erase (id, n)) k = attemptsAt u k := by
  funext m
  exact AList.lookup_erase_ne fun h => hk (congrArg Prod.fst h)

lemma attemptsAt_updateWhere (p : JobId × ℕ → Attempt → Bool) (f : Attempt → Attempt) :
    attemptsAt (u.updateWhere p f) k =
      fun m => (attemptsAt u k m).map fun a => if p (k, m) a then f a else a := by
  funext m
  exact u.lookup_updateWhere p f (k, m)

/-- Attempts of other jobs are as they were. -/
lemma attemptsAt_updateWhere_of_not {p : JobId × ℕ → Attempt → Bool} (f : Attempt → Attempt)
    (hp : ∀ m a, p (k, m) a = false) : attemptsAt (u.updateWhere p f) k = attemptsAt u k := by
  rw [attemptsAt_updateWhere]
  funext m
  simp [hp]

end Attempts

lemma mem_attemptsOf {a : Attempt} :
    (n, a) ∈ s.attemptsOf id ↔ s.attempts.lookup (id, n) = some a := by
  constructor
  · intro h
    obtain ⟨⟨⟨k, m⟩, b⟩, hmem, heq⟩ := List.mem_map.mp h
    obtain ⟨hlookup, hk⟩ := Table.mem_select.mp hmem
    cases heq
    obtain rfl : k = id := of_decide_eq_true hk
    exact hlookup
  · intro h
    exact List.mem_map.mpr ⟨((id, n), a), Table.mem_select.mpr ⟨h, decide_eq_true rfl⟩, rfl⟩

lemma foldr_max_eq {l : List ℕ} {m : ℕ} (hle : ∀ n ∈ l, n ≤ m) (hmem : m = 0 ∨ m ∈ l) :
    l.foldr max 0 = m := by
  refine le_antisymm (List.max_le_of_forall_le l m hle) ?_
  rcases hmem with rfl | hmem
  · exact Nat.zero_le _
  · exact List.le_max_of_le' 0 hmem le_rfl

/-- With attempts `1` to `m`, the last is `m`. -/
lemma lastAttempt_eq {m : ℕ}
    (h : ∀ n, (∃ a, attemptsAt s.attempts id n = some a) ↔ 1 ≤ n ∧ n ≤ m) :
    s.lastAttempt id = m := by
  refine foldr_max_eq (fun n hn => ?_) ?_
  · obtain ⟨⟨n, a⟩, hmem, rfl⟩ := List.mem_map.mp hn
    exact ((h n).mp ⟨a, mem_attemptsOf.1 hmem⟩).2
  · by_cases hm : m = 0
    · exact .inl hm
    · obtain ⟨a, ha⟩ := (h m).mpr ⟨by omega, le_rfl⟩
      exact .inr (List.mem_map.mpr ⟨(m, a), mem_attemptsOf.2 ha, rfl⟩)

lemma Sound.lastAttempt (h : s.Sound) (hrow : s.jobs.lookup id = some j) :
    s.lastAttempt id = j.attempts :=
  lastAttempt_eq ((Life.sound_some (l := s.life id) hrow).mp (h.lives id)).1

lemma isOpen_iff : s.isOpen id n = true ↔ (s.life id).Open n := by
  simp [isOpen, Life.Open, life, attemptsAt, Option.any_eq_true]

lemma isRunning_iff :
    s.isRunning id = true ↔ ∃ j, s.jobs.lookup id = some j ∧ j.state = .running := by
  simp [isRunning, Option.any_eq_true]

/-! ### Single jobs -/

/-- Only what no record reads changes. -/
lemma Moves.of_eq (hnext : t.nextId = s.nextId) (hjobs : t.jobs = s.jobs)
    (hattempts : t.attempts = s.attempts) : s.Moves t := by
  refine .of_old hnext (fun k hk => hjobs ▸ hk) fun k => .kept ?_ ?_
  · rw [life, life, hjobs]
  · rw [life, life, hattempts]

/-- One row changes, and the attempts of other jobs do not. -/
lemma Moves.of_updateJob {u : Table (JobId × ℕ) Attempt} {f : Job → Job}
    (hrow : s.jobs.lookup id = some j)
    (hothers : ∀ k, k ≠ id → attemptsAt u k = attemptsAt s.attempts k)
    (hmove : (s.life id).Move ⟨some (f j), attemptsAt u id⟩) :
    s.Moves ({ s with attempts := u }.updateJob id f) := by
  refine .of_old rfl (fun k hk => ?_) fun k => ?_
  · rw [lookup_updateJob, hk]
    split_ifs <;> rfl
  · by_cases hk : k = id
    · subst hk
      have hlife : ({ s with attempts := u }.updateJob k f).life k =
          ⟨some (f j), attemptsAt u k⟩ := by
        refine Life.ext ?_ rfl
        rw [life, lookup_updateJob, if_pos rfl, hrow]
        rfl
      rwa [hlife]
    · refine .kept ?_ (hothers k hk)
      rw [life, lookup_updateJob, if_neg hk]
      rfl

lemma enqueue_moves (h : s.Sound) (now : Time) (jobType : String) (runAt : Time)
    (retriedFrom : Option JobId) : s.Moves (s.enqueue now jobType runAt retriedFrom).1 := by
  have hfree : s.jobs.lookup s.nextId = none := by
    cases hk : s.jobs.lookup s.nextId with
    | none => rfl
    | some j => exact absurd (h.fresh _ j hk) (lt_irrefl _)
  refine ⟨Nat.le_succ _, fun k j hj => ?_, fun k => ?_⟩
  · by_cases hk : k = s.nextId
    · exact .inr ⟨hk.ge, hk ▸ Nat.lt_succ_self _⟩
    · exact .inl ⟨j, (AList.lookup_insert_ne hk).symm.trans hj⟩
  · by_cases hk : k = s.nextId
    · subst hk
      exact .enqueued hfree (AList.lookup_insert _) rfl rfl rfl rfl
    · exact .kept (AList.lookup_insert_ne hk) rfl

lemma openAttempt_moves (hrow : s.jobs.lookup id = some j)
    (hwaits : j.state.isFinished = false) (now : Time) (worker : String)
    (maxAttempts : Option ℕ) :
    s.Moves (s.openAttempt now id (j.attempts + 1) worker maxAttempts) := by
  refine .of_updateJob hrow (fun k hk => ?_) ?_
  · rw [attemptsAt_insert_ne hk]
    exact attemptsAt_updateWhere_of_not _ fun m a => by simp [hk]
  · refine .begun (a := { startedAt := now, worker }) (Attempt.interrupt now) hrow rfl hwaits rfl
      (by simp) rfl (fun a => by simp [Attempt.interrupt]) rfl ?_
    rw [attemptsAt_insert, attemptsAt_updateWhere]
    simp only [true_and, decide_eq_true_eq]
    rfl

/-- A try begins only for a job that is not finished, with the next number. -/
lemma beginAttempt_cases (h : s.Sound) (now : Time) (id : JobId) (worker : String)
    (maxAttempts : Option ℕ) :
    (∃ b, s.beginAttempt now id 0 worker maxAttempts = (s, b) ∧ ∀ n, b ≠ .run n) ∨
      ∃ j, s.jobs.lookup id = some j ∧ j.state.isFinished = false ∧
        s.beginAttempt now id 0 worker maxAttempts =
          (s.openAttempt now id (j.attempts + 1) worker maxAttempts, .run (j.attempts + 1)) := by
  unfold beginAttempt
  cases hj : s.jobs.lookup id with
  | none => exact .inl ⟨_, rfl, by simp⟩
  | some j =>
    have hnumber : max 0 (s.lastAttempt id + 1) = j.attempts + 1 := by
      rw [h.lastAttempt hj, Nat.zero_max]
    simp only [hnumber]
    cases hstate : j.state with
    | queued | running | failed => exact .inr ⟨j, rfl, by rw [hstate]; rfl, rfl⟩
    | succeeded | dead | killed | cancelled => exact .inl ⟨_, rfl, by simp⟩

lemma beginAttempt_moves (h : s.Sound) (now : Time) (id : JobId) (worker : String)
    (maxAttempts : Option ℕ) : s.Moves (s.beginAttempt now id 0 worker maxAttempts).1 := by
  rcases beginAttempt_cases h now id worker maxAttempts with ⟨b, hb, -⟩ | ⟨j, hj, hwaits, hb⟩
  · rw [hb]
    exact .refl s
  · rw [hb]
    exact openAttempt_moves hj hwaits now worker maxAttempts

/-- The attempt that is open is the last one. -/
lemma Sound.last_of_isOpen (h : s.Sound) (hrow : s.jobs.lookup id = some j)
    (hopen : s.isOpen id n = true) : j.state = .running ∧ n = j.attempts :=
  (((Life.sound_some (l := s.life id) hrow).mp (h.lives id)).2.1 n).mp (isOpen_iff.1 hopen)

lemma closeAttempt_moves (h : s.Sound) (hrow : s.jobs.lookup id = some j)
    (hopen : s.isOpen id n = true) (now : Time) {finish : Finish}
    (hstate : finish.state ≠ .running) : s.Moves (s.closeAttempt now id n finish) := by
  obtain ⟨hrunning, hlast⟩ := h.last_of_isOpen hrow hopen
  refine .of_updateJob hrow (fun k hk => ?_) ?_
  · exact attemptsAt_updateWhere_of_not _ fun m a => by simp [hk]
  · refine .ended (Attempt.close now finish) hrow rfl hrunning hstate rfl ?_
      (fun a => by simp [Attempt.close]) ?_
    · cases finish.state <;> simp [JobState.isFinished]
    · -- Every other attempt has ended, so closing the open ones closes this one.
      rw [attemptsAt_updateWhere]
      funext m
      refine Option.map_congr fun a ha => ?_
      by_cases hm : m = n
      · simp [hm, Life.closeOpen]
      · have hended : a.finishedAt ≠ none := fun hopen =>
          hm ((h.last_of_isOpen hrow (isOpen_iff.2 ⟨a, ha, hopen⟩)).2.trans hlast.symm)
        rw [Life.closeOpen_of_ended hended]
        simp [hm]

lemma finishAttempt_moves (h : s.Sound) (now : Time) (id : JobId) (n : ℕ) {finish : Finish}
    (hstate : finish.state ≠ .running) : s.Moves (s.finishAttempt now id n finish).1 := by
  unfold finishAttempt
  split_ifs with hopen hrunning
  · obtain ⟨j, hj, -⟩ := isRunning_iff.1 hrunning
    exact closeAttempt_moves h hj hopen now hstate
  · exact .refl s
  · exact .refl s

/-- A requeue takes the job's last attempt back and moves no other job. -/
lemma removeAttempt_moves (h : s.Sound) (hrow : s.jobs.lookup id = some j)
    (hopen : s.isOpen id n = true) (runAt : Time) :
    (s.life id).Requeued ((s.removeAttempt id n runAt).life id) n ∧
      ∀ k, k ≠ id → (s.removeAttempt id n runAt).life k = s.life k := by
  obtain ⟨-, rfl⟩ := h.last_of_isOpen hrow hopen
  have hknown := ((Life.sound_some (l := s.life id) hrow).mp (h.lives id)).1
  have hpos : 1 ≤ j.attempts := by
    obtain ⟨a, ha, -⟩ := isOpen_iff.1 hopen
    exact ((hknown _).mp ⟨a, ha⟩).1
  set u : Ledger := { s with attempts := s.attempts.erase (id, j.attempts) } with hu
  have hlast : u.lastAttempt id = j.attempts - 1 := by
    refine lastAttempt_eq fun m => ?_
    rw [hu, attemptsAt_erase]
    by_cases hm : m = j.attempts
    · subst hm
      simp
      omega
    · rw [Function.update_of_ne hm]
      refine (hknown m).trans ?_
      omega
  have hrow' : (s.removeAttempt id j.attempts runAt).jobs.lookup id = some
      { j with
        state := .queued
        runAt
        startedAt := u.firstStart id
        attempts := u.lastAttempt id } := by
    rw [removeAttempt, lookup_updateJob, if_pos rfl]
    exact congrArg (Option.map _) hrow
  refine ⟨⟨isOpen_iff.1 hopen, ⟨j, _, hrow, hrow', rfl, ?_, rfl⟩, ?_⟩, fun k hk => ?_⟩
  · show u.lastAttempt id + 1 = j.attempts
    omega
  · exact attemptsAt_erase
  · refine Life.ext ?_ (attemptsAt_erase_ne hk)
    rw [life, removeAttempt, lookup_updateJob, if_neg hk]
    rfl

/-- A requeue takes the attempt back or changes nothing. -/
lemma requeueAttempt_cases (h : s.Sound) (id : JobId) (n : ℕ) (runAt : Time) :
    (s.requeueAttempt id n runAt).1 = s ∨
      ((s.life id).Requeued ((s.requeueAttempt id n runAt).1.life id) n ∧
        (∀ k, k ≠ id → (s.requeueAttempt id n runAt).1.life k = s.life k) ∧
        (s.requeueAttempt id n runAt).1.nextId = s.nextId) := by
  unfold requeueAttempt
  split_ifs with hopen hrunning
  · obtain ⟨j, hj, -⟩ := isRunning_iff.1 hrunning
    obtain ⟨hrequeued, hothers⟩ := removeAttempt_moves h hj hopen runAt
    exact .inr ⟨hrequeued, hothers, rfl⟩
  · exact .inl rfl
  · exact .inl rfl

/-- An attempt that is not open is neither ended nor taken back. -/
lemma commit_of_not_isOpen (hopen : s.isOpen id n = false) (now runAt : Time) (finish : Finish) :
    s.finishAttempt now id n finish = (s, false) ∧ s.requeueAttempt id n runAt = (s, false) := by
  simp [finishAttempt, requeueAttempt, hopen]

lemma cancel_moves (now : Time) (id : JobId) : s.Moves (s.cancel now id).1 := by
  unfold cancel
  split_ifs with hwaits
  · obtain ⟨j, hj, hwaits⟩ := (Option.any_eq_true _ _).mp hwaits
    exact .of_updateJob (u := s.attempts) hj (fun k hk => rfl)
      (.cancelled hj rfl hwaits rfl rfl rfl rfl)
  · exact .refl s

lemma outboxDelete_moves (id : JobId) : s.Moves (s.outboxDelete id) := .of_eq rfl rfl rfl

/-! ### Sweeps -/

lemma killStrandedRunning_moves (h : s.Sound) (now startedBefore : Time) :
    s.Moves (s.killStrandedRunning now startedBefore).1 := by
  refine .of_old rfl (fun k hk => ?_) fun k => ?_
  · rw [killStrandedRunning, Table.lookup_updateWhere, hk]
    rfl
  · have hrow' : ((s.killStrandedRunning now startedBefore).1.life k).row =
        (s.jobs.lookup k).map fun j => if s.isStranded startedBefore k j then
          { j with state := .killed, finishedAt := some now } else j :=
      Table.lookup_updateWhere ..
    have hattempts : ((s.killStrandedRunning now startedBefore).1.life k).attempts =
        fun m => (attemptsAt s.attempts k m).map fun a =>
          if (s.jobs.lookup k).any (s.isStranded startedBefore k) ∧ a.isOld startedBefore then
            a.interrupt now else a := by
      rw [life, killStrandedRunning, attemptsAt_updateWhere]
      simp only [decide_eq_true_eq]
    cases hrow : s.jobs.lookup k with
    | none =>
      rw [hrow] at hrow' hattempts
      refine .kept (hrow'.trans hrow.symm) (hattempts.trans ?_)
      simp [life]
    | some j =>
      rw [hrow, Option.map_some] at hrow'
      rw [hrow, Option.any_some] at hattempts
      by_cases hstranded : s.isStranded startedBefore k j = true
      · rw [if_pos hstranded] at hrow'
        obtain ⟨hrunning, hexists⟩ := of_decide_eq_true hstranded
        obtain ⟨⟨k', n⟩, a, ha, hp⟩ := Table.exists?_eq_true.mp hexists
        obtain ⟨rfl, hold⟩ := of_decide_eq_true hp
        obtain ⟨hopen, hbefore⟩ := of_decide_eq_true hold
        have hlast := h.last_of_isOpen hrow (isOpen_iff.2 ⟨a, ha, hopen⟩)
        refine .ended (Attempt.interrupt now) hrow hrow' hrunning (by simp) rfl
          (by simp [JobState.isFinished]) (fun a => by simp [Attempt.interrupt]) (hattempts.trans ?_)
        -- The one open attempt is the old one.
        funext m
        refine Option.map_congr fun b hb => ?_
        by_cases hb' : b.finishedAt = none
        · have hm := h.last_of_isOpen hrow (isOpen_iff.2 ⟨b, hb, hb'⟩)
          obtain rfl : m = n := hm.2.trans hlast.2.symm
          obtain rfl : a = b := Option.some.inj (ha.symm.trans hb)
          rw [if_pos ⟨hstranded, hold⟩, Life.closeOpen, if_pos hopen]
        · rw [Life.closeOpen_of_ended hb', if_neg]
          exact fun hb => hb' (of_decide_eq_true hb.2).1
      · rw [if_neg hstranded] at hrow'
        refine .kept (hrow'.trans hrow.symm) (hattempts.trans ?_)
        simp [hstranded, life]

lemma sweep_moves (h : s.Sound) (now : Time) {p : JobId → Job → Bool} (code : String)
    (hp : ∀ k j, p k j = true → j.state.isWaiting) : s.Moves (s.sweep now p code).1 := by
  unfold sweep
  simp only
  set closing : Attempt :=
    { startedAt := now
      finishedAt := some now
      worker := ledgerSweepWorker
      outcome := some .interrupted
      errorKind := some .interrupted
      errorCode := some code } with hclosing
  set rows := (s.jobs.select p).map fun r => ((r.1, s.lastAttempt r.1 + 1), closing) with hrows
  have hnodup : (rows.map Prod.fst).Nodup := by
    have hkeys : ((rows.map Prod.fst).map Prod.fst).Nodup := by
      rw [hrows, List.map_map, List.map_map]
      exact s.jobs.nodup_select p
    exact hkeys.of_map
  have hothers : ∀ {k}, (∀ j, s.jobs.lookup k = some j → p k j = false) →
      attemptsAt (s.attempts.insertAll rows) k = attemptsAt s.attempts k := by
    intro k hk
    funext m
    refine Table.lookup_insertAll_of_not_mem fun r hr heq => ?_
    obtain ⟨⟨k', j⟩, hmem, rfl⟩ := List.mem_map.mp hr
    obtain ⟨hj, hpj⟩ := Table.mem_select.mp hmem
    cases heq
    rw [hk j hj] at hpj
    cases hpj
  refine .of_old rfl (fun k hk => ?_) fun k => ?_
  · rw [Table.lookup_updateWhere, hk]
    rfl
  · cases hrow : s.jobs.lookup k with
    | none =>
      refine .kept ?_ (hothers fun j hj => nomatch hrow.symm.trans hj)
      rw [life, life, Table.lookup_updateWhere, hrow]
      rfl
    | some j =>
      by_cases hpj : p k j = true
      · have hrow' : (s.jobs.updateWhere p fun j => { j with
            state := .killed, finishedAt := some now, attempts := j.attempts + 1 }).lookup k =
              some { j with
                state := .killed, finishedAt := some now, attempts := j.attempts + 1 } := by
          rw [Table.lookup_updateWhere, hrow, Option.map_some, if_pos hpj]
        refine .swept (a := closing) hrow hrow' (hp k j hpj) rfl rfl rfl (by simp [hclosing]) ?_
        funext m
        by_cases hm : m = j.attempts + 1
        · subst hm
          rw [Function.update_self]
          refine Table.lookup_insertAll_of_mem hnodup (List.mem_map.mpr ?_)
          exact ⟨(k, j), Table.mem_select.mpr ⟨hrow, hpj⟩, by rw [h.lastAttempt hrow]⟩
        · rw [Function.update_of_ne hm]
          refine Table.lookup_insertAll_of_not_mem fun r hr heq => ?_
          obtain ⟨⟨k', j'⟩, hmem, rfl⟩ := List.mem_map.mp hr
          obtain ⟨rfl, rfl⟩ := Prod.mk.inj heq
          rw [h.lastAttempt hrow] at hm
          exact hm rfl
      · refine .kept ?_ (hothers fun j' hj' => ?_)
        · rw [life, life, Table.lookup_updateWhere, hrow, Option.map_some, if_neg hpj]
        · obtain rfl := Option.some.inj (hrow.symm.trans hj')
          exact Bool.not_eq_true _ ▸ hpj

lemma killOrphaned_moves (h : s.Sound) (now : Time) (ids : List JobId) (dueBefore : Time) :
    s.Moves (s.killOrphaned now ids dueBefore).1 :=
  sweep_moves h now _ fun k j hp => by
    have hstale := (of_decide_eq_true hp).2
    exact (of_decide_eq_true hstale).1

/-- A move goes on to one that only the outbox sees. -/
lemma Moves.outbox {u : Ledger} (h : s.Moves t) (hnext : u.nextId = t.nextId)
    (hjobs : u.jobs = t.jobs) (hattempts : u.attempts = t.attempts) : s.Moves u := by
  have hlife : ∀ k, u.life k = t.life k := by
    intro k
    rw [life, life, hjobs, hattempts]
  refine ⟨hnext ▸ h.next, fun k j hj => ?_, fun k => hlife k ▸ h.lives k⟩
  rw [hnext]
  exact h.rows k j (hjobs ▸ hj)

lemma killUnregistered_moves (h : s.Sound) (now : Time) (registered : List String)
    (dueBefore : Time) : s.Moves (s.killUnregistered now registered dueBefore).1 :=
  (sweep_moves h now ledgerUnregisteredCode fun k j hp => by
    rw [(of_decide_eq_true hp).2.1]
    rfl).outbox rfl rfl rfl

/-! ### Deletion -/

lemma filter_true (o : Option Attempt) : (o.filter fun _ => true) = o := by cases o <;> rfl

lemma deleteJobs_moves {p : JobId → Job → Bool}
    (hp : ∀ k j, p k j = true → j.state.isFinished) : s.Moves (s.deleteJobs p).1 := by
  have hrows : ∀ k, (s.deleteJobs p).1.jobs.lookup k =
      ((s.jobs.lookup k).filter fun j => !p k j).map fun j =>
        if j.retriedFrom.any fun id => (s.jobs.lookup id).any (p id) then
          { j with retriedFrom := none } else j := by
    intro k
    rw [deleteJobs, Table.lookup_updateWhere, Table.lookup_deleteWhere]
  have hattempts : ∀ k, ((s.deleteJobs p).1.life k).attempts = fun m =>
      (attemptsAt s.attempts k m).filter fun _ => !(s.jobs.lookup k).any (p k) := by
    intro k
    funext m
    exact Table.lookup_deleteWhere ..
  refine .of_old rfl (fun k hk => ?_) fun k => ?_
  · rw [hrows, hk]
    rfl
  · cases hrow : s.jobs.lookup k with
    | none =>
      refine .kept ((hrows k).trans ?_) ((hattempts k).trans ?_)
      · rw [life, hrow]
        rfl
      · rw [hrow]
        exact funext fun m => filter_true _
    | some j =>
      have hrow' := hrows k
      have hattempts' := hattempts k
      rw [hrow] at hrow'
      rw [hrow, Option.any_some] at hattempts'
      by_cases hpj : p k j = true
      · refine .deleted hrow (hp k j hpj) (hrow'.trans ?_) (hattempts'.trans ?_)
        · simp [hpj]
        · simp [hpj]
      · have hsame : ((s.deleteJobs p).1.life k).attempts = (s.life k).attempts := by
          rw [hattempts', eq_false_of_ne_true hpj]
          exact funext fun m => filter_true _
        by_cases hlink : j.retriedFrom.any fun id => (s.jobs.lookup id).any (p id)
        · refine .unlinked hrow (hrow'.trans ?_) hsame
          simp [hpj, hlink]
        · refine .kept (hrow'.trans ?_) hsame
          simp [hpj, hlink, life, hrow]

lemma deleteFinished_moves (id : JobId) : s.Moves (s.deleteFinished id).1 :=
  deleteJobs_moves fun _ _ hp => (of_decide_eq_true hp).2

lemma purgeFinished_moves (succeededBefore failedBefore : Time) :
    s.Moves (s.purgeFinished succeededBefore failedBefore).1 :=
  deleteJobs_moves fun _ j hp => by
    cases hstate : j.state <;> simp_all [JobState.isFinished]

end Ledger

end Postit.Jobs

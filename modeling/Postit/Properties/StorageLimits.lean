import Postit.Media.Library

/-!
# What an asset counts for

From its reservation on, an asset counts for its declared size at most, and for less and less: no
step of a request, of a task or of the collector raises it.
-/

namespace Postit.Uploads

open Postit.Framework

variable {δ : Type} {sha256 : Bytes → δ} {settings : MediaSettings}

/-! ## Within the declared size -/

/-- The row counts for `d` bytes at most, and for as many until it is ready. -/
structure Media.Within (m : Media δ) (d : ℕ) : Prop where
  declared : m.declaredBytes = some d
  processing : m.status = .processing → m.bytes = d
  ready : m.status = .ready → m.bytes ≤ d

/-- No file has more than `d` bytes. -/
def Slot.Within (file : Slot) (d : ℕ) : Prop := ∀ i, (file.read i).length ≤ d

/-- What a task writes or has read is within `d` bytes. -/
def Task.Within (d : ℕ) : Task δ → Prop
  | .appending start total part => start + part.length ≤ total
  | .creating declared _ => declared = d
  | .copying declared _ pos buffered taken _ =>
    declared = d ∧ pos + buffered.length ≤ taken.length ∧ taken.length ≤ d
  | .storing written => written.bytes ≤ d
  | .hashing declared => declared = d
  | .reading _ taken => taken.length ≤ d
  | .finishing _ written => written.bytes ≤ d
  | .reopening | .discarding | .removing | .listed | .collected | .done => True

/-- Nothing of the asset is beyond the `d` bytes it declared. -/
structure Asset.Within (s : Asset δ) (d : ℕ) : Prop where
  row : ∀ m, s.row = some m → m.Within d
  file : Slot.Within s.file d
  tasks : ∀ task ∈ s.tasks, task.Within d

variable {d : ℕ} {s s' t : Asset δ} {m m' : Media δ} {task : Task δ} {i : ℕ} {now : Time}

lemma Media.Within.storedBytes_le (h : m.Within d) : m.storedBytes ≤ d := by
  unfold Media.storedBytes
  split
  next hstatus => exact h.ready hstatus
  next hstatus => exact (h.processing hstatus).le
  next => rw [h.declared, Option.getD_some]
  next => exact Nat.zero_le d

/-- It counts for the whole declared size before it is ready or failed. -/
lemma Media.Within.storedBytes_eq (h : m.Within d)
    (hstatus : m.status = .uploading ∨ m.status = .processing) : m.storedBytes = d := by
  rcases hstatus with hstatus | hstatus <;> simp only [Media.storedBytes, hstatus]
  · rw [h.declared, Option.getD_some]
  · exact h.processing hstatus

lemma Asset.Within.storedBytes_le (h : s.Within d) : s.storedBytes ≤ d := by
  unfold Asset.storedBytes
  cases hrow : s.row with
  | none => exact Nat.zero_le d
  | some m => exact (h.row m hrow).storedBytes_le

/-! ## Files -/

lemma Slot.Within.edit {file : Slot} (h : Slot.Within file d) {f : Bytes → Bytes}
    (hf : (f (file.read i)).length ≤ d) : Slot.Within (file.edit i f) d := by
  intro j
  have hj := h j
  by_cases hij : i = j
  · subst hij
    by_cases hi : i < file.inodes.length
    · simpa [Slot.read, Slot.edit, List.getD_eq_getElem?_getD, hi] using hf
    · simp [Slot.read, Slot.edit, List.getD_eq_getElem?_getD, hi]
  · simpa [Slot.read, Slot.edit, List.getD_eq_getElem?_getD, List.getElem?_modify, hij] using hj

lemma Slot.Within.setLen {file : Slot} (h : Slot.Within file d) {len : ℕ} (hlen : len ≤ d) :
    Slot.Within (file.setLen i len) d :=
  h.edit (by rwa [Bytes.length_resize])

lemma length_overwrite (b written : Bytes) (pos : ℕ) :
    (b.overwrite pos written).length = max b.length (pos + written.length) := by
  simp only [Bytes.overwrite, List.length_append, Bytes.length_resize, List.length_drop]
  omega

lemma Slot.Within.writeAt {file : Slot} (h : Slot.Within file d) {pos : ℕ} {written : Bytes}
    (hpos : pos + written.length ≤ d) : Slot.Within (file.writeAt i pos written) d := by
  refine h.edit ?_
  rw [length_overwrite]
  exact max_le (h i) hpos

lemma Slot.Within.openOrCreate {file : Slot} (h : Slot.Within file d) :
    Slot.Within file.openOrCreate.2 d := by
  unfold Slot.openOrCreate
  cases hlink : file.link with
  | some i => exact h
  | none =>
    intro j
    have hj := h j
    simp only [Slot.read, List.getD_eq_getElem?_getD, List.getElem?_append] at hj ⊢
    split_ifs with hlt
    · exact hj
    · cases (j - file.inodes.length) <;> simp

lemma Slot.Within.create {file : Slot} (h : Slot.Within file d) : Slot.Within file.create.2 d :=
  h.openOrCreate.setLen (Nat.zero_le d)

/-! ## Rows -/

/-- The row goes away, or counts for no more than before. -/
def RowDown (d : ℕ) (row row' : Option (Media δ)) : Prop :=
  ∀ m', row' = some m' → m'.Within d ∧ ∃ m, row = some m ∧ m'.storedBytes ≤ m.storedBytes

lemma Asset.Within.rowDown (h : s.Within d) : RowDown d s.row s.row :=
  fun m hm => ⟨h.row m hm, m, hm, le_rfl⟩

/-- A change of a row that counts for its declared size. -/
lemma RowDown.of_update {pending : List MediaStatus} {refusal : MediaServiceError}
    {change : Media δ → Media δ} {row : Option (Media δ)} (hrow : ∀ m, row = some m → m.Within d)
    (hpending : ∀ status ∈ pending, status = .uploading ∨ status = .processing)
    (hchange : ∀ m, m.Within d → m.status ∈ pending → (change m).Within d)
    (h : MediaRepo.update row pending refusal change = .ok m') : RowDown d row (some m') := by
  obtain ⟨m, hm, hstatus, rfl⟩ := MediaRepo.update_ok h
  rintro _ ⟨⟩
  have hwithin := hchange m (hrow m hm) hstatus
  have hall := (hrow m hm).storedBytes_eq (hpending m.status hstatus)
  exact ⟨hwithin, m, hm, hwithin.storedBytes_le.trans hall.ge⟩

lemma RowDown.setOffset {row : Option (Media δ)} {offset : ℕ}
    (hrow : ∀ m, row = some m → m.Within d) (h : MediaRepo.setOffset row offset now = .ok m') :
    RowDown d row (some m') := by
  refine .of_update hrow (by simp) (fun m hm hstatus => ?_) h
  have hopen := List.mem_singleton.mp hstatus
  refine ⟨hm.declared, fun hp => ?_, fun hr => ?_⟩
  · exact absurd (hopen.symm.trans hp) (by decide)
  · exact absurd (hopen.symm.trans hr) (by decide)

lemma RowDown.setProcessing {row : Option (Media δ)} (hrow : ∀ m, row = some m → m.Within d)
    (h : MediaRepo.setProcessing row now = .ok m') : RowDown d row (some m') := by
  refine .of_update hrow (by simp) (fun m hm _ => ?_) h
  exact ⟨hm.declared, fun _ => by rw [hm.declared, Option.getD_some], fun hr => (nomatch hr)⟩

lemma RowDown.reopen {row : Option (Media δ)} (hrow : ∀ m, row = some m → m.Within d)
    (h : MediaRepo.reopen row now = .ok m') : RowDown d row (some m') := by
  refine .of_update hrow (by simp) (fun m hm _ => ?_) h
  exact ⟨hm.declared, fun hp => (nomatch hp), fun hr => (nomatch hr)⟩

lemma RowDown.setReady {row : Option (Media δ)} {ready : ReadyMedia δ}
    (hrow : ∀ m, row = some m → m.Within d) (hbytes : ready.bytes ≤ d)
    (h : MediaRepo.setReady row ready now = .ok m') : RowDown d row (some m') := by
  refine .of_update hrow (by simp) (fun m hm _ => ?_) h
  exact ⟨hm.declared, fun hp => (nomatch hp), fun _ => hbytes⟩

/-- A failed asset counts for nothing. -/
lemma RowDown.setFailed {row : Option (Media δ)} (hrow : ∀ m, row = some m → m.Within d)
    (h : MediaRepo.setFailed row now = .ok m') : RowDown d row (some m') := by
  obtain ⟨m, hm, -, rfl⟩ := MediaRepo.update_ok h
  rintro _ ⟨⟩
  exact ⟨⟨(hrow m hm).declared, fun hp => (nomatch hp), fun hr => (nomatch hr)⟩, m, hm,
    Nat.zero_le _⟩

/-! ## Steps of an asset -/

/-- A step leaves the asset within its bytes, and counting for no more than before. -/
structure Shrinks (d : ℕ) (s t : Asset δ) : Prop where
  within : t.Within d
  le : t.storedBytes ≤ s.storedBytes

lemma Shrinks.of_rowDown (hrow : RowDown d s.row t.row) (hfile : Slot.Within t.file d)
    (htasks : ∀ task ∈ t.tasks, task.Within d) : Shrinks d s t := by
  refine ⟨⟨fun m hm => (hrow m hm).1, hfile, htasks⟩, ?_⟩
  unfold Asset.storedBytes
  cases hm' : t.row with
  | none => exact Nat.zero_le _
  | some m' =>
    obtain ⟨-, m, hm, hle⟩ := hrow m' hm'
    rw [hm]
    exact hle

/-- Only the tasks change. -/
lemma Shrinks.of_tasks (h : s.Within d) {tasks : List (Task δ)}
    (htasks : ∀ task ∈ tasks, task.Within d) : Shrinks d s { s with tasks } :=
  .of_rowDown h.rowDown h.file htasks

lemma within_set {tasks : List (Task δ)} (h : ∀ task ∈ tasks, task.Within d)
    (htask : task.Within d) : ∀ task' ∈ tasks.set i task, task'.Within d := by
  intro task' hmem
  rcases List.mem_or_eq_of_mem_set hmem with hmem | rfl
  · exact h task' hmem
  · exact htask

lemma within_concat {tasks : List (Task δ)} (h : ∀ task ∈ tasks, task.Within d)
    (htask : task.Within d) : ∀ task' ∈ tasks ++ [task], task'.Within d := by
  intro task' hmem
  rcases List.mem_append.mp hmem with hmem | hmem
  · exact h task' hmem
  · exact List.mem_singleton.mp hmem ▸ htask

/-- A task goes on to something else. -/
lemma Shrinks.become (h : s.Within d) (htask : task.Within d) : Shrinks d s (s.become i task) :=
  .of_tasks h (within_set h.tasks htask)

lemma Shrinks.spawn (h : s.Within d) (htask : task.Within d) : Shrinks d s (s.spawn task) :=
  .of_tasks h (within_concat h.tasks htask)

lemma Shrinks.trans (h : Shrinks d s s') (h' : Shrinks d s' t) : Shrinks d s t :=
  ⟨h'.within, h'.le.trans h.le⟩

lemma Shrinks.refl (h : s.Within d) : Shrinks d s s := ⟨h, le_rfl⟩

/-- The file changes. -/
lemma Shrinks.write (h : s.Within d) {file : Slot} (hfile : Slot.Within file d) :
    Shrinks d s { s with file } :=
  .of_rowDown h.rowDown hfile h.tasks

/-- The row changes, and a task goes on. -/
lemma Shrinks.store (h : s.Within d) (hrow : RowDown d s.row (some m)) (htask : task.Within d) :
    Shrinks d s (({ s with row := some m } : Asset δ).become i task) :=
  .of_rowDown hrow h.file (within_set h.tasks htask)

/-- A chunk that ends within its total is written within the declared size. -/
lemma Shrinks.commitChunk (h : s.Within d) {start total : ℕ} {part : Bytes}
    (hpart : start + part.length ≤ total) (interrupted : Option ℕ) :
    Shrinks d s (s.commitChunk start total part now interrupted) := by
  unfold Asset.commitChunk
  split
  next => exact .refl h
  next offset hoffset =>
    obtain ⟨m, hlock, hcheck⟩ := bind_eq_ok hoffset
    obtain ⟨hrow, -⟩ := MediaRepo.lockSession_ok hlock
    obtain ⟨hdeclared, rfl, -⟩ := checkChunk_ok hcheck
    obtain rfl : d = total := Option.some.inj ((h.row m hrow).declared.symm.trans hdeclared)
    dsimp only
    split_ifs with hshort
    · exact .write h h.file.openOrCreate
    · have hcut : Slot.Within (s.file.openOrCreate.2.setLen s.file.openOrCreate.1 start) d :=
        h.file.openOrCreate.setLen (by omega)
      cases interrupted with
      | some n =>
        refine .write h (hcut.writeAt ?_)
        rw [List.length_take]
        omega
      | none =>
        dsimp only
        split
        next => exact .write h (hcut.writeAt hpart)
        next media hset =>
          obtain ⟨new, -, hset⟩ := bind_eq_ok hset
          exact .of_rowDown (.setOffset h.row hset) (hcut.writeAt hpart) h.tasks

lemma Finisher.within_afterFailure (finisher : Finisher) (err : MediaServiceError) :
    (finisher.afterFailure err : Task δ).Within d := by
  cases finisher with
  | upload => trivial
  | complete =>
    unfold Finisher.afterFailure
    dsimp only
    split_ifs <;> trivial

lemma Task.Within.afterFailure (task : Task δ) (err : MediaServiceError) :
    (task.afterFailure err).Within d := by
  cases task with
  | hashing _ | reading _ _ => exact Finisher.complete.within_afterFailure err
  | finishing finisher _ => exact finisher.within_afterFailure err
  | _ => trivial

lemma takeItem_ok {field : String} {limit taken : ℕ} {item : BodyItem} {bytes : Bytes}
    (h : takeItem field limit taken item = .ok bytes) : taken + bytes.length ≤ limit := by
  cases item with
  | chunk b =>
    simp only [takeItem] at h
    split_ifs at h with hlimit
    cases h
    exact not_lt.mp hlimit
  | broken | timedOut => cases h

/-- A task's next step. -/
lemma Shrinks.advance (h : s.Within d) (htask : task.Within d) :
    Shrinks d s (s.advance sha256 i now task) := by
  cases task with
  | appending start total part =>
    have hcommit : Shrinks d s (s.commitChunk start total part now none) :=
      .commitChunk h htask none
    exact hcommit.trans (.become hcommit.within trivial)
  | creating declared body =>
    exact .of_rowDown h.rowDown h.file.create (within_set h.tasks ⟨htask, le_rfl, Nat.zero_le d⟩)
  | copying declared inode pos buffered taken body =>
    obtain ⟨rfl, hpos, htaken⟩ := htask
    cases body with
    | nil =>
      refine .of_rowDown h.rowDown (h.file.writeAt (hpos.trans htaken)) (within_set h.tasks ?_)
      split_ifs
      · exact htaken
      · trivial
    | cons item body =>
      simp only [Asset.advance]
      split
      next => exact .become h trivial
      next bytes hitem =>
        have hlimit := takeItem_ok hitem
        refine .of_rowDown h.rowDown h.file (within_set h.tasks ⟨rfl, ?_, ?_⟩)
        · simp only [List.length_append]
          omega
        · rwa [List.length_append]
  | storing written =>
    simp only [Asset.advance]
    split
    next => exact .become h trivial
    next media hset => exact .store h (.setProcessing h.row hset) htask
  | hashing declared =>
    obtain rfl := htask
    simp only [Asset.advance]
    split
    next => exact .become h (Finisher.within_afterFailure _ _)
    next inode hlink =>
      split_ifs
      · exact .become h (Finisher.within_afterFailure _ _)
      · exact .of_rowDown h.rowDown (h.file.setLen le_rfl) (within_set h.tasks (Nat.zero_le _))
      · exact .become h (Nat.zero_le _)
  | reading inode taken =>
    simp only [Asset.advance]
    split_ifs
    · exact .refl h
    · exact .become h htask
  | finishing finisher written =>
    simp only [Asset.advance]
    split
    next => exact .become h (finisher.within_afterFailure _)
    next media hset =>
      obtain ⟨bytes, hbytes, hset⟩ := bind_eq_ok hset
      obtain rfl := toI64_ok hbytes
      refine .store h (.setReady h.row ?_ hset) trivial
      exact htask
  | reopening =>
    simp only [Asset.advance]
    split
    next => exact .become h trivial
    next media hset => exact .store h (.reopen h.row hset) trivial
  | discarding =>
    simp only [Asset.advance]
    split
    next => exact .become h trivial
    next media hset => exact .store h (.setFailed h.row hset) trivial
  | removing | collected => exact .of_rowDown h.rowDown h.file (within_set h.tasks trivial)
  | listed =>
    simp only [Asset.advance]
    split_ifs <;> exact .become h trivial
  | done => exact .refl h

/-- A task moves some bytes on. -/
lemma Shrinks.transfer (h : s.Within d) (htask : task.Within d) (n : ℕ) :
    Shrinks d s (s.transfer i now n task) := by
  cases task with
  | appending start total part =>
    have hcommit : Shrinks d s (s.commitChunk start total part now (some n)) :=
      .commitChunk h htask (some n)
    exact hcommit.trans (.become hcommit.within trivial)
  | copying declared inode pos buffered taken body =>
    obtain ⟨rfl, hpos, htaken⟩ := htask
    refine .of_rowDown h.rowDown (h.file.writeAt ?_) (within_set h.tasks ⟨rfl, ?_, htaken⟩)
    · rw [List.length_take]
      omega
    · rw [List.length_take, List.length_drop]
      omega
  | reading inode taken =>
    have hread := h.file inode
    refine .become h ?_
    simp only [Task.Within, List.length_append, List.length_take, List.length_drop] at htask ⊢
    omega
  | _ => exact .refl h

/-- **One step** of an asset that is there. -/
lemma Shrinks.perform {a : Action} (h : s.Within d) (hother : a.reserves = none)
    (hstep : s.perform sha256 settings a = .ok t) : Shrinks d s t := by
  cases a with
  | startSession claimed size quota used now | upload claimed declared quota used body now =>
    cases hother
  | append start endInclusive total body now =>
    obtain ⟨_, hrange, hstep⟩ := bind_eq_ok hstep
    obtain ⟨media, -, hstep⟩ := bind_eq_ok hstep
    obtain ⟨_, -, hstep⟩ := bind_eq_ok hstep
    obtain ⟨part, hpart, hstep⟩ := bind_eq_ok hstep
    cases hstep
    have hlength := writePart_ok hpart
    have hinside := checkRange_ok hrange
    refine .spawn h ?_
    simp only [Task.Within]
    omega
  | complete now =>
    obtain ⟨locked, hlock, hstep⟩ := bind_eq_ok hstep
    obtain ⟨_, -, hstep⟩ := bind_eq_ok hstep
    obtain ⟨media, hset, hstep⟩ := bind_eq_ok hstep
    cases hstep
    obtain ⟨hrow, -⟩ := MediaRepo.lockSession_ok hlock
    refine .of_rowDown (.setProcessing h.row hset) h.file (within_concat h.tasks ?_)
    simp only [Task.Within, (h.row locked hrow).declared, Option.getD_some]
  | work i now move =>
    simp only [Asset.perform] at hstep
    split at hstep
    next => cases hstep
    next task htask =>
      cases hstep
      have hwithin := h.tasks task (List.mem_of_getElem? htask)
      cases move with
      | next => exact .advance h hwithin
      | transfer n => exact .transfer h hwithin n
      | fails err => exact .become h (.afterFailure task err)
  | drop i =>
    cases hstep
    exact .become h trivial
  | takeGarbage now staleBefore =>
    simp only [Asset.perform] at hstep
    split at hstep
    next => cases hstep
    next media hrow =>
      split_ifs at hstep
      cases hstep
      exact .of_rowDown (fun _ hm => nomatch hm) h.file (within_concat h.tasks trivial)
  | delete =>
    simp only [Asset.perform] at hstep
    split at hstep
    next => cases hstep
    next =>
      cases hstep
      exact .of_rowDown (fun _ hm => nomatch hm) h.file (within_concat h.tasks trivial)
  | find =>
    simp only [Asset.perform] at hstep
    split_ifs at hstep
    cases hstep
    exact .spawn h trivial

/-! ## Reservations -/

/-- A session that was just opened counts for what it declares, which the quota left room for. -/
lemma of_openSession {origin : Origin} {size quota used : ℕ}
    (h : Asset.openSession settings {} origin size quota used now = .ok t) :
    t.Within size ∧ t.storedBytes = size ∧ t.tasks = [] ∧
      (0 < quota → min (used + size) maxBigint ≤ quota) := by
  obtain ⟨-, hquota, m, rfl, hstatus, hdeclared, -⟩ := openSession_ok h
  have hwithin : m.Within size :=
    ⟨hdeclared, fun hp => by simp [hstatus] at hp, fun hr => by simp [hstatus] at hr⟩
  refine ⟨⟨?_, ?_, fun _ htask => (nomatch htask)⟩, hwithin.storedBytes_eq (.inl hstatus), rfl,
    hquota⟩
  · rintro _ ⟨⟩
    exact hwithin
  · exact fun i => Nat.zero_le _

/-- **A reservation**: what it opens counts for what it declares. -/
lemma of_reserve {a : Action} {r : Reserves} (hreserves : a.reserves = some r)
    (h : Asset.perform sha256 settings {} a = .ok t) :
    t.Within r.size ∧ t.storedBytes = r.size ∧
      (0 < r.quota → min (r.used + r.size) maxBigint ≤ r.quota) := by
  cases a with
  | startSession claimed size quota used now =>
    cases hreserves
    obtain ⟨kind, -, h⟩ := bind_eq_ok h
    obtain ⟨_, -, h⟩ := bind_eq_ok h
    obtain ⟨hwithin, hbytes, -, hquota⟩ := of_openSession h
    exact ⟨hwithin, hbytes, hquota⟩
  | upload claimed declared quota used body now =>
    cases hreserves
    obtain ⟨kind, -, h⟩ := bind_eq_ok h
    obtain ⟨_, -, h⟩ := bind_eq_ok h
    obtain ⟨opened, hopen, h⟩ := bind_eq_ok h
    cases h
    obtain ⟨hwithin, hbytes, -, hquota⟩ := of_openSession hopen
    have hspawn : Shrinks declared opened (opened.spawn (.creating declared body)) :=
      .spawn hwithin rfl
    exact ⟨hspawn.within, hbytes, hquota⟩
  | _ => cases hreserves

/-! ## Runs -/

variable {l l' : Library δ} {q : ℕ}

/-- Every asset is within what it declared, and a reservation has seen no less than there is. -/
structure Library.Sound (l : Library δ) : Prop where
  within : ∀ id asset, l.assets.lookup id = some asset → ∃ d, asset.Within d
  reserving : ∀ r, l.reserving = some r → l.storedBytes ≤ r.used

/-- The quota is `q`, and a reservation stays within 64 bits when the quota is all of them. -/
def LibraryEvent.Under (q : ℕ) : LibraryEvent → Prop
  | .lock quota => quota = q
  | .reserve _ a => ∀ r, a.reserves = some r → q < maxBigint ∨ r.used + r.size ≤ maxBigint
  | _ => True

/-- A step under the quota. -/
def Library.StepUnder (sha256 : Bytes → δ) (settings : MediaSettings) (q : ℕ) (l : Library δ)
    (e : LibraryEvent) (l' : Library δ) : Prop :=
  l.Step sha256 settings e l' ∧ e.Under q

lemma Library.sound_insert (h : ∀ id asset, l.assets.lookup id = some asset → ∃ d, asset.Within d)
    {id : MediaAssetId} (hs : s.Within d) :
    ∀ id' asset, (l.assets.insert id s).lookup id' = some asset → ∃ d, asset.Within d := by
  intro id' asset hasset
  by_cases hid : id' = id
  · subst hid
    rw [AList.lookup_insert] at hasset
    obtain rfl := Option.some.inj hasset
    exact ⟨d, hs⟩
  · rw [AList.lookup_insert_ne hid] at hasset
    exact h id' asset hasset

/-- **One step** keeps the assets within what they declared, and only a reservation adds to what is
stored. -/
lemma Library.Sound.step {e : LibraryEvent} (h : l.Sound) (hstep : l.Step sha256 settings e l') :
    l'.Sound ∧ (l'.storedBytes ≤ l.storedBytes ∧
        (∀ r, l'.reserving = some r → l.reserving = some r ∨ e = .lock r.quota) ∨
      ∃ id a r size, e = .reserve id a ∧ l.reserving = some r ∧ l'.reserving = none ∧
        a.reserves = some ⟨size, r.quota, r.used⟩ ∧ l'.storedBytes = l.storedBytes + size ∧
        (0 < r.quota → min (r.used + size) maxBigint ≤ r.quota)) := by
  cases hstep with
  | lock hfree hsum =>
    refine ⟨⟨h.within, ?_⟩, .inl ⟨le_rfl, ?_⟩⟩
    · rintro _ ⟨⟩
      exact le_rfl
    · rintro _ ⟨⟩
      exact .inr rfl
  | release => exact ⟨⟨h.within, fun _ hr => nomatch hr⟩, .inl ⟨le_rfl, fun _ hr => nomatch hr⟩⟩
  | @reserve id a r size asset hlock hnew hreserves hasset =>
    obtain ⟨hwithin, hbytes, hquota⟩ := of_reserve hreserves hasset
    refine ⟨⟨Library.sound_insert h.within hwithin, fun _ hr => nomatch hr⟩,
      .inr ⟨id, a, r, size, rfl, hlock, rfl, hreserves, ?_, hquota⟩⟩
    rw [Library.storedBytes, Table.total_insert_of_none hnew, hbytes]
    rfl
  | @act id a asset asset' hid hother hasset =>
    obtain ⟨d, hd⟩ := h.within id asset hid
    have hshrinks := Shrinks.perform hd hother hasset
    have hle : Library.storedBytes { l with assets := l.assets.insert id asset' } ≤ l.storedBytes :=
      Table.total_insert_le hid hshrinks.le
    exact ⟨⟨Library.sound_insert h.within hshrinks.within,
      fun r hr => hle.trans (h.reserving r hr)⟩, .inl ⟨hle, fun r hr => .inl hr⟩⟩

lemma Library.sound_of_run {es : List LibraryEvent}
    (h : Run (Library.Step sha256 settings) {} es l) : l.Sound :=
  h.invariant (I := Library.Sound) (fun hstep hs => (hs.step hstep).1)
    ⟨fun _ _ hasset => (nomatch hasset), fun _ hr => nomatch hr⟩

/-- What holds along a run under one quota, from `base` stored bytes on. -/
structure Library.Bounded (q base : ℕ) (l : Library δ) : Prop where
  sound : l.Sound
  quota : ∀ r, l.reserving = some r → r.quota = q
  le : l.storedBytes ≤ max q base

lemma Library.Bounded.step {e : LibraryEvent} {base : ℕ} (hq : 0 < q) (h : l.Bounded q base)
    (hstep : l.StepUnder sha256 settings q e l') : l'.Bounded q base := by
  obtain ⟨hstep, hunder⟩ := hstep
  obtain ⟨hsound, ⟨hle, hreserving⟩ | ⟨id, a, r, size, rfl, hr, hnone, hreserves, hbytes, hroom⟩⟩ :=
    h.sound.step hstep
  · refine ⟨hsound, fun r hr => ?_, hle.trans h.le⟩
    rcases hreserving r hr with hold | rfl
    · exact h.quota r hold
    · exact hunder
  · refine ⟨hsound, fun r hr => ?_, ?_⟩
    · rw [hnone] at hr
      cases hr
    · obtain rfl := h.quota r hr
      have hused := h.sound.reserving r hr
      have hmin := hroom hq
      have hwithin := hunder _ hreserves
      simp only at hwithin
      omega

end Postit.Uploads

import Postit.Framework.Pool
import Postit.Framework.Trace
import Postit.Media.Service

/-!
# Ready media

A ready asset is the bytes that were uploaded, as long as chunks are only appended to the
uploads that `start_session` opened.  The single request opens the same kind of row and writes
its file without the row's lock, so a chunk appended to it meets a writer it does not know of
(`faithful_broken_by_append`).

The invariant gives the asset at most one task that relies on its file or its row (`Working`),
and says of each such task what it relies on (`Fits`).
-/

namespace Postit.Uploads

open Postit.Framework

variable {δ : Type} {sha256 : Bytes → δ} {settings : MediaSettings}

/-! ## What is kept -/

/-- What the uploader sent: the chunks that were committed, or the body of a single request. -/
def Asset.uploaded (s : Asset δ) : Bytes :=
  match s.origin with
  | some .upload => s.streamed
  | _ => s.chunks.flatten

/-- The asset is what was uploaded: the offset stays within the declared size, the file starts
with the committed chunks, and when the asset is ready its file is whole and the row describes
it. -/
structure Faithful (sha256 : Bytes → δ) (s : Asset δ) : Prop where
  offset_le : ∀ m, s.row = some m →
    ∃ declared, m.declaredBytes = some declared ∧ ∀ o, m.uploadOffset = some o → o ≤ declared
  committed : ∀ m o, s.row = some m → m.uploadOffset = some o →
    (∀ b, s.file.contents = some b → b.take o = s.chunks.flatten) ∧
      (m.status = .uploading → 0 < o → s.file.contents.isSome)
  ready : ∀ m, s.row = some m → m.status = .ready →
    ∃ b, s.file.contents = some b ∧ m.declaredBytes = some b.length ∧ m.bytes = b.length ∧
      m.sha256 = some (sha256 b) ∧ b = s.uploaded

/-- No chunk is appended to an asset that a single request opened. -/
def Orderly (s : Asset δ) (a : Action) : Prop :=
  match a with
  | .append .. => s.origin ≠ some .upload
  | _ => True

/-! ## The invariant -/

/-- Whether a task relies on the asset staying as it left it. -/
def Task.Working : Task δ → Prop
  | .appending .. | .listed | .collected | .done => False
  | _ => True

/-- The file is the whole upload, and a copy learned the truth about it. -/
def Whole (sha256 : Bytes → δ) (s : Asset δ) (m : Media δ) (written : Written δ) : Prop :=
  ∃ b, s.file.contents = some b ∧ m.declaredBytes = some b.length ∧ b = s.uploaded ∧
    written = ⟨b.length, sha256 b⟩

/-- The file may go away: nothing will finish the asset. -/
def Spoilt (s : Asset δ) (m : Media δ) : Prop :=
  m.status ≠ .ready ∧ (s.origin = some .session → m.status ≠ .uploading)

/-- What a task finds, when the asset has the row `m`. -/
def Fits (sha256 : Bytes → δ) (s : Asset δ) (m : Media δ) : Task δ → Prop
  | .appending start total part => s.origin = some .session ∧ start + part.length ≤ total
  | .creating declared _ =>
    s.origin = some .upload ∧ m.status = .uploading ∧ m.declaredBytes = some declared ∧
      s.streamed = []
  | .copying declared inode pos buffered taken _ =>
    s.origin = some .upload ∧ m.status = .uploading ∧ m.declaredBytes = some declared ∧
      s.file.link = some inode ∧ (s.file.read inode).length = pos ∧
      s.file.read inode ++ buffered = taken ∧ s.streamed = taken
  | .storing written =>
    s.origin = some .upload ∧ m.status = .uploading ∧ Whole sha256 s m written
  | .hashing declared =>
    s.origin = some .session ∧ m.status = .processing ∧ m.declaredBytes = some declared ∧
      s.file.contents.isSome
  | .reading inode taken =>
    s.origin = some .session ∧ m.status = .processing ∧ s.file.link = some inode ∧
      s.file.read inode = s.chunks.flatten ∧ taken <+: s.chunks.flatten
  | .finishing .upload written =>
    s.origin = some .upload ∧ m.status = .processing ∧ Whole sha256 s m written
  | .finishing .complete written =>
    s.origin = some .session ∧ m.status = .processing ∧ Whole sha256 s m written
  | .reopening =>
    s.origin = some .session ∧ m.status = .processing ∧ s.file.contents.isSome
  | .discarding | .removing => Spoilt s m
  | .listed | .done => True
  | .collected => False

/-- What holds of the row, the file and what was sent. -/
structure RowSound (sha256 : Bytes → δ) (s : Asset δ) (m : Media δ) : Prop where
  origin : s.origin ≠ none
  declared : ∃ d, 0 < d ∧ m.declaredBytes = some d ∧ s.chunks.flatten.length ≤ d ∧
    (s.origin = some .session → m.status = .processing → s.chunks.flatten.length = d)
  offset : m.uploadOffset = if m.status = .ready then none else some s.chunks.flatten.length
  chunks : s.origin = some .upload → s.chunks = []
  kept : ∀ b, s.file.contents = some b → s.chunks.flatten <+: b
  stored : s.origin = some .session → m.status = .uploading → s.chunks.flatten ≠ [] →
    s.file.contents.isSome
  ready : m.status = .ready → ∃ written, Whole sha256 s m written ∧ m.bytes = written.bytes ∧
    m.sha256 = some written.sha256

/-- The invariant of an asset with a row. -/
structure Live (sha256 : Bytes → δ) (s : Asset δ) (m : Media δ) : Prop where
  sound : RowSound sha256 s m
  fits : ∀ (i : ℕ) task, s.tasks[i]? = some task → Fits sha256 s m task
  alone : Alone Task.Working s.tasks

/-- The invariant of an asset: nothing happened to it yet, or it was opened, and its row, while
it has one, is right. -/
structure Inv (sha256 : Bytes → δ) (s : Asset δ) : Prop where
  blank : s.origin = none →
    s.row = none ∧ s.tasks = [] ∧ s.file.link = none ∧ s.chunks = [] ∧ s.streamed = []
  live : ∀ m, s.row = some m → Live sha256 s m

variable {s s' : Asset δ} {m m' : Media δ} {i : ℕ} {task task' : Task δ}

/-! ## What a task's facts rest on -/

lemma RowSound.congr (h : RowSound sha256 s m) (hfile : s'.file = s.file)
    (horigin : s'.origin = s.origin) (hchunks : s'.chunks = s.chunks)
    (hstreamed : s'.streamed = s.streamed) : RowSound sha256 s' m := by
  obtain ⟨row, file, tasks, origin, chunks, streamed⟩ := s
  obtain ⟨row', file', tasks', origin', chunks', streamed'⟩ := s'
  subst hfile horigin hchunks hstreamed
  exact ⟨h.origin, h.declared, h.offset, h.chunks, h.kept, h.stored, h.ready⟩

lemma Fits.congr (h : Fits sha256 s m task) (hfile : s'.file = s.file)
    (horigin : s'.origin = s.origin) (hchunks : s'.chunks = s.chunks)
    (hstreamed : s'.streamed = s.streamed) : Fits sha256 s' m task := by
  obtain ⟨row, file, tasks, origin, chunks, streamed⟩ := s
  obtain ⟨row', file', tasks', origin', chunks', streamed'⟩ := s'
  subst hfile horigin hchunks hstreamed
  cases task with
  | finishing finisher written => cases finisher <;> exact h
  | _ => exact h

/-- A task that is not working relies on nothing but how the asset was opened. -/
lemma Fits.of_idle (h : Fits sha256 s m task) (hidle : ¬ task.Working)
    (horigin : s'.origin = s.origin) : Fits sha256 s' m' task := by
  cases task with
  | appending start total part => exact ⟨horigin.trans h.1, h.2⟩
  | listed | done => trivial
  | collected => exact h.elim
  | _ => exact absurd trivial hidle

/-- Nobody works on an open session, nor on a ready asset. -/
lemma Fits.not_working (h : Fits sha256 s m task)
    (hm : m.status = .ready ∨ (s.origin = some .session ∧ m.status = .uploading)) :
    ¬ task.Working := by
  intro hworking
  cases task with
  | appending _ _ _ | listed | collected | done => exact hworking
  | creating _ _ | copying _ _ _ _ _ _ | storing _ | hashing _ | reading _ _ | reopening =>
    obtain ⟨horigin, hstatus, -⟩ := h
    simp [horigin, hstatus] at hm
  | finishing finisher written =>
    cases finisher <;>
    · obtain ⟨horigin, hstatus, -⟩ := h
      simp [horigin, hstatus] at hm
  | discarding | removing =>
    obtain ⟨hready, hopen⟩ := h
    rcases hm with hm | ⟨horigin, hm⟩
    · exact hready hm
    · exact hopen horigin hm

/-! ## Steps of a task -/

/-- The task that works on the asset goes on to something it is fit for. -/
lemma Live.become (h : Live sha256 s m) (htask : s.tasks[i]? = some task)
    (hworking : task.Working) (htasks : s'.tasks = s.tasks) (horigin : s'.origin = s.origin)
    (hsound : RowSound sha256 s' m') (hfits : Fits sha256 s' m' task') :
    Live sha256 (s'.become i task') m' := by
  rw [← htasks] at htask
  have halone : Alone Task.Working s'.tasks := htasks ▸ h.alone
  refine ⟨hsound.congr rfl rfl rfl rfl, fun j other hj => ?_, halone.set htask hworking task'⟩
  rcases of_getElem?_set hj with ⟨-, rfl⟩ | ⟨hji, hother⟩
  · exact hfits.congr rfl rfl rfl rfl
  · have hidle := halone.others htask hworking hji hother
    rw [htasks] at hother
    exact (h.fits j other hother).of_idle hidle horigin

/-- Nobody works on the asset, and one task starts. -/
lemma Live.spawn (h : Live sha256 s m)
    (hidle : ∀ (i : ℕ) task, s.tasks[i]? = some task → ¬ task.Working)
    (htasks : s'.tasks = s.tasks) (horigin : s'.origin = s.origin)
    (hsound : RowSound sha256 s' m') (hfits : Fits sha256 s' m' task') :
    Live sha256 (s'.spawn task') m' := by
  have hidle' : ∀ (i : ℕ) task, s'.tasks[i]? = some task → ¬ task.Working := htasks ▸ hidle
  refine ⟨hsound.congr rfl rfl rfl rfl, fun j other hj => ?_, Alone.concat hidle' task'⟩
  rcases of_getElem?_concat hj with ⟨-, rfl⟩ | hother
  · exact hfits.congr rfl rfl rfl rfl
  · rw [htasks] at hother
    exact (h.fits j other hother).of_idle (hidle j other hother) horigin

/-- A task that is not working comes in, at a new place or at an old one. -/
lemma Live.idle (h : Live sha256 s m) (hidle : ¬ task.Working) (hfits : Fits sha256 s m task)
    (hfile : s'.file = s.file) (horigin : s'.origin = s.origin) (hchunks : s'.chunks = s.chunks)
    (hstreamed : s'.streamed = s.streamed)
    (htasks : ∀ (j : ℕ) other, s'.tasks[j]? = some other →
      other = task ∨ s.tasks[j]? = some other) :
    Live sha256 s' m := by
  refine ⟨h.sound.congr hfile horigin hchunks hstreamed, fun j other hj => ?_,
    h.alone.of_idle hidle htasks⟩
  rcases htasks j other hj with rfl | hold
  · exact hfits.congr hfile horigin hchunks hstreamed
  · exact (h.fits j other hold).congr hfile horigin hchunks hstreamed

lemma Live.rest (h : Live sha256 s m) (i : ℕ) : Live sha256 (s.become i .done) m := by
  have hidle : ¬ (Task.done : Task δ).Working := id
  exact h.idle hidle trivial rfl rfl rfl rfl fun _ _ hj =>
    (of_getElem?_set hj).imp And.right And.right

/-! ## Appending -/

/-- Behind the committed chunks a chunk lands, whatever an interrupted copy left there. -/
lemma contents_append (hsound : RowSound sha256 s m) (horigin : s.origin = some .session)
    (hstatus : m.status = .uploading) (written : Bytes) :
    s.chunks.flatten.length ≤ (s.file.openOrCreate.2.read s.file.openOrCreate.1).length ∧
      ((s.file.openOrCreate.2.setLen s.file.openOrCreate.1 s.chunks.flatten.length).writeAt
        s.file.openOrCreate.1 s.chunks.flatten.length written).contents =
          some (s.chunks.flatten ++ written) := by
  have hlink := Slot.link_openOrCreate s.file
  have hstart : s.chunks.flatten <+: s.file.openOrCreate.2.read s.file.openOrCreate.1 := by
    rw [Slot.read_openOrCreate]
    cases hcontents : s.file.contents with
    | some b => exact hsound.kept b hcontents
    | none =>
      have hempty : s.chunks.flatten = [] := by
        by_contra hne
        have := hsound.stored horigin hstatus hne
        simp [hcontents] at this
      rw [hempty]
      exact List.nil_prefix
  refine ⟨hstart.length_le, ?_⟩
  rw [Slot.contents_of_link (i := s.file.openOrCreate.1) (by simpa using hlink),
    Slot.read_writeAt (by simpa using hlink), Slot.read_setLen hlink,
    Bytes.resize_of_le hstart.length_le, ← List.prefix_iff_eq_take.mp hstart,
    Bytes.overwrite_length]

/-- Bytes behind the committed chunks of an open upload are no matter. -/
lemma RowSound.spill (h : RowSound sha256 s m) (hstatus : m.status = .uploading) {rest : Bytes}
    (hcontents : s'.file.contents = some (s.chunks.flatten ++ rest))
    (horigin : s'.origin = s.origin) (hchunks : s'.chunks = s.chunks) : RowSound sha256 s' m := by
  refine ⟨horigin ▸ h.origin, horigin ▸ hchunks ▸ h.declared, hchunks ▸ h.offset,
    horigin ▸ hchunks ▸ h.chunks, fun b hb => ?_, fun _ _ _ => ?_, fun hready => ?_⟩
  · rw [hcontents] at hb
    rw [hchunks]
    exact ⟨rest, Option.some.inj hb⟩
  · rw [hcontents]
    rfl
  · rw [hstatus] at hready
    cases hready

/-- A chunk is committed to an open session, or leaves its first bytes behind the offset. -/
lemma Live.commitChunk (h : Live sha256 s m) (hrow : s.row = some m) {start total : ℕ}
    {part : Bytes} (horigin : s.origin = some .session) (hfits : start + part.length ≤ total)
    (now : Time) (interrupted : Option ℕ) :
    ∃ m', (s.commitChunk start total part now interrupted).row = some m' ∧
      Live sha256 (s.commitChunk start total part now interrupted) m' := by
  have hsound := h.sound
  unfold Asset.commitChunk
  cases hlock : MediaRepo.lockSession s.row now >>= fun media => checkChunk media start total with
  | error err => exact ⟨m, hrow, h⟩
  | ok offset =>
    obtain ⟨media, hmedia, hcheck⟩ := bind_eq_ok hlock
    obtain ⟨hsome, hstatus⟩ := MediaRepo.lockSession_ok hmedia
    cases hrow.symm.trans hsome
    obtain ⟨htotal, rfl, hoffset⟩ := checkChunk_ok hcheck
    obtain ⟨d, hd, hdeclared, hle, hwhole⟩ := hsound.declared
    have hstart : start = s.chunks.flatten.length := by
      have := hsound.offset
      rw [hstatus] at this
      simpa [this] using hoffset
    have hidle : ∀ (i : ℕ) task, s.tasks[i]? = some task → ¬ task.Working := fun i task ht =>
      (h.fits i task ht).not_working (.inr ⟨horigin, hstatus⟩)
    have hdt : total = d := by
      rw [htotal] at hdeclared
      exact Option.some.inj hdeclared
    -- what the session's other tasks rely on is not touched
    have hlive : ∀ {s' : Asset δ} {m' : Media δ}, s'.tasks = s.tasks → s'.origin = s.origin →
        RowSound sha256 s' m' → Live sha256 s' m' := by
      intro s' m' htasks horigin' hsound'
      refine ⟨hsound', fun i task ht => ?_, htasks ▸ h.alone⟩
      rw [htasks] at ht
      exact (h.fits i task ht).of_idle (hidle i task ht) horigin'
    obtain ⟨hlong, -⟩ := contents_append hsound horigin hstatus []
    dsimp only
    rw [if_neg (by omega)]
    cases interrupted with
    | some n =>
      obtain ⟨-, hcontents⟩ := contents_append hsound horigin hstatus (part.take n)
      subst hstart
      exact ⟨m, hrow, hlive rfl rfl (hsound.spill hstatus hcontents rfl rfl)⟩
    | none =>
      obtain ⟨-, hcontents⟩ := contents_append hsound horigin hstatus part
      cases hset : toI64 (start + part.length) >>= fun new => MediaRepo.setOffset s.row new now with
      | error err =>
        subst hstart
        exact ⟨m, hrow, hlive rfl rfl (hsound.spill hstatus hcontents rfl rfl)⟩
      | ok media =>
        obtain ⟨new, hnew, hset⟩ := bind_eq_ok hset
        obtain rfl := toI64_ok hnew
        obtain ⟨old, hold, -, rfl⟩ := MediaRepo.update_ok hset
        cases hrow.symm.trans hold
        have hflat : (s.chunks ++ [part]).flatten = s.chunks.flatten ++ part := by simp
        have hlen : (s.chunks ++ [part]).flatten.length = start + part.length := by
          rw [hflat, List.length_append, hstart]
        refine ⟨_, rfl, hlive rfl rfl ⟨hsound.origin, ?_, ?_, ?_, ?_, ?_, ?_⟩⟩
        · refine ⟨d, hd, hdeclared, by dsimp only; omega, fun _ hprocessing => ?_⟩
          simp [hstatus] at hprocessing
        · dsimp only
          rw [hstatus, if_neg (by decide), hlen]
        · intro hupload
          rw [horigin] at hupload
          cases hupload
        · intro b hb
          subst hstart
          dsimp only at hb ⊢
          rw [hcontents] at hb
          exact (hflat.trans (Option.some.inj hb)) ▸ List.prefix_rfl
        · intro _ _ _
          subst hstart
          dsimp only
          rw [hcontents]
          rfl
        · intro hready
          simp [hstatus] at hready

/-! ## The other steps of a task -/

/-- A row that is not ready changes its status, and not to an open session's. -/
lemma RowSound.move (h : RowSound sha256 s m) (hm : m.status ≠ .ready)
    (hfile : s'.file.contents = s.file.contents ∨ s'.file.contents = none)
    (horigin : s'.origin = s.origin) (hchunks : s'.chunks = s.chunks)
    (hdeclared : m'.declaredBytes = m.declaredBytes) (hoffset : m'.uploadOffset = m.uploadOffset)
    (hm' : m'.status ≠ .ready)
    (hopen : s.origin = some .session → m'.status = .uploading → s'.file.contents.isSome)
    (hprocessing : s.origin = some .session → m'.status = .processing → m.status = .processing) :
    RowSound sha256 s' m' := by
  obtain ⟨d, hd, hdeclares, hle, hwhole⟩ := h.declared
  refine ⟨horigin ▸ h.origin, ⟨d, hd, hdeclared.trans hdeclares, hchunks ▸ hle, ?_⟩, ?_,
    horigin ▸ hchunks ▸ h.chunks, fun b hb => ?_, fun ho hs _ => hopen (horigin ▸ ho) hs,
    fun hready => absurd hready hm'⟩
  · intro ho hs
    rw [hchunks]
    exact hwhole (horigin ▸ ho) (hprocessing (horigin ▸ ho) hs)
  · rw [hoffset, h.offset, if_neg hm, if_neg hm', hchunks]
  · rcases hfile with hfile | hfile
    · rw [hchunks]
      exact h.kept b (hfile ▸ hb)
    · rw [hfile] at hb
      cases hb

/-- What a task does after a failure, it is fit for. -/
lemma Fits.afterFailure (h : Fits sha256 s m task) (err : MediaServiceError) :
    Fits sha256 s m (task.afterFailure err) := by
  have hcomplete : ∀ {m : Media δ}, s.origin = some .session → m.status = .processing →
      s.file.contents.isSome → Fits sha256 s m (Finisher.complete.afterFailure err) := by
    intro m horigin hstatus hfile
    unfold Finisher.afterFailure
    dsimp only
    split_ifs
    · exact ⟨by simp [hstatus], by simp [hstatus]⟩
    · exact ⟨horigin, hstatus, hfile⟩
  cases task with
  | appending _ _ _ | reopening | removing | listed | collected | done => trivial
  | creating _ _ | copying _ _ _ _ _ _ | storing _ =>
    obtain ⟨horigin, hstatus, -⟩ := h
    exact ⟨by simp [hstatus], by simp [horigin]⟩
  | hashing declared => exact hcomplete h.1 h.2.1 h.2.2.2
  | reading inode taken => exact hcomplete h.1 h.2.1 (by simp [Slot.contents_of_link h.2.2.1])
  | finishing finisher written =>
    cases finisher with
    | upload =>
      obtain ⟨horigin, hstatus, -⟩ := h
      exact ⟨by simp [hstatus], by simp [horigin]⟩
    | complete =>
      obtain ⟨horigin, hstatus, b, hcontents, -⟩ := h
      exact hcomplete horigin hstatus (by simp [hcontents])
  | discarding => exact h

lemma Live.fails (h : Live sha256 s m) (htask : s.tasks[i]? = some task)
    (err : MediaServiceError) : Live sha256 (s.become i (task.afterFailure err)) m := by
  have hfits := h.fits i task htask
  by_cases hworking : task.Working
  · exact h.become htask hworking rfl rfl h.sound (hfits.afterFailure err)
  · have hdone : task.afterFailure err = .done := by
      cases task with
      | appending _ _ _ | listed | collected | done => rfl
      | _ => exact absurd trivial hworking
    rw [hdone]
    exact h.rest i

/-- Nothing is committed of a single request, so its file may hold anything before it is ready. -/
lemma RowSound.scribble (h : RowSound sha256 s m) (hupload : s.origin = some .upload)
    (hm : m.status ≠ .ready) (horigin : s'.origin = s.origin) (hchunks : s'.chunks = s.chunks) :
    RowSound sha256 s' m := by
  have hnone : s'.chunks = [] := hchunks.trans (h.chunks hupload)
  refine ⟨horigin ▸ h.origin, horigin ▸ hchunks ▸ h.declared, hchunks ▸ h.offset, fun _ => hnone,
    fun b _ => ?_, fun _ _ hne => ?_, fun hready => absurd hready hm⟩
  · rw [hnone]
    exact List.nil_prefix
  · rw [hnone] at hne
    exact absurd rfl hne

lemma Fits.session_whole (h : RowSound sha256 s m) (horigin : s.origin = some .session)
    (hstatus : m.status = .processing) {declared : ℕ}
    (hdeclared : m.declaredBytes = some declared) :
    s.chunks.flatten.length = declared := by
  obtain ⟨d, -, hd, -, hwhole⟩ := h.declared
  rw [hdeclared] at hd
  rw [Option.some.inj hd]
  exact hwhole horigin hstatus

section Steps

variable (h : Live sha256 s m) (hrow : s.row = some m) (now : Time)

include h hrow

/-- The file of a completed upload is cut to the declared size, and is then the chunks. -/
lemma Live.hashing {declared : ℕ} (htask : s.tasks[i]? = some (.hashing declared)) :
    ∃ m', (s.advance sha256 i now (.hashing declared)).row = some m' ∧
      Live sha256 (s.advance sha256 i now (.hashing declared)) m' := by
  have hfits := h.fits i _ htask
  obtain ⟨horigin, hstatus, hdeclared, hfile⟩ := hfits
  have hlen := Fits.session_whole h.sound horigin hstatus hdeclared
  unfold Asset.advance
  dsimp only
  cases hlink : s.file.link with
  | none => exact ⟨m, hrow, h.fails htask .io⟩
  | some inode =>
    have hkept := h.sound.kept _ (Slot.contents_of_link hlink)
    have hle := hkept.length_le
    dsimp only
    rw [if_neg (by omega)]
    split_ifs with hlonger
    · have hcut : (s.file.setLen inode declared).read inode = s.chunks.flatten := by
        rw [Slot.read_setLen hlink, Bytes.resize_of_le (by omega), ← hlen]
        exact (List.prefix_iff_eq_take.mp hkept).symm
      have hcontents := Slot.contents_of_link (s := s.file.setLen inode declared) hlink
      rw [hcut] at hcontents
      refine ⟨m, hrow, h.become htask trivial rfl rfl ?_ ?_⟩
      · refine ⟨h.sound.origin, h.sound.declared, h.sound.offset, h.sound.chunks, ?_, ?_, ?_⟩
        · intro b hb
          dsimp only at hb
          rw [hcontents] at hb
          exact Option.some.inj hb ▸ List.prefix_rfl
        · intro _ huploading
          rw [hstatus] at huploading
          cases huploading
        · intro hready
          rw [hstatus] at hready
          cases hready
      · exact ⟨horigin, hstatus, hlink, hcut, List.nil_prefix⟩
    · have hwhole : s.file.read inode = s.chunks.flatten :=
        (hkept.eq_of_length (by omega)).symm
      exact ⟨m, hrow, h.become htask trivial rfl rfl h.sound
        ⟨horigin, hstatus, hlink, hwhole, List.nil_prefix⟩⟩

/-- A file that passes its checks makes the asset ready. -/
lemma Live.finishing {finisher : Finisher} {written : Written δ}
    (htask : s.tasks[i]? = some (.finishing finisher written)) :
    ∃ m', (s.advance sha256 i now (.finishing finisher written)).row = some m' ∧
      Live sha256 (s.advance sha256 i now (.finishing finisher written)) m' := by
  have hfits := h.fits i _ htask
  have hwhole : m.status = .processing ∧ Whole sha256 s m written := by
    cases finisher <;> exact hfits.2
  obtain ⟨hstatus, hwhole⟩ := hwhole
  unfold Asset.advance
  dsimp only
  cases hset : toI64 written.bytes >>= fun bytes =>
      MediaRepo.setReady s.row ⟨bytes, written.sha256⟩ now with
  | error err => exact ⟨m, hrow, h.fails htask err⟩
  | ok media =>
    obtain ⟨bytes, hbytes, hset⟩ := bind_eq_ok hset
    obtain rfl := toI64_ok hbytes
    obtain ⟨old, hold, -, rfl⟩ := MediaRepo.update_ok hset
    cases hrow.symm.trans hold
    obtain ⟨d, hd, hdeclared, hle, -⟩ := h.sound.declared
    refine ⟨_, rfl, h.become htask trivial rfl rfl ?_ trivial⟩
    refine ⟨h.sound.origin, ⟨d, hd, hdeclared, hle, (fun _ hstatus => nomatch hstatus)⟩, rfl,
      h.sound.chunks, h.sound.kept, (fun _ hstatus => nomatch hstatus), fun _ => ?_⟩
    obtain ⟨b, hcontents, hlen, hsent, hwritten⟩ := hwhole
    exact ⟨written, ⟨b, hcontents, hlen, hsent, hwritten⟩, rfl, rfl⟩

/-- A task's next step keeps the asset right. -/
lemma Live.advance (htask : s.tasks[i]? = some task) :
    ∃ m', (s.advance sha256 i now task).row = some m' ∧
      Live sha256 (s.advance sha256 i now task) m' := by
  have hsound := h.sound
  have hfits := h.fits i task htask
  cases task with
  | appending start total part =>
    obtain ⟨m', hrow', hlive⟩ := h.commitChunk hrow hfits.1 hfits.2 now none
    exact ⟨m', hrow', hlive.rest i⟩
  | creating declared body =>
    obtain ⟨horigin, hstatus, hdeclared, hstreamed⟩ := hfits
    have hread := Slot.read_create s.file
    refine ⟨m, hrow, h.become htask trivial rfl rfl
      (hsound.scribble horigin (by simp [hstatus]) rfl rfl) ?_⟩
    exact ⟨horigin, hstatus, hdeclared, Slot.link_create s.file, by simp [hread],
      by simp [hread], hstreamed⟩
  | copying declared inode pos buffered taken body =>
    obtain ⟨horigin, hstatus, hdeclared, hlink, hpos, htaken, hstreamed⟩ := hfits
    have hnot : m.status ≠ .ready := by simp [hstatus]
    cases body with
    | cons item body =>
      simp only [Asset.advance]
      cases hitem : takeItem "content_length" declared taken.length item with
      | error err => exact ⟨m, hrow, h.fails htask err⟩
      | ok bytes =>
        refine ⟨m, hrow, h.become htask trivial rfl rfl
          (hsound.scribble horigin hnot rfl rfl) ?_⟩
        exact ⟨horigin, hstatus, hdeclared, hlink, hpos, by rw [← List.append_assoc, htaken], rfl⟩
    | nil =>
      have hread : (s.file.writeAt inode pos buffered).read inode = taken := by
        rw [Slot.read_writeAt hlink, ← hpos, Bytes.overwrite_length, htaken]
      have hcontents := Slot.contents_of_link (s := s.file.writeAt inode pos buffered) hlink
      rw [hread] at hcontents
      simp only [Asset.advance]
      refine ⟨m, hrow, h.become htask trivial rfl rfl (hsound.scribble horigin hnot rfl rfl) ?_⟩
      split_ifs with hlen
      · refine ⟨horigin, hstatus, taken, hcontents, hlen ▸ hdeclared, ?_, rfl⟩
        simp [Asset.uploaded, horigin, hstreamed]
      · exact ⟨hnot, fun hsession => by simp [horigin] at hsession⟩
  | storing written =>
    obtain ⟨horigin, hstatus, b, hcontents, hlen, hsent, hwritten⟩ := hfits
    simp only [Asset.advance]
    cases hset : MediaRepo.setProcessing s.row now with
    | error err => exact ⟨m, hrow, h.fails htask err⟩
    | ok media =>
      obtain ⟨old, hold, -, rfl⟩ := MediaRepo.update_ok hset
      cases hrow.symm.trans hold
      refine ⟨_, rfl, h.become htask trivial rfl rfl ?_ ?_⟩
      · refine hsound.move (by simp [hstatus]) (.inl rfl) rfl rfl rfl rfl (by simp) ?_ ?_
        · intro _ huploading
          cases huploading
        · intro hsession
          rw [horigin] at hsession
          cases hsession
      · exact ⟨horigin, rfl, b, hcontents, hlen, hsent, hwritten⟩
  | hashing declared => exact h.hashing hrow now htask
  | reading inode taken =>
    obtain ⟨horigin, hstatus, hlink, hread, htaken⟩ := hfits
    simp only [Asset.advance]
    split_ifs with hend
    · exact ⟨m, hrow, h⟩
    · have hall : taken = s.chunks.flatten := htaken.eq_of_length_le (by rw [← hread]; omega)
      obtain ⟨d, -, hdeclared, -, hwhole⟩ := hsound.declared
      have hcontents := Slot.contents_of_link hlink
      rw [hread] at hcontents
      refine ⟨m, hrow, h.become htask trivial rfl rfl hsound
        ⟨horigin, hstatus, _, hcontents, ?_, ?_, ?_⟩⟩
      · rw [hdeclared, hwhole horigin hstatus]
      · simp [Asset.uploaded, horigin]
      · rw [hall]
  | finishing finisher written => exact h.finishing hrow now htask
  | reopening =>
    obtain ⟨horigin, hstatus, hfile⟩ := hfits
    simp only [Asset.advance]
    cases hset : MediaRepo.reopen s.row now with
    | error err => exact ⟨m, hrow, h.rest i⟩
    | ok media =>
      obtain ⟨old, hold, -, rfl⟩ := MediaRepo.update_ok hset
      cases hrow.symm.trans hold
      refine ⟨_, rfl, h.become htask trivial rfl rfl ?_ trivial⟩
      refine hsound.move (by simp [hstatus]) (.inl rfl) rfl rfl rfl rfl (by simp) ?_ ?_
      · exact fun _ _ => hfile
      · intro _ hprocessing
        cases hprocessing
  | discarding =>
    obtain ⟨hready, hopen⟩ := hfits
    simp only [Asset.advance]
    cases hset : MediaRepo.setFailed s.row now with
    | error err => exact ⟨m, hrow, h.fails htask err⟩
    | ok media =>
      obtain ⟨old, hold, -, rfl⟩ := MediaRepo.update_ok hset
      cases hrow.symm.trans hold
      refine ⟨_, rfl, h.become htask trivial rfl rfl ?_ ⟨by simp, by simp⟩⟩
      refine hsound.move hready (.inl rfl) rfl rfl rfl rfl (by simp) ?_ ?_
      · intro _ huploading
        cases huploading
      · intro _ hprocessing
        cases hprocessing
  | removing =>
    obtain ⟨hready, hopen⟩ := hfits
    refine ⟨m, hrow, h.become htask trivial rfl rfl ?_ trivial⟩
    refine hsound.move hready (.inr rfl) rfl rfl rfl rfl hready ?_ fun _ => id
    exact fun hsession huploading => absurd huploading (hopen hsession)
  | listed =>
    have hnamed : s.row.isNone = false := by simp [hrow]
    simp only [Asset.advance, hnamed]
    exact ⟨m, hrow, h.rest i⟩
  | collected => exact hfits.elim
  | done => exact ⟨m, hrow, h⟩

/-- Moving bytes on keeps the asset right. -/
lemma Live.transfer (n : ℕ) (htask : s.tasks[i]? = some task) :
    ∃ m', (s.transfer i now n task).row = some m' ∧
      Live sha256 (s.transfer i now n task) m' := by
  have hfits := h.fits i task htask
  cases task with
  | appending start total part =>
    obtain ⟨m', hrow', hlive⟩ := h.commitChunk hrow hfits.1 hfits.2 now (some n)
    exact ⟨m', hrow', hlive.rest i⟩
  | copying declared inode pos buffered taken body =>
    obtain ⟨horigin, hstatus, hdeclared, hlink, hpos, htaken, hstreamed⟩ := hfits
    have hread : (s.file.writeAt inode pos (buffered.take n)).read inode =
        s.file.read inode ++ buffered.take n := by
      rw [Slot.read_writeAt hlink, ← hpos, Bytes.overwrite_length]
    refine ⟨m, hrow, h.become htask trivial rfl rfl
      (h.sound.scribble horigin (by simp [hstatus]) rfl rfl) ?_⟩
    refine ⟨horigin, hstatus, hdeclared, hlink, ?_, ?_, hstreamed⟩
    · dsimp only
      rw [hread, List.length_append, hpos]
    · dsimp only
      rw [hread, List.append_assoc, List.take_append_drop, htaken]
  | reading inode taken =>
    obtain ⟨horigin, hstatus, hlink, hread, htaken⟩ := hfits
    refine ⟨m, hrow, h.become htask trivial rfl rfl h.sound ⟨horigin, hstatus, hlink, hread, ?_⟩⟩
    obtain ⟨rest, hrest⟩ := htaken
    rw [hread, ← hrest, List.drop_left, List.prefix_append_right_inj]
    exact List.take_prefix n rest
  | _ => exact ⟨m, hrow, h⟩

end Steps

/-! ## Runs -/

lemma Asset.origin_commitChunk (start total : ℕ) (part : Bytes) (now : Time)
    (interrupted : Option ℕ) :
    (s.commitChunk start total part now interrupted).origin = s.origin := by
  unfold Asset.commitChunk
  dsimp only
  repeat' split
  all_goals rfl

lemma Asset.origin_work (now : Time) (move : Move) :
    (s.work sha256 i now task move).origin = s.origin := by
  cases move with
  | fails err => rfl
  | transfer n =>
    cases task with
    | appending start total part => exact Asset.origin_commitChunk start total part now (some n)
    | _ => rfl
  | next =>
    cases task with
    | appending start total part => exact Asset.origin_commitChunk start total part now none
    | copying declared inode pos buffered taken body =>
      cases body with
      | nil => rfl
      | cons item body =>
        simp only [Asset.work, Asset.advance]
        split <;> rfl
    | _ =>
      simp only [Asset.work, Asset.advance]
      repeat' split
      all_goals rfl

/-- A row that is gone does not come back. -/
lemma Asset.row_work (hrow : s.row = none) (now : Time) (move : Move) :
    (s.work sha256 i now task move).row = none := by
  have hcommit : ∀ start total part interrupted,
      s.commitChunk start total part now interrupted = s := by
    intro start total part interrupted
    simp [Asset.commitChunk, hrow, MediaRepo.lockSession, bind, Except.bind]
  cases move with
  | fails err => exact hrow
  | transfer n =>
    cases task with
    | appending start total part =>
      simp only [Asset.work, Asset.transfer, hcommit]
      exact hrow
    | _ => exact hrow
  | next =>
    cases task with
    | appending start total part =>
      simp only [Asset.work, Asset.advance, hcommit]
      exact hrow
    | copying declared inode pos buffered taken body =>
      cases body with
      | nil => exact hrow
      | cons item body =>
        simp only [Asset.work, Asset.advance]
        split <;> exact hrow
    | finishing finisher written =>
      simp only [Asset.work, Asset.advance]
      split
      · exact hrow
      · next media hset =>
        obtain ⟨bytes, -, hset⟩ := bind_eq_ok hset
        obtain ⟨old, hold, -⟩ := MediaRepo.update_ok hset
        rw [hrow] at hold
        cases hold
    | storing _ | reopening | discarding =>
      simp only [Asset.work, Asset.advance]
      split
      · exact hrow
      · next media hset =>
        obtain ⟨old, hold, -⟩ := MediaRepo.update_ok hset
        rw [hrow] at hold
        cases hold
    | _ =>
      simp only [Asset.work, Asset.advance]
      repeat' split
      all_goals exact hrow

lemma Inv.of_live (h : Live sha256 s m) (hrow : s.row = some m) : Inv sha256 s := by
  refine ⟨fun hnone => absurd hnone h.sound.origin, fun m' hm' => ?_⟩
  cases hrow.symm.trans hm'
  exact h

lemma Inv.of_gone (hrow : s.row = none) (horigin : s.origin ≠ none) : Inv sha256 s :=
  ⟨fun hnone => absurd hnone horigin, fun m hm => by simp [hrow] at hm⟩

/-- An asset that was just opened is right, with at most one task at its beginning. -/
lemma Inv.opened (h : Inv sha256 s) {origin : Origin} {size quota used : ℕ} {now : Time}
    (hsize : 0 < size) (hopen : s.openSession settings origin size quota used now = .ok s') :
    ∃ m, s'.row = some m ∧ s'.tasks = [] ∧ s'.origin = some origin ∧ s'.streamed = [] ∧
      m.status = .uploading ∧ m.declaredBytes = some size ∧ RowSound sha256 s' m := by
  obtain ⟨hnone, -, m, rfl, hstatus, hdeclared, hoffset⟩ := openSession_ok hopen
  obtain ⟨-, htasks, hlink, hchunks, hstreamed⟩ := h.blank hnone
  refine ⟨m, rfl, htasks, rfl, hstreamed, hstatus, hdeclared, by simp, ?_, ?_, fun _ => hchunks,
    ?_, ?_, ?_⟩
  · exact ⟨size, hsize, hdeclared, by simp [hchunks], by simp [hstatus]⟩
  · simp [hstatus, hoffset, hchunks]
  · simp [Slot.contents, hlink]
  · simp [hchunks]
  · simp [hstatus]

/-- Only a session has chunks. -/
lemma RowSound.session (h : RowSound sha256 s m) (hne : s.chunks.flatten ≠ []) :
    s.origin = some .session := by
  cases horigin : s.origin with
  | none => exact absurd horigin h.origin
  | some origin =>
    cases origin with
    | session => rfl
    | upload =>
      rw [h.chunks horigin] at hne
      exact absurd rfl hne

/-- A completion starts on an open session with every byte, that nobody works on. -/
lemma Inv.complete (h : Inv sha256 s) {now : Time} (hstep : s.complete now = .ok s') :
    Inv sha256 s' := by
  obtain ⟨locked, hlock, hstep⟩ := bind_eq_ok hstep
  obtain ⟨u, hcheck, hstep⟩ := bind_eq_ok hstep
  obtain ⟨media, hset, hstep⟩ := bind_eq_ok hstep
  cases hstep
  obtain ⟨hrow, hstatus⟩ := MediaRepo.lockSession_ok hlock
  obtain ⟨old, hold, -, rfl⟩ := MediaRepo.update_ok hset
  cases hrow.symm.trans hold
  have hlive := h.live locked hrow
  obtain ⟨d, hd, hdeclared, hle, -⟩ := hlive.sound.declared
  have hall : s.chunks.flatten.length = d := by
    have hwhole := checkWhole_ok hcheck
    rw [hlive.sound.offset, hdeclared, hstatus, if_neg (by decide)] at hwhole
    exact hwhole
  have hne : s.chunks.flatten ≠ [] := by
    intro hnil
    rw [hnil, List.length_nil] at hall
    omega
  have horigin := hlive.sound.session hne
  have hfile := hlive.sound.stored horigin hstatus hne
  refine Inv.of_live (hlive.spawn (fun i task htask => ?_) rfl rfl ?_ ?_) rfl
  · exact (hlive.fits i task htask).not_working (.inr ⟨horigin, hstatus⟩)
  · refine ⟨hlive.sound.origin, ⟨d, hd, hdeclared, hle, fun _ _ => hall⟩, ?_, hlive.sound.chunks,
      hlive.sound.kept, (fun _ hstatus => nomatch hstatus), (fun hstatus => nomatch hstatus)⟩
    have hoffset := hlive.sound.offset
    rw [hstatus] at hoffset
    exact hoffset
  · refine ⟨horigin, rfl, ?_, hfile⟩
    rw [hdeclared, Option.getD_some]

/-- A step that appends to no single request's asset keeps the invariant. -/
lemma Inv.step {a : Action} (h : Inv sha256 s) (hstep : s.Step sha256 settings a s')
    (horderly : Orderly s a) : Inv sha256 s' := by
  unfold Asset.Step at hstep
  cases a with
  | startSession claimed size quota used now =>
    obtain ⟨kind, -, hstep⟩ := bind_eq_ok hstep
    obtain ⟨u, hcheck, hopen⟩ := bind_eq_ok hstep
    obtain ⟨m, hrow, htasks, horigin, hstreamed, hstatus, hdeclared, hsound⟩ :=
      h.opened (checkSize_ok hcheck) hopen
    exact Inv.of_live ⟨hsound, by simp [htasks], by simp [htasks, Alone]⟩ hrow
  | upload claimed declared quota used body now =>
    obtain ⟨kind, -, hstep⟩ := bind_eq_ok hstep
    obtain ⟨u, hcheck, hstep⟩ := bind_eq_ok hstep
    obtain ⟨opened, hopen, hstep⟩ := bind_eq_ok hstep
    cases hstep
    obtain ⟨m, hrow, htasks, horigin, hstreamed, hstatus, hdeclared, hsound⟩ :=
      h.opened (checkSize_ok hcheck) hopen
    have hlive : Live sha256 opened m := ⟨hsound, by simp [htasks], by simp [htasks, Alone]⟩
    exact Inv.of_live (hlive.spawn (by simp [htasks]) rfl rfl hsound
      ⟨horigin, hstatus, hdeclared, hstreamed⟩) hrow
  | append start endInclusive total body now =>
    obtain ⟨u, hrange, hstep⟩ := bind_eq_ok hstep
    obtain ⟨media, hlock, hstep⟩ := bind_eq_ok hstep
    obtain ⟨offset, hcheck, hstep⟩ := bind_eq_ok hstep
    obtain ⟨part, hpart, hstep⟩ := bind_eq_ok hstep
    cases hstep
    obtain ⟨hrow, hstatus⟩ := MediaRepo.lockSession_ok hlock
    have hlive := h.live media hrow
    have hsession : s.origin = some .session := by
      cases ho : s.origin with
      | none => exact absurd ho hlive.sound.origin
      | some origin =>
        cases origin with
        | session => rfl
        | upload => exact absurd ho horderly
    have hlen := writePart_ok hpart
    obtain ⟨hle, hlt⟩ := checkRange_ok hrange
    exact Inv.of_live (hlive.spawn
      (fun i task htask => (hlive.fits i task htask).not_working (.inr ⟨hsession, hstatus⟩))
      rfl rfl hlive.sound ⟨hsession, by omega⟩) hrow
  | complete now => exact h.complete hstep
  | work i now move =>
    simp only [Asset.perform] at hstep
    cases htask : s.tasks[i]? with
    | none => simp [htask] at hstep
    | some task =>
      simp only [htask, Except.ok.injEq] at hstep
      subst hstep
      cases hrow : s.row with
      | none =>
        refine Inv.of_gone (Asset.row_work hrow now move) ?_
        rw [Asset.origin_work]
        intro hnone
        simp [(h.blank hnone).2.1] at htask
      | some m =>
        have hlive := h.live m hrow
        obtain ⟨m', hrow', hlive'⟩ : ∃ m', (s.work sha256 i now task move).row = some m' ∧
            Live sha256 (s.work sha256 i now task move) m' := by
          cases move with
          | next => exact hlive.advance hrow now htask
          | transfer n => exact hlive.transfer hrow now n htask
          | fails err => exact ⟨m, hrow, hlive.fails htask err⟩
        exact Inv.of_live hlive' hrow'
  | drop i =>
    cases hstep
    cases hrow : s.row with
    | none =>
      refine ⟨fun hnone => ?_, fun m hm => ?_⟩
      swap
      · have : s.row = some m := hm
        simp [hrow] at this
      obtain ⟨hrow, htasks, hrest⟩ := h.blank hnone
      exact ⟨hrow, by simp [Asset.become, htasks], hrest⟩
    | some m => exact Inv.of_live ((h.live m hrow).rest i) hrow
  | takeGarbage now staleBefore =>
    simp only [Asset.perform] at hstep
    cases hrow : s.row with
    | none => simp [hrow] at hstep
    | some m =>
      simp only [hrow] at hstep
      split_ifs at hstep
      · cases hstep
        exact Inv.of_gone rfl (h.live m hrow).sound.origin
  | delete =>
    simp only [Asset.perform] at hstep
    cases hrow : s.row with
    | none => simp [hrow] at hstep
    | some m =>
      simp only [hrow] at hstep
      cases hstep
      exact Inv.of_gone rfl (h.live m hrow).sound.origin
  | find =>
    simp only [Asset.perform] at hstep
    split_ifs at hstep with hlink
    · cases hstep
      cases hrow : s.row with
      | none =>
        refine Inv.of_gone hrow fun hnone => ?_
        simp [(h.blank hnone).2.2.1] at hlink
      | some m =>
        have hidle : ¬ (Task.listed : Task δ).Working := id
        exact Inv.of_live ((h.live m hrow).idle hidle trivial rfl rfl rfl rfl fun _ _ hj =>
          (of_getElem?_concat hj).imp_left And.right) hrow

lemma Inv.faithful (h : Inv sha256 s) : Faithful sha256 s := by
  refine ⟨fun m hm => ?_, fun m o hm ho => ?_, fun m hm hready => ?_⟩
  · have hsound := (h.live m hm).sound
    obtain ⟨d, -, hdeclared, hle, -⟩ := hsound.declared
    refine ⟨d, hdeclared, fun o ho => ?_⟩
    rw [hsound.offset] at ho
    split_ifs at ho
    · cases ho
      exact hle
  · have hsound := (h.live m hm).sound
    rw [hsound.offset] at ho
    split_ifs at ho
    · cases ho
      refine ⟨fun b hb => (List.prefix_iff_eq_take.mp (hsound.kept b hb)).symm, ?_⟩
      intro hstatus hpos
      have hne := List.ne_nil_of_length_pos hpos
      exact hsound.stored (hsound.session hne) hstatus hne
  · obtain ⟨written, ⟨b, hcontents, hlen, hsent, rfl⟩, hbytes, hsha⟩ :=
      (h.live m hm).sound.ready hready
    exact ⟨b, hcontents, hlen, hbytes, hsha, hsent⟩

/-- **A ready asset is the bytes that were uploaded**, in every state of every run that appends
chunks to sessions only: the offset never passes the declared size, the file starts with the
committed chunks in order, and when the asset is ready its file is exactly what was sent, and
the row gives its length and its digest. -/
theorem faithful_of_orderly {as : List Action}
    (run : Run (fun s a t => Asset.Step sha256 settings s a t ∧ Orderly s a) {} as s) :
    Faithful sha256 s := by
  have hstart : Inv sha256 ({} : Asset δ) :=
    ⟨fun _ => ⟨rfl, rfl, rfl, rfl, rfl⟩, (fun m hm => nomatch hm)⟩
  exact (run.invariant (fun hstep hinv => hinv.step hstep.1 hstep.2) hstart).faithful

instance (s : Asset δ) (a : Action) : Decidable (Orderly s a) := by
  unfold Orderly
  cases a <;> infer_instance

/-- A picture of one point. -/
def pixel : Bytes :=
  [71, 73, 70, 56, 57, 97, 1, 0, 1, 0, 128, 0, 0, 255, 255, 255, 0, 0, 0, 33, 249, 4, 1, 0, 0, 0,
    0, 44, 0, 0, 0, 0, 1, 0, 1, 0, 0, 2, 2, 68, 1, 0, 59]

/-- Its digest. -/
def pixelDigest : Bytes :=
  [177, 68, 46, 133, 176, 59, 220, 175, 102, 220, 88, 199, 171, 185, 135, 69, 221, 38, 135, 216,
    99, 80, 190, 154, 41, 138, 29, 147, 130, 172, 132, 155]

/-- Limits to try the service with. -/
def sampleSettings : MediaSettings :=
  { imageMaxBytes := 1000
    videoMaxBytes := 1000
    singleRequestMax := 1000
    chunkMax := 30
    uploadSessionTtl := 1000 }

/-- A picture in two chunks, the second of which is interrupted and sent again, and completed
twice. -/
def twoChunks : List Action :=
  [.startSession (.ok .image) 43 0 0 0, .append 0 19 43 [.chunk (pixel.take 20)] 0, .work 0 0 .next,
    .append 20 42 43 [.chunk (pixel.drop 20)] 0, .work 1 0 (.transfer 5),
    .append 20 42 43 [.chunk (pixel.drop 20)] 0, .work 2 0 .next, .complete 0, .work 3 0 .next,
    .work 3 0 (.fails .io), .work 3 0 .next, .complete 0, .work 4 0 .next,
    .work 4 0 (.transfer 43), .work 4 0 .next, .work 4 0 .next]

theorem faithful_two_chunks :
    ∃ s : Asset Bytes,
      Run (fun s a t => Asset.Step (fun _ => pixelDigest) sampleSettings s a t ∧ Orderly s a) {}
        twoChunks s ∧
      s.row.map (·.status) = some .ready ∧ s.file.contents = some pixel ∧
        Faithful (fun _ => pixelDigest) s := by
  let f : Asset Bytes → Action → Option (Asset Bytes) := fun s a =>
    if Orderly s a then (s.perform (fun _ => pixelDigest) sampleSettings a).toOption else none
  have hf : ∀ {s a t}, f s a = some t →
      Asset.Step (fun _ => pixelDigest) sampleSettings s a t ∧ Orderly s a := by
    intro s a t h
    simp only [f] at h
    split_ifs at h with horderly
    · exact ⟨ok_of_toOption h, horderly⟩
  have hready : (twoChunks.foldlM f {}).map (fun s => (s.row.map (·.status), s.file.contents)) =
      some (some .ready, some pixel) := by
    decide
  obtain ⟨s, hs, heq⟩ := Option.map_eq_some_iff.mp hready
  obtain ⟨hstatus, hcontents⟩ := Prod.mk.inj heq
  have hrun := Run.of_foldlM hf hs
  exact ⟨s, hrun, hstatus, hcontents, faithful_of_orderly hrun⟩

/-- A picture sent in one request, and again as a chunk of the same upload while the request is
being read.  The completed asset is ready when the request finds it taken, and removes its
file. -/
def appendedMeanwhile : List Action :=
  [.upload (.ok .image) 43 0 0 [.chunk (pixel.take 20), .chunk (pixel.drop 20)] 0,
    .work 0 0 .next, .work 0 0 .next, .work 0 0 (.transfer 20),
    .append 0 42 43 [.chunk pixel] 0, .work 1 0 .next, .complete 0, .work 2 0 .next,
    .work 2 0 (.transfer 43), .work 2 0 .next, .work 2 0 .next,
    .work 0 0 .next, .work 0 0 .next, .work 0 0 .next, .work 0 0 .next, .work 0 0 .next]

theorem faithful_broken_by_append :
    ¬ ∀ (sha256 : Bytes → Bytes) (settings : MediaSettings) (as : List Action) (s : Asset Bytes),
      Run (Asset.Step sha256 settings) {} as s → Faithful sha256 s := by
  intro hall
  let settings : MediaSettings := { sampleSettings with chunkMax := 43 }
  let f : Asset Bytes → Action → Option (Asset Bytes) := fun s a =>
    (s.perform (fun _ => pixelDigest) settings a).toOption
  have hready : (appendedMeanwhile.foldlM f {}).map
      (fun s => (s.row.map (·.status), s.file.contents)) = some (some .ready, none) := by
    decide
  obtain ⟨s, hs, heq⟩ := Option.map_eq_some_iff.mp hready
  obtain ⟨hstatus, hcontents⟩ := Prod.mk.inj heq
  obtain ⟨m, hm, hstatus⟩ := Option.map_eq_some_iff.mp hstatus
  have hrun : Run (Asset.Step (fun _ => pixelDigest) settings) {} appendedMeanwhile s :=
    Run.of_foldlM ok_of_toOption hs
  obtain ⟨b, hb, -⟩ := (hall _ _ _ s hrun).ready m hm hstatus
  rw [hcontents] at hb
  cases hb

end Postit.Uploads

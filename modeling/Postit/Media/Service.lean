import Postit.Framework.Files
import Postit.Media.Assets

/-!
# The media service

One asset: its row, its file, and the requests and background tasks at work on it.  A task takes
one step at a time, and between two steps anything else may happen to the asset; a step under the
row's lock is one step.  The service opens a file by its name and keeps the file while the name
goes away, so the file is a `Slot`.

What sniffing, probing and the thumbnail say of a file is outside: the checks of `finish` pass or
fail as they will.  A caller without the right to edit takes no step at all, and thumbnails are
left out.
-/

namespace Postit.Uploads

open Postit.Framework

/-! ## Requests -/

/-- What an accepted file is. -/
inductive MediaKind
  | image
  | video
  deriving DecidableEq, Repr

/-- Limits of the service. -/
structure MediaSettings where
  imageMaxBytes : ℕ
  videoMaxBytes : ℕ
  singleRequestMax : ℕ
  chunkMax : ℕ
  uploadSessionTtl : Time

/-- The largest file of a kind. -/
def MediaSettings.kindMax (settings : MediaSettings) : MediaKind → ℕ
  | .image => settings.imageMaxBytes
  | .video => settings.videoMaxBytes

/-- What the next read of a request body gives. -/
inductive BodyItem
  | chunk (bytes : Bytes)
  | broken
  | timedOut
  deriving DecidableEq, Repr

/-- Refuses an empty file, and one over the limit. -/
def checkSize (size max : ℕ) : Except MediaServiceError Unit :=
  if size = 0 then .error (.invalid "size")
  else if max < size then .error (.payloadTooLarge max)
  else .ok ()

/-- Refuses a range that does not fit its total, or is longer than a chunk may be. -/
def checkRange (start endInclusive total chunkMax : ℕ) : Except MediaServiceError Unit :=
  if endInclusive < start ∨ total ≤ endInclusive then .error (.invalid "content_range")
  else if chunkMax < endInclusive - start + 1 then .error (.payloadTooLarge chunkMax)
  else .ok ()

variable {δ : Type}

/-- Checks a chunk against the declared size and the stored offset, and returns the offset. -/
def checkChunk (media : Media δ) (start total : ℕ) : Except MediaServiceError ℕ :=
  if media.declaredBytes ≠ some total then .error (.invalid "content_range")
  else if start ≠ media.uploadOffset.getD 0 then
    .error (.uploadOffsetMismatch (media.uploadOffset.getD 0))
  else .ok (media.uploadOffset.getD 0)

/-- Refuses to complete an upload before its last byte. -/
def checkWhole (media : Media δ) : Except MediaServiceError Unit :=
  if media.uploadOffset.getD 0 ≠ media.declaredBytes.getD 0 then
    .error (.uploadOffsetMismatch (media.uploadOffset.getD 0))
  else .ok ()

/-- One read of `copy_stream`: the bytes it gives, unless they pass the limit. -/
def takeItem (field : String) (limit taken : ℕ) : BodyItem → Except MediaServiceError Bytes
  | .chunk bytes => if limit < taken + bytes.length then .error (.invalid field) else .ok bytes
  | .broken => .error .bodyUnreadable
  | .timedOut => .error .bodyTimedOut

/-- The bytes of a whole body, unless they pass the limit. -/
def copyStream (field : String) (limit : ℕ) (taken : Bytes) :
    List BodyItem → Except MediaServiceError Bytes
  | [] => .ok taken
  | item :: body =>
    match takeItem field limit taken.length item with
    | .error err => .error err
    | .ok bytes => copyStream field limit (taken ++ bytes) body

/-- The bytes of a chunk of exactly `len` bytes, in a file of their own. -/
def writePart (body : List BodyItem) (len : ℕ) : Except MediaServiceError Bytes :=
  match copyStream "content_range" len [] body with
  | .error err => .error err
  | .ok part => if part.length = len then .ok part else .error (.invalid "content_range")

/-! ## Tasks -/

/-- What a copy learned. -/
structure Written (δ : Type) where
  bytes : ℕ
  sha256 : δ
  deriving DecidableEq, Repr

/-- Whose failure `finish` reports. -/
inductive Finisher
  | upload
  | complete
  deriving DecidableEq, Repr

/-- A request or a background task at work on the asset, by what it does next. -/
inductive Task (δ : Type)
  /-- `append`: commit the part it wrote -/
  | appending (start total : ℕ) (part : Bytes)
  /-- `upload`: make the file -/
  | creating (declared : ℕ) (body : List BodyItem)
  /-- `upload`: copy the body, of which `taken` was read and `buffered` not yet written -/
  | copying (declared inode pos : ℕ) (buffered taken : Bytes) (body : List BodyItem)
  /-- `upload`: move the row to `processing` -/
  | storing (written : Written δ)
  /-- `complete`: open the file and cut it to the declared size -/
  | hashing (declared : ℕ)
  /-- `complete`: read the file -/
  | reading (inode : ℕ) (taken : Bytes)
  /-- `finish`: mark the row ready, when the file passes its checks -/
  | finishing (finisher : Finisher) (written : Written δ)
  /-- `reopen` -/
  | reopening
  /-- `discard`: mark the row failed -/
  | discarding
  /-- `discard`: remove the file -/
  | removing
  /-- the sweep: ask whether a row names the file it found -/
  | listed
  /-- the collector, the sweep or a deletion: remove the file of no row -/
  | collected
  | done
  deriving DecidableEq, Repr

/-- What follows a failed `finish`, or a failed step before it: a single request is discarded, and
a completion only when the file itself is refused. -/
def Finisher.afterFailure (finisher : Finisher) (err : MediaServiceError) : Task δ :=
  match finisher with
  | .upload => .discarding
  | .complete => if err.refusesContent then .discarding else .reopening

/-- What a task does when its next call fails. -/
def Task.afterFailure (err : MediaServiceError) : Task δ → Task δ
  | .creating .. | .copying .. | .storing _ => .discarding
  | .hashing _ | .reading .. => Finisher.complete.afterFailure err
  | .finishing finisher _ => finisher.afterFailure err
  | .discarding => .removing
  | .appending .. | .reopening | .removing | .listed | .collected | .done => .done

/-- How an asset was opened. -/
inductive Origin
  | session
  | upload
  deriving DecidableEq, Repr

/-- An asset.  How it was opened, the chunks that were committed and what a single request sent
are kept for the record: no code reads them. -/
structure Asset (δ : Type) where
  row : Option (Media δ) := none
  file : Slot := {}
  tasks : List (Task δ) := []
  origin : Option Origin := none
  chunks : List Bytes := []
  streamed : Bytes := []

namespace Asset

/-- A new task starts. -/
def spawn (s : Asset δ) (task : Task δ) : Asset δ := { s with tasks := s.tasks ++ [task] }

/-- A task goes on to what it does next. -/
def become (s : Asset δ) (i : ℕ) (task : Task δ) : Asset δ := { s with tasks := s.tasks.set i task }

/-- Reserves quota and records an open session.  The id is new: the database has no row of it. -/
def openSession (settings : MediaSettings) (s : Asset δ) (origin : Origin)
    (size quota used : ℕ) (now : Time) : Except MediaServiceError (Asset δ) :=
  match s.origin with
  | some _ => .error .data
  | none => do
    let declared ← toI64 size
    let media ← MediaRepo.reserve declared quota used (now + settings.uploadSessionTtl) now
    .ok { s with row := some media, origin := some origin }

/-- Appends a part to the upload under the row's lock.  A copy that is interrupted leaves its
first bytes in the file, and the row as it was. -/
def commitChunk (s : Asset δ) (start total : ℕ) (part : Bytes) (now : Time)
    (interrupted : Option ℕ) : Asset δ :=
  match MediaRepo.lockSession s.row now >>= fun media => checkChunk media start total with
  | .error _ => s
  | .ok offset =>
    let opened := s.file.openOrCreate
    if (opened.2.read opened.1).length < offset then { s with file := opened.2 }
    else
      -- Drop whatever an interrupted copy left behind the committed offset.
      let cut := opened.2.setLen opened.1 offset
      match interrupted with
      | some n => { s with file := cut.writeAt opened.1 offset (part.take n) }
      | none =>
        let file := cut.writeAt opened.1 offset part
        match toI64 (offset + part.length) >>= fun new => MediaRepo.setOffset s.row new now with
        | .error _ => { s with file }
        | .ok media => { s with row := some media, file, chunks := s.chunks ++ [part] }

/-- Closes an upload whose last byte arrived, and starts its checks. -/
def complete (s : Asset δ) (now : Time) : Except MediaServiceError (Asset δ) := do
  let locked ← MediaRepo.lockSession s.row now
  checkWhole locked
  let media ← MediaRepo.setProcessing s.row now
  .ok ({ s with row := some media }.spawn (.hashing (locked.declaredBytes.getD 0)))

/-- A task's next step goes well. -/
def advance (sha256 : Bytes → δ) (s : Asset δ) (i : ℕ) (now : Time) : Task δ → Asset δ
  | .appending start total part => (s.commitChunk start total part now none).become i .done
  | .creating declared body =>
    let opened := s.file.create
    { s with file := opened.2 }.become i (.copying declared opened.1 0 [] [] body)
  | .copying declared inode pos buffered taken (item :: body) =>
    match takeItem "content_length" declared taken.length item with
    | .error _ => s.become i .discarding
    | .ok bytes =>
      { s with streamed := taken ++ bytes }.become i
        (.copying declared inode pos (buffered ++ bytes) (taken ++ bytes) body)
  | .copying declared inode pos buffered taken [] =>
    { s with file := s.file.writeAt inode pos buffered }.become i
      (if taken.length = declared then .storing ⟨taken.length, sha256 taken⟩ else .discarding)
  | .storing written =>
    match MediaRepo.setProcessing s.row now with
    | .error _ => s.become i .discarding
    | .ok media => { s with row := some media }.become i (.finishing .upload written)
  | .hashing declared =>
    match s.file.link with
    | none => s.become i (Finisher.complete.afterFailure .io)
    | some inode =>
      if (s.file.read inode).length < declared then
        s.become i (Finisher.complete.afterFailure .io)
      else if declared < (s.file.read inode).length then
        { s with file := s.file.setLen inode declared }.become i (.reading inode [])
      else s.become i (.reading inode [])
  | .reading inode taken =>
    if taken.length < (s.file.read inode).length then s
    else s.become i (.finishing .complete ⟨taken.length, sha256 taken⟩)
  | .finishing finisher written =>
    match toI64 written.bytes >>= fun bytes =>
        MediaRepo.setReady s.row ⟨bytes, written.sha256⟩ now with
    | .error err => s.become i (finisher.afterFailure err)
    | .ok media => { s with row := some media }.become i .done
  | .reopening =>
    match MediaRepo.reopen s.row now with
    | .error _ => s.become i .done
    | .ok media => { s with row := some media }.become i .done
  | .discarding =>
    match MediaRepo.setFailed s.row now with
    | .error _ => s.become i .removing
    | .ok media => { s with row := some media }.become i .removing
  | .removing => { s with file := s.file.unlink }.become i .done
  | .listed => if s.row.isNone then s.become i .collected else s.become i .done
  | .collected => { s with file := s.file.unlink }.become i .done
  | .done => s

/-- A task moves up to `n` bytes on: out of a buffer into the file, out of the file into a hash,
or out of a part into the file before the copy is interrupted. -/
def transfer (s : Asset δ) (i : ℕ) (now : Time) (n : ℕ) : Task δ → Asset δ
  | .appending start total part => (s.commitChunk start total part now (some n)).become i .done
  | .copying declared inode pos buffered taken body =>
    { s with file := s.file.writeAt inode pos (buffered.take n) }.become i
      (.copying declared inode (pos + (buffered.take n).length) (buffered.drop n) taken body)
  | .reading inode taken =>
    s.become i (.reading inode (taken ++ ((s.file.read inode).drop taken.length).take n))
  | _ => s

end Asset

/-! ## What a call that succeeds did -/

section Specs

variable {m : Media δ} {s s' : Asset δ} {settings : MediaSettings}

lemma checkChunk_ok {start total offset : ℕ} (h : checkChunk m start total = .ok offset) :
    m.declaredBytes = some total ∧ start = offset ∧ offset = m.uploadOffset.getD 0 := by
  unfold checkChunk at h
  split_ifs at h with hdeclared hstart
  · cases h
    exact ⟨not_not.mp hdeclared, not_not.mp hstart, rfl⟩

lemma checkSize_ok {size max : ℕ} {u : Unit} (h : checkSize size max = .ok u) : 0 < size := by
  unfold checkSize at h
  split_ifs at h
  · omega

lemma checkRange_ok {start endInclusive total chunkMax : ℕ} {u : Unit}
    (h : checkRange start endInclusive total chunkMax = .ok u) :
    start ≤ endInclusive ∧ endInclusive < total := by
  unfold checkRange at h
  split_ifs at h
  · omega

lemma writePart_ok {body : List BodyItem} {len : ℕ} {part : Bytes}
    (h : writePart body len = .ok part) : part.length = len := by
  unfold writePart at h
  cases hcopy : copyStream "content_range" len [] body with
  | error err => simp [hcopy] at h
  | ok bytes =>
    simp only [hcopy] at h
    split_ifs at h with hlen
    · cases h
      exact hlen

lemma checkWhole_ok {u : Unit} (h : checkWhole m = .ok u) :
    m.uploadOffset.getD 0 = m.declaredBytes.getD 0 := by
  unfold checkWhole at h
  split_ifs at h with hne
  · exact not_not.mp hne

lemma openSession_ok {origin : Origin} {size quota used : ℕ} {now : Time}
    (h : s.openSession settings origin size quota used now = .ok s') :
    s.origin = none ∧ (0 < quota → min (used + size) maxBigint ≤ quota) ∧
      ∃ m, s' = { s with row := some m, origin := some origin } ∧
      m.status = .uploading ∧ m.declaredBytes = some size ∧ m.uploadOffset = some 0 := by
  unfold Asset.openSession at h
  cases horigin : s.origin with
  | some _ => simp [horigin] at h
  | none =>
    simp only [horigin] at h
    obtain ⟨declared, hdeclared, h⟩ := bind_eq_ok h
    obtain ⟨media, hmedia, h⟩ := bind_eq_ok h
    obtain rfl := toI64_ok hdeclared
    unfold MediaRepo.reserve at hmedia
    split_ifs at hmedia with hquota
    cases hmedia
    exact ⟨rfl, fun hpos => by omega, _, (Except.ok.inj h).symm, rfl, rfl, rfl⟩

end Specs

/-! ## Runs -/

/-- How a task's next step goes. -/
inductive Move
  | next
  | transfer (n : ℕ)
  | fails (err : MediaServiceError)
  deriving DecidableEq, Repr

/-- What happens to the asset: a request, a step of a task, the end of a task whose process or
connection is gone, a collection, a deletion, or the sweep finding the file.  `claimed` is the
kind the file's name claims. -/
inductive Action
  | startSession (claimed : Except MediaServiceError MediaKind) (size quota used : ℕ) (now : Time)
  | upload (claimed : Except MediaServiceError MediaKind) (declared quota used : ℕ)
      (body : List BodyItem) (now : Time)
  | append (start endInclusive total : ℕ) (body : List BodyItem) (now : Time)
  | complete (now : Time)
  | work (i : ℕ) (now : Time) (move : Move)
  | drop (i : ℕ)
  | takeGarbage (now staleBefore : Time)
  | delete
  | find

namespace Asset

/-- A task takes a step. -/
def work (sha256 : Bytes → δ) (s : Asset δ) (i : ℕ) (now : Time) (task : Task δ) :
    Move → Asset δ
  | .next => s.advance sha256 i now task
  | .transfer n => s.transfer i now n task
  | .fails err => s.become i (task.afterFailure err)

/-- What an action makes of the asset. -/
def perform (sha256 : Bytes → δ) (settings : MediaSettings) (s : Asset δ) :
    Action → Except MediaServiceError (Asset δ)
  | .startSession claimed size quota used now => do
    let kind ← claimed
    checkSize size (settings.kindMax kind)
    s.openSession settings .session size quota used now
  | .upload claimed declared quota used body now => do
    let kind ← claimed
    checkSize declared (min settings.singleRequestMax (settings.kindMax kind))
    let opened ← s.openSession settings .upload declared quota used now
    .ok (opened.spawn (.creating declared body))
  | .append start endInclusive total body now => do
    checkRange start endInclusive total settings.chunkMax
    -- The offset is checked before the body is read, and again when the chunk is committed.
    let media ← MediaRepo.lockSession s.row now
    let _ ← checkChunk media start total
    let part ← writePart body (endInclusive - start + 1)
    .ok (s.spawn (.appending start total part))
  | .complete now => s.complete now
  | .work i now move =>
    match s.tasks[i]? with
    | none => .error .notFound
    | some task => .ok (s.work sha256 i now task move)
  | .drop i => .ok (s.become i .done)
  | .takeGarbage now staleBefore =>
    match s.row with
    | none => .error .notFound
    | some media =>
      if MediaRepo.isGarbage media now staleBefore then
        .ok ({ s with row := none }.spawn .collected)
      else .error .inUse
  | .delete =>
    match s.row with
    | none => .error .notFound
    | some _ => .ok ({ s with row := none }.spawn .collected)
  | .find => if s.file.link.isSome then .ok (s.spawn .listed) else .error .notFound

/-- One step of the asset. -/
def Step (sha256 : Bytes → δ) (settings : MediaSettings) (s : Asset δ) (a : Action)
    (t : Asset δ) : Prop :=
  s.perform sha256 settings a = .ok t

end Asset

end Postit.Uploads

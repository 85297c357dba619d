import Mathlib.Tactic.SplitIfs
import Postit.Core.Delivery
import Postit.Framework.Results

/-!
# Media rows

The row of one media asset and the statements on it.  A statement that finds no row answers
`notFound`, and one that finds it in the wrong status answers `notPending`
(`media_not_pending`).  Of the row only what the upload, its completion and the collection read
is kept.
-/

namespace Postit.Uploads

open Postit.Framework

/-- Where an asset is between its first byte and its last check. -/
inductive MediaStatus
  | uploading
  | processing
  | ready
  | failed
  deriving DecidableEq, Repr

/-- Why a media operation failed.  A database failure is `data`, and a file-system one `io`. -/
inductive MediaServiceError
  | notFound
  | unsupportedMediaType
  | payloadTooLarge (max : ℕ)
  | storageQuotaExceeded (quota used : ℕ)
  | uploadOffsetMismatch (offset : ℕ)
  | notPending
  | inUse
  | invalid (field : String)
  | bodyUnreadable
  | bodyTimedOut
  | data
  | io
  deriving DecidableEq, Repr

/-- Whether the error refuses the file itself, so keeping its bytes is pointless. -/
def MediaServiceError.refusesContent : MediaServiceError → Bool
  | .unsupportedMediaType | .payloadTooLarge _ | .invalid _ => true
  | _ => false

/-- A stored asset.  `δ` is the type of digests. -/
structure Media (δ : Type) where
  status : MediaStatus
  bytes : ℕ
  sha256 : Option δ
  declaredBytes : Option ℕ
  uploadOffset : Option ℕ
  uploadExpiresAt : Option Time
  updatedAt : Time
  deriving DecidableEq, Repr

/-- What was learned about a stored file. -/
structure ReadyMedia (δ : Type) where
  bytes : ℕ
  sha256 : δ
  deriving DecidableEq, Repr

/-- The largest 64-bit integer, where sums of sizes stop. -/
def maxBigint : ℕ := 2 ^ 63 - 1

/-- A length as a database integer. -/
def toI64 (value : ℕ) : Except MediaServiceError ℕ :=
  if value ≤ maxBigint then .ok value else .error (.invalid "size")

lemma toI64_ok {n k : ℕ} (h : toI64 n = .ok k) : k = n := by
  unfold toI64 at h
  split_ifs at h
  · exact (Except.ok.inj h).symm

namespace MediaRepo

variable {δ : Type}

/-- Records an open session of `declared` bytes, unless it passes the owner's quota (`0` is
unlimited). -/
def reserve (declared quota used : ℕ) (expires now : Time) : Except MediaServiceError (Media δ) :=
  if 0 < quota ∧ quota < min (used + declared) maxBigint then
    .error (.storageQuotaExceeded quota used)
  else
    .ok
      { status := .uploading
        bytes := 0
        sha256 := none
        declaredBytes := some declared
        uploadOffset := some 0
        uploadExpiresAt := some expires
        updatedAt := now }

/-- Whether a row is an open, unexpired upload. -/
def isOpen (m : Media δ) (now : Time) : Bool :=
  m.status == .uploading && m.uploadExpiresAt.any (now < ·)

/-- The open, unexpired session. -/
def lockSession (row : Option (Media δ)) (now : Time) : Except MediaServiceError (Media δ) :=
  match row with
  | none => .error .notFound
  | some m => if isOpen m now then .ok m else .error .notFound

/-- Changes the row while it is in one of the statuses, and refuses otherwise. -/
def update (row : Option (Media δ)) (pending : List MediaStatus) (refusal : MediaServiceError)
    (change : Media δ → Media δ) : Except MediaServiceError (Media δ) :=
  match row with
  | none => .error .notFound
  | some m => if m.status ∈ pending then .ok (change m) else .error refusal

/-- Records how many bytes of an open upload are stored. -/
def setOffset (row : Option (Media δ)) (offset : ℕ) (now : Time) :
    Except MediaServiceError (Media δ) :=
  update row [.uploading] .notFound fun m =>
    { m with uploadOffset := some offset, bytes := offset, updatedAt := now }

/-- Moves an open upload to `processing` and counts its declared size as stored. -/
def setProcessing (row : Option (Media δ)) (now : Time) : Except MediaServiceError (Media δ) :=
  update row [.uploading] .notPending fun m =>
    { m with status := .processing, bytes := m.declaredBytes.getD m.bytes, updatedAt := now }

/-- Moves a `processing` upload back to an open one. -/
def reopen (row : Option (Media δ)) (now : Time) : Except MediaServiceError (Media δ) :=
  update row [.processing] .notPending fun m => { m with status := .uploading, updatedAt := now }

/-- Marks an asset that is not ready as failed. -/
def setFailed (row : Option (Media δ)) (now : Time) : Except MediaServiceError (Media δ) :=
  update row [.uploading, .processing, .failed] .notPending fun m =>
    { m with status := .failed, updatedAt := now }

/-- Marks an asset ready, records what was learned about its file and closes the session. -/
def setReady (row : Option (Media δ)) (ready : ReadyMedia δ) (now : Time) :
    Except MediaServiceError (Media δ) :=
  update row [.uploading, .processing] .notPending fun m =>
    { m with
      status := .ready
      bytes := ready.bytes
      sha256 := some ready.sha256
      uploadExpiresAt := none
      uploadOffset := none
      updatedAt := now }

/-- Whether the collector takes a row: nobody will finish or use it. -/
def isGarbage (m : Media δ) (now staleBefore : Time) : Bool :=
  match m.status with
  | .failed => true
  | .uploading => m.uploadExpiresAt.any (· < now)
  | .processing => m.updatedAt < staleBefore
  | .ready => false

variable {row : Option (Media δ)} {m m' : Media δ} {now : Time}

lemma lockSession_ok (h : lockSession row now = .ok m) : row = some m ∧ m.status = .uploading := by
  unfold lockSession at h
  cases row with
  | none => cases h
  | some m₀ =>
    dsimp only at h
    split_ifs at h with hopen
    · cases h
      have hstatus : m.status = .uploading := by
        simp only [isOpen, Bool.and_eq_true, beq_iff_eq] at hopen
        exact hopen.1
      exact ⟨rfl, hstatus⟩

lemma update_ok {pending : List MediaStatus} {refusal : MediaServiceError}
    {change : Media δ → Media δ} (h : update row pending refusal change = .ok m') :
    ∃ m, row = some m ∧ m.status ∈ pending ∧ m' = change m := by
  unfold update at h
  cases row with
  | none => cases h
  | some m =>
    dsimp only at h
    split_ifs at h with hstatus
    · exact ⟨m, rfl, hstatus, (Except.ok.inj h).symm⟩

end MediaRepo

end Postit.Uploads

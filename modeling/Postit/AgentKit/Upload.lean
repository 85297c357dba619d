import Postit.Core.Agent
import Postit.Framework.Bytes

/-!
# The chunked upload driver

A stream of bytes is cut anew into chunks of one size, from some byte on.  One chunk waits in
look-ahead, so that the last one can be marked.  The sender and the request to cancel are outside:
both are told by the number of chunks handed over before.
-/

namespace Postit.AgentKit

open Postit.Framework

/-- One piece of an upload. -/
structure Chunk where
  /-- Where the piece starts in the whole source. -/
  offset : ℕ
  bytes : Bytes
  /-- Whether this is the final piece. -/
  last : Bool
  deriving DecidableEq, Repr

/-- Why an upload fails. -/
inductive UploadError
  /-- A violation of an agent's rule, by its key and English text. -/
  | invalid (key : String) (en : String)
  /-- The stream failed; the text is redacted. -/
  | transport (message : String)
  | cancelled
  | sender (error : AgentError)
  deriving DecidableEq, Repr

/-- An upload's steps, which leave the chunks handed to the sender. -/
abbrev Sending := EStateM UploadError (List Chunk)

/-- The bytes read so far and what has become of them. -/
structure Upload where
  total : ℕ := 0
  buf : Bytes := []
  nextOffset : ℕ
  /-- The chunk in look-ahead. -/
  pending : Option (ℕ × Bytes) := none
  deriving DecidableEq, Repr

section Driver

variable (cancelRequested : ℕ → Bool) (send : ℕ → Chunk → Except AgentError Unit)

/-- Hands a chunk to the sender, unless a cancel was requested. -/
def emit (offset : ℕ) (bytes : Bytes) (last : Bool) : Sending Unit := fun sent =>
  if cancelRequested sent.length then .error .cancelled sent
  else
    let chunk : Chunk := { offset, bytes, last }
    match send sent.length chunk with
    | .ok () => .ok () (sent ++ [chunk])
    | .error error => .error (.sender error) (sent ++ [chunk])

/-- Hands over the chunk in look-ahead, if there is one. -/
def emitPending (pending : Option (ℕ × Bytes)) (last : Bool) : Sending Unit :=
  match pending with
  | some (offset, bytes) => emit cancelRequested send offset bytes last
  | none => pure ()

variable {chunkSize : ℕ} (resumeFrom : ℕ)

/-- Cuts the full chunks off the buffer. -/
def cut (hsize : 0 < chunkSize) (upload : Upload) : Sending Upload :=
  if chunkSize ≤ upload.buf.length then do
    emitPending cancelRequested send upload.pending false
    cut hsize
      { upload with
        buf := upload.buf.drop chunkSize
        nextOffset := upload.nextOffset + chunkSize
        pending := some (upload.nextOffset, upload.buf.take chunkSize) }
  else pure upload
termination_by upload.buf.length
decreasing_by
  simp only [List.length_drop]
  omega

/-- Takes in a piece of the stream, less what stands before `resumeFrom`. -/
def feed (hsize : 0 < chunkSize) (upload : Upload) (piece : Bytes) : Sending Upload :=
  let total := upload.total + piece.length
  if total ≤ resumeFrom then pure { upload with total }
  else
    let piece :=
      if upload.total < resumeFrom then piece.drop (resumeFrom - upload.total) else piece
    cut cancelRequested send hsize { upload with total, buf := upload.buf ++ piece }

/-- Takes in the stream, whose items are pieces, or the text of its failure. -/
def feedAll (hsize : 0 < chunkSize) (upload : Upload) :
    List (Except String Bytes) → Sending Upload
  | [] => pure upload
  | .error message :: _ => throw (.transport message)
  | .ok piece :: stream => do
    let upload ← feed cancelRequested send resumeFrom hsize upload piece
    feedAll hsize upload stream

/-- Cuts the rest off the buffer as the final chunk, and gives the chunk to send last. -/
def flush (upload : Upload) : Sending (Option (ℕ × Bytes)) :=
  if upload.buf.isEmpty then pure upload.pending
  else do
    emitPending cancelRequested send upload.pending false
    pure (some (upload.nextOffset, upload.buf))

/-- What follows the end of the stream. -/
def finish (upload : Upload) : Sending ℕ :=
  if upload.total = 0 then throw (.invalid "agent_kit.media_empty" "The media file is empty.")
  else if upload.total ≤ resumeFrom then
    throw (.invalid "agent_kit.resume_offset_beyond_end"
      "The upload cannot resume past the end of the file.")
  else do
    let pending ← flush cancelRequested send upload
    emitPending cancelRequested send pending true
    pure upload.total

/-- Feeds `stream` to `send` in chunks of `chunkSize`, starting at byte `resumeFrom`.  Returns the
total source length. -/
def uploadChunks (stream : List (Except String Bytes)) (chunkSize resumeFrom : ℕ) : Sending ℕ :=
  if h : chunkSize = 0 then
    throw (.invalid "agent_kit.invalid_chunk_size" "The upload chunk size must be above zero.")
  else do
    let upload ← feedAll cancelRequested send resumeFrom (Nat.pos_of_ne_zero h)
      { nextOffset := resumeFrom } stream
    finish cancelRequested send resumeFrom upload

end Driver

end Postit.AgentKit

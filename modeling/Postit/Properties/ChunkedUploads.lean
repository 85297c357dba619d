import Postit.AgentKit.Upload
import Postit.Framework.Chunks
import Postit.Framework.Savepoints

/-!
# A chunked upload sends the rest of its source

The chunks of a source are told from the source alone (`chunks`).  An upload hands over a beginning
of them, whatever the pieces of the stream are, and all of them when nothing fails.  `Filling` is
what holds after every piece: how much has been cut, what waits, and what has been handed over.
-/

namespace Postit.AgentKit

open Postit.Framework

/-! ## The chunks of a source -/

section Chunks

variable (chunkSize resumeFrom : ℕ) (source : Bytes)

/-- The chunk of this number. -/
def chunkAt (i : ℕ) : Chunk where
  offset := resumeFrom + i * chunkSize
  bytes := piece chunkSize (source.drop resumeFrom) i
  last := i + 1 = pieceCount chunkSize (source.drop resumeFrom)

/-- The chunks from `resumeFrom` on. -/
def chunks : List Chunk :=
  (List.range (pieceCount chunkSize (source.drop resumeFrom))).map
    (chunkAt chunkSize resumeFrom source)

variable {chunkSize resumeFrom source} {n : ℕ}

lemma take_chunks (h : n ≤ pieceCount chunkSize (source.drop resumeFrom)) :
    (chunks chunkSize resumeFrom source).take n =
      (List.range n).map (chunkAt chunkSize resumeFrom source) := by
  rw [chunks, ← List.map_take, List.take_range, Nat.min_eq_left h]

lemma take_chunks_succ (h : n < pieceCount chunkSize (source.drop resumeFrom)) :
    (chunks chunkSize resumeFrom source).take (n + 1) =
      (chunks chunkSize resumeFrom source).take n ++
        [chunkAt chunkSize resumeFrom source n] := by
  rw [take_chunks h, take_chunks (Nat.le_of_lt h), List.range_succ, List.map_append]
  rfl

lemma take_chunks_all (h : pieceCount chunkSize (source.drop resumeFrom) ≤ n) :
    (chunks chunkSize resumeFrom source).take n = chunks chunkSize resumeFrom source := by
  rw [List.take_of_length_le]
  simpa [chunks] using h

end Chunks

/-! ## What an upload keeps -/

section Uploads

variable {cancelRequested : ℕ → Bool} {send : ℕ → Chunk → Except AgentError Unit}
  {chunkSize resumeFrom : ℕ} {hsize : 0 < chunkSize} {source : Bytes}

/-- What was handed over is a beginning of the source's chunks. -/
def Begun (chunkSize resumeFrom : ℕ) (source : Bytes) (sent : List Chunk) : Prop :=
  ∃ n ≤ pieceCount chunkSize (source.drop resumeFrom),
    sent = (chunks chunkSize resumeFrom source).take n

/-- A cancel is requested, or the sender fails. -/
def Disturbed (cancelRequested : ℕ → Bool) (send : ℕ → Chunk → Except AgentError Unit) : Prop :=
  (∃ i, cancelRequested i = true) ∨ ∃ i chunk error, send i chunk = .error error

/-- How an upload may fail amid the source. -/
def FailsBy (cancelRequested : ℕ → Bool) (send : ℕ → Chunk → Except AgentError Unit)
    (chunkSize resumeFrom : ℕ) (source : Bytes) (broken : Prop) (_ : UploadError)
    (sent : List Chunk) : Prop :=
  (Disturbed cancelRequested send ∨ broken) ∧ Begun chunkSize resumeFrom source sent

/-- The chunk in look-ahead when so many have been cut. -/
def pendingAt (chunkSize resumeFrom : ℕ) (source : Bytes) : ℕ → Option (ℕ × Bytes)
  | 0 => none
  | n + 1 => some (resumeFrom + n * chunkSize, piece chunkSize (source.drop resumeFrom) n)

/-- The state of an upload that has read `seen` of its source and cut `n` chunks. -/
structure Filling (chunkSize resumeFrom : ℕ) (source seen : Bytes) (n : ℕ) (upload : Upload)
    (sent : List Chunk) : Prop where
  seen_prefix : seen <+: source
  total : upload.total = seen.length
  enough : n * chunkSize ≤ (seen.drop resumeFrom).length
  buf : upload.buf = (seen.drop resumeFrom).drop (n * chunkSize)
  nextOffset : upload.nextOffset = resumeFrom + n * chunkSize
  pending : upload.pending = pendingAt chunkSize resumeFrom source n
  sent : sent = (chunks chunkSize resumeFrom source).take (n - 1)

variable {broken : Prop} {sent : List Chunk} {n : ℕ}

/-- The chunk in look-ahead is handed over with the mark it should have. -/
lemma emitPending_spec (hn : n ≤ pieceCount chunkSize (source.drop resumeFrom))
    {last : Bool} (hlast : last = decide (n = pieceCount chunkSize (source.drop resumeFrom)))
    (hsent : sent = (chunks chunkSize resumeFrom source).take (n - 1)) :
    Ends (emitPending cancelRequested send (pendingAt chunkSize resumeFrom source n) last sent)
      (fun _ sent' => sent' = (chunks chunkSize resumeFrom source).take n)
      (FailsBy cancelRequested send chunkSize resumeFrom source broken) := by
  cases n with
  | zero => exact hsent
  | succ n =>
    rw [Nat.add_sub_cancel] at hsent
    have hchunk : (⟨resumeFrom + n * chunkSize, piece chunkSize (source.drop resumeFrom) n, last⟩ :
        Chunk) = chunkAt chunkSize resumeFrom source n := by
      rw [hlast, chunkAt]
    have hnext : sent ++ [chunkAt chunkSize resumeFrom source n] =
        (chunks chunkSize resumeFrom source).take (n + 1) := by
      rw [hsent, take_chunks_succ hn]
    simp only [emitPending, pendingAt, emit, hchunk]
    by_cases hcancel : cancelRequested sent.length = true
    · rw [if_pos hcancel]
      exact ⟨.inl (.inl ⟨_, hcancel⟩), n, by omega, hsent⟩
    · rw [if_neg hcancel]
      cases hsend : send sent.length (chunkAt chunkSize resumeFrom source n) with
      | ok => exact hnext
      | error error => exact ⟨.inl (.inr ⟨_, _, _, hsend⟩), n + 1, hn, hnext⟩

/-- What was read of the source settles its pieces. -/
lemma piece_of_prefix {seen : Bytes} (hseen : seen <+: source) {i : ℕ}
    (h : (i + 1) * chunkSize ≤ (seen.drop resumeFrom).length) :
    piece chunkSize (source.drop resumeFrom) i = piece chunkSize (seen.drop resumeFrom) i := by
  obtain ⟨rest, rfl⟩ := hseen
  rw [List.drop_append, piece_append h]

/-- What was read of the source bounds the number of its pieces. -/
lemma lt_pieceCount_of_seen {seen : Bytes} (hseen : seen <+: source) (hpos : 0 < chunkSize)
    {i : ℕ} (h : i * chunkSize < (seen.drop resumeFrom).length) :
    i < pieceCount chunkSize (source.drop resumeFrom) := by
  have hle := hseen.length_le
  rw [lt_pieceCount_iff hpos]
  rw [List.length_drop] at h ⊢
  omega

/-- Cutting one chunk. -/
lemma Filling.cut_one {seen : Bytes} {upload : Upload} (hpos : 0 < chunkSize)
    (h : Filling chunkSize resumeFrom source seen n upload sent)
    (hfull : chunkSize ≤ upload.buf.length) :
    n < pieceCount chunkSize (source.drop resumeFrom) ∧
      Filling chunkSize resumeFrom source seen (n + 1)
        { upload with
          buf := upload.buf.drop chunkSize
          nextOffset := upload.nextOffset + chunkSize
          pending := some (upload.nextOffset, upload.buf.take chunkSize) }
        ((chunks chunkSize resumeFrom source).take n) := by
  have henough : (n + 1) * chunkSize ≤ (seen.drop resumeFrom).length := by
    have := h.enough
    rw [h.buf, List.length_drop] at hfull
    rw [Nat.succ_mul]
    omega
  refine ⟨lt_pieceCount_of_seen h.seen_prefix hpos (by rw [Nat.succ_mul] at henough; omega), ?_⟩
  exact
    { seen_prefix := h.seen_prefix
      total := h.total
      enough := henough
      buf := by simp only [h.buf, List.drop_drop, Nat.succ_mul, Nat.add_assoc]
      nextOffset := by simp only [h.nextOffset, Nat.succ_mul, Nat.add_assoc]
      pending := by
        rw [pendingAt, piece_of_prefix h.seen_prefix henough, h.nextOffset, h.buf]
        rfl
      sent := rfl }

/-- Full chunks are cut until none is left. -/
lemma cut_spec {seen : Bytes} {upload : Upload}
    (h : Filling chunkSize resumeFrom source seen n upload sent) :
    Ends (cut cancelRequested send hsize upload sent)
      (fun upload' sent' => ∃ n', Filling chunkSize resumeFrom source seen n' upload' sent' ∧
        upload'.buf.length < chunkSize)
      (FailsBy cancelRequested send chunkSize resumeFrom source broken) := by
  induction hlength : upload.buf.length using Nat.strong_induction_on
    generalizing upload n sent with
  | _ length ih =>
    rw [cut]
    by_cases hfull : chunkSize ≤ upload.buf.length
    · rw [if_pos hfull, h.pending]
      obtain ⟨hmore, hcut⟩ := h.cut_one hsize hfull
      refine (emitPending_spec (Nat.le_of_lt hmore) (by simp [Nat.ne_of_lt hmore]) h.sent).bind ?_
      rintro _ sent' rfl
      refine ih _ ?_ hcut rfl
      simp only [List.length_drop]
      omega
    · rw [if_neg hfull]
      exact ⟨n, h, Nat.lt_of_not_le hfull⟩

lemma Filling.le_pieceCount {seen : Bytes} {upload : Upload} (hpos : 0 < chunkSize)
    (h : Filling chunkSize resumeFrom source seen n upload sent) :
    n ≤ pieceCount chunkSize (source.drop resumeFrom) := by
  cases n with
  | zero => exact Nat.zero_le _
  | succ n =>
    have henough := h.enough
    rw [Nat.succ_mul] at henough
    exact lt_pieceCount_of_seen h.seen_prefix hpos (by omega)

/-- Before `resumeFrom` nothing is cut. -/
lemma Filling.eq_zero {seen : Bytes} {upload : Upload} (hpos : 0 < chunkSize)
    (h : Filling chunkSize resumeFrom source seen n upload sent)
    (hbefore : seen.length ≤ resumeFrom) : n = 0 ∧ upload.buf = [] := by
  have hnone : seen.drop resumeFrom = [] := List.drop_eq_nil_of_le hbefore
  have henough := h.enough
  have hbuf := h.buf
  rw [hnone, List.length_nil] at henough
  rw [hnone, List.drop_nil] at hbuf
  exact ⟨(Nat.mul_eq_zero.mp (Nat.le_zero.mp henough)).resolve_right (Nat.ne_of_gt hpos), hbuf⟩

/-- A piece of the stream is taken in. -/
lemma feed_spec {seen next : Bytes} {upload : Upload}
    (h : Filling chunkSize resumeFrom source seen n upload sent)
    (hshort : upload.buf.length < chunkSize) (hnext : seen ++ next <+: source) :
    Ends (feed cancelRequested send resumeFrom hsize upload next sent)
      (fun upload' sent' => ∃ n',
        Filling chunkSize resumeFrom source (seen ++ next) n' upload' sent' ∧
          upload'.buf.length < chunkSize)
      (FailsBy cancelRequested send chunkSize resumeFrom source broken) := by
  have htotal : upload.total + next.length = (seen ++ next).length := by
    rw [h.total, List.length_append]
  simp only [feed, htotal]
  by_cases hbefore : (seen ++ next).length ≤ resumeFrom
  · -- nothing of the rest of the source has been read
    rw [if_pos hbefore]
    have hseen : seen.length ≤ resumeFrom := by
      rw [List.length_append] at hbefore
      omega
    obtain ⟨rfl, hbuf⟩ := h.eq_zero hsize hseen
    refine ⟨0, ?_, hshort⟩
    exact
      { seen_prefix := hnext
        total := rfl
        enough := by simp
        buf := by simp [hbuf, List.drop_eq_nil_of_le hbefore]
        nextOffset := h.nextOffset
        pending := h.pending
        sent := h.sent }
  · rw [if_neg hbefore]
    have hskip : (if upload.total < resumeFrom then next.drop (resumeFrom - upload.total)
        else next) = next.drop (resumeFrom - seen.length) := by
      rw [h.total]
      split
      · rfl
      · next hnot => rw [Nat.sub_eq_zero_of_le (Nat.le_of_not_lt hnot), List.drop_zero]
    have henough := h.enough
    have hdrop : (seen ++ next).drop resumeFrom =
        seen.drop resumeFrom ++ next.drop (resumeFrom - seen.length) := List.drop_append
    refine cut_spec (n := n) ?_
    exact
      { seen_prefix := hnext
        total := rfl
        enough := by
          rw [hdrop, List.length_append]
          omega
        buf := by
          rw [hskip, hdrop, List.drop_append_of_le_length henough, h.buf]
        nextOffset := h.nextOffset
        pending := h.pending
        sent := h.sent }

/-- What a stream delivers before it ends or fails. -/
def delivered : List (Except String Bytes) → Bytes
  | [] => []
  | .error _ :: _ => []
  | .ok next :: stream => next ++ delivered stream

/-- Whether a stream fails. -/
def Broken (stream : List (Except String Bytes)) : Prop := ∃ message, .error message ∈ stream

/-- The stream is taken in. -/
lemma feedAll_spec {stream : List (Except String Bytes)} (hbroken : Broken stream → broken)
    {seen : Bytes} {upload : Upload}
    (h : Filling chunkSize resumeFrom source seen n upload sent)
    (hshort : upload.buf.length < chunkSize) (hstream : seen ++ delivered stream <+: source) :
    Ends (feedAll cancelRequested send resumeFrom hsize upload stream sent)
      (fun upload' sent' => ¬ Broken stream ∧ ∃ n',
        Filling chunkSize resumeFrom source (seen ++ delivered stream) n' upload' sent' ∧
          upload'.buf.length < chunkSize)
      (FailsBy cancelRequested send chunkSize resumeFrom source broken) := by
  induction stream generalizing seen upload n sent with
  | nil =>
    rw [delivered, List.append_nil]
    exact ⟨by simp [Broken], n, h, hshort⟩
  | cons item stream ih =>
    cases item with
    | error message =>
      have hbegun : Begun chunkSize resumeFrom source sent :=
        ⟨n - 1, (Nat.sub_le n 1).trans (h.le_pieceCount hsize), h.sent⟩
      exact ⟨.inr (hbroken ⟨message, List.mem_cons_self⟩), hbegun⟩
    | ok next =>
      rw [delivered, ← List.append_assoc] at hstream ⊢
      have hnext : seen ++ next <+: source := (List.prefix_append _ _).trans hstream
      refine (feed_spec h hshort hnext).bind ?_
      rintro upload' sent' ⟨n', h', hshort'⟩
      have hrest : Broken stream → broken := fun ⟨message, hmem⟩ =>
        hbroken ⟨message, List.mem_cons_of_mem _ hmem⟩
      refine (ih hrest h' hshort' hstream).mono ?_ fun _ _ h => h
      rintro upload'' sent'' ⟨hwhole, hfilling⟩
      refine ⟨fun ⟨message, hmem⟩ => hwhole ⟨message, ?_⟩, hfilling⟩
      simpa using hmem

/-- After the stream everything left is handed over, and the last chunk is marked. -/
lemma finish_spec {upload : Upload} (hpos : 0 < chunkSize)
    (h : Filling chunkSize resumeFrom source source n upload sent)
    (hshort : upload.buf.length < chunkSize) (hresume : resumeFrom < source.length) :
    Ends (finish cancelRequested send resumeFrom upload sent)
      (fun total sent' => total = source.length ∧ sent' = chunks chunkSize resumeFrom source)
      (FailsBy cancelRequested send chunkSize resumeFrom source broken) := by
  have htotal := h.total
  have henough := h.enough
  have hrest : upload.buf.length = (source.drop resumeFrom).length - n * chunkSize := by
    rw [h.buf, List.length_drop]
  rw [finish, if_neg (by omega), if_neg (by omega)]
  -- how many chunks there are after the flush, and that the last of them is the final one
  have hflush : Ends (flush cancelRequested send upload sent)
      (fun pending sent' => ∃ n', n' = pieceCount chunkSize (source.drop resumeFrom) ∧
        pending = pendingAt chunkSize resumeFrom source n' ∧
        sent' = (chunks chunkSize resumeFrom source).take (n' - 1))
      (FailsBy cancelRequested send chunkSize resumeFrom source broken) := by
    unfold flush
    by_cases hempty : upload.buf = []
    · rw [if_pos (by simp [hempty])]
      refine ⟨n, ?_, h.pending, h.sent⟩
      rw [hempty, List.length_nil] at hrest
      refine (pieceCount_eq hpos (by omega) fun i hi => ?_).symm
      have := Nat.mul_le_mul_right chunkSize (Nat.succ_le_of_lt hi)
      rw [Nat.succ_mul] at this
      omega
    · have hbuf : 0 < upload.buf.length := List.length_pos_iff.mpr hempty
      have hcount : pieceCount chunkSize (source.drop resumeFrom) = n + 1 := by
        refine pieceCount_eq hpos (by rw [Nat.succ_mul]; omega) fun i hi => ?_
        have := Nat.mul_le_mul_right chunkSize (Nat.le_of_lt_succ hi)
        omega
      rw [if_neg (by simpa using hempty), h.pending]
      refine (emitPending_spec (by omega) (by simp [hcount]) h.sent).bind ?_
      rintro _ sent' rfl
      refine ⟨n + 1, hcount.symm, ?_, rfl⟩
      rw [pendingAt, piece, ← h.buf, h.nextOffset, List.take_of_length_le (Nat.le_of_lt hshort)]
  refine hflush.bind ?_
  rintro pending sent' ⟨n', rfl, rfl, hsent'⟩
  refine (emitPending_spec (Nat.le_refl _) (by simp) hsent').bind ?_
  rintro _ sent'' rfl
  exact ⟨htotal, take_chunks_all (Nat.le_refl _)⟩

/-! ## The chunks are the rest of the source -/

/-- Chunks that are the source from `resumeFrom` on. -/
structure Exact (chunkSize resumeFrom : ℕ) (source : Bytes) (sent : List Chunk) : Prop where
  bytes : (sent.map Chunk.bytes).flatten = source.drop resumeFrom
  start : sent.head?.map Chunk.offset = some resumeFrom
  contiguous : ∀ i c c', sent[i]? = some c → sent[i + 1]? = some c' →
    c'.offset = c.offset + c.bytes.length
  full : ∀ i c, sent[i]? = some c → i + 1 < sent.length → c.bytes.length = chunkSize
  size : ∀ c ∈ sent, c.bytes ≠ [] ∧ c.bytes.length ≤ chunkSize
  last : ∀ i c, sent[i]? = some c → (c.last = true ↔ i + 1 = sent.length)

@[simp] lemma length_chunks : (chunks chunkSize resumeFrom source).length =
    pieceCount chunkSize (source.drop resumeFrom) := by
  simp [chunks]

lemma getElem?_chunks {i : ℕ} {c : Chunk}
    (h : (chunks chunkSize resumeFrom source)[i]? = some c) :
    i < pieceCount chunkSize (source.drop resumeFrom) ∧
      c = chunkAt chunkSize resumeFrom source i := by
  obtain ⟨hlt, rfl⟩ := List.getElem?_eq_some_iff.mp h
  refine ⟨by simpa using hlt, ?_⟩
  simp [chunks]

/-- A chunk that another one follows has the size. -/
lemma length_chunkAt {i : ℕ} (hpos : 0 < chunkSize)
    (h : i + 1 < pieceCount chunkSize (source.drop resumeFrom)) :
    (chunkAt chunkSize resumeFrom source i).bytes.length = chunkSize :=
  length_piece (Nat.le_of_lt ((lt_pieceCount_iff hpos).mp h))

lemma chunks_exact (hpos : 0 < chunkSize) (hresume : resumeFrom < source.length) :
    Exact chunkSize resumeFrom source (chunks chunkSize resumeFrom source) where
  bytes := by
    rw [chunks, List.map_map]
    exact flatten_pieces hpos _
  start := by
    have hsome : 0 < pieceCount chunkSize (source.drop resumeFrom) := by
      rw [lt_pieceCount_iff hpos, List.length_drop]
      omega
    obtain ⟨n, hn⟩ := Nat.exists_eq_add_of_lt hsome
    simp [chunks, hn, List.range_succ_eq_map, chunkAt]
  contiguous i c c' hc hc' := by
    obtain ⟨_, rfl⟩ := getElem?_chunks hc
    obtain ⟨hlt, rfl⟩ := getElem?_chunks hc'
    rw [length_chunkAt hpos hlt]
    simp only [chunkAt, Nat.succ_mul, Nat.add_assoc]
  full i c hc hlt := by
    obtain ⟨_, rfl⟩ := getElem?_chunks hc
    exact length_chunkAt hpos (by simpa using hlt)
  size c hc := by
    obtain ⟨i, hi, rfl⟩ := List.mem_map.mp hc
    exact ⟨piece_ne_nil hpos (List.mem_range.mp hi), length_piece_le⟩
  last i c hc := by
    obtain ⟨_, rfl⟩ := getElem?_chunks hc
    simp [chunkAt]

/-- Of a beginning of the chunks only the whole has one that is marked. -/
lemma Begun.prefix_or_all (h : Begun chunkSize resumeFrom source sent) :
    sent <+: chunks chunkSize resumeFrom source ∧
      ((∃ c ∈ sent, c.last = true) → sent = chunks chunkSize resumeFrom source) := by
  obtain ⟨n, hn, rfl⟩ := h
  refine ⟨List.take_prefix _ _, fun ⟨c, hc, hlast⟩ => take_chunks_all ?_⟩
  rw [take_chunks hn] at hc
  obtain ⟨i, hi, rfl⟩ := List.mem_map.mp hc
  have hcount : i + 1 = pieceCount chunkSize (source.drop resumeFrom) := by
    simpa [chunkAt] using hlast
  have := List.mem_range.mp hi
  omega

/-! ## Uploads -/

/-- A stream carries a source: all of it, unless it fails. -/
def Carries (stream : List (Except String Bytes)) (source : Bytes) : Prop :=
  delivered stream <+: source ∧ (¬ Broken stream → delivered stream = source)

lemma filling_start : Filling chunkSize resumeFrom source [] 0 { nextOffset := resumeFrom } [] where
  seen_prefix := List.nil_prefix
  total := rfl
  enough := by simp
  buf := by simp
  nextOffset := by simp
  pending := rfl
  sent := by simp

/-- The whole stream is taken in, or something fails. -/
lemma read_spec {stream : List (Except String Bytes)} (hpos : 0 < chunkSize)
    (hstream : Carries stream source) :
    Ends (feedAll cancelRequested send resumeFrom hpos { nextOffset := resumeFrom } stream [])
      (fun upload sent => ¬ Broken stream ∧ ∃ n,
        Filling chunkSize resumeFrom source source n upload sent ∧
          upload.buf.length < chunkSize)
      (FailsBy cancelRequested send chunkSize resumeFrom source (Broken stream)) := by
  refine (feedAll_spec id filling_start hpos hstream.1).mono ?_ fun _ _ h => h
  rintro upload sent ⟨hwhole, n, hfilling, hshort⟩
  rw [List.nil_append, hstream.2 hwhole] at hfilling
  exact ⟨hwhole, n, hfilling, hshort⟩

/-- What an upload of a source that is long enough comes to. -/
lemma uploadChunks_spec {stream : List (Except String Bytes)} (hpos : 0 < chunkSize)
    (hstream : Carries stream source) (hresume : resumeFrom < source.length) :
    Ends (uploadChunks cancelRequested send stream chunkSize resumeFrom [])
      (fun total sent => total = source.length ∧ sent = chunks chunkSize resumeFrom source)
      (FailsBy cancelRequested send chunkSize resumeFrom source (Broken stream)) := by
  rw [uploadChunks, dif_neg (Nat.ne_of_gt hpos)]
  refine (read_spec hpos hstream).bind ?_
  rintro upload sent ⟨_, n, hfilling, hshort⟩
  exact finish_spec hpos hfilling hshort hresume

/-- A source that is too short gives an error and nothing is handed over. -/
lemma uploadChunks_short {stream : List (Except String Bytes)} (hpos : 0 < chunkSize)
    (hstream : Carries stream source) (hshort : source.length ≤ resumeFrom) :
    ∃ error, uploadChunks cancelRequested send stream chunkSize resumeFrom [] =
      .error error [] := by
  have hchunks : chunks chunkSize resumeFrom source = [] := by
    rw [← List.length_eq_zero_iff, length_chunks, List.drop_eq_nil_of_le hshort]
    exact pieceCount_eq hpos (Nat.zero_le _) fun i hi => absurd hi (Nat.not_lt_zero i)
  have hends : Ends (uploadChunks cancelRequested send stream chunkSize resumeFrom [])
      (fun _ _ => False) (fun _ sent => sent = []) := by
    rw [uploadChunks, dif_neg (Nat.ne_of_gt hpos)]
    refine ((read_spec hpos hstream).mono (fun _ _ h => h) ?_).bind ?_
    · rintro error sent ⟨_, n, _, rfl⟩
      rw [hchunks, List.take_nil]
    · rintro upload sent ⟨_, n, hfilling, _⟩
      have htotal := hfilling.total
      have hsent := hfilling.sent
      rw [hchunks, List.take_nil] at hsent
      unfold finish
      split_ifs with hempty hlong
      · exact hsent
      · exact hsent
      · exact absurd (htotal.trans_le hshort) hlong
  unfold Ends at hends
  split at hends
  · exact hends.elim
  · next error sent heq =>
    subst hends
    exact ⟨error, heq⟩

/-- An upload hands over the rest of its source, or, when something fails, a beginning of it. -/
theorem upload_exact (hpos : 0 < chunkSize) {stream : List (Except String Bytes)}
    (hstream : Carries stream source) :
    let r := uploadChunks cancelRequested send stream chunkSize resumeFrom []
    (source.length ≤ resumeFrom → ∃ error, r = .error error []) ∧
    (resumeFrom < source.length →
      Exact chunkSize resumeFrom source (chunks chunkSize resumeFrom source) ∧
      (¬ Broken stream → ¬ Disturbed cancelRequested send →
        r = .ok source.length (chunks chunkSize resumeFrom source)) ∧
      ∀ error sent, r = .error error sent →
        sent <+: chunks chunkSize resumeFrom source ∧
          ((∃ c ∈ sent, c.last = true) → sent = chunks chunkSize resumeFrom source)) := by
  intro r
  refine ⟨uploadChunks_short hpos hstream, fun hresume => ?_⟩
  have hends : Ends r _ _ := uploadChunks_spec hpos hstream hresume
  refine ⟨chunks_exact hpos hresume, fun hwhole hquiet => ?_, fun error sent hr => ?_⟩
  · cases hr : r with
    | ok total sent =>
      rw [hr] at hends
      obtain ⟨rfl, rfl⟩ := hends
      rfl
    | error error sent =>
      rw [hr] at hends
      exact absurd hends.1 (not_or.mpr ⟨hquiet, hwhole⟩)
  · rw [hr] at hends
    exact hends.2.prefix_or_all

end Uploads

/-- Five bytes in three pieces, from the second byte on in chunks of two. -/
theorem upload_exact_sample :
    uploadChunks (fun _ => false) (fun _ _ => .ok ()) [.ok [1, 2, 3], .ok [], .ok [4, 5]] 2 1 [] =
        .ok 5 (chunks 2 1 [1, 2, 3, 4, 5]) ∧
      chunks 2 1 [1, 2, 3, 4, 5] = [⟨1, [2, 3], false⟩, ⟨3, [4, 5], true⟩] := by
  have hwhole : ¬ Broken [.ok [1, 2, 3], .ok [], .ok [4, 5]] := by simp [Broken]
  have hcarries : Carries [.ok [1, 2, 3], .ok [], .ok [4, 5]] [1, 2, 3, 4, 5] :=
    ⟨List.prefix_rfl, fun _ => rfl⟩
  have hquiet : ¬ Disturbed (fun _ => false) fun _ _ => .ok () := by simp [Disturbed]
  exact ⟨((upload_exact (by decide) hcarries).2 (by decide)).2.1 hwhole hquiet, by decide⟩

end Postit.AgentKit

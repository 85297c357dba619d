import Postit.Framework.Trace

/-!
# Streams whose items are worked on ahead

`StreamExt::buffered`: up to `n` items are in work at once, they finish in any order, and they come
out in the order of the stream.  Whatever the order of finishing and whatever `n`, what has come out
is a prefix of the stream (`prefix_of_run`), and with `n` positive it never gets stuck (`progress`).
-/

namespace Postit.Framework

/-- A stream amid its work: the items not started, those in work with whether each has finished, and
those that have come out. -/
structure Buffered (α : Type) where
  waiting : List α
  inWork : List (α × Bool) := []
  out : List α := []

namespace Buffered

variable {α : Type}

/-- A stream before anything has started. -/
def ofList (items : List α) : Buffered α := { waiting := items }

/-- One step with room for `n` items in work. -/
inductive Step (n : ℕ) : Buffered α → Unit → Buffered α → Prop
  | start {a waiting inWork out} (h : inWork.length < n) :
    Step n ⟨a :: waiting, inWork, out⟩ () ⟨waiting, inWork ++ [(a, false)], out⟩
  | finish {waiting inWork out i a} (h : inWork[i]? = some (a, false)) :
    Step n ⟨waiting, inWork, out⟩ () ⟨waiting, inWork.set i (a, true), out⟩
  | emit {a waiting inWork out} :
    Step n ⟨waiting, (a, true) :: inWork, out⟩ () ⟨waiting, inWork, out ++ [a]⟩

/-- The items in the order of the stream, wherever they are. -/
def items (b : Buffered α) : List α := b.out ++ b.inWork.map Prod.fst ++ b.waiting

variable {n : ℕ} {b c : Buffered α}

lemma items_of_step (h : Step n b () c) : c.items = b.items := by
  cases h with
  | start h => simp [items]
  | @finish waiting inWork out i a h =>
    have hset : (inWork.set i (a, true)).map Prod.fst = inWork.map Prod.fst := by
      have hi : (inWork.map Prod.fst)[i]? = some a := by simp [h]
      rw [List.map_set]
      refine List.ext_getElem? fun j => ?_
      rw [List.getElem?_set]
      split
      · next hij =>
        subst hij
        obtain ⟨hlt, -⟩ := List.getElem?_eq_some_iff.mp hi
        rw [if_pos hlt, hi]
      · rfl
    simp only [items, hset]
  | emit => simp [items]

lemma items_of_run {l : List α} {events : List Unit} (h : Run (Step n) (ofList l) events b) :
    b.items = l := by
  have hstep : ∀ {b : Buffered α} {event : Unit} {c : Buffered α}, Step n b event c →
      b.items = l → c.items = l := fun h hb => (items_of_step h).trans hb
  exact h.invariant (I := fun b => b.items = l) hstep (by simp [items, ofList])

/-- What has come out is a prefix of the stream. -/
lemma prefix_of_run {l : List α} {events : List Unit} (h : Run (Step n) (ofList l) events b) :
    b.out <+: l := by
  rw [← items_of_run h, items, List.append_assoc]
  exact List.prefix_append _ _

/-- At the end the whole stream has come out. -/
lemma out_of_run {l : List α} {events : List Unit} (h : Run (Step n) (ofList l) events b)
    (hwaiting : b.waiting = []) (hwork : b.inWork = []) : b.out = l := by
  simpa [items, hwaiting, hwork] using items_of_run h

/-- With room for one item at least, a stream that has not ended goes on. -/
lemma progress (hn : 0 < n) (h : b.waiting ≠ [] ∨ b.inWork ≠ []) : ∃ c, Step n b () c := by
  obtain ⟨waiting, inWork, out⟩ := b
  cases inWork with
  | cons item inWork =>
    obtain ⟨a, done⟩ := item
    cases done with
    | true => exact ⟨_, .emit⟩
    | false => exact ⟨_, .finish (i := 0) rfl⟩
  | nil =>
    cases waiting with
    | nil => simp at h
    | cons a waiting => exact ⟨_, .start hn⟩

end Buffered

end Postit.Framework

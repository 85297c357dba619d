import Mathlib.Data.Set.Insert
import Mathlib.Logic.Function.Basic
import Postit.Framework.Program
import Postit.Framework.Trace

/-!
# Tasks on a shared state

Any number of tasks, each a program whose actions read and change a state they share.  What an
action answers, does to the state and leaves on record is a relation (`Acts`), so an action may
fail, and a task may stop anywhere.  Something that is no task may change the state too.

A record is *warranted* by what was recorded before it (`WarrantedFrom`).  That a task records
nothing unwarranted is a weakest precondition over what the task itself has seen (`Task.spec`): the
rest of the history can only add to it, so tasks do not interfere with one another's warrants.
`Crew.warranted` puts the tasks together.
-/

namespace Postit.Framework

universe u v w

/-! ## Warrants -/

section Warrants

variable {α : Type w} (W : Set α → α → Prop)

/-- Each record is warranted by `K` and the ones before it. -/
def WarrantedFrom : Set α → List α → Prop
  | _, [] => True
  | K, a :: as => W K a ∧ WarrantedFrom (insert a K) as

/-- A warrant is not lost by knowing more. -/
def WarrantMono : Prop := ∀ K K' : Set α, ∀ a, K ⊆ K' → W K a → W K' a

variable {W}

lemma WarrantedFrom.mono (hW : WarrantMono W) {K K' : Set α} (hK : K ⊆ K') {as : List α}
    (h : WarrantedFrom W K as) : WarrantedFrom W K' as := by
  induction as generalizing K K' with
  | nil => trivial
  | cons a as ih => exact ⟨hW _ _ _ hK h.1, ih (Set.insert_subset_insert hK) h.2⟩

lemma warrantedFrom_append {K : Set α} {as bs : List α} :
    WarrantedFrom W K (as ++ bs) ↔
      WarrantedFrom W K as ∧ WarrantedFrom W (K ∪ {a | a ∈ as}) bs := by
  induction as generalizing K with
  | nil => simp [WarrantedFrom]
  | cons a as ih =>
    have hset : insert a K ∪ {b | b ∈ as} = K ∪ {b | b ∈ a :: as} := by
      ext b
      simp only [Set.mem_union, Set.mem_insert_iff, Set.mem_ofPred_eq, List.mem_cons]
      tauto
    simp only [List.cons_append, WarrantedFrom, ih, hset, and_assoc]

lemma warrantedFrom_singleton {K : Set α} {a : α} : WarrantedFrom W K [a] ↔ W K a := by
  simp [WarrantedFrom]

/-- Each record of a warranted history is warranted by those before it. -/
lemma WarrantedFrom.of_split {as bs : List α} {a : α} (h : WarrantedFrom W ∅ (as ++ a :: bs)) :
    W {b | b ∈ as} a := by
  have hrest := (warrantedFrom_append.1 h).2
  rw [Set.empty_union] at hrest
  exact hrest.1

end Warrants

/-! ## Tasks -/

/-- Who did something: a task, by its number, or something that is no task. -/
abbrev Actor := Option ℕ

/-- What an action may answer, the state it may leave, and what is recorded. -/
abbrev Acts (E : Type → Type u) (σ : Type v) (ω : Type w) :=
  ∀ {β : Type}, σ → E β → β → σ → List ω → Prop

/-- The shared state and the tasks that are running.  No number is given twice. -/
structure Crew (E : Type → Type u) (ε : Type) (σ : Type v) where
  shared : σ
  tasks : ℕ → Option (Prog E ε Unit) := fun _ => none
  next : ℕ := 0

variable {E : Type → Type u} {ε : Type} {σ : Type v} {ω : Type w} {α : Type}

/-- One step, with what it leaves on record: a task starts, acts, or stops (it is through, it gave
up, or it died), or something else changes the state. -/
inductive CrewStep (acts : Acts E σ ω) (Start : Prog E ε Unit → Prop)
    (Env : σ → σ → List ω → Prop) (w : Crew E ε σ) : List (Actor × ω) → Crew E ε σ → Prop
  | started {p : Prog E ε Unit} (hp : Start p) :
      CrewStep acts Start Env w []
        { w with tasks := Function.update w.tasks w.next (some p), next := w.next + 1 }
  | acted {i : ℕ} {β : Type} {e : E β} {k : β → Prog E ε Unit} {b : β} {s : σ} {obs : List ω}
      (hi : w.tasks i = some (.act e k)) (h : acts w.shared e b s obs) :
      CrewStep acts Start Env w (obs.map (some i, ·))
        { w with shared := s, tasks := Function.update w.tasks i (some (k b)) }
  | stopped {i : ℕ} :
      CrewStep acts Start Env w [] { w with tasks := Function.update w.tasks i none }
  | elsewhere {s : σ} {obs : List ω} (h : Env w.shared s obs) :
      CrewStep acts Start Env w (obs.map (none, ·)) { w with shared := s }

section Careful

variable (acts : Acts E σ ω) (W : Set (Actor × ω) → Actor × ω → Prop) (i : ℕ)

/-- What must be known before an action of task `i`: that whatever it does, what it records is
warranted. -/
def Task.spec : Prog.Spec E (Set (Actor × ω)) := fun e Q K =>
  ∀ s b s' obs, acts s e b s' obs →
    WarrantedFrom W K (obs.map (some i, ·)) ∧ Q b (K ∪ {x | x ∈ obs.map (some i, ·)})

lemma Task.spec_mono : Prog.Spec.Mono (Task.spec acts W i) :=
  fun _ _ _ hQ _ h s b s' obs hacts => ⟨(h s b s' obs hacts).1, hQ _ _ (h s b s' obs hacts).2⟩

/-- The program, as task `i`, records nothing unwarranted, and where it ends `Q` is known. -/
def Careful (p : Prog E ε α) (Q : α → Set (Actor × ω) → Prop) (K : Set (Actor × ω)) : Prop :=
  p.wp (Task.spec acts W i) (fun _ _ => True) Q K

variable {acts W i} {β : Type} {K : Set (Actor × ω)}

lemma Careful.mono {p : Prog E ε α} {Q Q' : α → Set (Actor × ω) → Prop}
    (h : Careful acts W i p Q K) (hQ : ∀ a K, Q a K → Q' a K) : Careful acts W i p Q' K :=
  Prog.wp_mono (Task.spec_mono acts W i) p hQ K h

lemma Careful.done {Q : α → Set (Actor × ω) → Prop} {a : α} (h : Q a K) :
    Careful acts W i (Prog.done a : Prog E ε α) Q K := h

lemma Careful.fail {Q : α → Set (Actor × ω) → Prop} (e : ε) :
    Careful acts W i (Prog.fail e : Prog E ε α) Q K := trivial

lemma Careful.bind {p : Prog E ε α} {f : α → Prog E ε β} {Q : α → Set (Actor × ω) → Prop}
    {Q' : β → Set (Actor × ω) → Prop} (hp : Careful acts W i p Q K)
    (hf : ∀ a K, Q a K → Careful acts W i (f a) Q' K) : Careful acts W i (p >>= f) Q' K := by
  unfold Careful
  rw [Prog.wp_bind]
  exact hp.mono hf

lemma Careful.ite {c : Prop} [Decidable c] {p q : Prog E ε α} {Q : α → Set (Actor × ω) → Prop}
    (hp : c → Careful acts W i p Q K) (hq : ¬ c → Careful acts W i q Q K) :
    Careful acts W i (if c then p else q) Q K := by
  split
  · exact hp ‹c›
  · exact hq ‹¬ c›

/-- An action that records nothing, and is followed by nothing that depends on what it did. -/
lemma Careful.silent {e : E β} {Q : β → Set (Actor × ω) → Prop}
    (hobs : ∀ s b s' obs, acts s e b s' obs → obs = []) (h : ∀ b, Q b K) :
    Careful acts W i (Prog.perform e : Prog E ε β) Q K := by
  intro s b s' obs hacts
  obtain rfl := hobs s b s' obs hacts
  refine ⟨trivial, ?_⟩
  simpa using h b

end Careful

/-! ## All of them together -/

section Together

variable {acts : Acts E σ ω} {W : Set (Actor × ω) → Actor × ω → Prop}
  {Start : Prog E ε Unit → Prop} {Env : σ → σ → List ω → Prop}

/-- **Every run.**  When every program that may start is careful, and what happens elsewhere is
warranted by itself, the whole history is warranted. -/
theorem Crew.warranted (hW : WarrantMono W)
    (hstart : ∀ p, Start p → ∀ i, Careful acts W i p (fun _ _ => True) ∅)
    (henv : ∀ s s' obs, Env s s' obs → WarrantedFrom W ∅ (obs.map (none, ·)))
    {w₀ w : Crew E ε σ} {hist : List (List (Actor × ω))}
    (hrun : Run (CrewStep acts Start Env) w₀ hist w) (hidle : ∀ i, w₀.tasks i = none) :
    WarrantedFrom W ∅ hist.flatten := by
  -- Each task knows some of the history, and goes on carefully from there.
  have hinv : WarrantedFrom W ∅ hist.flatten ∧ ∀ i p, w.tasks i = some p →
      ∃ K ⊆ {x | x ∈ hist.flatten}, Careful acts W i p (fun _ _ => True) K := by
    induction hrun with
    | nil =>
      refine ⟨trivial, fun i p hp => ?_⟩
      rw [hidle i] at hp
      cases hp
    | @snoc hist u w' obs run step ih =>
      obtain ⟨hhist, htasks⟩ := ih
      rw [List.flatten_append, List.flatten_singleton, warrantedFrom_append, Set.empty_union]
      have hgrow {K : Set (Actor × ω)} {l : List (Actor × ω)} (hK : K ⊆ {x | x ∈ hist.flatten}) :
          K ⊆ {x | x ∈ hist.flatten ++ l} := fun x hx => List.mem_append_left _ (hK hx)
      cases step with
      | @started p hp =>
        refine ⟨⟨hhist, trivial⟩, fun i q hq => ?_⟩
        by_cases hi : i = u.next
        · subst hi
          dsimp only at hq
          rw [Function.update_self] at hq
          obtain rfl := Option.some.inj hq
          exact ⟨∅, Set.empty_subset _, hstart _ hp _⟩
        · dsimp only at hq
          rw [Function.update_of_ne hi] at hq
          obtain ⟨K, hK, hcareful⟩ := htasks i q hq
          exact ⟨K, hgrow hK, hcareful⟩
      | @acted i β e k b s obs hi h =>
        obtain ⟨K, hK, hcareful⟩ := htasks i _ hi
        obtain ⟨hobs, hrest⟩ := hcareful u.shared b s obs h
        refine ⟨⟨hhist, hobs.mono hW hK⟩, fun j q hq => ?_⟩
        by_cases hj : j = i
        · subst hj
          dsimp only at hq
          rw [Function.update_self] at hq
          obtain rfl := Option.some.inj hq
          refine ⟨_, ?_, hrest⟩
          exact Set.union_subset (hgrow hK) fun x hx => List.mem_append_right _ hx
        · dsimp only at hq
          rw [Function.update_of_ne hj] at hq
          obtain ⟨K', hK', hcareful'⟩ := htasks j q hq
          exact ⟨K', hgrow hK', hcareful'⟩
      | @stopped i =>
        refine ⟨⟨hhist, trivial⟩, fun j q hq => ?_⟩
        by_cases hj : j = i
        · subst hj
          dsimp only at hq
          rw [Function.update_self] at hq
          cases hq
        · dsimp only at hq
          rw [Function.update_of_ne hj] at hq
          obtain ⟨K, hK, hcareful⟩ := htasks j q hq
          exact ⟨K, hgrow hK, hcareful⟩
      | @elsewhere s obs h =>
        refine ⟨⟨hhist, (henv _ _ _ h).mono hW (Set.empty_subset _)⟩, fun j q hq => ?_⟩
        obtain ⟨K, hK, hcareful⟩ := htasks j q hq
        exact ⟨K, hgrow hK, hcareful⟩
  exact hinv.1

end Together

end Postit.Framework

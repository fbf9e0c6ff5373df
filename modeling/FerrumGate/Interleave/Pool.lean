import FerrumGate.Interleave.Prog
import Mathlib.Data.List.Induction
import Mathlib.Data.List.TakeWhile

/-!
# Interleaved runs of any number of programs

A pool holds one program per process number and the world they share. A schedule names, step by
step, the process that performs its next operation and the input the environment supplies to it;
an operation is atomic, everything between two operations of a process is interleaved freely, and
a process that is never scheduled again has crashed.

`Config.run_behaviour` is the reduction the safety proofs rest on: when every program of the pool
obeys a conduct of its own, each run is a `Behaviour`, a sequence of operations in which every
single one was allowed by the transcript of the process that performed it. Invariants are then
inductions over behaviours, and no program text occurs in them.
-/

namespace Interleave

variable {Op : Type} {Res : Op → Type} {σ ι α : Type}

/-- Who performed which operation, with which reply; newest first. -/
abbrev Log (Op : Type) (Res : Op → Type) := List (Nat × Reply Op Res)

/-- The part of the log that process `p` performed: its transcript. -/
def own (p : Nat) (log : Log Op Res) : Transcript Op Res :=
  log.filterMap fun e => if e.1 = p then some e.2 else none

@[simp] theorem own_nil (p : Nat) : own p ([] : Log Op Res) = [] := rfl

@[simp] theorem own_cons_self (p : Nat) (x : Reply Op Res) (log : Log Op Res) :
    own p ((p, x) :: log) = x :: own p log := by
  simp [own]

variable {p : Nat}

theorem own_cons_ne {q : Nat} (h : q ≠ p) (x : Reply Op Res) (log : Log Op Res) :
    own p ((q, x) :: log) = own p log := by
  simp [own, h]

theorem own_append (p : Nat) (log log' : Log Op Res) : own p (log ++ log') = own p log ++ own p log' :=
  List.filterMap_append

variable {x : Reply Op Res} {log : Log Op Res}

theorem mem_own : x ∈ own p log ↔ (p, x) ∈ log := by
  simp only [own, List.mem_filterMap, Prod.exists]
  constructor
  · rintro ⟨q, y, hy, h⟩
    split at h
    · rename_i hq
      cases h
      exact hq ▸ hy
    · cases h
  · exact fun h => ⟨p, x, h, by simp⟩

theorem own_subset {log' : Log Op Res} (h : log ⊆ log') : own p log ⊆ own p log' :=
  fun _ hx => mem_own.mpr (h (mem_own.mp hx))

/-- What has happened since process `q` performed its first operation, oldest first. -/
def since (q : Nat) (log : Log Op Res) : Log Op Res := log.reverse.dropWhile fun e => e.1 ≠ q

theorem since_cons {q : Nat} (h : (q, x) ∈ log) (e : Nat × Reply Op Res) :
    since q (e :: log) = since q log ++ [e] := by
  have hne : ((log.reverse.dropWhile fun e => e.1 ≠ q).isEmpty) = false := by
    rw [List.isEmpty_eq_false_iff, Ne, List.dropWhile_eq_nil_iff]
    intro hall
    simpa using hall (q, x) (List.mem_reverse.mpr h)
  unfold since
  rw [List.reverse_cons, List.dropWhile_append, hne]
  rfl

/-- The pool: the world, what is left of each program, and what has happened. -/
structure Config (Op : Type) (Res : Op → Type) (σ α : Type) where
  world : σ
  procs : Nat → Prog Op Res α
  log : Log Op Res

/-- The pool before anything has happened. -/
def Config.start (w : σ) (procs : Nat → Prog Op Res α) : Config Op Res σ α :=
  { world := w, procs := procs, log := [] }

variable (exec : (o : Op) → ι → σ → Res o × σ)

/-- Process `p` performs its next operation with input `i`; a finished process does nothing. -/
def Config.step (c : Config Op Res σ α) (p : Nat) (i : ι) : Config Op Res σ α :=
  match c.procs p with
  | .pure _ => c
  | .perform o k =>
    { world := (exec o i c.world).2
      procs := fun q => if q = p then k (exec o i c.world).1 else c.procs q
      log := (p, ⟨o, (exec o i c.world).1⟩) :: c.log }

/-- The run of a schedule. -/
def Config.run (c : Config Op Res σ α) : List (Nat × ι) → Config Op Res σ α
  | [] => c
  | (p, i) :: rest => (c.step exec p i).run rest

theorem Config.run_append (c : Config Op Res σ α) (s₁ s₂ : List (Nat × ι)) :
    c.run exec (s₁ ++ s₂) = (c.run exec s₁).run exec s₂ := by
  induction s₁ generalizing c with
  | nil => rfl
  | cons x s₁ ih => exact ih _

theorem Config.run_concat (c : Config Op Res σ α) (s : List (Nat × ι)) (p : Nat) (i : ι) :
    c.run exec (s ++ [(p, i)]) = (c.run exec s).step exec p i := by
  rw [Config.run_append]
  rfl

/-- Every entry of the log was the last one once. -/
theorem Config.run_prefix {c : Config Op Res σ α} (hc : c.log = []) {s : List (Nat × ι)}
    {newer older : Log Op Res} {y : Nat × Reply Op Res}
    (hlog : (c.run exec s).log = newer ++ y :: older) :
    ∃ s₁ s₂, s = s₁ ++ s₂ ∧ (c.run exec s₁).log = y :: older := by
  induction s using List.reverseRecOn generalizing newer with
  | nil =>
    rw [show (c.run exec []).log = c.log from rfl, hc] at hlog
    simp at hlog
  | append_singleton s a ih =>
    obtain ⟨p, i⟩ := a
    cases hp : (c.run exec s).procs p with
    | pure r =>
      have hsame : (c.run exec (s ++ [(p, i)])).log = (c.run exec s).log := by
        rw [Config.run_concat, Config.step, hp]
      rw [hsame] at hlog
      obtain ⟨s₁, s₂, rfl, h⟩ := ih hlog
      exact ⟨s₁, s₂ ++ [(p, i)], List.append_assoc _ _ _, h⟩
    | perform o k =>
      cases newer with
      | nil => exact ⟨s ++ [(p, i)], [], (List.append_nil _).symm, hlog⟩
      | cons z newer =>
        rw [Config.run_concat, Config.step, hp] at hlog
        obtain ⟨s₁, s₂, rfl, h⟩ := ih (List.cons.inj hlog).2
        exact ⟨s₁, s₂ ++ [(p, i)], List.append_assoc _ _ _, h⟩

/-- The last step of a run, when it performed something. -/
theorem Config.run_snoc {c : Config Op Res σ α} {s : List (Nat × ι)} {i : ι}
    {y : Nat × Reply Op Res} (hlog : (c.run exec (s ++ [(p, i)])).log = y :: (c.run exec s).log) :
    ∃ o k, (c.run exec s).procs p = .perform o k ∧
      y = (p, ⟨o, (exec o i (c.run exec s).world).1⟩) := by
  rw [Config.run_concat, Config.step] at hlog
  cases hp : (c.run exec s).procs p with
  | pure r =>
    rw [hp] at hlog
    exact absurd hlog.symm (List.cons_ne_self _ _)
  | perform o k =>
    rw [hp] at hlog
    exact ⟨o, k, rfl, (List.cons.inj hlog).1.symm⟩

/-- Every reply of the log was given with an input that the schedule had for its process. -/
theorem Config.run_input {c : Config Op Res σ α} (hc : c.log = []) {s : List (Nat × ι)}
    (h : (p, x) ∈ (c.run exec s).log) : ∃ i w, (p, i) ∈ s ∧ x.2 = (exec x.1 i w).1 := by
  induction s using List.reverseRecOn with
  | nil =>
    rw [show (c.run exec []).log = c.log from rfl, hc] at h
    cases h
  | append_singleton s a ih =>
    obtain ⟨q, i⟩ := a
    rw [Config.run_concat, Config.step] at h
    cases hq : (c.run exec s).procs q with
    | pure r =>
      rw [hq] at h
      obtain ⟨j, w, hj, hx⟩ := ih h
      exact ⟨j, w, List.mem_append_left _ hj, hx⟩
    | perform o k =>
      rw [hq] at h
      rcases List.mem_cons.mp h with hlast | hold
      · cases hlast
        exact ⟨i, _, List.mem_append_right _ (List.mem_singleton_self _), rfl⟩
      · obtain ⟨j, w, hj, hx⟩ := ih hold
        exact ⟨j, w, List.mem_append_left _ hj, hx⟩

/-- What a pool of obedient programs can do: from the world `w₀`, operations performed one after
another, each one allowed to its process by the process's own transcript. -/
inductive Behaviour (may : Nat → Transcript Op Res → Op → Prop) (w₀ : σ) : Log Op Res → σ → Prop
  | start : Behaviour may w₀ [] w₀
  | step {log : Log Op Res} {w : σ} (p : Nat) (o : Op) (i : ι) :
      Behaviour may w₀ log w → may p (own p log) o →
      Behaviour may w₀ ((p, ⟨o, (exec o i w).1⟩) :: log) (exec o i w).2

variable {exec}

/-- The last operation of a behaviour. -/
theorem Behaviour.last {may : Nat → Transcript Op Res → Op → Prop} {w₀ w : σ}
    (h : Behaviour exec may w₀ ((p, x) :: log) w) :
    ∃ w₁ i, Behaviour exec may w₀ log w₁ ∧ may p (own p log) x.1 ∧ x.2 = (exec x.1 i w₁).1 ∧
      w = (exec x.1 i w₁).2 := by
  cases h with
  | step _ _ i hb hmay => exact ⟨_, i, hb, hmay, rfl, rfl⟩

/-- An entry of a behaviour's log: the world and the transcript it was performed in. -/
theorem Behaviour.entry {may : Nat → Transcript Op Res → Op → Prop} {w₀ : σ} {w : σ}
    (h : Behaviour exec may w₀ log w) {newer older : Log Op Res}
    (hlog : log = newer ++ (p, x) :: older) :
    ∃ w₁ i, Behaviour exec may w₀ older w₁ ∧ may p (own p older) x.1 ∧
      x.2 = (exec x.1 i w₁).1 := by
  induction h generalizing newer with
  | start => simp at hlog
  | step q o i hb hmay ih =>
    cases newer with
    | nil =>
      obtain ⟨hhead, rfl⟩ := List.cons.inj hlog
      cases hhead
      exact ⟨_, i, hb, hmay, rfl⟩
    | cons y newer => exact ih (List.cons.inj hlog).2

/-- What the programs of a pool obey, each one its own conduct. -/
abbrev mayOf (C : Nat → Conduct Op Res) : Nat → Transcript Op Res → Op → Prop :=
  fun p => (C p).may

variable {C : Nat → Conduct Op Res} {Q : Nat → α → Transcript Op Res → Prop}

/-- What one step keeps: the pool behaves, and what is left of each program still obeys. -/
theorem Config.step_behaviour (hgives : ∀ p o i w, (C p).gives o (exec o i w).1) {w₀ : σ}
    {c : Config Op Res σ α} (hb : Behaviour exec (mayOf C) w₀ c.log c.world)
    (hp : ∀ p, Obeys (C p) (Q p) (c.procs p) (own p c.log)) (p : Nat) (i : ι) :
    Behaviour exec (mayOf C) w₀ (c.step exec p i).log (c.step exec p i).world ∧
      ∀ q, Obeys (C q) (Q q) ((c.step exec p i).procs q) (own q (c.step exec p i).log) := by
  unfold Config.step
  cases hc : c.procs p with
  | pure a => exact ⟨hb, hp⟩
  | perform o k =>
    have hpo : Obeys (C p) (Q p) (.perform o k) (own p c.log) := hc ▸ hp p
    refine ⟨.step p o i hb hpo.1, fun q => ?_⟩
    by_cases hq : q = p
    · subst hq
      simpa using hpo.2 _ (hgives _ o i c.world)
    · simpa [hq, own_cons_ne (Ne.symm hq)] using hp q

/-- **Every run of obedient programs is a behaviour**, and what is left of each program obeys. -/
theorem Config.run_behaviour (hgives : ∀ p o i w, (C p).gives o (exec o i w).1) {w₀ : σ}
    {c : Config Op Res σ α} (hb : Behaviour exec (mayOf C) w₀ c.log c.world)
    (hp : ∀ p, Obeys (C p) (Q p) (c.procs p) (own p c.log)) (s : List (Nat × ι)) :
    Behaviour exec (mayOf C) w₀ (c.run exec s).log (c.run exec s).world ∧
      ∀ q, Obeys (C q) (Q q) ((c.run exec s).procs q) (own q (c.run exec s).log) := by
  induction s generalizing c with
  | nil => exact ⟨hb, hp⟩
  | cons x s ih =>
    obtain ⟨hb', hp'⟩ := c.step_behaviour hgives hb hp x.1 x.2
    exact ih hb' hp'

/-- What every allowed step keeps, the rest of the run keeps. -/
theorem Config.run_preserves (hgives : ∀ p o i w, (C p).gives o (exec o i w).1) {w₀ : σ}
    {P : Log Op Res → σ → Prop}
    (hstep : ∀ {log : Log Op Res} {w : σ} (p : Nat) (o : Op) (i : ι),
      Behaviour exec (mayOf C) w₀ log w → mayOf C p (own p log) o → P log w →
      P ((p, ⟨o, (exec o i w).1⟩) :: log) (exec o i w).2)
    {c : Config Op Res σ α} (hb : Behaviour exec (mayOf C) w₀ c.log c.world)
    (hp : ∀ p, Obeys (C p) (Q p) (c.procs p) (own p c.log)) (h : P c.log c.world)
    (s : List (Nat × ι)) : P (c.run exec s).log (c.run exec s).world := by
  induction s generalizing c with
  | nil => exact h
  | cons x s ih =>
    obtain ⟨p, i⟩ := x
    obtain ⟨hb', hp'⟩ := c.step_behaviour hgives hb hp p i
    refine ih hb' hp' ?_
    unfold Config.step
    cases hc : c.procs p with
    | pure a => exact h
    | perform o k =>
      have hpo : Obeys (C p) (Q p) (.perform o k) (own p c.log) := hc ▸ hp p
      exact hstep p o i hb hpo.1 h

/-- Every step of the run meets the condition. -/
def Config.Along (exec : (o : Op) → ι → σ → Res o × σ)
    (cond : Config Op Res σ α → Nat → ι → Prop) : Config Op Res σ α → List (Nat × ι) → Prop
  | _, [] => True
  | c, (p, i) :: s => cond c p i ∧ (c.step exec p i).Along exec cond s

/-- What every allowed step keeps that meets a condition, a run keeps whose steps all meet it. -/
theorem Config.run_along (hgives : ∀ p o i w, (C p).gives o (exec o i w).1) {w₀ : σ}
    {cond : Config Op Res σ α → Nat → ι → Prop} {P : Log Op Res → σ → Prop}
    (hstep : ∀ {c : Config Op Res σ α} {p : Nat} {o : Op} {k : Res o → Prog Op Res α} (i : ι),
      c.procs p = .perform o k → mayOf C p (own p c.log) o → cond c p i → P c.log c.world →
      P ((p, ⟨o, (exec o i c.world).1⟩) :: c.log) (exec o i c.world).2)
    {c : Config Op Res σ α} (hb : Behaviour exec (mayOf C) w₀ c.log c.world)
    (hp : ∀ p, Obeys (C p) (Q p) (c.procs p) (own p c.log)) (h : P c.log c.world)
    (s : List (Nat × ι)) (hs : c.Along exec cond s) :
    P (c.run exec s).log (c.run exec s).world := by
  induction s generalizing c with
  | nil => exact h
  | cons x s ih =>
    obtain ⟨p, i⟩ := x
    obtain ⟨hb', hp'⟩ := c.step_behaviour hgives hb hp p i
    refine ih hb' hp' ?_ hs.2
    unfold Config.step
    cases hc : c.procs p with
    | pure a => exact h
    | perform o k =>
      have hpo : Obeys (C p) (Q p) (.perform o k) (own p c.log) := hc ▸ hp p
      exact hstep i hc hpo.1 hs.1 h

end Interleave

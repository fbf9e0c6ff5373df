import Mathlib.Logic.Basic

/-!
# Programs over a shared world

A program talks to a shared world only by performing operations, one at a time (`Prog`). Between
two of its operations anything may happen to the world; what a program *knows* is its transcript,
the replies it has received. A `Conduct` says which operation a program may perform after which
transcript, and `Obeys` checks a program tree against it, with a postcondition on the result.

The rules below (`obeys_pure`, `obeys_op`, `obeys_bind`, `Obeys.mono`, and the same for programs
that can fail) walk through a program written in `do` notation; nothing in this file mentions
other programs, since a transcript is not affected by them.
-/

namespace Interleave

/-- A program over operations `Op` with replies `Res`: it is done, or it performs one operation
and goes on with the reply. -/
inductive Prog (Op : Type) (Res : Op → Type) (α : Type) : Type
  | pure (a : α) : Prog Op Res α
  | perform (o : Op) (k : Res o → Prog Op Res α) : Prog Op Res α

/-- An operation with the reply it got. -/
abbrev Reply (Op : Type) (Res : Op → Type) := (o : Op) × Res o

/-- What a program has seen so far, newest reply first. -/
abbrev Transcript (Op : Type) (Res : Op → Type) := List (Reply Op Res)

namespace Prog

variable {Op : Type} {Res : Op → Type} {α β ε : Type}

/-- Sequencing: graft `f` onto every end of the program. -/
def bind : Prog Op Res α → (α → Prog Op Res β) → Prog Op Res β
  | .pure a, f => f a
  | .perform o k, f => .perform o fun r => (k r).bind f

instance : Monad (Prog Op Res) where
  pure := .pure
  bind := bind

/-- Perform one operation and return its reply. -/
def op (o : Op) : Prog Op Res (Res o) := .perform o .pure

/-- Run the program under a timeout: before each operation and before the result is handed on, the
operation `d` tells whether the time is over, and then the rest is dropped. -/
def underDeadline (d : Op) (elapsed : Res d → Bool) : Prog Op Res α → Prog Op Res (Option α)
  | .pure a => .perform d fun r => if elapsed r then .pure none else .pure (some a)
  | .perform o k =>
    .perform d fun r =>
      if elapsed r then .pure none
      else .perform o fun r' => (k r').underDeadline d elapsed

end Prog

/-- The rules a program is checked against. -/
structure Conduct (Op : Type) (Res : Op → Type) where
  /-- After this transcript the operation may be performed. -/
  may : Transcript Op Res → Op → Prop
  /-- The world can give this reply to the operation. -/
  gives : (o : Op) → Res o → Prop

section Obeys

variable {Op : Type} {Res : Op → Type} {α β ε : Type} {C : Conduct Op Res}

/-- Along every path of replies the world can give, the program performs only operations it may
perform, and ends with `Q` of its result and its transcript. -/
def Obeys (C : Conduct Op Res) (Q : α → Transcript Op Res → Prop) :
    Prog Op Res α → Transcript Op Res → Prop
  | .pure a, t => Q a t
  | .perform o k, t => C.may t o ∧ ∀ r, C.gives o r → Obeys C Q (k r) (⟨o, r⟩ :: t)

variable {Q Q' : α → Transcript Op Res → Prop} {t : Transcript Op Res}

theorem obeys_pure {a : α} : Obeys C Q (pure a) t ↔ Q a t := Iff.rfl

theorem obeys_op {o : Op} {Q : Res o → Transcript Op Res → Prop} :
    Obeys C Q (Prog.op o) t ↔ C.may t o ∧ ∀ r, C.gives o r → Q r (⟨o, r⟩ :: t) := Iff.rfl

/-- A weaker postcondition. -/
theorem Obeys.mono {x : Prog Op Res α} (h : Obeys C Q x t)
    (hQ : ∀ a t', Q a t' → Q' a t') : Obeys C Q' x t := by
  induction x generalizing t with
  | pure a => exact hQ a t h
  | perform o k ih => exact ⟨h.1, fun r hr => ih r (h.2 r hr)⟩

/-- Sequencing: the second program is checked in the transcript the first one leaves. -/
theorem obeys_bind {x : Prog Op Res α} {f : α → Prog Op Res β}
    {Q : β → Transcript Op Res → Prop} :
    Obeys C Q (x >>= f) t ↔ Obeys C (fun a t' => Obeys C Q (f a) t') x t := by
  induction x generalizing t with
  | pure a => exact Iff.rfl
  | perform o k ih =>
    exact and_congr_right fun _ => forall_congr' fun r => imp_congr_right fun _ => ih r

/-- The check of a program that can fail: only results it returns are asked about. -/
def ObeysE (C : Conduct Op Res) (Q : α → Transcript Op Res → Prop)
    (x : ExceptT ε (Prog Op Res) α) (t : Transcript Op Res) : Prop :=
  Obeys C (fun r t' => ∀ a, r = .ok a → Q a t') x.run t

theorem obeysE_pure {a : α} : ObeysE C Q (pure a : ExceptT ε (Prog Op Res) α) t ↔ Q a t :=
  ⟨fun h => h a rfl, fun h _ hb => by cases hb; exact h⟩

theorem obeysE_throw {e : ε} : ObeysE C Q (throw e : ExceptT ε (Prog Op Res) α) t :=
  fun _ h => by cases h

/-- A program that cannot fail, inside one that can. -/
theorem obeysE_lift {x : Prog Op Res α} :
    ObeysE C Q (ExceptT.lift x : ExceptT ε (Prog Op Res) α) t ↔ Obeys C Q x t := by
  change Obeys C _ (x >>= fun a => pure (Except.ok a)) t ↔ _
  rw [obeys_bind]
  exact ⟨fun h => h.mono fun a _ ha => ha a rfl,
    fun h => h.mono fun a _ ha b hb => by cases hb; exact ha⟩

theorem obeysE_bind {x : ExceptT ε (Prog Op Res) α} {f : α → ExceptT ε (Prog Op Res) β}
    {Q : β → Transcript Op Res → Prop} :
    ObeysE C Q (x >>= f) t ↔ ObeysE C (fun a t' => ObeysE C Q (f a) t') x t := by
  change Obeys C _ (x.run >>= _) t ↔ _
  rw [obeys_bind]
  constructor
  · intro h
    refine h.mono fun r t' hr a ha => ?_
    subst ha
    exact hr
  · intro h
    refine h.mono fun r t' hr => ?_
    cases r with
    | ok a => exact hr a rfl
    | error e => exact fun _ hb => by cases hb

theorem ObeysE.mono {x : ExceptT ε (Prog Op Res) α} (h : ObeysE C Q x t)
    (hQ : ∀ a t', Q a t' → Q' a t') : ObeysE C Q' x t :=
  Obeys.mono h fun _ t' hr a ha => hQ a t' (hr a ha)

/-- A result that is already there, or its error. -/
theorem obeysE_ofExcept {x : Except ε α} :
    ObeysE C Q (ofExcept x : ExceptT ε (Prog Op Res) α) t ↔ ∀ a, x = .ok a → Q a t := by
  cases x with
  | error e => exact ⟨fun _ _ h => absurd h (by simp), fun _ => obeysE_throw⟩
  | ok a => exact obeysE_pure.trans ⟨fun h _ hb => Except.ok.inj hb ▸ h, fun h => h a rfl⟩

/-- Run a program that can fail and hand its outcome on. -/
def attempt {ε' : Type} (x : ExceptT ε (Prog Op Res) α) :
    ExceptT ε' (Prog Op Res) (Except ε α) :=
  ExceptT.lift x.run

/-- Errors are translated on the way out; the check does not see them. -/
theorem obeysE_adapt {ε' : Type} {f : ε → ε'} {x : ExceptT ε (Prog Op Res) α} :
    ObeysE C Q (ExceptT.adapt f x) t ↔ ObeysE C Q x t := by
  change Obeys C _ (x.run >>= fun r => pure (Except.mapError f r)) t ↔ _
  rw [obeys_bind]
  constructor
  · exact fun h => Obeys.mono h fun r t' hr a ha => hr a (by rw [ha]; rfl)
  · refine fun h => Obeys.mono h fun r t' hr a ha => hr a ?_
    cases r with
    | ok b => exact congrArg _ (Except.ok.inj ha)
    | error e => cases ha

theorem obeysE_attempt {ε' : Type} {x : ExceptT ε (Prog Op Res) α}
    {Q : Except ε α → Transcript Op Res → Prop} :
    ObeysE C Q (attempt x : ExceptT ε' (Prog Op Res) (Except ε α)) t ↔ Obeys C Q x.run t :=
  obeysE_lift

/-- `Q` of a result, `E` of an error. -/
def outcome {σ : Type} (Q : α → σ → Prop) (E : ε → σ → Prop) : Except ε α → σ → Prop
  | .ok a => Q a
  | .error e => E e

/-- A transcript only grows. -/
theorem Obeys.suffix {x : Prog Op Res α} (h : Obeys C Q x t) :
    Obeys C (fun a t' => Q a t' ∧ t <:+ t') x t := by
  suffices hgen : ∀ t₁, t <:+ t₁ → Obeys C Q x t₁ →
      Obeys C (fun a t' => Q a t' ∧ t <:+ t') x t₁ from hgen t List.suffix_rfl h
  clear h
  induction x with
  | pure a => exact fun t₁ ht h => ⟨h, ht⟩
  | perform o k ih =>
    exact fun t₁ ht h => ⟨h.1, fun r hr =>
      ih r _ (ht.trans (List.suffix_cons _ _)) (h.2 r hr)⟩

/-- Sequencing through a specification of the first program. -/
theorem Obeys.andThen {x : Prog Op Res α} {f : α → Prog Op Res β}
    {Q' : β → Transcript Op Res → Prop} (hx : Obeys C Q x t)
    (hf : ∀ a t', t ⊆ t' → Q a t' → Obeys C Q' (f a) t') : Obeys C Q' (x >>= f) t :=
  obeys_bind.mpr (hx.suffix.mono fun a t' h => hf a t' h.2.subset h.1)

theorem ObeysE.andThen {x : ExceptT ε (Prog Op Res) α} {f : α → ExceptT ε (Prog Op Res) β}
    {Q' : β → Transcript Op Res → Prop} (hx : ObeysE C Q x t)
    (hf : ∀ a t', t ⊆ t' → Q a t' → ObeysE C Q' (f a) t') : ObeysE C Q' (x >>= f) t :=
  obeysE_bind.mpr (Obeys.mono (Obeys.suffix hx) fun _ t' h a ha =>
    hf a t' h.2.subset (h.1 a ha))

/-- The conduct that allows only operations with the property `P`. -/
def Conduct.only (C : Conduct Op Res) (P : Transcript Op Res → Op → Prop) : Conduct Op Res :=
  { C with may := fun t o => P t o ∧ C.may t o }

theorem Obeys.of_only {P : Transcript Op Res → Op → Prop} {x : Prog Op Res α}
    (h : Obeys (C.only P) Q x t) :
    Obeys C Q x t := by
  induction x generalizing t with
  | pure a => exact h
  | perform o k ih => exact ⟨h.1.2, fun r hr => ih r (h.2 r hr)⟩

/-- However such a program ends, it has performed only operations with the property. -/
theorem Obeys.of_only_new {P : Op → Prop} {x : Prog Op Res α}
    (h : Obeys (C.only fun _ => P) Q x t) :
    Obeys C (fun a t' => Q a t' ∧ ∃ new, t' = new ++ t ∧ ∀ e ∈ new, P e.1) x t := by
  suffices hgen : ∀ new, (∀ e ∈ new, P e.1) → Obeys (C.only fun _ => P) Q x (new ++ t) →
      Obeys C (fun a t' => Q a t' ∧ ∃ new, t' = new ++ t ∧ ∀ e ∈ new, P e.1) x (new ++ t) from
    hgen [] (by simp) h
  clear h
  induction x with
  | pure a => exact fun new hnew h => ⟨h, new, rfl, hnew⟩
  | perform o k ih =>
    refine fun new hnew h => ⟨h.1.2, fun r hr => ih r (⟨o, r⟩ :: new) (fun e he => ?_) (h.2 r hr)⟩
    rcases List.mem_cons.mp he with rfl | he
    · exact h.1.1
    · exact hnew e he

/-- The second transcript is the first one with replies to the operation `d` in between. -/
inductive Padded (d : Op) : Transcript Op Res → Transcript Op Res → Prop
  | refl (t : Transcript Op Res) : Padded d t t
  | cons {t t' : Transcript Op Res} (e : Reply Op Res) (h : Padded d t t') :
      Padded d (e :: t) (e :: t')
  | pad {t t' : Transcript Op Res} (r : Res d) (h : Padded d t t') : Padded d t (⟨d, r⟩ :: t')

section Padded

variable {d : Op} {t' : Transcript Op Res}

theorem Padded.subset (h : Padded d t t') : t ⊆ t' := by
  induction h with
  | refl t => exact List.Subset.refl t
  | cons e _ ih => exact List.cons_subset_cons e ih
  | pad r _ ih => exact List.subset_cons_of_subset _ ih

theorem Padded.mem (h : Padded d t t') {e : Reply Op Res} (he : e ∈ t') : e ∈ t ∨ e.1 = d := by
  induction h with
  | refl t => exact .inl he
  | cons e' _ ih =>
    rcases List.mem_cons.mp he with rfl | he
    · exact .inl List.mem_cons_self
    · exact (ih he).imp_left (List.mem_cons_of_mem _)
  | pad r _ ih =>
    rcases List.mem_cons.mp he with rfl | he
    · exact .inr rfl
    · exact ih he

/-- A reply splits the padded transcript where it splits the other. -/
theorem Padded.split {recent old : Transcript Op Res} {e : Reply Op Res}
    (h : Padded d (recent ++ e :: old) t') :
    ∃ recent' old', t' = recent' ++ e :: old' ∧ Padded d recent recent' ∧ Padded d old old' := by
  generalize ht : recent ++ e :: old = t at h
  induction h generalizing recent with
  | refl t => exact ⟨recent, old, ht.symm, .refl _, .refl _⟩
  | cons e' h ih =>
    cases recent with
    | nil =>
      obtain ⟨rfl, rfl⟩ := List.cons.inj ht
      exact ⟨[], _, rfl, .refl _, h⟩
    | cons e'' recent =>
      obtain ⟨rfl, htail⟩ := List.cons.inj ht
      obtain ⟨recent', old', rfl, hrecent, hold⟩ := ih htail
      exact ⟨e'' :: recent', old', rfl, .cons e'' hrecent, hold⟩
  | pad r _ ih =>
    obtain ⟨recent', old', rfl, hrecent, hold⟩ := ih ht
    exact ⟨⟨d, r⟩ :: recent', old', rfl, .pad r hrecent, hold⟩

end Padded

/-- Under a timeout: every operation the program would perform, and nothing but the deadline's own
in between, as long as those never forbid one of them. -/
theorem Obeys.underDeadline {P : Transcript Op Res → Op → Prop} {d : Op}
    {elapsed : Res d → Bool} (hd : ∀ t, C.may t d)
    (hmono : ∀ t t' o, P t o → Padded d t t' → C.may t o → C.may t' o) {x : Prog Op Res α}
    (hx : Obeys (C.only P) Q x t) {t₁ : Transcript Op Res} (ht : Padded d t t₁) :
    Obeys C (fun r t' => ∀ a, r = some a → ∃ t₀, t₀ ⊆ t' ∧ Q a t₀) (x.underDeadline d elapsed)
      t₁ := by
  induction x generalizing t t₁ with
  | pure a =>
    refine ⟨hd _, fun r _ => ?_⟩
    by_cases he : elapsed r = true
    · simp only [he, if_true]
      exact fun a h => by cases h
    · simp only [he, if_false, Bool.false_eq_true]
      exact fun b h => by cases h; exact ⟨t, List.subset_cons_of_subset _ ht.subset, hx⟩
  | perform o k ih =>
    refine ⟨hd _, fun r _ => ?_⟩
    by_cases he : elapsed r = true
    · simp only [he, if_true]
      exact fun a h => by cases h
    · simp only [he, if_false, Bool.false_eq_true]
      have ht' : Padded d t (⟨d, r⟩ :: t₁) := .pad r ht
      exact ⟨hmono _ _ _ hx.1.1 ht' hx.1.2, fun r' hr' =>
        ih r' (hx.2 r' hr') (.cons _ ht')⟩

end Obeys

end Interleave

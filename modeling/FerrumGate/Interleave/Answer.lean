import FerrumGate.Interleave.Prog

/-!
# A program with a given environment

An environment is any function from what a program has seen so far to the reply to its next
operation. `Prog.answered` is the run of a program in it: the result, and everything the program
has seen.

* `answered_bind`, `answered_run_bind` : a run goes on where the first part left it.
* `mem_answered` : a run sees nothing but replies of the environment.
-/

namespace Interleave

variable {Op : Type} {Res : Op → Type} {α β ε : Type}

/-- What replies to the operations of a program. -/
abbrev Environment (Op : Type) (Res : Op → Type) := Transcript Op Res → (o : Op) → Res o

namespace Prog

/-- The run of a program. It ends, since a program is finite along every path of replies. -/
def answered (env : Environment Op Res) : Prog Op Res α → Transcript Op Res →
    α × Transcript Op Res
  | .pure a, t => (a, t)
  | .perform o k, t => (k (env t o)).answered env (⟨o, env t o⟩ :: t)

variable {env : Environment Op Res} {t : Transcript Op Res}

@[simp] theorem answered_bind (x : Prog Op Res α) (f : α → Prog Op Res β) :
    (x >>= f).answered env t = (f (x.answered env t).1).answered env (x.answered env t).2 := by
  induction x generalizing t with
  | pure a => rfl
  | perform o k ih => exact ih _

/-- A program that can fail: after an error nothing more is done. -/
theorem answered_run_bind (x : ExceptT ε (Prog Op Res) α) (f : α → ExceptT ε (Prog Op Res) β) :
    (x >>= f).run.answered env t =
      match (x.run.answered env t).1 with
      | .ok a => (f a).run.answered env (x.run.answered env t).2
      | .error e => (.error e, (x.run.answered env t).2) := by
  change (x.run >>= fun r => _).answered env t = _
  rw [answered_bind]
  cases (x.run.answered env t).1 <;> rfl

theorem answered_run_lift (x : Prog Op Res α) :
    (ExceptT.lift x : ExceptT ε (Prog Op Res) α).run.answered env t =
      (.ok (x.answered env t).1, (x.answered env t).2) :=
  answered_bind x _

/-- Every reply a run has seen was given by the environment. -/
theorem mem_answered {x : Prog Op Res α} {entry : Reply Op Res}
    (h : entry ∈ (x.answered env t).2) : entry ∈ t ∨ ∃ t', entry.2 = env t' entry.1 := by
  induction x generalizing t with
  | pure a => exact .inl h
  | perform o k ih =>
    rcases ih _ h with hentry | hgiven
    · rcases List.mem_cons.mp hentry with rfl | hold
      · exact .inr ⟨t, rfl⟩
      · exact .inl hold
    · exact .inr hgiven

end Prog

end Interleave

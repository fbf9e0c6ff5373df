import FerrumGate.Interleave.Pool

/-!
# A program that runs alone

`Obeys` says what a program does whatever the others do; it cannot say that the program gets
anywhere. `Ends` is about one program of the pool that runs to its end while no other is
scheduled: from the world `w` it ends, and its result and the world it leaves satisfy `Q`. It is
a total correctness triple, and its rules walk through `do` notation like those of `Obeys`.

The environment still chooses the inputs, within what the `Setting` allows, and the setting's
invariant may be used at every step: it is what is known of the worlds of the whole pool.

* `Ends.play`: such a program does the same on any sequence of inputs.
-/

namespace Interleave

variable {Op : Type} {Res : Op → Type} {σ ι α β ε : Type}

/-- What a program that runs alone can count on. -/
structure Setting (Op : Type) (Res : Op → Type) (ι σ : Type) where
  exec : (o : Op) → ι → σ → Res o × σ
  /-- What holds in every world of the pool. -/
  inv : σ → Prop
  /-- What holds of every input. -/
  allows : ι → Prop

variable {S : Setting Op Res ι σ} {Q Q' : α → σ → Prop} {w : σ}

/-- Alone and with any inputs the setting allows, the program ends with `Q` of its result and of
the world. -/
def Ends (S : Setting Op Res ι σ) (Q : α → σ → Prop) : Prog Op Res α → σ → Prop
  | .pure a, w => Q a w
  | .perform o k, w =>
    ∀ i, S.allows i → S.inv (S.exec o i w).2 → Ends S Q (k (S.exec o i w).1) (S.exec o i w).2

/-- A weaker postcondition. -/
theorem Ends.mono {x : Prog Op Res α} (h : Ends S Q x w) (hQ : ∀ a w', Q a w' → Q' a w') :
    Ends S Q' x w := by
  induction x generalizing w with
  | pure a => exact hQ a w h
  | perform o k ih => exact fun i hi hinv => ih _ (h i hi hinv)

theorem ends_congr {x : Prog Op Res α} (h : ∀ a w', Q a w' ↔ Q' a w') :
    Ends S Q x w ↔ Ends S Q' x w :=
  ⟨fun hx => hx.mono fun a w' => (h a w').mp, fun hx => hx.mono fun a w' => (h a w').mpr⟩

theorem ends_bind {x : Prog Op Res α} {f : α → Prog Op Res β} {Q : β → σ → Prop} :
    Ends S Q (x >>= f) w ↔ Ends S (fun a w' => Ends S Q (f a) w') x w := by
  induction x generalizing w with
  | pure a => exact Iff.rfl
  | perform o k ih =>
    exact forall_congr' fun i => imp_congr_right fun _ => imp_congr_right fun _ => ih _

/-! ## Programs that can fail -/

/-- The same for a program that can fail. -/
def EndsE (S : Setting Op Res ι σ) (Q : α → σ → Prop) (E : ε → σ → Prop)
    (x : ExceptT ε (Prog Op Res) α) (w : σ) : Prop :=
  Ends S (outcome Q E) x.run w

variable {E E' : ε → σ → Prop}

theorem endsE_lift {x : Prog Op Res α} :
    EndsE S Q E (ExceptT.lift x : ExceptT ε (Prog Op Res) α) w ↔ Ends S Q x w := by
  change Ends S _ (x >>= fun a => pure (Except.ok a)) w ↔ _
  rw [ends_bind]
  rfl

theorem EndsE.mono {x : ExceptT ε (Prog Op Res) α} (h : EndsE S Q E x w)
    (hQ : ∀ a w', Q a w' → Q' a w') (hE : ∀ e w', E e w' → E' e w') : EndsE S Q' E' x w := by
  refine Ends.mono h fun r w' hr => ?_
  cases r with
  | ok a => exact hQ a w' hr
  | error e => exact hE e w' hr

theorem endsE_bind {x : ExceptT ε (Prog Op Res) α} {f : α → ExceptT ε (Prog Op Res) β}
    {Q : β → σ → Prop} :
    EndsE S Q E (x >>= f) w ↔ EndsE S (fun a w' => EndsE S Q E (f a) w') E x w := by
  change Ends S _ (x.run >>= _) w ↔ _
  rw [ends_bind]
  exact ends_congr fun r w' => by cases r <;> rfl

/-- Errors are translated on the way out. -/
theorem endsE_adapt {ε' : Type} {f : ε → ε'} {x : ExceptT ε (Prog Op Res) α} {E : ε' → σ → Prop} :
    EndsE S Q E (ExceptT.adapt f x) w ↔ EndsE S Q (fun e w' => E (f e) w') x w := by
  change Ends S _ (x.run >>= fun r => pure (Except.mapError f r)) w ↔ _
  rw [ends_bind]
  exact ends_congr fun r w' => by cases r <;> rfl

/-! ## On one input -/

/-- The program runs to its end, with the same input at every operation: its result, and the world
it leaves. -/
def Prog.finish (exec : (o : Op) → ι → σ → Res o × σ) (i : ι) : Prog Op Res α → σ → α × σ
  | .pure a, w => (a, w)
  | .perform o k, w => (k (exec o i w).1).finish exec i (exec o i w).2

section Finish

variable {exec : (o : Op) → ι → σ → Res o × σ} {i : ι} {w w' : σ}

theorem Prog.finish_bind {x : Prog Op Res α} {f : α → Prog Op Res β} {a : α}
    (h : x.finish exec i w = (a, w')) : (x >>= f).finish exec i w = (f a).finish exec i w' := by
  induction x generalizing w with
  | pure b =>
    obtain ⟨rfl, rfl⟩ := Prod.mk.inj h
    rfl
  | perform o k ih => exact ih _ h

theorem finish_ok {x : ExceptT ε (Prog Op Res) α} {f : α → ExceptT ε (Prog Op Res) β} {a : α}
    (h : x.run.finish exec i w = (.ok a, w')) :
    (x >>= f).run.finish exec i w = (f a).run.finish exec i w' :=
  Prog.finish_bind h

theorem finish_error {x : ExceptT ε (Prog Op Res) α} {f : α → ExceptT ε (Prog Op Res) β} {e : ε}
    (h : x.run.finish exec i w = (.error e, w')) :
    (x >>= f).run.finish exec i w = (.error e, w') :=
  Prog.finish_bind h

theorem finish_ofExcept_ok {r : Except ε α} {f : α → ExceptT ε (Prog Op Res) β} {a : α}
    (h : r = .ok a) : (ofExcept r >>= f).run.finish exec i w = (f a).run.finish exec i w := by
  subst h
  rfl

end Finish

/-! ## On a sequence of inputs -/

/-- The program runs to its end, with one input after the other: its result, and the world it
leaves. -/
def Prog.play (exec : (o : Op) → ι → σ → Res o × σ) : Prog Op Res α → (Nat → ι) → σ → α × σ
  | .pure a, _, w => (a, w)
  | .perform o k, inputs, w =>
    (k (exec o (inputs 0) w).1).play exec (fun n => inputs (n + 1)) (exec o (inputs 0) w).2

/-- What a program does alone with any inputs, it does with these. -/
theorem Ends.play {x : Prog Op Res α} (h : Ends S Q x w) (hinv : ∀ w, S.inv w)
    (hallows : ∀ i, S.allows i) (inputs : Nat → ι) :
    Q (x.play S.exec inputs w).1 (x.play S.exec inputs w).2 := by
  induction x generalizing w inputs with
  | pure a => exact h
  | perform o k ih => exact ih _ (h (inputs 0) (hallows _) (hinv _)) _

/-! ## In the pool -/

/-- Process `p` is scheduled alone, `n` times, with these inputs. -/
def alone (p : Nat) (inputs : Nat → ι) : Nat → List (Nat × ι)
  | 0 => []
  | n + 1 => (p, inputs 0) :: alone p (fun j => inputs (j + 1)) n

end Interleave

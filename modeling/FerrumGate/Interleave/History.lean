import FerrumGate.Interleave.Pool
import Mathlib.Data.List.Pairwise

/-!
# What a stale reply still says

A process acts on replies it got some time ago. `Seen` is what such a reply is worth: it was given
in an earlier world, that world satisfied the invariant, and the world has only moved on by `Ext`
since. `Behaviour.history` proves an invariant and the worth of all replies by one induction: a
step has to be checked only for operations its transcript allows, with every reply of that
transcript `Seen` at a moment whose log is a part of the present one.
-/

namespace Interleave

variable {Op : Type} {Res : Op → Type} {σ ι : Type}

section Seen

variable (exec : (o : Op) → ι → σ → Res o × σ)

/-- The reply was given in a world `w₁` that satisfied the invariant, and the world has moved on
from there to `w`. -/
def Seen (Inv : Log Op Res → σ → Prop) (Ext : σ → σ → Prop) (w : σ) (x : Reply Op Res) : Prop :=
  ∃ log₁ w₁ i, Inv log₁ w₁ ∧ x.2 = (exec x.1 i w₁).1 ∧ Ext w₁ (exec x.1 i w₁).2 ∧
    Ext (exec x.1 i w₁).2 w

end Seen

variable {exec : (o : Op) → ι → σ → Res o × σ} {may : Nat → Transcript Op Res → Op → Prop}
  {Inv : Log Op Res → σ → Prop} {Ext : σ → σ → Prop}

theorem Seen.mono (htrans : ∀ a b c : σ, Ext a b → Ext b c → Ext a c) {w w' : σ}
    {x : Reply Op Res} (h : Seen exec Inv Ext w x) (hw : Ext w w') : Seen exec Inv Ext w' x := by
  obtain ⟨log₁, w₁, i, hinv, hx, h₁, h₂⟩ := h
  exact ⟨log₁, w₁, i, hinv, hx, h₁, htrans _ _ _ h₂ hw⟩

theorem Seen.imp {Inv' : Log Op Res → σ → Prop} {w : σ} {x : Reply Op Res}
    (hinv : ∀ log₁ w₁, Inv log₁ w₁ → Inv' log₁ w₁) (h : Seen exec Inv Ext w x) :
    Seen exec Inv' Ext w x := by
  obtain ⟨log₁, w₁, i, h₁, hrest⟩ := h
  exact ⟨log₁, w₁, i, hinv log₁ w₁ h₁, hrest⟩

/-- **An invariant, and what old replies are worth, along every behaviour.** -/
theorem Behaviour.history (Inv : Log Op Res → σ → Prop) (Ext : σ → σ → Prop)
    (hrefl : ∀ w, Ext w w)
    (htrans : ∀ a b c : σ, Ext a b → Ext b c → Ext a c) {w₀ : σ} (h₀ : Inv [] w₀)
    (hstep : ∀ {log : Log Op Res} {w : σ} (p : Nat) (o : Op) (i : ι),
      Behaviour exec may w₀ log w → Inv log w →
      (∀ e ∈ log, Seen exec (fun log₁ w₁ => log₁ ⊆ log ∧ Inv log₁ w₁) Ext w e.2) →
      may p (own p log) o →
      Inv ((p, ⟨o, (exec o i w).1⟩) :: log) (exec o i w).2 ∧ Ext w (exec o i w).2)
    {log : Log Op Res} {w : σ} (h : Behaviour exec may w₀ log w) :
    Inv log w ∧ Ext w₀ w ∧
      ∀ e ∈ log, Seen exec (fun log₁ w₁ => log₁ ⊆ log ∧ Inv log₁ w₁) Ext w e.2 := by
  induction h with
  | start => exact ⟨h₀, hrefl w₀, fun e he => absurd he (by simp)⟩
  | step p o i hb hmay ih =>
    obtain ⟨hinv, hext, hseen⟩ := ih
    obtain ⟨hinv', hext'⟩ := hstep p o i hb hinv hseen hmay
    refine ⟨hinv', htrans _ _ _ hext hext', fun e he => ?_⟩
    rcases List.mem_cons.mp he with rfl | he'
    · exact ⟨_, _, i, ⟨List.subset_cons_self _ _, hinv⟩, rfl, hext', hrefl _⟩
    · exact ((hseen e he').mono htrans hext').imp fun _ _ h =>
        ⟨List.subset_cons_of_subset _ h.1, h.2⟩

/-! ## Operations performed once -/

/-- At most one element of the list has the property, so two that have it are one. -/
theorem eq_of_pairwise {β : Type} {P : β → Bool} {l : List β}
    (h : l.Pairwise fun a b => ¬ (P a = true ∧ P b = true)) {a b : β} (ha : a ∈ l) (hb : b ∈ l)
    (hPa : P a = true) (hPb : P b = true) : a = b := by
  by_contra hne
  have : Std.Symm fun a b => ¬ (P a = true ∧ P b = true) := ⟨fun _ _ hab hba => hab hba.symm⟩
  exact h.forall ha hb hne ⟨hPa, hPb⟩

/-- At most one entry of the log has the property. -/
def Once (P : Reply Op Res → Bool) (log : Log Op Res) : Prop :=
  log.Pairwise fun a b => ¬ (P a.2 = true ∧ P b.2 = true)

section Once

variable {P : Reply Op Res → Bool} {log : Log Op Res} {p q : Nat} {x y : Reply Op Res}

theorem Once.eq (h : Once P log) (hx : (p, x) ∈ log) (hy : (q, y) ∈ log) (hPx : P x = true)
    (hPy : P y = true) : (p, x) = (q, y) :=
  eq_of_pairwise (P := fun e : Nat × Reply Op Res => P e.2) h hx hy hPx hPy

theorem Once.own (h : Once P log) (p : Nat) :
    (own p log).Pairwise fun a b => ¬ (P a = true ∧ P b = true) := by
  refine List.Pairwise.filterMap _ (fun a b hab x hx y hy => ?_) h
  have hax : a.2 = x := by
    split at hx
    · exact Option.some.inj hx
    · cases hx
  have hby : b.2 = y := by
    split at hy
    · exact Option.some.inj hy
    · cases hy
  rw [← hax, ← hby]
  exact hab

end Once

end Interleave

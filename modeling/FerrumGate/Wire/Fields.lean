import Mathlib.Data.List.Basic
import Mathlib.Data.List.Count

/-!
# Fields in one text

What can be read off a text that several fields were written into, one after another.

* `append_separator_inj` : two fields with a separator between them, when the first ones contain it
  equally often.
* **`dateTime_split`** : an RFC 3339 date and time, though it contains the separator: where it
  stands in front, it is known where it ends.
-/

namespace Wire

/-! ## A separator -/

/-- **The separator splits the text**, wherever it stands in the fields, if the first fields contain
it equally often. -/
theorem append_separator_inj {sep : Char} {a a' b b' : List Char}
    (hcount : a.count sep = a'.count sep) (h : a ++ sep :: b = a' ++ sep :: b') :
    a = a' ∧ b = b' := by
  induction a generalizing a' with
  | nil =>
    cases a' with
    | nil => exact ⟨rfl, (List.cons.inj h).2⟩
    | cons c a' =>
      obtain ⟨rfl, -⟩ := List.cons.inj h
      rw [List.count_nil, List.count_cons_self] at hcount
      omega
  | cons c a ih =>
    cases a' with
    | nil =>
      obtain ⟨rfl, -⟩ := List.cons.inj h
      rw [List.count_nil, List.count_cons_self] at hcount
      omega
    | cons c' a' =>
      obtain ⟨rfl, htail⟩ := List.cons.inj h
      rw [List.count_cons, List.count_cons, Nat.add_right_cancel_iff] at hcount
      obtain ⟨rfl, rfl⟩ := ih hcount htail
      exact ⟨rfl, rfl⟩

/-- The case of first fields without the separator. -/
theorem append_separator_inj_of_not_mem {sep : Char} {a a' b b' : List Char} (ha : sep ∉ a)
    (ha' : sep ∉ a') (h : a ++ sep :: b = a' ++ sep :: b') : a = a' ∧ b = b' :=
  append_separator_inj (by rw [List.count_eq_zero.2 ha, List.count_eq_zero.2 ha']) h

/-! ## Dates and times -/

/-- Read over so many digits. -/
def dropDigits : Nat → List Char → Option (List Char)
  | 0, text => some text
  | n + 1, c :: text => if c.isDigit then dropDigits n text else none
  | _ + 1, [] => none

/-- Read over one of these characters. -/
def dropOne (cs : List Char) : List Char → Option (List Char)
  | c :: text => if c ∈ cs then some text else none
  | [] => none

/-- Read over a fraction of a second, if there is one. -/
def dropFraction : List Char → Option (List Char)
  | '.' :: text => (dropDigits 1 text).map (List.dropWhile Char.isDigit)
  | text => some text

/-- Read over `Z` or an offset of hours and minutes. -/
def dropOffset : List Char → Option (List Char)
  | c :: text =>
    if c = 'Z' ∨ c = 'z' then some text
    else if c = '+' ∨ c = '-' then do
      let text ← dropDigits 2 text
      let text ← dropOne [':'] text
      dropDigits 2 text
    else none
  | [] => none

/-- Read over a date and a time with its offset, as RFC 3339 writes them. -/
def dropDateTime (text : List Char) : Option (List Char) := do
  let text ← dropDigits 4 text
  let text ← dropOne ['-'] text
  let text ← dropDigits 2 text
  let text ← dropOne ['-'] text
  let text ← dropDigits 2 text
  let text ← dropOne ['T', 't', ' '] text
  let text ← dropDigits 2 text
  let text ← dropOne [':'] text
  let text ← dropDigits 2 text
  let text ← dropOne [':'] text
  let text ← dropDigits 2 text
  let text ← dropFraction text
  dropOffset text

/-- The text is a date and a time. -/
def IsDateTime (text : List Char) : Prop := dropDateTime text = some []

instance (text : List Char) : Decidable (IsDateTime text) := by
  unfold IsDateTime
  infer_instance

/-- What is read over does not depend on what follows. -/
def Steady (drop : List Char → Option (List Char)) : Prop :=
  ∀ text left rest, drop text = some left → drop (text ++ rest) = some (left ++ rest)

theorem steady_dropDigits (n : Nat) : Steady (dropDigits n) := by
  induction n with
  | zero =>
    rintro text left rest ⟨⟩
    rfl
  | succ n ih =>
    intro text left rest h
    cases text with
    | nil => cases h
    | cons c text =>
      rw [dropDigits] at h
      rw [List.cons_append, dropDigits]
      split_ifs at h ⊢ with hc
      exact ih text left rest h

theorem steady_dropOne (cs : List Char) : Steady (dropOne cs) := by
  intro text left rest h
  cases text with
  | nil => cases h
  | cons c text =>
    rw [dropOne] at h
    rw [List.cons_append, dropOne]
    split_ifs at h ⊢ with hc
    cases h
    rfl

theorem steady_dropOffset : Steady dropOffset := by
  intro text left rest h
  cases text with
  | nil => cases h
  | cons c text =>
    rw [dropOffset] at h
    rw [List.cons_append, dropOffset]
    split_ifs at h ⊢ with hz hsign
    · cases h
      rfl
    · simp only [Option.bind_eq_bind, Option.bind_eq_some_iff] at h ⊢
      obtain ⟨t₁, h₁, t₂, h₂, h₃⟩ := h
      exact ⟨_, steady_dropDigits 2 _ _ rest h₁, _, steady_dropOne _ _ _ rest h₂,
        steady_dropDigits 2 _ _ rest h₃⟩

/-- A fraction ends where something else follows. -/
theorem dropFraction_append {text left : List Char} (rest : List Char)
    (h : dropFraction text = some left) (hleft : left ≠ []) :
    dropFraction (text ++ rest) = some (left ++ rest) := by
  unfold dropFraction at h
  split at h
  · next text =>
    obtain ⟨t₁, h₁, rfl⟩ := Option.map_eq_some_iff.1 h
    rw [List.cons_append, dropFraction, steady_dropDigits 1 _ _ rest h₁, Option.map_some]
    have hne : (t₁.dropWhile Char.isDigit).isEmpty = false := by
      rw [List.isEmpty_eq_false_iff]
      exact hleft
    rw [List.dropWhile_append, hne]
    rfl
  · next hpoint =>
    cases h
    cases text with
    | nil => exact absurd rfl hleft
    | cons c text =>
      rw [dropFraction]
      intro tail heq
      rw [List.cons_append] at heq
      exact hpoint text (by rw [(List.cons.inj heq).1])

theorem steady_dropDateTime : Steady dropDateTime := by
  intro text left rest h
  simp only [dropDateTime, Option.bind_eq_bind, Option.bind_eq_some_iff] at h ⊢
  obtain ⟨t₁, h₁, t₂, h₂, t₃, h₃, t₄, h₄, t₅, h₅, t₆, h₆, t₇, h₇, t₈, h₈, t₉, h₉, t₁₀, h₁₀, t₁₁,
    h₁₁, t₁₂, h₁₂, h₁₃⟩ := h
  have hne : t₁₂ ≠ [] := by
    rintro rfl
    cases h₁₃
  exact ⟨_, steady_dropDigits 4 _ _ rest h₁, _, steady_dropOne _ _ _ rest h₂,
    _, steady_dropDigits 2 _ _ rest h₃, _, steady_dropOne _ _ _ rest h₄,
    _, steady_dropDigits 2 _ _ rest h₅, _, steady_dropOne _ _ _ rest h₆,
    _, steady_dropDigits 2 _ _ rest h₇, _, steady_dropOne _ _ _ rest h₈,
    _, steady_dropDigits 2 _ _ rest h₉, _, steady_dropOne _ _ _ rest h₁₀,
    _, steady_dropDigits 2 _ _ rest h₁₁, _, dropFraction_append rest h₁₂ hne,
    steady_dropOffset _ _ rest h₁₃⟩

/-- **A date and time in front of a text is the same however the text is split.** -/
theorem dateTime_split {t t' rest rest' : List Char} (ht : IsDateTime t) (ht' : IsDateTime t')
    (h : t ++ rest = t' ++ rest') : t = t' ∧ rest = rest' := by
  have hleft := steady_dropDateTime t [] rest ht
  have hleft' := steady_dropDateTime t' [] rest' ht'
  rw [h, hleft', Option.some.injEq, List.nil_append, List.nil_append] at hleft
  subst hleft
  exact ⟨List.append_cancel_right h, rfl⟩

end Wire

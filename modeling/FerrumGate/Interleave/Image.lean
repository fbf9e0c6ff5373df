import FerrumGate.Interleave.Rows

/-!
# Tables and their images

A column may be stored in another form than the one it is thought of in. The stored table is then
the image of the other one, row by row and with the same keys. A statement whose condition, order
and new row agree on a row and on its image gives the same answer on both tables, and the tables
after it are again image and original; so does every sequence of such statements.

* `updateWhere_image`, `selectWhere_image`: one statement.
* `runAll_image`: a sequence.
-/

namespace Interleave

namespace Rows

variable {V V' K : Type} [Keyed V K] [Keyed V' K] [DecidableEq K]

/-- `UPDATE … WHERE key = k AND guard`: the row it found and changed, and the table after it. -/
def updateWhere (k : K) (guard : V → Bool) (write : V → V) (t : List V) : Option V × List V :=
  match (find t k).filter guard with
  | none => (none, t)
  | some row => (some (write row), put t (write row))

/-- `SELECT … WHERE guard ORDER BY le LIMIT limit`. -/
def selectWhere (guard : V → Bool) (le : V → V → Bool) (limit : Nat) (t : List V) : List V :=
  ((t.filter guard).insertionSort fun a b => le a b).take limit

section Image

variable (image : V → V') (hkey : ∀ v, Keyed.key (image v) = Keyed.key v)

include hkey

theorem find_image (t : List V) (k : K) : find (t.map image) k = (find t k).map image := by
  simp only [find, List.find?_map, Function.comp_def, hkey]

theorem put_image (t : List V) (v : V) : put (t.map image) (image v) = (put t v).map image := by
  simp only [put, List.map_map]
  refine List.map_congr_left fun w _ => ?_
  simp only [Function.comp_apply, hkey]
  split_ifs <;> rfl

/-- An update with the answer that is read off the changed row and the table put where it belongs. -/
theorem updateWhere_image {A T T' : Type} {guard : V → Bool} {guard' : V' → Bool} {write : V → V}
    {write' : V' → V'} {answer : Option V → A} {answer' : Option V' → A} {place : List V → T}
    {place' : List V' → T'} {lift : T → T'} (hguard : ∀ v, guard' (image v) = guard v)
    (hwrite : ∀ v, write' (image v) = image (write v))
    (hanswer : ∀ row, answer' (row.map image) = answer row)
    (hplace : ∀ t, place' (t.map image) = lift (place t)) (k : K) (t : List V) :
    (updateWhere k guard' write' (t.map image)).map answer' place' =
      ((updateWhere k guard write t).map answer place).map id lift := by
  unfold updateWhere
  rw [find_image image hkey]
  cases find t k with
  | none => exact Prod.ext (hanswer none) (hplace t)
  | some row =>
    simp only [Option.map_some, Option.filter_some, hguard]
    cases guard row with
    | false => exact Prod.ext (hanswer none) (hplace t)
    | true =>
      refine Prod.ext ((congrArg answer' ?_).trans (hanswer (some (write row))))
        ((congrArg place' ?_).trans (hplace _))
      · exact congrArg some (hwrite row)
      · exact (congrArg (put _) (hwrite row)).trans (put_image image hkey t _)

end Image

omit [Keyed V K] [Keyed V' K] [DecidableEq K] in
theorem selectWhere_image (image : V → V') {guard : V → Bool} {guard' : V' → Bool}
    {le : V → V → Bool} {le' : V' → V' → Bool} (hguard : ∀ v, guard' (image v) = guard v)
    (hle : ∀ v w, le' (image v) (image w) = le v w) (limit : Nat) (t : List V) :
    selectWhere guard' le' limit (t.map image) = (selectWhere guard le limit t).map image := by
  unfold selectWhere
  have hguards : guard' ∘ image = guard := funext hguard
  rw [List.filter_map, hguards, List.map_take,
    List.map_insertionSort _ (fun a b => le' a b = true) image _ fun a _ b _ => by rw [hle]]

end Rows

section Run

variable {S S' T T' A : Type}

/-- One statement after the other, with the answers. -/
def runAll (exec : S → T → A × T) : List S → T → List A × T
  | [], t => ([], t)
  | s :: ss, t => ((exec s t).1 :: (runAll exec ss (exec s t).2).1, (runAll exec ss (exec s t).2).2)

theorem runAll_image {exec : S → T → A × T} {exec' : S' → T' → A × T'} {code : S → S'}
    {image : T → T'} (hstep : ∀ s t, exec' (code s) (image t) = (exec s t).map id image)
    (ss : List S) (t : T) :
    runAll exec' (ss.map code) (image t) = (runAll exec ss t).map id image := by
  induction ss generalizing t with
  | nil => rfl
  | cons s ss ih => simp only [List.map_cons, runAll, hstep, Prod.map_fst, Prod.map_snd, ih, id,
      Prod.map_apply]

end Run

end Interleave

import Mathlib.Data.List.Infix
import Mathlib.Data.String.Basic

/-!
# Texts

`starts_with`, `ends_with`, `contains`, `trim` and `lines` of `str`, on the characters.

* `linesOf_line` : a line without a line break is a line, in front of others.
* `trimmed_eq` : what neither starts nor ends with whitespace stays as it is.
-/

namespace FerrumGate

def startsWith (text start : String) : Bool := start.toList.isPrefixOf text.toList

def endsWith (text tail : String) : Bool := tail.toList.isSuffixOf text.toList

/-- Is this part somewhere in the text? -/
def containsText (text part : String) : Bool :=
  text.toList.tails.any fun tail => part.toList.isPrefixOf tail

/-! ## Whitespace -/

/-- Whitespace as `str::trim` has it. -/
def isWhitespace (c : Char) : Bool :=
  let n := c.toNat
  (9 ≤ n && n ≤ 13) || (0x2000 ≤ n && n ≤ 0x200a) ||
    [0x20, 0x85, 0xa0, 0x1680, 0x2028, 0x2029, 0x202f, 0x205f, 0x3000].contains n

/-- `str::trim`, on the characters. -/
def trimmed (text : List Char) : List Char :=
  ((text.dropWhile isWhitespace).reverse.dropWhile isWhitespace).reverse

/-- `str::trim`. -/
def trim (text : String) : String := String.ofList (trimmed text.toList)

theorem trimmed_eq {first last : Char} {middle : List Char} (hfirst : isWhitespace first = false)
    (hlast : isWhitespace last = false) :
    trimmed (first :: (middle ++ [last])) = first :: (middle ++ [last]) := by
  have hreverse : (first :: (middle ++ [last])).reverse = last :: (first :: middle).reverse := by
    rw [← List.cons_append, List.reverse_append, List.reverse_singleton, List.singleton_append]
  rw [trimmed, List.dropWhile_cons_of_neg (by simp [hfirst]), hreverse,
    List.dropWhile_cons_of_neg (by simp [hlast]), ← hreverse, List.reverse_reverse]

/-! ## Lines -/

/-- `str::lines`: a line break ends a line, with a carriage return before it; at the end of the text
there is a line if anything is left. -/
def linesOf : List Char → List (List Char)
  | [] => []
  | c :: rest =>
    if c = '\n' then [] :: linesOf rest
    else if c = '\r' ∧ rest.head? = some '\n' then linesOf rest
    else
      match linesOf rest with
      | [] => [[c]]
      | line :: lines => (c :: line) :: lines

theorem linesOf_line {line : List Char} (hbreak : '\n' ∉ line) (hreturn : '\r' ∉ line)
    (rest : List Char) : linesOf (line ++ '\n' :: rest) = line :: linesOf rest := by
  induction line with
  | nil => simp [linesOf]
  | cons c line ih =>
    rw [List.mem_cons, not_or] at hbreak hreturn
    rw [List.cons_append, linesOf, if_neg (Ne.symm hbreak.1), if_neg (fun h => hreturn.1 h.1.symm),
      ih hbreak.2 hreturn.2]

end FerrumGate

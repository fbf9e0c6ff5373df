import Mathlib.Data.List.Sort
import Mathlib.Data.String.Basic

/-!
# JSON values and their text

Values as `serde_json` has them, the compact text that `to_string` writes, and the reader behind
`from_str`: white space, escapes, numbers with and without a fraction, and a limit on how deep
arrays and objects are nested.

A number is an integer that fits into 64 bits, or a float. A float is given by its shortest text;
which float the reader takes a text for is left to a `Reader`, since this is where the reader
rounds. -/

namespace Serde

/-! ## Numbers -/

/-- Split off the digits in front. -/
def spanDigits (text : List Char) : List Char × List Char :=
  (text.takeWhile Char.isDigit, text.dropWhile Char.isDigit)

/-- Digits, at least one, after what was read. -/
def someDigits (before text : List Char) : Option (List Char × List Char) :=
  match spanDigits text with
  | ([], _) => none
  | (digits, rest) => some (before ++ digits, rest)

/-- The part before the point: no leading zeros. -/
def scanInteger : List Char → Option (List Char × List Char)
  | '0' :: rest => if rest.head?.any Char.isDigit then none else some (['0'], rest)
  | text => someDigits [] text

/-- A fraction, if there is one. -/
def scanFraction : List Char → Option (List Char × List Char)
  | '.' :: rest => someDigits ['.'] rest
  | text => some ([], text)

/-- An exponent, if there is one. -/
def scanExponent : List Char → Option (List Char × List Char)
  | e :: rest =>
    if e = 'e' ∨ e = 'E' then
      match rest with
      | sign :: digits =>
        if sign = '+' ∨ sign = '-' then someDigits [e, sign] digits else someDigits [e] rest
      | [] => none
    else some ([], e :: rest)
  | [] => some ([], [])

/-- What a number is made of: sign, integer part, and the rest of it. -/
structure Lexeme where
  negative : Bool
  integer : List Char
  tail : List Char
  deriving DecidableEq

def Lexeme.text (l : Lexeme) : List Char :=
  (if l.negative then ['-'] else []) ++ l.integer ++ l.tail

/-- A number without its sign. -/
def scanUnsigned (negative : Bool) (text : List Char) : Option (Lexeme × List Char) := do
  let (integer, rest) ← scanInteger text
  let (fraction, rest) ← scanFraction rest
  let (exponent, rest) ← scanExponent rest
  return (⟨negative, integer, fraction ++ exponent⟩, rest)

def scanNumber : List Char → Option (Lexeme × List Char)
  | '-' :: rest => scanUnsigned true rest
  | text => scanUnsigned false text

/-- An integer that an `i64` or a `u64` can hold. -/
structure Integer where
  val : Int
  inRange : -9223372036854775808 ≤ val ∧ val < 18446744073709551616
  deriving DecidableEq

/-- Is this all of a number, with a fraction or an exponent? -/
def isFloatText (text : List Char) : Bool :=
  (scanNumber text).any fun (lexeme, rest) => rest.isEmpty && !lexeme.tail.isEmpty

/-- A finite `f64`, by its shortest text. -/
structure Float64 where
  text : List Char
  written : isFloatText text = true
  deriving DecidableEq

/-! ## Values -/

mutual

inductive Value where
  | null
  | bool (b : Bool)
  | int (n : Integer)
  | float (x : Float64)
  | str (s : List Char)
  | arr (items : Items)
  | obj (fields : Fields)

inductive Items where
  | nil
  | cons (head : Value) (tail : Items)

inductive Fields where
  | nil
  | cons (key : List Char) (value : Value) (tail : Fields)

end

/-! ## Writing -/

def quote : Char := '"'

def backslash : Char := '\\'

def hexDigit (n : Nat) : Char := if n < 10 then Char.ofNat (48 + n) else Char.ofNat (87 + n)

/-- One character of a string. -/
def escape (c : Char) : List Char :=
  if c = quote then [backslash, quote]
  else if c = backslash then [backslash, backslash]
  else if c.toNat = 8 then [backslash, 'b']
  else if c.toNat = 9 then [backslash, 't']
  else if c.toNat = 10 then [backslash, 'n']
  else if c.toNat = 12 then [backslash, 'f']
  else if c.toNat = 13 then [backslash, 'r']
  else if c.toNat < 32 then
    [backslash, 'u', '0', '0', hexDigit (c.toNat / 16), hexDigit (c.toNat % 16)]
  else [c]

/-- The inside of a string, and its end. -/
def writeString (s : List Char) : List Char := s.flatMap escape ++ [quote]

def writeInteger (n : Int) : List Char :=
  if n < 0 then '-' :: Nat.toDigits 10 n.natAbs else Nat.toDigits 10 n.natAbs

mutual

/-- **`to_string`**. -/
def Value.write : Value → List Char
  | .null => ['n', 'u', 'l', 'l']
  | .bool true => ['t', 'r', 'u', 'e']
  | .bool false => ['f', 'a', 'l', 's', 'e']
  | .int n => writeInteger n.val
  | .float x => x.text
  | .str s => quote :: writeString s
  | .arr .nil => ['[', ']']
  | .arr (.cons head tail) => '[' :: (head.write ++ tail.write)
  | .obj .nil => ['{', '}']
  | .obj (.cons key value tail) =>
    '{' :: quote :: (writeString key ++ ':' :: (value.write ++ tail.write))

/-- The items after the first one, and the end of the array. -/
def Items.write : Items → List Char
  | .nil => [']']
  | .cons head tail => ',' :: (head.write ++ tail.write)

/-- The fields after the first one, and the end of the object. -/
def Fields.write : Fields → List Char
  | .nil => ['}']
  | .cons key value tail =>
    ',' :: quote :: (writeString key ++ ':' :: (value.write ++ tail.write))

end

/-! ## Reading -/

def isSpace (c : Char) : Bool := c = ' ' || c = '\n' || c = '\t' || c = '\r'

def skipSpace (text : List Char) : List Char := text.dropWhile isSpace

def hexValue (c : Char) : Option Nat :=
  if c.isDigit then some (c.toNat - 48)
  else if 97 ≤ c.toNat ∧ c.toNat ≤ 102 then some (c.toNat - 87)
  else if 65 ≤ c.toNat ∧ c.toNat ≤ 70 then some (c.toNat - 55)
  else none

/-- The four digits of a code unit. -/
def codeUnit (a b c d : Char) : Option Nat := do
  let a ← hexValue a
  let b ← hexValue b
  let c ← hexValue c
  let d ← hexValue d
  return ((a * 16 + b) * 16 + c) * 16 + d

/-- The escapes of one letter. -/
def letterEscape (c : Char) : Option Char :=
  if c = quote ∨ c = backslash ∨ c = '/' then some c
  else if c = 'b' then some (Char.ofNat 8)
  else if c = 'f' then some (Char.ofNat 12)
  else if c = 'n' then some (Char.ofNat 10)
  else if c = 'r' then some (Char.ofNat 13)
  else if c = 't' then some (Char.ofNat 9)
  else none

/-- One more character in front of what is read. -/
def consChar (c : Char) : Option (List Char × List Char) → Option (List Char × List Char) :=
  Option.map fun (s, rest) => (c :: s, rest)

/-- The inside of a string up to its end. A code unit from the surrogates stands for a character
only with the other half of its pair. -/
def readString : List Char → Option (List Char × List Char)
  | [] => none
  | c :: rest =>
    if c = quote then some ([], rest)
    else if c = backslash then
      match rest with
      | 'u' :: w :: x :: y :: z :: rest =>
        match codeUnit w x y z with
        | none => none
        | some high =>
          if 0xDC00 ≤ high ∧ high ≤ 0xDFFF then none
          else if 0xD800 ≤ high ∧ high ≤ 0xDBFF then
            match rest with
            | start :: 'u' :: w :: x :: y :: z :: rest =>
              match codeUnit w x y z with
              | some low =>
                if start = backslash ∧ 0xDC00 ≤ low ∧ low ≤ 0xDFFF then
                  consChar (Char.ofNat (0x10000 + (high - 0xD800) * 0x400 + (low - 0xDC00)))
                    (readString rest)
                else none
              | none => none
            | _ => none
          else consChar (Char.ofNat high) (readString rest)
      | letter :: rest =>
        match letterEscape letter with
        | some c => consChar c (readString rest)
        | none => none
      | [] => none
    else if c.toNat < 32 then none
    else consChar c (readString rest)

/-- What the reader is free in: the float it takes a number for, if any. -/
structure Reader where
  toFloat : Lexeme → Option Float64

/-- A number is an integer if it is written as one and fits; the text `-0` is a float. -/
def Reader.number (r : Reader) (lexeme : Lexeme) : Option Value :=
  let magnitude := Nat.ofDigitChars 10 lexeme.integer 0
  if h : lexeme.tail = [] ∧ lexeme.negative = true ∧ 0 < magnitude ∧
      magnitude ≤ 9223372036854775808 then
    some (.int ⟨-magnitude, by omega⟩)
  else if h : lexeme.tail = [] ∧ lexeme.negative = false ∧ magnitude < 18446744073709551616 then
    some (.int ⟨magnitude, by omega⟩)
  else (r.toFloat lexeme).map .float

def expect : List Char → List Char → Option (List Char)
  | [], text => some text
  | c :: word, d :: text => if c = d then expect word text else none
  | _ :: _, [] => none

mutual

/-- A value. The fuel bounds the calls, the depth the nesting. -/
def readValue (r : Reader) : Nat → Nat → List Char → Option (Value × List Char)
  | 0, _, _ => none
  | fuel + 1, depth, text =>
    match skipSpace text with
    | 'n' :: rest => (expect ['u', 'l', 'l'] rest).map (.null, ·)
    | 't' :: rest => (expect ['r', 'u', 'e'] rest).map (.bool true, ·)
    | 'f' :: rest => (expect ['a', 'l', 's', 'e'] rest).map (.bool false, ·)
    | '[' :: rest => (readArray r fuel depth rest).map fun (items, rest) => (.arr items, rest)
    | '{' :: rest => (readObject r fuel depth rest).map fun (fields, rest) => (.obj fields, rest)
    | c :: rest =>
      if c = quote then (readString rest).map fun (s, rest) => (.str s, rest)
      else do
        let (lexeme, rest) ← scanNumber (c :: rest)
        let value ← r.number lexeme
        return (value, rest)
    | [] => none

/-- The inside of an array, which must not be nested too deep. -/
def readArray (r : Reader) : Nat → Nat → List Char → Option (Items × List Char)
  | 0, _, _ => none
  | fuel + 1, depth, text =>
    if depth ≤ 1 then none
    else
      match skipSpace text with
      | ']' :: rest => some (.nil, rest)
      | text => do
        let (head, rest) ← readValue r fuel (depth - 1) text
        let (tail, rest) ← readItems r fuel (depth - 1) rest
        return (.cons head tail, rest)

/-- The items after the first one. -/
def readItems (r : Reader) : Nat → Nat → List Char → Option (Items × List Char)
  | 0, _, _ => none
  | fuel + 1, depth, text =>
    match skipSpace text with
    | ']' :: rest => some (.nil, rest)
    | ',' :: rest => do
      let (head, rest) ← readValue r fuel depth rest
      let (tail, rest) ← readItems r fuel depth rest
      return (.cons head tail, rest)
    | _ => none

/-- The inside of an object. -/
def readObject (r : Reader) : Nat → Nat → List Char → Option (Fields × List Char)
  | 0, _, _ => none
  | fuel + 1, depth, text =>
    if depth ≤ 1 then none
    else
      match skipSpace text with
      | '}' :: rest => some (.nil, rest)
      | text => readEntry r fuel (depth - 1) text

/-- A key, its value, and the fields after it. -/
def readEntry (r : Reader) : Nat → Nat → List Char → Option (Fields × List Char)
  | 0, _, _ => none
  | fuel + 1, depth, text =>
    match expect [quote] (skipSpace text) with
    | none => none
    | some rest => do
      let (key, rest) ← readString rest
      let rest ← expect [':'] (skipSpace rest)
      let (value, rest) ← readValue r fuel depth rest
      let (tail, rest) ← readFields r fuel depth rest
      return (.cons key value tail, rest)

/-- The fields after the first one. -/
def readFields (r : Reader) : Nat → Nat → List Char → Option (Fields × List Char)
  | 0, _, _ => none
  | fuel + 1, depth, text =>
    match skipSpace text with
    | '}' :: rest => some (.nil, rest)
    | ',' :: rest => readEntry r fuel depth rest
    | _ => none

end

/-- All of a text. Four calls for each character are more than enough. -/
def Reader.readAll (r : Reader) (depth : Nat) (text : List Char) : Option Value :=
  match readValue r (4 * text.length + 4) depth text with
  | some (value, rest) => if skipSpace rest = [] then some value else none
  | none => none

end Serde

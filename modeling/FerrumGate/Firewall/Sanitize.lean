import FerrumGate.Serde.Text

/-!
# Sanitizing output

`sanitize`, `redact_secrets` and `sanitize_output` of `ferrum-firewall/src/lib.rs`. A text goes
through several passes: control characters become spaces, runs of white space become one space, the
ends are trimmed, and secrets are replaced one pattern after the other. What a pattern matches is up
to the regex engine (`Matcher`). A value is sanitized string by string; the keys of an object are
left as they are.

* **`sanitized_clean`** : no string value of the output has a control character, and none of its
  texts has one if no key of the input has.
* `key_kept` : a key that has.
-/

namespace FerrumGate.Firewall

open Serde

/-! ## Texts -/

/-- A control character of ASCII. -/
def isControl (c : Char) : Bool := c.toNat < 32 || c.toNat = 127

/-- `char::is_whitespace` -/
def isWhitespace (c : Char) : Bool :=
  let code := c.toNat
  (9 ≤ code && code ≤ 13) || code = 32 || code = 0x85 || code = 0xA0 || code = 0x1680 ||
    (0x2000 ≤ code && code ≤ 0x200A) || code = 0x2028 || code = 0x2029 || code = 0x202F ||
    code = 0x205F || code = 0x3000

/-- The first pass leaves tabs, line feeds and carriage returns. -/
def replaceControl (c : Char) : Char :=
  let code := c.toNat
  if (code < 32 && code ≠ 9 && code ≠ 10 && code ≠ 13) || code = 127 then ' ' else c

/-- The second pass, with whether the last character was white space. -/
def collapse : Bool → List Char → List Char
  | _, [] => []
  | lastWasWs, c :: rest =>
    if isWhitespace c then
      if lastWasWs then collapse true rest else ' ' :: collapse true rest
    else c :: collapse false rest

/-- `str::trim` -/
def trim (text : List Char) : List Char :=
  ((text.dropWhile isWhitespace).reverse.dropWhile isWhitespace).reverse

/-- The patterns of secrets, in the order in which they are replaced. -/
def patterns : List String := [
  "(?i)-----BEGIN\\s+(?:ENCRYPTED\\s+|RSA\\s+|EC\\s+|OPENSSH\\s+|DSA\\s+)?PRIVATE\\s+KEY-----" ++
    "[A-Za-z0-9\\s+/=]*?" ++
    "-----END\\s+(?:ENCRYPTED\\s+|RSA\\s+|EC\\s+|OPENSSH\\s+|DSA\\s+)?PRIVATE\\s+KEY-----",
  "\\bgh[opusr]_[A-Za-z0-9]\x7b36,\x7d\\b",
  "\\bgithub_pat_[A-Za-z0-9_]\x7b20,\x7d\\b",
  "\\bAKIA[0-9A-Z]\x7b16\x7d\\b",
  "\\bASIA[0-9A-Z]\x7b16\x7d\\b",
  "(?i)\\bBearer\\s+[A-Za-z0-9\\-_\\.=+/]\x7b8,\x7d",
  "(?i)\\b(?:api[_-]?key|secret[_-]?key|access[_-]?key|auth[_-]?token)\\s*[:=]\\s*" ++
    "[A-Za-z0-9\\-_\\.=+/]\x7b8,\x7d"]

/-- `find_iter`: where a pattern matches a text, from the start of a match to its end. -/
abbrev Matcher := String → List Char → List (Nat × Nat)

/-- `replace_all`, from where the match before ended. -/
def replaceMatches (text : List Char) : Nat → List (Nat × Nat) → List Char
  | last, [] => text.drop last
  | last, (start, stop) :: rest =>
    (text.take start).drop last ++ "[REDACTED]".toList ++ replaceMatches text stop rest

/-- **`redact_secrets`** -/
def redactSecrets (findIter : Matcher) (input : List Char) : List Char :=
  patterns.foldl (fun result pattern => replaceMatches result 0 (findIter pattern result)) input

/-- **`sanitize`** -/
def sanitize (findIter : Matcher) (input : List Char) : List Char :=
  redactSecrets findIter (trim (collapse false (input.map replaceControl)))

/-! ## Values -/

mutual

/-- **`sanitize_output`** -/
def sanitizeOutput (findIter : Matcher) : Value → Value
  | .str s => .str (sanitize findIter s)
  | .obj fields => .obj (sanitizeFields findIter fields)
  | .arr items => .arr (sanitizeItems findIter items)
  | other => other

def sanitizeItems (findIter : Matcher) : Items → Items
  | .nil => .nil
  | .cons head tail => .cons (sanitizeOutput findIter head) (sanitizeItems findIter tail)

def sanitizeFields (findIter : Matcher) : Fields → Fields
  | .nil => .nil
  | .cons key value tail =>
    .cons key (sanitizeOutput findIter value) (sanitizeFields findIter tail)

end

mutual

/-- The string values of a value, at any depth. -/
def strings : Value → List (List Char)
  | .str s => [s]
  | .obj fields => fieldStrings fields
  | .arr items => itemStrings items
  | _ => []

def itemStrings : Items → List (List Char)
  | .nil => []
  | .cons head tail => strings head ++ itemStrings tail

def fieldStrings : Fields → List (List Char)
  | .nil => []
  | .cons _ value tail => strings value ++ fieldStrings tail

end

mutual

/-- The keys of the objects of a value, at any depth. -/
def allKeys : Value → List (List Char)
  | .obj fields => fieldKeys fields
  | .arr items => itemKeys items
  | _ => []

def itemKeys : Items → List (List Char)
  | .nil => []
  | .cons head tail => allKeys head ++ itemKeys tail

def fieldKeys : Fields → List (List Char)
  | .nil => []
  | .cons key value tail => key :: (allKeys value ++ fieldKeys tail)

end

/-! ## What the passes put out -/

/-- No control characters. -/
def Clean (text : List Char) : Prop := ∀ c ∈ text, isControl c = false

instance (text : List Char) : Decidable (Clean text) :=
  List.decidableBAll (isControl · = false) text

/-- After the first pass, a control character is white space. -/
theorem replaceControl_whitespace {c : Char} (h : isControl (replaceControl c) = true) :
    isWhitespace (replaceControl c) = true := by
  unfold replaceControl at h ⊢
  dsimp only at h ⊢
  split_ifs at h ⊢ with hcode
  · rfl
  · simp only [isControl, isWhitespace, Bool.or_eq_true, Bool.and_eq_true, decide_eq_true_eq,
      ne_eq, not_or, not_and, not_not] at h hcode ⊢
    omega

/-- The second pass leaves no white space but spaces. -/
theorem collapse_clean {text : List Char}
    (h : ∀ c ∈ text, isControl c = true → isWhitespace c = true) (lastWasWs : Bool) :
    Clean (collapse lastWasWs text) := by
  induction text generalizing lastWasWs with
  | nil => simp [collapse, Clean]
  | cons c rest ih =>
    rw [List.forall_mem_cons] at h
    unfold collapse
    by_cases hws : isWhitespace c = true
    · rw [if_pos hws]
      by_cases hlast : lastWasWs = true
      · rw [if_pos hlast]
        exact ih h.2 true
      · rw [if_neg hlast]
        exact List.forall_mem_cons.mpr ⟨by decide, ih h.2 true⟩
    · rw [if_neg hws]
      refine List.forall_mem_cons.mpr ⟨?_, ih h.2 false⟩
      by_contra hcontrol
      exact hws (h.1 (by simpa using hcontrol))

theorem mem_of_mem_trim {text : List Char} {c : Char} (h : c ∈ trim text) : c ∈ text := by
  unfold trim at h
  have hback := (List.dropWhile_sublist _).subset (List.mem_reverse.mp h)
  exact (List.dropWhile_sublist _).subset (List.mem_reverse.mp hback)

/-- What a replacement puts out was there, or is the mark. -/
theorem replaceMatches_clean {text : List Char} (h : Clean text) (last : Nat)
    (found : List (Nat × Nat)) : Clean (replaceMatches text last found) := by
  induction found generalizing last with
  | nil => exact fun c hc => h c (List.mem_of_mem_drop hc)
  | cons here rest ih =>
    intro c hc
    rw [replaceMatches, List.mem_append, List.mem_append] at hc
    rcases hc with (hc | hc) | hc
    · exact h c (List.mem_of_mem_take (List.mem_of_mem_drop hc))
    · exact (by decide : Clean "[REDACTED]".toList) c hc
    · exact ih here.2 c hc

theorem redactSecrets_clean (findIter : Matcher) {text : List Char} (h : Clean text) :
    Clean (redactSecrets findIter text) := by
  unfold redactSecrets
  generalize patterns = patterns
  induction patterns generalizing text with
  | nil => exact h
  | cons pattern patterns ih => exact ih (replaceMatches_clean h 0 _)

theorem sanitize_clean (findIter : Matcher) (input : List Char) :
    Clean (sanitize findIter input) := by
  refine redactSecrets_clean findIter fun c hc => ?_
  refine collapse_clean ?_ false c (mem_of_mem_trim hc)
  intro c hc
  obtain ⟨c', -, rfl⟩ := List.mem_map.mp hc
  exact replaceControl_whitespace

/-! ## What is put out for a value -/

mutual

theorem strings_clean (findIter : Matcher) :
    (v : Value) → ∀ text ∈ strings (sanitizeOutput findIter v), Clean text
  | .str s => by
    simp only [sanitizeOutput, strings, List.forall_mem_singleton]
    exact sanitize_clean findIter s
  | .obj fields => fieldStrings_clean findIter fields
  | .arr items => itemStrings_clean findIter items
  | .null | .bool _ | .int _ | .float _ => by simp [sanitizeOutput, strings]

theorem itemStrings_clean (findIter : Matcher) :
    (items : Items) → ∀ text ∈ itemStrings (sanitizeItems findIter items), Clean text
  | .nil => by simp [sanitizeItems, itemStrings]
  | .cons head tail => by
    rw [sanitizeItems, itemStrings, List.forall_mem_append]
    exact ⟨strings_clean findIter head, itemStrings_clean findIter tail⟩

theorem fieldStrings_clean (findIter : Matcher) :
    (fields : Fields) → ∀ text ∈ fieldStrings (sanitizeFields findIter fields), Clean text
  | .nil => by simp [sanitizeFields, fieldStrings]
  | .cons key value tail => by
    rw [sanitizeFields, fieldStrings, List.forall_mem_append]
    exact ⟨strings_clean findIter value, fieldStrings_clean findIter tail⟩

end

mutual

theorem allKeys_sanitizeOutput (findIter : Matcher) :
    (v : Value) → allKeys (sanitizeOutput findIter v) = allKeys v
  | .obj fields => fieldKeys_sanitizeFields findIter fields
  | .arr items => itemKeys_sanitizeItems findIter items
  | .str _ | .null | .bool _ | .int _ | .float _ => rfl

theorem itemKeys_sanitizeItems (findIter : Matcher) :
    (items : Items) → itemKeys (sanitizeItems findIter items) = itemKeys items
  | .nil => rfl
  | .cons head tail => by
    rw [sanitizeItems, itemKeys, allKeys_sanitizeOutput findIter head,
      itemKeys_sanitizeItems findIter tail, itemKeys]

theorem fieldKeys_sanitizeFields (findIter : Matcher) :
    (fields : Fields) → fieldKeys (sanitizeFields findIter fields) = fieldKeys fields
  | .nil => rfl
  | .cons key value tail => by
    rw [sanitizeFields, fieldKeys, allKeys_sanitizeOutput findIter value,
      fieldKeys_sanitizeFields findIter tail, fieldKeys]

end

/-- **Sanitized output**: no control character in a string value, the keys of the input, and no
control character in any text exactly if there is none in a key. -/
theorem sanitized_clean (findIter : Matcher) (v : Value) :
    (∀ text ∈ strings (sanitizeOutput findIter v), Clean text) ∧
      allKeys (sanitizeOutput findIter v) = allKeys v ∧
      ((∀ text ∈ strings (sanitizeOutput findIter v) ++ allKeys (sanitizeOutput findIter v),
        Clean text) ↔ ∀ key ∈ allKeys v, Clean key) := by
  refine ⟨strings_clean findIter v, allKeys_sanitizeOutput findIter v, ?_⟩
  rw [List.forall_mem_append, allKeys_sanitizeOutput]
  exact and_iff_right (strings_clean findIter v)

/-- A line feed in a key. -/
theorem key_kept :
    allKeys (sanitizeOutput (fun _ _ => [])
      (.obj (.cons ['a', '\n'] (.str ['\n', 'b', '\t', '\n', 'c']) .nil))) = [['a', '\n']] ∧
    strings (sanitizeOutput (fun _ _ => [])
      (.obj (.cons ['a', '\n'] (.str ['\n', 'b', '\t', '\n', 'c']) .nil))) = [['b', ' ', 'c']] ∧
    ¬ Clean ['a', '\n'] := by
  refine ⟨rfl, rfl, by decide⟩

end FerrumGate.Firewall

import PushDelivery.Text
import PushDelivery.Toml.Scalar

/-!
# Quoted texts in TOML

A text stands between quotes, which are single or tripled. Between apostrophes every character
stands for itself; between double quotes a backslash begins an escape. Only a text between tripled
quotes spans lines: a line end right after the opening is dropped, and a text between double quotes
may break a line with a backslash, which drops all blanks and line ends that follow it. Such a text
may end in one or two quotes of its own before the closing three.
-/

namespace PushDelivery.Toml

def simpleEscape? (c : Char) : Option Char :=
  if c = 'b' then some '\x08'
  else if c = 't' then some '\t'
  else if c = 'n' then some '\n'
  else if c = 'f' then some '\x0c'
  else if c = 'r' then some '\r'
  else if c = 'e' then some '\x1b'
  else if c = '"' then some '"'
  else if c = '\\' then some '\\'
  else none

/-- The character whose number is written in hexadecimal digits; a surrogate is no character. -/
def numberedChar? (digits : List Char) : Option Char := do
  let n ← Numeral.readDigits Numeral.hexDigit? 16 digits
  if n < 0xD800 ∨ (0xDFFF < n ∧ n < 0x110000) then some (Char.ofNat n) else none

/-- The number of hexadecimal digits in an escape that names a character by its number. -/
def escapeWidth (c : Char) : Nat :=
  if c = 'x' then 2 else if c = 'u' then 4 else if c = 'U' then 8 else 0

/-- Reads what follows the backslash of an escape, and gives what follows the escape. -/
def readEscape : List Char → Option (Char × List Char)
  | [] => none
  | c :: rest =>
    let digits := rest.take (escapeWidth c)
    if escapeWidth c = 0 then (simpleEscape? c).map fun c => (c, rest)
    else if digits.length = escapeWidth c then
      (numberedChar? digits).map fun c => (c, rest.drop digits.length)
    else none

/-- An escape takes at least one character. -/
theorem length_of_readEscape {cs rest : List Char} {c : Char}
    (h : readEscape cs = some (c, rest)) : rest.length < cs.length := by
  cases cs with
  | nil => simp [readEscape] at h
  | cons d ds =>
    simp only [readEscape] at h
    split at h
    · obtain ⟨_, _, h⟩ := Option.map_eq_some_iff.1 h
      rw [← (Prod.mk.inj h).2, List.length_cons]
      omega
    · split at h
      · obtain ⟨_, _, h⟩ := Option.map_eq_some_iff.1 h
        rw [← (Prod.mk.inj h).2, List.length_drop, List.length_cons]
        omega
      · simp at h

/-- Reads a text up to its closing double quote. -/
def readBasic (cs : List Char) : Option (List Char × List Char) :=
  match cs with
  | [] => none
  | c :: rest =>
    if c = '"' then some ([], rest)
    else if c = '\\' then
      match _h : readEscape rest with
      | none => none
      | some (c, rest') => (readBasic rest').map fun (text, rest) => (c :: text, rest)
    else if isPlain c then (readBasic rest).map fun (text, rest) => (c :: text, rest)
    else none
termination_by cs.length
decreasing_by
  · have := length_of_readEscape _h; simp; omega
  · simp

def readLiteral : List Char → Option (List Char × List Char)
  | [] => none
  | c :: rest =>
    if c = '\'' then some ([], rest)
    else if isPlain c then (readLiteral rest).map fun (text, rest) => (c :: text, rest)
    else none

/-- The quotes that belong to a text which its closing three quotes end here. -/
def closing? (quote : Char) : List Char → Option (List Char × List Char)
  | a :: b :: c :: rest =>
    if a = quote ∧ b = quote ∧ c = quote then
      match rest with
      | d :: e :: rest' =>
        if d = quote ∧ e = quote then some ([quote, quote], rest')
        else if d = quote then some ([quote], e :: rest')
        else some ([], rest)
      | [d] => if d = quote then some ([quote], []) else some ([], rest)
      | [] => some ([], [])
    else none
  | _ => none

def lineEnd? : List Char → Option (List Char × List Char)
  | '\n' :: rest => some (['\n'], rest)
  | '\r' :: '\n' :: rest => some (['\r', '\n'], rest)
  | _ => none

/-- What follows the blanks and line ends at the head of a text. -/
def skipLines : List Char → List Char
  | '\r' :: '\n' :: rest => skipLines rest
  | c :: rest => if c = '\n' ∨ isBlank c then skipLines rest else c :: rest
  | [] => []

/-- What follows a broken line, given what follows the backslash that breaks it. -/
def skipBreak? (cs : List Char) : Option (List Char) :=
  (lineEnd? (skipBlanks cs)).map fun (_, rest) => skipLines rest

def dropLineEnd (cs : List Char) : List Char := ((lineEnd? cs).map (·.2)).getD cs

/-- A line end takes at least one character. -/
theorem length_of_lineEnd {cs line rest : List Char} (h : lineEnd? cs = some (line, rest)) :
    rest.length < cs.length := by
  unfold lineEnd? at h
  split at h <;> grind

/-- Skipping blanks and line ends never lengthens a text. -/
theorem length_skipLines_le (cs : List Char) : (skipLines cs).length ≤ cs.length := by
  fun_induction skipLines cs <;> grind

/-- A broken line takes at least one character. -/
theorem length_of_skipBreak {cs rest : List Char} (h : skipBreak? cs = some rest) :
    rest.length < cs.length := by
  obtain ⟨⟨line, rest'⟩, hl, hr⟩ := Option.map_eq_some_iff.1 h
  have h1 := length_of_lineEnd hl
  have h2 : rest.length ≤ rest'.length := hr ▸ length_skipLines_le rest'
  have h3 : (skipBlanks cs).length ≤ cs.length := (List.dropWhile_sublist isBlank).length_le
  omega

/-- Reads a text of many lines up to its closing double quotes. -/
def readBasicLines (cs : List Char) : Option (List Char × List Char) :=
  match closing? '"' cs with
  | some closed => some closed
  | none =>
    match _hl : lineEnd? cs with
    | some (line, rest) => (readBasicLines rest).map fun (text, rest) => (line ++ text, rest)
    | none =>
      match cs with
      | [] => none
      | c :: rest =>
        if c = '\\' then
          match _hb : skipBreak? rest with
          | some rest' => readBasicLines rest'
          | none =>
            match _he : readEscape rest with
            | some (c, rest') => (readBasicLines rest').map fun (text, rest) => (c :: text, rest)
            | none => none
        else if isPlain c then (readBasicLines rest).map fun (text, rest) => (c :: text, rest)
        else none
termination_by cs.length
decreasing_by
  · exact length_of_lineEnd _hl
  · have := length_of_skipBreak _hb; simp; omega
  · have := length_of_readEscape _he; simp; omega
  · simp

def readLiteralLines (cs : List Char) : Option (List Char × List Char) :=
  match closing? '\'' cs with
  | some closed => some closed
  | none =>
    match _hl : lineEnd? cs with
    | some (line, rest) => (readLiteralLines rest).map fun (text, rest) => (line ++ text, rest)
    | none =>
      match cs with
      | [] => none
      | c :: rest =>
        if isPlain c then (readLiteralLines rest).map fun (text, rest) => (c :: text, rest)
        else none
termination_by cs.length
decreasing_by
  · exact length_of_lineEnd _hl
  · simp

/-- Reads a text between quotes of any kind, if one stands at the head. -/
def readQuoted : List Char → Option (String × List Char)
  | '"' :: '"' :: '"' :: rest => (readBasicLines (dropLineEnd rest)).map (·.map .ofList id)
  | '\'' :: '\'' :: '\'' :: rest => (readLiteralLines (dropLineEnd rest)).map (·.map .ofList id)
  | '"' :: rest => (readBasic rest).map (·.map .ofList id)
  | '\'' :: rest => (readLiteral rest).map (·.map .ofList id)
  | _ => none

end PushDelivery.Toml

/-!
## Keys in TOML

A key is bare or quoted on one line. Keys joined by points name a value in nested tables: the last
key names it in the innermost table, to which the keys before it lead. The number of keys so joined
is limited.
-/

namespace PushDelivery.Toml

/-- Where a value stands: the tables that lead to it, and its name in the last of them. -/
structure KeyPath where
  parents : List String
  name : String
  deriving DecidableEq

def KeyPath.under (first : String) (path : KeyPath) : KeyPath := ⟨first :: path.parents, path.name⟩

def isBareKeyChar (c : Char) : Bool := c.isAlphanum ∨ c = '_' ∨ c = '-'

def readSimpleKey : List Char → Option (String × List Char)
  | '"' :: rest => (readBasic rest).map (·.map .ofList id)
  | '\'' :: rest => (readLiteral rest).map (·.map .ofList id)
  | cs =>
    let name := cs.takeWhile isBareKeyChar
    if name.isEmpty then none else some (.ofList name, cs.dropWhile isBareKeyChar)

def keyLimit : Nat := 80

/-- Reads at most `limit` keys joined by points, and the blanks about them. -/
def readKeyPath : (limit : Nat) → List Char → Option (KeyPath × List Char)
  | 0, _ => none
  | limit + 1, cs => do
    let (name, rest) ← readSimpleKey (skipBlanks cs)
    match skipBlanks rest with
    | '.' :: rest =>
      let (path, rest) ← readKeyPath limit rest
      return (path.under name, rest)
    | rest => return (⟨[], name⟩, rest)

end PushDelivery.Toml

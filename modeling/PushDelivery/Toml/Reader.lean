import PushDelivery.Toml
import PushDelivery.Toml.Scalar

/-!
# Reading TOML text

A value is a text, a word, an array or an inline table; a word is a number, a truth value, or a date
or time. A word runs to the end of its line, to a comment or to a bracket, comma or equals sign, and
may hold blanks, but none before a quote or at its end. A pair that is a statement stands on one
line, but in an inline table lines may end on both sides of the equals sign. Arrays and inline
tables nest up to a limit, which is also what the reader of values recurs on. The items of one array
are bounded by the number of characters of the whole text.
-/

namespace PushDelivery.Toml

def depthLimit : Nat := 80

/-- The characters at which every word ends. -/
def endsWord (c : Char) : Bool :=
  c = '=' ∨ c = ',' ∨ c = '[' ∨ c = ']' ∨ c = '\x7b' ∨ c = '\x7d' ∨ c = '#' ∨ c = '\r' ∨ c = '\n'

/-- Whether a text begins a word, or goes on with one after blanks. -/
def beginsWord (cs : List Char) : Bool := cs.head?.any fun c => c ≠ '"' ∧ c ≠ '\''

/-- The word at the head of a text, and what follows it. -/
def spanWord : List Char → List Char × List Char
  | [] => ([], [])
  | c :: rest =>
    if endsWord c then ([], c :: rest)
    else
      let (word, rest') := spanWord rest
      if isBlank c ∧ !beginsWord word then ([], c :: rest) else (c :: word, rest')

/-- The value of a word. -/
def readWord (word : List Char) : Option Value :=
  if word = ['t', 'r', 'u', 'e'] then some (.boolean true)
  else if word = ['f', 'a', 'l', 's', 'e'] then some (.boolean false)
  else if isMoment word then some .moment
  else ((readReal word).map .real).or ((readInteger word).map .integer)

def readScalar (cs : List Char) : Option (Value × List Char) :=
  let (word, rest) := spanWord cs
  (readWord word).map fun v => (v, rest)

section Items

variable {α : Type} (readItem : List Char → Option (α × List Char)) (close : Char)

/-- Reads at most `limit` items with commas between them, and the character that closes the list. A
comma may also stand after the last item. -/
def readItems : (limit : Nat) → List Char → Option (List α × List Char)
  | 0, _ => none
  | limit + 1, cs => do
    let cs ← skipGap false cs
    if cs.head? = some close then return ([], cs.tail)
    else
      let (item, cs) ← readItem cs
      let cs ← skipGap false cs
      if cs.head? = some close then return ([item], cs.tail)
      else if cs.head? = some ',' then
        let (items, cs) ← readItems limit cs.tail
        return (item :: items, cs)
      else none

end Items

/-- Reads a pair: a key, the equals sign and a value. On both sides of the equals sign there may be
what `skip` passes over. -/
def readPairWith (skip : List Char → Option (List Char))
    (readValue : List Char → Option (Value × List Char)) (cs : List Char) :
    Option ((KeyPath × Value) × List Char) := do
  let (path, cs) ← readKeyPath keyLimit cs
  let cs ← skip cs
  if cs.head? = some '=' then
    let (value, cs) ← readValue (← skip cs.tail)
    return ((path, value), cs)
  else none

/-- Reads a value that nests up to a depth, in a text of `limit` characters. -/
def readValue (limit : Nat) : (depth : Nat) → List Char → Option (Value × List Char)
  | 0, cs => ((readQuoted cs).map (·.map .string id)).or (readScalar cs)
  | depth + 1, cs =>
    match cs with
    | '[' :: rest =>
      (readItems (readValue limit depth) ']' limit rest).map fun (items, rest) =>
        (.array items, rest)
    | '\x7b' :: rest => do
      let (pairs, rest) ←
        readItems (readPairWith (skipGap false) (readValue limit depth)) '\x7d' limit rest
      return (.table (← tableOfPairs pairs), rest)
    | cs => ((readQuoted cs).map (·.map .string id)).or (readScalar cs)

def readStatement (limit : Nat) (cs : List Char) : Option (Statement × List Char) :=
  match cs with
  | '[' :: '[' :: rest => do
    match ← readKeyPath keyLimit rest with
    | (path, ']' :: ']' :: rest) => return (.element path, rest)
    | _ => none
  | '[' :: rest => do
    match ← readKeyPath keyLimit rest with
    | (path, ']' :: rest) => return (.table path, rest)
    | _ => none
  | cs => do
    let ((path, value), rest) ← readPairWith (some ∘ skipBlanks) (readValue limit depthLimit) cs
    return (.pair path value, rest)

/-- Reads at most `count` statements, each on a line of its own, from where the first one begins. -/
def readStatements (limit : Nat) : (count : Nat) → List Char → Option (List Statement)
  | _, [] => some []
  | 0, _ => none
  | count + 1, cs => do
    let (statement, rest) ← readStatement limit cs
    return statement :: (← readStatements limit count (← finishLine rest))

def dropByteOrderMark : List Char → List Char
  | '\ufeff' :: rest => rest
  | cs => cs

def read (text : String) : Option Table := do
  let cs ← skipGap false (dropByteOrderMark text.toList)
  let statements ← readStatements text.length text.length cs
  documentOf statements

end PushDelivery.Toml

import PushDelivery.Json
import PushDelivery.Text

/-!
# Reading JSON text

A text is cut into tokens, from which the grammar builds a document.
-/

/-!
## Numbers in JSON text

A number written without point and exponent denotes an integer if a 64-bit word can hold it; a minus
sign makes the signed word the measure, and `-0` is the negative zero among the doubles. All other
numbers denote doubles. The digits are gathered into a 64-bit significand; from the first digit that
would overflow it, digits before the point only raise the power of ten and digits after it are
dropped. The significand is then scaled by that power of ten in rounded steps of at most `10 ^ 308`.
-/

namespace PushDelivery.Json

structure NumberText where
  negative : Bool
  whole : List Nat
  fraction : List Nat
  exponent : Option Int
  deriving DecidableEq

/-- The digits at the head of a text and what follows them. -/
def spanDigits : List Char → List Nat × List Char
  | [] => ([], [])
  | c :: rest =>
    match Numeral.decimalDigit? c with
    | some d => let (ds, rest') := spanDigits rest; (d :: ds, rest')
    | none => ([], c :: rest)

/-- Reads the exponent that follows its mark, to the end of the text. -/
def readExponent (cs : List Char) : Option Int :=
  let (negative, digits) := match cs with
    | '+' :: rest => (false, rest)
    | '-' :: rest => (true, rest)
    | rest => (false, rest)
  (Numeral.readDigits Numeral.decimalDigit? 10 digits).map fun n =>
    if negative then -(n : Int) else n

/-- Reads a whole text as a number: no leading zeros, and digits on both sides of a point. -/
def readNumberText (cs : List Char) : Option NumberText :=
  let (negative, cs) := match cs with
    | '-' :: rest => (true, rest)
    | rest => (false, rest)
  let (whole, cs) := spanDigits cs
  if whole = [] ∨ (whole.head? = some 0 ∧ whole.length ≠ 1) then none
  else
    let (pointed, fraction, cs) := match cs with
      | '.' :: rest => let (ds, rest') := spanDigits rest; (true, ds, rest')
      | rest => (false, [], rest)
    if pointed && fraction.isEmpty then none
    else match cs with
      | [] => some ⟨negative, whole, fraction, none⟩
      | c :: rest =>
        if c = 'e' ∨ c = 'E' then
          (readExponent rest).map fun e => ⟨negative, whole, fraction, some e⟩
        else none

/-- Appends digits to a significand as long as 64 bits hold it; also counts the digits taken. -/
def gather (significand : Nat) : List Nat → Nat × Nat
  | [] => (significand, 0)
  | d :: ds =>
    if significand * 10 + d < UInt64.size then
      let (s, taken) := gather (significand * 10 + d) ds
      (s, taken + 1)
    else (significand, 0)

def powerOfTen (n : Nat) : Binary64 := Binary64.ofNat (Nat.pow 10 n)

/-- Scales a double by a power of ten; fails when it leaves the finite range. -/
def scaleByTen (x : Binary64) (e : Int) : Option Binary64 :=
  if e.natAbs ≤ 308 then
    if 0 ≤ e then some (x.mul (powerOfTen e.toNat)) |>.filter (·.isFinite)
    else some (x.div (powerOfTen e.natAbs))
  else if x.isZero then some x
  else if 0 ≤ e then none
  else scaleByTen (x.div (powerOfTen 308)) (e + 308)
termination_by e.natAbs
decreasing_by omega

/-- The double that a number text denotes, unless it is beyond the finite range. -/
def NumberText.toBinary64? (t : NumberText) : Option Binary64 :=
  let (s, taken) := gather 0 t.whole
  let (s', taken') := gather s t.fraction
  let point : Int := (t.whole.length - taken : Nat) - (taken' : Nat)
  (scaleByTen (Binary64.ofNat s') (point + t.exponent.getD 0)).map fun x =>
    if t.negative then x.negate else x

/-- The number that a number text denotes, unless it is beyond the finite range. -/
def NumberText.toNumber? (t : NumberText) : Option Number :=
  let real := t.toBinary64?.bind Number.ofBinary64?
  if t.fraction.isEmpty && t.exponent.isNone then
    let n := Numeral.valueOf 10 t.whole
    if t.negative then
      if n = 0 then real else (Number.ofInt? (-(n : Int))).or real
    else (Number.ofInt? n).or real
  else real

end PushDelivery.Json

/-!
## Tokens of JSON text

The lexer cuts a text into tokens. A run of letters, digits, signs and points is one word, which is
a literal, a number or an error. A string is an error if it is not closed, holds a raw control
character or an unknown escape; a lone surrogate only deprives it of its value.
-/

namespace PushDelivery.Json

inductive Token where
  | openArray
  | closeArray
  | openObject
  | closeObject
  | comma
  | colon
  | null
  | bool (value : Bool)
  | number (value : Option Number)
  | string (value : Option String)
  deriving DecidableEq

/-- The four blank characters that may stand between tokens. -/
def isBlank (c : Char) : Bool := c = ' ' ∨ c = '\t' ∨ c = '\n' ∨ c = '\r'

/-- The characters of which literals and numbers are made. -/
def isWordChar (c : Char) : Bool :=
  c.isAlphanum ∨ c = '+' ∨ c = '-' ∨ c = '.'

def Token.ofWord? (cs : List Char) : Option Token :=
  if cs = ['n', 'u', 'l', 'l'] then some .null
  else if cs = ['t', 'r', 'u', 'e'] then some (.bool true)
  else if cs = ['f', 'a', 'l', 's', 'e'] then some (.bool false)
  else (readNumberText cs).map fun t => .number t.toNumber?

/-- The character of a one-letter escape. -/
def simpleEscape? (c : Char) : Option Char :=
  if c = '"' then some '"'
  else if c = '\\' then some '\\'
  else if c = '/' then some '/'
  else if c = 'b' then some '\x08'
  else if c = 'f' then some '\x0c'
  else if c = 'n' then some '\n'
  else if c = 'r' then some '\r'
  else if c = 't' then some '\t'
  else none

def hexUnit? (a b c d : Char) : Option Nat := do
  let a ← Numeral.hexDigit? a
  let b ← Numeral.hexDigit? b
  let c ← Numeral.hexDigit? c
  let d ← Numeral.hexDigit? d
  return ((a * 16 + b) * 16 + c) * 16 + d

def isHighSurrogate (u : Nat) : Bool := 0xD800 ≤ u ∧ u < 0xDC00

def isLowSurrogate (u : Nat) : Bool := 0xDC00 ≤ u ∧ u < 0xE000

def pairChar (high low : Nat) : Char :=
  Char.ofNat (0x10000 + (high - 0xD800) * 0x400 + (low - 0xDC00))

/-- A part of a string: a character, or the code unit that an escape names by its number. -/
inductive Piece where
  | char (c : Char)
  | unit (u : Nat)
  deriving DecidableEq

/-- Reads a string up to its closing quote and gives what follows it. -/
def scanString : List Char → Option (List Piece × List Char)
  | [] => none
  | '"' :: rest => some ([], rest)
  | '\\' :: 'u' :: a :: b :: c :: d :: rest => do
    let u ← hexUnit? a b c d
    let (pieces, rest) ← scanString rest
    return (.unit u :: pieces, rest)
  | '\\' :: c :: rest => do
    let c ← simpleEscape? c
    let (pieces, rest) ← scanString rest
    return (.char c :: pieces, rest)
  | c :: rest =>
    if c = '\\' ∨ c.toNat < 0x20 then none
    else do
      let (pieces, rest) ← scanString rest
      return (.char c :: pieces, rest)

/-- A string takes at least its closing quote. -/
theorem length_of_scanString {cs rest : List Char} {pieces : List Piece}
    (h : scanString cs = some (pieces, rest)) : rest.length < cs.length := by
  fun_induction scanString cs generalizing pieces rest <;>
    simp_all [Option.bind_eq_some_iff, bind] <;> grind

/-- The characters of a string. Two units that are halves of one surrogate pair make one character,
and a half without its other half makes the string worthless. -/
def joinPieces : List Piece → Option (List Char)
  | [] => some []
  | .char c :: rest => (joinPieces rest).map (c :: ·)
  | .unit u :: rest =>
    if isHighSurrogate u then
      match rest with
      | .unit l :: rest =>
        if isLowSurrogate l then (joinPieces rest).map (pairChar u l :: ·) else none
      | _ => none
    else if isLowSurrogate u then none
    else (joinPieces rest).map (Char.ofNat u :: ·)

/-- The tokens of a text, or nothing if some part of it is no token. -/
def tokens : List Char → Option (List Token)
  | [] => some []
  | c :: rest =>
    if isBlank c then tokens rest
    else if c = '[' then (tokens rest).map (.openArray :: ·)
    else if c = ']' then (tokens rest).map (.closeArray :: ·)
    else if c = '\x7b' then (tokens rest).map (.openObject :: ·)
    else if c = '\x7d' then (tokens rest).map (.closeObject :: ·)
    else if c = ',' then (tokens rest).map (.comma :: ·)
    else if c = ':' then (tokens rest).map (.colon :: ·)
    else if c = '"' then
      match _h : scanString rest with
      | none => none
      | some (pieces, rest') =>
        (tokens rest').map (.string ((joinPieces pieces).map String.ofList) :: ·)
    else if isWordChar c then do
      let t ← Token.ofWord? (c :: rest.takeWhile isWordChar)
      let ts ← tokens (rest.dropWhile isWordChar)
      return t :: ts
    else none
termination_by cs => cs.length
decreasing_by
  all_goals first
    | exact Nat.lt_succ_self _
    | exact Nat.lt_succ_of_lt (length_of_scanString _h)
    | exact Nat.lt_succ_of_le (List.dropWhile_sublist _).length_le

end PushDelivery.Json

/-!
## The grammar

The grammar is a machine over tokens with a stack of the arrays and objects that are open. It reads
a text into a document; how deep a value may nest is decided when the document is given a value.
-/

namespace PushDelivery.Json

/-- An array or object whose end has not come, with its parts so far in reverse. An object keeps the
name of the member whose value is being read. -/
inductive Frame where
  | array (items : List Document)
  | object (members : List (Option String × Document)) (name : Option String)

/-- What may come next. -/
inductive Phase where
  /-- A value. -/
  | value
  /-- A value, or the end of the array just opened. -/
  | firstItem
  /-- A name, or the end of the object just opened. -/
  | firstName
  /-- A name. -/
  | name
  /-- The colon after a name. -/
  | colon
  /-- A comma, or the end of the innermost array or object. -/
  | separator
  /-- Nothing: the text's one value is complete. -/
  | complete (value : Document)

structure Reader where
  stack : List Frame
  phase : Phase

namespace Reader

def start : Reader := ⟨[], .value⟩

/-- Puts a complete value into the innermost open array or object. -/
def deliver (stack : List Frame) (v : Document) : Reader :=
  match stack with
  | [] => ⟨[], .complete v⟩
  | .array items :: outer => ⟨.array (v :: items) :: outer, .separator⟩
  | .object members name :: outer => ⟨.object ((name, v) :: members) none :: outer, .separator⟩

def beginValue (stack : List Frame) : Token → Option Reader
  | .null => some (deliver stack .null)
  | .bool b => some (deliver stack (.bool b))
  | .number n => some (deliver stack (.number n))
  | .string s => some (deliver stack (.string s))
  | .openArray => some ⟨.array [] :: stack, .firstItem⟩
  | .openObject => some ⟨.object [] none :: stack, .firstName⟩
  | _ => none

def step (r : Reader) (t : Token) : Option Reader :=
  match r.phase, r.stack, t with
  | .value, stack, t => beginValue stack t
  | .firstItem, .array items :: outer, .closeArray => some (deliver outer (.array items.reverse))
  | .firstItem, stack, t => beginValue stack t
  | .firstName, .object members _ :: outer, .closeObject =>
    some (deliver outer (.object members.reverse))
  | .firstName, .object members _ :: outer, .string s => some ⟨.object members s :: outer, .colon⟩
  | .name, .object members _ :: outer, .string s => some ⟨.object members s :: outer, .colon⟩
  | .colon, stack, .colon => some ⟨stack, .value⟩
  | .separator, .array items :: outer, .comma => some ⟨.array items :: outer, .value⟩
  | .separator, .array items :: outer, .closeArray => some (deliver outer (.array items.reverse))
  | .separator, .object members n :: outer, .comma => some ⟨.object members n :: outer, .name⟩
  | .separator, .object members _ :: outer, .closeObject =>
    some (deliver outer (.object members.reverse))
  | _, _, _ => none

def steps (r : Reader) : List Token → Option Reader
  | [] => some r
  | t :: ts => (r.step t).bind fun r' => r'.steps ts

/-- The value of a text that has been read to its end. -/
def result? (r : Reader) : Option Document :=
  match r.phase with
  | .complete v => some v
  | _ => none

end Reader

/-- The depth to which arrays and objects of one text may nest. -/
def depthLimit : Nat := 127

/-- Reads a text that holds exactly one JSON value. -/
def readDocument (s : String) : Option Document := do
  let ts ← tokens s.toList
  let r ← Reader.start.steps ts
  r.result?

/-- Reads a text as a value, with less than `levels` texts embedded in one another. -/
def readWithin : (levels : Nat) → String → Option Json
  | 0, _ => none
  | levels + 1, s => (readDocument s).bind (·.value? (readWithin levels) depthLimit)

/-- Reads a text as a value. A text is longer than each text that it embeds, so its length bounds
how many can be embedded in one another. -/
def read (s : String) : Option Json := readWithin (s.length + 1) s

end PushDelivery.Json

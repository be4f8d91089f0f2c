import PushDelivery.Binary64
import PushDelivery.Text

/-!
# Numbers, dates and times in TOML

The values that TOML writes without quotes or brackets, and the blanks between them.
-/

/-!
## Blanks, line ends and comments in TOML

Spaces and tabs separate the parts of a statement. A line ends with a line feed, alone or after a
carriage return; a carriage return by itself belongs nowhere. A comment runs to the end of its line
and, like every text, holds no control character but the tab.
-/

namespace PushDelivery.Toml

def isBlank (c : Char) : Bool := c = ' ' ∨ c = '\t'

/-- The characters that may stand in a comment, or in a text as themselves. -/
def isPlain (c : Char) : Bool := c = '\t' ∨ (' ' ≤ c ∧ c ≠ '\x7f')

def skipBlanks (cs : List Char) : List Char := cs.dropWhile isBlank

/-- What follows the blanks, line ends and comments at the head of a text, the first of which may be
a comment that has begun; fails if a comment holds a forbidden character. -/
def skipGap (inComment : Bool) : List Char → Option (List Char)
  | [] => some []
  | '\n' :: rest => skipGap false rest
  | '\r' :: '\n' :: rest => skipGap false rest
  | c :: rest =>
    if inComment then if isPlain c then skipGap true rest else none
    else if c = '#' then skipGap true rest
    else if isBlank c then skipGap false rest
    else some (c :: rest)

/-- What follows the rest of a line that holds nothing more than a comment, and the gap after it. -/
def finishLine (cs : List Char) : Option (List Char) :=
  match skipBlanks cs with
  | [] => some []
  | '#' :: rest => skipGap true rest
  | '\n' :: rest => skipGap false rest
  | '\r' :: '\n' :: rest => skipGap false rest
  | _ => none

end PushDelivery.Toml

/-!
## Dates and times in TOML

A date is written `YYYY-MM-DD`, a time `HH:MM`, `HH:MM:SS` or `HH:MM:SS.fraction`. A `T` or one
space joins the two, and a time that follows a date may state its offset as `Z` or as a signed
`HH:MM`. The date must exist in the Gregorian calendar; a minute may have a sixtieth second.
-/

namespace PushDelivery.Toml

def readPair : List Char → Option (Nat × List Char)
  | a :: b :: rest => do
    let a ← Numeral.decimalDigit? a
    let b ← Numeral.decimalDigit? b
    return (a * 10 + b, rest)
  | _ => none

/-- What follows a character that must stand at the head of a text. -/
def skipChar (c : Char) : List Char → Option (List Char)
  | d :: rest => if c = d then some rest else none
  | [] => none

def isLeapYear (year : Nat) : Bool := year % 4 = 0 ∧ (year % 100 ≠ 0 ∨ year % 400 = 0)

def daysIn (year month : Nat) : Nat :=
  if month = 2 then if isLeapYear year then 29 else 28
  else if month = 4 ∨ month = 6 ∨ month = 9 ∨ month = 11 then 30
  else 31

def skipDate (cs : List Char) : Option (List Char) := do
  let (century, cs) ← readPair cs
  let (year, cs) ← readPair cs
  let (month, cs) ← readPair (← skipChar '-' cs)
  let (day, cs) ← readPair (← skipChar '-' cs)
  if 1 ≤ month ∧ month ≤ 12 ∧ 1 ≤ day ∧ day ≤ daysIn (century * 100 + year) month then some cs
  else none

def skipHourMinute (cs : List Char) : Option (List Char) := do
  let (hour, cs) ← readPair cs
  let (minute, cs) ← readPair (← skipChar ':' cs)
  if hour ≤ 23 ∧ minute ≤ 59 then some cs else none

def skipFraction (cs : List Char) : Option (List Char) :=
  let isDigit := fun c => (Numeral.decimalDigit? c).isSome
  if (cs.head?.any isDigit) then some (cs.dropWhile isDigit) else none

def skipTime (cs : List Char) : Option (List Char) := do
  match ← skipHourMinute cs with
  | ':' :: cs =>
    let (second, cs) ← readPair cs
    if 60 < second then none
    else match cs with
      | '.' :: cs => skipFraction cs
      | cs => some cs
  | cs => some cs

/-- Whether a text is an offset, or empty. -/
def isOffset : List Char → Bool
  | [] => true
  | c :: cs =>
    if c = 'Z' ∨ c = 'z' then cs.isEmpty
    else (c = '+' ∨ c = '-') && skipHourMinute cs = some []

/-- Whether a text is a date, a time, or both. -/
def isMoment (cs : List Char) : Bool :=
  match skipDate cs with
  | none => skipTime cs = some []
  | some [] => true
  | some (c :: cs) => (c = 'T' ∨ c = 't' ∨ c = ' ') && (skipTime cs).any isOffset

end PushDelivery.Toml

/-!
## Numbers in TOML

An underscore in a number stands between two digits. Integers are decimal with an optional sign and
no leading zero, or unsigned in base sixteen, eight or two. A real number has a fraction, an
exponent or both, or is a named infinity or no number at all. Numbers of both kinds may have any
size; of a real number it is only found out whether it is within the range of doubles.

A text is told to be an integer by its form alone, and the form is wider than the numerals: there
may be no digit after the mark of a base, and in a decimal integer anything may follow the first
underscore but a space and what marks a real number, as long as underscores stand between
hexadecimal digits. Such an integer is none.
-/

namespace PushDelivery.Toml

/-- Whether each underscore stands between two digits, given whether what comes before the text
counts as a digit. -/
def isGrouped (isDigit : Char → Bool) : (afterDigit : Bool) → List Char → Bool
  | _, [] => true
  | afterDigit, '_' :: rest => afterDigit && rest.head?.any isDigit && isGrouped isDigit false rest
  | _, c :: rest => isGrouped isDigit (isDigit c) rest

def ungrouped (cs : List Char) : List Char := cs.filter (· ≠ '_')

def digitBelow? (base : Nat) (c : Char) : Option Nat := (Numeral.hexDigit? c).filter (· < base)

def isDigitBelow (base : Nat) (c : Char) : Bool := (digitBelow? base c).isSome

/-- The natural number that digits denote, if they are digits of the base. -/
def groupedValue? (base : Nat) (cs : List Char) : Option Nat :=
  Numeral.readDigits (digitBelow? base) base (ungrouped cs)

def splitSign : List Char → Option Char × List Char
  | '-' :: rest => (some '-', rest)
  | '+' :: rest => (some '+', rest)
  | cs => (none, cs)

def withSign (sign : Option Char) (magnitude : Nat) : Int :=
  if sign = some '-' then -magnitude else magnitude

/-- Whether a text has the form of the digits of an integer with the mark of its base. -/
def hasBasedForm (base : Nat) (cs : List Char) : Bool :=
  (ungrouped cs).all (isDigitBelow base) && isGrouped (isDigitBelow base) false cs

/-- Whether a text has the form of a decimal integer without its sign. -/
def hasDecimalForm (cs : List Char) : Bool :=
  let (digits, rest) := cs.span (isDigitBelow 10)
  if rest.isEmpty then digits = ['0'] || (!digits.isEmpty && digits.head? ≠ some '0')
  else rest.head? = some '_' && digits.head? ≠ some '0'
    && rest.all (fun c => c ≠ ' ' ∧ c ≠ '.' ∧ c ≠ 'e' ∧ c ≠ 'E')
    && isGrouped (isDigitBelow 16) false cs

/-- Reads a whole text that has the form of an integer; the integer may be none. -/
def readInteger (cs : List Char) : Option (Option Int) :=
  let based (base : Nat) (cs : List Char) :=
    if hasBasedForm base cs then some ((groupedValue? base cs).map Int.ofNat) else none
  match cs with
  | '0' :: 'x' :: rest => based 16 rest
  | '0' :: 'o' :: rest => based 8 rest
  | '0' :: 'b' :: rest => based 2 rest
  | cs =>
    let (sign, cs) := splitSign cs
    if hasDecimalForm cs then some ((groupedValue? 10 cs).map (withSign sign)) else none

/-- Whether digits before a power of ten denote a number within the range of doubles. The power of
ten is formed only where the number of digits leaves this open. -/
def isInRange (digits : List Nat) (power : Int) : Bool :=
  let digits := digits.dropWhile (· = 0)
  let width : Int := digits.length + power
  if digits.isEmpty ∨ width ≤ 308 then true
  else if 309 < width then false
  else
    (Binary64.ofRatio false (Numeral.valueOf 10 digits * Nat.pow 10 power.toNat)
      (Nat.pow 10 (-power).toNat)).isFinite

/-- Reads the digits at the head of a text, at least one and any underscores among them. -/
def readDigitRun (cs : List Char) : Option (List Nat × List Char) := do
  let (run, rest) := cs.span fun c => isDigitBelow 10 c ∨ c = '_'
  let digits ← (ungrouped run).mapM Numeral.decimalDigit?
  if digits.isEmpty then none else some (digits, rest)

/-- Reads the exponent that is the rest of a real number, or nothing at all. -/
def readExponent : List Char → Option Int
  | [] => some 0
  | c :: cs => do
    if c = 'e' ∨ c = 'E' then
      let (sign, cs) := splitSign cs
      let (digits, rest) ← readDigitRun cs
      if rest.isEmpty then some (withSign sign (Numeral.valueOf 10 digits)) else none
    else none

/-- Reads a whole text without its sign as a real number in digits, and tells whether it is in
range. -/
def readDecimalReal (cs : List Char) : Option Bool := do
  let (whole, rest) ← readDigitRun cs
  let leadingZero : Bool := cs.head? = some '0' ∧ whole.length ≠ 1
  if leadingZero || !isGrouped (isDigitBelow 10) false cs then none
  else match rest with
    | '.' :: rest =>
      let (fraction, rest) ← readDigitRun rest
      return isInRange (whole ++ fraction) ((← readExponent rest) - fraction.length)
    | [] => none
    | rest => return isInRange whole (← readExponent rest)

/-- Reads a whole text as a real number, and tells whether it is in range. The infinities are. -/
def readReal (cs : List Char) : Option Bool :=
  let (_, cs) := splitSign cs
  if cs = ['i', 'n', 'f'] ∨ cs = ['n', 'a', 'n'] then some true else readDecimalReal cs

end PushDelivery.Toml

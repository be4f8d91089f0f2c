import Std.Data.ExtTreeMap

/-!
# Texts

Maps keyed by strings, numerals, blanks and comma lists, and Base64.
-/

/-!
## Maps keyed by strings

Device data, credentials and notification fields are finite maps from strings. The order of
insertion is not observable: two maps are equal exactly when they hold the same entries, and an
entry list is always in the order of the keys' code points, which is also the order of their bytes.
-/

namespace PushDelivery

/-- A finite map from strings, equal to another one exactly when both hold the same entries. -/
abbrev StringMap (α : Type u) := Std.ExtTreeMap String α

end PushDelivery

/-!
## Numerals

Positional numerals over a base of at most sixteen digits, their readers, and the signed decimal
numerals in which identifiers travel as text. A written numeral has no leading zero; a reader
takes any non-empty run of digits, so reading is more generous than writing.
-/

namespace PushDelivery.Numeral

/-- The digit of value `d`, for `d` below sixteen, in lower case. -/
def digitChar (d : Nat) : Char :=
  if d < 10 then Char.ofNat ('0'.toNat + d) else Char.ofNat ('a'.toNat + (d - 10))

/-- The value of a decimal digit; only the ten ASCII digits count. -/
def decimalDigit? (c : Char) : Option Nat :=
  if '0' ≤ c ∧ c ≤ '9' then some (c.toNat - '0'.toNat) else none

def hexDigit? (c : Char) : Option Nat :=
  if '0' ≤ c ∧ c ≤ '9' then some (c.toNat - '0'.toNat)
  else if 'a' ≤ c ∧ c ≤ 'f' then some (c.toNat - 'a'.toNat + 10)
  else if 'A' ≤ c ∧ c ≤ 'F' then some (c.toNat - 'A'.toNat + 10)
  else none

/-- The digits of `n` in a base of at least two, the most significant first. -/
def digits (base n : Nat) : List Nat :=
  if base < 2 ∨ n < base then [n] else digits base (n / base) ++ [n % base]
termination_by n
decreasing_by exact Nat.div_lt_self (by omega) (by omega)

def valueOf (base : Nat) (ds : List Nat) : Nat :=
  ds.foldl (fun acc d => acc * base + d) 0

def decimalDigits (n : Nat) : List Nat := digits 10 n

def decimal (n : Nat) : String := String.ofList ((decimalDigits n).map digitChar)

def hexadecimal (n : Nat) : String := String.ofList ((digits 16 n).map digitChar)

/-- The decimal numeral of an integer: a minus sign before a negative one, nothing before others. -/
def signedDecimal : Int → String
  | .ofNat n => decimal n
  | .negSucc n => "-" ++ decimal (n + 1)

/-- Reads a non-empty run of digits of the given base that spans the whole text. -/
def readDigits (digit? : Char → Option Nat) (base : Nat) : List Char → Option Nat
  | [] => none
  | cs => (cs.mapM digit?).map (valueOf base)

/-- Reads a natural number: an optional plus sign, then decimal digits and nothing else. -/
def readNatural (s : String) : Option Nat :=
  match s.toList with
  | '+' :: rest => readDigits decimalDigit? 10 rest
  | cs => readDigits decimalDigit? 10 cs

/-- Reads an integer: an optional sign, then decimal digits and nothing else. -/
def readInteger (s : String) : Option Int :=
  match s.toList with
  | '+' :: rest => (readDigits decimalDigit? 10 rest).map Int.ofNat
  | '-' :: rest => (readDigits decimalDigit? 10 rest).map (fun n => -Int.ofNat n)
  | cs => (readDigits decimalDigit? 10 cs).map Int.ofNat

/-- Reads an integer that fits a signed 64-bit word. -/
def readInt64 (s : String) : Option Int64 :=
  (readInteger s).bind fun n =>
    if -0x8000000000000000 ≤ n ∧ n < 0x8000000000000000 then some (Int64.ofInt n) else none

def readBelow (limit : Nat) (s : String) : Option Nat :=
  (readNatural s).filter (· < limit)

end PushDelivery.Numeral

/-!
## Blanks and comma lists

The white space of Unicode, trimming, and lists written as one text with commas. A comma list is
normalised when it is read: entries are trimmed and empty ones dropped.
-/

namespace PushDelivery.Text

/-- Whether a character has the Unicode property White_Space. -/
def isBlank (c : Char) : Bool :=
  let n := c.toNat
  (0x9 ≤ n && n ≤ 0xD) || n = 0x20 || n = 0x85 || n = 0xA0 || n = 0x1680
    || (0x2000 ≤ n && n ≤ 0x200A) || n = 0x2028 || n = 0x2029 || n = 0x202F || n = 0x205F
    || n = 0x3000

/-- A text without the blanks at its two ends. -/
def trim (cs : List Char) : List Char :=
  ((cs.dropWhile isBlank).reverse.dropWhile isBlank).reverse

/-- The segments between commas; a text without a comma is one segment. -/
def splitCommas : List Char → List (List Char)
  | [] => [[]]
  | c :: rest =>
    if c = ',' then [] :: splitCommas rest
    else match splitCommas rest with
      | [] => [[c]]
      | segment :: segments => (c :: segment) :: segments

/-- The entries of a comma list: its segments, trimmed, without the empty ones. -/
def commaList (s : String) : List String :=
  ((splitCommas s.toList).map trim |>.filter (!·.isEmpty)).map String.ofList

end PushDelivery.Text

/-!
## Base64 for URLs

Octets in the padded alphabet that is safe in URLs: three octets make four sextets, and a shorter
last group is filled up with equals signs.
-/

namespace PushDelivery.Base64

def sextetChar (n : Nat) : Char :=
  if n < 26 then Char.ofNat ('A'.toNat + n)
  else if n < 52 then Char.ofNat ('a'.toNat + (n - 26))
  else if n < 62 then Char.ofNat ('0'.toNat + (n - 52))
  else if n = 62 then '-'
  else '_'

def sextet? (c : Char) : Option Nat :=
  if 'A' ≤ c ∧ c ≤ 'Z' then some (c.toNat - 'A'.toNat)
  else if 'a' ≤ c ∧ c ≤ 'z' then some (c.toNat - 'a'.toNat + 26)
  else if '0' ≤ c ∧ c ≤ '9' then some (c.toNat - '0'.toNat + 52)
  else if c = '-' then some 62
  else if c = '_' then some 63
  else none

def encode : List UInt8 → List Char
  | [] => []
  | [a] =>
    let n := a.toNat * 16
    [sextetChar (n / 64), sextetChar (n % 64), '=', '=']
  | [a, b] =>
    let n := (a.toNat * 256 + b.toNat) * 4
    [sextetChar (n / 4096), sextetChar (n / 64 % 64), sextetChar (n % 64), '=']
  | a :: b :: c :: rest =>
    let n := (a.toNat * 256 + b.toNat) * 256 + c.toNat
    sextetChar (n / 262144) :: sextetChar (n / 4096 % 64) :: sextetChar (n / 64 % 64)
      :: sextetChar (n % 64) :: encode rest

/-- The octets of a text. The bits beyond the last octet must be zero. -/
def decode : List Char → Option (List UInt8)
  | [] => some []
  | [a, b, '=', '='] => do
    let n := (← sextet? a) * 64 + (← sextet? b)
    if n % 16 = 0 then return [UInt8.ofNat (n / 16)] else none
  | [a, b, c, '='] => do
    let n := ((← sextet? a) * 64 + (← sextet? b)) * 64 + (← sextet? c)
    if n % 4 = 0 then return [UInt8.ofNat (n / 1024), UInt8.ofNat (n / 4)] else none
  | a :: b :: c :: d :: rest => do
    let n := (((← sextet? a) * 64 + (← sextet? b)) * 64 + (← sextet? c)) * 64 + (← sextet? d)
    let octets ← decode rest
    return UInt8.ofNat (n / 65536) :: UInt8.ofNat (n / 256) :: UInt8.ofNat n :: octets
  | _ => none

end PushDelivery.Base64

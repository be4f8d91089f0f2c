import PushDelivery.Binary64
import PushDelivery.Text

/-!
# JSON values

The values that requests carry. A number is an integer when it was written as one and fits a signed
or an unsigned 64-bit word; every other number is a finite double. The members of an object are
listed in the order of their names, each name once, when `canonicalMembers` built the list.
-/

namespace PushDelivery

inductive Json.Number where
  | integer (value : Int) (lower : -0x8000000000000000 ≤ value)
      (upper : value < 0x10000000000000000)
  | real (value : Binary64) (finite : value.isFinite = true)
  deriving DecidableEq

inductive Json where
  | null
  | bool (value : Bool)
  | number (value : Json.Number)
  | string (value : String)
  | array (items : List Json)
  | object (members : List (String × Json))
  deriving Inhabited

namespace Json

/-- The number for an integer, if one of the two words can hold it. -/
def Number.ofInt? (n : Int) : Option Number :=
  if h : -0x8000000000000000 ≤ n ∧ n < 0x10000000000000000 then some (.integer n h.1 h.2) else none

def Number.ofBinary64? (x : Binary64) : Option Number :=
  if h : x.isFinite = true then some (.real x h) else none

def Number.ofInt64 (n : Int64) : Number :=
  .integer n.toInt (Int64.le_toInt n) (by have := Int64.toInt_lt n; omega)

def ofInt64 (n : Int64) : Json := .number (.ofInt64 n)

mutual

/-- How deep arrays and objects nest in a value. -/
def depth : Json → Nat
  | .array items => itemsDepth items + 1
  | .object members => membersDepth members + 1
  | _ => 0

def itemsDepth : List Json → Nat
  | [] => 0
  | v :: rest => max v.depth (itemsDepth rest)

def membersDepth : List (String × Json) → Nat
  | [] => 0
  | (_, v) :: rest => max v.depth (membersDepth rest)

end

/-- Members in the order of their names; of several members with one name the last stays. -/
def canonicalMembers {α : Type} (members : List (String × α)) : List (String × α) :=
  (Std.ExtTreeMap.ofList members : StringMap α).toList

def ofMap (entries : StringMap Json) : Json := .object entries.toList

/-- The object whose members are strings. -/
def ofTextMap (entries : StringMap String) : Json :=
  .object (entries.toList.map fun (name, text) => (name, .string text))

/-- The string, or null in its absence. -/
def ofOptionalText : Option String → Json
  | none => .null
  | some text => .string text

end Json

end PushDelivery

/-!
## Compact JSON text

A value is written without blanks, members in the order in which they are listed. In strings only
the quote, the reverse solidus and the characters below the space are escaped; everything else
stands for itself.
-/

namespace PushDelivery.Json

/-- A character as it stands inside a string. -/
def escapeChar (c : Char) : List Char :=
  if c = '"' then ['\\', '"']
  else if c = '\\' then ['\\', '\\']
  else if c = '\x08' then ['\\', 'b']
  else if c = '\t' then ['\\', 't']
  else if c = '\n' then ['\\', 'n']
  else if c = '\x0c' then ['\\', 'f']
  else if c = '\r' then ['\\', 'r']
  else if c.toNat < 0x20 then
    ['\\', 'u', '0', '0', Numeral.digitChar (c.toNat / 16), Numeral.digitChar (c.toNat % 16)]
  else [c]

def quotedChars (s : String) : List Char :=
  '"' :: s.toList.flatMap escapeChar ++ ['"']

def Number.text : Number → String
  | .integer n _ _ => Numeral.signedDecimal n
  | .real x _ => Binary64.Layout.json.text x

mutual

/-- The characters of a value's text. -/
def chars : Json → List Char
  | .null => ['n', 'u', 'l', 'l']
  | .bool true => ['t', 'r', 'u', 'e']
  | .bool false => ['f', 'a', 'l', 's', 'e']
  | .number n => n.text.toList
  | .string s => quotedChars s
  | .array items => '[' :: itemChars items ++ [']']
  | .object members => '\x7b' :: memberChars members ++ ['\x7d']

def itemChars : List Json → List Char
  | [] => []
  | [v] => v.chars
  | v :: rest => v.chars ++ ',' :: itemChars rest

def memberChars : List (String × Json) → List Char
  | [] => []
  | [(name, v)] => quotedChars name ++ ':' :: v.chars
  | (name, v) :: rest => quotedChars name ++ ':' :: v.chars ++ ',' :: memberChars rest

end

/-- The compact text of a value. -/
def text (v : Json) : String := String.ofList v.chars

end PushDelivery.Json

/-!
## JSON documents

A document is a JSON text as it was written: members keep their order and their repetitions, and a
leaf without a value stays in place, because a reader that skips a member never looks at it. Such
leaves are numbers beyond the range of doubles and strings with a lone surrogate. `Document.value?`
gives the value of a document whose every leaf has one.

An object may stand for a value whose text it embeds as a string. Its first member tells it apart by
a reserved name, and there must then be no other member.
-/

namespace PushDelivery

/-- A JSON text as a tree; `none` marks a leaf or a name that denotes no value. -/
inductive Document where
  | null
  | bool (value : Bool)
  | number (value : Option Json.Number)
  | string (value : Option String)
  | array (items : List Document)
  | object (members : List (Option String × Document))
  deriving Inhabited

namespace Document

/-- The reserved name of the member that embeds the text of a value. -/
def embeddedName : String := "$serde_json::private::RawValue"

/-- Whether an object with these members embeds the text of a value. -/
def embedsText : List (Option String × Document) → Bool
  | (name, _) :: _ => name = some embeddedName
  | [] => false

/-- The string that is the only member of an object. -/
def onlyText? : List (Option String × Document) → Option String
  | [(_, .string s)] => s
  | _ => none

section Values

variable (readText : String → Option Json)

mutual

/-- The value of a document, if every leaf has one and arrays and objects nest at most `room` deep.
Embedded texts are read by a reader of their own. -/
def value? : Document → Nat → Option Json
  | .null, _ => some .null
  | .bool b, _ => some (.bool b)
  | .number n, _ => n.map .number
  | .string s, _ => s.map .string
  | .array _, 0 => none
  | .array items, room + 1 => (itemValues? items room).map .array
  | .object _, 0 => none
  | .object members, room + 1 =>
    if embedsText members then (onlyText? members).bind readText
    else (memberValues? members room).map fun ms => .object (Json.canonicalMembers ms)

def itemValues? : List Document → Nat → Option (List Json)
  | [], _ => some []
  | d :: rest, room => do
    let v ← d.value? room
    let vs ← itemValues? rest room
    return v :: vs

def memberValues? : List (Option String × Document) → Nat → Option (List (String × Json))
  | [], _ => some []
  | (name, d) :: rest, room => do
    let name ← name
    let v ← d.value? room
    let vs ← memberValues? rest room
    return (name, v) :: vs

end

end Values

mutual

/-- The document that shows a value. -/
def ofJson : Json → Document
  | .null => .null
  | .bool b => .bool b
  | .number n => .number (some n)
  | .string s => .string (some s)
  | .array items => .array (ofItems items)
  | .object members => .object (ofMembers members)

def ofItems : List Json → List Document
  | [] => []
  | v :: rest => ofJson v :: ofItems rest

def ofMembers : List (String × Json) → List (Option String × Document)
  | [] => []
  | (name, v) :: rest => (some name, ofJson v) :: ofMembers rest

end

end Document

end PushDelivery

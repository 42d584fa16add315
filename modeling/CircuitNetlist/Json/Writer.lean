import CircuitNetlist.Json.Basic

/-!
# Writing JSON

There are two styles: compact text without blanks, and pretty text with one item a line,
indented by two blanks a level. Strings escape the quote, the backslash and the control
characters below the blank, and nothing else.
-/
namespace CircuitNetlist.Json

inductive Style where
  | compact
  | pretty
deriving DecidableEq, Repr

/-- Doubles are positional from `1e-5` up to `1e16`, else they have a signed exponent. -/
def numberLayout : Layout where
  plainFrom := -5
  plainBelow := 16
  signedExponent := true
  tie := .toEven

def hexDigit (n : Nat) : Char :=
  Nat.digitChar n

/-- How a character stands inside a string. -/
def escape (c : Char) : List Char :=
  if c = '"' then ['\\', '"']
  else if c = '\\' then ['\\', '\\']
  else if c = '\x08' then ['\\', 'b']
  else if c = '\x0c' then ['\\', 'f']
  else if c = '\n' then ['\\', 'n']
  else if c = '\r' then ['\\', 'r']
  else if c = '\t' then ['\\', 't']
  else if c.toNat < 0x20 then
    ['\\', 'u', '0', '0', hexDigit (c.toNat / 16), hexDigit (c.toNat % 16)]
  else [c]

/-- A quoted string; one without a text stays without. -/
def writeString : Option String → List Char
  | some text => '"' :: text.toList.flatMap escape ++ ['"']
  | none => ['"', '\\', 'u', 'd', '8', '0', '0', '"']

def writeNumber (n : JsonNumber) : List Char :=
  let sign := if n.numeral.negative then ['-'] else []
  let body :=
    if n.integral then Nat.toDigits 10 n.numeral.decimal.digits
    else if n.numeral.decimal.digits = 0 then ['0', '.', '0']
    else numberLayout.decimal n.numeral.decimal
  sign ++ body

/-- The line break before an item at the given depth. -/
def lineBreak (style : Style) (depth : Nat) : List Char :=
  match style with
  | .compact => []
  | .pretty => '\n' :: List.replicate (2 * depth) ' '

/-- What stands between a key and its value. -/
def colon : Style → List Char
  | .compact => [':']
  | .pretty => [':', ' ']

mutual

/-- The text of a value whose container is at the given depth. -/
def write (style : Style) (depth : Nat) : Json → List Char
  | .null => ['n', 'u', 'l', 'l']
  | .bool true => ['t', 'r', 'u', 'e']
  | .bool false => ['f', 'a', 'l', 's', 'e']
  | .number n => writeNumber n
  | .string text => writeString text
  | .array [] => ['[', ']']
  | .array (item :: items) =>
    '[' :: (lineBreak style (depth + 1) ++ write style (depth + 1) item
      ++ writeItems style (depth + 1) items ++ lineBreak style depth ++ [']'])
  | .object [] => ['\x7b', '\x7d']
  | .object ((key, value) :: fields) =>
    '\x7b' :: (lineBreak style (depth + 1) ++ writeString key ++ colon style
      ++ write style (depth + 1) value ++ writeFields style (depth + 1) fields
      ++ lineBreak style depth ++ ['\x7d'])

/-- The items after the first. -/
def writeItems (style : Style) (depth : Nat) : List Json → List Char
  | [] => []
  | item :: items =>
    ',' :: (lineBreak style depth ++ write style depth item ++ writeItems style depth items)

/-- The fields after the first. -/
def writeFields (style : Style) (depth : Nat) : List (Option String × Json) → List Char
  | [] => []
  | (key, value) :: fields =>
    ',' :: (lineBreak style depth ++ writeString key ++ colon style ++ write style depth value
      ++ writeFields style depth fields)

end

def compactText (j : Json) : String :=
  String.ofList (j.write .compact 0)

def prettyText (j : Json) : String :=
  String.ofList (j.write .pretty 0)

end CircuitNetlist.Json

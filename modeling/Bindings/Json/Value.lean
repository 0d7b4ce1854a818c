import Bindings.Text.Loose
import Bindings.Text.Quoted

/-!
# Structured values and their text

Values of the data format of options, documentation and manifests. Members of an object
keep their order. Texts are written in ASCII, every other character as an escape of one or
two 16-bit units. A text may hold half of such a pair of units.
-/

namespace Bindings.Json

/-- A value. A number that is not an integer is kept as it was written. -/
inductive Value
  | null
  | bool (b : Bool)
  | integer (n : Int)
  | real (text : String)
  | string (s : LooseText)
  | array (items : List Value)
  | object (members : List (LooseText × Value))
  deriving Inhabited

namespace Value

/-! ## Parts -/

/-- The member of an object that has the given name. -/
def member? (name : String) : Value → Option Value
  | object members => members.lookup (.ofString name)
  | _ => none

/-- The text of a text value. -/
def text? : Value → Option LooseText
  | string s => some s
  | _ => none

/-- The truth value of a logical value. -/
def bool? : Value → Option Bool
  | bool b => some b
  | _ => none

/-- The number of an integer value. -/
def integer? : Value → Option Int
  | integer n => some n
  | _ => none

/-- The items of an array. -/
def items : Value → List Value
  | array items => items
  | _ => []

/-- The members of an object. -/
def members : Value → List (LooseText × Value)
  | object members => members
  | _ => []

end Value

/-! ## Writing -/

/-- The escape of a 16-bit unit. -/
def unitEscape (n : Nat) : List Char := '\\' :: 'u' :: Text.hexDigits 4 n

/-- A character as it stands in a written text. -/
def writtenChar (c : Char) : List Char :=
  if c = '"' || c = '\\' then ['\\', c]
  else if c = '\n' then ['\\', 'n']
  else if c = '\r' then ['\\', 'r']
  else if c = '\t' then ['\\', 't']
  else if c.toNat = 0xc then ['\\', 'f']
  else if c.toNat = 0x8 then ['\\', 'b']
  else if 0x20 ≤ c.toNat ∧ c.toNat ≤ 0x7e then [c]
  else if c.toNat < 0x10000 then unitEscape c.toNat
  else
    unitEscape (0xd800 + (c.toNat - 0x10000) / 0x400)
      ++ unitEscape (0xdc00 + (c.toNat - 0x10000) % 0x400)

/-- A sign as it stands in a written text. -/
def writtenSign : Sign → List Char
  | .char c => writtenChar c
  | .half offset => unitEscape (Sign.firstHalf + offset.val)

/-- A text between double quotes. -/
def writtenText (t : LooseText) : String :=
  String.ofList ('"' :: t.signs.flatMap writtenSign ++ ['"'])

mutual

/-- A value on one line. -/
def Value.compact : Value → String
  | .null => "null"
  | .bool b => if b then "true" else "false"
  | .integer n => Text.ofInt n
  | .real text => text
  | .string s => writtenText s
  | .array items => "[" ++ Text.join "," (compactItems items) ++ "]"
  | .object members => "\x7b" ++ Text.join "," (compactMembers members) ++ "\x7d"

/-- The items of an array, each on one line. -/
def compactItems : List Value → List String
  | [] => []
  | v :: rest => v.compact :: compactItems rest

/-- The members of an object, each on one line. -/
def compactMembers : List (LooseText × Value) → List String
  | [] => []
  | (name, v) :: rest => (writtenText name ++ ":" ++ v.compact) :: compactMembers rest

end

/-- The start of a line at a depth, two blanks for each level. -/
def lineStart (depth : Nat) : String := "\n" ++ Text.filling (2 * depth) 0

/-- Parts between brackets, each on a line of its own. -/
def bracketed (depth : Nat) (opening closing : String) (parts : List String) : String :=
  if parts.isEmpty then opening ++ closing
  else
    opening ++ lineStart (depth + 1) ++ Text.join ("," ++ lineStart (depth + 1)) parts
      ++ lineStart depth ++ closing

mutual

/-- A value with each item and each member on a line of its own. -/
def Value.indented (depth : Nat) : Value → String
  | .array items => bracketed depth "[" "]" (indentedItems depth items)
  | .object members => bracketed depth "\x7b" "\x7d" (indentedMembers depth members)
  | .null => "null"
  | .bool b => if b then "true" else "false"
  | .integer n => Text.ofInt n
  | .real text => text
  | .string s => writtenText s

/-- The items of an array at a depth. -/
def indentedItems (depth : Nat) : List Value → List String
  | [] => []
  | v :: rest => v.indented (depth + 1) :: indentedItems depth rest

/-- The members of an object at a depth. -/
def indentedMembers (depth : Nat) : List (LooseText × Value) → List String
  | [] => []
  | (name, v) :: rest =>
    (writtenText name ++ ": " ++ v.indented (depth + 1)) :: indentedMembers depth rest

end

end Bindings.Json

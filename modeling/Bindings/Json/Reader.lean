import Bindings.Json.Value
import Bindings.Numeral.Integer
import Bindings.Table

/-!
# Reading structured values

A reader for whole documents. It accepts the names `NaN`, `Infinity` and `-Infinity` as
numbers; of members with one name the last counts, at the place of the first. Half of a
surrogate pair that stands alone is kept as it is.
-/

namespace Bindings.Json

/-- The blanks between tokens. -/
def isSpace (c : Char) : Bool := c = ' ' || c = '\t' || c = '\n' || c = '\r'

/-- What follows the blanks at the start. -/
def skipSpace (cs : List Char) : List Char := cs.dropWhile isSpace

/-! ## Texts -/

/-- The value of four hexadecimal digits of the basic Latin alphabet. -/
def readUnit? : List Char → Option (Nat × List Char)
  | a :: b :: c :: d :: rest =>
    let digits := [a, b, c, d]
    if digits.all fun x => x.toNat < 128 then
      (digits.mapM Numeral.hexValue?).map fun values => (Text.ofDigits 16 values, rest)
    else none
  | _ => none

/-- The sign that a unit and the text after it begin with. -/
def joinUnits (unit : Nat) (rest : List Char) : Sign × List Char :=
  if 0xd800 ≤ unit ∧ unit < 0xdc00 then
    match rest with
    | '\\' :: 'u' :: after =>
      match readUnit? after with
      | some (low, after) =>
        if 0xdc00 ≤ low ∧ low < 0xe000 then
          (.char (Char.ofNat (0x10000 + (unit - 0xd800) * 0x400 + (low - 0xdc00))), after)
        else (.ofUnit unit, rest)
      | none => (.ofUnit unit, rest)
    | _ => (.ofUnit unit, rest)
  else (.ofUnit unit, rest)

/-- The character that an escape letter stands for. -/
def escaped? : Char → Option Char
  | '"' => some '"'
  | '\\' => some '\\'
  | '/' => some '/'
  | 'b' => some (Char.ofNat 8)
  | 'f' => some (Char.ofNat 12)
  | 'n' => some '\n'
  | 'r' => some '\r'
  | 't' => some '\t'
  | _ => none

/-- The rest of a text up to its closing quote. -/
def readText? : Nat → List Char → Option (List Sign × List Char)
  | 0, _ => none
  | _ + 1, [] => none
  | _ + 1, '"' :: rest => some ([], rest)
  | fuel + 1, '\\' :: 'u' :: rest => do
    let (unit, rest) ← readUnit? rest
    let (sign, rest) := joinUnits unit rest
    let (text, rest) ← readText? fuel rest
    return (sign :: text, rest)
  | fuel + 1, '\\' :: letter :: rest => do
    let c ← escaped? letter
    let (text, rest) ← readText? fuel rest
    return (.char c :: text, rest)
  | fuel + 1, c :: rest => do
    if c.toNat < 0x20 || c = '\\' then failure
    let (text, rest) ← readText? fuel rest
    return (.char c :: text, rest)

/-! ## Numbers -/

/-- A digit of the basic Latin alphabet. -/
def isPlainDigit (c : Char) : Bool := '0' ≤ c && c ≤ '9'

/-- The fraction that may follow the digits of a number. -/
def readFraction : List Char → List Char × List Char
  | '.' :: c :: rest =>
    if isPlainDigit c then
      ('.' :: c :: rest.takeWhile isPlainDigit, rest.dropWhile isPlainDigit)
    else ([], '.' :: c :: rest)
  | cs => ([], cs)

/-- The exponent that may follow the digits of a number. -/
def readExponent (cs : List Char) : List Char × List Char :=
  match cs with
  | mark :: rest =>
    if mark = 'e' || mark = 'E' then
      let (sign, digits) : List Char × List Char := match rest with
        | '+' :: digits => (['+'], digits)
        | '-' :: digits => (['-'], digits)
        | digits => ([], digits)
      if (digits.takeWhile isPlainDigit).isEmpty then ([], cs)
      else (mark :: sign ++ digits.takeWhile isPlainDigit, digits.dropWhile isPlainDigit)
    else ([], cs)
  | [] => ([], [])

/-- The digits before the point: a lone zero, or digits that do not begin with one. -/
def readWhole? : List Char → Option (List Char × List Char)
  | '0' :: rest => some (['0'], rest)
  | cs =>
    if (cs.takeWhile isPlainDigit).isEmpty then none
    else some (cs.takeWhile isPlainDigit, cs.dropWhile isPlainDigit)

/-- A number, its sign apart. -/
def readNumber? (negative : Bool) (cs : List Char) : Option (Value × List Char) := do
  let (whole, rest) ← readWhole? cs
  let (fraction, rest) := readFraction rest
  let (exponent, rest) := readExponent rest
  if fraction.isEmpty && exponent.isEmpty then
    let n : Int := Numeral.ofDecimalDigits whole
    return (.integer (if negative then -n else n), rest)
  else
    let text := whole ++ fraction ++ exponent
    return (.real (String.ofList (if negative then '-' :: text else text)), rest)

/-! ## Values -/

/-- What follows a word, if a row begins with it. -/
def after? (word : String) (cs : List Char) : Option (List Char) :=
  if word.toList.isPrefixOf cs then some (cs.drop word.toList.length) else none

/-- The fixed words and what they stand for. -/
def words : List (String × Value) := [
  ("null", .null), ("true", .bool true), ("false", .bool false), ("NaN", .real "NaN"),
  ("Infinity", .real "Infinity"), ("-Infinity", .real "-Infinity")]

/-- A fixed word or a number. -/
def readPlain? (cs : List Char) : Option (Value × List Char) :=
  match words.findSome? fun (word, value) => (after? word cs).map (value, ·) with
  | some found => some found
  | none =>
    match cs with
    | '-' :: rest => readNumber? true rest
    | _ => readNumber? false cs

mutual

/-- A value at the start of a row. -/
def readValue? : Nat → List Char → Option (Value × List Char)
  | 0, _ => none
  | _ + 1, '"' :: rest => do
    let (text, rest) ← readText? (rest.length + 1) rest
    return (.string ⟨text⟩, rest)
  | fuel + 1, '[' :: rest => do
    match skipSpace rest with
    | ']' :: rest => return (.array [], rest)
    | rest =>
      let (items, rest) ← readItems? fuel rest
      return (.array items, rest)
  | fuel + 1, '\x7b' :: rest => do
    match skipSpace rest with
    | '\x7d' :: rest => return (.object [], rest)
    | rest =>
      let (members, rest) ← readMembers? fuel rest
      return (.object (Table.ofList members).entries, rest)
  | _ + 1, cs => readPlain? cs

/-- The items of an array up to its closing bracket. -/
def readItems? : Nat → List Char → Option (List Value × List Char)
  | 0, _ => none
  | fuel + 1, cs => do
    let (value, rest) ← readValue? fuel cs
    match skipSpace rest with
    | ']' :: rest => return ([value], rest)
    | ',' :: rest =>
      let (items, rest) ← readItems? fuel (skipSpace rest)
      return (value :: items, rest)
    | _ => none

/-- The members of an object up to its closing brace. -/
def readMembers? : Nat → List Char → Option (List (LooseText × Value) × List Char)
  | 0, _ => none
  | fuel + 1, '"' :: cs => do
    let (name, rest) ← readText? (cs.length + 1) cs
    match skipSpace rest with
    | ':' :: rest =>
      let (value, rest) ← readValue? fuel (skipSpace rest)
      match skipSpace rest with
      | '\x7d' :: rest => return ([(⟨name⟩, value)], rest)
      | ',' :: rest =>
        let (members, rest) ← readMembers? fuel (skipSpace rest)
        return ((⟨name⟩, value) :: members, rest)
      | _ => none
    | _ => none
  | _ + 1, _ => none

end

/-- The value of a whole document. -/
def Value.read? (document : String) : Option Value := do
  let cs := document.toList
  let (value, rest) ← readValue? (2 * cs.length + 2) (skipSpace cs)
  if (skipSpace rest).isEmpty then return value else failure

end Bindings.Json

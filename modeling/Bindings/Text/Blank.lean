import Bindings.Text.Range

/-!
# Blanks and lines

The characters that count as blank space in any script, stripping a text of them, and
the characters that end a line.
-/

namespace Bindings.Text

/-! ## Blank space -/

/-- The blank characters as sorted intervals. -/
def blankRanges : Ranges := [
  (0x9, 0xd), (0x1c, 0x20), (0x85, 0x85), (0xa0, 0xa0), (0x1680, 0x1680), (0x2000, 0x200a),
  (0x2028, 0x2029), (0x202f, 0x202f), (0x205f, 0x205f), (0x3000, 0x3000)]

/-- A character that counts as blank space. -/
def isBlank (c : Char) : Bool := blankRanges.contains c.toNat

/-- A row of characters without the blanks at its end. -/
def dropBlankEnd (cs : List Char) : List Char := (cs.reverse.dropWhile isBlank).reverse

/-- A row of characters without the blanks at both ends. -/
def dropBlanks (cs : List Char) : List Char := dropBlankEnd (cs.dropWhile isBlank)

/-- A text without the blanks at both ends. -/
def strip (s : String) : String := String.ofList (dropBlanks s.toList)

/-! ## Lines -/

/-- The characters that end a line. A carriage return and a line feed after it end one line. -/
def endsLine (c : Char) : Bool :=
  [0xa, 0xb, 0xc, 0xd, 0x1c, 0x1d, 0x1e, 0x85, 0x2028, 0x2029].contains c.toNat

/-- Cuts a row of characters at its line ends; `line` holds the current line in reverse. -/
def cutLines : List Char → List Char → List (List Char)
  | line, [] => if line.isEmpty then [] else [line.reverse]
  | line, '\r' :: '\n' :: rest => line.reverse :: cutLines [] rest
  | line, c :: rest =>
    if endsLine c then line.reverse :: cutLines [] rest else cutLines (c :: line) rest

/-- The lines of a text without their ends. A last line without an end counts if it is not
    empty. -/
def lines (s : String) : List String := (cutLines [] s.toList).map String.ofList

end Bindings.Text

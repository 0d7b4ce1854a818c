/-!
# Parts of a text

Cutting a text at a character, looking for one text inside another, and filling a text
up to a width.
-/

namespace Bindings.Text

/-! ## Cutting -/

/-- The parts of a row before and after its last `c`, if it has one. -/
def cutLast? (c : Char) : List Char → Option (List Char × List Char)
  | [] => none
  | d :: rest =>
    match cutLast? c rest with
    | some (before, after) => some (d :: before, after)
    | none => if d = c then some ([], rest) else none

/-- The parts of a text before and after its last `c`; all of it is after when `c` is missing. -/
def cutLast (c : Char) (s : String) : String × String :=
  match cutLast? c s.toList with
  | some (before, after) => (String.ofList before, String.ofList after)
  | none => ("", s)

/-- The last segment of a dotted name. -/
def lastSegment (s : String) : String := (cutLast '.' s).2

/-- The parts of a row between the occurrences of `c`. -/
def cutAll (c : Char) : List Char → List (List Char)
  | [] => [[]]
  | d :: rest =>
    if d = c then [] :: cutAll c rest
    else match cutAll c rest with
      | [] => [[d]]
      | part :: parts => (d :: part) :: parts

/-- Whether a text holds a character. -/
def holds (s : String) (c : Char) : Bool := s.toList.contains c

/-! ## Texts inside texts -/

/-- Whether `part` begins the text `s`. -/
def begins (part s : String) : Bool := part.toList.isPrefixOf s.toList

/-- Whether `part` ends the text `s`. -/
def ends (part s : String) : Bool := part.toList.isSuffixOf s.toList

/-- Whether the row `part` occurs in a row. -/
def occursIn (part : List Char) : List Char → Bool
  | [] => part.isEmpty
  | c :: rest => part.isPrefixOf (c :: rest) || occursIn part rest

/-- Whether `part` occurs in the text `s`. -/
def occurs (part s : String) : Bool := occursIn part.toList s.toList

/-- A text without its last `n` characters. -/
def dropEnd (n : Nat) (s : String) : String := String.ofList (s.toList.take (s.toList.length - n))

/-- A text without `part` at its end. -/
def withoutEnd (part s : String) : String :=
  if ends part s then dropEnd part.toList.length s else s

/-! ## Joining and filling -/

/-- The texts one after the other with `separator` between them. -/
def join (separator : String) : List String → String
  | [] => ""
  | [s] => s
  | s :: rest => s ++ separator ++ join separator rest

/-- Blanks that fill a text of the given length up to `width`. -/
def filling (width length : Nat) : String := String.ofList (List.replicate (width - length) ' ')

/-- A text filled up with blanks after it. -/
def padAfter (width : Nat) (s : String) : String := s ++ filling width s.toList.length

/-- A text filled up with blanks before it. -/
def padBefore (width : Nat) (s : String) : String := filling width s.toList.length ++ s

/-- The decimal digits of an integer, with a minus sign if it is negative. -/
def ofInt (n : Int) : String := if n < 0 then "-" ++ (Nat.repr n.natAbs) else Nat.repr n.natAbs

/-! ## Order -/

/-- Texts in the order of their code points. -/
def sorted (texts : List String) : List String := texts.mergeSort fun a b => !(b < a)

/-- The distinct texts in the order of their code points. -/
def sortedSet (texts : List String) : List String := sorted texts.eraseDups

end Bindings.Text

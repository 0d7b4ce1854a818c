import Bindings.Text.CaseTable

/-!
# Lower and upper case

Full case mapping of texts in any script. A capital sigma at the end of a word becomes
the final sigma; some characters have an upper case of several characters.
-/

namespace Bindings.Text

/-- A character that has a case and is not passed over next to a sigma. -/
def isCased (c : Char) : Bool := casedRanges.contains c.toNat

/-- A character passed over next to a sigma. -/
def isCaseIgnorable (c : Char) : Bool := caseIgnorableRanges.contains c.toNat

/-- Whether the nearest character that is not passed over has a case. -/
def startsCased (cs : List Char) : Bool :=
  (cs.dropWhile isCaseIgnorable).head?.any isCased

/-- The lower case of one character; `before` holds the characters before it, nearest first,
    and `after` those after it. -/
def lowerChar (before : List Char) (c : Char) (after : List Char) : List Char :=
  if c = 'Σ' then [if startsCased before && !startsCased after then 'ς' else 'σ']
  else if c = 'İ' then ['i', Char.ofNat 0x307]
  else [((shifted? lowerShifts c.toNat).map Char.ofNat).getD c]

/-- The lower case of the characters after `before`, which is in reverse. -/
def lowerChars : List Char → List Char → List Char
  | _, [] => []
  | before, c :: rest => lowerChar before c rest ++ lowerChars (c :: before) rest

/-- The lower case of a text. -/
def lower (s : String) : String := String.ofList (lowerChars [] s.toList)

/-- The upper case of one character. -/
def upperChar (c : Char) : List Char :=
  match upperExpansions.find? (·.1 == c.toNat) with
  | some (_, expansion) => expansion.map Char.ofNat
  | none => [((shifted? upperShifts c.toNat).map Char.ofNat).getD c]

/-- The upper case of a text. -/
def upper (s : String) : String := String.ofList (s.toList.flatMap upperChar)

end Bindings.Text

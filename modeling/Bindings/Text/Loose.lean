import Bindings.Text.Part

/-!
# Loose texts

Texts in which half of a surrogate pair may stand alone. Such a half is no character, so it is
kept beside the characters. A text of characters only is a loose text, and no two of them become
the same one.
-/

namespace Bindings

/-! ## Signs -/

/-- A sign of a loose text: a character, or the half of a surrogate pair that is so many units
    after the first one. -/
inductive Sign
  | char (c : Char)
  | half (offset : Fin 0x800)
  deriving DecidableEq, Repr, Inhabited

namespace Sign

/-- The first unit that is half of a surrogate pair. -/
def firstHalf : Nat := 0xd800

/-- The sign that a 16-bit unit stands for by itself. -/
def ofUnit (unit : Nat) : Sign :=
  if firstHalf ≤ unit ∧ unit < firstHalf + 0x800 then half (Fin.ofNat 0x800 (unit - firstHalf))
  else char (Char.ofNat unit)

/-- The number of a sign in the code space. -/
def code : Sign → Nat
  | char c => c.toNat
  | half offset => firstHalf + offset.val

/-- The character that a sign is, if it is one. -/
def char? : Sign → Option Char
  | char c => some c
  | half _ => none

/-- The character that shows a sign where only characters can stand. -/
def shown (s : Sign) : Char := s.char?.getD '\ufffd'

end Sign

/-! ## Texts -/

/-- A text in which halves of surrogate pairs may stand alone. -/
structure LooseText where
  signs : List Sign
  deriving DecidableEq, Repr, Inhabited

namespace LooseText

/-- The loose text of the characters of a text. -/
def ofString (s : String) : LooseText := ⟨s.toList.map .char⟩

instance : Coe String LooseText := ⟨ofString⟩

instance : Append LooseText := ⟨fun t u => ⟨t.signs ++ u.signs⟩⟩

/-- The text that a loose text is, if it holds characters only. -/
def toString? (t : LooseText) : Option String := (t.signs.mapM Sign.char?).map String.ofList

/-- The text that shows a loose text where only characters can stand. -/
def shown (t : LooseText) : String := String.ofList (t.signs.map (·.shown))

/-- The numbers of the signs in the code space. -/
def codes (t : LooseText) : List Nat := t.signs.map (·.code)

/-- Loose texts without repetition, in the order of their signs in the code space. -/
def sortedSet (texts : List LooseText) : List LooseText :=
  texts.eraseDups.mergeSort fun t u => !(decide (u.codes < t.codes))

end LooseText
end Bindings

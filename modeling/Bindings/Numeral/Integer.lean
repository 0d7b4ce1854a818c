import Bindings.Text.Blank
import Bindings.Text.Digit

/-!
# Integer literals

Integers as they are written in metadata: blanks around, a sign, a base mark `0x`, `0o` or
`0b`, and digits of any script with single underscores between them. A decimal literal
other than zero does not begin with a zero.
-/

namespace Bindings.Numeral
open Bindings.Text

/-- The value of a character as a digit in bases up to sixteen. -/
def hexValue? (c : Char) : Option Nat :=
  if 'a' ≤ c ∧ c ≤ 'f' then some (c.toNat - 87)
  else if 'A' ≤ c ∧ c ≤ 'F' then some (c.toNat - 55)
  else digitValue? c

/-- Digits of a base with single underscores between them; `value` is what was read so far. -/
def readDigits? (base value : Nat) : List Char → Option Nat
  | [] => none
  | [c] => (hexValue? c).bind fun d => if d < base then some (base * value + d) else none
  | c :: '_' :: rest =>
    (hexValue? c).bind fun d => if d < base then readDigits? base (base * value + d) rest else none
  | c :: rest =>
    (hexValue? c).bind fun d => if d < base then readDigits? base (base * value + d) rest else none

/-- Digits after a base mark, which an underscore may follow. -/
def readMarked? (base : Nat) : List Char → Option Nat
  | '_' :: rest => readDigits? base 0 rest
  | rest => readDigits? base 0 rest

/-- The base that a mark after a zero stands for. -/
def markedBase? (c : Char) : Option Nat :=
  if c = 'x' || c = 'X' then some 16
  else if c = 'o' || c = 'O' then some 8
  else if c = 'b' || c = 'B' then some 2
  else none

/-- A literal without its sign. -/
def readUnsigned? (cs : List Char) : Option Nat :=
  match cs with
  | first :: mark :: rest =>
    if digitValue? first = some 0 then
      match markedBase? mark with
      | some base => readMarked? base rest
      | none => (readDigits? 10 0 cs).bind fun n => if n = 0 then some 0 else none
    else readDigits? 10 0 cs
  | _ => readDigits? 10 0 cs

/-- Applies the sign in front to what is read after it. -/
def readSigned? (read : List Char → Option Nat) : List Char → Option Int
  | '-' :: rest => (read rest).map fun n => -(n : Int)
  | '+' :: rest => (read rest).map Int.ofNat
  | rest => (read rest).map Int.ofNat

/-- The integer that a literal stands for. -/
def readInteger? (s : String) : Option Int := readSigned? readUnsigned? (dropBlanks s.toList)

/-- The number that a row of decimal digits of any script stands for. -/
def ofDecimalDigits (cs : List Char) : Nat := ofDigits 10 (cs.filterMap digitValue?)

end Bindings.Numeral

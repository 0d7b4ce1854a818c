import Bindings.Text.Blank
import Bindings.Text.Digit

/-!
# Binary floating-point numbers

Numbers with a significand of 53 bits and an exponent of 11 bits, as exact values: which of
them is nearest to a decimal, and which decimal texts are read.
-/

namespace Bindings.Numeral
open Bindings.Text

/-- A power of two. -/
def twoTo (n : Nat) : Nat := Nat.pow 2 n

/-- A power of ten. -/
def tenTo (n : Nat) : Nat := Nat.pow 10 n

/-- A binary floating-point number. A finite one is `significand * 2 ^ exponent`, with a
    significand below `2 ^ 53` and an exponent from -1074 on. -/
inductive Binary64
  | nan
  | infinite (negative : Bool)
  | finite (negative : Bool) (significand : Nat) (exponent : Int)
  deriving DecidableEq, Repr, Inhabited

namespace Binary64

/-! ## Rounding -/

/-- The quotient of two naturals rounded to the nearest, a half to the even one. -/
def roundQuotient (num den : Nat) : Nat :=
  let low := num / den
  let twice := 2 * (num % den)
  if twice < den then low
  else if den < twice then low + 1
  else if low % 2 = 0 then low else low + 1

/-- The quotient `num / den / 2 ^ e` as a pair of naturals. -/
def scaled (num den : Nat) (e : Int) : Nat × Nat :=
  if e < 0 then (num * twoTo e.natAbs, den) else (num, den * twoTo e.natAbs)

/-- The exponent that gives `num / den` a significand of 53 bits, or the least one. -/
def exponentFor (num den : Nat) : Int :=
  let e := max ((num.log2 : Int) - den.log2 - 53) (-1074)
  let (n, d) := scaled num den e
  if n / d < twoTo 53 then e else e + 1

/-- The number nearest to the positive quotient `num / den`. -/
def ofQuotient (negative : Bool) (num den : Nat) : Binary64 :=
  let e := exponentFor num den
  let (n, d) := scaled num den e
  let significand := roundQuotient n d
  if significand = twoTo 53 then
    if e + 1 ≤ 971 then finite negative (twoTo 52) (e + 1) else infinite negative
  else if e ≤ 971 then finite negative significand e
  else infinite negative

/-- The number nearest to `digits * 10 ^ exponent`. A value far outside the range is not
    computed. -/
def ofDecimal (negative : Bool) (digits : Nat) (exponent : Int) : Binary64 :=
  if digits = 0 then finite negative 0 (-1074)
  else
    let magnitude := exponent + (Nat.repr digits).length
    if 310 < magnitude then infinite negative
    else if magnitude < -330 then finite negative 0 (-1074)
    else if exponent < 0 then ofQuotient negative digits (tenTo exponent.natAbs)
    else ofQuotient negative (digits * tenTo exponent.natAbs) 1

/-! ## Reading -/

/-- Removes the underscores of a row in which each stands between two digits. -/
def withoutUnderscores? : List Char → Option (List Char)
  | [] => some []
  | '_' :: _ => none
  | c :: '_' :: d :: rest =>
    if isDigit c && isDigit d then (withoutUnderscores? (d :: rest)).map (c :: ·) else none
  | c :: rest => (withoutUnderscores? rest).map (c :: ·)

/-- The exponent part of a decimal; nothing stands for zero. -/
def readExponent? : List Char → Option Int
  | [] => some 0
  | mark :: rest =>
    if mark = 'e' || mark = 'E' then
      let (negative, digits) : Bool × List Char := match rest with
        | '-' :: digits => (true, digits)
        | '+' :: digits => (false, digits)
        | digits => (false, digits)
      if digits.isEmpty || digits.any (!isDigit ·) then none
      else
        let n : Int := ofDigits 10 (digits.filterMap digitValue?)
        some (if negative then -n else n)
    else none

/-- A decimal without sign and underscores. -/
def readDecimal? (negative : Bool) (cs : List Char) : Option Binary64 :=
  let whole := cs.takeWhile isDigit
  let rest := cs.dropWhile isDigit
  let (fraction, rest) : List Char × List Char := match rest with
    | '.' :: rest => (rest.takeWhile isDigit, rest.dropWhile isDigit)
    | rest => ([], rest)
  if whole.isEmpty && fraction.isEmpty then none
  else
    let digits := ofDigits 10 ((whole ++ fraction).filterMap digitValue?)
    (readExponent? rest).map fun e => ofDecimal negative digits (e - fraction.length)

/-- A character in lower case, for the basic Latin letters. -/
def lowerLatin (c : Char) : Char := if 'A' ≤ c ∧ c ≤ 'Z' then Char.ofNat (c.toNat + 32) else c

/-- A number without its sign: a decimal, or the name of a special value. -/
def readMagnitude? (negative : Bool) (cs : List Char) : Option Binary64 :=
  let word := String.ofList (cs.map lowerLatin)
  if word = "inf" || word = "infinity" then some (infinite negative)
  else if word = "nan" then some nan
  else readDecimal? negative cs

/-- The number that a text stands for, blanks around it aside. -/
def read? (s : String) : Option Binary64 :=
  (withoutUnderscores? (dropBlanks s.toList)).bind fun
    | '-' :: rest => readMagnitude? true rest
    | '+' :: rest => readMagnitude? false rest
    | rest => readMagnitude? false rest

end Binary64
end Bindings.Numeral

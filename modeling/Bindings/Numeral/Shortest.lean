import Bindings.Numeral.Binary64

/-!
# Shortest decimals

A floating-point number is written with the fewest digits that read back as the same
number, and among those with the digits nearest to it.
-/

namespace Bindings.Numeral

/-- A decimal `digits * 10 ^ exponent`. -/
structure Decimal where
  digits : Nat
  exponent : Int
  deriving DecidableEq, Repr

namespace Binary64

/-! ## The interval of a number -/

/-- Both sides of a comparison of `a * 2 ^ p` with `b * 10 ^ q` as naturals. -/
def aligned (a : Nat) (p : Int) (b : Nat) (q : Int) : Nat × Nat :=
  (a * twoTo p.toNat * tenTo (-q).toNat, b * tenTo q.toNat * twoTo (-p).toNat)

/-- Whether a decimal lies in the interval of the reals that round to
    `significand * 2 ^ exponent`. The ends, in quarters of the last place, are half a place
    away, but a quarter below a power of two; they belong to it if the significand is even. -/
def readsBack (significand : Nat) (exponent : Int) (d : Decimal) : Bool :=
  let low := if significand = twoTo 52 && -1074 < exponent then 4 * significand - 1
    else 4 * significand - 2
  let (lowEnd, atLow) := aligned low (exponent - 2) d.digits d.exponent
  let (highEnd, atHigh) := aligned (4 * significand + 2) (exponent - 2) d.digits d.exponent
  if significand % 2 = 0 then lowEnd ≤ atLow && atHigh ≤ highEnd
  else lowEnd < atLow && atHigh < highEnd

/-! ## The search -/

/-- The two decimals next to the number on the grid of step `10 ^ step`, the nearer first;
    of two at the same distance the one with an even last digit first. -/
def neighbours (significand : Nat) (exponent step : Int) : List Decimal :=
  let (num, den) := aligned significand exponent 1 step
  let low := num / den
  let nearest := roundQuotient num den
  if nearest = low then [⟨low, step⟩, ⟨low + 1, step⟩] else [⟨low + 1, step⟩, ⟨low, step⟩]

/-- The number of digits before the point of `num / den`, found from `guess` upwards. -/
def digitsBeforePoint (significand : Nat) (exponent : Int) : Nat → Int → Int
  | 0, guess => guess
  | fuel + 1, guess =>
    let (num, bound) := aligned significand exponent 1 guess
    if num < bound then guess else digitsBeforePoint significand exponent fuel (guess + 1)

/-- The shortest decimal from the given number of digits up to seventeen. -/
def searchShortest (significand : Nat) (exponent top : Int) : Nat → Int → Decimal
  | 0, _ => ⟨significand, 0⟩
  | fuel + 1, count =>
    let candidates := neighbours significand exponent (top - count)
    match candidates.find? (readsBack significand exponent) with
    | some d => d
    | none => searchShortest significand exponent top fuel (count + 1)

/-- Moves the zeros at the end of the digits into the exponent. -/
def withoutTrailingZeros : Nat → Decimal → Decimal
  | 0, d => d
  | fuel + 1, d =>
    if d.digits % 10 = 0 then withoutTrailingZeros fuel ⟨d.digits / 10, d.exponent + 1⟩ else d

/-- The shortest decimal of a positive number. The guess of its size is at most one too low. -/
def shortest (significand : Nat) (exponent : Int) : Decimal :=
  let guess := Int.fdiv ((significand.log2 + exponent) * 30103) 100000
  let top := digitsBeforePoint significand exponent 4 guess
  withoutTrailingZeros 17 (searchShortest significand exponent top 17 1)

/-! ## Layout -/

/-- Digits with the point after the first `top` of them. The exponent of the first digit is
    written when it is below -4 or above 15, with a sign and two digits at least. -/
def layout (digits : List Char) (top : Int) : List Char :=
  if top ≤ -4 || 16 < top then
    let e := top - 1
    let tail := match digits with
      | [] => []
      | [d] => [d]
      | d :: rest => d :: '.' :: rest
    let size := (Nat.repr e.natAbs).toList
    tail ++ 'e' :: (if e < 0 then '-' else '+') :: List.replicate (2 - size.length) '0' ++ size
  else if top ≤ 0 then '0' :: '.' :: List.replicate (-top).toNat '0' ++ digits
  else
    let whole := digits.take top.toNat ++ List.replicate (top.toNat - digits.length) '0'
    let fraction := digits.drop top.toNat
    whole ++ '.' :: (if fraction.isEmpty then ['0'] else fraction)

/-- The text of a number. -/
def text : Binary64 → String
  | nan => "nan"
  | infinite negative => if negative then "-inf" else "inf"
  | finite negative significand exponent =>
    let magnitude :=
      if significand = 0 then ['0', '.', '0']
      else
        let d := shortest significand exponent
        let digits := (Nat.repr d.digits).toList
        layout digits (d.exponent + digits.length)
    String.ofList (if negative then '-' :: magnitude else magnitude)

end Binary64
end Bindings.Numeral

import Bindings.Fault
import Bindings.Native.Token
import Bindings.Numeral.Integer

/-!
# Reading type signatures

A signature is a name with suffixes or a function type, behind an optional `const`. The
constness goes to the innermost pointer. Names without a namespace are looked for in the
scope of the signature.
-/

namespace Bindings.Signature
open Bindings.Text

/-! ## Names -/

/-- A name as written in a scope: a dotted one has its namespace in front. -/
def nameIn (scope written : String) : QualifiedName :=
  match cutLast? '.' written.toList with
  | some (space, name) => ⟨String.ofList space, String.ofList name⟩
  | none => ⟨scope, written⟩

/-- The type that a word stands for. -/
def namedType (scope word : String) : NativeType :=
  if NativeType.isPrimitiveCode word then .primitive word else .handle (nameIn scope word)

/-! ## Suffixes -/

/-- The length between brackets; no digits stand for an open one. -/
def lengthOf (digits : List Char) : Option Int :=
  if digits.isEmpty then none else some (Numeral.ofDecimalDigits digits)

/-- A type with one more dimension. Brackets in a row make one array. -/
def addDimension (length : Option Int) : NativeType → NativeType
  | .array element lengths => .array element (lengths ++ [length])
  | element => .array element [length]

/-- Applies the suffixes at the front of a row. The first pointer takes the constness. -/
def applySuffixes (isConst : Bool) (base : NativeType) : List Token → NativeType × List Token
  | .star :: rest => applySuffixes false (.pointer base isConst) rest
  | .bracket digits :: rest => applySuffixes isConst (addDimension (lengthOf digits) base) rest
  | rest => (base, rest)

/-! ## Types -/

/-- Whether a row begins with `const`, and what follows it. -/
def takeConst : List Token → Bool × List Token
  | .word "const" :: rest => (true, rest)
  | rest => (false, rest)

/-- What follows an expected token. -/
def expect (text : String) (token : Token) : List Token → Except Fault (List Token)
  | t :: rest => if t = token then .ok rest else .error (.expectedToken token.text text)
  | [] => .error (.expectedToken token.text text)

mutual

/-- The type at the front of a row, and what follows it. Each level takes a token, so the
    number of tokens bounds the depth. -/
def readType (scope text : String) : Nat → List Token → Except Fault (NativeType × List Token)
  | 0, _ => .error (.truncatedSignature text)
  | depth + 1, tokens =>
    match takeConst tokens with
    | (_, []) => .error (.truncatedSignature text)
    | (_, .functionOpen :: rest) => do
      let (params, rest) ← match rest with
        | .closeParen :: _ | [] => pure ([], rest)
        | _ => readParams scope text depth rest
      let rest ← expect text .closeParen rest
      let rest ← expect text .arrow rest
      let (returns, rest) ← readType scope text depth rest
      return (.function params returns, rest)
    | (isConst, .word name :: rest) =>
      .ok (applySuffixes isConst (namedType scope name) rest)
    | (_, token :: _) => .error (.unexpectedToken token.text text)

/-- The types at the front of a row, with commas between them. -/
def readParams (scope text : String) :
    Nat → List Token → Except Fault (List NativeType × List Token)
  | 0, _ => .error (.truncatedSignature text)
  | depth + 1, tokens => do
    let (first, rest) ← readType scope text depth tokens
    match rest with
    | .comma :: rest =>
      let (params, rest) ← readParams scope text depth rest
      return (first :: params, rest)
    | _ => return ([first], rest)

end

end Bindings.Signature

namespace Bindings
open Signature

/-- The type that a signature denotes in a scope. -/
def NativeType.read (signature scope : String) : Except Fault NativeType :=
  match tokens? signature with
  | none => .error (.malformedSignature signature)
  | some [] => .error .emptySignature
  | some tokens => do
    let (type, rest) ← readType scope signature (2 * tokens.length + 1) tokens
    if rest.isEmpty then return type else .error (.trailingTokens signature)

end Bindings

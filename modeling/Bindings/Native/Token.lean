import Bindings.Native.Type
import Bindings.Text.Blank
import Bindings.Text.Digit

/-!
# Tokens of type signatures

A signature is a row of tokens with blanks before them. The longest token counts; the
opening of a function type and the arrow are one token each.
-/

namespace Bindings.Signature
open Bindings.Text

/-- A token. A bracket holds the digits between its two ends. -/
inductive Token
  | functionOpen
  | arrow
  | word (name : String)
  | star
  | bracket (digits : List Char)
  | openParen
  | closeParen
  | comma
  deriving DecidableEq, Repr, Inhabited

/-- A token as it is written. -/
def Token.text : Token → String
  | functionOpen => "fn("
  | arrow => "->"
  | word name => name
  | star => "*"
  | bracket digits => String.ofList ('[' :: digits ++ [']'])
  | openParen => "("
  | closeParen => ")"
  | comma => ","

/-- A letter of the basic Latin alphabet or an underscore. -/
def isWordStart (c : Char) : Bool := ('A' ≤ c && c ≤ 'Z') || ('a' ≤ c && c ≤ 'z') || c = '_'

/-- A character that a word goes on with. -/
def isWordChar (c : Char) : Bool := isWordStart c || ('0' ≤ c && c ≤ '9') || c = '.'

/-- The token at the front of a row without blanks before it, and what follows it. -/
def nextToken? : List Char → Option (Token × List Char)
  | 'f' :: 'n' :: '(' :: rest => some (.functionOpen, rest)
  | '-' :: '>' :: rest => some (.arrow, rest)
  | '*' :: rest => some (.star, rest)
  | '(' :: rest => some (.openParen, rest)
  | ')' :: rest => some (.closeParen, rest)
  | ',' :: rest => some (.comma, rest)
  | '[' :: rest =>
    match rest.dropWhile isDigit with
    | ']' :: after => some (.bracket (rest.takeWhile isDigit), after)
    | _ => none
  | c :: rest =>
    if isWordStart c then
      some (.word (String.ofList (c :: rest.takeWhile isWordChar)), rest.dropWhile isWordChar)
    else none
  | [] => none

/-- The tokens of a row; a token has a character at least, so there are at most as many. -/
def readTokens? : Nat → List Char → Option (List Token)
  | 0, cs => if (cs.dropWhile isBlank).isEmpty then some [] else none
  | fuel + 1, cs =>
    match cs.dropWhile isBlank with
    | [] => some []
    | cs => (nextToken? cs).bind fun (token, rest) => (readTokens? fuel rest).map (token :: ·)

/-- The tokens of a signature, if it splits into tokens. -/
def tokens? (signature : String) : Option (List Token) :=
  readTokens? signature.toList.length signature.toList

end Bindings.Signature

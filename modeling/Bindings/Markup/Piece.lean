import Bindings.Markup.Encoding
import Bindings.Markup.NameTable
import Bindings.Numeral.Integer

/-!
# Pieces of a document

A document is a row of pieces: tags, runs of characters, references, literal sections, and
remarks, which are comments and processing instructions. Each piece is read from the front
of the text, and a text that begins with no piece is malformed.
-/

namespace Bindings.Markup
open Bindings.Text

/-- A name as it is written: a local part, and what stands before its colon. -/
structure Name where
  qualifier : Option String
  part : String
  deriving DecidableEq, Repr

/-- A piece of a document. -/
inductive Piece
  | opening (name : Name) (attributes : List (Name × String)) (closed : Bool)
  | closing (name : Name)
  | characters (text : List Char)
  | reference (c : Char)
  | literal (text : List Char)
  | remark

/-! ## Characters -/

/-- A character that may occur in a document. -/
def isAllowed (n : Nat) : Bool :=
  n = 9 || n = 10 || n = 13 || (0x20 ≤ n && n ≤ 0xd7ff) || (0xe000 ≤ n && n ≤ 0xfffd)
    || (0x10000 ≤ n && n ≤ 0x10ffff)

/-- The blanks of markup. -/
def isSpace (c : Char) : Bool := c = ' ' || c = '\t' || c = '\n' || c = '\r'

/-- Each line end as a single line feed. -/
def withLineFeeds : List Char → List Char
  | [] => []
  | '\r' :: '\n' :: rest => '\n' :: withLineFeeds rest
  | '\r' :: rest => '\n' :: withLineFeeds rest
  | c :: rest => c :: withLineFeeds rest

/-- What follows a mark, if a row begins with it. -/
def after? (mark : String) (cs : List Char) : Option (List Char) :=
  if mark.toList.isPrefixOf cs then some (cs.drop mark.toList.length) else none

/-- The row up to the first occurrence of a mark, and what follows the mark. -/
def cutAt? (mark : List Char) : List Char → Option (List Char × List Char)
  | [] => none
  | c :: rest =>
    if mark.isPrefixOf (c :: rest) then some ([], (c :: rest).drop mark.length)
    else (cutAt? mark rest).map fun (before, after) => (c :: before, after)

/-- The row up to a mark, of allowed characters only. -/
def readUntil? (mark : String) (cs : List Char) : Option (List Char × List Char) := do
  let (before, after) ← cutAt? mark.toList cs
  if before.all fun c => isAllowed c.toNat then return (before, after) else failure

/-! ## Names

A document may have further letters, with which a name can begin and go on. -/

/-- A name without a colon. -/
def readPart? (letters : List Char) : List Char → Option (String × List Char)
  | c :: rest =>
    let goesOn := fun d => isNameChar d || letters.contains d
    if isNameStart c || letters.contains c then
      some (String.ofList (c :: rest.takeWhile goesOn), rest.dropWhile goesOn)
    else none
  | [] => none

/-- A name with at most one colon, which stands between two parts. -/
def readName? (letters cs : List Char) : Option (Name × List Char) := do
  let (first, rest) ← readPart? letters cs
  match rest with
  | ':' :: rest =>
    let (second, rest) ← readPart? letters rest
    if rest.head? = some ':' then failure
    return (⟨some first, second⟩, rest)
  | rest => return (⟨none, first⟩, rest)

/-! ## References -/

/-- The characters that have a name. -/
def namedCharacters : List (String × Char) := [
  ("lt", '<'), ("gt", '>'), ("amp", '&'), ("apos", '\''), ("quot", '"')]

/-- The character with a given number, if it may occur. -/
def numbered? (base : Nat) (digits : List Char) : Option Char := do
  if digits.isEmpty || digits.any (fun c => 128 ≤ c.toNat) then failure
  let values ← digits.mapM Numeral.hexValue?
  if values.any (base ≤ ·) then failure
  let n := ofDigits base values
  if isAllowed n then return Char.ofNat n else failure

/-- A reference after its ampersand. -/
def readReference? (cs : List Char) : Option (Char × List Char) := do
  let (body, rest) ← cutAt? [';'] cs
  match body with
  | '#' :: 'x' :: digits => return (← numbered? 16 digits, rest)
  | '#' :: digits => return (← numbered? 10 digits, rest)
  | name => return (← namedCharacters.lookup (String.ofList name), rest)

/-! ## Attributes -/

/-- The rest of an attribute value up to its quote. A written blank counts as a space and a
    line end as one; a reference keeps its character. -/
def readAttributeValue? (quote : Char) : Nat → List Char → Option (List Char × List Char)
  | 0, _ => none
  | _ + 1, [] => none
  | fuel + 1, c :: rest => do
    if c = quote then return ([], rest)
    if c = '<' || !isAllowed c.toNat then failure
    let (d, rest) ← if c = '&' then readReference? rest
      else if c = '\r' && rest.head? = some '\n' then some (' ', rest.drop 1)
      else some (if isSpace c then ' ' else c, rest)
    let (value, rest) ← readAttributeValue? quote fuel rest
    return (d :: value, rest)

/-- A quoted value. -/
def readQuoted? : List Char → Option (String × List Char)
  | quote :: rest => do
    if quote = '"' || quote = '\'' then
      let (value, rest) ← readAttributeValue? quote (rest.length + 1) rest
      return (String.ofList value, rest)
    else failure
  | [] => none

/-- An equals sign with blanks around it. -/
def readEquals? (cs : List Char) : Option (List Char) :=
  match cs.dropWhile isSpace with
  | '=' :: rest => some (rest.dropWhile isSpace)
  | _ => none

/-- The rest of an opening tag: its attributes, whether the element is closed at once, and
    what follows. Blanks stand before each attribute, and no name occurs twice. -/
def readAttributes? (letters : List Char) (seen : List Name) :
    Nat → List Char → Option (List (Name × String) × Bool × List Char)
  | 0, _ => none
  | fuel + 1, cs => do
    match cs.dropWhile isSpace with
    | '>' :: rest => return ([], false, rest)
    | '/' :: '>' :: rest => return ([], true, rest)
    | rest =>
      if rest.length = cs.length then failure
      let (name, rest) ← readName? letters rest
      if seen.contains name then failure
      let (value, rest) ← readQuoted? (← readEquals? rest)
      let (attributes, closed, rest) ← readAttributes? letters (name :: seen) fuel rest
      return ((name, value) :: attributes, closed, rest)

/-! ## Pieces -/

/-- An opening tag after its bracket. -/
def readOpening? (letters cs : List Char) : Option (Piece × List Char) := do
  let (name, rest) ← readName? letters cs
  let (attributes, closed, rest) ← readAttributes? letters [] (rest.length + 1) rest
  return (.opening name attributes closed, rest)

/-- A closing tag after its bracket and slash. -/
def readClosing? (letters cs : List Char) : Option (Piece × List Char) := do
  let (name, rest) ← readName? letters cs
  match rest.dropWhile isSpace with
  | '>' :: rest => return (.closing name, rest)
  | _ => failure

/-- A comment after its opening mark. Two hyphens stand only before its end. -/
def readComment? (cs : List Char) : Option (Piece × List Char) := do
  let (_, rest) ← readUntil? "--" cs
  match rest with
  | '>' :: rest => return (.remark, rest)
  | _ => failure

/-- Whether a name is that of the declaration, in any case. -/
def isDeclarationName (name : String) : Bool :=
  ["xml", "xmL", "xMl", "xML", "Xml", "XmL", "XMl", "XML"].contains name

/-- A processing instruction after its opening mark. -/
def readInstruction? (letters cs : List Char) : Option (Piece × List Char) := do
  let (name, rest) ← readPart? letters cs
  if isDeclarationName name then failure
  match rest with
  | '?' :: '>' :: rest => return (.remark, rest)
  | c :: rest =>
    if isSpace c then
      let (_, rest) ← readUntil? "?>" rest
      return (.remark, rest)
    else failure
  | [] => failure

/-- A literal section after its opening mark. -/
def readLiteral? (cs : List Char) : Option (Piece × List Char) := do
  let (text, rest) ← readUntil? "]]>" cs
  return (.literal (withLineFeeds text), rest)

/-- A run of characters up to the next mark. It does not hold the end of a literal section. -/
def readCharacters? (cs : List Char) : Option (Piece × List Char) := do
  let isPlain := fun c => c != '<' && c != '&'
  let run := cs.takeWhile isPlain
  if (cutAt? [']', ']', '>'] run).isSome || run.any fun c => !isAllowed c.toNat then failure
  return (.characters (withLineFeeds run), cs.dropWhile isPlain)

/-- The piece at the front of a row, and what follows it. -/
def readPiece? (letters cs : List Char) : Option (Piece × List Char) :=
  if let some rest := after? "<!--" cs then readComment? rest
  else if let some rest := after? "<![CDATA[" cs then readLiteral? rest
  else if let some rest := after? "<?" cs then readInstruction? letters rest
  else if let some rest := after? "</" cs then readClosing? letters rest
  else if let some rest := after? "<" cs then readOpening? letters rest
  else if let some rest := after? "&" cs then
    (readReference? rest).map fun (c, rest) => (.reference c, rest)
  else readCharacters? cs

/-- The pieces of a row; a piece has a character at least, so there are at most as many. -/
def readPieces? (letters : List Char) : Nat → List Char → Option (List Piece)
  | _, [] => some []
  | 0, _ => none
  | fuel + 1, cs => do
    let (piece, rest) ← readPiece? letters cs
    let pieces ← readPieces? letters fuel rest
    return piece :: pieces

/-! ## The declaration -/

/-- A value in the declaration: letters, digits, points, hyphens and underscores. -/
def readSetting? (name : String) (cs : List Char) : Option (String × List Char) := do
  if !(cs.head?.any isSpace) then failure
  let rest ← after? name (cs.dropWhile isSpace)
  match ← readEquals? rest with
  | quote :: rest =>
    if quote = '"' || quote = '\'' then
      let (value, rest) ← cutAt? [quote] rest
      if value.all fun c => c.toNat < 128 && (c.isAlphanum || c = '.' || c = '-' || c = '_') then
        return (String.ofList value, rest)
      else failure
    else failure
  | [] => failure

/-- A setting that may be missing; one that is there has to be acceptable. -/
def readOptional? (name : String) (isAcceptable : String → Bool) (cs : List Char) :
    Option (Option String × List Char) :=
  if ((after? name (cs.dropWhile isSpace)).isSome) then do
    let (value, rest) ← readSetting? name cs
    if isAcceptable value then return (some value, rest) else failure
  else some (none, cs)

/-- The declaration at the start of a document, if there is one: the encoding that it names, and
    what follows it. It names the version first, then the encoding and whether the document
    stands alone. -/
def readDeclaration? (cs : List Char) : Option (Option String × List Char) :=
  match after? "<?xml" cs with
  | none => some (none, cs)
  | some rest =>
    if rest.head?.any isSpace then do
      let (_, rest) ← readSetting? "version" rest
      let (encoding, rest) ← readOptional? "encoding" (fun v => v.toList.head?.any (·.isAlpha)) rest
      let (_, rest) ← readOptional? "standalone" (fun v => v = "yes" || v = "no") rest
      return (encoding, ← after? "?>" (rest.dropWhile isSpace))
    else some (none, cs)

/-! ## Documents -/

/-- A result of reading. What cannot be read is malformed. -/
def orMalformed {α : Type} : Option α → Except DocumentError α
  | some a => .ok a
  | none => .error .malformed

/-- The letters and the characters of a text whose encoding may be named. -/
def decodeNamed (text : List Char) : Option String → Except DocumentError (List Char × List Char)
  | none => .ok ([], text)
  | some name =>
    match Encoding.named? name with
    | some encoding => do return (encoding.letters, ← encoding.decode text name)
    | none => .error (.unknownEncoding name)

/-- The pieces of a document, after an optional byte-order mark and the declaration. The encoding
    that the declaration names is that of what follows. -/
def pieces (document : String) : Except DocumentError (List Piece) := do
  let cs := match document.toList with
    | c :: rest => if c.toNat = 0xfeff then rest else c :: rest
    | [] => []
  let (encoding, rest) ← orMalformed (readDeclaration? cs)
  let (letters, rest) ← decodeNamed rest encoding
  orMalformed (readPieces? letters rest.length rest)

end Bindings.Markup

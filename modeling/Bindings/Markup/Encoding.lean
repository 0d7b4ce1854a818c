import Bindings.Markup.CodePage

/-!
# Encodings

How the bytes of a document stand for its characters. A document is a text and stands for the
bytes of that text in UTF-8. If it names another encoding, its bytes are read again in that. An
encoding that cannot be used tells why.
-/

namespace Bindings.Markup
open Bindings.Text

/-- Why a document has no tree. -/
inductive DocumentError
  | malformed
  | wideEncoding
  | unknownEncoding (name : String)
  | binaryEncoding (name : String)
  | strictEncoding (name : String)
  | undefinedEncoding (name : String)
  | undecodableByte (byte : String) (position : Nat)
  deriving DecidableEq, Repr, Inhabited

/-- What a failed decoding tells of the encoding and the reason. -/
def failedDecoding (name reason : String) : String :=
  "decoding with '" ++ name ++ "' codec failed (UnicodeError: " ++ reason ++ ")"

/-- The message of an error. What is wrong with a malformed document is not told. -/
def DocumentError.message : DocumentError → String
  | malformed => "<xml error>"
  | wideEncoding => "multi-byte encodings are not supported"
  | unknownEncoding name => "unknown encoding: " ++ name
  | binaryEncoding name =>
    "'" ++ name ++ "' is not a text encoding; use codecs.decode() to handle arbitrary codecs"
  | strictEncoding name => failedDecoding name "Unsupported error handling replace"
  | undefinedEncoding name => failedDecoding name "undefined encoding"
  | undecodableByte byte position =>
    "'ascii' codec can't decode byte " ++ byte ++ " in position " ++ ofInt position
      ++ ": ordinal not in range(128)"

/-- An encoding: that of the text itself, Latin-1 under its full name, a code page, one in which a
    character may have several bytes, or one in which markup cannot be told from other text. The
    others give no characters: one that makes bytes of bytes, those of domain names, which end at
    the first byte that has no character or that is not in ASCII, and one that is never defined. -/
inductive Encoding
  | utf8
  | latin
  | page (p : CodePage)
  | wide
  | foreign
  | binary
  | strict
  | asciiLabel
  | undefined
  deriving DecidableEq, Repr, Inhabited

namespace Encoding

/-- The encodings that a document reader knows by itself, by their names in lower case. UTF-16
    cannot be the encoding of a document that has named it in single bytes. -/
def builtIn : List (String × Encoding) := [
  ("utf-8", utf8),
  ("iso-8859-1", latin),
  ("utf-16", foreign),
  ("utf-16be", foreign),
  ("utf-16le", foreign)]

/-- The other encodings, by their names. UTF-8 is ASCII here, since none of its upper bytes stands
    for a character by itself. -/
def registered : List (EncodingNames × Encoding) :=
  codePages.map (fun p => (p.names, page p)) ++ [
    (wideNames, wide),
    (foreignNames, foreign),
    (binaryNames, binary),
    (⟨["idna"], []⟩, strict),
    (⟨["punycode"], []⟩, asciiLabel),
    (⟨["undefined"], []⟩, undefined)]

/-- The encoding that goes by a name, if there is one. -/
def named? (name : String) : Option Encoding :=
  match builtIn.lookup name.toLower with
  | some encoding => some encoding
  | none => (registered.find? (·.1.has (plainName name))).map (·.2)

/-- The characters that begin a name in an encoding, beside those that do so in all. -/
def letters : Encoding → List Char
  | latin => ['ª', 'µ', 'º']
  | _ => []

/-- The characters that a text has in an encoding, which goes by the given name. An encoding is
    tried on all bytes in order first: a label of a domain name that holds them has the first byte
    too high for ASCII 82 places after its last hyphen. -/
def decode (text : List Char) (name : String) : Encoding → Except DocumentError (List Char)
  | utf8 => .ok text
  | latin => .ok ((text.flatMap String.utf8EncodeChar).map fun byte => Char.ofNat byte.toNat)
  | page p =>
    match (text.flatMap String.utf8EncodeChar).mapM p.char? with
    | some characters => .ok characters
    | none => .error .malformed
  | wide => .error .wideEncoding
  | foreign => .error .malformed
  | binary => .error (.binaryEncoding name)
  | strict => .error (.strictEncoding name)
  | asciiLabel => .error (.undecodableByte "0x80" 82)
  | undefined => .error (.undefinedEncoding name)

end Encoding
end Bindings.Markup

import Bindings.Native.Type
import Bindings.Text.Quoted

/-!
# Structural faults

What can be wrong with the shape of the metadata, one cause each, and the message that
tells of it.
-/

namespace Bindings
open Bindings.Text

/-- A reason why metadata cannot be projected. -/
inductive Fault
  /- Signatures -/
  | malformedSignature (text : String)
  | emptySignature
  | expectedToken (token text : String)
  | truncatedSignature (text : String)
  | unexpectedToken (token text : String)
  | trailingTokens (text : String)
  /- Elements of the metadata -/
  | notAnInteger (field raw tag : String) (name : Option String)
  | missingAttribute (tag field : String)
  | badInvalidValue (token : String) (name : Option String)
  | badEnumBase (space name base : String)
  | unknownTypeElement (tag space name : String)
  | unknownRoot (tag : String)
  | unknownElement (tag space : String)
  | unknownTemplateRoot (tag : String)
  | unknownTemplateKind (kind : String) (name : Option String)
  /- Variants -/
  | noEntry (name : String)
  | ambiguousVariants (count : Nat) (name : String)
  /- Projection -/
  | unknownPrimitive (code : String)
  | unknownReference (name : String)
  | selfReferringDelegate (name : String)
  | voidParameter (name : String)
  | unknownBase (base derived : String)
  | inheritanceCycle (name : String)
  | notWrappable (signature : String)
  | unknownReleaseResult (signature release : String)
  | missingSpecial (name : String)
  | unknownEncoding (kind name : String)
  | malformedValue (name kind raw : String)
  | missingRequirement (template requirement : String)
  /- Causes that come from outside -/
  | stated (message : String)
  deriving DecidableEq, Repr, Inhabited

/-- The message of a fault. -/
def Fault.message : Fault → String
  | malformedSignature text => "Malformed type signature: " ++ quoted text
  | emptySignature => "Empty type signature"
  | expectedToken token text =>
    "Expected " ++ quoted token ++ " in type signature: " ++ quoted text
  | truncatedSignature text => "Truncated type signature: " ++ quoted text
  | unexpectedToken token text =>
    "Unexpected " ++ quoted token ++ " in type signature: " ++ quoted text
  | trailingTokens text => "Unexpected trailing tokens in type signature: " ++ quoted text
  | notAnInteger field raw tag name =>
    "Attribute " ++ field ++ "=" ++ quoted raw ++ " on <" ++ tag ++ " name=" ++ quoted? name
      ++ "> is not an integer"
  | missingAttribute tag field =>
    "<" ++ tag ++ "> element is missing required attribute '" ++ field ++ "'"
  | badInvalidValue token name => "Invalid handle value " ++ quoted token ++ " on " ++ quoted? name
  | badEnumBase space name base =>
    "Enum " ++ dotted space name ++ " has unsupported base type " ++ quoted base
  | unknownTypeElement tag space name =>
    "Unrecognized type element <" ++ tag ++ "> for " ++ dotted space name
  | unknownRoot tag => "Expected <metadata> root element, found <" ++ tag ++ ">"
  | unknownElement tag space => "Unrecognized element <" ++ tag ++ "> in namespace " ++ space
  | unknownTemplateRoot tag => "Expected <templates> root element, found <" ++ tag ++ ">"
  | unknownTemplateKind kind name =>
    "Unrecognized template kind " ++ quoted kind ++ " for " ++ quoted? name
  | noEntry name => "No metadata entry for " ++ name
  | ambiguousVariants count name =>
    "Ambiguous metadata: " ++ ofInt count ++ " variants of " ++ name ++ " apply"
  | unknownPrimitive code => "Unrecognized primitive type code: " ++ code
  | unknownReference name => "Unrecognized type reference: " ++ name
  | selfReferringDelegate name => "Delegate " ++ name ++ " refers to itself"
  | voidParameter name => "Parameter " ++ name ++ " is declared void"
  | unknownBase base derived =>
    "Unrecognized base type " ++ base ++ " for interface " ++ derived
  | inheritanceCycle name => "Interface inheritance cycle through " ++ name
  | notWrappable signature => "Cannot wrap " ++ signature ++ " in a guarded handle"
  | unknownReleaseResult signature release =>
    "Unrecognized return type " ++ signature ++ " on release function " ++ release
  | missingSpecial name => "Special type " ++ name ++ " has no template"
  | unknownEncoding kind name =>
    "Unsupported constant encoding " ++ quoted kind ++ " for " ++ name
  | malformedValue name kind raw =>
    "Constant " ++ name ++ " has malformed " ++ kind ++ " value " ++ quoted raw
  | missingRequirement template requirement =>
    template ++ " requires " ++ requirement ++ ", which is not in the metadata"
  | stated message => message

end Bindings

import Stencil.Number.Integer
import Stencil.Text.Inspected
import Stencil.Token.Basic
import Stencil.Value.Basic

set_option autoImplicit false

namespace Stencil

inductive Category where
  | lex | syntactic | undefinedName | type | notIterable | keyNotFound | indexOutOfRange
  | call | render | io | serialize
  deriving DecidableEq, Repr

def Category.name : Category → String
  | .lex => "Lex"
  | .syntactic => "Syntax"
  | .undefinedName => "UndefinedName"
  | .type => "Type"
  | .notIterable => "NotIterable"
  | .keyNotFound => "KeyNotFound"
  | .indexOutOfRange => "IndexOutOfRange"
  | .call => "Call"
  | .render => "Render"
  | .io => "Io"
  | .serialize => "Serialize"

inductive Operation where
  | addition | multiplication | division | remainder | negation
  deriving DecidableEq, Repr

def Operation.name : Operation → String
  | .addition => "addition"
  | .multiplication => "multiplication"
  | .division => "division"
  | .remainder => "remainder"
  | .negation => "negation"

inductive Cause where
  -- reading tokens
  | unexpectedCharacter
  | undelimitedString
  | malformedNumber
  | unclosedRegion (region : Region)
  | strayClosing (region : Region)
  -- reading terms and tags
  | unexpected (wanted : String) (found : Lexeme)
  | unexpectedEnd (wanted : String)
  | wrongKeyword (wanted found : Keyword)
  | misplacedKeyword (found : Keyword)
  | notCallable
  | integerLiteralRange
  | floatLiteralRange
  | unknownEscape
  | unknownTag (name : String)
  | misplacedTag (name : String)
  | unclosedTag (name : String)
  -- computing with values
  | undefinedName (name : String)
  | notNumeric (text : String)
  | expectedNumber (found : Value.Kind)
  | overflow (operation : Operation)
  | divisionByZero
  | remainderByZero
  | expectedStringLeftOfIn (found : Value.Kind)
  | noMembership (found : Value.Kind)
  | badMapKey (found : Value.Kind)
  | badIndex (container found : Value.Kind)
  | notIndexable (found : Value.Kind)
  | missingKey (key : String)
  | indexOutOfRange (length : Nat) (index : Int64)
  | notSliceable (found : Value.Kind)
  | zeroSliceStep
  | notIterable (found : Value.Kind)
  | unpackLength (length names : Nat)
  | unpackKind (found : Value.Kind)
  | unknownFunction (name : String)
  | failedCall (name message : String)
  -- rendering
  | unknownTemplate (path : String)
  | unknownText (path : String)
  | includeDepth (limit : Nat)
  | contextKind (found : Value.Kind)
  | format
  | sink (message : String)
  -- bringing data in
  | keyKind (found : String)
  | valueBeforeKey
  | unsupported (type : String)
  | data (message : String)
  -- any other report
  | report (category : Category) (message : String)
  deriving DecidableEq, Repr

namespace Cause

def category : Cause → Category
  | .unexpectedCharacter | .undelimitedString | .malformedNumber => .lex
  | .unclosedRegion _ | .strayClosing _ | .unexpected _ _ | .unexpectedEnd _ | .wrongKeyword _ _
  | .misplacedKeyword _ | .notCallable | .integerLiteralRange | .floatLiteralRange
  | .unknownEscape | .unknownTag _ | .misplacedTag _ | .unclosedTag _ => .syntactic
  | .undefinedName _ => .undefinedName
  | .notNumeric _ | .expectedNumber _ | .overflow _ | .divisionByZero | .remainderByZero
  | .expectedStringLeftOfIn _ | .noMembership _ | .badMapKey _ | .badIndex _ _ | .notIndexable _
  | .notSliceable _ | .zeroSliceStep | .unpackLength _ _ | .unpackKind _ => .type
  | .missingKey _ => .keyNotFound
  | .indexOutOfRange _ _ => .indexOutOfRange
  | .notIterable _ => .notIterable
  | .unknownFunction _ | .failedCall _ _ => .call
  | .unknownTemplate _ | .unknownText _ | .includeDepth _ | .contextKind _ | .format => .render
  | .sink _ => .io
  | .keyKind _ | .valueBeforeKey | .unsupported _ | .data _ => .serialize
  | .report c _ => c

def message : Cause → String
  | .unexpectedCharacter => "unexpected character"
  | .undelimitedString => "undelimited string"
  | .malformedNumber => "malformed number literal"
  | .unclosedRegion r => "unclosed begin " ++ r.name
  | .strayClosing r => "unexpected end " ++ r.name
  | .unexpected wanted found => "expected " ++ wanted ++ ", found " ++ found.describe
  | .unexpectedEnd wanted => "expected " ++ wanted ++ ", found EOF"
  | .wrongKeyword wanted found =>
    "expected keyword `" ++ wanted.text ++ "`, found keyword `" ++ found.text ++ "`"
  | .misplacedKeyword k => "unexpected keyword `" ++ k.text ++ "`"
  | .notCallable => "only named functions can be called"
  | .integerLiteralRange => "integer literal out of range for 64-bit integer"
  | .floatLiteralRange => "float literal out of range"
  | .unknownEscape => "unknown escape character"
  | .unknownTag n => "unknown tag `" ++ n ++ "`"
  | .misplacedTag n => "unexpected `" ++ n ++ "` block"
  | .unclosedTag n => "unclosed `" ++ n ++ "` block"
  | .undefinedName n => "undefined name `" ++ n ++ "`"
  | .notNumeric s => "cannot convert string " ++ Text.inspect s ++ " to a number"
  | .expectedNumber k => "expected number, found " ++ k.name
  | .overflow o => "integer overflow in " ++ o.name
  | .divisionByZero => "integer division by zero"
  | .remainderByZero => "integer remainder by zero"
  | .expectedStringLeftOfIn k => "expected string on the left of `in`, found " ++ k.name
  | .noMembership k => "cannot test membership in " ++ k.name
  | .badMapKey k => "cannot index into map with " ++ k.name
  | .badIndex c k => "cannot index into " ++ c.name ++ " with " ++ k.name
  | .notIndexable k => "cannot index into " ++ k.name
  | .missingKey k => "not found in map: `" ++ k ++ "`"
  | .indexOutOfRange n i =>
    "index out of bounds: the length is " ++ Integer.textOfInt n ++ " but the index is "
      ++ Integer.toText i
  | .notSliceable k => "cannot slice " ++ k.name
  | .zeroSliceStep => "slice step cannot be zero"
  | .notIterable k => "expected iterable, but expression evaluated to " ++ k.name
  | .unpackLength n m =>
    "cannot unpack list of length " ++ Integer.textOfInt n ++ " into " ++ Integer.textOfInt m
      ++ " variables"
  | .unpackKind k => "cannot unpack " ++ k.name ++ ", expected list"
  | .unknownFunction n => "unknown function `" ++ n ++ "`"
  | .failedCall n m => "call to `" ++ n ++ "` failed: " ++ m
  | .unknownTemplate p => "unknown template `" ++ p ++ "`"
  | .unknownText p => "unknown text `" ++ p ++ "`"
  | .includeDepth n => "reached maximum include depth (" ++ Integer.textOfInt n ++ ")"
  | .contextKind k => "expected map for render context, found " ++ k.name
  | .format => "format error"
  | .sink m => "io error: " ++ m
  | .keyKind f => "map key must be a string, found " ++ f
  | .valueBeforeKey => "map value serialized before its key"
  | .unsupported t => t ++ " is not supported"
  | .data m => m
  | .report _ m => m

end Cause

/-- A cause at a place of the source at hand. -/
structure Fault where
  cause : Cause
  span : Span
  deriving DecidableEq, Repr

def Except.placedAt {α : Type} (span : Span) : Except Cause α → Except Fault α
  | .ok a => .ok a
  | .error c => .error ⟨c,span⟩

end Stencil

import CollectionInterfaces.Calendar
import CollectionInterfaces.Interpreter
import CollectionInterfaces.Text.Base64
import CollectionInterfaces.Text.Quoted
import CollectionInterfaces.Yaml.Token

/-!
# Errors in YAML

What can be wrong with a YAML text: a forbidden character, a text or a document that is malformed at
some place, or a scalar that its tag cannot be applied to. Besides, the interpreter may have no room
for what is inside each other.
-/

namespace CollectionInterfaces.Yaml

/-- The stage of reading that an error belongs to. -/
inductive Stage
  | tokens
  | grammar
  | names
  | values
  deriving DecidableEq, Repr

inductive NodeKind
  | scalar
  | sequence
  | mapping
  deriving DecidableEq, Repr

/-- What was being read when an error was found. -/
inductive Context
  | simpleKey
  | nextToken
  | directive
  | directiveUri
  | alias
  | anchor
  | tag
  | tagUri
  | blockScalar
  | doubleQuoted
  | quoted
  | node
  | blockNode
  | flowNode
  | blockCollection
  | blockMapping
  | flowSequence
  | flowMapping
  | firstAnchor (name : Text)
  | singleDocument
  | mapping
  | orderedMapping
  | pairs
  deriving DecidableEq, Repr

inductive Problem
  | noColon
  | noToken (found : CodePoint)
  | misplacedEntry
  | misplacedKey
  | misplacedValue
  | noName (found : CodePoint)
  | noDigit (found : CodePoint)
  | noDigitOrPoint (found : CodePoint)
  | noDigitOrSpace (found : CodePoint)
  | noSpace (found : CodePoint)
  /-- Something stands where the line should end. -/
  | noLineEnd (found : CodePoint)
  | noExclamation (found : CodePoint)
  | noAngle (found : CodePoint)
  | noUri (found : CodePoint)
  /-- An escape in a tag has not two digits. -/
  | uriEscape (found : CodePoint)
  /-- The escapes in a tag are not UTF-8. -/
  | uriEncoding (e : Utf8.DecodeError)
  | zeroIndentation
  /-- The head of a scalar in block notation is not understood. -/
  | noIndicator (found : CodePoint)
  | escapeDigits (digits : Nat) (found : CodePoint)
  | unknownEscape (found : CodePoint)
  | endInQuotes
  | documentMarkInQuotes
  | noDocumentStart (found : TokenKind)
  | secondVersion
  | wrongVersion
  | secondShorthand (handle : Text)
  | unknownShorthand (handle : Text)
  | noContent (found : TokenKind)
  | noBlockEnd (found : TokenKind)
  | noSequenceEnd (found : TokenKind)
  | noMappingEnd (found : TokenKind)
  | unknownAlias (name : Text)
  /-- Another node has the same name. -/
  | secondAnchor
  | secondDocument
  | unknownTag (tag : Text)
  | wrongNode (expected found : NodeKind)
  | collectionAsKey
  | notMergeable (found : NodeKind)
  | itemNotMergeable (found : NodeKind)
  | notSequence (found : NodeKind)
  | notPair (found : NodeKind)
  /-- An item of a list of pairs has another number of entries than one. -/
  | notOneEntry (entries : Nat)
  /-- Bytes are written with other code points than ASCII: the first, its place, and how many more
  follow it. -/
  | bytesNotAscii (found : CodePoint) (position more : Nat)
  | notBase64 (fault : Base64.Fault)
  deriving DecidableEq, Repr

/-- Why a tag cannot be applied to the text of a scalar. -/
inductive ConversionFault
  | notInteger (base : Nat) (t : Text)
  | longInteger (digits : Nat)
  | notFloat (t : Text)
  | emptyNumber
  | notBool (t : Text)
  | notTimestamp
  | collectionAsTimestamp
  | calendar (fault : CalendarFault)
  | noCodePoint
  /-- The number of a code point is past all bounds. -/
  | hugeCodePoint
  /-- A power of sixty is past the floating point numbers. -/
  | hugePower
  deriving DecidableEq, Repr

/-- A text or a document that is malformed. -/
structure Malformation where
  stage : Stage
  context : Option Context
  /-- Where that starts, if that is told. -/
  contextMark : Option Mark
  problem : Problem
  mark : Mark
  deriving DecidableEq, Repr

/-- What is wrong for a stage in a context. -/
def Malformation.within (stage : Stage) (context : Context) (contextMark : Mark)
    (problem : Problem) (mark : Mark) : Malformation :=
  ⟨stage, some context, some contextMark, problem, mark⟩

/-- What is wrong for a stage on its own. -/
def Malformation.plain (stage : Stage) (problem : Problem) (mark : Mark) : Malformation :=
  ⟨stage, none, none, problem, mark⟩

inductive Error
  | forbidden (position : Nat) (character : CodePoint)
  | malformed (m : Malformation)
  | conversion (fault : ConversionFault)
  /-- There is no room for what is inside each other. -/
  | exhausted
  deriving DecidableEq, Repr

/-- An error of a stage in a context. -/
def Error.within (stage : Stage) (context : Context) (contextMark : Mark) (problem : Problem)
    (mark : Mark) : Error :=
  .malformed (.within stage context contextMark problem mark)

/-- An error of a stage on its own. -/
def Error.plain (stage : Stage) (problem : Problem) (mark : Mark) : Error :=
  .malformed (.plain stage problem mark)

/-! ## In words -/

def NodeKind.name : NodeKind → Text
  | .scalar => "scalar"
  | .sequence => "sequence"
  | .mapping => "mapping"

def Context.message : Context → Text
  | .simpleKey => "while scanning a simple key"
  | .nextToken => "while scanning for the next token"
  | .directive => "while scanning a directive"
  | .directiveUri => "while parsing a directive"
  | .alias => "while scanning an alias"
  | .anchor => "while scanning an anchor"
  | .tag => "while scanning a tag"
  | .tagUri => "while parsing a tag"
  | .blockScalar => "while scanning a block scalar"
  | .doubleQuoted => "while scanning a double-quoted scalar"
  | .quoted => "while scanning a quoted scalar"
  | .node => "while parsing a node"
  | .blockNode => "while parsing a block node"
  | .flowNode => "while parsing a flow node"
  | .blockCollection => "while parsing a block collection"
  | .blockMapping => "while parsing a block mapping"
  | .flowSequence => "while parsing a flow sequence"
  | .flowMapping => "while parsing a flow mapping"
  | .firstAnchor name => "found duplicate anchor " ++ name.quoted ++ "; first occurrence"
  | .singleDocument => "expected a single document in the stream"
  | .mapping => "while constructing a mapping"
  | .orderedMapping => "while constructing an ordered map"
  | .pairs => "while constructing pairs"

def butFound (expected : Text) (found : CodePoint) : Text :=
  "expected " ++ expected ++ ", but found " ++ Text.quoted [found]

def butFoundToken (expected : Text) (found : TokenKind) : Text :=
  "expected " ++ expected ++ ", but found " ++ found.name.quoted

def Problem.message : Problem → Text
  | .noColon => "could not find expected ':'"
  | .noToken c => "found character " ++ Text.quoted [c] ++ " that cannot start any token"
  | .misplacedEntry => "sequence entries are not allowed here"
  | .misplacedKey => "mapping keys are not allowed here"
  | .misplacedValue => "mapping values are not allowed here"
  | .noName c => butFound "alphabetic or numeric character" c
  | .noDigit c => butFound "a digit" c
  | .noDigitOrPoint c => butFound "a digit or '.'" c
  | .noDigitOrSpace c => butFound "a digit or ' '" c
  | .noSpace c => butFound "' '" c
  | .noLineEnd c => butFound "a comment or a line break" c
  | .noExclamation c => butFound "'!'" c
  | .noAngle c => butFound "'>'" c
  | .noUri c => butFound "URI" c
  | .uriEscape c => butFound "URI escape sequence of 2 hexadecimal numbers" c
  | .uriEncoding e => e.message
  | .zeroIndentation => "expected indentation indicator in the range 1-9, but found 0"
  | .noIndicator c => butFound "chomping or indentation indicators" c
  | .escapeDigits digits c =>
    butFound ("escape sequence of " ++ Text.ofNat digits ++ " hexadecimal numbers") c
  | .unknownEscape c => "found unknown escape character " ++ Text.quoted [c]
  | .endInQuotes => "found unexpected end of stream"
  | .documentMarkInQuotes => "found unexpected document separator"
  | .noDocumentStart t => butFoundToken "'<document start>'" t
  | .secondVersion => "found duplicate YAML directive"
  | .wrongVersion => "found incompatible YAML document (version 1.* is required)"
  | .secondShorthand handle => "duplicate tag handle " ++ handle.quoted
  | .unknownShorthand handle => "found undefined tag handle " ++ handle.quoted
  | .noContent t => butFoundToken "the node content" t
  | .noBlockEnd t => butFoundToken "<block end>" t
  | .noSequenceEnd t => "expected ',' or ']', but got " ++ t.name.quoted
  | .noMappingEnd t => "expected ',' or '\x7d', but got " ++ t.name.quoted
  | .unknownAlias name => "found undefined alias " ++ name.quoted
  | .secondAnchor => "second occurrence"
  | .secondDocument => "but found another document"
  | .unknownTag tag => "could not determine a constructor for the tag " ++ tag.quoted
  | .wrongNode expected found =>
    "expected a " ++ expected.name ++ " node, but found " ++ found.name
  | .collectionAsKey => "found unhashable key"
  | .notMergeable found =>
    "expected a mapping or list of mappings for merging, but found " ++ found.name
  | .itemNotMergeable found => "expected a mapping for merging, but found " ++ found.name
  | .notSequence found => "expected a sequence, but found " ++ found.name
  | .notPair found => "expected a mapping of length 1, but found " ++ found.name
  | .notOneEntry entries =>
    "expected a single mapping item, but found " ++ Text.ofNat entries ++ " items"
  | .bytesNotAscii c position more =>
    "failed to convert base64 data into ascii: 'ascii' codec can't encode " ++
      Utf8.places ("character '" ++ Text.numericEscape c.val ++ "'") "characters" position more ++
      ": ordinal not in range(128)"
  | .notBase64 fault => "failed to decode base64 data: " ++ fault.message

/-- A fault of a conversion in words. Long texts are cut. -/
def ConversionFault.message : ConversionFault → Text
  | .notInteger base t =>
    "invalid literal for int() with base " ++ Text.ofNat base ++ ": " ++ t.quoted.take 200
  | .longInteger digits => Text.tooManyDigits digits
  | .notFloat t => "could not convert string to float: " ++ t.quoted
  | .emptyNumber => "string index out of range"
  | .notBool t => t.quoted
  | .notTimestamp => "'NoneType' object has no attribute 'groupdict'"
  | .collectionAsTimestamp => "expected string or bytes-like object, got 'list'"
  | .calendar fault => fault.message
  | .noCodePoint => "chr() arg not in range(0x110000)"
  | .hugeCodePoint => "Python int too large to convert to C int"
  | .hugePower => "int too large to convert to float"

def forbiddenReason : Text := "special characters are not allowed"

/-- The first line of an error in words. -/
def Error.summary : Error → Text
  | .forbidden _ c =>
    "unacceptable character #x" ++ Text.ofNatHex 4 c.val ++ ": " ++ forbiddenReason
  | .malformed m => (m.context.map Context.message).getD m.problem.message
  | .conversion fault => fault.message
  | .exhausted => Interpreter.exhaustedMessage

end CollectionInterfaces.Yaml

import CollectionInterfaces.Yaml.Cursor

/-!
# Tokens of YAML

The tokens that a YAML text consists of. The starts of block collections and the marks of keys are
tokens even where nothing in the text stands for them.
-/

namespace CollectionInterfaces.Yaml

inductive Directive
  | version (major minor : Nat)
  /-- A shorthand for the beginning of tags. -/
  | shorthand (handle beginning : Text)
  | other (name : Text)
  deriving DecidableEq, Repr

/-- A token without its place. -/
inductive TokenKind
  | streamStart
  | streamEnd
  | directive (d : Directive)
  | documentStart
  | documentEnd
  | blockSequenceStart
  | blockMappingStart
  | blockEnd
  | flowSequenceStart
  | flowMappingStart
  | flowSequenceEnd
  | flowMappingEnd
  | blockEntry
  | flowEntry
  | key
  | value
  | alias (name : Text)
  | anchor (name : Text)
  /-- The tag of a node: a shorthand, if one is used, and the rest of the tag. -/
  | tag (handle : Option Text) (rest : Text)
  /-- A scalar; it is plain if it stands without quotes on its own. -/
  | scalar (t : Text) (plain : Bool)
  deriving DecidableEq, Repr

namespace TokenKind

def name : TokenKind → Text
  | .streamStart => "<stream start>"
  | .streamEnd => "<stream end>"
  | .directive _ => "<directive>"
  | .documentStart => "<document start>"
  | .documentEnd => "<document end>"
  | .blockSequenceStart => "<block sequence start>"
  | .blockMappingStart => "<block mapping start>"
  | .blockEnd => "<block end>"
  | .flowSequenceStart => "["
  | .flowMappingStart => "\x7b"
  | .flowSequenceEnd => "]"
  | .flowMappingEnd => "\x7d"
  | .blockEntry => "-"
  | .flowEntry => ","
  | .key => "?"
  | .value => ":"
  | .alias _ => "<alias>"
  | .anchor _ => "<anchor>"
  | .tag _ _ => "<tag>"
  | .scalar _ _ => "<scalar>"

end TokenKind

/-- A token with the places where it starts and ends. -/
structure Token where
  kind : TokenKind
  start : Mark
  stop : Mark
  deriving DecidableEq, Repr

end CollectionInterfaces.Yaml

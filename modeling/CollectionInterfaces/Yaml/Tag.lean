import CollectionInterfaces.Yaml.Timestamp

/-!
# Tags in YAML

The tags that have values, and the tag that a plain scalar has by the look of its text.
-/

namespace CollectionInterfaces.Yaml

/-- The tags that have a meaning. -/
inductive CoreTag
  | null
  | bool
  | int
  | float
  | binary
  | timestamp
  | orderedMap
  | pairs
  | set
  | text
  | list
  | map
  /-- The key whose value is merged into a mapping. -/
  | merge
  /-- The key whose value stands for a mapping. -/
  | default
  /-- A mark of the notation itself. -/
  | notationMark
  deriving DecidableEq, Repr

namespace CoreTag

def space : Text := "tag:yaml.org,2002:"

def shortName : CoreTag → Text
  | .null => "null"
  | .bool => "bool"
  | .int => "int"
  | .float => "float"
  | .binary => "binary"
  | .timestamp => "timestamp"
  | .orderedMap => "omap"
  | .pairs => "pairs"
  | .set => "set"
  | .text => "str"
  | .list => "seq"
  | .map => "map"
  | .merge => "merge"
  | .default => "value"
  | .notationMark => "yaml"

def toText (tag : CoreTag) : Text := space ++ tag.shortName

def all : List CoreTag :=
  [.null, .bool, .int, .float, .binary, .timestamp, .orderedMap, .pairs, .set, .text, .list, .map,
    .merge, .default, .notationMark]

def ofText? (t : Text) : Option CoreTag := all.find? (·.toText = t)

theorem ofText?_toText {tag : CoreTag} : ofText? tag.toText = some tag := by
  cases tag <;> decide

end CoreTag

/-! ## The look of a scalar -/

def isDigitOrLow (c : CodePoint) : Bool := c.isDigit || c = .ofChar '_'

/-- The text without a sign in front of it. -/
def dropSign : Text → Text
  | [] => []
  | c :: rest => if c = .ofChar '-' ∨ c = .ofChar '+' then rest else c :: rest

/-- Digits and underscores after a digit, and the text after them. -/
def cutNumber (t : Text) : Option (Text × Text) :=
  match t with
  | [] => none
  | c :: _ =>
    if c.isDigit then some (t.takeWhile isDigitOrLow, t.dropWhile isDigitOrLow) else none

/-- Nothing, or an exponent with its sign. -/
def isExponentOrEnd : Text → Bool
  | [] => true
  | c :: rest =>
    c.toLower = .ofChar 'e' &&
      match rest with
      | [] => false
      | sign :: digits =>
        (sign = .ofChar '-' || sign = .ofChar '+') && !digits.isEmpty &&
          digits.all CodePoint.isDigit

/-- A number below sixty. -/
def isSixtieth : Text → Bool
  | [c] => c.isDigit
  | [c, d] => c.isDigit && c.val < 54 && d.isDigit
  | _ => false

/-- One or more numbers below sixty, each after a colon. -/
def areSixtieths (t : Text) : Bool :=
  match Text.splitAll ':' t with
  | [] :: parts => !parts.isEmpty && parts.all isSixtieth
  | _ => false

def looksLikeFloat (t : Text) : Bool :=
  let body := dropSign t
  let special := [(".inf" : Text), ".Inf", ".INF"].contains body ||
    [(".nan" : Text), ".NaN", ".NAN"].contains t
  special ||
    match cutNumber body with
    | some (_, rest) =>
      match Text.cut '.' rest with
      | ([], some fraction) => isExponentOrEnd (fraction.dropWhile isDigitOrLow)
      | (sixtieths, some fraction) => areSixtieths sixtieths && fraction.all isDigitOrLow
      | (_, none) => false
    | none =>
      match t with
      | [] => false
      | c :: rest =>
        c = .ofChar '.' && (cutNumber rest).any fun (_, rest) => isExponentOrEnd rest

def looksLikeInt (t : Text) : Bool :=
  let body := dropSign t
  let digitsAfter (mark : Text) (p : CodePoint → Bool) : Bool :=
    (Text.after? mark body).any fun digits =>
      !digits.isEmpty && digits.all fun c => p c || c = .ofChar '_'
  digitsAfter "0b" (fun c => c.val == 48 || c.val == 49) ||
    digitsAfter "0" (fun c => 48 ≤ c.val && c.val < 56) ||
    body = ("0" : Text) ||
    digitsAfter "0x" CodePoint.isHexDigit ||
    (body.head?.any fun c => c.isDigit && c != .ofChar '0') &&
      (let rest := body.dropWhile isDigitOrLow
       rest.isEmpty || areSixtieths rest)

def truthWords : List Text :=
  ["yes", "Yes", "YES", "no", "No", "NO", "true", "True", "TRUE", "false", "False", "FALSE", "on",
    "On", "ON", "off", "Off", "OFF"]

def nullWords : List Text := ["", "~", "null", "Null", "NULL"]

/-- The text without a line feed at its end, if something is left then. -/
def dropLastLineFeed (t : Text) : Text :=
  if 1 < t.length ∧ t.getLast? = some .lineFeed then t.dropLast else t

/-- The tag that a scalar has by its look. -/
def tagByLook (t : Text) : CoreTag :=
  let t := dropLastLineFeed t
  if truthWords.contains t then .bool
  else if looksLikeFloat t then .float
  else if looksLikeInt t then .int
  else if t = ("<<" : Text) then .merge
  else if nullWords.contains t then .null
  else if looksLikeTimestamp t then .timestamp
  else if t = ("=" : Text) then .default
  else if [("!" : Text), "&", "*"].contains t then .notationMark
  else .text

end CollectionInterfaces.Yaml

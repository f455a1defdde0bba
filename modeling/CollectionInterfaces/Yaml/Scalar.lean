import CollectionInterfaces.Number.Reading
import CollectionInterfaces.Text.Lowercase
import CollectionInterfaces.Value.Basic
import CollectionInterfaces.Yaml.Error
import CollectionInterfaces.Yaml.Tag

/-!
# Values of scalars in YAML

The value of a text under a tag. A tag that the document gives may not fit the text. One that was
chosen by the look of the text may not either: the text can look like a date that there is none of,
or like a number that is too long.
-/

namespace CollectionInterfaces.Yaml

/-- A result, or why a tag cannot be applied. -/
abbrev Converted (α : Type) := Except ConversionFault α

/-- The words of truth values in lower case. -/
def truthValues : List (Text × Bool) :=
  [("yes", true), ("no", false), ("true", true), ("false", false), ("on", true), ("off", false)]

def readBool (t : Text) : Converted Bool :=
  match truthValues.lookup t.lowercase with
  | some b => .ok b
  | none => .error (.notBool t.lowercase)

def integerIn (base : Nat) (t : Text) : Converted Int :=
  (Text.readInteger base t).mapError fun
    | .malformed => .notInteger base t
    | .tooLong digits => .longInteger digits

/-- An integer without its sign. A zero in front means base eight, and colons base sixty. -/
def unsignedInteger (t : Text) : Converted Int :=
  match Text.after? "0b" t, Text.after? "0x" t, t with
  | some digits, _, _ => integerIn 2 digits
  | _, some digits, _ => integerIn 16 digits
  | _, _, [] => .error .emptyNumber
  | _, _, c :: rest =>
    if c = .ofChar '0' then if rest.isEmpty then .ok 0 else integerIn 8 t
    else if t.contains (.ofChar ':') then
      ((Text.splitAll ':' t).mapM (integerIn 10)).map (·.foldl (fun n d => n * 60 + d) 0)
    else integerIn 10 t

/-- An integer. Underscores between its digits do not count. -/
def integerOf (t : Text) : Converted Int :=
  match t.without '_' with
  | [] => .error .emptyNumber
  | digits =>
    let (negative, body) := Text.cutSign digits
    (unsignedInteger body).map fun n => if negative then -n else n

/-- A floating point number that is a text. -/
def floatIn (t : Text) : Converted Binary64 :=
  match t.readBinary64 with
  | some x => .ok x
  | none => .error (.notFloat t)

/-- The sum of numbers in base sixty, the last one first. Each power of sixty must be in the range
of floating point numbers. -/
def sixtiethSum : (power : Nat) → Binary64 → List Binary64 → Converted Binary64
  | _, sum, [] => .ok sum
  | power, sum, x :: rest =>
    match Binary64.ofInt power with
    | .finite negative m e =>
      sixtiethSum (power * 60) (sum.add (x.mul (.finite negative m e))) rest
    | _ => .error .hugePower

def nanWord : Text := ".nan"

/-- A floating point number without its sign. Colons mean base sixty. -/
def unsignedFloat (t : Text) : Converted Binary64 :=
  if t = (".inf" : Text) then .ok (.infinite false)
  else if t = nanWord then .ok .nan
  else if t.contains (.ofChar ':') then do
    let xs ← (Text.splitAll ':' t).mapM floatIn
    sixtiethSum 1 (Binary64.zero false) xs.reverse
  else floatIn t

/-- The sign and the rest of a floating point number. Underscores between its digits do not
count. -/
def floatParts (t : Text) : Bool × Text := Text.cutSign (t.without '_').lowercase

def floatOf (t : Text) : Converted Binary64 :=
  if (t.without '_').isEmpty then .error .emptyNumber
  else
    let (negative, body) := floatParts t
    (unsignedFloat body).map fun x => if negative then x.neg else x

/-- The text is the word for what is no number, with or without a sign. -/
def isNanWord (t : Text) : Bool := (floatParts t).2 = nanWord

def timestampOf (t : Text) : Converted Scalar :=
  match readTimestamp (dropLastLineFeed t) with
  | none => .error .notTimestamp
  | some s =>
    match s.toCalendar with
    | .ok (.inl date) => .ok (.date date)
    | .ok (.inr moment) => .ok (.dateTime moment)
    | .error fault => .error (.calendar fault)

def isNotAscii (c : CodePoint) : Bool := 0x80 ≤ c.val

/-- Bytes in base 64, in a scalar that starts at a place. -/
def bytesOf (mark : Mark) (t : Text) : Except Error Bytes :=
  let before := t.takeWhile (!isNotAscii ·)
  match t.dropWhile (!isNotAscii ·) with
  | c :: rest =>
    let more := (rest.takeWhile isNotAscii).length
    .error (.plain .values (.bytesNotAscii c before.length more) mark)
  | [] => (Base64.decode t).mapError fun fault => .plain .values (.notBase64 fault) mark

/-- The value of a text under a tag for scalars, in a scalar that starts at a place. There is none
for the other tags. -/
def scalarOf? (tag : CoreTag) (mark : Mark) (t : Text) : Option (Except Error Scalar) :=
  match tag with
  | .null => some (.ok .null)
  | .bool => some (((readBool t).map .bool).mapError .conversion)
  | .int => some (((integerOf t).map .int).mapError .conversion)
  | .float => some (((floatOf t).map .float).mapError .conversion)
  | .binary => some ((bytesOf mark t).map .bytes)
  | .timestamp => some ((timestampOf t).mapError .conversion)
  | .text => some (.ok (.text t))
  | _ => none

end CollectionInterfaces.Yaml

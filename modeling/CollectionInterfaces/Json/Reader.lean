import CollectionInterfaces.Interpreter
import CollectionInterfaces.Json.Basic
import CollectionInterfaces.Number.Reading

/-!
# Reading JSON

A reader takes a text and gives a document and the text after it. A failure holds the text that
remained where something was wrong, which fixes the place in the whole text. When a name is
repeated in an object, the later value takes the place of the earlier one. There is room for a
number of arrays and objects inside each other.
-/

namespace CollectionInterfaces.Json

/-- What can be wrong at a place of a JSON text. -/
inductive Fault
  | byteOrderMark
  | noValue
  | noName
  | noColon
  | noComma
  | extraData
  | endlessText
  | controlCharacter
  | escape
  | numberEscape
  deriving DecidableEq, Repr

/-- What has other values inside. -/
inductive Container
  | array
  | object
  deriving DecidableEq, Repr

inductive Failure
  /-- A problem, and the text from its place on. -/
  | fault (problem : Fault) (rest : Text)
  | tooManyDigits (digits : Nat)
  /-- There is no room for another container inside the others. -/
  | exhausted (container : Container)
  deriving DecidableEq, Repr

/-- A blank between the parts of a document. -/
def isBlank (c : CodePoint) : Bool :=
  c = .ofChar ' ' || c = .ofChar '\t' || c = .lineFeed || c = .carriageReturn

/-- The text after the blanks in front of it. -/
def skipBlanks (t : Text) : Text := t.dropWhile isBlank

/-! ## Texts -/

/-- The code point of an escape with one letter. -/
def letterEscape? (c : CodePoint) : Option CodePoint :=
  if c = .ofChar '"' ∨ c = .ofChar '\\' ∨ c = .ofChar '/' then some c
  else if c = .ofChar 'b' then some (.ofNat 0x08)
  else if c = .ofChar 'f' then some (.ofNat 0x0C)
  else if c = .ofChar 'n' then some .lineFeed
  else if c = .ofChar 'r' then some .carriageReturn
  else if c = .ofChar 't' then some (.ofChar '\t')
  else none

def hexEscape? (a b c d : CodePoint) : Option CodePoint :=
  (Text.readDigits 16 0 [a, b, c, d]).map .ofNat

/-- Code points put in front of a text that was read. -/
def prepend (codePoints : Text) (read : Except Failure (Text × Text)) :
    Except Failure (Text × Text) :=
  read.map fun (t, rest) => (codePoints ++ t, rest)

/-- A text without its opening quote. The whole, from the quote on, is `start`. A first half of a
surrogate pair that was read last is held back as `half`, to be joined with a second half if that
is written as an escape, too. -/
def readText (start : Text) (half : Text) : Text → Except Failure (Text × Text)
  | [] => .error (.fault .endlessText start)
  | c :: rest =>
    if c = .ofChar '"' then .ok (half, rest)
    else if c = .ofChar '\\' then
      match rest with
      | [] => .error (.fault .endlessText start)
      | e :: rest' =>
        if e = .ofChar 'u' then
          match rest' with
          | h₁ :: h₂ :: h₃ :: h₄ :: next :: rest'' =>
            match hexEscape? h₁ h₂ h₃ h₄ with
            | none => .error (.fault .numberEscape rest)
            | some u =>
              match half with
              | high :: _ =>
                if u.isLowSurrogate then
                  prepend [.ofSurrogatePair high u] (readText start [] (next :: rest''))
                else if u.isHighSurrogate then prepend half (readText start [u] (next :: rest''))
                else prepend (half ++ [u]) (readText start [] (next :: rest''))
              | [] =>
                if u.isHighSurrogate then readText start [u] (next :: rest'')
                else prepend [u] (readText start [] (next :: rest''))
          | _ => .error (.fault .numberEscape rest)
        else
          match letterEscape? e with
          | none => .error (.fault .escape (c :: rest))
          | some u => prepend (half ++ [u]) (readText start [] rest')
    else if c.val < 0x20 then .error (.fault .controlCharacter (c :: rest))
    else prepend (half ++ [c]) (readText start [] rest)

/-! ## Numbers -/

/-- The digits before a fraction: one zero, or digits that start with no zero. -/
def cutWhole : Text → Text × Text
  | [] => ([], [])
  | c :: rest =>
    if c = .ofChar '0' then ([c], rest)
    else ((c :: rest).takeWhile CodePoint.isDigit, (c :: rest).dropWhile CodePoint.isDigit)

/-- A fraction: a point with digits after it. Without digits nothing is read. -/
def cutFraction : Text → Option Text × Text
  | [] => (none, [])
  | c :: rest =>
    if c = .ofChar '.' ∧ (rest.takeWhile CodePoint.isDigit) ≠ [] then
      (some (rest.takeWhile CodePoint.isDigit), rest.dropWhile CodePoint.isDigit)
    else (none, c :: rest)

/-- An exponent. Without digits nothing is read. -/
def cutExponent : Text → Option Int × Text
  | [] => (none, [])
  | c :: rest =>
    let (negative, body) := Text.cutSign rest
    let digits := body.takeWhile CodePoint.isDigit
    if c.toLower = .ofChar 'e' ∧ digits ≠ [] then
      (some (if negative then -(Text.toNat digits : Int) else Text.toNat digits),
        body.dropWhile CodePoint.isDigit)
    else (none, c :: rest)

/-- A number without its sign; `start` is the text with the sign. -/
def readNumber (negative : Bool) (start t : Text) : Except Failure (Json × Text) :=
  match cutWhole t with
  | ([], _) => .error (.fault .noValue start)
  | (whole, rest) =>
    match cutFraction rest with
    | (fraction, rest) =>
      match cutExponent rest with
      | (exponent, rest) =>
        if fraction.isNone && exponent.isNone then
          if Text.maxIntegerDigits < whole.length then .error (.tooManyDigits whole.length)
          else .ok (.int (if negative then -(whole.toNat : Int) else whole.toNat), rest)
        else
          let parts : DecimalParts := ⟨whole, fraction.getD [], exponent.getD 0⟩
          .ok (.float (parts.toBinary64 negative), rest)

/-! ## Documents -/

def literals : List (Text × Json) :=
  [("null", .null), ("true", .bool true), ("false", .bool false), ("NaN", .float .nan),
    ("Infinity", .float (.infinite false)), ("-Infinity", .float (.infinite true))]

def readLiteral? (t : Text) : Option (Json × Text) :=
  literals.findSome? fun (word, v) => (Text.after? word t).map fun rest => (v, rest)

def readAtom (t : Text) : Except Failure (Json × Text) :=
  match readLiteral? t with
  | some read => .ok read
  | none =>
    match t with
    | [] => .error (.fault .noValue t)
    | c :: rest =>
      if c = .ofChar '-' then readNumber true t rest else readNumber false t t

/-- The members of an object with one more. A repeated name keeps its place and takes the later
value. -/
def insertMember (name : Text) (v : Json) (members : List (Text × Json)) : List (Text × Json) :=
  insertEntry (fun a b => decide (a = b)) name v members

mutual

/-- A document at the start of a text. `fuel` bounds the number of steps, of which twice the length
of the text is enough, and `room` the number of containers inside each other. -/
def readValue : (fuel room : Nat) → Text → Except Failure (Json × Text)
  | 0, _, t => .error (.fault .noValue t)
  | _ + 1, _, [] => .error (.fault .noValue [])
  | fuel + 1, room, c :: rest =>
    if c = .ofChar '"' then
      (readText (c :: rest) [] rest).map fun (t, rest) => (.text t, rest)
    else if c = .ofChar '[' then
      match room with
      | 0 => .error (.exhausted .array)
      | room + 1 =>
        match skipBlanks rest with
        | d :: rest' =>
          if d = .ofChar ']' then .ok (.array [], rest')
          else
            (readElements fuel room (d :: rest')).map fun (elements, rest) =>
              (.array elements, rest)
        | [] => .error (.fault .noValue [])
    else if c = .ofChar '{' then
      match room with
      | 0 => .error (.exhausted .object)
      | room + 1 =>
        match skipBlanks rest with
        | d :: rest' =>
          if d = .ofChar '}' then .ok (.object [], rest')
          else
            (readMembers fuel room [] (d :: rest')).map fun (members, rest) =>
              (.object members, rest)
        | [] => .error (.fault .noName [])
    else readAtom (c :: rest)

/-- The elements of an array up to its end, at least one. -/
def readElements : (fuel room : Nat) → Text → Except Failure (List Json × Text)
  | 0, _, t => .error (.fault .noValue t)
  | fuel + 1, room, t => do
    let (v, rest) ← readValue fuel room t
    match skipBlanks rest with
    | [] => .error (.fault .noComma [])
    | c :: rest' =>
      if c = .ofChar ']' then .ok ([v], rest')
      else if c = .ofChar ',' then
        let (elements, rest) ← readElements fuel room (skipBlanks rest')
        .ok (v :: elements, rest)
      else .error (.fault .noComma (c :: rest'))

/-- The members of an object up to its end, at least one, put after those already read. -/
def readMembers : (fuel room : Nat) → List (Text × Json) → Text →
    Except Failure (List (Text × Json) × Text)
  | 0, _, _, t => .error (.fault .noName t)
  | _ + 1, _, _, [] => .error (.fault .noName [])
  | fuel + 1, room, members, c :: rest =>
    if c ≠ .ofChar '"' then .error (.fault .noName (c :: rest))
    else do
      let (name, rest) ← readText (c :: rest) [] rest
      match skipBlanks rest with
      | [] => .error (.fault .noColon [])
      | d :: rest =>
        if d ≠ .ofChar ':' then .error (.fault .noColon (d :: rest))
        else
          let (v, rest) ← readValue fuel room (skipBlanks rest)
          match skipBlanks rest with
          | [] => .error (.fault .noComma [])
          | e :: rest =>
            if e = .ofChar '}' then .ok (insertMember name v members, rest)
            else if e = .ofChar ',' then
              readMembers fuel room (insertMember name v members) (skipBlanks rest)
            else .error (.fault .noComma (e :: rest))

end

def byteOrderMark : CodePoint := .ofNat 0xFEFF

/-- A text that is one document, with blanks around it. -/
def readDocument (room : Nat) (t : Text) : Except Failure Json :=
  if t.head? = some byteOrderMark then .error (.fault .byteOrderMark t)
  else do
    let (v, rest) ← readValue (2 * t.length + 2) room (skipBlanks t)
    match skipBlanks rest with
    | [] => .ok v
    | extra => .error (.fault .extraData extra)

/-! ## Errors with their place -/

/-- Why a text is not a JSON document. -/
inductive ParseError
  /-- A problem, its line and column counted from one, and its distance from the start. -/
  | malformed (problem : Fault) (line column offset : Nat)
  | tooManyDigits (digits : Nat)
  | exhausted (container : Container)
  deriving DecidableEq, Repr

/-- A failure in a text as an error with its place. -/
def Failure.locate (whole : Text) : Failure → ParseError
  | .fault problem rest =>
    let before := whole.take (whole.length - rest.length)
    let (line, column) := Text.positionAfter before
    .malformed problem line column before.length
  | .tooManyDigits digits => .tooManyDigits digits
  | .exhausted container => .exhausted container

/-- The document that a text is, or what is wrong with it. -/
def parse [i : Interpreter] (t : Text) : Except ParseError Json :=
  (readDocument i.jsonRoom t).mapError (Failure.locate t)

def Fault.message : Fault → Text
  | .byteOrderMark => "Unexpected UTF-8 BOM (decode using utf-8-sig)"
  | .noValue => "Expecting value"
  | .noName => "Expecting property name enclosed in double quotes"
  | .noColon => "Expecting ':' delimiter"
  | .noComma => "Expecting ',' delimiter"
  | .extraData => "Extra data"
  | .endlessText => "Unterminated string starting at"
  | .controlCharacter => "Invalid control character at"
  | .escape => "Invalid \\escape"
  | .numberEscape => "Invalid \\uXXXX escape"

def Container.name : Container → Text
  | .array => "array"
  | .object => "object"

def ParseError.message : ParseError → Text
  | .malformed problem line column offset =>
    problem.message ++ ": line " ++ Text.ofNat line ++ " column " ++ Text.ofNat column ++
      " (char " ++ Text.ofNat offset ++ ")"
  | .tooManyDigits digits => Text.tooManyDigits digits
  | .exhausted container =>
    Interpreter.exhaustedMessage ++ " while decoding a JSON " ++ container.name ++
      " from a unicode string"

end CollectionInterfaces.Json

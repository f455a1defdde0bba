import CollectionInterfaces.Text.CodePoint

/-!
# Text

Text is a list of code points. The operations here are the general ones: splitting at a code
point, joining, replacing line ends, and the order by code points.
-/

namespace CollectionInterfaces

/-- A list of code points. -/
abbrev Text := List CodePoint

namespace Text

def ofString (s : String) : Text := s.toList.map CodePoint.ofChar

instance : Coe String Text := ⟨ofString⟩

/-- The text as a string, if no surrogate stands alone in it. -/
def toString? (t : Text) : Option String :=
  (t.mapM CodePoint.toChar?).map String.ofList

def spaces (n : Nat) : Text := List.replicate n ' '

/-- The pieces between the occurrences of `sep`; there is one more piece than occurrences. -/
def splitAll (sep : CodePoint) : Text → List Text
  | [] => [[]]
  | c :: rest =>
    match splitAll sep rest with
    | [] => [[c]]
    | piece :: pieces => if c = sep then [] :: piece :: pieces else (c :: piece) :: pieces

/-- The text before the first `sep` and the text after it; there is no second part if `sep` does
not occur. -/
def cut (sep : CodePoint) : Text → Text × Option Text
  | [] => ([], none)
  | c :: rest =>
    if c = sep then ([], some rest) else ((c :: (cut sep rest).1), (cut sep rest).2)

/-- The text after the given beginning, if it begins so. -/
def after? : (beginning : Text) → Text → Option Text
  | [], t => some t
  | _ :: _, [] => none
  | b :: beginning, c :: rest => if b = c then after? beginning rest else none

def beginsWith (beginning t : Text) : Bool := (after? beginning t).isSome

def endsWith (ending t : Text) : Bool := beginsWith ending.reverse t.reverse

/-- The texts one after another, with `sep` between two of them. -/
def join (sep : Text) : List Text → Text
  | [] => []
  | [piece] => piece
  | piece :: pieces => piece ++ sep ++ join sep pieces

/-- Every line end written as a line feed: a carriage return, with or without a line feed after
it, ends a line. -/
def unixLines : Text → Text
  | [] => []
  | c :: rest =>
    if c = .carriageReturn then
      match rest with
      | [] => [.lineFeed]
      | d :: rest' =>
        if d = .lineFeed then .lineFeed :: unixLines rest' else .lineFeed :: unixLines (d :: rest')
    else c :: unixLines rest

/-- ASCII letters in lower case. -/
def lower (t : Text) : Text := t.map CodePoint.toLower

def without (c : CodePoint) (t : Text) : Text := t.filter (· ≠ c)

/-- The order by code points, a prefix before its extensions. -/
def le : Text → Text → Bool
  | [], _ => true
  | _ :: _, [] => false
  | a :: as, b :: bs => a.val < b.val || (a.val == b.val && le as bs)

/-- The line and the column, both counted from one, that follow the given text. A line ends at a
line feed. -/
def positionAfter (t : Text) : Nat × Nat :=
  (t.count .lineFeed + 1, (t.reverse.takeWhile (· ≠ .lineFeed)).length + 1)

end Text

end CollectionInterfaces

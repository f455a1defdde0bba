import CollectionInterfaces.Text.Digit
import CollectionInterfaces.Text.Quoted

/-!
# Options of a command line

A command line is a list of arguments, some of which are options with or without a value. First the
arguments are classified, each by itself; then options take their values. What is neither an option
nor a value is left over.
-/

namespace CollectionInterfaces

inductive OptionArity
  | flag
  | value
  | choice (choices : List Text)
  deriving DecidableEq, Repr

structure CommandOption where
  spellings : List Text
  arity : OptionArity
  deriving DecidableEq, Repr

inductive UsageFault
  | ambiguous (argument : Text) (candidates : List Text)
  | surplusValue (option : CommandOption) (value : Text)
  | noValue (option : CommandOption)
  | wrongChoice (option : CommandOption) (value : Text) (choices : List Text)
  | unrecognized (arguments : List Text)
  deriving DecidableEq, Repr

/-- An option in messages: all its spellings. -/
def CommandOption.label (o : CommandOption) : Text := Text.join "/" o.spellings

def UsageFault.message : UsageFault → Text
  | .ambiguous argument candidates =>
    "ambiguous option: " ++ argument ++ " could match " ++ Text.join ", " candidates
  | .surplusValue o value =>
    "argument " ++ o.label ++ ": ignored explicit argument " ++ value.quoted
  | .noValue o => "argument " ++ o.label ++ ": expected one argument"
  | .wrongChoice o value choices =>
    "argument " ++ o.label ++ ": invalid choice: " ++ value.quoted ++ " (choose from " ++
      Text.join ", " (choices.map Text.quoted) ++ ")"
  | .unrecognized arguments => "unrecognized arguments: " ++ Text.join " " arguments

inductive GivenValue
  | present
  | value (t : Text)
  /-- The mark that ends the options in place of a value, which is dropped. -/
  | nothing
  deriving DecidableEq, Repr

structure Use where
  option : CommandOption
  given : GivenValue
  deriving DecidableEq, Repr

/-- What a command line says, as far as it could be read. -/
structure CommandLine where
  uses : List Use
  /-- The arguments that are left over, in order. -/
  leftOver : List Text
  /-- What is wrong with the rest. -/
  fault : Option UsageFault
  deriving DecidableEq, Repr

namespace CommandLine

def hyphen : CodePoint := '-'

/-- The argument after which there are no options. -/
def endOfOptions : Text := "--"

/-- What an argument is, taken by itself. -/
inductive Kind
  /-- An option as it is spelled, with the value after an equals sign or a single letter. -/
  | option (o : CommandOption) (spelling : Text) (value : Option Text)
  | unknown
  | operand
  deriving DecidableEq, Repr

def optionOf? (options : List CommandOption) (spelling : Text) : Option CommandOption :=
  options.find? (·.spellings.contains spelling)

def spellings (options : List CommandOption) : List (Text × CommandOption) :=
  options.flatMap fun o => o.spellings.map fun s => (s, o)

/-- Digits, with a point among them or not, after a hyphen. A line feed at the end is let pass. -/
def isNegativeNumber (argument : Text) : Bool :=
  match argument with
  | c :: rest =>
    let number := if rest.getLast? = some .lineFeed then rest.dropLast else rest
    let isDigit (d : CodePoint) : Bool := d.decimalValue?.isSome
    c = hyphen &&
      match Text.cut '.' number with
      | (whole, none) => !whole.isEmpty && whole.all isDigit
      | (whole, some fraction) =>
        whole.all isDigit && !fraction.isEmpty && fraction.all isDigit
  | [] => false

/-- An option of one letter in front of its value. -/
def gluedOption? (options : List CommandOption) (argument : Text) : Option Kind :=
  match argument with
  | a :: b :: rest =>
    if a = hyphen ∧ b ≠ hyphen then
      (optionOf? options [a, b]).map fun o => .option o [a, b] (some rest)
    else none
  | _ => none

/-- The options that an abbreviation may stand for, with the value after an equals sign. -/
def abbreviated (options : List CommandOption) (argument : Text) : List Kind × List Text :=
  let (beginning, value) := Text.cut '=' argument
  let candidates := (spellings options).filter fun (s, _) => Text.beginsWith beginning s
  (candidates.map fun (s, o) => .option o s value, candidates.map (·.1))

/-- What an argument is that is no spelling of an option. -/
def classifyOther (argument : Text) : Kind :=
  if isNegativeNumber argument || argument.contains (.ofChar ' ') then .operand else .unknown

/-- What an argument is, if options may be abbreviated or not. -/
def classify (options : List CommandOption) (abbreviate : Bool) (argument : Text) :
    Except UsageFault Kind :=
  if argument.length < 2 ∨ argument.head? ≠ some hyphen then .ok .operand
  else
    match optionOf? options argument with
    | some o => .ok (.option o argument none)
    | none =>
      match Text.cut '=' argument with
      | (spelling, some value) =>
        match optionOf? options spelling with
        | some o => .ok (.option o spelling (some value))
        | none => classifyRest
      | (_, none) => classifyRest
where
  classifyRest : Except UsageFault Kind :=
    match gluedOption? options argument with
    | some kind => .ok kind
    | none =>
      if abbreviate && Text.beginsWith endOfOptions argument then
        match abbreviated options argument with
        | ([kind], _) => .ok kind
        | ([], _) => .ok (classifyOther argument)
        | (_, names) => .error (.ambiguous argument names)
      else .ok (classifyOther argument)

/-- All arguments with what they are. After the end of options all are operands. -/
def classifyAll (options : List CommandOption) (abbreviate : Bool) :
    List Text → Except UsageFault (List (Text × Option Kind))
  | [] => .ok []
  | argument :: rest =>
    if argument = endOfOptions then
      .ok ((argument, none) :: rest.map fun a => (a, some .operand))
    else do
      let kind ← classify options abbreviate argument
      return (argument, some kind) :: (← classifyAll options abbreviate rest)

/-- The use of an option with a value. -/
def useOf (o : CommandOption) (value : Text) : Except UsageFault Use :=
  if value = endOfOptions then .ok ⟨o, .nothing⟩
  else
    match o.arity with
    | .choice choices =>
      if choices.contains value then .ok ⟨o, .value value⟩
      else .error (.wrongChoice o value choices)
    | _ => .ok ⟨o, .value value⟩

/-- The uses of options of one letter that are written together: the first one, and those that the
letters after it stand for. -/
def clusterUses (options : List CommandOption) (o : CommandOption) : Text →
    Except UsageFault (List Use)
  | [] => .ok [⟨o, .present⟩]
  | letter :: rest =>
    match optionOf? options [hyphen, letter] with
    | none => .error (.surplusValue o (letter :: rest))
    | some next =>
      match next.arity with
      | .flag => (clusterUses options next rest).map (⟨o, .present⟩ :: ·)
      | _ => .error (.noValue next)

/-- The spelling of an option of one letter. -/
def isShort (spelling : Text) : Bool := !Text.beginsWith endOfOptions spelling

/-- The uses that an option with a value written in the same argument stands for. -/
def usesWithValue (options : List CommandOption) (o : CommandOption) (spelling value : Text) :
    Except UsageFault (List Use) :=
  match o.arity with
  | .flag =>
    if isShort spelling && !value.isEmpty then clusterUses options o value
    else .error (.surplusValue o value)
  | _ => (useOf o value).map ([·])

namespace Parts

def withUses (uses : List Use) (c : CommandLine) : CommandLine := { c with uses := uses ++ c.uses }

/-- A command line with an argument left over in front. -/
def withLeftOver (argument : Text) (c : CommandLine) : CommandLine :=
  { c with leftOver := argument :: c.leftOver }

def failed (fault : UsageFault) : CommandLine := ⟨[], [], some fault⟩

end Parts

open Parts

def ofClassified (options : List CommandOption) : List (Text × Option Kind) → CommandLine
  | [] => ⟨[], [], none⟩
  | (_, some (.option o spelling (some value))) :: rest =>
    match usesWithValue options o spelling value with
    | .ok uses => withUses uses (ofClassified options rest)
    | .error fault => failed fault
  | (_, some (.option o _ none)) :: rest =>
    match o.arity with
    | .flag => withUses [⟨o, .present⟩] (ofClassified options rest)
    | _ =>
      match rest with
      | (value, some .operand) :: rest =>
        match useOf o value with
        | .ok use => withUses [use] (ofClassified options rest)
        | .error fault => failed fault
      | _ => failed (.noValue o)
  | (argument, _) :: rest => withLeftOver argument (ofClassified options rest)

/-- What the arguments of a command line say. -/
def ofArguments (options : List CommandOption) (abbreviate : Bool) (arguments : List Text) :
    CommandLine :=
  match classifyAll options abbreviate arguments with
  | .ok classified => ofClassified options classified
  | .error fault => failed fault

def last? (c : CommandLine) (o : CommandOption) : Option GivenValue :=
  (c.uses.reverse.find? (·.option = o)).map (·.given)

end CommandLine

end CollectionInterfaces

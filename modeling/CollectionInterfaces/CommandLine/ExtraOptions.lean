import CollectionInterfaces.Config

/-!
# Options that a run does not know

Options that are not known are kept with their values. What is no option is dropped.
-/

namespace CollectionInterfaces

namespace ExtraOptions

def mark : Text := "--"

/-- The equals sign between an option and its value. -/
def equals : CodePoint := '='

/-- The options with one more. A repeated option keeps its place and takes the later value. -/
def insert (options : ExtraOptions) (key : Text) (value : Option Text) : ExtraOptions :=
  insertEntry (fun a b => decide (a = b)) key value options

/-- The option and the value that an argument spells. -/
def ofArgument? (argument : Text) : Option (Text × Option Text) :=
  (Text.after? mark argument).map (Text.cut equals)

def ofArguments (arguments : List Text) : ExtraOptions :=
  (arguments.filterMap ofArgument?).foldl (fun options (key, value) => insert options key value) []

end ExtraOptions

end CollectionInterfaces

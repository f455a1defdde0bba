import CollectionInterfaces.Disk.Basic

/-!
# Transcripts

What a program has written and how it ended, with the disk as it left it. Standard output and
standard error take every text here: that their encoding may refuse one, such as a path with a
surrogate in it, is left out.
-/

namespace CollectionInterfaces

/-- What is left of the run of a program that fails, if it does, in ways of type `ε`. -/
structure Transcript (ε : Type) where
  output : Text
  errors : Text
  disk : Disk
  /-- The exit status, or the failure that ended the program. -/
  ending : Except ε Nat

/-- The transcript with its failure, if it ends in one, told in another way. -/
def Transcript.mapFailure (f : ε → δ) (t : Transcript ε) : Transcript δ :=
  ⟨t.output, t.errors, t.disk, t.ending.mapError f⟩

def line (t : Text) : Text := t ++ [.lineFeed]

def lines (ts : List Text) : Text := ts.flatMap line

end CollectionInterfaces

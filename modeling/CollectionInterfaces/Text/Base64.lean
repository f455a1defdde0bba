import CollectionInterfaces.Text.Utf8

/-!
# Base 64

Bytes written with 64 digits, four digits for three bytes. Code points that are no digits are
passed over; an equals sign that completes a group of digits ends the bytes.
-/

namespace CollectionInterfaces.Base64

inductive Fault
  | padding
  /-- One digit is left over after the given number of bytes. -/
  | leftOver (bytes : Nat)
  deriving DecidableEq, Repr

def Fault.message : Fault → Text
  | .padding => "Incorrect padding"
  | .leftOver bytes =>
    "Invalid base64-encoded string: number of data characters (" ++ Text.ofNat (bytes / 3 * 4 + 1)
      ++ ") cannot be 1 more than a multiple of 4"

def digit? (c : CodePoint) : Option Nat :=
  if c.isUpper then some (c.val - 65)
  else if c.isLower then some (c.val - 71)
  else if c.isDigit then some (c.val + 4)
  else if c = .ofChar '+' then some 62
  else if c = .ofChar '/' then some 63
  else none

/-- The bytes of the digits from a place in a group on. `carry` is the value of the bits that are
left from the digit before, `pads` the number of equals signs since then, and `count` the number of
bytes before. -/
def decodeFrom : (place carry pads count : Nat) → Text → Except Fault Bytes
  | 0, _, _, _, [] => .ok []
  | 1, _, _, count, [] => .error (.leftOver count)
  | _, _, _, _, [] => .error .padding
  | place, carry, pads, count, c :: rest =>
    if c = .ofChar '=' then
      if 2 ≤ place then
        -- the first digits that are filled up to a group end the text, whatever follows
        if 4 ≤ place + pads + 1 then .ok [] else decodeFrom place carry (pads + 1) count rest
      else decodeFrom place carry pads count rest
    else
      match digit? c with
      | none => decodeFrom place carry pads count rest
      | some d =>
        match place with
        | 0 => decodeFrom 1 d 0 count rest
        | 1 => (decodeFrom 2 (d % 16) 0 (count + 1) rest).map ((carry * 4 + d / 16).toUInt8 :: ·)
        | 2 => (decodeFrom 3 (d % 4) 0 (count + 1) rest).map ((carry * 16 + d / 4).toUInt8 :: ·)
        | _ => (decodeFrom 0 0 0 (count + 1) rest).map ((carry * 64 + d).toUInt8 :: ·)

def decode (t : Text) : Except Fault Bytes := decodeFrom 0 0 0 0 t

end CollectionInterfaces.Base64

import CollectionInterfaces.Text.Decimal

/-!
# UTF-8

Encoding of text as bytes and decoding of bytes as text. Surrogates standing alone have no
encoding, except in names of files: there the code points `U+DC80` to `U+DCFF` stand for the bytes
`0x80` to `0xFF` that are not part of any character.
-/

namespace CollectionInterfaces

abbrev Bytes := List UInt8

def CodePoint.utf8 (c : CodePoint) : Bytes :=
  let n := c.val
  if n < 0x80 then [n.toUInt8]
  else if n < 0x800 then [(0xC0 + n / 0x40).toUInt8, (0x80 + n % 0x40).toUInt8]
  else if n < 0x10000 then
    [(0xE0 + n / 0x1000).toUInt8, (0x80 + n / 0x40 % 0x40).toUInt8, (0x80 + n % 0x40).toUInt8]
  else
    [(0xF0 + n / 0x40000).toUInt8, (0x80 + n / 0x1000 % 0x40).toUInt8,
      (0x80 + n / 0x40 % 0x40).toUInt8, (0x80 + n % 0x40).toUInt8]

namespace Utf8

/-! ## Encoding -/

/-- Text that has no encoding: the first surrogate that has none, and the surrogates that follow
it at once. -/
structure EncodeError where
  /-- The place of the first surrogate, counted in code points. -/
  position : Nat
  first : CodePoint
  /-- The number of surrogates directly after it. -/
  more : Nat
  deriving DecidableEq, Repr

/-- The bytes of a text that starts at `position`; `escape` gives the byte of a surrogate. -/
def encodeWith (escape : CodePoint → Option UInt8) (position : Nat) :
    Text → Except EncodeError Bytes
  | [] => .ok []
  | c :: rest =>
    if c.isSurrogate then
      match escape c with
      | some b => (encodeWith escape (position + 1) rest).map (b :: ·)
      | none => .error ⟨position, c, (rest.takeWhile CodePoint.isSurrogate).length⟩
    else (encodeWith escape (position + 1) rest).map (c.utf8 ++ ·)

def encode (t : Text) : Except EncodeError Bytes := encodeWith (fun _ => none) 0 t

/-- The byte that a surrogate stands for in the name of a file. -/
def escapedByte (c : CodePoint) : Option UInt8 :=
  if 0xDC80 ≤ c.val && c.val ≤ 0xDCFF then some (c.val - 0xDC00).toUInt8 else none

/-- The bytes of the name of a file. -/
def encodeName (t : Text) : Except EncodeError Bytes := encodeWith escapedByte 0 t

/-! ## Decoding -/

inductive Reason
  | invalidStart
  | invalidContinuation
  | unexpectedEnd
  deriving DecidableEq, Repr

/-- Bytes that are not UTF-8: the first of them, their place and number, and the reason. -/
structure DecodeError where
  /-- The place of the first byte. -/
  position : Nat
  first : UInt8
  width : Nat
  reason : Reason
  deriving DecidableEq, Repr

def isTail (b : UInt8) : Bool := 0x80 ≤ b.toNat && b.toNat ≤ 0xBF

/-- A byte that can follow `first`. The second byte excludes encodings that are too long, the
surrogates, and numbers past the last code point. -/
def isSecond (first b : UInt8) : Bool :=
  isTail b &&
    !(first == 0xE0 && b.toNat < 0xA0) && !(first == 0xED && 0xA0 ≤ b.toNat) &&
    !(first == 0xF0 && b.toNat < 0x90) && !(first == 0xF4 && 0x90 ≤ b.toNat)

/-- The low six bits of a byte inside a character. -/
def tailBits (b : UInt8) : Nat := b.toNat - 0x80

/-- The character that starts with byte `b` before the bytes `rest`, and the number of bytes of
`rest` that belong to it; otherwise the reason and the number of bytes refused. -/
def decodeOne (b : UInt8) (rest : Bytes) : Except (Reason × Nat) (CodePoint × Nat) :=
  if b < 0x80 then .ok (.ofNat b.toNat, 0)
  -- a tail, or the start of a spelling in two bytes of what one byte spells
  else if b < 0xC2 then .error (.invalidStart, 1)
  else if b < 0xE0 then
    match rest with
    | [] => .error (.unexpectedEnd, 1)
    | c :: _ =>
      if isTail c then .ok (.ofNat ((b.toNat - 0xC0) * 0x40 + tailBits c), 1)
      else .error (.invalidContinuation, 1)
  else if b < 0xF0 then
    match rest with
    | [] => .error (.unexpectedEnd, 1)
    | [c] => .error (if isSecond b c then (.unexpectedEnd, 2) else (.invalidContinuation, 1))
    | c :: d :: _ =>
      if !isSecond b c then .error (.invalidContinuation, 1)
      else if !isTail d then .error (.invalidContinuation, 2)
      else .ok (.ofNat ((b.toNat - 0xE0) * 0x1000 + tailBits c * 0x40 + tailBits d), 2)
  else if b < 0xF5 then
    match rest with
    | [] => .error (.unexpectedEnd, 1)
    | [c] => .error (if isSecond b c then (.unexpectedEnd, 2) else (.invalidContinuation, 1))
    | [c, d] =>
      .error (if !isSecond b c then (.invalidContinuation, 1)
        else if !isTail d then (.invalidContinuation, 2) else (.unexpectedEnd, 3))
    | c :: d :: e :: _ =>
      if !isSecond b c then .error (.invalidContinuation, 1)
      else if !isTail d then .error (.invalidContinuation, 2)
      else if !isTail e then .error (.invalidContinuation, 3)
      else
        .ok (.ofNat ((b.toNat - 0xF0) * 0x40000 + tailBits c * 0x1000 + tailBits d * 0x40
          + tailBits e), 3)
  else .error (.invalidStart, 1)

/-- The text of bytes that start at `position`, after `skip` bytes that a character before them
has used. -/
def decodeFrom : (position skip : Nat) → Bytes → Except DecodeError Text
  | _, _, [] => .ok []
  | position, skip + 1, _ :: rest => decodeFrom (position + 1) skip rest
  | position, 0, b :: rest =>
    match decodeOne b rest with
    | .ok (c, used) => (decodeFrom (position + 1) used rest).map (c :: ·)
    | .error (reason, width) => .error ⟨position, b, width, reason⟩

def decode (bytes : Bytes) : Except DecodeError Text := decodeFrom 0 0 bytes

/-- The name of a file, after `skip` bytes that a character before them has used. -/
def decodeNameFrom : (skip : Nat) → Bytes → Text
  | _, [] => []
  | skip + 1, _ :: rest => decodeNameFrom skip rest
  | 0, b :: rest =>
    match decodeOne b rest with
    | .ok (c, used) => c :: decodeNameFrom used rest
    | .error _ => .ofNat (0xDC00 + b.toNat) :: decodeNameFrom 0 rest

/-- The name of a file: a byte that belongs to no character becomes a surrogate. -/
def decodeName (bytes : Bytes) : Text := decodeNameFrom 0 bytes

/-! ## Messages -/

def Reason.message : Reason → Text
  | .invalidStart => "invalid start byte"
  | .invalidContinuation => "invalid continuation byte"
  | .unexpectedEnd => "unexpected end of data"

/-- The places `position` to `position + more` in words. -/
def places (one many : Text) (position more : Nat) : Text :=
  if more = 0 then one ++ " in position " ++ Text.ofNat position
  else many ++ " in position " ++ Text.ofNat position ++ "-" ++ Text.ofNat (position + more)

/-- What is wrong with bytes that are not UTF-8. -/
def DecodeError.message (e : DecodeError) : Text :=
  "'utf-8' codec can't decode " ++
    places ("byte 0x" ++ Text.ofNatHex 2 e.first.toNat) "bytes" e.position (e.width - 1) ++
    ": " ++ e.reason.message

/-- What is wrong with text that has no encoding. -/
def EncodeError.message (e : EncodeError) : Text :=
  "'utf-8' codec can't encode " ++
    places ("character '\\u" ++ Text.ofNatHex 4 e.first.val ++ "'") "characters" e.position
      e.more ++
    ": surrogates not allowed"

end Utf8

end CollectionInterfaces

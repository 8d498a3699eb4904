import Packaging.Text

/-! # UTF-8
Encoding of texts as bytes and strict decoding of bytes as texts. A surrogate has no encoding, and
decoding refuses overlong forms, encoded surrogates, numbers outside the code space and sequences
that are cut short. Both faults say which units they are about. -/

namespace Packaging.Utf8

/-- A sequence of bytes. -/
abbrev Bytes := List UInt8

/-- Why a text has no encoding: it holds a run of surrogates. -/
structure EncodeFault where
  /-- The first surrogate of the run. -/
  first : CodePoint
  /-- How many code points come before the run. -/
  start : Nat
  /-- How many surrogates the run has. -/
  count : Nat
  deriving DecidableEq

/-- What is wrong with a byte sequence. -/
inductive Defect
  /-- A byte that begins no sequence. -/
  | invalidStart
  /-- A byte that does not continue the sequence before it. -/
  | invalidContinuation
  /-- The bytes end inside a sequence. -/
  | unexpectedEnd
  deriving DecidableEq

/-- Why bytes encode no text: a defect and the bytes it is about. -/
structure DecodeFault where
  /-- What is wrong. -/
  defect : Defect
  /-- The first byte of the faulty sequence. -/
  lead : UInt8
  /-- How many bytes come before the faulty sequence. -/
  start : Nat
  /-- How many bytes the faulty sequence has. -/
  count : Nat
  deriving DecidableEq

/-- A span of positions as a message gives it, both ends included. -/
def spanText (start count : Nat) : Text :=
  Text.concat [Text.ofNat start, "-", Text.ofNat (start + count - 1)]

/-- The wording of an encoding fault. -/
def EncodeFault.message (f : EncodeFault) : Text :=
  if f.count = 1 then
    Text.concat ["'utf-8' codec can't encode character '\\u", Text.ofHex 4 f.first.val,
      "' in position ", Text.ofNat f.start, ": surrogates not allowed"]
  else
    Text.concat ["'utf-8' codec can't encode characters in position ", spanText f.start f.count,
      ": surrogates not allowed"]

/-- The wording of a defect. -/
def Defect.message : Defect → Text
  | .invalidStart => "invalid start byte"
  | .invalidContinuation => "invalid continuation byte"
  | .unexpectedEnd => "unexpected end of data"

/-- The wording of a decoding fault. -/
def DecodeFault.message (f : DecodeFault) : Text :=
  if f.count = 1 then
    Text.concat ["'utf-8' codec can't decode byte 0x", Text.ofHex 2 f.lead.toNat, " in position ",
      Text.ofNat f.start, ": ", f.defect.message]
  else
    Text.concat ["'utf-8' codec can't decode bytes in position ", spanText f.start f.count, ": ",
      f.defect.message]

/-- The bytes of one code point. -/
def encodePoint (c : CodePoint) : Bytes :=
  let n := c.val
  if n < 0x80 then [n.toUInt8]
  else if n < 0x800 then [(0xc0 + n / 0x40).toUInt8, (0x80 + n % 0x40).toUInt8]
  else if n < 0x10000 then
    [(0xe0 + n / 0x1000).toUInt8, (0x80 + n / 0x40 % 0x40).toUInt8, (0x80 + n % 0x40).toUInt8]
  else
    [(0xf0 + n / 0x40000).toUInt8, (0x80 + n / 0x1000 % 0x40).toUInt8,
      (0x80 + n / 0x40 % 0x40).toUInt8, (0x80 + n % 0x40).toUInt8]

/-- The first run of surrogates in a text, as the fault that it causes. -/
def surrogateRun? (t : Text) : Option EncodeFault :=
  match t.dropWhile (!·.isSurrogate) with
  | [] => none
  | c :: r =>
    some {
      first := c
      start := (t.takeWhile (!·.isSurrogate)).length
      count := 1 + (r.takeWhile (·.isSurrogate)).length }

/-- The encoding of a text, refused when it holds a surrogate. -/
def encode (t : Text) : Except EncodeFault Bytes :=
  match surrogateRun? t with
  | some fault => .error fault
  | none => .ok (t.flatMap encodePoint)

/-- A byte that may stand anywhere but first in a sequence. -/
def isContinuation (b : UInt8) : Bool := 0x80 ≤ b && b < 0xc0

/-- The six bits that a continuation byte carries. -/
def payload (b : UInt8) : Nat := b.toNat % 0x40

/-- Whether a byte may come second after a lead byte: not when the sequence would be overlong, a
surrogate, or outside the code space. -/
def isSecond (lead b : UInt8) : Bool :=
  isContinuation b &&
    (lead != 0xe0 || 0xa0 ≤ b) && (lead != 0xed || b < 0xa0) &&
    (lead != 0xf0 || 0x90 ≤ b) && (lead != 0xf4 || b < 0x90)

/-- Decodes what is left of some bytes, `done` holding the code points before it in reverse order
and `start` the number of bytes they took. -/
def decodeFrom (start : Nat) (done : Text) : Bytes → Except DecodeFault Text
  | [] => .ok done.reverse
  | b :: r =>
    let bad (defect : Defect) (count : Nat) : Except DecodeFault Text :=
      .error { defect, lead := b, start, count }
    if b < 0x80 then decodeFrom (start + 1) (.ofNat b.toNat :: done) r
    else if b < 0xc2 then bad .invalidStart 1
    else if b < 0xe0 then
      match r with
      | [] => bad .unexpectedEnd 1
      | b₁ :: r =>
        if !isContinuation b₁ then bad .invalidContinuation 1
        else decodeFrom (start + 2) (.ofNat (b.toNat % 0x20 * 0x40 + payload b₁) :: done) r
    else if b < 0xf0 then
      match r with
      | [] => bad .unexpectedEnd 1
      | b₁ :: r =>
        if !isSecond b b₁ then bad .invalidContinuation 1
        else
          match r with
          | [] => bad .unexpectedEnd 2
          | b₂ :: r =>
            if !isContinuation b₂ then bad .invalidContinuation 2
            else
              decodeFrom (start + 3)
                (.ofNat ((b.toNat % 0x10 * 0x40 + payload b₁) * 0x40 + payload b₂) :: done) r
    else if b < 0xf5 then
      match r with
      | [] => bad .unexpectedEnd 1
      | b₁ :: r =>
        if !isSecond b b₁ then bad .invalidContinuation 1
        else
          match r with
          | [] => bad .unexpectedEnd 2
          | b₂ :: r =>
            if !isContinuation b₂ then bad .invalidContinuation 2
            else
              match r with
              | [] => bad .unexpectedEnd 3
              | b₃ :: r =>
                if !isContinuation b₃ then bad .invalidContinuation 3
                else
                  decodeFrom (start + 4)
                    (.ofNat (((b.toNat % 0x08 * 0x40 + payload b₁) * 0x40 + payload b₂) * 0x40 +
                      payload b₃) :: done) r
    else bad .invalidStart 1

/-- The text that some bytes encode. -/
def decode (bytes : Bytes) : Except DecodeFault Text := decodeFrom 0 [] bytes

/-- No bytes are decoded to the empty text. -/
@[simp] theorem decode_nil : decode [] = .ok [] := rfl

/-- The empty text is encoded to no bytes. -/
@[simp] theorem encode_nil : encode [] = .ok [] := rfl

end Packaging.Utf8

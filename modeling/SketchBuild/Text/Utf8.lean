/-!
# UTF-8

Bytes are decoded one character at a time. Where no character can be read, the longest part that
could still have begun one is ill-formed: it is replaced by the replacement character when tool
output is read, and refused with its place and a reason when a settings file is read.
-/

namespace SketchBuild.Text.Utf8

/-- Why bytes form no character. -/
inductive Reason
  | startByte
  | continuationByte
  | endOfData
deriving DecidableEq, Repr

/-- What stands at the front of a byte list. -/
inductive Scan
  /-- A character of `size` bytes. -/
  | char (c : Char) (size : Nat)
  /-- An ill-formed part of `size` bytes. -/
  | bad (reason : Reason) (size : Nat)

/-- Reads `need` more bytes of a character. The first of them lies between `lo` and `hi`, the others
are any continuation bytes; `bits` is the value read so far from `size` bytes. -/
def scanTail : (need lo hi bits size : Nat) → List UInt8 → Scan
  | 0, _, _, bits, size, _ => .char (Char.ofNat bits) size
  | _ + 1, _, _, _, size, [] => .bad .endOfData size
  | need + 1, lo, hi, bits, size, b :: bs =>
    if lo ≤ b.toNat ∧ b.toNat ≤ hi then
      scanTail need 0x80 0xBF (bits * 64 + (b.toNat - 0x80)) (size + 1) bs
    else .bad .continuationByte size

/-- Reads the character that starts with byte `b`. The bounds on the second byte rule out overlong
forms, surrogates and values above the last code point. -/
def scan (b : UInt8) (bs : List UInt8) : Scan :=
  let n := b.toNat
  if n < 0x80 then .char (Char.ofNat n) 1
  else if n < 0xC2 then .bad .startByte 1
  else if n < 0xE0 then scanTail 1 0x80 0xBF (n - 0xC0) 1 bs
  else if n < 0xF0 then
    scanTail 2 (if n = 0xE0 then 0xA0 else 0x80) (if n = 0xED then 0x9F else 0xBF) (n - 0xE0) 1 bs
  else if n < 0xF5 then
    scanTail 3 (if n = 0xF0 then 0x90 else 0x80) (if n = 0xF4 then 0x8F else 0xBF) (n - 0xF0) 1 bs
  else .bad .startByte 1

/-- The number of bytes that a scan covers. -/
def Scan.size : Scan → Nat
  | .char _ n => n
  | .bad _ n => n

/-- The character that stands for what was scanned when ill-formed parts are replaced. -/
def Scan.replaced : Scan → Char
  | .char c _ => c
  | .bad _ _ => '\ufffd'

/-! ### Replacing -/

/-- Decodes any bytes. One replacement character stands for each ill-formed part. -/
def decode : List UInt8 → List Char
  | [] => []
  | b :: bs =>
    let s := scan b bs
    s.replaced :: decode (bs.drop (s.size - 1))
termination_by bs => bs.length
decreasing_by simp only [List.length_drop, List.length_cons]; omega

/-! ### Refusing -/

/-- An ill-formed part of `size` bytes at a place; `first` is its first byte. -/
structure Invalid where
  first : UInt8
  position : Nat
  size : Nat
  reason : Reason
deriving DecidableEq

/-- Decodes well-formed bytes that start at `position`. -/
def decodeFrom (position : Nat) : List UInt8 → Except Invalid (List Char)
  | [] => .ok []
  | b :: bs =>
    match scan b bs with
    | .bad reason size => .error ⟨b, position, size, reason⟩
    | .char c size =>
      match decodeFrom (position + size) (bs.drop (size - 1)) with
      | .error e => .error e
      | .ok cs => .ok (c :: cs)
termination_by bs => bs.length
decreasing_by simp only [List.length_drop, List.length_cons]; omega

/-- Decodes well-formed bytes; reports the first ill-formed part of others. -/
def decodeStrict (bs : List UInt8) : Except Invalid (List Char) := decodeFrom 0 bs

/-- The bytes of a text. -/
def encode (cs : List Char) : List UInt8 := cs.flatMap String.utf8EncodeChar

end SketchBuild.Text.Utf8

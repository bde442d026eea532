import SketchBuild.Json.Basic
import SketchBuild.Text.Digit

/-!
# Reading JSON

The reader goes from left to right and stops at the first fault. Inside, a fault remembers how much
of the text was left where it was found; `parse` turns that into a place counted from the start.

Beyond the standard the words `NaN`, `Infinity` and `-Infinity` are numbers. A number takes the
longest part that forms one, so `01` is `0` with something after it. A name that occurs twice in an
object keeps its first place and its last value. Arrays and objects are nested up to a limit; the
one that goes beyond it is a fault at once, whatever is in it.
-/

namespace SketchBuild.Json

open Number (Binary64)
open Text (Half Piece Str TooManyDigits)

/-- What the reader found wrong. -/
inductive Cause
  | byteOrderMark
  | expectingValue
  | expectingName
  | expectingColon
  | expectingComma
  | unterminatedString
  | controlCharacter
  | badEscape
  | badUnicodeEscape
  | extraData
deriving DecidableEq, Repr

/-- The wording of a cause. -/
def Cause.message : Cause → String
  | .byteOrderMark => "Unexpected UTF-8 BOM (decode using utf-8-sig)"
  | .expectingValue => "Expecting value"
  | .expectingName => "Expecting property name enclosed in double quotes"
  | .expectingColon => "Expecting ':' delimiter"
  | .expectingComma => "Expecting ',' delimiter"
  | .unterminatedString => "Unterminated string starting at"
  | .controlCharacter => "Invalid control character at"
  | .badEscape => "Invalid \\escape"
  | .badUnicodeEscape => "Invalid \\uXXXX escape"
  | .extraData => "Extra data"

/-- A fault found by the reader, with the length of the text that was left. -/
inductive Failure
  | syntaxAt (cause : Cause) (left : Nat)
  | digits (e : TooManyDigits)
  | tooDeep (e : TooDeep)

/-- The result of reading one thing from the front of a text. -/
abbrev Read (α : Type) := Except Failure (α × List Char)

/-! ### Blanks and digits -/

/-- White space between JSON tokens. -/
def isSpace (c : Char) : Bool := c = ' ' || c = '\t' || c = '\n' || c = '\r'

/-- Drops white space. -/
def skipSpace (cs : List Char) : List Char := cs.dropWhile isSpace

/-- The value of a hexadecimal digit. -/
def hexValue? (c : Char) : Option Nat :=
  if '0' ≤ c ∧ c ≤ '9' then some (c.toNat - '0'.toNat)
  else if 'a' ≤ c ∧ c ≤ 'f' then some (c.toNat - 'a'.toNat + 10)
  else if 'A' ≤ c ∧ c ≤ 'F' then some (c.toNat - 'A'.toNat + 10)
  else none

/-- The value of exactly four hexadecimal digits. -/
def hexQuad? : List Char → Option Nat
  | [a, b, c, d] => do
    return ((← hexValue? a) * 16 + (← hexValue? b)) * 256 + (← hexValue? c) * 16 + (← hexValue? d)
  | _ => none

/-! ### Strings -/

/-- The character meant by a single letter after a backslash. -/
def shortEscape? (c : Char) : Option Char :=
  match c with
  | '"' => some '"'
  | '\\' => some '\\'
  | '/' => some '/'
  | 'b' => some '\x08'
  | 'f' => some '\x0c'
  | 'n' => some '\n'
  | 'r' => some '\r'
  | 't' => some '\t'
  | _ => none

/-- The second half of a surrogate pair, if the text goes on with its escape and one character
more; `none` in the pair means that no escape of a second half follows. -/
def lowSurrogate? (cs : List Char) : Except Failure (Option Nat) :=
  if 6 < cs.length && ['\\', 'u'].isPrefixOf cs then
    match hexQuad? ((cs.drop 2).take 4) with
    | none => .error (.syntaxAt .badUnicodeEscape (cs.length - 1))
    | some n => .ok (if 0xDC00 ≤ n ∧ n ≤ 0xDFFF then some n else none)
  else .ok none

/-- The piece that a code below `0x10000` stands for. -/
def pieceOfCode (n : Nat) : Piece :=
  match Half.ofCode? n with
  | some h => .half h
  | none => .char (Char.ofNat n)

/-- Reads an escape whose backslash has been read. Two halves of a surrogate pair make a character;
a half without its other half stays a half. -/
def escape (cs : List Char) : Read Piece :=
  match cs with
  | [] => .error (.syntaxAt .unterminatedString 0)
  | 'u' :: rest =>
    if rest.length ≤ 4 then .error (.syntaxAt .badUnicodeEscape cs.length)
    else
      match hexQuad? (rest.take 4) with
      | none => .error (.syntaxAt .badUnicodeEscape cs.length)
      | some n =>
        if 0xD800 ≤ n ∧ n ≤ 0xDBFF then
          match lowSurrogate? (rest.drop 4) with
          | .error e => .error e
          | .ok (some m) =>
            .ok (.char (Char.ofNat (0x10000 + (n - 0xD800) * 0x400 + (m - 0xDC00))), rest.drop 10)
          | .ok none => .ok (pieceOfCode n, rest.drop 4)
        else .ok (pieceOfCode n, rest.drop 4)
  | c :: rest =>
    match shortEscape? c with
    | some e => .ok (.char e, rest)
    | none => .error (.syntaxAt .badEscape (cs.length + 1))

/-- An escape takes at least one character. -/
theorem escape_length {cs : List Char} {p : Piece} {rest : List Char}
    (h : escape cs = .ok (p, rest)) : rest.length < cs.length := by
  unfold escape at h
  repeat' split at h
  all_goals simp only [Except.ok.injEq, Prod.mk.injEq, reduceCtorEq] at h
  all_goals
    obtain ⟨-, rfl⟩ := h
    simp only [List.length_cons, List.length_drop]
    omega

/-- Reads the rest of a string whose opening quote was read with `start` characters left. -/
def stringBody (start : Nat) (cs : List Char) : Read (List Piece) :=
  match cs with
  | [] => .error (.syntaxAt .unterminatedString start)
  | '"' :: rest => .ok ([], rest)
  | '\\' :: rest =>
    match h : escape rest with
    | .error (.syntaxAt .unterminatedString _) => .error (.syntaxAt .unterminatedString start)
    | .error e => .error e
    | .ok (p, after) =>
      have : after.length < rest.length := escape_length h
      match stringBody start after with
      | .error e => .error e
      | .ok (body, after) => .ok (p :: body, after)
  | c :: rest =>
    if c.toNat < 0x20 then .error (.syntaxAt .controlCharacter (rest.length + 1))
    else
      match stringBody start rest with
      | .error e => .error e
      | .ok (body, after) => .ok (.char c :: body, after)
termination_by cs.length

/-! ### Numbers -/

/-- The digits at the front, and what follows them. -/
def digitRun (cs : List Char) : List Char × List Char :=
  (cs.takeWhile Char.isDigit, cs.dropWhile Char.isDigit)

/-- The fraction at the front: a point and at least one digit. -/
def fraction (cs : List Char) : List Char × List Char :=
  match cs with
  | '.' :: rest =>
    match digitRun rest with
    | ([], _) => ([], cs)
    | found => found
  | _ => ([], cs)

/-- The exponent at the front: a mark, an optional sign and at least one digit. -/
def exponent? (cs : List Char) : Option (Int × List Char) :=
  match cs with
  | e :: rest =>
    if e = 'e' ∨ e = 'E' then
      let (negative, unsigned) :=
        match rest with
        | '-' :: r => (true, r)
        | '+' :: r => (false, r)
        | r => (false, r)
      match digitRun unsigned with
      | ([], _) => none
      | (ds, after) =>
        let n : Int := Text.digitsValue ds
        some (if negative then -n else n, after)
    else none
  | [] => none

/-- The whole part at the front: a zero, or digits that do not start with zero. -/
def wholePart? (cs : List Char) : Option (List Char × List Char) :=
  match cs with
  | '0' :: rest => some (['0'], rest)
  | _ =>
    match digitRun cs with
    | ([], _) => none
    | found => some found

/-- Reads a number after its sign. -/
def unsignedNumber (negative : Bool) (cs : List Char) : Option (Read Json) :=
  match wholePart? cs with
  | none => none
  | some (whole, rest) =>
    let (part, rest') := fraction rest
    match exponent? rest' with
    | some (e, after) =>
      some (.ok (.float (.ofDecimal negative (Text.digitsValue (whole ++ part)) (e - part.length)),
        after))
    | none =>
      if part.isEmpty then
        match Text.readDigits whole with
        | .error e => some (.error (.digits e))
        | .ok n => some (.ok (.int (if negative then -(n : Int) else n), rest'))
      else
        some (.ok (.float (.ofDecimal negative (Text.digitsValue (whole ++ part))
          (-(part.length : Int))), rest'))

/-- The words that stand for values, longest match not needed: no word begins another. -/
def constants : List (List Char × Json) := [
  ("null".toList, .null), ("true".toList, .bool true), ("false".toList, .bool false),
  ("NaN".toList, .float .nan), ("Infinity".toList, .float (.infinite false)),
  ("-Infinity".toList, .float (.infinite true))]

/-- Reads a word or a number. A number without digits takes a level of nesting for itself. -/
def scalar (depth : Nat) (cs : List Char) : Read Json :=
  match constants.find? fun (word, _) => word.isPrefixOf cs with
  | some (word, v) =>
    match depth, v with
    | 0, .float _ => .error (.tooDeep .calling)
    | _, _ => .ok (v, cs.drop word.length)
  | none =>
    let number := match cs with
      | '-' :: rest => unsignedNumber true rest
      | _ => unsignedNumber false cs
    number.getD (.error (.syntaxAt .expectingValue cs.length))

/-! ### Values

A value inside another one is read after at least one character and two steps, so twice as many
steps as there are characters are enough. `depth` is the number of levels of nesting that are still
allowed. -/

mutual

/-- Reads the value at the front of a text. -/
def value : (depth fuel : Nat) → List Char → Read Json
  | _, 0, cs => .error (.syntaxAt .expectingValue cs.length)
  | depth, fuel + 1, cs =>
    match cs with
    | '"' :: rest =>
      match stringBody cs.length rest with
      | .error e => .error e
      | .ok (body, after) => .ok (.str (.ofPieces body), after)
    | '[' :: rest =>
      match depth with
      | 0 => .error (.tooDeep .readingArray)
      | depth + 1 =>
        match skipSpace rest with
        | ']' :: after => .ok (.arr [], after)
        | rest =>
          match items depth fuel rest with
          | .error e => .error e
          | .ok (vs, after) => .ok (.arr vs, after)
    | '{' :: rest =>
      match depth with
      | 0 => .error (.tooDeep .readingObject)
      | depth + 1 =>
        match skipSpace rest with
        | '}' :: after => .ok (.obj [], after)
        | rest =>
          match members depth fuel [] rest with
          | .error e => .error e
          | .ok (ms, after) => .ok (.obj ms, after)
    | _ => scalar depth cs

/-- Reads one or more values up to the closing bracket. -/
def items : (depth fuel : Nat) → List Char → Read (List Json)
  | _, 0, cs => .error (.syntaxAt .expectingValue cs.length)
  | depth, fuel + 1, cs =>
    match value depth fuel cs with
    | .error e => .error e
    | .ok (v, rest) =>
      match skipSpace rest with
      | ']' :: after => .ok ([v], after)
      | ',' :: after =>
        match items depth fuel (skipSpace after) with
        | .error e => .error e
        | .ok (vs, after) => .ok (v :: vs, after)
      | rest => .error (.syntaxAt .expectingComma rest.length)

/-- Reads one or more members up to the closing brace; `seen` holds those before them. -/
def members : (depth fuel : Nat) → List (Str × Json) → List Char → Read (List (Str × Json))
  | _, 0, _, cs => .error (.syntaxAt .expectingValue cs.length)
  | depth, fuel + 1, seen, cs =>
    match cs with
    | '"' :: rest =>
      match stringBody cs.length rest with
      | .error e => .error e
      | .ok (name, rest) =>
        match skipSpace rest with
        | ':' :: rest =>
          match value depth fuel (skipSpace rest) with
          | .error e => .error e
          | .ok (v, rest) =>
            let seen := setMember (.ofPieces name) v seen
            match skipSpace rest with
            | '}' :: after => .ok (seen, after)
            | ',' :: after => members depth fuel seen (skipSpace after)
            | rest => .error (.syntaxAt .expectingComma rest.length)
        | rest => .error (.syntaxAt .expectingColon rest.length)
    | _ => .error (.syntaxAt .expectingName cs.length)

end

/-! ### Whole texts -/

/-- A fault in a JSON text and its place: code points before it, its line, and its column. -/
structure SyntaxError where
  cause : Cause
  position : Nat
  line : Nat
  column : Nat
deriving DecidableEq

/-- The wording of a fault with its place. -/
def SyntaxError.message (e : SyntaxError) : String :=
  s!"{e.cause.message}: line {e.line} column {e.column} (char {e.position})"

/-- Places a fault in the text, where `left` characters were left. -/
def SyntaxError.locate (cause : Cause) (text : List Char) (left : Nat) : SyntaxError :=
  let before := text.take (text.length - left)
  { cause
    position := before.length
    line := before.count '\n' + 1
    column := (before.reverse.takeWhile (· != '\n')).length + 1 }

/-- Why a text is not read. -/
inductive ReadError
  | badSyntax (e : SyntaxError)
  | digits (e : TooManyDigits)
  | tooDeep (e : TooDeep)

/-- Reads a text that holds one value, nested at most `depth` deep, and white space. -/
def parseChars (depth : Nat) (text : List Char) : Except Failure Json :=
  match text with
  | '\ufeff' :: _ => .error (.syntaxAt .byteOrderMark text.length)
  | _ =>
    match value depth (2 * text.length + 2) (skipSpace text) with
    | .error e => .error e
    | .ok (v, rest) =>
      match skipSpace rest with
      | [] => .ok v
      | rest => .error (.syntaxAt .extraData rest.length)

/-- Reads a JSON text whose value is nested at most `depth` deep. -/
def parse (depth : Nat) (text : List Char) : Except ReadError Json :=
  match parseChars depth text with
  | .ok v => .ok v
  | .error (.syntaxAt cause left) => .error (.badSyntax (.locate cause text left))
  | .error (.digits e) => .error (.digits e)
  | .error (.tooDeep e) => .error (.tooDeep e)

end SketchBuild.Json

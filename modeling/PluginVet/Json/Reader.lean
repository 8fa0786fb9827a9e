/-
# PluginVet.Json.Reader — reading a document value from text

A recursive descent over the characters. `Cursor` is the unread text with its place: lines count from
one, columns count the bytes read since the last line break. Arrays and objects may be nested 127
deep. Every refusal is a `Cause` with a place, and the place is that of the offending character for
some causes and of the last character read for others, as each step says.

§A cursor and causes, §B text, §C numbers, §D values. The fuel of §D is the length of the text: every
step reads at least one character.
-/
import PluginVet.Decimal.Power
import PluginVet.Json.Basic

namespace PluginVet.Json.Reader

/-! ## §A Cursor and causes -/

/-- Why a text is not a document. -/
inductive Cause where
  | eofInList | eofInObject | eofInString | eofInValue
  | expectedColon | expectedListCommaOrEnd | expectedObjectCommaOrEnd
  | expectedIdent | expectedValue | invalidEscape | invalidNumber | numberOutOfRange
  | loneSurrogate | unexpectedEndOfHexEscape | controlCharacter
  | keyMustBeString | trailingComma | trailingCharacters | recursionLimit

def Cause.message : Cause → String
  | .eofInList => "EOF while parsing a list"
  | .eofInObject => "EOF while parsing an object"
  | .eofInString => "EOF while parsing a string"
  | .eofInValue => "EOF while parsing a value"
  | .expectedColon => "expected `:`"
  | .expectedListCommaOrEnd => "expected `,` or `]`"
  | .expectedObjectCommaOrEnd => "expected `,` or `\x7d`"
  | .expectedIdent => "expected ident"
  | .expectedValue => "expected value"
  | .invalidEscape => "invalid escape"
  | .invalidNumber => "invalid number"
  | .numberOutOfRange => "number out of range"
  | .loneSurrogate => "lone leading surrogate in hex escape"
  | .unexpectedEndOfHexEscape => "unexpected end of hex escape"
  | .controlCharacter => "control character (\\u0000-\\u001F) found while parsing a string"
  | .keyMustBeString => "key must be a string"
  | .trailingComma => "trailing comma"
  | .trailingCharacters => "trailing characters"
  | .recursionLimit => "recursion limit exceeded"

structure ReadError where
  cause : Cause
  line : Nat
  column : Nat

def ReadError.message (e : ReadError) : String :=
  e.cause.message ++ " at line " ++ toString e.line ++ " column " ++ toString e.column

structure Cursor where
  rest : List Char
  line : Nat
  column : Nat

namespace Cursor

def ofText (s : String) : Cursor := ⟨s.toList, 1, 0⟩

def advance (c : Cursor) : Cursor :=
  match c.rest with
  | [] => c
  | '\n' :: rest => ⟨rest, c.line + 1, 0⟩
  | ch :: rest => ⟨rest, c.line, c.column + ch.utf8Size⟩

def advanceBy (c : Cursor) : Nat → Cursor
  | 0 => c
  | n + 1 => c.advance.advanceBy n

def peek? (c : Cursor) : Option Char := c.rest.head?

def isBlank (ch : Char) : Bool := ch = ' ' || ch = '\n' || ch = '\t' || ch = '\r'

def skipBlanks (c : Cursor) : Cursor := c.advanceBy (c.rest.takeWhile isBlank).length

/-- The refusal is placed behind the last character read. -/
def failHere {α : Type} (c : Cursor) (cause : Cause) : Except ReadError α :=
  .error ⟨cause, c.line, c.column⟩

/-- The refusal is placed at the next byte, if there is one. -/
def failNext {α : Type} (c : Cursor) (cause : Cause) : Except ReadError α :=
  match c.rest with
  | [] => c.failHere cause
  | '\n' :: _ => .error ⟨cause, c.line + 1, 0⟩
  | _ => .error ⟨cause, c.line, c.column + 1⟩

end Cursor

/-- A result, or the refusal of the text. -/
abbrev Reading := Except ReadError

/-! ## §B Text -/

def hexValue? (c : Char) : Option Nat :=
  if '0' ≤ c ∧ c ≤ '9' then some (c.toNat - '0'.toNat)
  else if 'a' ≤ c ∧ c ≤ 'f' then some (c.toNat - 'a'.toNat + 10)
  else if 'A' ≤ c ∧ c ≤ 'F' then some (c.toNat - 'A'.toNat + 10)
  else none

/-- Four hexadecimal digits. -/
def hexEscape (c : Cursor) : Reading (Nat × Cursor) :=
  let after := c.advanceBy 4
  match c.rest with
  | a :: b :: d :: e :: _ =>
    match hexValue? a, hexValue? b, hexValue? d, hexValue? e with
    | some a, some b, some d, some e => .ok (((a * 16 + b) * 16 + d) * 16 + e, after)
    | _, _, _, _ => after.failHere .invalidEscape
  | _ => (c.advanceBy 4).failHere .eofInString

/-- The character that an escape with a hexadecimal code, or a pair of them, stands for. -/
def unicodeEscape (c : Cursor) : Reading (Char × Cursor) := do
  let (high, c) ← hexEscape c
  if 0xDC00 ≤ high ∧ high ≤ 0xDFFF then c.failHere .loneSurrogate
  else if 0xD800 ≤ high ∧ high ≤ 0xDBFF then
    match c.rest with
    | [] => c.failHere .eofInString
    | '\\' :: 'u' :: _ =>
      let (low, c) ← hexEscape (c.advanceBy 2)
      if 0xDC00 ≤ low ∧ low ≤ 0xDFFF then
        .ok (Char.ofNat (0x10000 + (high - 0xD800) * 0x400 + (low - 0xDC00)), c)
      else c.failHere .loneSurrogate
    | ['\\'] => c.advance.failHere .eofInString
    | '\\' :: _ => (c.advanceBy 2).failHere .unexpectedEndOfHexEscape
    | _ => c.advance.failHere .unexpectedEndOfHexEscape
  else .ok (Char.ofNat high, c)

/-- The character behind a backslash. -/
def escape (c : Cursor) : Reading (Char × Cursor) :=
  match c.rest with
  | [] => c.failHere .eofInString
  | ch :: _ =>
    let c := c.advance
    match ch with
    | '"' => .ok ('"', c)
    | '\\' => .ok ('\\', c)
    | '/' => .ok ('/', c)
    | 'b' => .ok ('\x08', c)
    | 'f' => .ok ('\x0c', c)
    | 'n' => .ok ('\n', c)
    | 'r' => .ok ('\r', c)
    | 't' => .ok ('\t', c)
    | 'u' => unicodeEscape c
    | _ => c.failHere .invalidEscape

/-- Text up to the closing quote; the opening quote is read already. -/
def textLoop : Nat → List Char → Cursor → Reading (String × Cursor)
  | 0, _, c => c.failHere .eofInString
  | fuel + 1, acc, c =>
    match c.rest with
    | [] => c.failHere .eofInString
    | '"' :: _ => .ok (String.ofList acc.reverse, c.advance)
    | '\\' :: _ => do
      let (ch, c) ← escape c.advance
      textLoop fuel (ch :: acc) c
    | ch :: _ =>
      if ch.toNat < 32 then c.advance.failHere .controlCharacter
      else textLoop fuel (ch :: acc) c.advance

def text (c : Cursor) : Reading (String × Cursor) := textLoop (c.rest.length + 1) [] c

/-! ## §C Numbers -/

def digitValue (c : Char) : Nat := c.toNat - '0'.toNat

def maxWord : Nat := Decimal.twoTo 64 - 1

/-- Digits are taken into the significand while it fits a 64-bit word; `count` of them were. -/
def takeDigits : Nat → Nat → Nat → Cursor → Nat × Nat × Cursor
  | 0, significand, count, c => (significand, count, c)
  | fuel + 1, significand, count, c =>
    match c.rest with
    | ch :: _ =>
      if ch.isDigit && significand * 10 + digitValue ch ≤ maxWord then
        takeDigits fuel (significand * 10 + digitValue ch) (count + 1) c.advance
      else (significand, count, c)
    | [] => (significand, count, c)

def skipDigits (c : Cursor) : Nat × Cursor :=
  let n := (c.rest.takeWhile Char.isDigit).length
  (n, c.advanceBy n)

/-- `significand · 10 ^ exponent`, rounded at each multiplication or division by a power of ten. -/
def scaled (c : Cursor) : Nat → Float → Int → Except ReadError Float
  | 0, f, _ => .ok f
  | fuel + 1, f, exponent =>
    if exponent.natAbs ≤ 308 then
      let power := Float.ofScientific 1 false exponent.natAbs
      if 0 ≤ exponent then
        if (f * power).isFinite then .ok (f * power) else c.failHere .numberOutOfRange
      else .ok (f / power)
    else if f == 0.0 then .ok f
    else if 0 ≤ exponent then c.failHere .numberOutOfRange
    else scaled c fuel (f / 1e308) (exponent + 308)

def floatOf (positive : Bool) (significand : Nat) (exponent : Int) (c : Cursor) : Reading (Number × Cursor) := do
  let f ← scaled c 8 (Float.ofNat significand) exponent
  .ok (.float (if positive then f else -f), c)

/-- The exponent behind `e`; one that does not fit 32 bits is an overflow or a zero. -/
def exponentPart (positive : Bool) (significand : Nat) (start : Int) (c : Cursor) : Reading (Number × Cursor) :=
  let c := c.advance
  let (negative, c) := match c.peek? with
    | some '+' => (false, c.advance)
    | some '-' => (true, c.advance)
    | _ => (false, c)
  match c.rest with
  | [] => c.failHere .eofInValue
  | ch :: _ =>
    if ch.isDigit then
      let digits := c.rest.takeWhile Char.isDigit
      let value := digits.foldl (fun n d => n * 10 + digitValue d) 0
      let after := c.advanceBy digits.length
      if value < Decimal.twoTo 31 then
        floatOf positive significand (if negative then start - value else start + value) after
      else if significand ≠ 0 ∧ ¬ negative then after.failHere .numberOutOfRange
      else .ok (.float (if positive then 0.0 else -0.0), after)
    else c.advance.failHere .invalidNumber

/-- What may follow the digits that fit: an exponent or nothing. -/
def afterDigits (positive : Bool) (significand : Nat) (exponent : Int) (c : Cursor) :
    Reading (Number × Cursor) :=
  match c.peek? with
  | some 'e' => exponentPart positive significand exponent c
  | some 'E' => exponentPart positive significand exponent c
  | _ => floatOf positive significand exponent c

/-- The places behind the point; those that do not fit the significand are dropped. -/
def fraction (positive : Bool) (significand : Nat) (exponent : Int) (c : Cursor) : Reading (Number × Cursor) :=
  let c := c.advance
  let (value, count, after) := takeDigits (c.rest.length + 1) significand 0 c
  let (dropped, after) := skipDigits after
  if count + dropped = 0 then
    match c.rest with
    | [] => c.failHere .eofInValue
    | _ => c.failNext .invalidNumber
  else afterDigits positive value (exponent - count) after

/-- A number behind its sign. -/
def number (positive : Bool) (c : Cursor) : Reading (Number × Cursor) :=
  match c.rest with
  | [] => c.failHere .eofInValue
  | '0' :: next :: _ =>
    if next.isDigit then c.advance.failNext .invalidNumber else finish 0 0 c.advance
  | ch :: _ =>
    if ch.isDigit then
      let (value, _, after) := takeDigits (c.rest.length + 1) 0 0 c
      let (dropped, after) := skipDigits after
      finish value dropped after
    else c.advance.failHere .invalidNumber
where
  finish (value dropped : Nat) (c : Cursor) : Reading (Number × Cursor) :=
    match c.peek? with
    | some '.' => fraction positive value dropped c
    | some 'e' => exponentPart positive value dropped c
    | some 'E' => exponentPart positive value dropped c
    | _ =>
      if dropped ≠ 0 then floatOf positive value dropped c
      else if positive then .ok (.int value, c)
      else if value = 0 then .ok (.float (-0.0), c)
      else if value ≤ Decimal.twoTo 63 then .ok (.int (-(value : Int)), c)
      else .ok (.float (-(Float.ofNat value)), c)

/-! ## §D Values -/

/-- The rest of a word whose first letter was read. -/
def word (letters : List Char) (result : Json) (c : Cursor) : Reading (Json × Cursor) :=
  match letters with
  | [] => .ok (result, c)
  | l :: ls =>
    match c.rest with
    | [] => c.failHere .eofInValue
    | ch :: _ => if ch = l then word ls result c.advance else c.advance.failHere .expectedIdent

mutual

def value (fuel depth : Nat) (c : Cursor) : Reading (Json × Cursor) :=
  match fuel with
  | 0 => c.failNext .eofInValue
  | fuel + 1 =>
    let c := c.skipBlanks
    match c.rest with
    | [] => c.failNext .eofInValue
    | ch :: _ =>
      match ch with
      | 'n' => word ['u', 'l', 'l'] .null c.advance
      | 't' => word ['r', 'u', 'e'] (.bool true) c.advance
      | 'f' => word ['a', 'l', 's', 'e'] (.bool false) c.advance
      | '"' => do
        let (s, c) ← text c.advance
        .ok (.string s, c)
      | '-' => do
        let (n, c) ← number false c.advance
        .ok (.number n, c)
      | '[' =>
        match depth with
        | 0 => c.failNext .recursionLimit
        | depth + 1 => items fuel depth true [] c.advance
      | '\x7b' =>
        match depth with
        | 0 => c.failNext .recursionLimit
        | depth + 1 => fields fuel depth true [] c.advance
      | _ =>
        if ch.isDigit then do
          let (n, c) ← number true c
          .ok (.number n, c)
        else c.failNext .expectedValue

/-- Entries of an array up to its closing bracket; `first` until one was read. -/
def items (fuel depth : Nat) (first : Bool) (acc : List Json) (c : Cursor) : Reading (Json × Cursor) :=
  match fuel with
  | 0 => c.failNext .eofInList
  | fuel + 1 =>
    let c := c.skipBlanks
    match c.peek? with
    | none => c.failNext .eofInList
    | some ']' => .ok (.array acc.reverse, c.advance)
    | some ch =>
      if first then do
        let (v, c) ← value fuel depth c
        items fuel depth false (v :: acc) c
      else if ch = ',' then
        let c := c.advance.skipBlanks
        match c.peek? with
        | none => c.failNext .eofInValue
        | some ']' => c.failNext .trailingComma
        | some _ => do
          let (v, c) ← value fuel depth c
          items fuel depth false (v :: acc) c
      else c.failNext .expectedListCommaOrEnd

/-- Fields of an object up to its closing brace; `first` until one was read. -/
def fields (fuel depth : Nat) (first : Bool) (acc : List (String × Json)) (c : Cursor) :
    Reading (Json × Cursor) :=
  match fuel with
  | 0 => c.failNext .eofInObject
  | fuel + 1 =>
    let c := c.skipBlanks
    match c.peek? with
    | none => c.failNext .eofInObject
    | some '\x7d' => .ok (ofPairs acc.reverse, c.advance)
    | some ch =>
      if first then
        if ch = '"' then field fuel depth acc c else c.failNext .keyMustBeString
      else if ch = ',' then
        let c := c.advance.skipBlanks
        match c.peek? with
        | none => c.failNext .eofInValue
        | some '"' => field fuel depth acc c
        | some '\x7d' => c.failNext .trailingComma
        | some _ => c.failNext .keyMustBeString
      else c.failNext .expectedObjectCommaOrEnd

/-- One field, from the opening quote of its key, and the fields behind it. -/
def field (fuel depth : Nat) (acc : List (String × Json)) (c : Cursor) : Reading (Json × Cursor) :=
  match fuel with
  | 0 => c.failNext .eofInObject
  | fuel + 1 => do
    let (key, c) ← text c.advance
    let c := c.skipBlanks
    match c.peek? with
    | none => c.failNext .eofInObject
    | some ':' =>
      let (v, c) ← value fuel depth c.advance
      fields fuel depth false ((key, v) :: acc) c
    | some _ => c.failNext .expectedColon

end

end Reader

/-- **`read s`** — the value whose text is `s`, with nothing but blanks around it. -/
def read (s : String) : Except Reader.ReadError Json := do
  let c := Reader.Cursor.ofText s
  let (v, c) ← Reader.value (3 * c.rest.length + 3) 127 c
  let c := c.skipBlanks
  match c.rest with
  | [] => .ok v
  | _ => c.failNext .trailingCharacters

end PluginVet.Json

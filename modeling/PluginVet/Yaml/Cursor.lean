/-
# PluginVet.Yaml.Cursor — unread text with its mark

The character classes of a stream and the two ways to step over a character: `skip` takes one on the
same line, `skipBreak` takes a line break (two characters for CR LF) and starts a new line.
-/
import PluginVet.Yaml.Trouble

namespace PluginVet.Yaml

/-! ## §A Character classes -/

def isSpaceOrTab (c : Char) : Bool := c = ' ' || c = '\t'

/-- CR, LF, next line, line separator, paragraph separator. -/
def isBreak (c : Char) : Bool :=
  c = '\n' || c = '\r' || c = '\x85' || c = '\u2028' || c = '\u2029'

/-- Characters of anchors, directive names and tag handles. -/
def isWord (c : Char) : Bool :=
  ('0' ≤ c && c ≤ '9') || ('a' ≤ c && c ≤ 'z') || ('A' ≤ c && c ≤ 'Z') || c = '_' || c = '-'

/-- A character that may stand in a stream at all. -/
def isReadable (c : Char) : Bool :=
  let n := c.toNat
  n == 9 || n == 10 || n == 13 || (0x20 ≤ n && n ≤ 0x7E) || n == 0x85
    || (0xA0 ≤ n && n ≤ 0xD7FF) || (0xE000 ≤ n && n ≤ 0xFFFD) || 0x10000 ≤ n

/-! ## §B Cursor -/

structure Cursor where
  rest : List Char
  mark : Mark

namespace Cursor

def peek? (c : Cursor) : Option Char := c.rest.head?

/-- The character `n` places ahead. -/
def ahead? (c : Cursor) (n : Nat) : Option Char := (c.rest.drop n).head?

def isAt (c : Cursor) (ch : Char) : Bool := c.peek? == some ch

/-- The end of the text, a line break, a space or a tab. -/
def isSeparator : Option Char → Bool
  | none => true
  | some ch => isSpaceOrTab ch || isBreak ch

/-- The end of the text or a line break. -/
def isLineEnd : Option Char → Bool
  | none => true
  | some ch => isBreak ch

def atSeparator (c : Cursor) : Bool := isSeparator c.peek?

def atLineEnd (c : Cursor) : Bool := isLineEnd c.peek?

def atBlank (c : Cursor) : Bool := c.peek?.any isSpaceOrTab

def atBreak (c : Cursor) : Bool := c.peek?.any isBreak

/-- One character further on the same line. -/
def skip (c : Cursor) : Cursor :=
  match c.rest with
  | [] => c
  | _ :: rest => ⟨rest, ⟨c.mark.index + 1, c.mark.line, c.mark.column + 1⟩⟩

def skipBy (c : Cursor) : Nat → Cursor
  | 0 => c
  | n + 1 => c.skip.skipBy n

def skipWhile (c : Cursor) (p : Char → Bool) : Cursor := c.skipBy (c.rest.takeWhile p).length

/-- The line break ahead is left behind; without one nothing happens. -/
def skipBreak (c : Cursor) : Cursor :=
  match c.rest with
  | '\r' :: '\n' :: rest => ⟨rest, ⟨c.mark.index + 2, c.mark.line + 1, 0⟩⟩
  | ch :: rest => if isBreak ch then ⟨rest, ⟨c.mark.index + 1, c.mark.line + 1, 0⟩⟩ else c
  | [] => c

/-- The text that the line break ahead contributes to a scalar. -/
def breakText (c : Cursor) : List Char :=
  match c.peek? with
  | some ch =>
    if ch = '\u2028' || ch = '\u2029' then [ch] else if isBreak ch then ['\n'] else []
  | none => []

/-- A line that begins with `---` or `...` and a separator. -/
def atDocumentIndicator (c : Cursor) : Bool :=
  c.mark.column = 0 && isSeparator (c.ahead? 3) &&
    match c.rest with
    | '-' :: '-' :: '-' :: _ => true
    | '.' :: '.' :: '.' :: _ => true
    | _ => false

end Cursor

end PluginVet.Yaml

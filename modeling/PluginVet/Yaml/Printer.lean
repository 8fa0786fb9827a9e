/-
# PluginVet.Yaml.Printer — settings as a YAML text

A text is written plainly where it would be read back as the same text, between apostrophes where it
would be read as something else or begins like syntax, between quotes with escapes where it holds
characters without a shape, and as a block where it has several lines.

§A what a text looks like, §B the styles, §C documents.
-/
import PluginVet.Yaml.Atom

namespace PluginVet.Yaml.Printer

/-! ## §A Looks -/

def isBreak (c : Char) : Bool :=
  c = '\n' || c = '\r' || c = '\u0085' || c = '\u2028' || c = '\u2029'

/-- White space between words, or the end of the text. -/
def isGap (c : Option Char) : Bool := c.all fun c => c = ' ' || c = '\t' || isBreak c

/-- A character that may stand for itself. -/
def isPrintable (c : Char) : Bool :=
  let n := c.toNat
  n = 10 || (32 ≤ n && n ≤ 126) || (0xA0 ≤ n && n ≤ 0xFFFD && n ≠ 0xFEFF)

/-- Characters that no plain text begins with. -/
def indicators : List Char :=
  ['#', ',', '[', ']', '{', '}', '&', '*', '!', '|', '>', '\'', '"', '%', '@', '`']

/-- The text begins like syntax. -/
def beginsAsSyntax (cs : List Char) : Bool :=
  match cs with
  | '-' :: '-' :: '-' :: _ => true
  | '.' :: '.' :: '.' :: _ => true
  | c :: rest =>
    indicators.contains c || ((c = '?' || c = ':' || c = '-') && isGap rest.head?)
  | [] => false

/-- A colon in front of a gap or a number sign behind one, `before` being the character in front. -/
def holdsSyntax (before : Char) : List Char → Bool
  | [] => false
  | c :: rest =>
    (c = ':' && isGap rest.head?) || (c = '#' && isGap (some before)) || holdsSyntax c rest

/-- Some character of kind `p` stands directly in front of one of kind `q`. -/
def adjacent (p q : Char → Bool) : List Char → Bool
  | c :: d :: rest => (p c && q d) || adjacent p q (d :: rest)
  | _ => false

def isSpace (c : Char) : Bool := c = ' '

/-- All characters have a shape, and no line ends in a space. -/
def isLegible (cs : List Char) : Bool := cs.all isPrintable && !adjacent isSpace isBreak cs

def beginsOrEnds (p : Char → Bool) (cs : List Char) : Bool :=
  cs.head?.any p || cs.getLast?.any p

def allowsPlain (cs : List Char) : Bool :=
  isLegible cs && !cs.any isBreak && !beginsOrEnds isSpace cs && !beginsAsSyntax cs
    && !match cs with
      | [] => false
      | c :: rest => holdsSyntax c rest

def allowsQuotes (cs : List Char) : Bool := isLegible cs && !adjacent isBreak isSpace cs

def allowsBlock (cs : List Char) : Bool := isLegible cs && !cs.getLast?.any isSpace

/-- A plain scalar would not be read as this text. -/
def isAmbiguous (s : String) : Bool :=
  match Atom.ofPlain s with
  | .text _ => isPaddedNumber s
  | _ => true

/-! ## §B Styles -/

/-- Each line but an empty one behind the given indentation; `start` is the beginning of a line. -/
def indentLines (indentation : List Char) : Bool → List Char → List Char
  | _, [] => []
  | start, c :: rest =>
    if isBreak c then c :: indentLines indentation true rest
    else (if start then indentation else []) ++ c :: indentLines indentation false rest

def singleQuoted (indentation cs : List Char) : List Char :=
  '\'' :: indentLines indentation false (cs.flatMap fun c => if c = '\'' then [c, c] else [c]) ++ ['\'']

/-- A code in upper-case digits to base sixteen, filled up with zeros. -/
def hexCode (width n : Nat) : List Char :=
  let ds := (Nat.toDigits 16 n).map Char.toUpper
  List.replicate (width - ds.length) '0' ++ ds

def escape (c : Char) : List Char :=
  let n := c.toNat
  if c = '"' || c = '\\' then ['\\', c]
  else if isPrintable c && !isBreak c then [c]
  else if n = 0 then ['\\', '0']
  else if n = 7 then ['\\', 'a']
  else if n = 8 then ['\\', 'b']
  else if n = 9 then ['\\', 't']
  else if n = 10 then ['\\', 'n']
  else if n = 11 then ['\\', 'v']
  else if n = 12 then ['\\', 'f']
  else if n = 13 then ['\\', 'r']
  else if n = 27 then ['\\', 'e']
  else if n = 0x85 then ['\\', 'N']
  else if n = 0x2028 then ['\\', 'L']
  else if n = 0x2029 then ['\\', 'P']
  else if n < 0x100 then '\\' :: 'x' :: hexCode 2 n
  else if n < 0x10000 then '\\' :: 'u' :: hexCode 4 n
  else '\\' :: 'U' :: hexCode 8 n

def doubleQuoted (cs : List Char) : List Char := '"' :: cs.flatMap escape ++ ['"']

/-- What a block does with the breaks at its end: `-` for none, `+` for more than one. -/
def chomping (cs : List Char) : List Char :=
  match cs.reverse with
  | [] => ['-']
  | [c] => if isBreak c then ['+'] else ['-']
  | c :: d :: _ => if !isBreak c then ['-'] else if isBreak d then ['+'] else []

/-- A block, without a break at its end. -/
def block (indentation cs : List Char) : List Char :=
  let hint := if cs.head?.any fun c => isSpace c || isBreak c then ['2'] else []
  let lines := indentLines indentation true cs
  let lines := if cs.getLast?.any isBreak then lines.dropLast else lines
  '|' :: hint ++ chomping cs ++ '\n' :: lines

/-- **`scalar`** — a text in the first style that suits it; lines after the first are indented. -/
def scalar (indentation : List Char) (s : String) : List Char :=
  let cs := s.toList
  if cs.contains '\n' then
    if allowsBlock cs then block indentation cs else doubleQuoted cs
  else if !isAmbiguous s && allowsPlain cs then cs
  else if allowsQuotes cs then singleQuoted indentation cs
  else doubleQuoted cs


end Printer

/-! ## §C Documents -/

/-- A document to be written. -/
inductive Written where
  /-- A number or a truth value. -/
  | word (text : String)
  | text (value : String)
  | texts (values : List String)
  | group (entries : List (String × Written))

namespace Written

def blanks (n : Nat) : List Char := List.replicate n ' '

mutual

/-- What stands behind a key that is indented by `n`. -/
def behindKey (n : Nat) : Written → List Char
  | .word s => ' ' :: s.toList ++ ['\n']
  | .text s => ' ' :: Printer.scalar (blanks (n + 2)) s ++ ['\n']
  | .texts [] => " []\n".toList
  | .texts (s :: rest) =>
    '\n' :: (s :: rest).flatMap fun s =>
      blanks n ++ '-' :: ' ' :: Printer.scalar (blanks (n + 2)) s ++ ['\n']
  | .group [] => [' ', '{', '}', '\n']
  | .group (e :: rest) => '\n' :: entriesText (n + 2) (e :: rest)

def entriesText (n : Nat) : List (String × Written) → List Char
  | [] => []
  | (key, value) :: rest => blanks n ++ key.toList ++ ':' :: behindKey n value ++ entriesText n rest

end

end Written

/-- **`write`** — a document of named entries as a text. -/
def write (entries : List (String × Written)) : String :=
  String.ofList (Written.entriesText 0 entries)

end PluginVet.Yaml

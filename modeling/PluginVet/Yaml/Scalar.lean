/-
# PluginVet.Yaml.Scalar — the text of a scalar

Three kinds of scalar, each read from its first character to the cursor behind it. Plain and quoted
scalars fold their line breaks: one break between words is a space, further breaks stay. Block scalars
keep or fold theirs as their header says.

The fuel of each loop is the length of the unread text; every round takes at least one character.

§A folding, §B plain scalars, §C quoted scalars, §D block scalars.
-/
import PluginVet.Yaml.Cursor

namespace PluginVet.Yaml

inductive ScalarStyle where
  | plain | singleQuoted | doubleQuoted | literal | folded
  deriving DecidableEq, Repr

/-- A value behind some text, or the trouble in that text. -/
abbrev Scan := Except Trouble

def Cursor.fail {α : Type} (c : Cursor) (problem : Problem) (construct : Construct)
    (began : Mark) : Scan α :=
  .error (.malformed problem c.mark (some (construct, began)))

/-! ## §A Folding -/

/-- **`Folding`** — a scalar in the making. All texts are reversed: what is certain, the blanks behind
it, the first line break behind it and the line breaks after that one. -/
structure Folding where
  text : List Char
  blanks : List Char
  firstBreak : List Char
  laterBreaks : List Char
  broken : Bool

namespace Folding

def empty : Folding := ⟨[], [], [], [], false⟩

/-- The certain text once the scalar goes on: blanks stay within a line; across lines one break
becomes a space and is dropped when more breaks follow. -/
def settle (f : Folding) : Folding :=
  let text :=
    if f.broken then
      match f.firstBreak with
      | ['\n'] => if f.laterBreaks.isEmpty then ' ' :: f.text else f.laterBreaks ++ f.text
      | kept => f.laterBreaks ++ kept ++ f.text
    else f.blanks ++ f.text
  ⟨text, [], [], [], false⟩

def push (f : Folding) (ch : Char) : Folding := { f with text := ch :: f.text }

/-- The blank or line break ahead of the cursor is noted. -/
def note (f : Folding) (c : Cursor) : Folding :=
  if c.atBlank then
    if f.broken then f else { f with blanks := c.rest.take 1 ++ f.blanks }
  else if f.broken then { f with laterBreaks := c.breakText ++ f.laterBreaks }
  else { f with blanks := [], firstBreak := c.breakText, broken := true }

def result (f : Folding) : String := String.ofList f.text.reverse

end Folding

/-- One step over a blank or a line break. -/
def Cursor.skipSeparator (c : Cursor) : Cursor := if c.atBreak then c.skipBreak else c.skip

/-! ## §B Plain scalars -/

/-- A character that ends a plain scalar: a colon before a separator, or a flow indicator. -/
def endsPlain (inFlow : Bool) (c : Cursor) : Bool :=
  match c.peek? with
  | none => true
  | some ':' => Cursor.isSeparator (c.ahead? 1)
  | some ch => inFlow && (ch = ',' || ch = '[' || ch = ']' || ch = '{' || ch = '}')

/-- A colon directly before a flow indicator. -/
def isFlowColon (c : Cursor) : Bool :=
  c.isAt ':' && match c.ahead? 1 with
    | some ch => ch = ',' || ch = '?' || ch = '[' || ch = ']' || ch = '{' || ch = '}'
    | none => false

structure PlainState where
  cursor : Cursor
  folding : Folding
  stop : Mark

/-- A run of characters without separators. -/
def plainRun (inFlow : Bool) (began : Mark) : Nat → PlainState → Scan PlainState
  | 0, s => .ok s
  | fuel + 1, s =>
    let c := s.cursor
    if c.atSeparator then .ok s
    else if inFlow && isFlowColon c then c.fail .unexpectedColon .plainScalar began
    else if endsPlain inFlow c then .ok s
    else
      match c.rest with
      | [] => .ok s
      | ch :: _ =>
        plainRun inFlow began fuel ⟨c.skip, s.folding.settle.push ch, c.skip.mark⟩

/-- The blanks and line breaks behind a run. -/
def plainGap (indent : Nat) (began : Mark) : Nat → Cursor → Folding → Scan (Cursor × Folding)
  | 0, c, f => .ok (c, f)
  | fuel + 1, c, f =>
    if c.atBlank || c.atBreak then
      if f.broken && c.isAt '\t' && c.mark.column < indent then
        c.fail .tabViolation .plainScalar began
      else plainGap indent began fuel c.skipSeparator (f.note c)
    else .ok (c, f)

/-- Runs and gaps up to a comment, a document indicator or, in block context, a lesser indentation. -/
def plainLoop (inFlow : Bool) (indent : Nat) (began : Mark) : Nat → PlainState → Scan PlainState
  | 0, s => .ok s
  | fuel + 1, s =>
    if s.cursor.atDocumentIndicator || s.cursor.isAt '#' then .ok s
    else do
      let s ← plainRun inFlow began (s.cursor.rest.length + 1) s
      if s.cursor.atBlank || s.cursor.atBreak then
        let (c, f) ← plainGap indent began (s.cursor.rest.length + 1) s.cursor s.folding
        let s : PlainState := ⟨c, f, s.stop⟩
        if !inFlow && c.mark.column < indent then .ok s
        else plainLoop inFlow indent began fuel s
      else .ok s

/-- **`plainScalar`** — the text, the mark behind it, the cursor behind the separators that follow,
and whether those held a line break. -/
def plainScalar (inFlow : Bool) (indent : Nat) (c : Cursor) :
    Scan (String × Mark × Cursor × Bool) := do
  let s ← plainLoop inFlow indent c.mark (c.rest.length + 1) ⟨c, .empty, c.mark⟩
  .ok (s.folding.result, s.stop, s.cursor, s.folding.broken)

/-! ## §C Quoted scalars -/

def hexDigitValue? (c : Char) : Option Nat :=
  if '0' ≤ c ∧ c ≤ '9' then some (c.toNat - 48)
  else if 'a' ≤ c ∧ c ≤ 'f' then some (c.toNat - 87)
  else if 'A' ≤ c ∧ c ≤ 'F' then some (c.toNat - 55)
  else none

/-- The meaning of the character behind a backslash: a character, or the length of a code. -/
def escapeMeaning? : Char → Option (Char ⊕ Nat)
  | '0' => some (.inl '\x00')
  | 'a' => some (.inl '\x07')
  | 'b' => some (.inl '\x08')
  | 't' => some (.inl '\t')
  | '\t' => some (.inl '\t')
  | 'n' => some (.inl '\n')
  | 'v' => some (.inl '\x0b')
  | 'f' => some (.inl '\x0c')
  | 'r' => some (.inl '\r')
  | 'e' => some (.inl '\x1b')
  | ' ' => some (.inl ' ')
  | '"' => some (.inl '"')
  | '/' => some (.inl '/')
  | '\\' => some (.inl '\\')
  | 'N' => some (.inl '\x85')
  | '_' => some (.inl '\xa0')
  | 'L' => some (.inl '\u2028')
  | 'P' => some (.inl '\u2029')
  | 'x' => some (.inr 2)
  | 'u' => some (.inr 4)
  | 'U' => some (.inr 8)
  | _ => none

/-- A code of `n` hexadecimal digits. -/
def hexCode? (n : Nat) (cs : List Char) : Option Nat :=
  let digits := cs.take n
  if digits.length = n then
    digits.foldl (fun acc d => acc.bind fun v => (hexDigitValue? d).map (v * 16 + ·)) (some 0)
  else none

/-- The character that an escape stands for, and the cursor behind it. -/
def quotedEscape (began : Mark) (c : Cursor) : Scan (Char × Cursor) :=
  match (c.ahead? 1).bind escapeMeaning? with
  | none => c.fail .unknownEscape .quotedContent began
  | some (.inl ch) => .ok (ch, c.skipBy 2)
  | some (.inr n) =>
    let c := c.skipBy 2
    match hexCode? n c.rest with
    | none => c.fail .expectedHex .quotedContent began
    | some code =>
      if (0xD800 ≤ code ∧ code ≤ 0xDFFF) ∨ 0x10FFFF < code then
        c.fail .invalidCodePoint .quotedContent began
      else .ok (Char.ofNat code, c.skipBy n)

/-- Characters up to a separator or the closing quote; a backslash before a line break joins the
lines without a space. -/
def quotedRun (single : Bool) (began : Mark) : Nat → Cursor → Folding → Scan (Cursor × Folding)
  | 0, c, f => .ok (c, f)
  | fuel + 1, c, f =>
    if c.atSeparator then .ok (c, f)
    else
      match c.rest with
      | [] => .ok (c, f)
      | ch :: rest =>
        if single then
          if ch = '\'' then
            if rest.head? = some '\'' then
              quotedRun single began fuel (c.skipBy 2) (f.push '\'')
            else .ok (c, f)
          else quotedRun single began fuel c.skip (f.push ch)
        else if ch = '"' then .ok (c, f)
        else if ch = '\\' then
          if rest.head?.any isBreak then .ok (c.skip.skipBreak, { f with broken := true })
          else do
            let (value, c) ← quotedEscape began c
            quotedRun single began fuel c (f.push value)
        else quotedRun single began fuel c.skip (f.push ch)

def quotedGap : Nat → Cursor → Folding → Cursor × Folding
  | 0, c, f => (c, f)
  | fuel + 1, c, f =>
    if c.atBlank || c.atBreak then quotedGap fuel c.skipSeparator (f.note c) else (c, f)

/-- Runs and gaps up to the closing quote. -/
def quotedLoop (single : Bool) (began : Mark) : Nat → Cursor → Folding → Scan (String × Cursor)
  | 0, c, _ => c.fail .unexpectedEnd .quotedScalar began
  | fuel + 1, c, f =>
    if c.atDocumentIndicator then c.fail .unexpectedDocumentIndicator .quotedScalar began
    else if c.rest.isEmpty then c.fail .unexpectedEnd .quotedScalar began
    else do
      let (c, f) ← quotedRun single began (c.rest.length + 1) c f
      if c.isAt (if single then '\'' else '"') then .ok (f.result, c.skip)
      else
        let (c, f) := quotedGap (c.rest.length + 1) c f
        quotedLoop single began fuel c f.settle

/-- **`quotedScalar`** — the text between the quotes and the cursor behind them. -/
def quotedScalar (single : Bool) (c : Cursor) : Scan (String × Cursor) :=
  quotedLoop single c.mark (c.rest.length + 2) c.skip .empty

/-! ## §D Block scalars -/

/-- What happens to the line breaks at the end of a block scalar. -/
inductive Chomping where
  | strip | clip | keep
  deriving DecidableEq

structure BlockHeader where
  chomping : Chomping
  /-- The indentation indicator; zero stands for none. -/
  increment : Nat

def chompingAt? (c : Cursor) : Option Chomping :=
  if c.isAt '+' then some .keep else if c.isAt '-' then some .strip else none

/-- The indentation indicator ahead, if there is one. -/
def incrementAt (began : Mark) (c : Cursor) : Scan (Nat × Cursor) :=
  match c.peek? with
  | some ch =>
    if ch = '0' then c.fail .zeroIndentation .blockScalar began
    else if ch.isDigit then .ok (ch.toNat - 48, c.skip)
    else .ok (0, c)
  | none => .ok (0, c)

/-- Both indicators, in either order. -/
def blockHeader (began : Mark) (c : Cursor) : Scan (BlockHeader × Cursor) :=
  match chompingAt? c with
  | some chomping => do
    let (increment, c) ← incrementAt began c.skip
    .ok (⟨chomping, increment⟩, c)
  | none => do
    let (increment, c) ← incrementAt began c
    if increment = 0 then .ok (⟨.clip, 0⟩, c)
    else
      match chompingAt? c with
      | some chomping => .ok (⟨chomping, increment⟩, c.skip)
      | none => .ok (⟨.clip, increment⟩, c)

/-- The separators and the comment behind a header or a directive, up to the end of the line. -/
def restOfLine (construct : Construct) (began : Mark) (c : Cursor) : Scan Cursor :=
  let c := c.skipWhile isSpaceOrTab
  let c := if c.isAt '#' then c.skipWhile (fun ch => !isBreak ch) else c
  if c.atLineEnd then .ok c.skipBreak else c.fail .expectedCommentOrBreak construct began

structure BreakState where
  cursor : Cursor
  /-- Line breaks, reversed. -/
  breaks : List Char
  stop : Mark
  widest : Nat

/-- Indentation and empty lines; `indent` is zero as long as it is not known. -/
def blockBreaks (indent : Nat) (began : Mark) : Nat → BreakState → Scan BreakState
  | 0, s => .ok s
  | fuel + 1, s =>
    let width := (s.cursor.rest.takeWhile (· = ' ')).length
    let room := if indent = 0 then width else min width (indent - s.cursor.mark.column)
    let c := s.cursor.skipBy room
    let widest := max s.widest c.mark.column
    if (indent = 0 || c.mark.column < indent) && c.isAt '\t' then
      c.fail .tabInIndentation .blockScalar began
    else if c.atBreak then
      blockBreaks indent began fuel
        ⟨c.skipBreak, c.breakText ++ s.breaks, c.skipBreak.mark, widest⟩
    else .ok ⟨c, s.breaks, s.stop, widest⟩

/-- The indentation of the content where the header gives none: that of the deepest blank line or
first line, and more than the parent's. -/
def inferredIndent (parent : Int) (widest : Nat) : Nat := max (max widest (parent + 1).toNat) 1

structure BlockState where
  cursor : Cursor
  /-- The certain text, reversed. -/
  text : List Char
  lineBreak : List Char
  breaks : List Char
  stop : Mark
  /-- The line before began with a blank. -/
  spaced : Bool

def blockLines (folds : Bool) (indent : Nat) (began : Mark) : Nat → BlockState → Scan BlockState
  | 0, s => .ok s
  | fuel + 1, s =>
    let c := s.cursor
    if c.mark.column = indent ∧ !c.rest.isEmpty then do
      let text :=
        if folds && s.lineBreak == ['\n'] && !s.spaced && !c.atBlank then
          if s.breaks.isEmpty then ' ' :: s.text else s.text
        else s.lineBreak ++ s.text
      let line := c.rest.takeWhile (fun ch => !isBreak ch)
      let ended := c.skipBy line.length
      let next := ended.skipBreak
      let b ← blockBreaks indent began (next.rest.length + 1) ⟨next, [], next.mark, 0⟩
      blockLines folds indent began fuel
        ⟨b.cursor, line.reverse ++ (s.breaks ++ text), ended.breakText, b.breaks, b.stop,
          c.atBlank⟩
    else .ok s

/-- **`blockScalar`** — the text, the mark behind it and the cursor at the next content. -/
def blockScalar (folds : Bool) (parent : Int) (c : Cursor) : Scan (String × Mark × Cursor) := do
  let began := c.mark
  let (header, c) ← blockHeader began c.skip
  let c ← restOfLine .blockScalar began c
  let given := if header.increment = 0 then 0 else parent.toNat + header.increment
  let b ← blockBreaks given began (c.rest.length + 1) ⟨c, [], c.mark, 0⟩
  let indent := if given = 0 then inferredIndent parent b.widest else given
  let s ← blockLines folds indent began (c.rest.length + 1)
    ⟨b.cursor, [], [], b.breaks, b.stop, false⟩
  let text := if header.chomping = .strip then s.text else s.lineBreak ++ s.text
  let text := if header.chomping = .keep then s.breaks ++ text else text
  .ok (String.ofList text.reverse, s.stop, s.cursor)

end PluginVet.Yaml

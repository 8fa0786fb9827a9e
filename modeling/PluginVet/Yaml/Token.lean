/-
# PluginVet.Yaml.Token — the tokens of a stream

A text is cut into tokens from left to right. Block structure comes from indentation: a column deeper
than the current one opens a collection, a lesser one closes those it leaves. A key needs no mark of
its own: whatever could be one is remembered (`PossibleKey`) until the colon behind it is met, and
the key token is then put in front of it. A possible key ends with its line or after 1024 characters.

`Lexer.step` reads the tokens that begin at one place, `tokenize` repeats it to the end of the text.
A text that leaves the grammar yields the tokens in front of the trouble as far as no possible key is
pending before them (`Lexer.settled`), because only those are certain.

§A tokens, §B the lexer's state, §C possible keys and indentation, §D directives and tags, §E steps.
-/
import PluginVet.Yaml.Scalar

namespace PluginVet.Yaml

/-! ## §A Tokens -/

inductive TokenKind where
  | streamStart | streamEnd
  | version (major minor : Nat)
  | tagHandle (handle lead : String)
  | documentStart | documentEnd
  | blockSequenceStart | blockMappingStart | blockEnd
  | flowSequenceStart | flowSequenceEnd | flowMappingStart | flowMappingEnd
  | blockEntry | flowEntry | key | value
  | alias (name : String)
  | anchor (name : String)
  | tag (handle suffix : String)
  | scalar (text : String) (style : ScalarStyle)
  deriving DecidableEq

structure Token where
  kind : TokenKind
  start : Mark
  stop : Mark

/-! ## §B State -/

/-- A token that may turn out to begin a key. `required` where nothing else could stand there. -/
structure PossibleKey where
  required : Bool
  position : Nat
  mark : Mark

structure Lexer where
  cursor : Cursor
  tokens : Array Token
  /-- The pending key of each open flow collection, innermost first, and of the block around them. -/
  keys : List (Option PossibleKey)
  keyAllowed : Bool
  indent : Int
  /-- Indentations of the enclosing block collections, innermost first. -/
  outer : List Int
  flowDepth : Nat
  /-- How many tokens are certain. -/
  settled : Nat
  ended : Bool

namespace Lexer

def ofChars (cs : List Char) : Lexer :=
  let begin := Mark.start
  { cursor := ⟨cs, begin⟩
    tokens := #[⟨.streamStart, begin, begin⟩]
    keys := [none], keyAllowed := true, indent := -1, outer := [], flowDepth := 0
    settled := 1, ended := false }

def inFlow (l : Lexer) : Bool := l.flowDepth != 0

def mark (l : Lexer) : Mark := l.cursor.mark

def push (l : Lexer) (kind : TokenKind) (start stop : Mark) : Lexer :=
  { l with tokens := l.tokens.push ⟨kind, start, stop⟩ }

def insertAt (l : Lexer) (position : Nat) (kind : TokenKind) (mark : Mark) : Lexer :=
  let t : Token := ⟨kind, mark, mark⟩
  if h : position ≤ l.tokens.size then { l with tokens := l.tokens.insertIdx position t h }
  else { l with tokens := l.tokens.push t }

/-- The token made of the next `n` characters. -/
def take (l : Lexer) (n : Nat) (kind : TokenKind) : Lexer :=
  let c := l.cursor.skipBy n
  { l.push kind l.mark c.mark with cursor := c }

/-! ## §C Possible keys and indentation -/

def keyTrouble {α : Type} (l : Lexer) (k : PossibleKey) : Scan α :=
  l.cursor.fail .expectedColon .simpleKey k.mark

/-- A possible key cannot reach beyond its line, nor further than 1024 characters. -/
def isStale (l : Lexer) (k : PossibleKey) : Bool :=
  k.mark.line < l.mark.line || k.mark.index + 1024 < l.mark.index

/-- Possible keys that have come too far are given up; a required one may not. -/
def dropStale (l : Lexer) : Scan Lexer := do
  let keys ← l.keys.mapM fun
    | none => .ok none
    | some k => if l.isStale k then (if k.required then l.keyTrouble k else .ok none) else .ok (some k)
  .ok { l with keys := keys }

/-- The pending key of the innermost collection is given up. -/
def removeKey (l : Lexer) : Scan Lexer :=
  match l.keys with
  | some k :: rest => if k.required then l.keyTrouble k else .ok { l with keys := none :: rest }
  | _ => .ok l

/-- The next token may begin a key. -/
def saveKey (l : Lexer) : Scan Lexer :=
  if l.keyAllowed then do
    let required := !l.inFlow && l.indent == (l.mark.column : Int)
    let l ← l.removeKey
    .ok { l with keys := some ⟨required, l.tokens.size, l.mark⟩ :: l.keys.drop 1 }
  else .ok l

/-- A block collection opens at a column deeper than the current one, in front of the token at
`position` or at the end. -/
def openBlock (l : Lexer) (column : Nat) (position : Option Nat) (kind : TokenKind) (mark : Mark) :
    Lexer :=
  if l.inFlow then l
  else if l.indent < (column : Int) then
    let l := { l with outer := l.indent :: l.outer, indent := column }
    match position with
    | some p => l.insertAt p kind mark
    | none => l.push kind mark mark
  else l

def closeBlocksFrom (column : Int) : List Int → Lexer → Lexer
  | [], l => l
  | parent :: rest, l =>
    if column < l.indent then
      closeBlocksFrom column rest
        { l.push .blockEnd l.mark l.mark with indent := parent, outer := rest }
    else l

/-- Block collections deeper than `column` end here. -/
def closeBlocks (l : Lexer) (column : Int) : Lexer :=
  if l.inFlow then l else closeBlocksFrom column l.outer l

/-- The number of tokens in front of the first pending key. -/
def certain (l : Lexer) : Nat :=
  l.keys.foldl (fun n k => match k with | some k => min n k.position | none => n) l.tokens.size

/-! ## §D Directives and tags -/

/-- The handle of a tag or of a `%TAG` directive: `!`, `!!` or `!word!`; a tag may also begin with
`!word`, which is then the beginning of its suffix. -/
def tagHandle (isDirective : Bool) (began : Mark) (c : Cursor) : Scan (List Char × Cursor) :=
  if !c.isAt '!' then
    c.fail .expectedTagBang (if isDirective then .tagDirective else .tag) began
  else
    let word := c.skip.rest.takeWhile isWord
    let after := c.skipBy (word.length + 1)
    if after.isAt '!' then .ok ('!' :: word ++ ['!'], after.skip)
    else if isDirective && !word.isEmpty then after.fail .expectedTagBang .directiveHandle began
    else .ok ('!' :: word, after)

def isUriChar (verbatim : Bool) (c : Char) : Bool :=
  isWord c || c = ';' || c = '/' || c = '?' || c = ':' || c = '@' || c = '&' || c = '=' || c = '+'
    || c = '$' || c = '.' || c = '%' || c = '!' || c = '~' || c = '*' || c = '\'' || c = '('
    || c = ')' || (verbatim && (c = ',' || c = '[' || c = ']'))

/-- The byte of an escape `%XX`. -/
def uriOctet? (c : Cursor) : Option Nat :=
  match c.rest with
  | '%' :: a :: b :: _ => do some ((← hexDigitValue? a) * 16 + (← hexDigitValue? b))
  | _ => none

/-- Number of bytes of the character whose first byte is given. -/
def octetWidth (octet : Nat) : Nat :=
  if octet < 0x80 then 1 else if octet / 32 = 6 then 2 else if octet / 16 = 14 then 3
  else if octet / 8 = 30 then 4 else 0

/-- The remaining bytes of an escaped character. -/
def uriTail (construct : Construct) (began : Mark) :
    Nat → List UInt8 → Cursor → Scan (List UInt8 × Cursor)
  | 0, acc, c => .ok (acc.reverse, c)
  | n + 1, acc, c =>
    match uriOctet? c with
    | none => c.fail .expectedUriOctet construct began
    | some octet =>
      if octet / 64 = 2 then uriTail construct began n (octet.toUInt8 :: acc) (c.skipBy 3)
      else c.fail .badTrailingOctet construct began

def uriEscape (construct : Construct) (began : Mark) (c : Cursor) : Scan (List UInt8 × Cursor) :=
  match uriOctet? c with
  | none => c.fail .expectedUriOctet construct began
  | some octet =>
    let width := octetWidth octet
    if width = 0 then c.fail .badLeadingOctet construct began
    else uriTail construct began (width - 1) [octet.toUInt8] (c.skipBy 3)

def uriLoop (verbatim : Bool) (construct : Construct) (began : Mark) :
    Nat → ByteArray → Cursor → Scan (ByteArray × Cursor)
  | 0, acc, c => .ok (acc, c)
  | fuel + 1, acc, c =>
    match c.rest with
    | [] => .ok (acc, c)
    | ch :: _ =>
      if !isUriChar verbatim ch then .ok (acc, c)
      else if ch = '%' then do
        let (octets, c) ← uriEscape construct began c
        uriLoop verbatim construct began fuel (octets.foldl ByteArray.push acc) c
      else uriLoop verbatim construct began fuel (acc ++ ch.toString.toUTF8) c.skip

/-- The characters of a tag behind `lead`. -/
def tagUri (verbatim isDirective : Bool) (lead : List Char) (began : Mark) (c : Cursor) :
    Scan (String × Cursor) := do
  let construct := if isDirective then Construct.tagDirectiveUri else .tagUri
  let (octets, after) ← uriLoop verbatim construct began (c.rest.length + 1)
    (String.ofList (lead.drop 1)).toUTF8 c
  if lead.isEmpty && after.mark.index = c.mark.index then
    after.fail .expectedTagUri construct began
  else .ok ((String.fromUTF8? octets).getD "", after)

/-- **`scanTag`** — handle and suffix; a verbatim tag has an empty handle. -/
def scanTag (inFlow : Bool) (c : Cursor) : Scan (String × String × Cursor) := do
  let began := c.mark
  let (handle, suffix, c) ←
    if c.ahead? 1 == some '<' then do
      let (suffix, c) ← tagUri true false [] began (c.skipBy 2)
      if c.isAt '>' then pure ("", suffix, c.skip) else c.fail .expectedTagClose .tag began
    else do
      let (handle, c) ← tagHandle false began c
      if handle.length > 1 && handle.getLast? == some '!' then
        let (suffix, c) ← tagUri false false [] began c
        pure (String.ofList handle, suffix, c)
      else
        let (suffix, c) ← tagUri false false handle began c
        pure (if suffix.isEmpty then ("", "!", c) else ("!", suffix, c))
  if c.atSeparator || (inFlow && c.isAt ',') then .ok (handle, suffix, c)
  else c.fail .expectedTagSpace .tag began

def versionNumber (began : Mark) (c : Cursor) : Scan (Nat × Cursor) :=
  let digits := c.rest.takeWhile Char.isDigit
  if digits.isEmpty then c.fail .expectedVersion .versionDirective began
  else if digits.length > 9 then (c.skipBy 9).fail .longVersion .versionDirective began
  else .ok (digits.foldl (fun n d => n * 10 + (d.toNat - 48)) 0, c.skipBy digits.length)

def directiveBody (name : String) (began : Mark) (c : Cursor) : Scan (TokenKind × Cursor) :=
  if name = "YAML" then do
    let (major, c) ← versionNumber began (c.skipWhile isSpaceOrTab)
    if c.isAt '.' then
      let (minor, c) ← versionNumber began c.skip
      .ok (.version major minor, c)
    else c.fail .expectedVersionDot .versionDirective began
  else if name = "TAG" then do
    let (handle, c) ← tagHandle true began (c.skipWhile isSpaceOrTab)
    if !c.atBlank then c.fail .expectedTagBlank .tagDirective began
    else
      let (lead, c) ← tagUri true true [] began (c.skipWhile isSpaceOrTab)
      if c.atSeparator then .ok (.tagHandle (String.ofList handle) lead, c)
      else c.fail .expectedTagSpace .tagDirective began
  else c.fail .unknownDirective .directive began

def scanDirective (c : Cursor) : Scan (Token × Cursor) := do
  let began := c.mark
  let c := c.skip
  let name := c.rest.takeWhile isWord
  let c := c.skipBy name.length
  if name.isEmpty then c.fail .expectedDirectiveName .directive began
  else if !c.atSeparator then c.fail .nonAlphabetic .directive began
  else
    let (kind, c) ← directiveBody (String.ofList name) began c
    let after ← restOfLine .directive began c
    .ok (⟨kind, began, c.mark⟩, after)

/-- The name of an anchor or an alias. -/
def anchorName (construct : Construct) (c : Cursor) : Scan (String × Cursor) :=
  let word := c.skip.rest.takeWhile isWord
  let after := c.skipBy (word.length + 1)
  let closed := after.atSeparator || after.peek?.any fun ch =>
    ch = '?' || ch = ':' || ch = ',' || ch = ']' || ch = '}' || ch = '%' || ch = '@' || ch = '\x60'
  if word.isEmpty || !closed then after.fail .expectedName construct c.mark
  else .ok (String.ofList word, after)

/-! ## §E Steps -/

/-- Blanks, comments and line breaks up to the next token. A tab is a blank only where no key may
begin. -/
def skipToToken : Nat → Lexer → Lexer
  | 0, l => l
  | fuel + 1, l =>
    let c := l.cursor
    let c := if c.mark.column = 0 && c.isAt '\ufeff' then c.skip else c
    let tabs := l.inFlow || !l.keyAllowed
    let c := c.skipWhile fun ch => ch = ' ' || (tabs && ch = '\t')
    let c := if c.isAt '#' then c.skipWhile (fun ch => !isBreak ch) else c
    if c.atBreak then
      skipToToken fuel { l with cursor := c.skipBreak, keyAllowed := l.keyAllowed || !l.inFlow }
    else { l with cursor := c }

def atEnd (l : Lexer) : Scan Lexer := do
  let m := l.mark
  let m := if m.column = 0 then m else ⟨m.index, m.line + 1, 0⟩
  let l := { l with cursor := ⟨[], m⟩ }
  let l ← (l.closeBlocks (-1)).removeKey
  .ok { l.push .streamEnd m m with keyAllowed := false, ended := true }

def atDirective (l : Lexer) : Scan Lexer := do
  let l ← (l.closeBlocks (-1)).removeKey
  let (token, c) ← scanDirective l.cursor
  .ok { l with cursor := c, tokens := l.tokens.push token, keyAllowed := false }

def atDocumentIndicator (l : Lexer) : Scan Lexer := do
  let kind := if l.cursor.isAt '-' then TokenKind.documentStart else .documentEnd
  let l ← (l.closeBlocks (-1)).removeKey
  .ok { l.take 3 kind with keyAllowed := false }

def atFlowStart (l : Lexer) (kind : TokenKind) : Scan Lexer := do
  let l ← l.saveKey
  .ok { l.take 1 kind with keys := none :: l.keys, flowDepth := l.flowDepth + 1, keyAllowed := true }

def atFlowEnd (l : Lexer) (kind : TokenKind) : Scan Lexer := do
  let l ← l.removeKey
  let l := if l.inFlow then { l with keys := l.keys.drop 1, flowDepth := l.flowDepth - 1 } else l
  .ok { l.take 1 kind with keyAllowed := false }

def atFlowEntry (l : Lexer) : Scan Lexer := do
  let l ← l.removeKey
  .ok { l.take 1 .flowEntry with keyAllowed := true }

/-- A trouble that belongs to no construct. -/
def refuse {α : Type} (l : Lexer) (problem : Problem) : Scan α :=
  .error (.malformed problem l.mark none)

def atBlockEntry (l : Lexer) : Scan Lexer := do
  if !l.inFlow && !l.keyAllowed then l.refuse .entryNotAllowed
  else
    let l := l.openBlock l.mark.column none .blockSequenceStart l.mark
    let l ← l.removeKey
    .ok { l.take 1 .blockEntry with keyAllowed := true }

def atKey (l : Lexer) : Scan Lexer := do
  if !l.inFlow && !l.keyAllowed then l.refuse .keyNotAllowed
  else
    let l := l.openBlock l.mark.column none .blockMappingStart l.mark
    let l ← l.removeKey
    .ok { l.take 1 .key with keyAllowed := !l.inFlow }

def atValue (l : Lexer) : Scan Lexer :=
  match l.keys with
  | some k :: rest =>
    let l := l.insertAt k.position .key k.mark
    let l := l.openBlock k.mark.column (some k.position) .blockMappingStart k.mark
    .ok { l.take 1 .value with keys := none :: rest, keyAllowed := false }
  | _ =>
    if !l.inFlow && !l.keyAllowed then l.refuse .valueNotAllowed
    else
      let l := l.openBlock l.mark.column none .blockMappingStart l.mark
      .ok { l.take 1 .value with keyAllowed := !l.inFlow }

def atAnchor (l : Lexer) (isAlias : Bool) : Scan Lexer := do
  let l ← l.saveKey
  let (name, c) ← anchorName (if isAlias then .alias else .anchor) l.cursor
  let kind := if isAlias then TokenKind.alias name else .anchor name
  .ok { l.push kind l.mark c.mark with cursor := c, keyAllowed := false }

def atTag (l : Lexer) : Scan Lexer := do
  let l ← l.saveKey
  let (handle, suffix, c) ← scanTag l.inFlow l.cursor
  .ok { l.push (.tag handle suffix) l.mark c.mark with cursor := c, keyAllowed := false }

def atBlockScalar (l : Lexer) (folds : Bool) : Scan Lexer := do
  let l ← l.removeKey
  let (text, stop, c) ← blockScalar folds l.indent l.cursor
  let style := if folds then ScalarStyle.folded else .literal
  .ok { l.push (.scalar text style) l.mark stop with cursor := c, keyAllowed := true }

def atQuoted (l : Lexer) (single : Bool) : Scan Lexer := do
  let l ← l.saveKey
  let (text, c) ← quotedScalar single l.cursor
  let style := if single then ScalarStyle.singleQuoted else .doubleQuoted
  .ok { l.push (.scalar text style) l.mark c.mark with cursor := c, keyAllowed := false }

def atPlain (l : Lexer) : Scan Lexer := do
  let l ← l.saveKey
  let (text, stop, c, broken) ← plainScalar l.inFlow (l.indent + 1).toNat l.cursor
  .ok { l.push (.scalar text .plain) l.mark stop with cursor := c, keyAllowed := broken }

/-- An indicator, which no plain scalar may begin with. -/
def isIndicator (c : Char) : Bool :=
  c = '-' || c = '?' || c = ':' || c = ',' || c = '[' || c = ']' || c = '{' || c = '}' || c = '#'
    || c = '&' || c = '*' || c = '!' || c = '|' || c = '>' || c = '\'' || c = '"' || c = '%'
    || c = '@' || c = '\x60'

/-- A plain scalar begins with any other character, and with `-`, or in block context `?` or `:`,
where something follows directly. -/
def beginsPlain (inFlow : Bool) (c : Cursor) : Bool :=
  match c.peek? with
  | none => false
  | some ch =>
    !(isIndicator ch || isSpaceOrTab ch || isBreak ch)
      || (ch = '-' && !(c.ahead? 1).any isSpaceOrTab)
      || (!inFlow && (ch = '?' || ch = ':') && !Cursor.isSeparator (c.ahead? 1))

/-- The tokens that begin at the next character. -/
def dispatch (l : Lexer) : Scan Lexer :=
  let c := l.cursor
  let spaced := Cursor.isSeparator (c.ahead? 1)
  match c.peek? with
  | none => l.atEnd
  | some ch =>
    if c.mark.column = 0 && ch = '%' then l.atDirective
    else if c.atDocumentIndicator then l.atDocumentIndicator
    else if ch = '[' then l.atFlowStart .flowSequenceStart
    else if ch = '{' then l.atFlowStart .flowMappingStart
    else if ch = ']' then l.atFlowEnd .flowSequenceEnd
    else if ch = '}' then l.atFlowEnd .flowMappingEnd
    else if ch = ',' then l.atFlowEntry
    else if ch = '-' && spaced then l.atBlockEntry
    else if ch = '?' && (l.inFlow || spaced) then l.atKey
    else if ch = ':' && (l.inFlow || spaced) then l.atValue
    else if ch = '*' then l.atAnchor true
    else if ch = '&' then l.atAnchor false
    else if ch = '!' then l.atTag
    else if ch = '|' && !l.inFlow then l.atBlockScalar false
    else if ch = '>' && !l.inFlow then l.atBlockScalar true
    else if ch = '\'' then l.atQuoted true
    else if ch = '"' then l.atQuoted false
    else if beginsPlain l.inFlow c then l.atPlain
    else c.fail .cannotStartToken .nextToken c.mark

/-- **`step`** — the tokens up to and including the ones that begin at the next content. -/
def step (l : Lexer) : Scan Lexer := do
  let l ← (skipToToken (l.cursor.rest.length + 1) l).dropStale
  let l ← (l.closeBlocks l.mark.column).dispatch
  let l ← l.dropStale
  .ok { l with settled := l.certain }

def run : Nat → Lexer → Lexer × Option Trouble
  | 0, l => (l, none)
  | fuel + 1, l =>
    if l.ended then (l, none)
    else match l.step with
      | .ok next => run fuel next
      | .error trouble => (l, some trouble)

end Lexer

/-- Number of bytes before the first character that no stream may hold. -/
def unreadableAt? : Nat → List Char → Option Nat
  | _, [] => none
  | offset, c :: cs => if isReadable c then unreadableAt? (offset + c.utf8Size) cs else some offset

/-- **`tokenize s`** — the certain tokens of `s`, and the trouble behind them if there is one. A byte
order mark at the beginning is no part of the text. -/
def tokenize (s : String) : List Token × Option Trouble :=
  let cs := s.toList
  match unreadableAt? 0 cs with
  | some offset => ([], some (.unreadable .controlCharacter offset))
  | none =>
    let cs := match cs with
      | '\ufeff' :: rest => rest
      | cs => cs
    let (l, trouble) := Lexer.run (cs.length + 2) (Lexer.ofChars cs)
    match trouble with
    | none => (l.tokens.toList, none)
    | some t => ((l.tokens.extract 0 l.settled).toList, some t)

end PluginVet.Yaml

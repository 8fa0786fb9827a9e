/-
# PluginVet.Yaml.Event — the tokens of a stream as nested documents

Events list the nodes of each document in reading order, collections as a start and an end. The
grammar is a recursive descent over the tokens in which a node's absence is a scalar without text.
`events` yields everything in front of the first trouble, and the trouble.

The fuel of the nodes is twice the number of tokens: a call that takes no token is made only by one that
did.

§A reading tokens, §B nodes, §C documents.
-/
import PluginVet.Yaml.Token

namespace PluginVet.Yaml

/-- Anchor and tag in front of a node. -/
structure Properties where
  anchor : Option String
  tag : Option String
  deriving DecidableEq

inductive Event where
  | documentStart
  | documentEnd
  | alias (name : String) (mark : Mark)
  | scalar (text : String) (style : ScalarStyle) (properties : Properties) (mark : Mark)
  | sequenceStart (properties : Properties) (mark : Mark)
  | sequenceEnd
  | mappingStart (properties : Properties) (mark : Mark)
  | mappingEnd

/-! ## §A Reading tokens -/

structure Reader where
  tokens : List Token
  /-- What stands behind the last token. -/
  trouble : Trouble
  /-- Tag handles of the current document with what they stand for. -/
  handles : List (String × String)
  /-- Events so far, last one first. -/
  events : List Event

/-- A step that may meet a trouble; the events in front of it are kept. -/
abbrev Grammar := ExceptT Trouble (StateM Reader)

namespace Grammar

def peek : Grammar Token := do
  let r ← get
  match r.tokens with
  | t :: _ => pure t
  | [] => throw r.trouble

def advance : Grammar Unit := modify fun r => { r with tokens := r.tokens.drop 1 }

def emit (e : Event) : Grammar Unit := modify fun r => { r with events := e :: r.events }

def noProperties : Properties := ⟨none, none⟩

/-- A node that is not there. -/
def emitNothing (mark : Mark) : Grammar Unit := emit (.scalar "" .plain noProperties mark)

def refuse {α : Type} (problem : Problem) (construct : Construct) (began mark : Mark) :
    Grammar α :=
  throw (.malformed problem mark (some (construct, began)))

/-! ## §B Nodes -/

/-- The full name of a tag; a handle that no directive declares is a trouble. -/
def resolveTag (began tagMark : Mark) (handle suffix : String) : Grammar String := do
  if handle = "" then pure suffix
  else
    match (← get).handles.find? fun h => h.1 == handle with
    | some (_, lead) => pure (lead ++ suffix)
    | none => refuse .undefinedTagHandle .node began tagMark

/-- Anchor and tag, in either order, with the marks where they begin and end. -/
def properties (first : Token) : Grammar (Properties × Mark × Mark) := do
  match first.kind with
  | .anchor name =>
    advance
    let next ← peek
    match next.kind with
    | .tag handle suffix =>
      advance
      let _ ← peek
      let tag ← resolveTag first.start next.start handle suffix
      pure (⟨some name, some tag⟩, first.start, next.stop)
    | _ => pure (⟨some name, none⟩, first.start, first.stop)
  | .tag handle suffix =>
    advance
    let next ← peek
    match next.kind with
    | .anchor name =>
      advance
      let _ ← peek
      let tag ← resolveTag first.start first.start handle suffix
      pure (⟨some name, some tag⟩, first.start, next.stop)
    | _ =>
      let tag ← resolveTag first.start first.start handle suffix
      pure (⟨none, some tag⟩, first.start, first.stop)
  | _ => pure (noProperties, first.start, first.start)

/-- The lone tag `!` says nothing about a scalar. -/
def scalarProperties (p : Properties) : Properties :=
  if p.tag = some "!" then { p with tag := none } else p

/-- A node may be missing in front of one of these. -/
def opensNothing (ends : List TokenKind) (t : Token) : Bool := ends.any (· == t.kind)

mutual

/-- A node; `block` where block collections may stand, `indentless` where a block sequence may do
without an indentation of its own. -/
def node (fuel : Nat) (block indentless : Bool) : Grammar Unit :=
  match fuel with
  | 0 => pure ()
  | fuel + 1 => do
    let first ← peek
    match first.kind with
    | .alias name =>
      emit (.alias name first.start)
      advance
    | _ =>
      let (props, began, _) ← properties first
      let t ← peek
      match t.kind with
      | .scalar text style =>
        emit (.scalar text style (scalarProperties props) began)
        advance
      | .flowSequenceStart =>
        emit (.sequenceStart props began)
        advance
        flowSequence fuel true t.start
      | .flowMappingStart =>
        emit (.mappingStart props began)
        advance
        flowMapping fuel true t.start
      | kind =>
        if indentless && kind == .blockEntry then
          emit (.sequenceStart props began)
          indentlessSequence fuel
        else if block && kind == .blockSequenceStart then
          emit (.sequenceStart props began)
          advance
          blockSequence fuel t.start
        else if block && kind == .blockMappingStart then
          emit (.mappingStart props began)
          advance
          blockMapping fuel t.start
        else if props.anchor.isSome || props.tag.isSome then
          emit (.scalar "" .plain props began)
        else refuse .expectedNode (if block then .blockNode else .flowNode) began t.start

def blockSequence (fuel : Nat) (began : Mark) : Grammar Unit :=
  match fuel with
  | 0 => pure ()
  | fuel + 1 => do
    let t ← peek
    match t.kind with
    | .blockEntry =>
      advance
      let next ← peek
      if opensNothing [.blockEntry, .blockEnd] next then emitNothing t.stop
      else node fuel true false
      blockSequence fuel began
    | .blockEnd =>
      emit .sequenceEnd
      advance
    | _ => refuse .expectedDash .blockCollection began t.start

def indentlessSequence (fuel : Nat) : Grammar Unit :=
  match fuel with
  | 0 => pure ()
  | fuel + 1 => do
    let t ← peek
    match t.kind with
    | .blockEntry =>
      advance
      let next ← peek
      if opensNothing [.blockEntry, .key, .value, .blockEnd] next then emitNothing t.stop
      else node fuel true false
      indentlessSequence fuel
    | _ => emit .sequenceEnd

def blockMapping (fuel : Nat) (began : Mark) : Grammar Unit :=
  match fuel with
  | 0 => pure ()
  | fuel + 1 => do
    let t ← peek
    match t.kind with
    | .key =>
      advance
      let next ← peek
      if opensNothing [.key, .value, .blockEnd] next then emitNothing t.stop
      else node fuel true true
      blockValue fuel
      blockMapping fuel began
    | .blockEnd =>
      emit .mappingEnd
      advance
    | _ => refuse .expectedKey .blockMapping began t.start

def blockValue (fuel : Nat) : Grammar Unit :=
  match fuel with
  | 0 => pure ()
  | fuel + 1 => do
    let t ← peek
    match t.kind with
    | .value =>
      advance
      let next ← peek
      if opensNothing [.key, .value, .blockEnd] next then emitNothing t.stop
      else node fuel true true
    | _ => emitNothing t.start

/-- Entries of a flow sequence; one that has the form of a pair is a mapping of its own. -/
def flowSequence (fuel : Nat) (first : Bool) (began : Mark) : Grammar Unit :=
  match fuel with
  | 0 => pure ()
  | fuel + 1 => do
    let t ← peek
    match t.kind with
    | .flowSequenceEnd =>
      emit .sequenceEnd
      advance
    | kind =>
      if !first then
        if kind == .flowEntry then advance
        else refuse .expectedFlowSequenceEnd .flowSequence began t.start
      let t ← peek
      match t.kind with
      | .key =>
        emit (.mappingStart noProperties t.start)
        advance
        flowPair fuel
        flowSequence fuel false began
      | .flowSequenceEnd =>
        emit .sequenceEnd
        advance
      | _ =>
        node fuel false false
        flowSequence fuel false began

/-- Key and value of a pair inside a flow sequence. Where the key is missing, the token that stands
in its place is taken for it. -/
def flowPair (fuel : Nat) : Grammar Unit :=
  match fuel with
  | 0 => pure ()
  | fuel + 1 => do
    let t ← peek
    if opensNothing [.value, .flowEntry, .flowSequenceEnd] t then
      emitNothing t.stop
      advance
    else node fuel false false
    let t ← peek
    match t.kind with
    | .value =>
      advance
      let next ← peek
      if opensNothing [.flowEntry, .flowSequenceEnd] next then emitNothing next.start
      else node fuel false false
    | _ => emitNothing t.start
    let _ ← peek
    emit .mappingEnd

def flowMapping (fuel : Nat) (first : Bool) (began : Mark) : Grammar Unit :=
  match fuel with
  | 0 => pure ()
  | fuel + 1 => do
    let t ← peek
    match t.kind with
    | .flowMappingEnd =>
      emit .mappingEnd
      advance
    | kind =>
      if !first then
        if kind == .flowEntry then advance
        else refuse .expectedFlowMappingEnd .flowMapping began t.start
      let t ← peek
      match t.kind with
      | .key =>
        advance
        let next ← peek
        if opensNothing [.value, .flowEntry, .flowMappingEnd] next then emitNothing next.start
        else node fuel false false
        flowValue fuel
        flowMapping fuel false began
      | .flowMappingEnd =>
        emit .mappingEnd
        advance
      | _ =>
        node fuel false false
        let next ← peek
        emitNothing next.start
        flowMapping fuel false began

def flowValue (fuel : Nat) : Grammar Unit :=
  match fuel with
  | 0 => pure ()
  | fuel + 1 => do
    let t ← peek
    match t.kind with
    | .value =>
      advance
      let next ← peek
      if opensNothing [.flowEntry, .flowMappingEnd] next then emitNothing next.start
      else node fuel false false
    | _ => emitNothing t.start

end

/-! ## §C Documents -/

def defaultHandles : List (String × String) := [("!", "!"), ("!!", "tag:yaml.org,2002:")]

/-- Directives in front of a document, up to the first other token. -/
def directives : Nat → Bool → List (String × String) → Grammar (List (String × String))
  | 0, _, handles => pure handles
  | fuel + 1, versioned, handles => do
    let t ← peek
    match t.kind with
    | .version major minor =>
      if versioned then throw (.malformed .duplicateVersion t.start none)
      else if major ≠ 1 ∨ (minor ≠ 1 ∧ minor ≠ 2) then
        throw (.malformed .incompatibleVersion t.start none)
      else
        advance
        directives fuel true handles
    | .tagHandle handle lead =>
      if handles.any fun h => h.1 == handle then
        throw (.malformed .duplicateTagHandle t.start none)
      else
        advance
        directives fuel versioned (handles ++ [(handle, lead)])
    | _ => pure handles

/-- The declared handles, and the two default ones where those are not declared anew. -/
def withDefaults (handles : List (String × String)) : List (String × String) :=
  handles ++ defaultHandles.filter fun d => !handles.any fun h => h.1 == d.1

def skipDocumentEnds : Nat → Grammar Unit
  | 0 => pure ()
  | fuel + 1 => do
    let t ← peek
    match t.kind with
    | .documentEnd =>
      advance
      skipDocumentEnds fuel
    | _ => pure ()

def isDirective : TokenKind → Bool
  | .version _ _ => true
  | .tagHandle _ _ => true
  | _ => false

/-- The content of a document that began with its own line. -/
def documentContent (fuel : Nat) : Grammar Unit := do
  let t ← peek
  if isDirective t.kind || opensNothing [.documentStart, .documentEnd, .streamEnd] t then
    emitNothing t.start
  else node fuel true false

def documentEnd : Grammar Unit := do
  let t ← peek
  match t.kind with
  | .documentEnd =>
    emit .documentEnd
    advance
  | _ => emit .documentEnd

/-- Documents up to the end of the stream; only the first one may do without a line of its own. -/
def documents (fuel : Nat) (isFirst : Bool) : Grammar Unit :=
  match fuel with
  | 0 => pure ()
  | fuel + 1 => do
    if !isFirst then skipDocumentEnds (fuel + 1)
    let t ← peek
    if t.kind == .streamEnd then pure ()
    else if isFirst && !isDirective t.kind && t.kind != .documentStart then
      modify fun r => { r with handles := defaultHandles }
      emit .documentStart
      node (2 * fuel) true false
      documentEnd
      documents fuel false
    else
      let handles ← directives (fuel + 1) false []
      modify fun r => { r with handles := withDefaults handles }
      let t ← peek
      match t.kind with
      | .documentStart =>
        emit .documentStart
        advance
        documentContent (2 * fuel)
        documentEnd
        documents fuel false
      | _ => throw (.malformed .expectedDocumentStart t.start none)

def stream (fuel : Nat) : Grammar Unit := do
  let _ ← peek
  advance
  documents fuel true

end Grammar

/-- **`events s`** — the events of the text `s` and the trouble behind them, if there is one. -/
def events (s : String) : List Event × Option Trouble :=
  let (tokens, trouble) := tokenize s
  let nowhere := Trouble.unreadable .unexpectedEnd 0
  let start : Reader := ⟨tokens, trouble.getD nowhere, Grammar.defaultHandles, []⟩
  let (outcome, r) := ((Grammar.stream (tokens.length + 4)).run start : Except Trouble Unit × Reader)
  match outcome with
  | .ok () => (r.events.reverse, none)
  | .error t => (r.events.reverse, some t)

end PluginVet.Yaml

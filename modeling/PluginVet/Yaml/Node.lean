/-
# PluginVet.Yaml.Node — the documents of a stream as trees

A document is a tree of nodes, together with the nodes that its aliases stand for. Where reading
stopped at a trouble the tree is kept as far as it goes and ends in a `cut`, so that a consumer that
refuses something in front of that place does so first.

An alias refers to a slot. Anchoring a name for the first time opens the next slot, anchoring it again
takes the slot whose number is the count of names so far; the last node anchored in a slot is the one
that all aliases of that slot stand for.

§A the tree, §B anchors, §C trees from events, §D documents.
-/
import PluginVet.Yaml.Event

namespace PluginVet.Yaml

/-! ## §A The tree -/

inductive Node where
  | scalar (text : String) (style : ScalarStyle) (tag : Option String) (mark : Mark)
  | sequence (items : List Node) (tag : Option String) (mark : Mark)
  | mapping (entries : List (Node × Node)) (tag : Option String) (mark : Mark)
  | alias (slot : Nat) (mark : Mark)
  /-- Reading stopped here. -/
  | cut (trouble : Trouble)
  /-- The content of an empty stream. -/
  | void

/-! ## §B Anchors -/

structure Anchors where
  /-- The slot of each name. -/
  names : List (String × Nat)
  /-- The number of the last node anchored in each slot, latest first. -/
  slots : List (Nat × Nat)
  /-- The anchored nodes by their number. -/
  nodes : List (Nat × Node)

namespace Anchors

def none : Anchors := ⟨[], [], []⟩

def slot? (a : Anchors) (name : String) : Option Nat := a.names.lookup name

/-- The node with the given number is anchored under `name`. -/
def anchor (a : Anchors) (name : String) (number : Nat) : Anchors :=
  let slot := a.names.length
  { a with
    names := (name, slot) :: a.names.filter (·.1 != name)
    slots := (slot, number) :: a.slots }

def node? (a : Anchors) (slot : Nat) : Option Node :=
  (a.slots.lookup slot).bind fun number => a.nodes.lookup number

end Anchors

/-! ## §C Trees from events -/

structure Builder where
  events : List Event
  /-- What stands behind the last event. -/
  trouble : Trouble
  anchors : Anchors
  /-- Number of events read. -/
  count : Nat

namespace Builder

def advance (b : Builder) : Builder := { b with events := b.events.drop 1, count := b.count + 1 }

/-- Nothing behind this place can be read. -/
def stop (b : Builder) (trouble : Trouble) : Builder := { b with events := [], trouble := trouble }

def enter (b : Builder) (p : Properties) : Builder :=
  match p.anchor with
  | some name => { b with anchors := b.anchors.anchor name b.count }
  | none => b

/-- The finished node is filed under the number of its first event. -/
def close (b : Builder) (p : Properties) (number : Nat) (node : Node) : Builder :=
  match p.anchor with
  | some _ => { b with anchors := { b.anchors with nodes := (number, node) :: b.anchors.nodes } }
  | none => b

mutual

def node (fuel : Nat) (b : Builder) : Node × Builder :=
  match fuel with
  | 0 => (.cut b.trouble, b)
  | fuel + 1 =>
    match b.events with
    | .alias name mark :: _ =>
      match b.anchors.slot? name with
      | some slot => (.alias slot mark, b.advance)
      | none => (.cut (.unknownAnchor mark), b.stop (.unknownAnchor mark))
    | .scalar text style p mark :: _ =>
      let n := Node.scalar text style p.tag mark
      (n, ((b.enter p).close p b.count n).advance)
    | .sequenceStart p mark :: _ =>
      let (items, after) := sequenceItems fuel (b.enter p).advance
      let n := Node.sequence items p.tag mark
      (n, after.close p b.count n)
    | .mappingStart p mark :: _ =>
      let (entries, after) := mappingEntries fuel (b.enter p).advance
      let n := Node.mapping entries p.tag mark
      (n, after.close p b.count n)
    | _ => (.cut b.trouble, b.stop b.trouble)

def sequenceItems (fuel : Nat) (b : Builder) : List Node × Builder :=
  match fuel with
  | 0 => ([], b)
  | fuel + 1 =>
    match b.events with
    | [] => ([.cut b.trouble], b)
    | .sequenceEnd :: _ => ([], b.advance)
    | _ =>
      let (n, b) := node fuel b
      let (rest, b) := sequenceItems fuel b
      (n :: rest, b)

def mappingEntries (fuel : Nat) (b : Builder) : List (Node × Node) × Builder :=
  match fuel with
  | 0 => ([], b)
  | fuel + 1 =>
    match b.events with
    | [] => ([(.cut b.trouble, .cut b.trouble)], b)
    | .mappingEnd :: _ => ([], b.advance)
    | _ =>
      let (k, b) := node fuel b
      let (v, b) := node fuel b
      let (rest, b) := mappingEntries fuel b
      ((k, v) :: rest, b)

end

end Builder

/-! ## §D Documents -/

structure Document where
  root : Node
  anchors : Anchors
  /-- Number of events; it bounds how often aliases may be followed. -/
  size : Nat
  /-- Reading stopped inside this document or right behind it. -/
  trouble : Option Trouble

/-- The documents that a list of events holds; the last one is in trouble if the stream is. -/
def documentsFrom (trouble : Option Trouble) : Nat → List Event → List Document
  | 0, _ => []
  | fuel + 1, events =>
    match events with
    | .documentStart :: rest =>
      let nowhere := Trouble.unreadable .unexpectedEnd 0
      let start : Builder := ⟨rest, trouble.getD nowhere, .none, 0⟩
      let (root, b) := Builder.node (rest.length + 1) start
      match b.events with
      | .documentEnd :: more =>
        ⟨root, b.anchors, b.count, none⟩ :: documentsFrom trouble fuel more
      | _ => [⟨root, b.anchors, b.count, some b.trouble⟩]
    | _ =>
      match trouble with
      | some t => [⟨.cut t, .none, 0, some t⟩]
      | none => []

/-- **`documents s`** — the documents of the stream `s`; a stream without any has one void document. -/
def documents (s : String) : List Document :=
  let (events, trouble) := events s
  match documentsFrom trouble (events.length + 1) events with
  | [] => [⟨.void, .none, 1, none⟩]
  | ds => ds

end PluginVet.Yaml

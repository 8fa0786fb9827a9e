/-
# PluginVet.Expression.Candidate — the expressions of a mapping block worth a look

Expressions are collected from a block and from the objects nested in it, in key order, each with the
pointer to it. A text that shows none of a few markers cannot break a rule and is left out.
-/
import PluginVet.Expression.Rule
import PluginVet.Manifest.Basic

namespace PluginVet.Expression

/-- Each rule's pattern holds at least one of these. -/
def markers : List (List Char) :=
  [['=', '='], ['i', 'f', ' '], ['[', ']'], ['/', '/'], ['|'], ['?'], ['\'']]

def isCandidate (source : String) : Bool :=
  markers.any fun marker => Text.occursIn marker source.toList

mutual

/-- The expressions below a value, which stands at `pointer`. -/
def expressions (pointer : Pointer) : MappingValue → List (Pointer × String)
  | .expression source => [(pointer, source)]
  | .reference fields => expressionsIn pointer fields
  | .literal _ => []

/-- The expressions below the fields of an object, which stands at `parent`. -/
def expressionsIn (parent : Pointer) : List (String × MappingValue) → List (Pointer × String)
  | [] => []
  | (key, value) :: rest =>
    expressions (Pointer.child parent key) value ++ expressionsIn parent rest

end

/-- The expressions that are worth linting. -/
def candidates (parent : Pointer) (entries : Keyed MappingValue) : List (Pointer × String) :=
  (expressionsIn parent entries).filter fun e => isCandidate e.2

/-- **`lintMapping`** — the findings of all candidates of a block. -/
def lintMapping (parent : Pointer) (entries : Keyed MappingValue) : List LintFinding :=
  (candidates parent entries).flatMap fun e => lint e.1 e.2

end PluginVet.Expression

/-
# PluginVet.Finding — what a check reports, and the reports of whole runs

A finding has a category, the pointer to what it is about, and a message. Categories are ordered as the
checks run. A plugin's report holds its findings and, where the plugin was to be moved, what came of
that; a plugin passes when it has no findings.
-/
import PluginVet.Expression.Rule

namespace PluginVet

/-! ## §A Categories -/

inductive Category where
  | parse
  | schema
  | unknownEntity
  | unknownProperty
  | expression (rule : Expression.Rule)
  | missingCoverage
  | iconMissing
  deriving DecidableEq, Repr

namespace Category

/-- Every category once, in order. -/
def all : List Category :=
  [.parse, .schema, .unknownEntity, .unknownProperty, .expression .quoting, .expression .ternary,
    .expression .unguardedIteration, .missingCoverage, .iconMissing]

/-- The place in the order. -/
def rank : Category → Nat
  | .parse => 0
  | .schema => 1
  | .unknownEntity => 2
  | .unknownProperty => 3
  | .expression .quoting => 4
  | .expression .ternary => 5
  | .expression .unguardedIteration => 6
  | .missingCoverage => 7
  | .iconMissing => 8

theorem all_map_rank : all.map rank = List.range 9 := rfl

theorem mem_all (c : Category) : c ∈ all := by
  cases c with
  | expression r => cases r <;> decide
  | _ => decide

/-- The name in machine-readable output. -/
def name : Category → String
  | .parse => "parse"
  | .schema => "schema"
  | .unknownEntity => "unknown-entity"
  | .unknownProperty => "unknown-property"
  | .expression r => "expression/" ++ r.title
  | .missingCoverage => "missing-coverage"
  | .iconMissing => "icon-missing"

/-- The heading in text reports. -/
def title : Category → String
  | .parse => "Parse error"
  | .schema => "Schema violation"
  | .unknownEntity => "Unknown entity reference"
  | .unknownProperty => "Unknown mapping property"
  | .expression r => "Expression syntax (" ++ r.title ++ ")"
  | .missingCoverage => "Missing test coverage"
  | .iconMissing => "Icon missing"

def named? (name : String) : Option Category := all.find? fun c => c.name == name

end Category

/-! ## §B Findings -/

structure Finding where
  category : Category
  /-- The pointer to what the finding is about; `/` for the plugin as a whole. -/
  pointer : Pointer
  message : String
  /-- The expression, where one is the matter. -/
  expression : Option String
  deriving DecidableEq

namespace Finding

/-- A finding that no expression is the matter of. -/
def plain (category : Category) (pointer : Pointer) (message : String) : Finding :=
  ⟨category, pointer, message, none⟩

/-- A finding about the plugin as a whole. -/
def whole (category : Category) (message : String) : Finding := plain category "/" message

def ofLint (f : Expression.LintFinding) : Finding :=
  ⟨.expression f.violation.rule, f.pointer, f.violation.message, some f.source⟩

end Finding

/-! ## §C Reports -/

/-- What came of moving a failing plugin. -/
inductive Outcome where
  | moved (destination : String)
  /-- The destination existed already, and the plugin stayed in place. -/
  | conflict (destination : String)
  | failed (destination : String) (error : String)
  deriving DecidableEq, Repr

def Outcome.isMoved : Outcome → Bool
  | .moved _ => true
  | _ => false

structure PluginReport where
  name : String
  path : String
  /-- The number of declared tools, if the manifest could be read. -/
  tools : Nat
  coverageChecked : Bool
  findings : List Finding
  quarantine : Option Outcome
  deriving DecidableEq

/-- A plugin passes when nothing was found. -/
def PluginReport.passed (r : PluginReport) : Bool := r.findings.isEmpty

structure RunReport where
  plugins : List PluginReport
  deriving DecidableEq

namespace RunReport

def passed (r : RunReport) : Bool := r.plugins.all PluginReport.passed

def failedCount (r : RunReport) : Nat := (r.plugins.filter fun p => !p.passed).length

def exitCode (r : RunReport) : Nat := if r.passed then 0 else 1

end RunReport

end PluginVet

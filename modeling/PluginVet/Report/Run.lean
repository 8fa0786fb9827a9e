/-
# PluginVet.Report.Run — the report of a validation run on paper

As a text, each plugin has a line of its own; below a failing one its findings stand under the headings
of their categories, in the order of the categories and, within one, in the order of the checks, and
then what came of moving the plugin. A summary line ends the text.
-/
import PluginVet.Finding
import PluginVet.Json.Printer

namespace PluginVet

/-! ## §A Text -/

namespace Finding

/-- One line for a finding, and one for its expression. -/
def lines (f : Finding) : String :=
  "     " ++ f.pointer ++ ": " ++ f.message ++ "\n"
    ++ match f.expression with
      | some e => "       " ++ e ++ "\n"
      | none => ""

end Finding

namespace PluginReport

/-- The findings of one category under its heading; none, no heading. -/
def categoryLines (findings : List Finding) (c : Category) : String :=
  match findings.filter fun f => f.category = c with
  | [] => ""
  | fs => "   " ++ c.title ++ "\n" ++ String.join (fs.map Finding.lines)

def outcomeLine (path : String) : Option Outcome → String
  | some (.moved destination) => "   📦 moved " ++ path ++ " → " ++ destination ++ "\n"
  | some (.conflict destination) => "   ⚠️  not moved: " ++ destination ++ " already exists\n"
  | some (.failed destination error) =>
    "   ⚠️  failed to move to " ++ destination ++ ": " ++ error ++ "\n"
  | none => ""

def passedLine (r : PluginReport) : String :=
  "✓ " ++ r.path ++ " (" ++ toString r.tools ++ " tools"
    ++ (if r.coverageChecked then ", all tested" else "") ++ ")\n"

def toText (r : PluginReport) : String :=
  if r.passed then r.passedLine
  else
    "❌ " ++ r.path ++ "\n" ++ String.join (Category.all.map (categoryLines r.findings))
      ++ outcomeLine r.path r.quarantine

end PluginReport

namespace RunReport

def summary (r : RunReport) : String :=
  if r.plugins.isEmpty then "No plugins to validate\n"
  else if r.passed then "\n✅ All plugins valid\n"
  else
    "\n❌ Validation failed: " ++ toString r.failedCount ++ " of " ++ toString r.plugins.length
      ++ " plugins failed\n"

/-- **`toText`** — the report as a text. -/
def toText (r : RunReport) : String := String.join (r.plugins.map PluginReport.toText) ++ r.summary

end RunReport

/-! ## §B Documents -/

def Finding.toJson (f : Finding) : Json :=
  .object ([("category", .string f.category.name), ("path", .string f.pointer),
      ("message", .string f.message)]
    ++ match f.expression with
      | some e => [("expression", .string e)]
      | none => [])

def Outcome.toJson : Outcome → Json
  | .moved destination =>
    .object [("status", .string "moved"), ("destination", .string destination)]
  | .conflict destination =>
    .object [("status", .string "conflict"), ("destination", .string destination)]
  | .failed destination error =>
    .object [("status", .string "failed"), ("destination", .string destination),
      ("error", .string error)]

def PluginReport.toJson (r : PluginReport) : Json :=
  .object ([("name", .string r.name), ("path", .string r.path), ("tools", .nat r.tools),
      ("coverage_checked", .bool r.coverageChecked),
      ("findings", .array (r.findings.map Finding.toJson))]
    ++ match r.quarantine with
      | some o => [("quarantine", o.toJson)]
      | none => [])

/-- The report as a document, with the fields in the order in which they are written. -/
def RunReport.toJson (r : RunReport) : Json :=
  .object [("plugins", .array (r.plugins.map PluginReport.toJson))]

/-- **`toJsonText`** — the report as the text of a document. -/
def RunReport.toJsonText (r : RunReport) : String := r.toJson.pretty ++ "\n"

end PluginVet

/-
# PluginVet.Report.Audit — the audit of typed references on paper

Plugins with issues are listed with their issues; the verbose form also lists the references that were
found, and plugins that have nothing but those. Totals end the text.
-/
import PluginVet.Json.Printer
import PluginVet.References.Audit

namespace PluginVet.References

/-! ## §A Text -/

def PluginAudit.icon (p : PluginAudit) : String :=
  if p.issues.any fun i => i.severity == .error then "❌"
  else if p.issues.isEmpty then "✓"
  else "⚠️"

def Severity.marker : Severity → String
  | .error => "❌"
  | .warning => "⚠️ "

def Issue.line (i : Issue) : String :=
  "   " ++ i.severity.marker ++ " " ++ i.entity ++ ": " ++ i.message ++ "\n"

def referenceLine (r : String × String) : String := "   ✓ " ++ r.1 ++ " → " ++ r.2 ++ "\n"

/-- Whether a plugin is listed at all. -/
def PluginAudit.isListed (verbose : Bool) (p : PluginAudit) : Bool :=
  !p.issues.isEmpty || (verbose && !p.references.isEmpty)

def PluginAudit.toText (verbose : Bool) (p : PluginAudit) : String :=
  if !p.isListed verbose then ""
  else
    let found := p.references.entries.flatMap fun block => block.2.entries
    p.icon ++ " " ++ p.path ++ "\n" ++ String.join (p.issues.map Issue.line)
      ++ (if verbose then String.join (found.map referenceLine) else "") ++ "\n"

namespace AuditReport

def totals (r : AuditReport) : String :=
  "Checked " ++ toString r.checked ++ " plugins\n"
    ++ toString r.withReferences ++ " plugins have typed references\n"
    ++ (if 0 < r.errors then "❌ " ++ toString r.errors ++ " error(s): missing required patterns\n"
      else "")
    ++ (if 0 < r.warnings then
        "⚠️  " ++ toString r.warnings ++ " warning(s): suggestions for improvement\n"
      else "")
    ++ (if r.errors = 0 ∧ r.warnings = 0 then "✅ All patterns valid\n" else "")

/-- **`toText`** — the audit as a text. -/
def toText (r : AuditReport) (verbose : Bool) : String :=
  String.join (r.plugins.map (PluginAudit.toText verbose)) ++ r.totals

end AuditReport

/-! ## §B Documents -/

def Issue.toJson (i : Issue) : Json :=
  .object [("severity", .string i.severity.name), ("entity", .string i.entity),
    ("path", .string i.pointer), ("message", .string i.message)]

def PluginAudit.toJson (p : PluginAudit) : Json :=
  let block := fun (b : Table String) => Json.object (b.entries.map fun r => (r.1, .string r.2))
  .object [("path", .string p.path),
    ("typed_references", .object (p.references.entries.map fun b => (b.1, block b.2))),
    ("issues", .array (p.issues.map Issue.toJson))]

/-- The audit as a document, with the fields in the order in which they are written. -/
def AuditReport.toJson (r : AuditReport) : Json :=
  .object [("checked", .nat r.checked), ("plugins", .array (r.plugins.map PluginAudit.toJson))]

/-- **`toJsonText`** — the audit as the text of a document. -/
def AuditReport.toJsonText (r : AuditReport) : String := r.toJson.pretty ++ "\n"

end PluginVet.References

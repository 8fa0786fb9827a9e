/-
# PluginVet.Report.Format — the forms a report can take
-/

namespace PluginVet

inductive ReportFormat where
  | text | json
  deriving DecidableEq, Repr

namespace ReportFormat

def named? (name : String) : Option ReportFormat :=
  match name with
  | "text" => some .text
  | "json" => some .json
  | _ => none

/-- The answer to a name that no format has. -/
def unknownMessage (name : String) : String := "Unknown output format: " ++ name

end ReportFormat

end PluginVet

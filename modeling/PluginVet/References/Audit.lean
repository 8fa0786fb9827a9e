/-
# PluginVet.References.Audit — the audit of typed references

Block by block, the audit names the expected references that are missing and the typed references that
lack display fields. A missing reference is an error unless it is optional; all else is a warning.
-/
import PluginVet.FileTree.Resolve
import PluginVet.FrontMatter
import PluginVet.Manifest.Decode
import PluginVet.References.Expected

namespace PluginVet.References

/-! ## §A Issues -/

inductive Severity where
  | error | warning
  deriving DecidableEq, Repr

def Severity.name : Severity → String
  | .error => "error"
  | .warning => "warning"

/-- Something missing in a mapping block. -/
structure Issue where
  severity : Severity
  entity : String
  /-- The pointer to the block or to the entry. -/
  pointer : Pointer
  message : String
  deriving DecidableEq, Repr

/-- The audit of one plugin. -/
structure PluginAudit where
  path : String
  /-- For each block with typed references, the entity that each of its entries refers to. -/
  references : Table (Table String)
  issues : List Issue

/-! ## §B Blocks -/

/-- The typed references of a block: the entity that each entry refers to. -/
def ofBlock (b : Block) : Table String :=
  Table.ofList (b.entries.entries.filterMap fun e => (target? e.2).map fun target => (e.1, target))

/-- Some reference of the block has the expected target, under whatever name. -/
def isMet (references : Table String) (x : Expectation) : Bool :=
  references.entries.any fun r => r.2 == x.target

def missingIssue (b : Block) (x : Expectation) : Issue where
  severity := if x.optional then .warning else .error
  entity := b.entity
  pointer := b.pointer
  message := "Missing typed reference: " ++ x.field ++ " → " ++ x.target ++ " (" ++ x.reason ++ ")"

def missingIssues (b : Block) : List Issue :=
  ((expected b.entity).filter fun x => !isMet (ofBlock b) x).map (missingIssue b)

/-- The display fields that a block lacks beside the reference under `field`. -/
def missingDisplay (b : Block) (field : String) : List String :=
  (displayFields field).filter fun key => !b.entries.contains key

def displayIssue? (b : Block) (field : String) : Option Issue :=
  match missingDisplay b field with
  | [] => none
  | missing => some
    { severity := .warning
      entity := b.entity
      pointer := Pointer.child b.pointer field
      message := "Typed reference '" ++ field ++ "' has no display fields: "
        ++ ", ".intercalate missing }

/-- The issues of a block: missing references, then missing display fields. -/
def blockIssues (b : Block) : List Issue :=
  missingIssues b ++ (ofBlock b).keys.filterMap (displayIssue? b)

/-! ## §C Plugins -/

/-- **`audit`** — the audit of a manifest that is known under a path. -/
def audit (path : String) (m : Manifest) : PluginAudit where
  path := path
  references := Table.ofList
    ((m.blocks.filter fun b => !(ofBlock b).isEmpty).map fun b => (b.pointer, ofBlock b))
  issues := m.blocks.flatMap blockIssues

/-- The manifest in a descriptor, if it has a readable one. -/
def manifest? (content : String) : Option Manifest :=
  match FrontMatter.parse content with
  | .error _ => none
  | .ok v => (Manifest.ofJson v).toOption

/-- **`auditDescriptor`** — the audit of a descriptor file; one without a manifest is passed over. -/
def auditDescriptor (t : FileTree) (descriptor : Path) (path : String) :
    Except FileError (Option PluginAudit) := do
  pure ((manifest? (← t.readText descriptor)).map (audit path))

/-! ## §D Reports -/

structure AuditReport where
  /-- The number of plugins looked at. -/
  checked : Nat
  plugins : List PluginAudit

namespace AuditReport

def count (r : AuditReport) (s : Severity) : Nat :=
  (r.plugins.flatMap fun p => p.issues.filter fun i => i.severity == s).length

def errors (r : AuditReport) : Nat := r.count .error

def warnings (r : AuditReport) : Nat := r.count .warning

/-- The number of plugins with at least one typed reference. -/
def withReferences (r : AuditReport) : Nat :=
  (r.plugins.filter fun p => !p.references.isEmpty).length

/-- One on errors; two on warnings where these count; else zero. -/
def exitCode (r : AuditReport) (strict : Bool) : Nat :=
  if 0 < r.errors then 1 else if strict && 0 < r.warnings then 2 else 0

end AuditReport

end PluginVet.References

/-
# PluginVet.Validation — all checks of one plugin

The checks run in a fixed order, and each adds its findings behind those of the others: schema, return
types and mapping entries, expressions, icon, tests. Return types and mapping entries are looked at
only where the schema holds. A descriptor without a document, or whose document is no manifest, ends
the checks.

§A what plugins are held to, §B what a descriptor yields, §C the checks, §D the report.
-/
import PluginVet.Check.Mappings
import PluginVet.Check.Returns
import PluginVet.Config.Basic
import PluginVet.Coverage
import PluginVet.Expression.Candidate
import PluginVet.FrontMatter
import PluginVet.Manifest.Decode
import PluginVet.Schema.Violation

namespace PluginVet

/-! ## §A Rules -/

/-- Which of the optional checks are made. -/
structure Checks where
  /-- Return types and mapping entries. -/
  references : Bool
  coverage : Bool
  icon : Bool
  deriving DecidableEq, Repr

def Checks.full : Checks := ⟨true, true, true⟩

/-- The checks that look at nothing but the descriptor. -/
def Checks.descriptorOnly : Checks := ⟨true, false, false⟩

/-- What every plugin is held to. -/
structure Rulebook where
  schema : Schema.Compiled
  registry : Registry
  settings : PluginSettings
  /-- The compiled globs of the settings. -/
  testGlobs : List Glob

/-! ## §B Descriptors -/

/-- Why a descriptor yields no document. -/
inductive DescriptorError where
  | missing (file : String)
  | unreadable (cause : FileError)
  | malformed (cause : FrontMatter.FrontError)

def DescriptorError.message : DescriptorError → String
  | .missing file => "Descriptor file " ++ file ++ " not found"
  | .unreadable cause => cause.message
  | .malformed cause => cause.message

/-- What a descriptor yields. -/
inductive Descriptor where
  | none (cause : DescriptorError)
  /-- A document that is no manifest. -/
  | document (v : Json) (cause : Mismatch)
  | manifest (v : Json) (m : Manifest)

namespace Descriptor

def ofJson (v : Json) : Descriptor :=
  match Manifest.ofJson v with
  | .ok m => .manifest v m
  | .error cause => .document v cause

def ofText (content : String) : Descriptor :=
  match FrontMatter.parse content with
  | .ok v => ofJson v
  | .error cause => .none (.malformed cause)

/-- **`read`** — the descriptor `file` of the plugin in a directory. -/
def read (t : FileTree) (directory : Path) (file : String) : Descriptor :=
  if !t.isFile (directory.child file) then .none (.missing file)
  else match t.readText (directory.child file) with
    | .ok content => ofText content
    | .error cause => .none (.unreadable cause)

def manifest? : Descriptor → Option Manifest
  | .manifest _ m => some m
  | _ => Option.none

end Descriptor

/-! ## §C Checks -/

/-- The findings of the expressions in all blocks. -/
def Manifest.lintFindings (m : Manifest) : List Finding :=
  m.blocks.flatMap fun b => (Expression.lintMapping b.pointer b.entries.entries).map Finding.ofLint

namespace Rulebook

def violationFinding (v : Schema.Violation) : Finding := .plain .schema v.path v.message

def schemaFindings (b : Rulebook) (v : Json) : List Finding :=
  (b.schema.violations v).map violationFinding

/-- The findings of return types and mapping entries. What a tool returns is not reported again where
it is mapped. -/
def referenceFindings (b : Rulebook) (v : Json) (m : Manifest) : List Finding :=
  if (b.schema.violations v).isEmpty then
    m.returnFindings b.registry ++ m.mappingFindings b.registry (m.unknownEntities b.registry)
  else []

def noIconFinding (b : Rulebook) : Finding :=
  .whole .iconMissing
    ("No icon file found (expected one of: " ++ ", ".intercalate b.settings.iconFiles ++ ")")

def iconFindings (b : Rulebook) (t : FileTree) (directory : Path) : List Finding :=
  if b.settings.iconFiles.any fun icon => t.isFile (directory.child icon) then []
  else [b.noIconFinding]

/-- The tools that the tests of the plugin in a directory refer to. -/
def testIndex (b : Rulebook) (t : FileTree) (directory : Path) : Coverage.Index :=
  Coverage.scan t (directory.child b.settings.testsDir) b.testGlobs b.settings.maxDepth

def coverageFindings (b : Rulebook) (t : FileTree) (directory : Path) (m : Manifest) :
    List Finding :=
  Coverage.findings m (b.testIndex t directory)

/-- **`findings`** — the findings of all checks on the plugin in a directory. -/
def findings (b : Rulebook) (t : FileTree) (directory : Path) (o : Checks) :
    Descriptor → List Finding
  | .none cause => [.whole .parse cause.message]
  | .document v cause =>
    b.schemaFindings v ++ [.whole .parse (Manifest.structureMessage cause)]
  | .manifest v m =>
    b.schemaFindings v
      ++ (if o.references then b.referenceFindings v m else [])
      ++ m.lintFindings
      ++ (if o.icon then b.iconFindings t directory else [])
      ++ (if o.coverage then b.coverageFindings t directory m else [])

/-! ## §D Reports -/

/-- **`validate`** — the report on a plugin, which is known under the path `shown`. -/
def validate (b : Rulebook) (t : FileTree) (o : Checks) (shown : String) (p : Plugin) :
    PluginReport :=
  let d := Descriptor.read t p.directory b.settings.descriptorFile
  { name := p.name
    path := shown
    tools := match d.manifest? with
      | some m => m.toolNames.size
      | none => 0
    coverageChecked := o.coverage && d.manifest?.isSome
    findings := b.findings t p.directory o d
    quarantine := none }

end Rulebook

end PluginVet

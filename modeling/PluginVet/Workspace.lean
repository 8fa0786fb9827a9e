/-
# PluginVet.Workspace — a repository that is ready to be checked

Settings are opened into a workspace: the schema compiled, the registry loaded, the plugins directory
known to exist. A workspace selects plugins, validates them and moves the failing ones, and audits
their references. Each of these also gives warnings, which no report shows.

§A warnings and faults, §B opening, §C selection, §D runs, §E audits.
-/
import PluginVet.References.Audit
import PluginVet.Validation

namespace PluginVet

/-! ## §A Warnings and faults -/

/-- What is worth saying and stops nothing. -/
inductive Warning where
  | registry (w : Registry.Warning)
  | emptyRegistry (dir : Path)
  | unwalkable (e : FileTree.WalkError)
  /-- What kept a failing plugin in place. -/
  | unmoved (text : String)
  | noDescriptor (relPath : String)

def Warning.message : Warning → String
  | .registry w => w.message
  | .emptyRegistry dir => "Entity registry at " ++ dir.shown ++ " is empty"
  | .unwalkable e => Discovery.warningMessage e
  | .unmoved text => text
  | .noDescriptor relPath => "No descriptor for " ++ relPath ++ ", skipping"

/-- A value with the warnings given on the way to it. -/
structure Noted (α : Type) where
  value : α
  warnings : List Warning

/-- Why there is no registry for some settings. -/
inductive RegistryFault where
  | unusable (cause : ConfigProblem)
  | unset (cause : Expansion.UnsetVariable)
  | unloadable (dir : Path) (cause : Registry.LoadError)

def RegistryFault.message : RegistryFault → String
  | .unusable cause => cause.message
  | .unset cause => cause.message
  | .unloadable dir cause =>
    "Failed to load entity registry from " ++ dir.shown ++ ": " ++ cause.message

/-- Why settings cannot be opened. -/
inductive WorkspaceFault where
  | registry (cause : RegistryFault)
  | noSchema (file : Path)
  | unreadableSchema (file : Path) (cause : FileError)
  | badSchema (cause : Schema.SchemaError)
  | noPluginsDir (dir : Path)

/-- The text of a fault. The cause of an unreadable schema stands in it twice: in the report on the
file, and behind it. -/
def WorkspaceFault.message : WorkspaceFault → String
  | .registry cause => cause.message
  | .noSchema file => "Schema file not found: " ++ file.text
  | .unreadableSchema file cause =>
    "Failed to read schema file " ++ file.text ++ ": " ++ cause.message ++ ": " ++ cause.message
  | .badSchema cause => cause.message
  | .noPluginsDir dir => "Plugins directory not found: " ++ dir.shown

/-! ## §B Opening -/

/-- A repository with all that its plugins are held to. -/
structure Workspace where
  config : Config
  pluginsDir : Path
  rules : Rulebook

/-- The schema in a file, or the standard one. -/
def schemaOf (t : FileTree) (file : Option Path) : Except WorkspaceFault Schema.Compiled :=
  match file with
  | none => .ok Schema.plugin
  | some file =>
    if !t.exists? file then .error (.noSchema file)
    else match t.readText file with
      | .error cause => .error (.unreadableSchema file cause)
      | .ok source => (Schema.compile source).mapError .badSchema

namespace Config

/-- A registry and the directory that it comes from. -/
structure RegistrySource where
  dir : Path
  loaded : Registry.Loaded

/-- **`loadRegistry`** — the registry that the settings name. -/
def loadRegistry (environment : Environment) (t : FileTree) (c : Config) :
    Except RegistryFault RegistrySource := do
  let dir ← (c.registryDir environment).mapError .unset
  let loaded ← (Registry.load t c.registry.loadOptions dir).mapError (.unloadable dir)
  pure ⟨dir, loaded⟩

/-- The warnings of a registry that becomes part of a workspace. -/
def RegistrySource.warnings (s : RegistrySource) : List Warning :=
  s.loaded.warnings.map .registry
    ++ if s.loaded.registry.isEmpty then [.emptyRegistry s.dir] else []

/-- The workspace of settings whose schema and registry are known. -/
def furnish (environment : Environment) (t : FileTree) (c : Config) (schema : Schema.Compiled)
    (registry : Registry) (globs : List Glob) : Except WorkspaceFault Workspace := do
  let pluginsDir ← (c.pluginsDir environment).mapError fun cause => .registry (.unset cause)
  if t.isDirectory pluginsDir then
    pure ⟨c, pluginsDir, ⟨schema, registry, c.plugins, globs⟩⟩
  else throw (.noPluginsDir pluginsDir)

/-- What is needed before the registry: the schema and the globs of usable settings. -/
def prepare (environment : Environment) (t : FileTree) (c : Config) :
    Except WorkspaceFault (Schema.Compiled × List Glob) := do
  c.validate.mapError fun cause => .registry (.unusable cause)
  let file ← (c.schemaFile environment).mapError fun cause => .registry (.unset cause)
  let schema ← schemaOf t file
  let globs ← c.plugins.globs.mapError fun cause => .registry (.unusable cause)
  pure (schema, globs)

/-- **`openWorkspace`** — the workspace of some settings. The warnings of the registry are given even where the
plugins directory turns out to be missing. -/
def openWorkspace (environment : Environment) (t : FileTree) (c : Config) :
    Noted (Except WorkspaceFault Workspace) :=
  match c.prepare environment t with
  | .error e => ⟨.error e, []⟩
  | .ok (schema, globs) =>
    match c.loadRegistry environment t with
    | .error e => ⟨.error (.registry e), []⟩
    | .ok source =>
      ⟨c.furnish environment t schema source.loaded.registry globs, source.warnings⟩

end Config

namespace Workspace

/-! ## §C Selection -/

/-- Discovery does not enter the quarantine tree. -/
def discovery (w : Workspace) : Discovery where
  pluginsDir := w.pluginsDir
  descriptorFile := w.config.plugins.descriptorFile
  skipDirs := w.config.plugins.skipDirs ++ w.config.quarantine.topName?.toList
  maxDepth := w.config.plugins.maxDepth

/-- **`select`** — the plugins that a selection covers. -/
def select (w : Workspace) (t : FileTree) (s : Selection) : Noted (List Plugin) :=
  let found := s.select w.discovery t
  ⟨found.plugins, found.warnings.map .unwalkable⟩

/-- The path under which a plugin is reported: below the directory that holds the plugins directory. -/
def shownPath (w : Workspace) (p : Plugin) : String :=
  match w.pluginsDir.parent? with
  | some base => Path.relativeTo base p.directory
  | none => p.directory.text

/-! ## §D Runs -/

structure RunOptions where
  checks : Checks
  /-- Whether failing plugins are moved, where the settings allow it. -/
  quarantine : Bool
  deriving DecidableEq, Repr

def RunOptions.standard : RunOptions := ⟨.full, true⟩

/-- Fast checks that change nothing. -/
def RunOptions.preCommit : RunOptions := ⟨.descriptorOnly, false⟩

def quarantine (w : Workspace) : Quarantine :=
  ⟨w.pluginsDir, w.pluginsDir.join w.config.quarantine.dir⟩

/-- **`validate`** — the report on one plugin, which stays in place. -/
def validate (w : Workspace) (t : FileTree) (o : Checks) (p : Plugin) : PluginReport :=
  w.rules.validate t o (w.shownPath p) p

/-- A failing plugin is to be moved, unless it lies in the quarantine tree already. -/
def isToMove (w : Workspace) (o : RunOptions) (p : Plugin) (r : PluginReport) : Bool :=
  o.quarantine && w.config.quarantine.enabled && !r.passed && !w.quarantine.isQuarantined p.relPath

/-- A run in progress: the tree as it is now, and what was found so far. -/
structure Run where
  tree : FileTree
  report : RunReport
  /-- The paths, below the plugins directory, of the plugins that were moved. -/
  moved : List String
  warnings : List Warning

/-- The run after one more plugin, which is moved once all of its checks are made. -/
def visit (w : Workspace) (o : RunOptions) (run : Run) (p : Plugin) : Run :=
  let r := w.validate run.tree o.checks p
  if w.isToMove o p r then
    let attempt := w.quarantine.relocate run.tree p.relPath
    { tree := attempt.tree
      report := ⟨run.report.plugins ++ [{ r with quarantine := some attempt.outcome }]⟩
      moved := run.moved ++ if attempt.outcome.isMoved then [p.relPath] else []
      warnings :=
        run.warnings ++ ((w.quarantine.warning? p.relPath attempt.outcome).map .unmoved).toList }
  else { run with report := ⟨run.report.plugins ++ [r]⟩ }

/-- **`run`** — validates the selected plugins one after the other. -/
def run (w : Workspace) (t : FileTree) (s : Selection) (o : RunOptions) : Run :=
  let selected := w.select t s
  selected.value.foldl (w.visit o) ⟨t, ⟨[]⟩, [], selected.warnings⟩

/-! ## §E Audits -/

def descriptorOf (w : Workspace) (p : Plugin) : Path :=
  p.directory.child w.config.plugins.descriptorFile

/-- The audit of a plugin that has a descriptor. -/
def auditPlugin (w : Workspace) (t : FileTree) (p : Plugin) :
    Except FileError (Option References.PluginAudit) :=
  References.auditDescriptor t (w.descriptorOf p) (w.shownPath p)

/-- The audits of plugins in order, up to the first descriptor that cannot be read. A plugin without
a descriptor is passed over with a warning. -/
def auditAll (w : Workspace) (t : FileTree) :
    List Plugin → Noted (Except FileError (List References.PluginAudit))
  | [] => ⟨.ok [], []⟩
  | p :: rest =>
    if t.isFile (w.descriptorOf p) then
      match w.auditPlugin t p with
      | .error e => ⟨.error e, []⟩
      | .ok a =>
        let later := w.auditAll t rest
        ⟨later.value.map (a.toList ++ ·), later.warnings⟩
    else
      let later := w.auditAll t rest
      ⟨later.value, .noDescriptor p.relPath :: later.warnings⟩

/-- **`audit`** — the audit of the selected plugins. -/
def audit (w : Workspace) (t : FileTree) (s : Selection) :
    Noted (Except FileError References.AuditReport) :=
  let selected := w.select t s
  let audits := w.auditAll t selected.value
  ⟨audits.value.map (⟨selected.value.length, ·⟩), selected.warnings ++ audits.warnings⟩

end Workspace

end PluginVet

/-
# PluginVet.Command.Execution — carrying out what a command line asks for

An invocation is carried out on a tree. It completes with the tree as it is then, the text to print,
the warnings, and either an exit code or the fault that ended it; what was printed before a fault
stays printed. The changes of the tree are also given as steps.

§A completions, §B settings, §C the commands, §D the environment that they read.
-/
import PluginVet.Command.Invocation
import PluginVet.Config.File
import PluginVet.Report.Audit
import PluginVet.Report.Registry
import PluginVet.Report.Run

namespace PluginVet.Command

/-! ## §A Completions -/

/-- What ends a command. -/
inductive Fault where
  | configFile (cause : ConfigFileError)
  | registry (cause : RegistryFault)
  | workspace (cause : WorkspaceFault)
  | audit (cause : FileError)
  | present (file : Path)
  | unwritable (cause : FileError)

def Fault.message : Fault → String
  | .configFile cause => cause.message
  | .registry cause => cause.message
  | .workspace cause => cause.message
  | .audit cause => cause.message
  | .present file => file.shown ++ " already exists, use --force to overwrite it"
  | .unwritable cause => cause.message

/-- A step by which a command changes a tree. -/
inductive Change where
  /-- Moves a directory, to a place whose parents are made first. -/
  | move (source target : Path)
  | write (file : Path) (text : String)

structure Completion where
  tree : FileTree
  changes : List Change
  output : String
  warnings : List Warning
  ending : Except Fault Nat

/-- The end of a command that has changed nothing. -/
def Completion.failed (t : FileTree) (warnings : List Warning) (fault : Fault) : Completion :=
  ⟨t, [], "", warnings, .error fault⟩

/-! ## §B Settings -/

namespace ConfigSource

/-- The settings before the root of the command line is put in: those of the named file, else of the
first configuration file in the root, else the standard ones. -/
def load (t : FileTree) (s : ConfigSource) : Except ConfigFileError Config :=
  let dir := s.root.getD ⟨"."⟩
  match s.file, Config.findIn t dir with
  | some file, _ => Config.ofFile t file
  | none, some file => Config.ofFile t file
  | none, none => .ok { Config.standard with root := dir }

/-- **`config`** — the settings; a root of the command line goes before a configured one. -/
def config (t : FileTree) (s : ConfigSource) : Except ConfigFileError Config :=
  (s.load t).map fun c => { c with root := s.root.getD c.root }

end ConfigSource

/-! ## §C Commands -/

/-- What goes before the report of a run. -/
def preamble (verbose : Bool) (format : ReportFormat) (r : Registry) : String :=
  if verbose && format = .text then r.toText ++ "\n" else ""

def runText (format : ReportFormat) (r : RunReport) : String :=
  match format with
  | .text => r.toText
  | .json => r.toJsonText

def auditText (format : ReportFormat) (verbose : Bool) (r : References.AuditReport) : String :=
  match format with
  | .text => r.toText verbose
  | .json => r.toJsonText

def registryText (format : ReportFormat) (r : Registry) : String :=
  match format with
  | .text => r.toText
  | .json => r.toJsonText

def moveChange (q : Quarantine) (relPath : String) : Change :=
  .move (q.source relPath) (q.destination relPath)

def validate (environment : Environment) (t : FileTree) (c : Config) (s : Selection)
    (o : Workspace.RunOptions) (verbose : Bool) (format : ReportFormat) : Completion :=
  let opened := c.openWorkspace environment t
  match opened.value with
  | .error e => .failed t opened.warnings (.workspace e)
  | .ok w =>
    let run := w.run t s o
    { tree := run.tree
      changes := run.moved.map (moveChange w.quarantine)
      output := preamble verbose format w.rules.registry ++ runText format run.report
      warnings := opened.warnings ++ run.warnings
      ending := .ok run.report.exitCode }

def patterns (environment : Environment) (t : FileTree) (c : Config) (s : Selection)
    (strict verbose : Bool) (format : ReportFormat) : Completion :=
  let opened := c.openWorkspace environment t
  match opened.value with
  | .error e => .failed t opened.warnings (.workspace e)
  | .ok w =>
    let audit := w.audit t s
    match audit.value with
    | .error e => .failed t (opened.warnings ++ audit.warnings) (.audit e)
    | .ok r =>
      ⟨t, [], auditText format verbose r, opened.warnings ++ audit.warnings,
        .ok (r.exitCode strict)⟩

/-- The registry of usable settings. -/
def registryOf (environment : Environment) (t : FileTree) (c : Config) :
    Except RegistryFault Registry.Loaded := do
  c.validate.mapError .unusable
  pure (← c.loadRegistry environment t).loaded

def registry (environment : Environment) (t : FileTree) (c : Config) (format : ReportFormat) :
    Completion :=
  match registryOf environment t c with
  | .error e => .failed t [] (.registry e)
  | .ok loaded =>
    ⟨t, [], registryText format loaded.registry, loaded.warnings.map .registry, .ok 0⟩

def createdText (file : Path) : String :=
  "Configuration file created: " ++ file.text ++ "\n"
    ++ "Edit the plugins, registry and quarantine sections to match your repository.\n"

/-- Writes the standard settings. -/
def init (t : FileTree) (file : Path) (force : Bool) : Completion :=
  if t.exists? file && !force then .failed t [] (.present file)
  else match Config.save t .standard file with
    | .error e => .failed t [] (.unwritable e)
    | .ok t' => ⟨t', [.write file Config.standard.toYaml], createdText file, [], .ok 0⟩

/-- A command on the settings from some source. -/
def configured (t : FileTree) (s : ConfigSource) (command : Config → Completion) : Completion :=
  match s.config t with
  | .error e => .failed t [] (.configFile e)
  | .ok c => command c

/-- **`execute`** — carries out an invocation. -/
def Invocation.execute (environment : Environment) (t : FileTree) : Invocation → Completion
  | .validate source s o verbose format =>
    configured t source fun c => Command.validate environment t c s o verbose format
  | .patterns source s strict verbose format =>
    configured t source fun c => Command.patterns environment t c s strict verbose format
  | .registry source format =>
    configured t source fun c => Command.registry environment t c format
  | .init file force => Command.init t file force

/-! ## §D Environment -/

/-- The paths among settings that are expanded. -/
def expandedPaths (c : Config) : List Path :=
  [c.root, c.plugins.dir, c.registry.dir] ++ c.schemaPath.toList

def Invocation.source? : Invocation → Option ConfigSource
  | .validate source _ _ _ _ => some source
  | .patterns source _ _ _ _ => some source
  | .registry source _ => some source
  | .init _ _ => none

/-- **`variableNames`** — the variables whose values an invocation depends on. -/
def Invocation.variableNames (t : FileTree) (i : Invocation) : List String :=
  match i.source?.bind fun s => (s.config t).toOption with
  | some c => "HOME" :: (expandedPaths c).flatMap Expansion.variableNames
  | none => []

end PluginVet.Command

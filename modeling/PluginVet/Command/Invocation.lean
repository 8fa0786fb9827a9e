/-
# PluginVet.Command.Invocation — what a command line asks for

There are four commands. Without the name of one in front, a command line is that of `validate`. A
name of a command further on is the name of a plugin.

§A what each command takes, §B invocations, §C command lines.
-/
import PluginVet.Command.Line
import PluginVet.Workspace

namespace PluginVet.Command

/-! ## §A Grammars -/

def validateGrammar : Grammar where
  flags := [.all, .noMove, .preCommit, .noCoverage, .noReferences, .verbose, .help]
  settings := [.filter, .format, .config, .root]
  takesNames := true

/-- What a command line without a command takes. -/
def plainGrammar : Grammar := { validateGrammar with flags := .version :: validateGrammar.flags }

def patternsGrammar : Grammar where
  flags := [.all, .strict, .verbose, .help]
  settings := [.filter, .format, .config, .root]
  takesNames := true

def registryGrammar : Grammar where
  flags := [.help]
  settings := [.format, .config, .root]
  takesNames := false

def initGrammar : Grammar where
  flags := [.force, .help]
  settings := [.output]
  takesNames := false

/-! ## §B Invocations -/

/-- Where the settings of a repository come from. -/
structure ConfigSource where
  file : Option Path
  root : Option Path
  deriving DecidableEq, Repr

inductive Invocation where
  | validate (source : ConfigSource) (selection : Selection) (options : Workspace.RunOptions)
      (verbose : Bool) (format : ReportFormat)
  | patterns (source : ConfigSource) (selection : Selection) (strict verbose : Bool)
      (format : ReportFormat)
  | registry (source : ConfigSource) (format : ReportFormat)
  | init (output : Path) (force : Bool)

namespace Given

def source (g : Given) : ConfigSource :=
  ⟨(g.get? .config).map Path.mk, (g.get? .root).map Path.mk⟩

def format (g : Given) : ReportFormat := ((g.get? .format).bind ReportFormat.named?).getD .text

def selection (g : Given) : Selection := ⟨g.names, g.get? .filter⟩

/-- The options of a run. Each flag switches something off. -/
def runOptions (g : Given) : Workspace.RunOptions :=
  let start : Workspace.RunOptions := if g.has .preCommit then .preCommit else .standard
  { checks :=
      { references := start.checks.references && !g.has .noReferences
        coverage := start.checks.coverage && !g.has .noCoverage
        icon := start.checks.icon && !g.has .noCoverage }
    quarantine := start.quarantine && !g.has .noMove }

def validate (g : Given) : Invocation :=
  .validate g.source g.selection g.runOptions (g.has .verbose) g.format

def patterns (g : Given) : Invocation :=
  .patterns g.source g.selection (g.has .strict) (g.has .verbose) g.format

def registry (g : Given) : Invocation := .registry g.source g.format

def init (g : Given) : Invocation :=
  .init ⟨(g.get? .output).getD Config.fileName⟩ (g.has .force)

end Given

/-! ## §C Command lines -/

def commandNames : List String := ["validate", "patterns", "registry", "init", "help"]

/-- Help on a command. Commands have no commands of their own. -/
def helpProblem (words : List String) : UsageProblem :=
  match words with
  | [] => .help
  | [name] => if commandNames.contains name then .help else .unknownCommand
  | _ => .unknownCommand

/-- **`Invocation.read`** — what the words of a command line ask for. -/
def Invocation.read (words : List String) : Except UsageProblem Invocation :=
  match words with
  | "validate" :: rest => (Given.read validateGrammar rest).map Given.validate
  | "patterns" :: rest => (Given.read patternsGrammar rest).map Given.patterns
  | "registry" :: rest => (Given.read registryGrammar rest).map Given.registry
  | "init" :: rest => (Given.read initGrammar rest).map Given.init
  | "help" :: rest => .error (helpProblem rest)
  | words => (Given.read plainGrammar words).map Given.validate

end PluginVet.Command

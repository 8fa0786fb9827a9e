/-
# PluginVet.Config.Basic — the settings of a repository

§A the settings with their standard values, §B what makes settings unusable, §C the places that they
name. A configured path is expanded first; where that leaves it relative, it is taken from the root,
which is expanded in the same way.
-/
import PluginVet.Expansion
import PluginVet.Glob
import PluginVet.Plugin
import PluginVet.Quarantine
import PluginVet.Registry.Statement

namespace PluginVet

/-! ## §A Settings -/

structure PluginSettings where
  /-- The directory of plugins and categories. -/
  dir : Path
  /-- The file that makes a directory a plugin. -/
  descriptorFile : String
  /-- Names of icon files, one of which has to exist. -/
  iconFiles : List String
  /-- The directory of tests inside a plugin. -/
  testsDir : String
  /-- The written globs of test files. -/
  testFilePatterns : List String
  /-- Names of directories that are neither plugins nor categories. -/
  skipDirs : List String
  maxDepth : Nat
  deriving DecidableEq

structure RegistrySettings where
  dir : Path
  skipDirs : List String
  skipFiles : List String
  maxDepth : Nat
  deriving DecidableEq

structure QuarantineSettings where
  enabled : Bool
  /-- Seen from the plugins directory. -/
  dir : Path
  deriving DecidableEq

structure Config where
  version : String
  /-- Where relative paths begin. -/
  root : Path
  /-- A schema file instead of the plugin schema. -/
  schemaPath : Option Path
  plugins : PluginSettings
  registry : RegistrySettings
  quarantine : QuarantineSettings
  deriving DecidableEq

def PluginSettings.standard : PluginSettings where
  dir := ⟨"plugins"⟩
  descriptorFile := "readme.md"
  iconFiles := ["icon.svg", "icon.png"]
  testsDir := "tests"
  testFilePatterns := ["*.test.ts"]
  skipDirs := ["node_modules", "tests"]
  maxDepth := 16

def RegistrySettings.standard : RegistrySettings where
  dir := ⟨"entities"⟩
  skipDirs := Registry.LoadOptions.standard.skipDirs
  skipFiles := Registry.LoadOptions.standard.skipFiles
  maxDepth := Registry.LoadOptions.standard.maxDepth

def QuarantineSettings.standard : QuarantineSettings := ⟨true, ⟨".needs-work"⟩⟩

def Config.supportedVersion : String := "1.0"

/-- The settings that hold where nothing is configured. -/
def Config.standard : Config where
  version := Config.supportedVersion
  root := ⟨"."⟩
  schemaPath := none
  plugins := .standard
  registry := .standard
  quarantine := .standard

/-- The name of a new configuration file. -/
def Config.fileName : String := ".manifest-lint.yaml"

/-- The names under which a configuration file is looked for, in order. -/
def Config.fileNames : List String :=
  [Config.fileName, ".manifest-lint.yml", "manifest-lint.yaml"]

/-! ## §B Problems -/

inductive ConfigProblem where
  | version (found : String)
  | emptyPluginsDir
  | emptyDescriptorFile
  | noIconFiles
  | emptyTestsDir
  | noPluginDepth
  | badPattern (source : String) (cause : Glob.GlobError)
  | emptyRegistryDir
  | noRegistryDepth
  | quarantineElsewhere (dir : Path)

def ConfigProblem.message : ConfigProblem → String
  | .version found => "Unsupported configuration version: " ++ found
  | .emptyPluginsDir => "Plugins directory cannot be empty"
  | .emptyDescriptorFile => "Plugin descriptor file name cannot be empty"
  | .noIconFiles => "At least one icon file name must be configured"
  | .emptyTestsDir => "Plugin tests directory cannot be empty"
  | .noPluginDepth => "Plugin max_depth must be greater than zero"
  | .badPattern source cause =>
    "Invalid test file pattern '" ++ source ++ "': " ++ cause.message
  | .emptyRegistryDir => "Registry directory cannot be empty"
  | .noRegistryDepth => "Registry max_depth must be greater than zero"
  | .quarantineElsewhere dir =>
    "Quarantine directory must be a relative path without '..': " ++ dir.shown

/-- The compiled globs of test files, or the first one that is malformed. -/
def compileGlobs (sources : List String) : Except ConfigProblem (List Glob) :=
  sources.mapM fun source =>
    match Glob.read source with
    | .ok g => .ok g
    | .error cause => .error (.badPattern source cause)

def PluginSettings.globs (s : PluginSettings) : Except ConfigProblem (List Glob) :=
  compileGlobs s.testFilePatterns

def PluginSettings.problems (s : PluginSettings) : List ConfigProblem :=
  (if s.dir.text.isEmpty then [.emptyPluginsDir] else [])
    ++ (if s.descriptorFile.isEmpty then [.emptyDescriptorFile] else [])
    ++ (if s.iconFiles.isEmpty then [.noIconFiles] else [])
    ++ (if s.testsDir.isEmpty then [.emptyTestsDir] else [])
    ++ (if s.maxDepth = 0 then [.noPluginDepth] else [])
    ++ match s.globs with
      | .ok _ => []
      | .error p => [p]

def RegistrySettings.problems (s : RegistrySettings) : List ConfigProblem :=
  (if s.dir.text.isEmpty then [.emptyRegistryDir] else [])
    ++ if s.maxDepth = 0 then [.noRegistryDepth] else []

def QuarantineSettings.problems (s : QuarantineSettings) : List ConfigProblem :=
  if s.dir.isPlain then [] else [.quarantineElsewhere s.dir]

/-- **`problems`** — what makes the settings unusable, in the order in which it is checked. -/
def Config.problems (c : Config) : List ConfigProblem :=
  (if c.version = Config.supportedVersion then [] else [.version c.version])
    ++ c.plugins.problems ++ c.registry.problems ++ c.quarantine.problems

/-- Usable settings, or their first problem. -/
def Config.validate (c : Config) : Except ConfigProblem Unit :=
  match c.problems with
  | [] => .ok ()
  | p :: _ => .error p

/-! ## §C Places -/

namespace Config

open Expansion (UnsetVariable expand)

/-- **`resolve`** — where a configured path leads. -/
def resolve (environment : Environment) (c : Config) (p : Path) : Except UnsetVariable Path := do
  let expanded ← expand environment p
  if expanded.isAbsolute then pure expanded
  else pure ((← expand environment c.root).join expanded)

def pluginsDir (environment : Environment) (c : Config) : Except UnsetVariable Path :=
  c.resolve environment c.plugins.dir

def registryDir (environment : Environment) (c : Config) : Except UnsetVariable Path :=
  c.resolve environment c.registry.dir

/-- The quarantine tree lies inside the plugins directory. -/
def quarantineDir (environment : Environment) (c : Config) : Except UnsetVariable Path := do
  pure ((← c.pluginsDir environment).join c.quarantine.dir)

def schemaFile (environment : Environment) (c : Config) : Except UnsetVariable (Option Path) := do
  match c.schemaPath with
  | none => pure none
  | some p => pure (some (← c.resolve environment p))

end Config

/-- The text of a component on its own. -/
def Path.Component.text : Path.Component → String
  | .root => "/"
  | .here => "."
  | .parent => ".."
  | .name n => n

/-- The first directory on the way into the quarantine tree, which discovery does not enter. -/
def QuarantineSettings.topName? (s : QuarantineSettings) : Option String :=
  s.dir.components.head?.map Path.Component.text

def RegistrySettings.loadOptions (s : RegistrySettings) : Registry.LoadOptions :=
  ⟨s.skipDirs, s.skipFiles, s.maxDepth⟩

end PluginVet

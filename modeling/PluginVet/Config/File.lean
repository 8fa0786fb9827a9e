/-
# PluginVet.Config.File — settings in a file

A configuration file is read, its relative root is taken from the directory that holds the file, and
its settings are checked. Settings are written in the order of their declaration.
-/
import PluginVet.Config.Decode
import PluginVet.Yaml.Printer

namespace PluginVet

/-- Why a file yields no settings. -/
inductive ConfigFileError where
  | unreadable (file : Path) (cause : FileError)
  | malformed (file : Path) (cause : Yaml.Fault)
  | unusable (problem : ConfigProblem)

def ConfigFileError.message : ConfigFileError → String
  | .unreadable file cause =>
    "Failed to read configuration file " ++ file.shown ++ ": " ++ cause.message
  | .malformed file cause =>
    "Failed to parse configuration file " ++ file.shown ++ ": " ++ cause.message
  | .unusable problem => problem.message

namespace Config

/-! ## §A Reading -/

/-- A relative root is seen from the directory of the file. -/
def anchor (c : Config) (file : Path) : Config :=
  if c.root.isAbsolute then c
  else match file.parent? with
    | some parent => { c with root := parent.join c.root }
    | none => c

/-- **`ofFile`** — the settings in a file. -/
def ofFile (t : FileTree) (file : Path) : Except ConfigFileError Config :=
  match t.readText file with
  | .error cause => .error (.unreadable file cause)
  | .ok content =>
    match read content with
    | .error cause => .error (.malformed file cause)
    | .ok c =>
      let c := c.anchor file
      match c.validate with
      | .error p => .error (.unusable p)
      | .ok () => .ok c

/-- The first configuration file of a directory. -/
def findIn (t : FileTree) (dir : Path) : Option Path :=
  (fileNames.map dir.child).find? t.isFile

/-! ## §B Writing -/

def pluginEntries (s : PluginSettings) : List (String × Yaml.Written) :=
  [("dir", .text s.dir.text), ("descriptor_file", .text s.descriptorFile),
    ("icon_files", .texts s.iconFiles), ("tests_dir", .text s.testsDir),
    ("test_file_patterns", .texts s.testFilePatterns), ("skip_dirs", .texts s.skipDirs),
    ("max_depth", .word (toString s.maxDepth))]

def registryEntries (s : RegistrySettings) : List (String × Yaml.Written) :=
  [("dir", .text s.dir.text), ("skip_dirs", .texts s.skipDirs), ("skip_files", .texts s.skipFiles),
    ("max_depth", .word (toString s.maxDepth))]

def quarantineEntries (s : QuarantineSettings) : List (String × Yaml.Written) :=
  [("enabled", .word (if s.enabled then "true" else "false")), ("dir", .text s.dir.text)]

/-- The settings as entries of a document. -/
def entries (c : Config) : List (String × Yaml.Written) :=
  [("version", .text c.version), ("root", .text c.root.text)]
    ++ (match c.schemaPath with
      | some p => [("schema_path", .text p.text)]
      | none => [])
    ++ [("plugins", .group (pluginEntries c.plugins)),
      ("registry", .group (registryEntries c.registry)),
      ("quarantine", .group (quarantineEntries c.quarantine))]

/-- **`toYaml`** — the settings as a text. -/
def toYaml (c : Config) : String := Yaml.write c.entries

/-- The tree with the settings in a file. -/
def save (t : FileTree) (c : Config) (file : Path) : Except FileError FileTree :=
  t.writeText file c.toYaml

end Config

end PluginVet

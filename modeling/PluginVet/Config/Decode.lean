/-
# PluginVet.Config.Decode — settings from a YAML text

Each section is a record read onto its standard settings. Numbers and words that stand for a path or a
name are taken by their text.
-/
import PluginVet.Config.Basic
import PluginVet.Yaml.Record

namespace PluginVet.Config

open Yaml (Source Place Node Decode)

def setPluginField (src : Source) (s : PluginSettings) (key : String) (place : Place) (n : Node) :
    Decode PluginSettings := do
  match key with
  | "dir" => pure { s with dir := ← src.path place n }
  | "descriptor_file" => pure { s with descriptorFile := ← src.text "a string" place n }
  | "icon_files" => pure { s with iconFiles := ← src.texts place n }
  | "tests_dir" => pure { s with testsDir := ← src.text "a string" place n }
  | "test_file_patterns" => pure { s with testFilePatterns := ← src.texts place n }
  | "skip_dirs" => pure { s with skipDirs := ← src.texts place n }
  | "max_depth" => pure { s with maxDepth := ← src.count place n }
  | _ => pure s

def pluginFields : List String :=
  ["dir", "descriptor_file", "icon_files", "tests_dir", "test_file_patterns", "skip_dirs",
    "max_depth"]

def setRegistryField (src : Source) (s : RegistrySettings) (key : String) (place : Place)
    (n : Node) : Decode RegistrySettings := do
  match key with
  | "dir" => pure { s with dir := ← src.path place n }
  | "skip_dirs" => pure { s with skipDirs := ← src.texts place n }
  | "skip_files" => pure { s with skipFiles := ← src.texts place n }
  | "max_depth" => pure { s with maxDepth := ← src.count place n }
  | _ => pure s

def registryFields : List String := ["dir", "skip_dirs", "skip_files", "max_depth"]

def setQuarantineField (src : Source) (s : QuarantineSettings) (key : String) (place : Place)
    (n : Node) : Decode QuarantineSettings := do
  match key with
  | "enabled" => pure { s with enabled := ← src.truth place n }
  | "dir" => pure { s with dir := ← src.path place n }
  | _ => pure s

def quarantineFields : List String := ["enabled", "dir"]

def setField (src : Source) (c : Config) (key : String) (place : Place) (n : Node) :
    Decode Config := do
  match key with
  | "version" => pure { c with version := ← src.text "a string" place n }
  | "root" => pure { c with root := ← src.path place n }
  | "schema_path" => pure { c with schemaPath := ← src.optionalPath place n }
  | "plugins" =>
    let s ← src.record "PluginsConfig" pluginFields (setPluginField src) .standard place n
    pure { c with plugins := s }
  | "registry" =>
    let s ← src.record "RegistryConfig" registryFields (setRegistryField src) .standard place n
    pure { c with registry := s }
  | "quarantine" =>
    let s ← src.record "QuarantineConfig" quarantineFields (setQuarantineField src) .standard place n
    pure { c with quarantine := s }
  | _ => pure c

def fieldNames : List String :=
  ["version", "root", "schema_path", "plugins", "registry", "quarantine"]

/-- **`read`** — the settings that a text describes. -/
def read (s : String) : Except Yaml.Fault Config :=
  Yaml.decodeOnly
    (fun src n => src.record "Config" fieldNames (setField src) .standard .root n) s

end PluginVet.Config

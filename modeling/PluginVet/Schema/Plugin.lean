/-
# PluginVet.Schema.Plugin — the schema of plugin manifests

The contract for front matter that holds when no other schema is configured.
-/
import PluginVet.Schema.Read

namespace PluginVet.Schema.Plugin

def lowercase : CharSet := .range 'a' 'z'

def decimalDigit : CharSet := .range '0' '9'

/-- A lower-case letter or digit, then such characters and hyphens. -/
def idPattern : NamedPattern :=
  { source := "^[a-z0-9][a-z0-9-]*$"
    pattern := Pattern.sequenceAll [.textStart, .char (.union [lowercase, decimalDigit]),
      Pattern.star (.char (.union [lowercase, decimalDigit, .range '-' '-'])), .textEnd] }

/-- A lower-case letter, then such letters, digits and underscores. -/
def segment : Pattern :=
  .sequence (.char lowercase)
    (Pattern.star (.char (.union [lowercase, decimalDigit, .range '_' '_'])))

/-- Segments with points between them. -/
def toolNamePattern : NamedPattern :=
  { source := "^[a-z][a-z0-9_]*(\\.[a-z][a-z0-9_]*)*$"
    pattern := Pattern.sequenceAll [.textStart, segment,
      Pattern.star (.sequence (Pattern.literal '.') segment), .textEnd] }

def only (kind : Kind) : Schema := .all [.kinds true [kind]]

def text : Schema := only .string

def oneOfTexts (texts : List String) : Schema := .all [.options (texts.map .string)]

def tool : Schema :=
  .all [
    .properties [
      ("description", text),
      ("method", oneOfTexts ["GET", "POST", "PUT", "PATCH", "DELETE"]),
      ("params", only .object), ("returns", text)],
    .required ["description"], .kinds true [.object]]

def toolMap : Schema :=
  .all [.otherProperties [] [] tool, .propertyNames (.all [.pattern toolNamePattern]),
    .kinds true [.object]]

/-- Any values but arrays, by name. -/
def mapping : Schema :=
  .all [
    .otherProperties [] []
      (.all [.kinds true [.boolean, .integer, .null, .number, .object, .string]]),
    .kinds true [.object]]

def adapter : Schema := .all [.properties [("mapping", mapping)], .kinds true [.object]]

def auth : Schema :=
  .all [
    .properties [
      ("header", text), ("type", oneOfTexts ["none", "api_key", "oauth", "cookies", "basic"])],
    .kinds true [.object]]

/-- The fields of a manifest, in key order. -/
def fields : List (String × Schema) := [
  ("actions", toolMap),
  ("adapters", .all [.otherProperties [] [] adapter, .kinds true [.object]]),
  ("auth", auth),
  ("description", text),
  ("icon", text),
  ("id", .all [.pattern idPattern, .kinds true [.string]]),
  ("mappings", .all [.otherProperties [] [] mapping, .kinds true [.object]]),
  ("name", .all [.minLength 1, .kinds true [.string]]),
  ("operations", toolMap),
  ("platforms", .all [.items 0 (oneOfTexts ["macos", "linux", "windows"]), .kinds true [.array]]),
  ("tags", .all [.items 0 text, .kinds true [.array]]),
  ("utilities", toolMap),
  ("website", text)]

def manifest : Schema :=
  .all [.properties fields, .required ["id", "name", "tags"], .kinds true [.object]]

end Plugin

/-- **`plugin`** — the schema that holds when no other one is configured. -/
def plugin : Compiled := ⟨Plugin.manifest, []⟩

end PluginVet.Schema

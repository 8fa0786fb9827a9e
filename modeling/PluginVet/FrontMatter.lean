/-
# PluginVet.FrontMatter — the structured block at the head of a descriptor

A descriptor opens with the line `---`; the text between it and the next occurrence of a line that
begins with `---` is a YAML document, and that document has to be a mapping.
-/
import PluginVet.Text.Blank
import PluginVet.Text.Search
import PluginVet.Yaml.Decode

namespace PluginVet.FrontMatter

def delimiter : List Char := ['-', '-', '-']

/-- The rest behind a line break, CR LF or LF. -/
def dropLineBreak? (cs : List Char) : Option (List Char) :=
  match cs with
  | '\r' :: '\n' :: rest => some rest
  | '\n' :: rest => some rest
  | _ => none

/-- The block of a text given as characters. -/
def extractChars (content : List Char) : Option (List Char) := do
  let rest ← dropLineBreak? (← Text.dropHead? delimiter content)
  if (Text.dropHead? delimiter rest).isSome then some []
  else
    let (block, _) ← Text.breakOn? ('\n' :: delimiter) rest
    some (Text.dropEndWhile (· = '\r') block)

/-- **`extract content`** — the block between the delimiters, without carriage returns at its end. -/
def extract (content : String) : Option String := (extractChars content.toList).map String.ofList

/-- What stands in the block instead of a mapping. -/
inductive Intruder where
  | emptyBlock | sequence | scalar

def Intruder.describe : Intruder → String
  | .emptyBlock => "an empty block"
  | .sequence => "a sequence"
  | .scalar => "a scalar"

/-- Why a descriptor has no readable front matter. -/
inductive FrontError where
  | missing
  | yaml (cause : Yaml.Fault)
  | notAMapping (found : Intruder)

def FrontError.message : FrontError → String
  | .missing => "No frontmatter block delimited by '---' lines found"
  | .yaml cause => "Frontmatter is not valid YAML: " ++ cause.message
  | .notAMapping found => "Frontmatter must be a mapping, found " ++ found.describe

/-- **`parse content`** — the block as a document value, which is always an object. -/
def parse (content : String) : Except FrontError Json :=
  match extract content with
  | none => .error .missing
  | some block =>
    match Yaml.readJson block with
    | .error cause => .error (.yaml cause)
    | .ok (.object fields) => .ok (.object fields)
    | .ok .null => .error (.notAMapping .emptyBlock)
    | .ok (.array _) => .error (.notAMapping .sequence)
    | .ok _ => .error (.notAMapping .scalar)

end PluginVet.FrontMatter

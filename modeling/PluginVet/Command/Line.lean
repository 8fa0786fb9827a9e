/-
# PluginVet.Command.Line — flags, settings and names on a command line

A command line is a list of words. A flag stands for itself, a setting takes a value, and all else is
a name. Long forms begin with two hyphens and may hold the value behind `=`; short forms are letters
behind one hyphen, of which the last may be a setting with its value behind it, with or without `=`.
Behind a word `--` there are only names.

A value that is a word of its own is looked at when the next flag, setting or name is read, so an
unknown word in between is reported first.

§A flags and settings, §B words, §C reading.
-/
import PluginVet.Keyed
import PluginVet.Report.Format
import PluginVet.Text.Search

namespace PluginVet.Command

/-! ## §A Flags and settings -/

inductive Flag where
  | all | force | help | noCoverage | noMove | noReferences | preCommit | strict | verbose | version
  deriving DecidableEq, Repr

inductive Setting where
  | config | filter | format | output | root
  deriving DecidableEq, Repr

def Flag.longName : Flag → String
  | .all => "all"
  | .force => "force"
  | .help => "help"
  | .noCoverage => "no-coverage"
  | .noMove => "no-move"
  | .noReferences => "no-refs"
  | .preCommit => "pre-commit"
  | .strict => "strict"
  | .verbose => "verbose"
  | .version => "version"

def Flag.letter? : Flag → Option Char
  | .help => some 'h'
  | .verbose => some 'v'
  | .version => some 'V'
  | _ => none

def Setting.longName : Setting → String
  | .config => "config"
  | .filter => "filter"
  | .format => "format"
  | .output => "output"
  | .root => "root"

def Setting.letter? : Setting → Option Char
  | .config => some 'c'
  | .filter => some 'f'
  | .output => some 'o'
  | .root => some 'r'
  | .format => none

/-- The values that a setting can have. -/
def Setting.admits (s : Setting) (value : String) : Bool :=
  match s with
  | .format => (ReportFormat.named? value).isSome
  | _ => true

inductive Parameter where
  | flag (f : Flag)
  | setting (s : Setting)
  deriving DecidableEq, Repr

def Parameter.longName : Parameter → String
  | .flag f => f.longName
  | .setting s => s.longName

def Parameter.letter? : Parameter → Option Char
  | .flag f => f.letter?
  | .setting s => s.letter?

/-- What a command takes. -/
structure Grammar where
  flags : List Flag
  settings : List Setting
  takesNames : Bool

namespace Grammar

def parameters (g : Grammar) : List Parameter :=
  g.flags.map .flag ++ g.settings.map .setting

def named? (g : Grammar) (name : String) : Option Parameter :=
  g.parameters.find? fun p => p.longName == name

def lettered? (g : Grammar) (letter : Char) : Option Parameter :=
  g.parameters.find? fun p => p.letter? == some letter

end Grammar

/-! ## §B Words -/

inductive Word where
  /-- `--`. -/
  | separator
  | long (name : String) (value : Option String)
  | letters (cs : List Char)
  | plain

/-- What a word is by its form. A single hyphen is a word like any other. -/
def Word.ofChars (cs : List Char) : Word :=
  match cs with
  | ['-', '-'] => .separator
  | '-' :: '-' :: body =>
    match Text.breakOn? ['='] body with
    | some (name, value) => .long (String.ofList name) (some (String.ofList value))
    | none => .long (String.ofList body) none
  | '-' :: c :: rest => .letters (c :: rest)
  | _ => .plain

/-! ## §C Reading -/

/-- Why a command line is not carried out. -/
inductive UsageProblem where
  | unknownArgument
  | conflict
  | invalidValue
  | needlessValue
  | unknownCommand
  /-- Help was asked for. -/
  | help
  /-- The version was asked for. -/
  | version
  deriving DecidableEq, Repr

/-- What a command line has given so far. -/
structure Given where
  flags : List Flag
  settings : List (Setting × String)
  names : List String
  /-- A setting whose value is still to come, or is still to be looked at. -/
  pending : Option (Setting × Option String)

namespace Given

def nothing : Given := ⟨[], [], [], none⟩

def has (g : Given) (f : Flag) : Bool := g.flags.contains f

def get? (g : Given) (s : Setting) : Option String := g.settings.lookup s

/-- Takes a setting with its value, once. -/
def set (g : Given) (s : Setting) (value : String) : Except UsageProblem Given :=
  if (g.get? s).isSome then .error .conflict
  else if s.admits value then .ok { g with settings := g.settings ++ [(s, value)] }
  else .error .invalidValue

/-- Looks at the value of a pending setting, which has to be there by now. -/
def settle (g : Given) : Except UsageProblem Given :=
  match g.pending with
  | none => .ok g
  | some (_, none) => .error .invalidValue
  | some (s, some value) => { g with pending := none }.set s value

/-- Takes a flag, once. -/
def raise (g : Given) (f : Flag) : Except UsageProblem Given := do
  let g ← g.settle
  match f with
  | .help => throw .help
  | .version => throw .version
  | f => if g.has f then throw .conflict else pure { g with flags := g.flags ++ [f] }

/-- Takes a setting with a value in the same word. -/
def setAttached (g : Given) (s : Setting) (value : String) : Except UsageProblem Given := do
  (← g.settle).set s value

/-- Takes a setting whose value is the next word. -/
def await (g : Given) (s : Setting) : Except UsageProblem Given := do
  pure { ← g.settle with pending := some (s, none) }

def readLong (grammar : Grammar) (g : Given) (name : String) (value : Option String) :
    Except UsageProblem Given :=
  match grammar.named? name, value with
  | none, _ => .error .unknownArgument
  | some (.flag f), none => g.raise f
  | some (.flag _), some _ => .error .needlessValue
  | some (.setting s), some value => g.setAttached s value
  | some (.setting s), none => g.await s

def readLetters (grammar : Grammar) (g : Given) : List Char → Except UsageProblem Given
  | [] => .ok g
  | c :: rest =>
    match grammar.lettered? c, rest with
    | none, _ => .error .unknownArgument
    | some (.flag f), _ => do readLetters grammar (← g.raise f) rest
    | some (.setting s), [] => g.await s
    | some (.setting s), '=' :: value => g.setAttached s (String.ofList value)
    | some (.setting s), value => g.setAttached s (String.ofList value)

def readName (grammar : Grammar) (g : Given) (name : String) : Except UsageProblem Given :=
  if grammar.takesNames then do
    let g ← g.settle
    pure { g with names := g.names ++ [name] }
  else .error .unknownArgument

/-- A word that is the value of a setting, or a name. -/
def readPlain (grammar : Grammar) (g : Given) (word : String) : Except UsageProblem Given :=
  match g.pending with
  | some (s, none) => .ok { g with pending := some (s, some word) }
  | _ => g.readName grammar word

/-- The words of a command line in order; the last setting is settled at its end. -/
def readWords (grammar : Grammar) (g : Given) : List String → Except UsageProblem Given
  | [] => g.settle
  | word :: rest =>
    match Word.ofChars word.toList with
    | .separator => do (← rest.foldlM (readName grammar) g).settle
    | .long name value => do readWords grammar (← g.readLong grammar name value) rest
    | .letters cs => do readWords grammar (← g.readLetters grammar cs) rest
    | .plain => do readWords grammar (← g.readPlain grammar word) rest

/-- **`read`** — what a command line gives; it may not ask for all plugins and name some. -/
def read (grammar : Grammar) (words : List String) : Except UsageProblem Given := do
  let g ← nothing.readWords grammar words
  if g.has .all && !g.names.isEmpty then throw .conflict else pure g

end Given

end PluginVet.Command

/-
# PluginVet.Expansion — home directories and variables in configured paths

`$NAME` and `${NAME}` stand for values of the environment, `${NAME:-text}` for `text` where there is no
value, and `$$` for a dollar sign. A tilde at the very beginning, alone or in front of a slash, stands
for the home directory. Values are not expanded again, and a tilde that comes from a value stays.
-/
import PluginVet.Keyed
import PluginVet.Path
import PluginVet.Text.Alphanumeric

namespace PluginVet

/-- Variables and their values. -/
abbrev Environment := Table String

namespace Expansion

/-- A path that names a variable without a value. -/
structure UnsetVariable where
  path : Path
  name : String

def UnsetVariable.message (e : UnsetVariable) : String :=
  "Failed to expand path " ++ e.path.shown ++ ": error looking key '" ++ e.name
    ++ "' up: environment variable not found"

/-! ## §A Variables -/

def isNameCharacter (c : Char) : Bool := Text.isAlphanumeric c || c = '_'

/-- A piece of a text with variables. -/
inductive Piece where
  | plain (c : Char)
  | variable (name : String) (fallback : Option (List Char))

/-- Name and fallback inside braces; a fallback needs a name in front of it. -/
def Piece.ofBraces (inner : List Char) : Piece :=
  match Text.breakOn? [':', '-'] inner with
  | some (c :: cs, fallback) => .variable (String.ofList (c :: cs)) (some fallback)
  | _ => .variable (String.ofList inner) none

/-- The pieces of a text. The fuel is the number of characters. -/
def pieces : Nat → List Char → List Piece
  | 0, _ => []
  | _ + 1, [] => []
  | fuel + 1, '$' :: '{' :: rest =>
    match Text.breakOn? ['}'] rest with
    | some (inner, after) => Piece.ofBraces inner :: pieces fuel after
    | none => .plain '$' :: .plain '{' :: pieces fuel rest
  | fuel + 1, '$' :: '$' :: rest => .plain '$' :: pieces fuel rest
  | fuel + 1, '$' :: rest =>
    match rest.takeWhile isNameCharacter with
    | [] => .plain '$' :: pieces fuel rest
    | name => .variable (String.ofList name) none :: pieces fuel (rest.drop name.length)
  | fuel + 1, c :: rest => .plain c :: pieces fuel rest

def Piece.value (environment : Environment) (path : Path) :
    Piece → Except UnsetVariable (List Char)
  | .plain c => .ok [c]
  | .variable name fallback =>
    match environment.get? name, fallback with
    | some value, _ => .ok value.toList
    | none, some fallback => .ok fallback
    | none, none => .error ⟨path, name⟩

def substituted (environment : Environment) (path : Path) : Except UnsetVariable (List Char) := do
  let cs := path.text.toList
  let values ← (pieces cs.length cs).mapM (Piece.value environment path)
  pure values.flatten

/-- The names of the variables in a path. -/
def variableNames (path : Path) : List String :=
  let cs := path.text.toList
  (pieces cs.length cs).filterMap fun
    | .variable name _ => some name
    | .plain _ => none

/-! ## §B Home -/

def home? (environment : Environment) : Option String :=
  (environment.get? "HOME").filter fun h => !h.isEmpty

/-- A leading tilde as the home directory. -/
def tilde (environment : Environment) (cs : List Char) : List Char :=
  match cs, home? environment with
  | ['~'], some home => home.toList
  | '~' :: '/' :: rest, some home => home.toList ++ '/' :: rest
  | _, _ => cs

/-- **`expand`** — a path with its variables and its leading tilde replaced. -/
def expand (environment : Environment) (path : Path) : Except UnsetVariable Path := do
  let cs ← substituted environment path
  let wasTilde := (Text.dropHead? ['~'] path.text.toList).isSome
  let isTilde := (Text.dropHead? ['~'] cs).isSome
  if isTilde && !wasTilde then pure ⟨String.ofList cs⟩
  else pure ⟨String.ofList (tilde environment cs)⟩

end Expansion

end PluginVet

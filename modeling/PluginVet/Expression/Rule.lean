/-
# PluginVet.Expression.Rule — text patterns that an expression must not show

Mapping expressions are never evaluated here; three rules look at their text.

§A **Quoting**: a single-quoted literal beside `==`, before `?` or behind `:`. The leftmost place where
such a shape begins gives the fragment that the message shows; at one place the four shapes are tried
in a fixed order.
§B **Ternary**: a `?` with a string literal behind it, unless the operator `?//` occurs anywhere.
§C **Unguarded iteration**: `.nodes[]`, `.items[]` or `.edges[]` without a `?` behind it, unless the
guard idiom `((PARENT // {}).nodes // [])` occurs anywhere.
§D **Findings**: what the three rules report of an expression, in this order, and their messages.

Each recogniser looks at the beginning of a list of characters; `leftmost?` moves it along the text.
-/
import PluginVet.Pointer
import PluginVet.Text.Blank
import PluginVet.Text.Search

namespace PluginVet.Expression

/-- The first answer of `f` on the text, the text without its first character, and so on. -/
def leftmost? {α : Type} (f : List Char → Option α) (s : List Char) : Option α :=
  match f s with
  | some a => some a
  | none =>
    match s with
    | [] => none
    | _ :: rest => leftmost? f rest

def occurs (p : List Char → Bool) (s : List Char) : Bool :=
  (leftmost? (fun t => if p t then some () else none) s).isSome

/-! ## §A Quoting -/

def dropSpaces (s : List Char) : List Char := s.dropWhile (· = ' ')

/-- The rest behind a single-quoted literal. -/
def dropLiteral? (s : List Char) : Option (List Char) :=
  match s with
  | '\'' :: rest => (rest.dropWhile (· != '\'')).tail?
  | _ => none

/-- The rest behind `==` and a literal. -/
def comparedBehind? (s : List Char) : Option (List Char) :=
  match s with
  | '=' :: '=' :: rest => dropLiteral? (dropSpaces rest)
  | _ => none

/-- The rest behind a literal and `==`. -/
def comparedBefore? (s : List Char) : Option (List Char) :=
  (dropLiteral? s).bind fun rest =>
    match dropSpaces rest with
    | '=' :: '=' :: rest => some rest
    | _ => none

/-- The rest behind a literal and `?`. -/
def questioned? (s : List Char) : Option (List Char) :=
  (dropLiteral? s).bind fun rest =>
    match dropSpaces rest with
    | '?' :: rest => some rest
    | _ => none

/-- The rest behind `:` and a literal. -/
def labelled? (s : List Char) : Option (List Char) :=
  match s with
  | ':' :: rest => dropLiteral? (dropSpaces rest)
  | _ => none

/-- The shape with which the text begins. -/
def quotedShape? (s : List Char) : Option (List Char) :=
  let rest? := (comparedBehind? s <|> comparedBefore? s) <|> (questioned? s <|> labelled? s)
  rest?.map fun rest => s.take (s.length - rest.length)

/-- The fragment that the quoting rule reports. -/
def quotedFragment? (s : List Char) : Option (List Char) := leftmost? quotedShape? s

/-! ## §B Ternary -/

/-- `?`, white space and a quote. -/
def beginsTernary (s : List Char) : Bool :=
  match s with
  | '?' :: rest =>
    match rest.dropWhile Text.isBlank with
    | '"' :: _ => true
    | '\'' :: _ => true
    | _ => false
  | _ => false

/-- The alternative operator `?//`. -/
def beginsAlternative (s : List Char) : Bool := (Text.dropHead? ['?', '/', '/'] s).isSome

def hasTernary (s : List Char) : Bool := occurs beginsTernary s && !occurs beginsAlternative s

/-! ## §C Unguarded iteration -/

/-- A paginated collection. -/
inductive Collection where
  | nodes | items | edges
  deriving DecidableEq, Repr

def Collection.name : Collection → String
  | .nodes => "nodes"
  | .items => "items"
  | .edges => "edges"

def Collection.all : List Collection := [.nodes, .items, .edges]

/-- The collection that the text begins with, and the rest. -/
def dropCollection? (s : List Char) : Option (Collection × List Char) :=
  Collection.all.findSome? fun c => (Text.dropHead? c.name.toList s).map fun rest => (c, rest)

/-- `.nodes[]` and its kin, with the end of the text or another character than `?` behind. -/
def bareIteration? (s : List Char) : Option Collection :=
  match s with
  | '.' :: rest =>
    (dropCollection? rest).bind fun (c, rest) =>
      match rest with
      | '[' :: ']' :: '?' :: _ => none
      | '[' :: ']' :: _ => some c
      | _ => none
  | _ => none

def dropBlanks (s : List Char) : List Char := s.dropWhile Text.isBlank

/-- The rest behind white space and the character `c`. -/
def dropSpaced? (c : Char) (s : List Char) : Option (List Char) :=
  match dropBlanks s with
  | d :: rest => if d = c then some rest else none
  | [] => none

/-- A text that ends in `// {}`, white space aside, with something in front of it. -/
def endsInEmptyObject (s : List Char) : Bool :=
  match (dropSpaced? '}' s.reverse).bind (dropSpaced? '{') with
  | some front =>
    match dropBlanks front with
    | '/' :: '/' :: _ :: _ => true
    | _ => false
  | none => false

/-- The guard idiom: `((PARENT // {}).nodes // [])`, white space aside. -/
def beginsGuard (s : List Char) : Bool :=
  match s with
  | '(' :: rest =>
    match dropSpaced? '(' rest with
    | some inner =>
      let parent := inner.takeWhile (· != ')')
      let tail? := do
        let rest ← (inner.dropWhile (· != ')')).tail?
        let (_, rest) ← dropCollection? (dropBlanks (← dropSpaced? '.' rest))
        let rest ← Text.dropHead? ['/', '/'] (dropBlanks rest)
        dropSpaced? ')' (← dropSpaced? ']' (← dropSpaced? '[' rest))
      endsInEmptyObject parent && tail?.isSome
    | none => false
  | _ => false

/-- The collection that the iteration rule reports. -/
def unguarded? (s : List Char) : Option Collection :=
  if occurs beginsGuard s then none else leftmost? bareIteration? s

/-! ## §D Findings -/

inductive Rule where
  | quoting | ternary | unguardedIteration
  deriving DecidableEq, Repr

namespace Rule

def title : Rule → String
  | .quoting => "quoting"
  | .ternary => "ternary"
  | .unguardedIteration => "unguarded-iteration"

/-- The name of the rule in machine-readable output. -/
def key : Rule → String
  | .quoting => "quoting"
  | .ternary => "ternary"
  | .unguardedIteration => "unguarded_iteration"

end Rule

/-- What a rule found in an expression. -/
inductive Violation where
  | quoting (fragment : String)
  | ternary
  | unguarded (collection : Collection)
  deriving DecidableEq

def Violation.rule : Violation → Rule
  | .quoting _ => .quoting
  | .ternary => .ternary
  | .unguarded _ => .unguardedIteration

def Violation.message : Violation → String
  | .quoting fragment =>
    "Single-quoted string literal (only double quotes are supported): " ++ fragment
  | .ternary => "C-style ternary is not supported; rewrite as `if COND then A else B end`"
  | .unguarded c =>
    "Bare ." ++ c.name ++ "[] without a null guard fails when the parent is null; use [((.parent // "
      ++ "\x7b\x7d)." ++ c.name ++ " // [])[] | .field]"

/-- **`violations source`** — what the rules find, at most one violation each, in rule order. -/
def violations (source : String) : List Violation :=
  let s := source.toList
  ((quotedFragment? s).map fun f => Violation.quoting (String.ofList f)).toList
    ++ (if hasTernary s then [Violation.ternary] else [])
    ++ ((unguarded? s).map Violation.unguarded).toList

/-- A violation with the entry that holds the expression. -/
structure LintFinding where
  violation : Violation
  pointer : Pointer
  /-- The whole expression. -/
  source : String
  deriving DecidableEq

/-- **`lint pointer source`** — the findings of one expression. -/
def lint (pointer : Pointer) (source : String) : List LintFinding :=
  (violations source).map fun v => ⟨v, pointer, source⟩

end PluginVet.Expression

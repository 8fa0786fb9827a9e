/-
# PluginVet.Schema.Violation — what a manifest's schema check reports

Every breach of the schema is a violation, and so is a manifest that declares no tool at all. The list
is strictly increasing by path and message, so a violation that arises twice is reported once.
-/
import PluginVet.Schema.Plugin

namespace PluginVet.Schema

structure Violation where
  /-- The pointer to the value; `/` for the whole document. -/
  path : String
  message : String
  deriving DecidableEq, Repr

namespace Violation

def le (a b : Violation) : Bool := a.path < b.path || (a.path = b.path && a.message ≤ b.message)

/-- The written form of a pointer, in which the root is visible. -/
def showPointer (p : Pointer) : String := if p.isEmpty then "/" else p

def ofLocated (b : Located) : Violation := ⟨showPointer b.pointer, b.breach.message⟩

end Violation

def toolSections : List String := ["operations", "utilities", "actions"]

/-- Some section is an object with a field in it. -/
def declaresTool (fields : List (String × Json)) : Bool :=
  toolSections.any fun key =>
    match Keyed.get? fields key with
    | some (.object (_ :: _)) => true
    | _ => false

def noToolViolation : Violation :=
  ⟨"/", "must declare at least one entry in one of: " ++ ", ".intercalate toolSections⟩

/-- Neighbours that are equal are one. -/
def dropRepeats : List Violation → List Violation
  | [] => []
  | [v] => [v]
  | v :: w :: rest => if v = w then dropRepeats (w :: rest) else v :: dropRepeats (w :: rest)

/-- **`violations`** — all violations of a schema, in order. -/
def Compiled.violations (c : Compiled) (v : Json) : List Violation :=
  let broken := (c.breaches v).map Violation.ofLocated
  let broken := match v with
    | .object fields => if declaresTool fields then broken else broken ++ [noToolViolation]
    | _ => broken
  dropRepeats (broken.mergeSort Violation.le)

end PluginVet.Schema

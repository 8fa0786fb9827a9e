/-
# PluginVet.Glob — patterns for file names

`?` stands for one character, `*` for any text, `[…]` for one character of a set and `[!…]` for one
outside it; slashes and leading points are characters like any other. `**`, which has to be a whole
component, stands for any number of components. A glob matches whole names.
-/
import PluginVet.Path
import PluginVet.Pattern.Basic

namespace PluginVet

inductive Glob.Token where
  | char (set : CharSet)
  /-- Any text. -/
  | run
  /-- Any number of components. -/
  | deep

structure Glob where
  tokens : List Glob.Token

namespace Glob

/-! ## §A Matching -/

/-- The text and all that is left when characters are taken from its front. -/
def suffixes : List Char → List (List Char)
  | [] => [[]]
  | c :: cs => (c :: cs) :: suffixes cs

/-- The texts behind the slashes. -/
def behindSlashes : List Char → List (List Char)
  | [] => []
  | c :: cs => if c = Path.slash then cs :: behindSlashes cs else behindSlashes cs

/-- A run of components ends behind a slash or at the end of the text. -/
def matchesChars : List Token → List Char → Bool
  | [], cs => cs.isEmpty
  | .char _ :: _, [] => false
  | .char set :: rest, c :: cs => set.holds c && matchesChars rest cs
  | .run :: rest, cs => (suffixes cs).any (matchesChars rest)
  | .deep :: rest, cs => (cs :: [] :: behindSlashes cs).any (matchesChars rest)

/-- **`matchesName g name`** — the whole name fits. -/
def matchesName (g : Glob) (name : String) : Bool := matchesChars g.tokens name.toList

/-! ## §B Reading -/

inductive Fault where
  | wildcards | recursiveWildcards | range

def Fault.message : Fault → String
  | .wildcards => "wildcards are either regular \x60*\x60 or recursive \x60**\x60"
  | .recursiveWildcards => "recursive wildcards must form a single path component"
  | .range => "invalid range pattern"

/-- What is wrong, and the number of characters in front of it. -/
structure GlobError where
  fault : Fault
  position : Nat

def GlobError.message (e : GlobError) : String :=
  "Pattern syntax error near position " ++ toString e.position ++ ": " ++ e.fault.message

/-- The members of a set: single characters and ranges. -/
def members : List Char → List CharSet
  | first :: '-' :: last :: rest => .range first last :: members rest
  | c :: rest => .range c c :: members rest
  | [] => []

/-- The set behind an opening bracket and what follows it. Its first character is never its end. -/
def bracket? (cs : List Char) : Option (CharSet × List Char) :=
  match cs with
  | '!' :: first :: rest =>
    (Text.breakOn? [']'] rest).map fun r =>
      (.complement (.union (members (first :: r.1))), r.2)
  | '!' :: [] => none
  | first :: rest =>
    (Text.breakOn? [']'] rest).map fun r => (.union (members (first :: r.1)), r.2)
  | [] => none

def anyCharacter : CharSet := .complement (.union [])

/-- A run of components, which says nothing new behind another one. -/
def addDeep (tokens : List Token) : List Token :=
  match tokens.reverse with
  | .deep :: _ :: _ => tokens
  | _ => tokens ++ [.deep]

/-- Reads on behind `tokens`, which stand for the first `position` characters. The fuel is the number
of characters left. -/
def readFrom : Nat → List Token → Option Char → Nat → List Char → Except GlobError Glob
  | 0, tokens, _, _, _ => .ok ⟨tokens⟩
  | _ + 1, tokens, _, _, [] => .ok ⟨tokens⟩
  | fuel + 1, tokens, before, position, c :: cs =>
    if c = '?' then readFrom fuel (tokens ++ [.char anyCharacter]) (some c) (position + 1) cs
    else if c = '[' then
      match bracket? cs with
      | none => .error ⟨.range, position⟩
      | some (set, rest) =>
        readFrom fuel (tokens ++ [.char set]) (some ']') (position + 1 + (cs.length - rest.length))
          rest
    else if c = '*' then
      let more := cs.takeWhile (· = '*')
      let rest := cs.drop more.length
      match more with
      | [] => readFrom fuel (tokens ++ [.run]) (some c) (position + 1) rest
      | [_] =>
        if before.isSome && before != some Path.slash then
          .error ⟨.recursiveWildcards, position - 1⟩
        else match rest with
          | [] => readFrom fuel (addDeep tokens) (some c) (position + 2) []
          | d :: rest =>
            if d = Path.slash then readFrom fuel (addDeep tokens) (some d) (position + 3) rest
            else .error ⟨.recursiveWildcards, position + 2⟩
      | _ => .error ⟨.wildcards, position + 2⟩
    else readFrom fuel (tokens ++ [.char (.range c c)]) (some c) (position + 1) cs

/-- **`read`** — the glob with the written form `source`. -/
def read (source : String) : Except GlobError Glob :=
  readFrom source.length [] none 0 source.toList

/-- Some glob matches the name. -/
def anyMatches (globs : List Glob) (name : String) : Bool := globs.any fun g => g.matchesName name

end Glob

end PluginVet

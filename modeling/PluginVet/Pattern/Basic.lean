/-
# PluginVet.Pattern.Basic — regular expressions as sets of places

A pattern maps a place in a text to the places where a match that begins there may end. Alternatives
and repetitions are then unions, and no order among matches is needed: the only question asked is
whether a pattern is found somewhere in a text (`Pattern.isFoundIn`).

`ends` recurses on the pattern; a repetition follows its body at most once per remaining character,
because a round that takes nothing adds no new place.
-/
import PluginVet.Text.Blank

namespace PluginVet

/-- A set of characters. -/
inductive CharSet where
  | range (first last : Char)
  | digit
  /-- A letter, digit or underscore, of ASCII. -/
  | word
  | blank
  | union (sets : List CharSet)
  | complement (set : CharSet)

mutual

def CharSet.holds (c : Char) : CharSet → Bool
  | .range first last => first ≤ c && c ≤ last
  | .digit => '0' ≤ c && c ≤ '9'
  | .word => c.isAlphanum || c = '_'
  | .blank => Text.isBlank c
  | .union sets => CharSet.holdsAny c sets
  | .complement set => !set.holds c

def CharSet.holdsAny (c : Char) : List CharSet → Bool
  | [] => false
  | set :: rest => set.holds c || CharSet.holdsAny c rest

end

inductive Pattern where
  /-- The empty text. -/
  | nothing
  | char (set : CharSet)
  | sequence (first second : Pattern)
  | either (first second : Pattern)
  /-- At least `least` times, and at most `most` times if that is given. -/
  | repeated (body : Pattern) (least : Nat) (most : Option Nat)
  | textStart
  | textEnd
  /-- Between a word character and another one or an end of the text, or everywhere else. -/
  | wordEdge (negated : Bool)
  /-- What follows matches, or does not. -/
  | ahead (body : Pattern) (negated : Bool)

namespace Pattern

/-- A place in a text: the character before it and the text behind it. -/
structure Spot where
  before : Option Char
  rest : List Char

/-- Two spots of one text are the same when as much is left. -/
def Spot.same (a b : Spot) : Bool := a.rest.length == b.rest.length

def addSpot (spots : List Spot) (s : Spot) : List Spot :=
  if spots.any s.same then spots else spots ++ [s]

def unionSpots (a b : List Spot) : List Spot := b.foldl addSpot a

def isWordChar (c : Option Char) : Bool := c.any fun ch => CharSet.word.holds ch

def Spot.atWordEdge (s : Spot) : Bool := isWordChar s.before != isWordChar s.rest.head?

/-- Exactly `n` rounds of a step. -/
def rounds (step : Spot → List Spot) : Nat → List Spot → List Spot
  | 0, spots => spots
  | n + 1, spots => rounds step n (spots.foldl (fun acc s => unionSpots acc (step s)) [])

/-- All places within `n` rounds of a step from `fresh`, and those in `seen`; `fresh` holds the places
that the last round has added. -/
def closure (step : Spot → List Spot) : Nat → List Spot → List Spot → List Spot
  | 0, seen, _ => seen
  | n + 1, seen, fresh =>
    let reached := fresh.foldl (fun acc s => unionSpots acc (step s)) []
    match reached.filter fun s => !seen.any s.same with
    | [] => seen
    | new => closure step n (seen ++ new) new

/-- **`ends p s`** — where a match of `p` that begins at `s` may end. -/
def ends : Pattern → Spot → List Spot
  | .nothing, s => [s]
  | .char set, s =>
    match s.rest with
    | [] => []
    | c :: rest => if set.holds c then [⟨some c, rest⟩] else []
  | .sequence p q, s => (p.ends s).foldl (fun acc t => unionSpots acc (q.ends t)) []
  | .either p q, s => unionSpots (p.ends s) (q.ends s)
  | .repeated p least most, s =>
    let start := rounds p.ends least [s]
    match most with
    | some most => closure p.ends (most - least) start start
    | none => closure p.ends s.rest.length start start
  | .textStart, s => if s.before.isNone then [s] else []
  | .textEnd, s => if s.rest.isEmpty then [s] else []
  | .wordEdge negated, s => if s.atWordEdge != negated then [s] else []
  | .ahead p negated, s => if (p.ends s).isEmpty == negated then [s] else []

def foundFrom (p : Pattern) (before : Option Char) (rest : List Char) : Bool :=
  !(p.ends ⟨before, rest⟩).isEmpty ||
    match rest with
    | [] => false
    | c :: cs => foundFrom p (some c) cs

/-- **`isFoundIn p s`** — some part of `s` matches. -/
def isFoundIn (p : Pattern) (s : String) : Bool := p.foundFrom none s.toList

/-! ## Building patterns -/

def literal (c : Char) : Pattern := .char (.range c c)

def sequenceAll : List Pattern → Pattern
  | [] => .nothing
  | [p] => p
  | p :: rest => .sequence p (sequenceAll rest)

def star (p : Pattern) : Pattern := .repeated p 0 none

end Pattern

end PluginVet

/-
# PluginVet.Pattern.Reader — reading the written form of a pattern

Alternatives, sequences, groups, sets in brackets, repetitions, anchors and look-ahead. A written form
outside this grammar is refused.
-/
import PluginVet.Pattern.Basic

namespace PluginVet.Pattern.Reader

def hexValue? (c : Char) : Option Nat :=
  if '0' ≤ c ∧ c ≤ '9' then some (c.toNat - 48)
  else if 'a' ≤ c ∧ c ≤ 'f' then some (c.toNat - 87)
  else if 'A' ≤ c ∧ c ≤ 'F' then some (c.toNat - 55)
  else none

/-- A character given by `n` hexadecimal digits. -/
def hexChar? (n : Nat) (cs : List Char) : Option (Char × List Char) := do
  let digits := cs.take n
  if digits.length = n ∧ n ≠ 0 then
    let code ← digits.foldlM (fun v d => (hexValue? d).map (v * 16 + ·)) 0
    if code < 0xD800 ∨ (0xDFFF < code ∧ code ≤ 0x10FFFF) then some (Char.ofNat code, cs.drop n)
    else none
  else none

/-- A single character that an escape stands for. -/
def escapedChar? (cs : List Char) : Option (Char × List Char) :=
  match cs with
  | 't' :: rest => some ('\t', rest)
  | 'n' :: rest => some ('\n', rest)
  | 'r' :: rest => some ('\r', rest)
  | 'f' :: rest => some ('\x0c', rest)
  | 'v' :: rest => some ('\x0b', rest)
  | '0' :: rest => some ('\x00', rest)
  | 'x' :: rest => hexChar? 2 rest
  | 'u' :: '\x7b' :: rest => do
    let digits := rest.takeWhile (· != '\x7d')
    let (c, _) ← hexChar? digits.length digits
    some (c, rest.drop (digits.length + 1))
  | 'u' :: rest => hexChar? 4 rest
  | 'c' :: letter :: rest =>
    if letter.isAlpha then some (Char.ofNat (letter.toNat % 32), rest) else none
  | c :: rest => if c.isAlphanum then none else some (c, rest)
  | [] => none

/-- A class of characters that an escape stands for. -/
def escapedClass? (cs : List Char) : Option (CharSet × List Char) :=
  match cs with
  | 'd' :: rest => some (.digit, rest)
  | 'D' :: rest => some (.complement .digit, rest)
  | 'w' :: rest => some (.word, rest)
  | 'W' :: rest => some (.complement .word, rest)
  | 's' :: rest => some (.blank, rest)
  | 'S' :: rest => some (.complement .blank, rest)
  | _ => none

/-- One end of a range, or a class, inside brackets. -/
def setItem? (cs : List Char) : Option ((Char ⊕ CharSet) × List Char) :=
  match cs with
  | '\\' :: 'b' :: rest => some (.inl '\x08', rest)
  | '\\' :: rest =>
    match escapedClass? rest with
    | some (set, rest) => some (.inr set, rest)
    | none => (escapedChar? rest).map fun (c, rest) => (.inl c, rest)
  | c :: rest => some (.inl c, rest)
  | [] => none

/-- The items of a set up to its closing bracket. -/
def setItems? : Nat → List CharSet → List Char → Option (List CharSet × List Char)
  | 0, _, _ => none
  | fuel + 1, acc, cs =>
    match cs with
    | ']' :: rest => some (acc.reverse, rest)
    | _ => do
      let (item, rest) ← setItem? cs
      match item with
      | .inr set => setItems? fuel (set :: acc) rest
      | .inl first =>
        match rest with
        | '-' :: ']' :: _ => setItems? fuel (.range first first :: acc) rest
        | '-' :: more =>
          let (last, after) ← setItem? more
          match last with
          | .inl last =>
            if first ≤ last then setItems? fuel (.range first last :: acc) after else none
          | .inr set =>
            setItems? fuel (set :: .range '-' '-' :: .range first first :: acc) after
        | _ => setItems? fuel (.range first first :: acc) rest

/-- A set behind its opening bracket. -/
def set? (cs : List Char) : Option (CharSet × List Char) :=
  match cs with
  | '^' :: rest =>
    (setItems? (rest.length + 1) [] rest).map fun (items, rest) =>
      (.complement (.union items), rest)
  | _ => (setItems? (cs.length + 1) [] cs).map fun (items, rest) => (.union items, rest)

def number? (cs : List Char) : Option (Nat × List Char) :=
  let digits := cs.takeWhile Char.isDigit
  if digits.isEmpty then none
  else some (digits.foldl (fun n d => n * 10 + (d.toNat - 48)) 0, cs.drop digits.length)

/-- The bounds of a repetition behind its opening brace. -/
def bounds? (cs : List Char) : Option (Nat × Option Nat × List Char) := do
  let (least, rest) ← number? cs
  match rest with
  | '\x7d' :: rest => some (least, some least, rest)
  | ',' :: '\x7d' :: rest => some (least, none, rest)
  | ',' :: rest =>
    let (most, rest) ← number? rest
    match rest with
    | '\x7d' :: rest => if least ≤ most then some (least, some most, rest) else none
    | _ => none
  | _ => none

/-- Repetitions behind a pattern; whether they are lazy makes no difference here. -/
def repetitions? : Nat → Pattern → List Char → Option (Pattern × List Char)
  | 0, _, _ => none
  | fuel + 1, p, cs =>
    let again (least : Nat) (most : Option Nat) (rest : List Char) :=
      let rest := match rest with
        | '?' :: more => more
        | _ => rest
      repetitions? fuel (.repeated p least most) rest
    match cs with
    | '*' :: rest => again 0 none rest
    | '+' :: rest => again 1 none rest
    | '?' :: rest => again 0 (some 1) rest
    | '\x7b' :: rest => do
      let (least, most, rest) ← bounds? rest
      again least most rest
    | _ => some (p, cs)

/-- What the opening of a group says about it. -/
inductive Opening where
  | group
  | ahead (negated : Bool)

def opening? (cs : List Char) : Option (Opening × List Char) :=
  match cs with
  | '?' :: ':' :: rest => some (.group, rest)
  | '?' :: '=' :: rest => some (.ahead false, rest)
  | '?' :: '!' :: rest => some (.ahead true, rest)
  | '?' :: '<' :: rest =>
    let name := rest.takeWhile fun c => c.isAlphanum || c = '_'
    match rest.drop name.length with
    | '>' :: more => if name.isEmpty then none else some (.group, more)
    | _ => none
  | '?' :: _ => none
  | _ => some (.group, cs)

mutual

/-- Alternatives up to a closing parenthesis or the end. -/
def alternatives? (fuel : Nat) (cs : List Char) : Option (Pattern × List Char) :=
  match fuel with
  | 0 => none
  | fuel + 1 => do
    let (p, rest) ← items? fuel [] cs
    match rest with
    | '|' :: more =>
      let (q, rest) ← alternatives? fuel more
      some (.either p q, rest)
    | _ => some (p, rest)

/-- A sequence of repeated atoms. -/
def items? (fuel : Nat) (acc : List Pattern) (cs : List Char) : Option (Pattern × List Char) :=
  match fuel with
  | 0 => none
  | fuel + 1 =>
    match cs with
    | [] => some (sequenceAll acc.reverse, cs)
    | '|' :: _ => some (sequenceAll acc.reverse, cs)
    | ')' :: _ => some (sequenceAll acc.reverse, cs)
    | _ => do
      let (p, rest) ← atom? fuel cs
      let (p, rest) ← repetitions? (rest.length + 1) p rest
      items? fuel (p :: acc) rest

def atom? (fuel : Nat) (cs : List Char) : Option (Pattern × List Char) :=
  match fuel with
  | 0 => none
  | fuel + 1 =>
    match cs with
    | '(' :: rest => do
      let (opening, rest) ← opening? rest
      let (p, rest) ← alternatives? fuel rest
      match rest with
      | ')' :: rest =>
        match opening with
        | .group => some (p, rest)
        | .ahead negated => some (.ahead p negated, rest)
      | _ => none
    | '[' :: rest => (set? rest).map fun (set, rest) => (.char set, rest)
    | '.' :: rest => some (.char (.complement (.range '\n' '\n')), rest)
    | '^' :: rest => some (.textStart, rest)
    | '$' :: rest => some (.textEnd, rest)
    | '\\' :: 'b' :: rest => some (.wordEdge false, rest)
    | '\\' :: 'B' :: rest => some (.wordEdge true, rest)
    | '\\' :: rest =>
      match escapedClass? rest with
      | some (set, rest) => some (.char set, rest)
      | none => (escapedChar? rest).map fun (c, rest) => (literal c, rest)
    | c :: rest =>
      if c = '*' || c = '+' || c = '?' || c = '\x7b' then none else some (literal c, rest)
    | [] => none

end

end Reader

/-- **`read? s`** — the pattern with the written form `s`. -/
def read? (s : String) : Option Pattern :=
  let cs := s.toList
  match Reader.alternatives? (4 * cs.length + 4) cs with
  | some (p, []) => some p
  | _ => none

end PluginVet.Pattern

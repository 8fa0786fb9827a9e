/-
# PluginVet.Text.Quoted — text in double quotes

Messages show a text between double quotes, with escapes for quotes, backslashes and line breaks, and
characters without a shape of their own by their code. `QuoteStyle` says whether apostrophes are escaped,
which is so for paths.
-/
import PluginVet.Text.Unprintable

namespace PluginVet.Text

structure QuoteStyle where
  escapesApostrophe : Bool

/-- How a value is shown. -/
def QuoteStyle.value : QuoteStyle := ⟨false⟩

/-- How a path is shown. -/
def QuoteStyle.path : QuoteStyle := ⟨true⟩

def codeEscape (c : Char) : List Char :=
  ['\\', 'u', '{'] ++ Nat.toDigits 16 c.toNat ++ ['}']

def QuoteStyle.escape (style : QuoteStyle) (c : Char) : List Char :=
  if c = '\x00' then ['\\', '0']
  else if c = '\t' then ['\\', 't']
  else if c = '\r' then ['\\', 'r']
  else if c = '\n' then ['\\', 'n']
  else if c = '"' then ['\\', '"']
  else if c = '\\' then ['\\', '\\']
  else if c = '\'' && style.escapesApostrophe then ['\\', '\'']
  else if ' ' ≤ c && c ≤ '~' then [c]
  else if isUnprintable c then codeEscape c
  else [c]

def quote (style : QuoteStyle) (s : String) : String :=
  String.ofList ('"' :: s.toList.flatMap style.escape ++ ['"'])

/-- A text inside a message. -/
def quoteValue (s : String) : String := quote .value s

/-- A path inside a message. -/
def quotePath (s : String) : String := quote .path s

end PluginVet.Text

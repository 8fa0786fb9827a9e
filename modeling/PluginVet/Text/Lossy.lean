/-
# PluginVet.Text.Lossy — text from bytes that may be no text

Bytes are read as UTF-8. Where they cannot be, the longest piece that a character could have begun with
becomes one replacement character, and a byte that no character begins with becomes one too.
-/

namespace PluginVet.Text

def replacement : Char := '\uFFFD'

/-- The number of bytes behind a first byte, and the range of the second byte. -/
def sequenceShape? (b : Nat) : Option (Nat × Nat × Nat) :=
  if 0xC2 ≤ b && b ≤ 0xDF then some (1, 0x80, 0xBF)
  else if b = 0xE0 then some (2, 0xA0, 0xBF)
  else if b = 0xED then some (2, 0x80, 0x9F)
  else if 0xE1 ≤ b && b ≤ 0xEF then some (2, 0x80, 0xBF)
  else if b = 0xF0 then some (3, 0x90, 0xBF)
  else if 0xF1 ≤ b && b ≤ 0xF3 then some (3, 0x80, 0xBF)
  else if b = 0xF4 then some (3, 0x80, 0x8F)
  else none

/-- Up to `n` bytes that go on with a character, the first of them within the given range. -/
def continuation : Nat → Nat → Nat → List UInt8 → List UInt8
  | n + 1, low, high, b :: rest =>
    if low ≤ b.toNat && b.toNat ≤ high then b :: continuation n 0x80 0xBF rest else []
  | _, _, _, _ => []

/-- The code point that a first byte and those behind it stand for. -/
def codePoint (first : Nat) (more : List UInt8) : Nat :=
  let lead := if more.length = 1 then first % 32 else if more.length = 2 then first % 16 else first % 8
  more.foldl (fun n b => n * 64 + b.toNat % 64) lead

/-- The characters of a list of bytes. The fuel is their number. -/
def lossyChars : Nat → List UInt8 → List Char
  | 0, _ => []
  | _ + 1, [] => []
  | fuel + 1, b :: rest =>
    if b.toNat < 0x80 then Char.ofNat b.toNat :: lossyChars fuel rest
    else match sequenceShape? b.toNat with
      | none => replacement :: lossyChars fuel rest
      | some (count, low, high) =>
        let more := continuation count low high rest
        let c := if more.length = count then Char.ofNat (codePoint b.toNat more) else replacement
        c :: lossyChars fuel (rest.drop more.length)

/-- **`decodeLossy`** — the text of bytes. -/
def decodeLossy (bytes : ByteArray) : String :=
  match String.fromUTF8? bytes with
  | some s => s
  | none => String.ofList (lossyChars bytes.size bytes.toList)

end PluginVet.Text

/-!
# Reading bytes as text

Bytes are read as UTF-8. Where they are not, each longest part that could begin a character, and
each byte that could not, is read as the replacement character.

* `leadClass` gives, for a first byte, how many more bytes follow and the range of the next one;
* `decode` reads a list of bytes, `decodeStrict?` refuses what is not UTF-8.
-/

namespace Converge.Text

/-- What may follow a first byte: the number of bytes to come and the range of the next one. -/
structure Lead where
  more : Nat
  lo : Nat
  hi : Nat
  bits : Nat

/-- The class of a first byte; nothing for a byte that begins no character of several bytes. -/
def leadClass (b : Nat) : Option Lead :=
  if 0xC2 ≤ b ∧ b ≤ 0xDF then some ⟨1, 0x80, 0xBF, b - 0xC0⟩
  else if b = 0xE0 then some ⟨2, 0xA0, 0xBF, 0⟩
  else if b = 0xED then some ⟨2, 0x80, 0x9F, b - 0xE0⟩
  else if 0xE1 ≤ b ∧ b ≤ 0xEF then some ⟨2, 0x80, 0xBF, b - 0xE0⟩
  else if b = 0xF0 then some ⟨3, 0x90, 0xBF, 0⟩
  else if 0xF1 ≤ b ∧ b ≤ 0xF3 then some ⟨3, 0x80, 0xBF, b - 0xF0⟩
  else if b = 0xF4 then some ⟨3, 0x80, 0x8F, 4⟩
  else none

/-- The state between two bytes: at a boundary, or inside a character. -/
inductive Pending where
  | boundary
  | inside (lead : Lead)

/-- The character that stands for bytes that are no text. -/
def replacement : Char := '\uFFFD'

/-- One byte at a boundary: the characters it completes, newest first, and the state after it. -/
def stepBoundary (b : Nat) : List (Option Char) × Pending :=
  if b < 0x80 then ([some (Char.ofNat b)], .boundary)
  else
    match leadClass b with
    | some l => ([], .inside l)
    | none => ([none], .boundary)

/-- One byte: the characters it completes, newest first (`none` for a part that is no text), and
    the state after it. -/
def stepByte (p : Pending) (b : Nat) : List (Option Char) × Pending :=
  match p with
  | .boundary => stepBoundary b
  | .inside l =>
    if l.lo ≤ b ∧ b ≤ l.hi then
      let bits := l.bits * 64 + (b - 0x80)
      if l.more ≤ 1 then ([some (Char.ofNat bits)], .boundary)
      else ([], .inside ⟨l.more - 1, 0x80, 0xBF, bits⟩)
    else
      let (out, p') := stepBoundary b
      (out ++ [none], p')

/-- The characters of a list of bytes in order; `none` for each part that is no text. -/
def decodeParts (bytes : List UInt8) : List (Option Char) :=
  let (out, p) := bytes.foldl
    (fun (acc : List (Option Char) × Pending) b =>
      let (new, p) := stepByte acc.2 b.toNat
      (new ++ acc.1, p))
    ([], .boundary)
  match p with
  | .boundary => out.reverse
  | .inside _ => (none :: out).reverse

/-- **Reads bytes as text**, with the replacement character where they are none. -/
def decode (bytes : List UInt8) : String :=
  String.ofList ((decodeParts bytes).map fun c => c.getD replacement)

/-- Reads bytes as text, if they are text. -/
def decodeStrict? (bytes : List UInt8) : Option String :=
  ((decodeParts bytes).mapM id).map String.ofList

/-- The bytes of a text. -/
def encode (s : String) : List UInt8 := s.toUTF8.toList

end Converge.Text

/-!
# UTF-8

* `leadByte?` — what the first byte of a character announces;
* `decodeUtf8?` — the characters of a byte string.

Only the shortest form of a character is read, and no surrogate.
-/

namespace KeysetQuery.Text

/-! ### Bytes of a character -/

/-- A character of which bytes are still to come: how many, between which bounds the next one lies,
and the value so far. -/
structure PendingChar where
  owed : Nat
  low : Nat
  high : Nat
  value : Nat
deriving DecidableEq, Inhabited

/-- What the first byte of a character announces.  The bounds of the second byte leave out longer
forms than needed, surrogates, and what lies beyond the last character. -/
def leadByte? (b : Nat) : Option PendingChar :=
  if b ≤ 0x7f then some ⟨0, 0x80, 0xbf, b⟩
  else if b < 0xc2 then none
  else if b ≤ 0xdf then some ⟨1, 0x80, 0xbf, b - 0xc0⟩
  else if b = 0xe0 then some ⟨2, 0xa0, 0xbf, 0⟩
  else if b = 0xed then some ⟨2, 0x80, 0x9f, b - 0xe0⟩
  else if b ≤ 0xef then some ⟨2, 0x80, 0xbf, b - 0xe0⟩
  else if b = 0xf0 then some ⟨3, 0x90, 0xbf, 0⟩
  else if b ≤ 0xf3 then some ⟨3, 0x80, 0xbf, b - 0xf0⟩
  else if b = 0xf4 then some ⟨3, 0x80, 0x8f, b - 0xf0⟩
  else none

/-- The character so far with another byte, if that byte may come next. -/
def PendingChar.next? (p : PendingChar) (b : Nat) : Option PendingChar :=
  if p.low ≤ b && b ≤ p.high then
    some ⟨p.owed - 1, 0x80, 0xbf, 64 * p.value + (b - 0x80)⟩
  else none

/-! ### Byte strings -/

/-- The characters of bytes, the first of which continue a character if there is one. -/
def decodeFrom : Option PendingChar → List UInt8 → Option (List Char)
  | none, [] => some []
  | some _, [] => none
  | pending, b :: bs =>
    let read := match pending with
      | none => leadByte? b.toNat
      | some p => p.next? b.toNat
    match read with
    | none => none
    | some p =>
      if p.owed = 0 then (decodeFrom none bs).map (Char.ofNat p.value :: ·)
      else decodeFrom (some p) bs

def decodeUtf8? (bs : List UInt8) : Option String := (decodeFrom none bs).map String.ofList

end KeysetQuery.Text

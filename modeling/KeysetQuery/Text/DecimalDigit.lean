/-!
# Decimal digits of every script

A decimal digit is a character of the Unicode category `Nd`.  The digits of a script stand
together in the order of their values, so a table of the zeros describes them all.

* `zeros` lists the code points of the digits zero;
* `digitValue?` is the value of a digit, if the character is one;
* `asciiDigit?` is its restriction to the digits `0` to `9`.
-/

namespace KeysetQuery.Text

/-- The code points of the digits zero (Unicode 14, category `Nd`). -/
def zeros : List Nat :=
  [0x30, 0x660, 0x6f0, 0x7c0, 0x966, 0x9e6, 0xa66, 0xae6, 0xb66, 0xbe6, 0xc66, 0xce6, 0xd66,
    0xde6, 0xe50, 0xed0, 0xf20, 0x1040, 0x1090, 0x17e0, 0x1810, 0x1946, 0x19d0, 0x1a80, 0x1a90,
    0x1b50, 0x1bb0, 0x1c40, 0x1c50, 0xa620, 0xa8d0, 0xa900, 0xa9d0, 0xa9f0, 0xaa50, 0xabf0,
    0xff10, 0x104a0, 0x10d30, 0x11066, 0x110f0, 0x11136, 0x111d0, 0x112f0, 0x11450, 0x114d0,
    0x11650, 0x116c0, 0x11730, 0x118e0, 0x11950, 0x11c50, 0x11d50, 0x11da0, 0x16a60, 0x16ac0,
    0x16b50, 0x1d7ce, 0x1d7d8, 0x1d7e2, 0x1d7ec, 0x1d7f6, 0x1e140, 0x1e2f0, 0x1e950, 0x1fbf0]

def digitValue? (c : Char) : Option Nat :=
  (zeros.find? fun z => z ≤ c.toNat && c.toNat ≤ z + 9).map (c.toNat - ·)

/-- The value of one of the digits `0` to `9`. -/
def asciiDigit? (c : Char) : Option Nat :=
  if c.isDigit then some (c.toNat - '0'.toNat) else none

/-- The digits `0` to `9` keep their value among the digits of all scripts. -/
theorem digitValue?_of_asciiDigit? {c : Char} {d : Nat} (h : asciiDigit? c = some d) :
    digitValue? c = some d := by
  simp only [asciiDigit?] at h
  split at h
  · rename_i hc
    have hb : 48 ≤ c.toNat ∧ c.toNat ≤ 57 := by
      simp only [Char.isDigit, ge_iff_le, Bool.and_eq_true, decide_eq_true_eq] at hc
      exact ⟨UInt32.le_iff_toNat_le.1 hc.1, UInt32.le_iff_toNat_le.1 hc.2⟩
    have h0 : '0'.toNat = 48 := rfl
    simp only [Option.some.injEq, h0] at h
    simp [digitValue?, zeros, hb.1, hb.2, h]
  · simp at h

/-- The number written by a sequence of digit values, most significant first. -/
def ofDigits (ds : List Nat) : Nat :=
  ds.foldl (fun n d => 10 * n + d) 0

end KeysetQuery.Text

/-!
# Blank characters

* `isSpace` holds of the characters with the Unicode property `White_Space`;
* `isBlank` adds the four information separators U+001C to U+001F, which only divide text;
* `trim` removes the characters of a class from both ends of a text.
-/

namespace KeysetQuery.Text

/-! ### Classes -/

/-- The characters with the Unicode property `White_Space`. -/
def isSpace (c : Char) : Bool :=
  let n := c.toNat
  (0x09 ≤ n && n ≤ 0x0d) || n == 0x20 || n == 0x85 || n == 0xa0 || n == 0x1680
    || (0x2000 ≤ n && n ≤ 0x200a) || n == 0x2028 || n == 0x2029 || n == 0x202f
    || n == 0x205f || n == 0x3000

/-- A blank is white space or an information separator. -/
def isBlank (c : Char) : Bool :=
  isSpace c || (0x1c ≤ c.toNat && c.toNat ≤ 0x1f)

/-! ### Trimming -/

/-- A text without the leading and trailing characters of a class. -/
def trim (p : Char → Bool) (cs : List Char) : List Char :=
  ((cs.dropWhile p).reverse.dropWhile p).reverse

@[simp] theorem trim_nil (p : Char → Bool) : trim p [] = [] := rfl

end KeysetQuery.Text

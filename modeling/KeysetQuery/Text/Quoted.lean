import KeysetQuery.Text.Printable

/-!
# Quoted texts

A message that shows a text it cannot vouch for shows it quoted.

* `quoteFor` chooses the quote: the single one, unless the text holds it and not the double one;
* `escape` writes one character between the quotes;
* `quoted` writes the whole text.
-/

namespace KeysetQuery.Text

def singleQuote : Char := Char.ofNat 0x27

def doubleQuote : Char := Char.ofNat 0x22

def backslash : Char := Char.ofNat 0x5c

/-! ### Numbers in escapes -/

/-- The last `width` hexadecimal digits of a number, in lower case. -/
def hexDigits : Nat → Nat → List Char
  | 0, _ => []
  | width + 1, n => hexDigits width (n / 16) ++ [Nat.digitChar (n % 16)]

/-! ### Quoting -/

def quoteFor (cs : List Char) : Char :=
  if cs.contains singleQuote && !cs.contains doubleQuote then doubleQuote else singleQuote

/-- A character between quotes: the quote, the backslash and the line breaks are escaped, and so
is every character that is not printable, by its code point. -/
def escape (quote c : Char) : List Char :=
  if c = quote || c = backslash then [backslash, c]
  else if c = '\n' then [backslash, 'n']
  else if c = '\r' then [backslash, 'r']
  else if c = '\t' then [backslash, 't']
  else if isPrintable c then [c]
  else if c.toNat < 0x100 then backslash :: 'x' :: hexDigits 2 c.toNat
  else if c.toNat < 0x10000 then backslash :: 'u' :: hexDigits 4 c.toNat
  else backslash :: 'U' :: hexDigits 8 c.toNat

/-- A text between quotes. -/
def quoted (s : String) : String :=
  let q := quoteFor s.toList
  String.ofList (q :: s.toList.flatMap (escape q) ++ [q])

end KeysetQuery.Text

import KeysetQuery.Text.Quoted
import KeysetQuery.Value.Basic

/-!
# Texts of values

* `Value.quoted` — a value as it is shown inside another one: texts between quotes;
* `Value.text` — a value put into a text: a text stands as it is, everything else as above.
-/

namespace KeysetQuery

open Number Text

namespace Value

/-- The two characters around the entries of a map and the members of a set. -/
def braces (s : String) : String := "\x7b" ++ s ++ "\x7d"

def escapeByte (quote : Char) (b : UInt8) : List Char :=
  let c := Char.ofNat b.toNat
  if c = quote || c = backslash then [backslash, c]
  else if c = '\n' then [backslash, 'n']
  else if c = '\r' then [backslash, 'r']
  else if c = '\t' then [backslash, 't']
  else if 0x20 ≤ b.toNat && b.toNat < 0x7f then [c]
  else backslash :: 'x' :: hexDigits 2 b.toNat

def quotedBytes (bs : List UInt8) : String :=
  let q := quoteFor (bs.map fun b => Char.ofNat b.toNat)
  String.ofList ('b' :: q :: bs.flatMap (escapeByte q) ++ [q])

/-- The texts of the items of a tuple; a lone item is followed by a comma. -/
def joinTuple : List String → String
  | [s] => "(" ++ s ++ ",)"
  | ss => "(" ++ ", ".intercalate ss ++ ")"

def joinSet : List String → String
  | [] => "set()"
  | ss => braces (", ".intercalate ss)

mutual

def quoted : Value → String
  | null => "None"
  | missing => "MISSING"
  | bool b => if b then "True" else "False"
  | int i => toString i
  | float x => floatText x
  | decimal d => "Decimal('" ++ d.text ++ "')"
  | str s => Text.quoted s
  | bytes bs => quotedBytes bs
  | binary bs => "Binary(" ++ quotedBytes bs ++ ")"
  | list vs => "[" ++ ", ".intercalate (quotedItems vs) ++ "]"
  | tuple vs => joinTuple (quotedItems vs)
  | set vs => joinSet (quotedItems vs)
  | map es => braces (", ".intercalate (quotedEntries es))
termination_by structural v => v

/-- The items of a sequence, each as it is shown inside it. -/
def quotedItems : List Value → List String
  | [] => []
  | v :: vs => quoted v :: quotedItems vs
termination_by structural vs => vs

/-- An entry of a map, key before value. -/
def quotedEntry : Value × Value → String
  | (k, v) => quoted k ++ ": " ++ quoted v
termination_by structural e => e

/-- The entries of a map, each as it is shown inside it. -/
def quotedEntries : List (Value × Value) → List String
  | [] => []
  | e :: es => quotedEntry e :: quotedEntries es
termination_by structural es => es

end

def text : Value → String
  | str s => s
  | decimal d => d.text
  | v => v.quoted

@[simp] theorem text_str (s : String) : text (str s) = s := rfl

end Value

end KeysetQuery

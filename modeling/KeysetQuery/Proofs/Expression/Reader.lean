import KeysetQuery.Proofs.Expression.Formula

/-!
# Reading expressions

The grammar of expressions, as a reader that takes pieces from the front of a text.  Parentheses
group.  `NOT` applies to the comparison, membership, range or function call that follows it, or to
another `NOT`.  `AND` and `OR` join terms in parentheses, and one join uses one of the two.

* `Reader.literal`, `Reader.word`, `Reader.marked`, `Reader.separated` — the small pieces;
* `Reader.test`, `Reader.clause`, `Reader.term`, `Reader.joined` — the grammar, level by level;
* `Formula.read` — the formula that a whole text is, the empty text asking for nothing.
-/

namespace KeysetQuery

/-- A reader takes a piece from the front of a text and leaves the rest. -/
abbrev Reader (α : Type) := List Char → Option (α × List Char)

namespace Reader

/-! ### Pieces -/

/-- What is left behind a fixed piece. -/
def literal (s : String) (cs : List Char) : Option (List Char) := s.toList.isPrefixOf? cs

/-- The characters of words. -/
def isWordChar (c : Char) : Bool := c.isAlphanum || c == '_'

/-- A word, as long as it goes. -/
def word : Reader String := fun cs =>
  let w := cs.takeWhile isWordChar
  if w.isEmpty then none else some (String.ofList w, cs.dropWhile isWordChar)

/-- A word behind a mark. -/
def marked (mark : Char) : Reader String
  | [] => none
  | c :: cs => if c = mark then word cs else none

/-- At most a given number of items with a separator between them. -/
def separatedUpTo {α : Type} (item : Reader α) (separator : String) : Nat → Reader (List α)
  | 0, _ => none
  | n + 1, cs => do
    let (a, rest) ← item cs
    match literal separator rest with
    | none => some ([a], rest)
    | some rest => do
      let (as, rest) ← separatedUpTo item separator n rest
      some (a :: as, rest)

/-- Items with a separator between them, one at least. -/
def separated {α : Type} (item : Reader α) (separator : String) : Reader (List α) := fun cs =>
  separatedUpTo item separator (cs.length + 1) cs

/-- A path, in aliases. -/
def path : Reader (List String) := separated (marked '#') "."

/-- A list of placeholders. -/
def listed : Reader (List String) := separated (marked ':') ", "

/-! ### Tests -/

/-- A sign of comparison between blanks. -/
def sign : Reader Comparison := fun cs =>
  [Comparison.equal, .less, .greater, .atMost, .atLeast].findSome? fun c =>
    (literal (" " ++ c.sign ++ " ") cs).map fun rest => (c, rest)

/-- What is asked of a path, behind it. -/
def relation (p : List String) : Reader Formula := fun cs =>
  match sign cs with
  | some (c, rest) => do
    let (v, rest) ← marked ':' rest
    some (.test (.compare c) p [v], rest)
  | none =>
    match literal " IN (" cs with
    | some rest => do
      let (vs, rest) ← listed rest
      let rest ← literal ")" rest
      some (.test .oneOf p vs, rest)
    | none => do
      let rest ← literal " BETWEEN " cs
      let (low, rest) ← marked ':' rest
      let rest ← literal " AND " rest
      let (high, rest) ← marked ':' rest
      some (.test .between p [low, high], rest)

/-- The name of a test and the parenthesis behind it. -/
def functionName : Reader Function := fun cs =>
  [Function.contains, .beginsWith, .attributeExists, .attributeNotExists].findSome? fun f =>
    (literal (f.name ++ "(") cs).map fun rest => (f, rest)

/-- The operand of a test by name, if it has one. -/
def operands : Reader (List String) := fun cs =>
  match literal ", " cs with
  | none => some ([], cs)
  | some rest => do
    let (v, rest) ← marked ':' rest
    some ([v], rest)

/-- A test by name. -/
def call : Reader Formula := fun cs => do
  let (f, rest) ← functionName cs
  let (p, rest) ← path rest
  let (vs, rest) ← operands rest
  let rest ← literal ")" rest
  some (.test (.call f) p vs, rest)

/-- A primitive test. -/
def test : Reader Formula := fun cs =>
  match path cs with
  | some (p, rest) => relation p rest
  | none => call cs

/-! ### Negations and joins -/

/-- A test behind at most a given number of negations. -/
def negations : Nat → Reader Formula
  | 0, _ => none
  | n + 1, cs =>
    match literal "NOT " cs with
    | some rest => (negations n rest).map fun r => (.negated r.1, r.2)
    | none => test cs

/-- A test, perhaps negated. -/
def clause : Reader Formula := fun cs => negations (cs.length + 1) cs

/-- A term: a clause or a join, in parentheses. -/
def term (join : Reader Formula) : Reader Formula := fun cs => do
  let rest ← literal "(" cs
  let (f, rest) ← if rest.head? = some '(' then join rest else clause rest
  let rest ← literal ")" rest
  some (f, rest)

/-- A join of terms by one of the two conjunctions; a term alone is one too. -/
def joined (join : Reader Formula) : Reader Formula := fun cs =>
  match separated (term join) " AND " cs with
  | some (f :: g :: fs, rest) => some ((g :: fs).foldl .both f, rest)
  | _ => do
    let (fs, rest) ← separated (term join) " OR " cs
    match fs with
    | [] => none
    | f :: fs => some (fs.foldl .either f, rest)

/-- A join with parentheses of at most a given depth. -/
def nested : Nat → Reader Formula
  | 0 => fun _ => none
  | n + 1 => joined (nested n)

end Reader

/-- The formula that a text is.  The empty text asks for nothing. -/
def Formula.read (s : String) : Option Formula :=
  if s = "" then some .always
  else
    match Reader.nested (s.length + 1) s.toList with
    | some (f, []) => some f
    | _ => none

end KeysetQuery

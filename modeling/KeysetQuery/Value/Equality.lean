import KeysetQuery.Value.Basic

/-!
# Equality of values

Two values are the same when they denote the same thing, whatever form they have.

* `Value.number?` — the number that a value denotes: integers, floating-point numbers and
  decimals do, and so do the truth values, as zero and one;
* `Value.same` — equality: numbers by what they denote, sequences item by item, sets and maps
  whatever their order;
* `Value.signals` — whether a comparison is refused for the sake of a number that signals;
* `Value.same_str_iff` — on texts this is plain equality;
* `Value.distinct` — a list without repetitions.
-/

namespace KeysetQuery

open Number

namespace Value

def number? : Value → Option Decimal
  | bool b => some (.ofInt (if b then 1 else 0))
  | int i => some (.ofInt i)
  | float x => some (exactDecimal x)
  | decimal d => some d
  | _ => none

def sameNumber (v w : Value) : Bool :=
  match v.number?, w.number? with
  | some d, some d' => d.sameValue d'
  | _, _ => false

mutual

def same : Value → Value → Bool
  | null, w => w.isNull
  | missing, w => w.isMissing
  | bool b, w =>
    match w with
    | bool b' => b == b'
    | w => sameNumber (bool b) w
  | int i, w =>
    match w with
    | int j => i == j
    | w => sameNumber (int i) w
  | float x, w => sameNumber (float x) w
  | decimal d, w => sameNumber (decimal d) w
  | str s, w =>
    match w with
    | str s' => s == s'
    | _ => false
  | bytes bs, w =>
    match w with
    | bytes bs' => bs == bs'
    | binary bs' => bs == bs'
    | _ => false
  | binary bs, w =>
    match w with
    | bytes bs' => bs == bs'
    | binary bs' => bs == bs'
    | _ => false
  | list vs, w =>
    match w with
    | list ws => sameItems vs ws
    | _ => false
  | tuple vs, w =>
    match w with
    | tuple ws => sameItems vs ws
    | _ => false
  | set vs, w =>
    match w with
    | set ws => vs.length == ws.length && membersIn vs ws
    | _ => false
  | map es, w =>
    match w with
    | map fs => es.length == fs.length && entriesIn es fs
    | _ => false
termination_by structural v => v

/-- Whether two lists hold the same values in the same order. -/
def sameItems : List Value → List Value → Bool
  | [], ws => ws.isEmpty
  | v :: vs, ws =>
    match ws with
    | [] => false
    | w :: ws => same v w && sameItems vs ws
termination_by structural vs => vs

/-- Whether every value of a list is among others. -/
def membersIn : List Value → List Value → Bool
  | [], _ => true
  | v :: vs, ws => (ws.any fun w => same v w) && membersIn vs ws
termination_by structural vs => vs

/-- Whether two entries have the same key and the same value. -/
def sameEntry : Value × Value → Value × Value → Bool
  | (k, v), f => same k f.1 && same v f.2
termination_by structural e => e

/-- Whether every entry of a map is among others. -/
def entriesIn : List (Value × Value) → List (Value × Value) → Bool
  | [], _ => true
  | e :: es, fs => (fs.any fun f => sameEntry e f) && entriesIn es fs
termination_by structural es => es

end

/-! ### Comparisons that are refused -/

def isSignalling : Value → Bool
  | decimal d => d.isSignalling
  | _ => false

mutual

/-- Whether a comparison of two values comes upon a number that signals, beside another number. -/
def signals : Value → Value → Bool
  | decimal d, w => (d.isSignalling && w.number?.isSome) || w.isSignalling
  | bool _, w => w.isSignalling
  | int _, w => w.isSignalling
  | float _, w => w.isSignalling
  | tuple vs, w =>
    match w with
    | tuple ws => itemsSignal vs ws
    | _ => false
  | _, _ => false
termination_by structural v => v

/-- Whether a comparison of two sequences, item by item up to the first difference, comes upon a
number that signals. -/
def itemsSignal : List Value → List Value → Bool
  | [], _ => false
  | v :: vs, ws =>
    match ws with
    | [] => false
    | w :: ws => signals v w || (same v w && itemsSignal vs ws)
termination_by structural vs => vs

end

@[simp] theorem signals_str (v : Value) (s : String) : signals v (str s) = false := by
  cases v <;> simp [signals, isSignalling, number?]

@[simp] theorem str_signals (s : String) (v : Value) : signals (str s) v = false := rfl

@[simp] theorem null_signals (v : Value) : signals null v = false := rfl

/-! ### Texts and truth values -/

/-- A text is the same as itself and as nothing else. -/
theorem same_str_iff {s : String} {v : Value} : same (str s) v = true ↔ v = str s := by
  cases v with
  | str t => simp only [same, beq_iff_eq, str.injEq]; exact eq_comm
  | _ => simp [same]

/-- Only a text is the same as a text. -/
theorem same_iff_eq_str {s : String} {v : Value} : same v (str s) = true ↔ v = str s := by
  cases v <;> simp [same, sameNumber, number?, isNull, isMissing]

@[simp] theorem same_str_str (s t : String) : same (str s) (str t) = (s == t) := rfl

@[simp] theorem same_int_int (i j : Int) : same (int i) (int j) = (i == j) := rfl

@[simp] theorem same_null (v : Value) : same null v = v.isNull := rfl

/-- The values of a list without those that are the same as an earlier one. -/
def distinct (vs : List Value) : List Value :=
  vs.foldl (fun seen v => if seen.any fun w => same w v then seen else seen ++ [v]) []

def isText (s : String) (v : Value) : Bool := same v (str s)

theorem isText_iff {s : String} {v : Value} : isText s v = true ↔ v = str s := same_iff_eq_str

@[simp] theorem isText_str (s t : String) : isText s (str t) = (t == s) := rfl

end Value

end KeysetQuery

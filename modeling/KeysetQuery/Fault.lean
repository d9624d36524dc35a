import KeysetQuery.Number.DecimalSum
import KeysetQuery.Value.Entries
import KeysetQuery.Value.Printer

/-!
# Faults

Everything that can go wrong, by cause; the wording of each is in one function beside it.

* `Invalid` — a request that cannot be compiled; nothing was sent to the store;
* `Misuse` — a value is used in a way its kind does not allow;
* `ArithmeticFault` — a calculation has no result;
* `Issue` — one field of a schema does not have the form it should have;
* `RemoteFault` — what goes wrong on the way to the store or inside it;
* `Fault` — all of them, and the failed requests that carry one of them as their cause;
* `Fault.message` — the wording;
* `eachOk` — a function that may fail, applied along a list.
-/

namespace KeysetQuery

open Number

/-! ### Schema issues -/

/-- A step on the way to the part of a value that has an issue. -/
inductive Place where
  | name (s : String)
  | index (i : Int)
deriving DecidableEq, Inhabited

/-- What is wrong with a part of a value. -/
inductive IssueKind where
  | mapExpected | listExpected | textExpected | integerExpected | truthExpected
  | integerUnreadable | integerTooLarge | fractionLost | notFinite | notPositive
  | truthUnreadable | notTheLiteral | unknownField | unknownKey | textUnreadable | recordExpected
deriving DecidableEq, Inhabited

def IssueKind.code : IssueKind → String
  | mapExpected => "dict_type"
  | listExpected => "list_type"
  | textExpected => "string_type"
  | integerExpected => "int_type"
  | truthExpected => "bool_type"
  | integerUnreadable => "int_parsing"
  | integerTooLarge => "int_parsing_size"
  | fractionLost => "int_from_float"
  | notFinite => "finite_number"
  | notPositive => "greater_than"
  | truthUnreadable => "bool_parsing"
  | notTheLiteral => "literal_error"
  | unknownField => "extra_forbidden"
  | unknownKey => "invalid_key"
  | textUnreadable => "string_unicode"
  | recordExpected => "model_type"

/-- One issue and where it is. -/
structure Issue where
  place : List Place
  kind : IssueKind
deriving DecidableEq, Inhabited

/-! ### Requests that cannot be compiled -/

/-- Why a request cannot be compiled. -/
inductive Invalid where
  /-- An attribute has no name. -/
  | missingName
  /-- An attribute has no value. -/
  | missingValue (name : Value)
  /-- The members of a group are to be joined by an unknown conjunction. -/
  | unsupportedConjunction (conjunction : Value)
  /-- A condition has an unknown operator. -/
  | unsupportedOperator (operator : Value)
  /-- An operator on sequences has a value that is none, or too short a one. -/
  | sequenceExpected (operator : String)
  /-- The descriptor of a query does not have the form of one. -/
  | descriptor (issues : List Issue)
  /-- Any other refusal, in its own words. -/
  | refused (message : String)
deriving Inhabited

def conjunctions : List String := ["AND", "OR"]

def Invalid.message : Invalid → String
  | missingName => "Attribute is missing a name."
  | missingValue name => "Attribute \"" ++ name.text ++ "\" is missing a value."
  | unsupportedConjunction c =>
    "Unsupported group conjunction: " ++ c.text ++ ". Allowed conjunctions: "
      ++ ", ".intercalate conjunctions ++ "."
  | unsupportedOperator op => "Unsupported operator: " ++ op.text
  | sequenceExpected op => "Value must be an array when using the \"" ++ op ++ "\" operator."
  | descriptor _ => "Invalid query descriptor"
  | refused message => message

/-! ### Values used as what they are not -/

/-- A use that the kind of a value does not allow. -/
inductive Misuse where
  /-- A map has no entry at a key. -/
  | absentEntry (key : Value)
  /-- A value that is no map is asked for an entry. -/
  | notIndexed (kind : Value.Kind)
  /-- A value that has no members is gone through. -/
  | notIterable (kind : Value.Kind)
  /-- A value that has no members is asked whether it has one. -/
  | notSearchable (kind : Value.Kind)
  /-- A value that is no map is copied as one. -/
  | notMap (kind : Value.Kind)
  /-- A value does not have an operation. -/
  | noOperation (kind : Value.Kind) (operation : String)
  /-- A value that can change is used as a key. -/
  | unfitKey (kind : Value.Kind)
  /-- A value is added to another one to which it cannot be added. -/
  | notAddable (left right : Value.Kind)
  /-- A value is appended to one of another kind. -/
  | notAppended (left right : Value.Kind)
  /-- A number is compared with a value that has no place in the order of numbers. -/
  | notOrdered (kind : Value.Kind)
  /-- A value that is no integer tells how many items to drop. -/
  | notIndex (kind : Value.Kind)
  /-- A value that is no number is written as an integer. -/
  | notWhole (kind : Value.Kind)
  /-- An integer is looked up among bytes and is none. -/
  | noByte
  /-- A wrapped byte string is put into a text. -/
  | unwritable
  /-- A part of a list of pairs has no members. -/
  | notPair (index : Nat)
  /-- A part of a list of pairs has another length than two. -/
  | pairLength (index length : Nat)
  /-- The entries of a request have keys that are no texts. -/
  | textKeysExpected
  /-- An argument is not given. -/
  | absentArgument
  /-- A setting is written that can only be read. -/
  | readOnly
  /-- A connection is asked for something that it does not offer. -/
  | notOffered
deriving Inhabited

def Misuse.message : Misuse → String
  | absentEntry key => key.quoted
  | notIndexed .str => "string indices must be integers, not 'str'"
  | notIndexed .bytes => "byte indices must be integers or slices, not str"
  | notIndexed .list => "list indices must be integers or slices, not str"
  | notIndexed .tuple => "tuple indices must be integers or slices, not str"
  | notIndexed kind => "'" ++ kind.name ++ "' object is not subscriptable"
  | notIterable kind => "'" ++ kind.name ++ "' object is not iterable"
  | notSearchable .bytes => "a bytes-like object is required, not 'str'"
  | notSearchable kind => "argument of type '" ++ kind.name ++ "' is not iterable"
  | notMap kind => "'" ++ kind.name ++ "' object is not a mapping"
  | noOperation kind op => "'" ++ kind.name ++ "' object has no attribute '" ++ op ++ "'"
  | unfitKey .decimal => "Cannot hash a signaling NaN value"
  | unfitKey kind => "unhashable type: '" ++ kind.name ++ "'"
  | notAddable left right =>
    "unsupported operand type(s) for +=: '" ++ left.name ++ "' and '" ++ right.name ++ "'"
  | notAppended .bytes right => "can't concat " ++ right.name ++ " to bytes"
  | notAppended left right =>
    "can only concatenate " ++ left.name ++ " (not \"" ++ right.name ++ "\") to " ++ left.name
  | notOrdered kind =>
    "'>=' not supported between instances of 'int' and '" ++ kind.name ++ "'"
  | notIndex _ => "slice indices must be integers or None or have an __index__ method"
  | notWhole kind => "%d format: a real number is required, not " ++ kind.name
  | noByte => "byte must be in range(0, 256)"
  | unwritable => "__str__ returned non-string (type bytes)"
  | notPair i => "cannot convert dictionary update sequence element #" ++ toString i
      ++ " to a sequence"
  | pairLength i n => "dictionary update sequence element #" ++ toString i ++ " has length "
      ++ toString n ++ "; 2 is required"
  | textKeysExpected => "keywords must be strings"
  | absentArgument => "missing a required argument"
  | readOnly => "the setting cannot be changed"
  | notOffered => "the connection does not offer this"

/-! ### Calculations -/

/-- Why a calculation has no result. -/
inductive ArithmeticFault where
  /-- An operation on decimal numbers is trapped. -/
  | trapped (t : Trap)
  /-- An integer is too great for a floating-point number. -/
  | integerTooGreat
  /-- A number that is infinite has no integer. -/
  | infiniteWhole (decimal : Bool)
  /-- What is not a number has no integer. -/
  | nanWhole (decimal : Bool)
  /-- An integer has too many digits to be written. -/
  | tooManyDigits
  /-- A number is divided by zero. -/
  | zeroDivisor (whole : Bool)
deriving DecidableEq, Inhabited

def ArithmeticFault.message : ArithmeticFault → String
  | trapped t => "[<class 'decimal." ++ t.condition ++ "'>]"
  | integerTooGreat => "int too large to convert to float"
  | infiniteWhole true => "cannot convert Infinity to integer"
  | infiniteWhole false => "cannot convert float infinity to integer"
  | nanWhole true => "cannot convert NaN to integer"
  | nanWhole false => "cannot convert float NaN to integer"
  | tooManyDigits =>
    "Exceeds the limit (4300 digits) for integer string conversion; use " ++
      "sys.set_int_max_str_digits() to increase the limit"
  | zeroDivisor true => "integer modulo by zero"
  | zeroDivisor false => "float modulo"

/-! ### Stored forms -/

/-- Why sign, digits and exponent do not make a number. -/
inductive PartsFault where
  | count | sign | special | exponent | coefficient
  /-- A sign or a digit is too great to be looked at. -/
  | wordTooGreat
  /-- An exponent is too great to be looked at. -/
  | exponentTooGreat
deriving DecidableEq, Inhabited

def PartsFault.message : PartsFault → String
  | count => "argument must be a sequence of length 3"
  | sign => "sign must be an integer with the value 0 or 1"
  | special => "string argument in the third position must be 'F', 'n' or 'N'"
  | exponent => "exponent must be an integer"
  | coefficient => "coefficient must be a tuple of digits"
  | wordTooGreat => "Python int too large to convert to C long"
  | exponentTooGreat => "Python int too large to convert to C ssize_t"

/-- Why a value has no stored form, or a stored form no value. -/
inductive EncodingFault where
  /-- Binary floating-point numbers are not stored. -/
  | floatRefused
  /-- Infinity and "not a number" are not stored. -/
  | notFinite
  /-- A value of this kind is not stored. -/
  | unsupportedKind (value : Value)
  /-- A stored form is empty. -/
  | emptyForm
  /-- A stored form has an unknown type. -/
  | unknownType (name : Value)
  /-- A stored byte string is none. -/
  | bytesExpected
  /-- A stored number is none. -/
  | numberExpected (kind : Value.Kind)
  /-- A stored number is given in parts that do not make one. -/
  | parts (p : PartsFault)
deriving Inhabited

/-- The full name of the kind of a value that is not stored. -/
def className : Value → String
  | .missing => "dynamo_query.expression_compiler._Missing"
  | v => v.kind.name

def EncodingFault.message : EncodingFault → String
  | floatRefused => "Float types are not supported. Use Decimal types instead."
  | notFinite => "Infinity and NaN not supported"
  | unsupportedKind v =>
    "Unsupported type \"<class '" ++ className v ++ "'>\" for value \"" ++ v.text ++ "\""
  | emptyForm => "Value must be a nonempty dictionary whose key is a valid dynamodb type."
  | unknownType name => "Dynamodb type " ++ name.text ++ " is not supported"
  | bytesExpected =>
    "Value must be of the following types: <class 'bytearray'>, <class 'bytes'>"
  | numberExpected kind => "conversion from " ++ kind.name ++ " to Decimal is not supported"
  | parts p => p.message

/-! ### The way to the store -/

/-- What goes wrong on the way to the store or inside it. -/
inductive RemoteFault where
  /-- The store answers with an error: a record that may hold a code and a text. -/
  | rejected (response : Value) (operation : String)
  /-- The connection fails for an unknown reason. -/
  | unspecified
  /-- No connection can be made. -/
  | unreachable (url : String)
  /-- Something fails on the way, in its own words. -/
  | crashed (message : String)
  /-- Something on the way refuses an argument, in its own words. -/
  | badArgument (message : String)
deriving Inhabited

namespace RemoteFault

/-- An entry of a record, looked up by name; anything else than a record has none. -/
def part? (v : Value) (name : String) : Option Value :=
  match v with
  | .map es => Entries.field? es name
  | _ => none

/-- The entry of the error record of a response, `Unknown` if it has none. -/
def errorField (response : Value) (name : String) : Value :=
  (((part? response "Error").bind fun e => part? e name)).getD (.str "Unknown")

/-- How often a request was repeated before it was given up, where the response says so. -/
def retries (response : Value) : String :=
  match part? response "ResponseMetadata" with
  | none => ""
  | some metadata =>
    if ((part? metadata "MaxAttemptsReached").getD (.bool false)).truthy then
      match part? metadata "RetryAttempts" with
      | some n => " (reached max retries: " ++ n.text ++ ")"
      | none => ""
    else ""

def message : RemoteFault → String
  | rejected response operation =>
    "An error occurred (" ++ (errorField response "Code").text ++ ") when calling the "
      ++ operation ++ " operation" ++ retries response ++ ": "
      ++ (errorField response "Message").text
  | unspecified => "An unspecified error occurred"
  | unreachable url => "Could not connect to the endpoint URL: \"" ++ url ++ "\""
  | crashed message => message
  | badArgument message => message

end RemoteFault

/-! ### Faults -/

/-- A fault. -/
inductive Fault where
  /-- A request cannot be compiled. -/
  | invalid (reason : Invalid)
  /-- A request failed in an operation, for the sake of another fault or of itself. -/
  | failed (message operation : String) (cause : Option Fault)
  /-- A count needed more pages than allowed. -/
  | countLimit (maxPages partialCount : Value)
  | misuse (m : Misuse)
  | schema (issues : List Issue)
  /-- Placeholders are asked for with a mark that is neither of the two. -/
  | unknownMark (mark : Value)
  | loss (l : Loss)
  | encoding (e : EncodingFault)
  | arithmetic (a : ArithmeticFault)
  | remote (r : RemoteFault)
  /-- The work was given up from outside. -/
  | cancelled
deriving Inhabited

namespace Fault

def message : Fault → String
  | invalid reason => reason.message
  | failed message _ _ => message
  | countLimit maxPages partialCount =>
    "Total count aggregation stopped after " ++ maxPages.text ++ " pages (counted "
      ++ partialCount.text ++ " so far)."
  | misuse m => m.message
  | schema _ => ""
  | unknownMark mark =>
    "Unsupported substitution character " ++ mark.quoted ++ "; use '#' or ':'"
  | loss l =>
    "[" ++ ", ".intercalate (l.conditions.map fun c => "<class 'decimal." ++ c ++ "'>") ++ "]"
  | encoding e => e.message
  | arithmetic a => a.message
  | remote r => r.message
  | cancelled => ""

def isInvalid : Fault → Bool
  | invalid _ => true
  | _ => false

def isFailure : Fault → Bool
  | failed _ _ _ => true
  | countLimit _ _ => true
  | _ => false

/-- Whether a fault is the end of a work given up from outside. -/
def isCancelled : Fault → Bool
  | cancelled => true
  | _ => false

end Fault

/-- Apply a function to the items of a list, in order, up to the first fault. -/
def eachOk {α β : Type} (f : α → Except Fault β) : List α → Except Fault (List β)
  | [] => .ok []
  | a :: as => do
    let b ← f a
    let bs ← eachOk f as
    pure (b :: bs)

end KeysetQuery

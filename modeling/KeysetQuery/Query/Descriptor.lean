import KeysetQuery.Schema.Field

/-!
# Query descriptors

A descriptor says which page of a query is wanted.

* `StartKey`, `Filter`, `Descriptor` — where a page starts, what it is filtered by, all of it;
* `FieldName` — the two spellings of a field, and how a field is looked up;
* `Descriptor.check` — a descriptor read from a map, or all issues with the map;
* `Descriptor.ofValue` — a descriptor read from what a caller passes.
-/

namespace KeysetQuery

open Schema

/-! ### Descriptors -/

/-- Where a page starts. -/
inductive StartKey where
  | beginning
  | last
  | after (cursor : Record)
deriving Inhabited

def lastPage : String := "last"

def StartKey.toValue : StartKey → Value
  | beginning => .null
  | last => .str lastPage
  | after cursor => cursor.toValue

/-- An entry of the filters of a query: a condition or a group under a name. -/
structure Filter where
  name : String
  parts : Record
deriving Inhabited

/-- Which page of a query is wanted. -/
structure Descriptor where
  filters : List Filter
  limit : Int
  pageForward : Bool
  sortAscending : Bool
  startKey : StartKey
  includeTotal : Bool
  index : Option String
  select : Option String
deriving Inhabited

namespace Descriptor

def wantsLastPage (d : Descriptor) : Bool :=
  match d.startKey with
  | .last => true
  | _ => false

def filterEntries (d : Descriptor) : Entries :=
  d.filters.map fun f => (.str f.name, f.parts.toValue)

end Descriptor

/-! ### Field names -/

/-- The names of a field: the one in front is looked up first, the other one may be missing. -/
structure FieldName where
  preferred : String
  plain : String

namespace FieldName

def filters : FieldName := ⟨"rawFilters", "raw_filters"⟩

def limit : FieldName := ⟨"limit", "limit"⟩

def pageForward : FieldName := ⟨"pageForward", "page_forward"⟩

def sortAscending : FieldName := ⟨"sortAscending", "sort_ascending"⟩

def startKey : FieldName := ⟨"startKey", "start_key"⟩

def includeTotal : FieldName := ⟨"includeTotal", "include_total"⟩

def index : FieldName := ⟨"index", "index"⟩

def select : FieldName := ⟨"select", "select"⟩

def all : List FieldName :=
  [filters, limit, pageForward, sortAscending, startKey, includeTotal, index, select]

/-- The name under which a map gives a field, and its value. -/
def find? (f : FieldName) (es : Entries) : Option (String × Value) :=
  match Entries.field? es f.preferred with
  | some v => some (f.preferred, v)
  | none => (Entries.field? es f.plain).map fun v => (f.plain, v)

def readWith {α : Type} (f : FieldName) (es : Entries) (otherwise : α)
    (read : List Place → Value → Check α) : Check α :=
  match f.find? es with
  | some (name, v) => read [.name name] v
  | none => .ok otherwise

/-- Whether a name is one that a map gives a field by. -/
def isUsed (es : Entries) (name : String) : Bool :=
  all.any fun f =>
    match f.find? es with
    | some used => used.1 == name
    | none => false

end FieldName

namespace Descriptor

/-! ### Reading -/

/-- One filter: its key is a text and its value a record. -/
def readFilter (place : List Place) (e : Value × Value) : Check (String × Record) :=
  (readKey place e.1).both (readRecord (place ++ [placeOfKey e.1]) e.2)

def readFilters (place : List Place) : Value → Check (List Filter)
  | .map es =>
    (Check.all (es.map (readFilter place))).map fun ps => (byName ps).map fun p => ⟨p.1, p.2⟩
  | _ => issue place .mapExpected

/-- The size of a page, which is positive. -/
def readLimit (place : List Place) (v : Value) : Check Int := do
  let i ← readInteger place v
  if 0 < i then pure i else issue place .notPositive

/-- The start of a page: null, the text that stands for the last page, or a cursor.  If it is
neither, the issues with both readings are given. -/
def readStartKey (place : List Place) (v : Value) : Check StartKey :=
  match v with
  | .null => .ok .beginning
  | v =>
    if Value.isText lastPage v then .ok .last
    else
      match readRecord (place ++ [.name "dict[str,any]"]) v with
      | .ok cursor => .ok (.after cursor)
      | .error issues =>
        .error (⟨place ++ [.name ("literal['" ++ lastPage ++ "']")], .notTheLiteral⟩ :: issues)

/-- The issues with entries that are no fields, in the order of the map. -/
def unknownEntries (es all : List (Value × Value)) : List (Check Unit) :=
  match es with
  | [] => []
  | (k, _) :: rest =>
    (match k with
      | .str s => if FieldName.isUsed all s then .ok () else issue [.name s] .unknownField
      | k => issue [placeOfKey k] .unknownKey) :: unknownEntries rest all

/-- A descriptor read from a map.  The issues of the fields come first, in the order of the
fields, then those of the entries that are no fields. -/
def check (defaultLimit : Int) (es : Entries) : Check Descriptor := do
  let filters := FieldName.filters.readWith es [] readFilters
  let limit := FieldName.limit.readWith es defaultLimit readLimit
  let pageForward := FieldName.pageForward.readWith es true readTruth
  let sortAscending := FieldName.sortAscending.readWith es true readTruth
  let startKey := FieldName.startKey.readWith es .beginning readStartKey
  let includeTotal := FieldName.includeTotal.readWith es false readTruth
  let index := FieldName.index.readWith es none readText?
  let select := FieldName.select.readWith es none readText?
  let rest := Check.all (unknownEntries es es)
  let fields ← filters.both (limit.both (pageForward.both (sortAscending.both
    (startKey.both (includeTotal.both (index.both (select.both rest)))))))
  let (filters, limit, pageForward, sortAscending, startKey, includeTotal, index, select, _) :=
    fields
  pure { filters, limit, pageForward, sortAscending, startKey, includeTotal, index, select }

/-- The descriptor that asks for nothing in particular. -/
def plain (defaultLimit : Int) : Descriptor where
  filters := []
  limit := defaultLimit
  pageForward := true
  sortAscending := true
  startKey := .beginning
  includeTotal := false
  index := none
  select := none

/-- A descriptor by itself, which must be a map: its issues are given as they are. -/
def ofValue (defaultLimit : Int) (v : Value) : Except Fault Descriptor :=
  (match v with
    | .map es => check defaultLimit es
    | _ => issue [] .recordExpected).mapError .schema

/-- The descriptor of a query: with issues, the query is refused. -/
def ofQuery (defaultLimit : Int) (v : Value) : Except Fault Descriptor := do
  let es ← if v.truthy then v.toMap else pure []
  (check defaultLimit es).mapError fun issues => .invalid (.descriptor issues)

end Descriptor

end KeysetQuery

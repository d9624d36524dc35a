import KeysetQuery.Client.Exchange
import KeysetQuery.Proofs.Counting.Steps
import KeysetQuery.Proofs.Query.Members
import KeysetQuery.Proofs.Schema.Names
import KeysetQuery.Proofs.Stored.Members
import KeysetQuery.Store.RecordStore

/-!
# Queries that start at a cursor

A query that starts at a cursor is the query from the beginning in all other respects.

* `Descriptor.check_startKey` — a descriptor with another start key;
* `RecordStore.begin_query` — how a store begins a query;
* `RecordStore.queryArguments` — what the client is handed for the page of a query;
* `RecordStore.queryArguments_startKey` — with a cursor, it is handed the stored form of the cursor
  besides.
-/

namespace KeysetQuery

open Value Entries Schema

/-! ### Gathering -/

namespace Schema

section Gathering

variable {α β γ : Type}

theorem Check.both_ok_left (a : α) (b : Check β) : Check.both (.ok a) b = b.map (Prod.mk a) := by
  cases b <;> rfl

/-- What is done to the second of two values is done to both of them. -/
theorem Check.both_map_right (a : Check α) (b : Check β) (g : β → γ) :
    Check.both a (b.map g) = (Check.both a b).map (Prod.map id g) := by
  cases a <;> cases b <;> rfl

end Gathering

end Schema

/-! ### Fields -/

namespace FieldName

variable {es : Entries}

theorem readWith_putField {α : Type} {f : FieldName} {t : String} (hpreferred : t ≠ f.preferred)
    (hplain : t ≠ f.plain) (v : Value) (otherwise : α) (read : List Place → Value → Check α) :
    f.readWith (es.putField t v) otherwise read = f.readWith es otherwise read := by
  rw [readWith, find?, field?_putField, if_neg hpreferred, field?_putField, if_neg hplain]
  rfl

/-- Under its preferred name a field is found. -/
theorem find?_putField_preferred (f : FieldName) (v : Value) :
    f.find? (es.putField f.preferred v) = some (f.preferred, v) := by
  rw [find?, field?_putField, if_pos rfl]

/-- The names in use do not depend on the values. -/
theorem isUsed_putField (t : String) (v w : Value) (name : String) :
    isUsed (es.putField t v) name = isUsed (es.putField t w) name := by
  unfold isUsed
  congr 1
  funext f
  rw [find?, find?, field?_putField, field?_putField, field?_putField, field?_putField]
  by_cases hpreferred : t = f.preferred
  · rw [if_pos hpreferred, if_pos hpreferred]
  · rw [if_neg hpreferred, if_neg hpreferred]
    by_cases hplain : t = f.plain
    · rw [if_pos hplain, if_pos hplain]
      cases es.field? f.preferred <;> rfl
    · rw [if_neg hplain, if_neg hplain]

end FieldName

/-! ### Descriptors -/

namespace Descriptor

theorem unknownEntries_congr {es fs all other : Entries} (hkeys : keys es = keys fs)
    (hused : ∀ name, FieldName.isUsed all name = FieldName.isUsed other name) :
    unknownEntries es all = unknownEntries fs other := by
  induction es generalizing fs with
  | nil =>
    rw [List.map_eq_nil_iff.1 hkeys.symm]
    rfl
  | cons e es ih =>
    cases fs with
    | nil => cases hkeys
    | cons f fs =>
      obtain ⟨k, v⟩ := e
      obtain ⟨l, w⟩ := f
      obtain ⟨hkey, hrest⟩ := List.cons.inj hkeys
      obtain rfl : k = l := hkey
      cases k with
      | str s =>
        show (if FieldName.isUsed all s then _ else _) :: unknownEntries es all
          = (if FieldName.isUsed other s then _ else _) :: unknownEntries fs other
        rw [hused, ih hrest]
      | _ => exact congrArg (List.cons _) (ih hrest)

theorem unknownEntries_putField (es : Entries) (t : String) (v w : Value) :
    unknownEntries (es.putField t v) (es.putField t v)
      = unknownEntries (es.putField t w) (es.putField t w) := by
  refine unknownEntries_congr ?_ (FieldName.isUsed_putField t v w)
  rw [putField, putField, keys_put, keys_put]

/-- With another start key a descriptor is the same in all other respects. -/
theorem check_startKey (defaultLimit : Int) (es : Entries) {v w : Value} {s t : StartKey}
    (hv : readStartKey [.name FieldName.startKey.preferred] v = .ok s)
    (hw : readStartKey [.name FieldName.startKey.preferred] w = .ok t) :
    check defaultLimit (es.putField FieldName.startKey.preferred v)
      = (check defaultLimit (es.putField FieldName.startKey.preferred w)).map
          fun d => { d with startKey := s } := by
  have hread : ∀ u, FieldName.startKey.readWith (es.putField FieldName.startKey.preferred u)
      .beginning readStartKey = readStartKey [.name FieldName.startKey.preferred] u := by
    intro u
    rw [FieldName.readWith, FieldName.find?_putField_preferred]
  have hother : ∀ {α : Type} {f : FieldName} (otherwise : α) (read : List Place → Value → Check α),
      FieldName.startKey.preferred ≠ f.preferred → FieldName.startKey.preferred ≠ f.plain →
      ∀ u, f.readWith (es.putField FieldName.startKey.preferred u) otherwise read
        = f.readWith es otherwise read :=
    fun otherwise read hpreferred hplain u =>
      FieldName.readWith_putField hpreferred hplain u otherwise read
  unfold check
  simp only [hread, hv, hw, unknownEntries_putField es _ v w, Check.both_ok_left,
    Check.both_map_right, hother _ _ (show _ ≠ FieldName.filters.preferred by decide) (by decide),
    hother _ _ (show _ ≠ FieldName.limit.preferred by decide) (by decide),
    hother _ _ (show _ ≠ FieldName.pageForward.preferred by decide) (by decide),
    hother _ _ (show _ ≠ FieldName.sortAscending.preferred by decide) (by decide),
    hother _ _ (show _ ≠ FieldName.includeTotal.preferred by decide) (by decide),
    hother _ _ (show _ ≠ FieldName.index.preferred by decide) (by decide),
    hother _ _ (show _ ≠ FieldName.select.preferred by decide) (by decide)]
  generalize Check.both (FieldName.filters.readWith es [] readFilters) _ = fields
  cases fields <;> rfl

end Descriptor

/-! ### Requests -/

namespace RecordStore

variable (store : RecordStore)

/-- A descriptor of a query with another start key. -/
theorem descriptor_startKey (es : Entries) (byItself : Bool) {v w : Value} {s t : StartKey}
    (hv : Descriptor.readStartKey [.name FieldName.startKey.preferred] v = .ok s)
    (hw : Descriptor.readStartKey [.name FieldName.startKey.preferred] w = .ok t) :
    store.descriptor (map (es.putField FieldName.startKey.preferred v)) byItself
      = (store.descriptor (map (es.putField FieldName.startKey.preferred w)) byItself).map
          fun d => { d with startKey := s } := by
  have hcheck := Descriptor.check_startKey store.defaultLimit es hv hw
  have hmap : ∀ u, (map (es.putField FieldName.startKey.preferred u)).truthy = true := by
    intro u
    have hfield : (es.putField FieldName.startKey.preferred u).field?
        FieldName.startKey.preferred = some u := by
      rw [field?_putField, if_pos rfl]
    cases hput : es.putField FieldName.startKey.preferred u with
    | nil =>
      rw [hput] at hfield
      cases hfield
    | cons e fs => rfl
  cases byItself with
  | true =>
    show Except.mapError _ (Descriptor.check _ _) = (Except.mapError _ (Descriptor.check _ _)).map _
    rw [hcheck]
    cases Descriptor.check store.defaultLimit (es.putField FieldName.startKey.preferred w) <;> rfl
  | false =>
    show Descriptor.ofQuery _ _ = (Descriptor.ofQuery _ _).map _
    rw [Descriptor.ofQuery, Descriptor.ofQuery, if_pos (hmap v), if_pos (hmap w)]
    show Except.mapError _ (Descriptor.check _ _) = (Except.mapError _ (Descriptor.check _ _)).map _
    rw [hcheck]
    cases Descriptor.check store.defaultLimit (es.putField FieldName.startKey.preferred w) <;> rfl

/-- How a store begins a query. -/
theorem begin_query (primaryKey table descriptor : Value) (byItself : Bool) :
    (store.begin (.query primaryKey table descriptor byItself)).result
      = store.descriptor descriptor byItself >>= fun d =>
          (QueryPlan.make store.normalizer primaryKey table d).result.map .query := by
  unfold RecordStore.begin
  rw [Noted.result_bind, Noted.result_liftM]
  congr 1
  funext d
  exact Noted.result_bind_pure _ _

/-- What the client is handed for the page of a query, unless the query is refused before. -/
def queryArguments (primaryKey table descriptor : Value) (byItself : Bool) :
    Except Fault Entries := do
  let d ← store.descriptor descriptor byItself
  let plan ← (QueryPlan.make store.normalizer primaryKey table d).result
  encodeArguments (map plan.params)

/-- The request for a page that starts at a cursor is that for a page from the beginning, with the
cursor in stored form. -/
theorem queryArguments_startKey (primaryKey table : Value) (es : Entries) (byItself : Bool)
    {cursor : Record} (hnames : (cursor.map Prod.fst).Nodup) {stored : Entries}
    (hstored : Stored.encodeRecord cursor.toValue = .ok stored) :
    store.queryArguments primaryKey table
        (map (es.putField FieldName.startKey.preferred cursor.toValue)) byItself
      = (store.queryArguments primaryKey table
          (map (es.putField FieldName.startKey.preferred null)) byItself).map
            fun arguments => arguments.putField "ExclusiveStartKey" (map stored) := by
  have hcursor := Descriptor.readStartKey_toValue hnames [.name FieldName.startKey.preferred]
  have hnull : Descriptor.readStartKey [.name FieldName.startKey.preferred] null
      = .ok .beginning := rfl
  have hbeginning := descriptor_startKey store es byItself hnull hnull
  rw [queryArguments, queryArguments, descriptor_startKey store es byItself hcursor hnull]
  cases hd : store.descriptor (map (es.putField FieldName.startKey.preferred null)) byItself with
  | error f => rfl
  | ok d =>
    rw [hd] at hbeginning
    have hstart : d.startKey = .beginning := congrArg Descriptor.startKey (Except.ok.inj hbeginning)
    show ((QueryPlan.make store.normalizer primaryKey table _).result >>= _)
      = (((QueryPlan.make store.normalizer primaryKey table d).result >>= _)).map _
    rw [QueryPlan.make, QueryPlan.make, Noted.result_bind, Noted.result_bind]
    show ((queryParams store.normalizer primaryKey table d).result >>= _) >>= _ = _
    cases hparams : (queryParams store.normalizer primaryKey table d).result with
    | error f => rfl
    | ok params =>
      obtain ⟨_, _, _, _, _, _, -, -, -, -, -, -, rfl⟩ := queryParams_eq_ok hparams
      show encodeArguments (map (putField (QueryParts.members _ d) "ExclusiveStartKey"
          cursor.toValue))
        = (encodeArguments (map (QueryPlan.startAt d.startKey (QueryParts.members _ d)))).map _
      rw [hstart]
      refine encodeArguments_putField (by decide) hstored ?_
      rw [QueryParts.field?_members_start]
      exact fun u hu => absurd hu (by simp)

end RecordStore

end KeysetQuery

import KeysetQuery.Proofs.Outcome
import KeysetQuery.Proofs.Value.Entries
import KeysetQuery.Query.Params

/-!
# Members of a request

* `QueryParts` and `QueryParts.members` — what a request is made of, and the request;
* `queryParams_eq_ok` — a compiled query is made of its canonical parts;
* `distinct_members` — no member of a request is given twice;
* `field?_members_keyText` and its like — what the members hold.
-/

namespace KeysetQuery

open Value Entries

/-! ### Requests -/

/-- What the request for a page is made of, apart from the descriptor. -/
structure QueryParts where
  keyText : String
  names : Entries
  values : Entries
  filterText : Option String
  table : Value

namespace QueryParts

/-- The member for a filter. -/
def filterMember : Option String → Entries
  | some s => [(str "FilterExpression", str s)]
  | none => []

/-- The request for a page. -/
def members (p : QueryParts) (d : Descriptor) : Entries :=
  [(str "KeyConditionExpression", str p.keyText),
    (str "ExpressionAttributeNames", map p.names),
    (str "ExpressionAttributeValues", map p.values),
    (str "ScanIndexForward", .bool d.scansForward),
    (str "TableName", p.table),
    (str "Limit", int d.limit)]
    ++ filterMember p.filterText ++ optionalMember "IndexName" d.index
    ++ optionalMember "Select" d.select

end QueryParts

/-! ### Compilation -/

/-- The block that the filter expression of a query is written from, if it has conditions. -/
def IsFilterText (groups conditions : List Entries) (filter : Option String) : Prop :=
  if conditions.isEmpty then filter = none
  else ∃ blocks, (filterBlocks (list (groups.map .map)) (list (conditions.map .map))).result
    = .ok blocks ∧ filter = some (filterText blocks)

/-- A compiled query is made of its canonical parts. -/
theorem queryParams_eq_ok {n : Normalizer} {primaryKey table : Value} {d : Descriptor}
    {params : Entries} (h : (queryParams n primaryKey table d).result = .ok params) :
    ∃ groups conditions keys block attributes filter,
      d.groups = .ok groups ∧ d.conditions n = .ok conditions ∧
      keyConditions n primaryKey = .ok keys ∧
      (Block.ofConditions (keys.map .map) null).result = .ok block ∧
      readAttributes ((keys ++ conditions).map .map) = .ok attributes ∧
      IsFilterText groups conditions filter ∧
      params = QueryParts.members
        ⟨block.text, aliasMap attributes, bindingMap attributes, filter, table⟩ d := by
  simp only [queryParams, Noted.result_bind, Noted.result_liftM] at h
  obtain ⟨groups, hgroups, h⟩ := bind_eq_ok.1 h
  obtain ⟨conditions, hconditions, h⟩ := bind_eq_ok.1 h
  obtain ⟨keys, hkeys, h⟩ := bind_eq_ok.1 h
  obtain ⟨block, hblock, h⟩ := bind_eq_ok.1 h
  obtain ⟨attributes, hattributes, h⟩ := bind_eq_ok.1 h
  obtain ⟨-, -, h⟩ := bind_eq_ok.1 h
  by_cases hempty : conditions.isEmpty = true
  · rw [if_pos hempty, Noted.result_bind] at h
    refine ⟨groups, conditions, keys, block, attributes, none, hgroups, hconditions, hkeys, hblock,
      hattributes, ?_, (Except.ok.inj h).symm⟩
    rw [IsFilterText, if_pos hempty]
  · rw [if_neg hempty, Noted.result_bind] at h
    obtain ⟨blocks, hblocks, h⟩ := bind_eq_ok.1 h
    refine ⟨groups, conditions, keys, block, attributes, some (filterText blocks), hgroups,
      hconditions, hkeys, hblock, hattributes, ?_, (Except.ok.inj h).symm⟩
    rw [IsFilterText, if_neg hempty]
    exact ⟨blocks, hblocks, rfl⟩

/-! ### Members -/

theorem optionalMember_eq (name : String) (o : Option String) :
    optionalMember name o = [] ∨ ∃ s, optionalMember name o = [(str name, str s)] := by
  cases o with
  | none => exact .inl rfl
  | some s =>
    by_cases hs : s = ""
    · exact .inl (by rw [optionalMember, if_pos hs])
    · exact .inr ⟨s, by rw [optionalMember, if_neg hs]⟩

theorem field?_optionalMember {name t : String} (h : name ≠ t) (o : Option String) :
    field? (optionalMember name o) t = none := by
  rcases optionalMember_eq name o with hnil | ⟨s, hs⟩
  · rw [hnil]
    rfl
  · rw [hs, field?, get?_cons_text, if_neg h]
    rfl

namespace QueryParts

variable (p : QueryParts) (d : Descriptor)

/-- No member of a request is given twice. -/
theorem distinct_members : Distinct (p.members d) := by
  unfold Distinct members
  rcases optionalMember_eq "IndexName" d.index with hindex | ⟨i, hindex⟩ <;>
    rcases optionalMember_eq "Select" d.select with hselect | ⟨s, hselect⟩ <;>
    cases p.filterText <;>
    simp [hindex, hselect, filterMember, keys]

theorem field?_members (t : String) :
    field? (p.members d) t =
      ((field? [(str "KeyConditionExpression", str p.keyText),
        (str "ExpressionAttributeNames", map p.names),
        (str "ExpressionAttributeValues", map p.values),
        (str "ScanIndexForward", .bool d.scansForward),
        (str "TableName", p.table), (str "Limit", int d.limit)] t).or
      (field? (filterMember p.filterText) t)).or
      ((field? (optionalMember "IndexName" d.index) t).or
        (field? (optionalMember "Select" d.select) t)) := by
  simp only [members, field?, get?_append, Option.or_assoc]

theorem field?_members_keyText :
    field? (p.members d) "KeyConditionExpression" = some (str p.keyText) := rfl

theorem field?_members_names :
    field? (p.members d) "ExpressionAttributeNames" = some (map p.names) := rfl

theorem field?_members_values :
    field? (p.members d) "ExpressionAttributeValues" = some (map p.values) := rfl

theorem field?_members_filterText :
    field? (p.members d) "FilterExpression" = p.filterText.map str := by
  rw [field?_members, field?_optionalMember (by decide), field?_optionalMember (by decide)]
  cases p.filterText <;> rfl

/-- A request says nothing about its start. -/
theorem field?_members_start : field? (p.members d) "ExclusiveStartKey" = none := by
  rw [field?_members, field?_optionalMember (by decide), field?_optionalMember (by decide)]
  cases p.filterText <;> rfl

end QueryParts

end KeysetQuery

import KeysetQuery.Proofs.Expression.Placeholders
import KeysetQuery.Proofs.Query.Bundles
import KeysetQuery.Proofs.Query.Members

/-!
# Which key a query reads

The conditions of the key and those of the filter share one map of aliases and one of placeholders,
and whatever is written last stays.

* `writtenLast` — what a list of names and things says last about a name;
* `Entries.readsKey` — a request reads the key that it was given;
* `readsKey_iff` — it does exactly if the filter writes nothing else under the names of the key.
-/

namespace KeysetQuery

open Value Entries

/-! ### What is written last -/

/-- What a list of names and things says last about a name. -/
def writtenLast {α : Type} (ps : List (String × α)) (name : String) : Option α :=
  ps.reverse.lookup name

/-- Behind a mark, the entry that is written last is the one that the list says last. -/
theorem last?_map_marked {α : Type} (mark : String) (f : α → Value) (ps : List (String × α))
    (name : String) :
    last? (ps.map fun p => (str (mark ++ p.1), f p.2)) (mark ++ name)
      = (writtenLast ps name).map f := by
  rw [last?, ← List.map_reverse, writtenLast]
  induction ps.reverse with
  | nil => rfl
  | cons p ps ih =>
    obtain ⟨n, a⟩ := p
    rw [List.map_cons, get?_cons_text, ih, List.lookup_cons]
    by_cases hn : name = n
    · subst hn
      simp
    · have hmark : ¬ mark ++ n = mark ++ name := fun h => hn (mark_append_injective h).symm
      rw [if_neg hmark, beq_false_of_ne hn]

theorem writtenLast_append {α : Type} (ps qs : List (String × α)) (name : String) :
    writtenLast (ps ++ qs) name = (writtenLast qs name).or (writtenLast ps name) := by
  rw [writtenLast, List.reverse_append, List.lookup_append]
  rfl

/-- A list with different names says one thing about each. -/
theorem writtenLast_of_nodup {α : Type} {ps : List (String × α)} (h : (ps.map Prod.fst).Nodup)
    {p : String × α} (hp : p ∈ ps) : writtenLast ps p.1 = some p.2 := by
  rw [writtenLast]
  have hrev : (ps.reverse.map Prod.fst).Nodup := by
    rw [List.map_reverse]
    exact List.nodup_reverse.2 h
  have hmem := List.mem_reverse.2 hp
  generalize ps.reverse = rs at hrev hmem
  induction rs with
  | nil => exact absurd hmem List.not_mem_nil
  | cons q qs ih =>
    obtain ⟨hq, hqs⟩ := List.nodup_cons.1 hrev
    rcases List.mem_cons.1 hmem with rfl | hmem
    · rw [List.lookup_cons_self]
    · have hne : ¬ p.1 = q.1 := fun heq => hq (heq ▸ List.mem_map_of_mem hmem)
      rw [List.lookup_cons, beq_false_of_ne hne]
      exact ih hqs hmem

/-! ### Keys -/

/-- The value behind a placeholder of a request. -/
def Entries.boundTo (params : Entries) (placeholder : String) : Option Value :=
  match params.field? "ExpressionAttributeValues" with
  | some (map values) => field? values (":" ++ placeholder)
  | _ => none

/-- The name behind an alias of a request. -/
def Entries.namedBy (params : Entries) (name : String) : Option Value :=
  match params.field? "ExpressionAttributeNames" with
  | some (map names) => field? names ("#" ++ name)
  | _ => none

/-- The parts of a key that are not empty. -/
def Record.present (key : Record) : Record := key.filter fun e => !e.2.isEmpty

/-- A request reads a key: behind the placeholder of each part of the key stands its own value, and
behind its alias its own name. -/
def Entries.readsKey (params : Entries) (key : Record) : Prop :=
  ∀ e ∈ key.present, params.boundTo e.1 = some e.2 ∧ params.namedBy e.1 = some (str e.1)

/-- A key of bare values that are no sequences and no maps. -/
def Record.IsBare (key : Record) : Prop :=
  ∀ e ∈ key.present, e.2.items? = none ∧ e.2.kind ≠ .map

section Bare

variable {key : Record}

/-- Each part of a bare key is a condition that asks for the value. -/
theorem keyAttributes_of_isBare (h : key.IsBare) :
    keyAttributes key.toValue = key.present.map fun e => Attribute.bare e.2 (str e.1) := by
  have hpresent : (Record.entries key).filter (fun e => !e.2.isEmpty)
      = key.present.map fun e => (str e.1, e.2) := by
    rw [Record.entries, List.filter_map, Record.present]
    rfl
  show ((Record.entries key).filter fun e => !e.2.isEmpty).map _ = _
  rw [hpresent, List.map_map]
  refine List.map_congr_left fun e he => ?_
  obtain ⟨-, hkind⟩ := h e he
  cases hv : e.2 with
  | map es => exact absurd (by rw [hv]; rfl) hkind
  | _ => simp [Attribute.ofRaw, hv]

/-- A bare key has one placeholder for each part. -/
theorem bindings_of_isBare (h : key.IsBare) :
    (keyAttributes key.toValue).flatMap Attribute.bindings = key.present := by
  rw [keyAttributes_of_isBare h, List.flatMap_map]
  have heach : ∀ e ∈ key.present, (Attribute.bare e.2 (str e.1)).bindings = [e] := by
    intro e he
    obtain ⟨hitems, -⟩ := h e he
    have hop : isText "exists" (str "=") = false := rfl
    simp only [Attribute.bindings, Attribute.bare, hop, hitems]
    rfl
  rw [List.flatMap_congr heach, List.flatMap_singleton']

/-- A bare key has one alias for each part. -/
theorem aliases_of_isBare (h : key.IsBare) :
    (keyAttributes key.toValue).flatMap Attribute.aliases
      = key.present.map fun e => (e.1, e.1) := by
  rw [keyAttributes_of_isBare h, List.flatMap_map, List.map_eq_flatMap]
  rfl

end Bare

/-! ### Keys beside filters -/

section Requests

variable {n : Normalizer} {primaryKey table : Value} {d : Descriptor} {params : Entries}

/-- The maps of a compiled query are those of the conditions of its key and of its filter. -/
theorem fields_queryParams (h : (queryParams .standard primaryKey table d).result = .ok params) :
    params.field? "ExpressionAttributeNames"
        = some (map (aliasMap (keyAttributes primaryKey ++ d.filterAttributes))) ∧
      params.field? "ExpressionAttributeValues"
        = some (map (bindingMap (keyAttributes primaryKey ++ d.filterAttributes))) := by
  obtain ⟨groups, conditions, keys, block, attributes, filter, -, hconditions, hkeys, -,
    hattributes, -, rfl⟩ := queryParams_eq_ok h
  obtain rfl := readAttributes_eq_ok hkeys hconditions hattributes
  exact ⟨QueryParts.field?_members_names _ d, QueryParts.field?_members_values _ d⟩

/-- The maps of a compiled query are written by the conditions of its key and then by those of its
filter. -/
theorem boundTo_and_namedBy_queryParams
    (h : (queryParams .standard primaryKey table d).result = .ok params) (name : String) :
    params.boundTo name = writtenLast
        ((keyAttributes primaryKey).flatMap Attribute.bindings
          ++ d.filterAttributes.flatMap Attribute.bindings) name ∧
      params.namedBy name = (writtenLast
        ((keyAttributes primaryKey).flatMap Attribute.aliases
          ++ d.filterAttributes.flatMap Attribute.aliases) name).map str := by
  obtain ⟨hnames, hvalues⟩ := fields_queryParams h
  rw [Entries.boundTo, hvalues, Entries.namedBy, hnames, ← List.flatMap_append,
    ← List.flatMap_append]
  generalize keyAttributes primaryKey ++ d.filterAttributes = as
  constructor
  · have hentries : bindingEntries as
        = (as.flatMap Attribute.bindings).map fun p => (str (":" ++ p.1), id p.2) := by
      rw [bindingEntries, List.map_flatMap]
      rfl
    show field? (bindingMap as) (":" ++ name) = _
    rw [bindingMap, field?, get?_ofList_text, hentries, last?_map_marked, Option.map_id]
    rfl
  · have hentries : aliasEntries as
        = (as.flatMap Attribute.aliases).map fun p => (str ("#" ++ p.1), str p.2) := by
      rw [aliasEntries, List.map_flatMap]
    show field? (aliasMap as) ("#" ++ name) = _
    rw [aliasMap, field?, get?_ofList_text, hentries, last?_map_marked]

/-- A compiled query reads the key that it was given exactly if the conditions of the filter leave
the names of the key alone: what they write last under the placeholder of a part of the key, if
anything, is the value of that part, and what they write last under its alias is its name. -/
theorem readsKey_iff {key : Record} (hnodup : (key.map Prod.fst).Nodup) (hbare : key.IsBare)
    (h : (queryParams .standard key.toValue table d).result = .ok params) :
    params.readsKey key ↔ ∀ e ∈ key.present,
      (∀ v, writtenLast (d.filterAttributes.flatMap Attribute.bindings) e.1 = some v → v = e.2) ∧
        ∀ s, writtenLast (d.filterAttributes.flatMap Attribute.aliases) e.1 = some s →
          s = e.1 := by
  have hpresent : (key.present.map Prod.fst).Nodup :=
    hnodup.sublist (List.filter_sublist.map Prod.fst)
  have hnames : ((key.present.map fun e => (e.1, e.1)).map Prod.fst).Nodup := by
    rw [List.map_map]
    exact hpresent
  -- a part of the key is written first, and the filter may write over it
  have hover : ∀ {α : Type} (o : Option α) (a : α),
      o.or (some a) = some a ↔ ∀ b, o = some b → b = a := by
    intro α o a
    cases o <;> simp
  refine forall₂_congr fun e he => ?_
  obtain ⟨hbound, hnamed⟩ := boundTo_and_namedBy_queryParams h e.1
  rw [hbound, hnamed, bindings_of_isBare hbare, aliases_of_isBare hbare, writtenLast_append,
    writtenLast_append, writtenLast_of_nodup hpresent he,
    writtenLast_of_nodup hnames (List.mem_map_of_mem (f := fun e => (e.1, e.1)) he), hover]
  refine and_congr_right fun _ => ?_
  rw [← hover]
  constructor
  · intro hname
    obtain ⟨s, hs, hstr⟩ := Option.map_eq_some_iff.1 hname
    rw [hs, str.inj hstr]
  · intro hname
    rw [hname]
    rfl

end Requests

/-- A filter beside the key leaves it alone. -/
theorem readsKey_beside_status : ∃ params,
    (queryParams .standard (Record.toValue [("pk", str "A")]) (str "t")
      { Descriptor.plain 10 with
        filters := [⟨"status", [("condition", map [(str "value", list [str "open", str "new"]),
          (str "operator", str "in")])]⟩] }).result = .ok params ∧
      params.readsKey [("pk", str "A")] := by
  refine ⟨_, rfl, ?_⟩
  refine (@readsKey_iff (str "t") { Descriptor.plain 10 with
    filters := [⟨"status", [("condition", map [(str "value", list [str "open", str "new"]),
      (str "operator", str "in")])]⟩] } _ [("pk", str "A")] (by decide) ?_ rfl).2 ?_
  · intro e he
    obtain rfl := List.mem_singleton.1 he
    exact ⟨rfl, by decide⟩
  · intro e he
    obtain rfl := List.mem_singleton.1 he
    constructor
    · rintro v ⟨⟩
    · rintro s ⟨⟩

/-- A filter on part of a document can be given the name of the key, and then its value is read in
place of the key. -/
theorem not_readsKey_under_its_name : ∃ d params,
    Descriptor.check 10 [(str "rawFilters", map [(str "pk", map [(str "condition",
      map [(str "path", str "m"), (str "value", str "B")])])])] = .ok d ∧
      (queryParams .standard (Record.toValue [("pk", str "A")]) (str "t") d).result = .ok params ∧
      params.boundTo "pk" = some (str "B") ∧ ¬ params.readsKey [("pk", str "A")] := by
  refine ⟨_, _, rfl, rfl, rfl, ?_⟩
  intro hreads
  obtain ⟨hbound, -⟩ := hreads ("pk", str "A") (List.mem_singleton.2 rfl)
  have hother : some (str "B") = some (str "A") := hbound
  exact absurd hother (by simp)

end KeysetQuery

import KeysetQuery.Proofs.Expression.Assignments
import KeysetQuery.Proofs.Query.Canonical
import KeysetQuery.Store.RecordStore

/-!
# What an update assigns

An update is an expression and two maps.  Read by these maps, the expression says which attribute
takes which value.

* `Update` — an update that was read, and `Update.Assigns` what it does to attributes;
* `Record.besides` — the part of a record that an update of the record of a key is about;
* `Normalizer.Renames` — a normalizer that gives attributes other names and changes nothing else;
* `patchParams_eq_ok` — the request that changes make;
* `assigns_update_iff` — it gives the attributes their values exactly if no value is a sequence;
* `assigns_patch_iff` — the same of a patch, from the call to the request that is sent.
-/

namespace KeysetQuery

open Value Entries Reader

/-! ### Updates -/

/-- An update that was read: its assignments, and what aliases and placeholders stand for. -/
structure Update where
  assignments : List (List String × String)
  names : Entries
  values : Entries

namespace Update

/-- The update that a request asks for. -/
def ofParams (params : Entries) : Option Update :=
  match params.field? "UpdateExpression", params.field? "ExpressionAttributeNames",
    params.field? "ExpressionAttributeValues" with
  | some (str text), some (map names), some (map values) =>
    (readUpdate text).map fun as => ⟨as, names, values⟩
  | _, _, _ => none

/-- The document path that an assignment is about. -/
def target (u : Update) (a : List String × String) : Option (List String) :=
  Formula.eachSome (Formula.segmentOf u.names) a.1

/-- The value that an assignment gives. -/
def source (u : Update) (a : List String × String) : Option Value :=
  Formula.valueOf u.values a.2

/-- An update gives the attributes of a record their values: it has no placeholder that stands for
nothing and no value that stands nowhere, and each attribute of the record takes its own value. -/
structure Assigns (u : Update) (changes : Record) : Prop where
  nonempty : changes ≠ [] → u.assignments ≠ []
  bound : ∀ a ∈ u.assignments, (u.source a).isSome = true
  used : ∀ e ∈ u.values, ∃ a ∈ u.assignments, e.1 = str (":" ++ a.2)
  assigned : ∀ e ∈ changes, ∃ a ∈ u.assignments, u.target a = some [e.1]
  valued : ∀ e ∈ changes, ∀ a ∈ u.assignments, u.target a = some [e.1] → u.source a = some e.2

end Update

/-- The part of a record that an update of the record of a key is about: its attributes outside the
key that are not empty. -/
def Record.besides (data key : Record) : Record :=
  data.filter fun e => (key.get? e.1).isNone && !e.2.isEmpty

/-! ### Attributes of changes -/

/-- The attributes that changes are written for. -/
def Record.attributes (changes : Record) : List Attribute :=
  changes.map fun e => Attribute.bare e.2 (str e.1)

section Attributes

variable {changes : Record}

theorem aliasEntries_attributes :
    aliasEntries changes.attributes = changes.map fun e => (str ("#" ++ e.1), str e.1) := by
  rw [aliasEntries, Record.attributes, List.flatMap_map, List.map_eq_flatMap]
  rfl

/-- An alias of changes stands for the name of one of them. -/
theorem field?_aliasMap_attributes {word : String} {v : Value} :
    field? (aliasMap changes.attributes) ("#" ++ word) = some v ↔
      v = str word ∧ word ∈ changes.map Prod.fst := by
  have hmem : ∀ {v}, (str ("#" ++ word), v) ∈ aliasEntries changes.attributes ↔
      v = str word ∧ word ∈ changes.map Prod.fst := by
    intro v
    rw [aliasEntries_attributes, List.mem_map, List.mem_map]
    constructor
    · rintro ⟨e, he, heq⟩
      obtain ⟨hname, rfl⟩ := Prod.mk.inj heq
      obtain rfl := mark_append_injective (str.inj hname)
      exact ⟨rfl, e, he, rfl⟩
    · rintro ⟨rfl, e, he, rfl⟩
      exact ⟨e, he, rfl⟩
  constructor
  · intro h
    rw [aliasMap, field?, get?_ofList_text, last?] at h
    exact hmem.1 (List.mem_reverse.1 (mem_of_get?_text h))
  · intro h
    rw [aliasMap]
    refine get?_ofList_of_forall (hmem.2 h) fun w hw => ?_
    rw [(hmem.1 hw).1, h.1]

/-- The name of an attribute is an alias of its own. -/
theorem segmentOf_attributes {e : String × Value} (he : e ∈ changes) :
    Formula.segmentOf (aliasMap changes.attributes) e.1 = some e.1 := by
  have hget : field? (aliasMap changes.attributes) ("#" ++ e.1) = some (str e.1) :=
    field?_aliasMap_attributes.2 ⟨rfl, List.mem_map_of_mem he⟩
  rw [Formula.segmentOf, hget]

/-- An attribute that takes no sequence has one placeholder, which is its name. -/
theorem bindings_of_not_sequence {v : Value} (h : v.items? = none) (name : String) :
    (Attribute.bare v (str name)).bindings = [(name, v)] := by
  have hop : isText "exists" (str "=") = false := rfl
  simp only [Attribute.bindings, Attribute.bare, hop, h]
  rfl

/-- An attribute that takes a sequence has numbered placeholders. -/
theorem bindings_of_sequence {v : Value} {vs : List Value} (h : v.items? = some vs)
    (name : String) :
    (Attribute.bare v (str name)).bindings = Attribute.numbered name 0 vs := by
  have hop : isText "exists" (str "=") = false := rfl
  simp only [Attribute.bindings, Attribute.bare, hop, h]
  rfl

/-- A placeholder that stands for something belongs to one of the attributes. -/
theorem exists_of_valueOf {placeholder : String} {v : Value}
    (h : Formula.valueOf (bindingMap changes.attributes) placeholder = some v) :
    ∃ e ∈ changes, (placeholder, v) ∈ (Attribute.bare e.2 (str e.1)).bindings := by
  rw [Formula.valueOf, bindingMap, field?, get?_ofList_text, last?] at h
  obtain ⟨a, ha, p, hp, hname, rfl⟩ :=
    mem_bindingEntries.1 (List.mem_reverse.1 (mem_of_get?_text h))
  obtain ⟨e, he, rfl⟩ := List.mem_map.1 ha
  exact ⟨e, he, by rwa [mark_append_injective hname]⟩

end Attributes

/-! ### Requests -/

section Requests

variable {data key : Record}

theorem has_entries (r : Record) (name : String) :
    Entries.has (Record.entries r) (str name) = (r.get? name).isSome := by
  induction r with
  | nil => rfl
  | cons e r ih =>
    obtain ⟨s, v⟩ := e
    rw [Entries.has, Record.get?] at ih
    rw [Entries.has, Record.get?, Record.entries, List.map_cons, get?_cons_text, List.lookup_cons]
    by_cases h : s = name
    · subst h
      simp
    · rw [if_neg h, beq_false_of_ne (Ne.symm h)]
      exact ih

/-- The changes to the record of a key are the data outside the key. -/
theorem changes_eq_ok (data key : Record) :
    changes data.toValue key.toValue
      = .ok (Record.entries (data.filter fun e => (key.get? e.1).isNone)) := by
  have hmarks : eachOk (fun e : Value × Value => (key.toValue.contains e.1).map fun b => (e, b))
      (Record.entries data)
      = .ok (data.map fun e => ((str e.1, e.2), (key.get? e.1).isSome)) := by
    refine eachOk_of_forall fun e _ => ?_
    show ((asKey (str e.1)).map fun k => Entries.has (Record.entries key) k).map _ = _
    rw [asKey_str, ← has_entries]
    rfl
  show (eachOk _ (Record.entries data) >>= _) = _
  rw [hmarks]
  show Except.ok _ = _
  rw [List.filter_map, List.map_map, Record.entries]
  refine congrArg Except.ok ?_
  have hnone : ∀ e : String × Value, (!(key.get? e.1).isSome) = (key.get? e.1).isNone := fun e =>
    Option.not_isSome (key.get? e.1)
  simp only [Function.comp_def, hnone]

/-- A normalizer gives attributes the names that a function makes of theirs: the usual one leaves
them alone. -/
inductive Normalizer.Renames : Normalizer → (String → String) → Prop
  | standard : Renames .standard id
  | withNames {g : Value → Except Fault Value} {f : String → String}
      (h : ∀ s, g (str s) = .ok (str (f s))) : Renames (.withNames g) f

section Renames

variable {n : Normalizer} {f : String → String}

/-- The record of a value under a name. -/
theorem Normalizer.Renames.normalize_eq_ok (hn : n.Renames f) (s : String) {v : Value}
    (hv : v.isMissing = false) :
    n.normalize (map [(str "value", v)]) (str s)
      = .ok [(str "name", str (f s)), (str "value", v)] := by
  have hcanonical : Normalizer.canonical (map [(str "value", v)]) (str s)
      = .ok [(str "name", str s), (str "value", v)] := by
    have hraw : RawAttribute.ofValue (map [(str "value", v)]) = .tagged [(str "value", v)] := rfl
    have hvalue : (field? [(str "value", v)] "value").getD missing = v := rfl
    simp only [Normalizer.canonical, hraw, RawAttribute.record, hvalue, hv]
    rfl
  cases hn with
  | standard => exact hcanonical
  | withNames h =>
    show (Normalizer.canonical _ _ >>= _) = _
    rw [hcanonical]
    show (Except.map _ (_ : Except Fault Value)) = _
    rw [h]
    rfl

/-- A normalizer makes an attribute of each value that is not empty. -/
theorem Normalizer.Renames.dataValues_eq_ok (hn : n.Renames f) (r : Record) :
    n.dataValues (map (Record.entries r)) = .ok ((r.filter fun e =>
      !e.2.isEmpty).map fun e => [(str "name", str (f e.1)), (str "value", e.2)]) := by
  have hfilter : (Record.entries r).filter (fun e => !e.2.isEmpty)
      = (r.filter fun e => !e.2.isEmpty).map fun e => (str e.1, e.2) := by
    rw [Record.entries, List.filter_map]
    rfl
  show eachOk _ ((Record.entries r).filter fun e => !e.2.isEmpty) = _
  rw [hfilter]
  refine eachOk_of_forall fun e he => hn.normalize_eq_ok e.1 ?_
  have hempty := (List.mem_filter.1 he).2
  cases hv : e.2 with
  | missing => simp [hv, isEmpty] at hempty
  | _ => rfl

end Renames

theorem requireAllAliases_attributes (changes : Record) :
    requireAllAliases changes.attributes = .ok () := by
  induction changes with
  | nil => rfl
  | cons e changes ih => exact ih

/-- The request that changes the record of a key. -/
def Record.updateParams (changes key : Record) (table : Value) : Entries :=
  [(str "TableName", table), (str "Key", key.toValue),
    (str "UpdateExpression", str (updateOf changes.attributes)),
    (str "ExpressionAttributeNames", map (aliasMap changes.attributes)),
    (str "ExpressionAttributeValues", map (bindingMap changes.attributes))]

/-- Changes to the record of a key can always be compiled. -/
theorem patchParams_eq_ok (data key : Record) (table : Value) :
    patchParams .standard data.toValue key.toValue table
      = .ok ((data.besides key).updateParams key table) := by
  have hbesides : (data.filter fun e => (key.get? e.1).isNone).filter (fun e => !e.2.isEmpty)
      = data.besides key := by
    rw [List.filter_filter, Record.besides]
    exact List.filter_congr fun e _ => Bool.and_comm _ _
  have hread : readAttributes (((data.besides key).map fun e =>
      [(str "name", str e.1), (str "value", e.2)]).map .map)
      = .ok (data.besides key).attributes := by
    rw [List.map_map]
    exact eachOk_of_forall fun e _ => rfl
  rw [patchParams, changes_eq_ok]
  show (Normalizer.dataValues _ _ >>= _) = _
  rw [Normalizer.Renames.standard.dataValues_eq_ok, hbesides]
  show (readAttributes _ >>= _) = _
  simp only [id]
  rw [hread]
  show (requireAllAliases _ >>= _) = _
  rw [requireAllAliases_attributes]
  rfl

end Requests

/-! ### What is assigned -/

section Assigned

variable {changes : Record}

/-- The update that changes make, as it is read. -/
def Record.update (changes : Record) : Update where
  assignments := changes.map fun e => ([e.1], e.1)
  names := aliasMap changes.attributes
  values := bindingMap changes.attributes

theorem ofParams_updateParams (h : ∀ e ∈ changes, IsWord e.1) (key : Record) (table : Value) :
    Update.ofParams (changes.updateParams key table) = some changes.update := by
  have hread : readUpdate (updateOf changes.attributes)
      = some (changes.map fun e => ([e.1], e.1)) := by
    rw [readUpdate_updateOf, Record.attributes, List.map_map]
    · rfl
    · intro a ha p hp
      obtain ⟨e, he, rfl⟩ := List.mem_map.1 ha
      rw [List.mem_singleton.1 hp]
      exact h e he
    · intro a ha
      obtain ⟨e, he, rfl⟩ := List.mem_map.1 ha
      exact h e he
  show (readUpdate (updateOf changes.attributes)).map _ = _
  rw [hread]
  rfl

theorem target_update {e : String × Value} (he : e ∈ changes) :
    changes.update.target ([e.1], e.1) = some [e.1] := by
  show Formula.eachSome (Formula.segmentOf (aliasMap changes.attributes)) [e.1] = _
  simp only [Formula.eachSome, segmentOf_attributes he, Option.bind_eq_bind, Option.bind_some]

/-- Without sequences, the placeholder of an attribute stands for its value. -/
theorem source_update (hnodup : (changes.map Prod.fst).Nodup)
    (hscalar : ∀ e ∈ changes, e.2.items? = none) {e : String × Value} (he : e ∈ changes) :
    changes.update.source ([e.1], e.1) = some e.2 := by
  refine get?_ofList_of_forall (mem_bindingEntries.2
    ⟨Attribute.bare e.2 (str e.1), List.mem_map_of_mem he, (e.1, e.2), ?_, rfl, rfl⟩) ?_
  · rw [bindings_of_not_sequence (hscalar e he)]
    exact List.mem_singleton_self _
  · intro w hw
    obtain ⟨a, ha, p, hp, hname, rfl⟩ := mem_bindingEntries.1 hw
    obtain ⟨d, hd, rfl⟩ := List.mem_map.1 ha
    rw [bindings_of_not_sequence (hscalar d hd), List.mem_singleton] at hp
    subst hp
    have hsame : d = e :=
      List.inj_on_of_nodup_map hnodup hd he (mark_append_injective hname).symm
    rw [hsame]

/-- Without sequences, every placeholder is the name of an attribute. -/
theorem exists_of_mem_values (hscalar : ∀ e ∈ changes, e.2.items? = none)
    {f : Value × Value} (hf : f ∈ changes.update.values) :
    ∃ e ∈ changes, f.1 = str (":" ++ e.1) := by
  obtain ⟨g, hg, hsame⟩ := exists_of_mem_ofList hf
  obtain ⟨a, ha, hg⟩ := List.mem_flatMap.1 hg
  obtain ⟨p, hp, rfl⟩ := List.mem_map.1 hg
  obtain ⟨e, he, rfl⟩ := List.mem_map.1 ha
  rw [bindings_of_not_sequence (hscalar e he), List.mem_singleton] at hp
  subst hp
  exact ⟨e, he, hsame.symm⟩

/-- An attribute whose own placeholder stands for something takes no sequence, if that is so of all
attributes with shorter names.  A sequence has numbered placeholders alone, so it would have to be
one of those, behind a shorter name. -/
theorem not_sequence_of_source (hnodup : (changes.map Prod.fst).Nodup) {e : String × Value}
    (he : e ∈ changes) (hsource : (changes.update.source ([e.1], e.1)).isSome = true)
    (hshorter : ∀ d ∈ changes, d.1.length < e.1.length → d.2.items? = none) :
    e.2.items? = none := by
  obtain ⟨v, hv⟩ := Option.isSome_iff_exists.1 hsource
  obtain ⟨d, hd, hmem⟩ := exists_of_valueOf hv
  cases hitems : d.2.items? with
  | none =>
    rw [bindings_of_not_sequence hitems, List.mem_singleton] at hmem
    have hsame : e = d := List.inj_on_of_nodup_map hnodup he hd (Prod.mk.inj hmem).1
    rw [hsame, hitems]
  | some vs =>
    rw [bindings_of_sequence hitems] at hmem
    obtain ⟨j, -, hname, -⟩ := Attribute.mem_numbered hmem
    have hdigits : 0 < (toString j).length := Nat.length_repr_pos
    have hlength : e.1.length = d.1.length + (toString j).length := by
      rw [← String.length_append, ← hname]
    exact absurd (hshorter d hd (by omega)) (by rw [hitems]; simp)

/-- An update gives all attributes their values exactly if no value is a sequence. -/
theorem assigns_update_iff (hnodup : (changes.map Prod.fst).Nodup) :
    changes.update.Assigns changes ↔ ∀ e ∈ changes, e.2.items? = none := by
  constructor
  · intro h
    -- by induction on the length of the name
    have hall : ∀ n, ∀ e ∈ changes, e.1.length = n → e.2.items? = none := by
      intro n
      induction n using Nat.strong_induction_on with
      | _ n ih =>
        intro e he hn
        refine not_sequence_of_source hnodup he (h.bound _ (List.mem_map_of_mem he)) ?_
        intro d hd hlt
        exact ih d.1.length (by omega) d hd rfl
    exact fun e he => hall e.1.length e he rfl
  · intro hscalar
    refine ⟨?_, ?_, ?_, ?_, ?_⟩
    · intro hne hnil
      exact hne (List.map_eq_nil_iff.1 hnil)
    · intro a ha
      obtain ⟨e, he, rfl⟩ := List.mem_map.1 ha
      rw [source_update hnodup hscalar he]
      rfl
    · intro f hf
      obtain ⟨e, he, hname⟩ := exists_of_mem_values hscalar hf
      exact ⟨([e.1], e.1), List.mem_map_of_mem he, hname⟩
    · exact fun e he => ⟨([e.1], e.1), List.mem_map_of_mem he, target_update he⟩
    · intro e he a ha htarget
      obtain ⟨d, hd, rfl⟩ := List.mem_map.1 ha
      rw [target_update hd] at htarget
      obtain rfl : d = e := List.inj_on_of_nodup_map hnodup hd he
        (List.head_eq_of_cons_eq (Option.some.inj htarget))
      exact source_update hnodup hscalar hd

end Assigned

/-- A patch of the record of a key is always compiled, and has one assignment for each attribute
outside the key that is not empty.  It gives all of these their values exactly if none of the values
is a list or a tuple: the value of a sequence is given item by item, under placeholders that no
assignment has. -/
theorem assigns_patch_iff {store : RecordStore} (hstore : store.normalizer = .standard)
    {data : Record} (hnodup : (data.map Prod.fst).Nodup) (hwords : ∀ e ∈ data, IsWord e.1)
    (key : Record) (table : Value) :
    ∃ params u, (store.begin (.patch data.toValue key.toValue table)).result
        = .ok (.process (.settled ⟨.update, map params⟩)) ∧
      Update.ofParams params = some u ∧
      u.assignments = (data.besides key).map (fun e => ([e.1], e.1)) ∧
      (∀ e ∈ data.besides key, u.target ([e.1], e.1) = some [e.1]) ∧
      (u.Assigns (data.besides key) ↔ ∀ e ∈ data.besides key, e.2.items? = none) := by
  have hsub : (data.besides key).Sublist data := List.filter_sublist
  have hbegin : (store.begin (.patch data.toValue key.toValue table)).result
      = .ok (.process (.settled ⟨.update, map ((data.besides key).updateParams key table)⟩)) := by
    show (RecordStore.settled .update _).result = _
    rw [hstore, patchParams_eq_ok]
    rfl
  exact ⟨_, (data.besides key).update, hbegin,
    ofParams_updateParams (fun e he => hwords e (hsub.subset he)) key table, rfl,
    fun e he => target_update he, assigns_update_iff (hnodup.sublist (hsub.map Prod.fst))⟩

/-- A text, a null and a map reach the attributes that they are meant for. -/
theorem assigns_patch_scalars : ∃ params u,
    ((RecordStore.mk ⟨true, int 1000, 20⟩ .standard 10).begin
      (.patch (Record.toValue [("id", str "7"), ("key", str "value"), ("skip", null),
          ("blank", str ""), ("meta", map [(str "value", list [int 1])])])
        (Record.toValue [("id", str "1")]) (str "t"))).result
        = .ok (.process (.settled ⟨.update, map params⟩)) ∧
      Update.ofParams params = some u ∧
      u.Assigns [("key", str "value"), ("skip", null), ("meta", map [(str "value", list [int 1])])] := by
  have hstore : (RecordStore.mk ⟨true, int 1000, 20⟩ .standard 10).normalizer = .standard := rfl
  have hnodup : (([("id", str "7"), ("key", str "value"), ("skip", null), ("blank", str ""),
      ("meta", map [(str "value", list [int 1])])] : Record).map Prod.fst).Nodup := by decide
  obtain ⟨params, u, hbegin, hread, -, -, hiff⟩ :=
    assigns_patch_iff hstore hnodup (by decide) [("id", str "1")] (str "t")
  refine ⟨params, u, hbegin, hread, hiff.2 ?_⟩
  show ∀ e ∈ [("key", str "value"), ("skip", null), ("meta", map [(str "value", list [int 1])])], _
  simp [items?]

/-- A list is written under numbered placeholders, and the placeholder of its attribute stands for
nothing. -/
theorem not_assigns_patch_list : ∃ params u,
    ((RecordStore.mk ⟨true, int 1000, 20⟩ .standard 10).begin
      (.patch (Record.toValue [("tags", list [str "a", str "b"])])
        (Record.toValue [("pk", str "A")]) (str "t"))).result
        = .ok (.process (.settled ⟨.update, map params⟩)) ∧
      Update.ofParams params = some u ∧
      u.assignments = [(["tags"], "tags")] ∧
      u.values = [(str ":tags0", str "a"), (str ":tags1", str "b")] ∧
      u.source (["tags"], "tags") = none ∧ ¬ u.Assigns [("tags", list [str "a", str "b"])] := by
  refine ⟨_, _, rfl, rfl, rfl, rfl, rfl, ?_⟩
  intro h
  exact absurd (h.bound (["tags"], "tags") (List.mem_singleton_self _)) (by decide)

end KeysetQuery

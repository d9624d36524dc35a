import KeysetQuery.Proofs.Expression.Overlaps
import KeysetQuery.Proofs.Query.KeyPlaceholders

/-!
# Which values a query compares with

The values of all conditions share one map of placeholders.

* `Entries.BindsAll` — each value of the conditions is in the map, under a placeholder of its own;
* `length_bindingMap_iff` — this is a matter of counting the entries of the map;
* `bindsAll_queryParams_iff` — it is so exactly if the name of no condition goes on with numbers that
  the items of another one have.
-/

namespace KeysetQuery

open Value Entries

/-- The values of a request are those of its conditions: behind each placeholder of a condition
stands the value or the item that the placeholder was made for, and there are as many values as
placeholders were made. -/
structure Entries.BindsAll (params : Entries) (as : List Attribute) : Prop where
  bound : ∀ a ∈ as, ∀ p ∈ a.bindings, params.boundTo p.1 = some p.2
  size : ∃ values, params.field? "ExpressionAttributeValues" = some (map values) ∧
    values.length = (as.flatMap Attribute.bindings).length

section Bindings

variable {as : List Attribute}

/-- The map of placeholders has as many entries as placeholders were made exactly if these are
different. -/
theorem length_bindingMap_iff :
    (bindingMap as).length = (as.flatMap Attribute.bindings).length ↔
      ((as.flatMap Attribute.bindings).map Prod.fst).Nodup := by
  have hlen : (as.flatMap Attribute.bindings).length = (bindingEntries as).length := by
    have hkeys := congrArg List.length (keys_bindingEntries as)
    simpa [keys] using hkeys.symm
  have htext : ∀ k ∈ keys (bindingEntries as), ∃ t, k = str t := by
    intro k hk
    rw [keys_bindingEntries] at hk
    obtain ⟨s, -, rfl⟩ := List.mem_map.1 hk
    exact ⟨_, rfl⟩
  rw [hlen, bindingMap, length_ofList_iff htext, keys_bindingEntries]
  refine List.nodup_map_iff fun s t h => ?_
  exact mark_append_injective (str.inj h)

/-- The placeholders of attributes with different names are different exactly if no name runs into
another one. -/
theorem nodup_bindings_iff (hnodup : (as.map fun a => a.name.text).Nodup) :
    ((as.flatMap Attribute.bindings).map Prod.fst).Nodup ↔
      ∀ a ∈ as, ∀ b ∈ as, ¬ Overlaps Attribute.placeholderEndings a b := by
  rw [List.map_flatMap, List.flatMap_congr fun a _ => a.map_fst_bindings, List.nodup_flatMap,
    ← pairwise_disjoint_texts_iff hnodup]
  exact and_iff_right fun a _ => a.nodup_texts_placeholderEndings

end Bindings

section Requests

variable {primaryKey table : Value} {d : Descriptor} {params : Entries}

/-- If no two conditions of the key and of the filter have the same name, the values of a compiled
query are those of its conditions exactly if the name of no condition is that of another one with
digits behind it which, with or without an index of its own, are an index into the items of the
other one. -/
theorem bindsAll_queryParams_iff
    (hnodup : ((keyAttributes primaryKey ++ d.filterAttributes).map fun a => a.name.text).Nodup)
    (h : (queryParams .standard primaryKey table d).result = .ok params) :
    params.BindsAll (keyAttributes primaryKey ++ d.filterAttributes) ↔
      ∀ a ∈ keyAttributes primaryKey ++ d.filterAttributes,
        ∀ b ∈ keyAttributes primaryKey ++ d.filterAttributes,
          ¬ Overlaps Attribute.placeholderEndings a b := by
  obtain ⟨-, hvalues⟩ := fields_queryParams h
  generalize keyAttributes primaryKey ++ d.filterAttributes = as at hnodup hvalues
  rw [← nodup_bindings_iff hnodup]
  constructor
  · rintro ⟨-, values, hfield, hlen⟩
    rw [hvalues] at hfield
    obtain rfl := map.inj (Option.some.inj hfield)
    exact length_bindingMap_iff.1 hlen
  · intro hdistinct
    refine ⟨?_, bindingMap as, hvalues, length_bindingMap_iff.2 hdistinct⟩
    intro a ha p hp
    rw [Entries.boundTo, hvalues]
    refine valueOf_of_forall ha hp fun b hb q hq heq => ?_
    have hpmem := List.mem_flatMap_of_mem ha hp
    have hqmem := List.mem_flatMap_of_mem hb hq
    rw [List.inj_on_of_nodup_map hdistinct hqmem hpmem heq]

end Requests

/-- Names may go on with numbers that are no index: two items take `:tag0` and `:tag1`, and neither
`tag2` nor `tags` is among these. -/
theorem bindsAll_beside_tag : ∃ params,
    (queryParams .standard (Record.toValue [("pk", str "A")]) (str "t")
      { Descriptor.plain 10 with
        filters := [⟨"tag", [("condition", map [(str "value", list [str "x", str "y"]),
          (str "operator", str "in")])]⟩, ⟨"tag2", [("condition", str "z")]⟩,
          ⟨"tags", [("condition", str "w")]⟩] }).result = .ok params ∧
      params.BindsAll [Attribute.bare (str "A") (str "pk"),
        { Attribute.bare (list [str "x", str "y"]) (str "tag") with operator := str "in" },
        Attribute.bare (str "z") (str "tag2"), Attribute.bare (str "w") (str "tags")] := by
  have hnodup : ([Attribute.bare (str "A") (str "pk"),
      { Attribute.bare (list [str "x", str "y"]) (str "tag") with operator := str "in" },
      Attribute.bare (str "z") (str "tag2"), Attribute.bare (str "w") (str "tags")].map
        fun a => a.name.text).Nodup := by decide
  have htexts : [Attribute.bare (str "A") (str "pk"),
      { Attribute.bare (list [str "x", str "y"]) (str "tag") with operator := str "in" },
      Attribute.bare (str "z") (str "tag2"), Attribute.bare (str "w") (str "tags")].map
        (Attribute.texts Attribute.placeholderEndings)
          = [["pk"], ["tag0", "tag1"], ["tag2"], ["tags"]] := rfl
  refine ⟨_, rfl, ?_⟩
  exact (@bindsAll_queryParams_iff (Record.toValue [("pk", str "A")]) (str "t")
    { Descriptor.plain 10 with
      filters := [⟨"tag", [("condition", map [(str "value", list [str "x", str "y"]),
        (str "operator", str "in")])]⟩, ⟨"tag2", [("condition", str "z")]⟩,
        ⟨"tags", [("condition", str "w")]⟩] } _ hnodup rfl).2
    (not_overlaps_of_texts hnodup htexts (by simp))

/-- A condition named `tag0` takes the placeholder of the first item of a condition named `tag`, and
is compared with that item. -/
theorem not_bindsAll_first_item : ∃ d params,
    Descriptor.check 10 [(str "rawFilters", map [
      (str "tag0", map [(str "condition", map [(str "value", str "x")])]),
      (str "tag", map [(str "condition", map [(str "value", list [str "y"]),
        (str "operator", str "in")])])])] = .ok d ∧
      ((keyAttributes (Record.toValue [("pk", str "A")]) ++ d.filterAttributes).map
        fun a => a.name.text).Nodup ∧
      (queryParams .standard (Record.toValue [("pk", str "A")]) (str "t") d).result = .ok params ∧
      ¬ params.BindsAll (keyAttributes (Record.toValue [("pk", str "A")])
        ++ d.filterAttributes) := by
  refine ⟨_, _, rfl, by decide, rfl, ?_⟩
  intro hbinds
  have hbound := hbinds.bound (Attribute.bare (str "x") (str "tag0"))
    (List.mem_cons_of_mem _ List.mem_cons_self) ("tag0", str "x") List.mem_cons_self
  have hother : some (str "y") = some (str "x") := hbound
  exact absurd hother (by simp)

end KeysetQuery

import KeysetQuery.Proofs.Query.Closed
import KeysetQuery.Proofs.Query.KeyPlaceholders

/-!
# Empty parts of a key

An empty part of a key is no condition.  But a part is tested before it is known to be a bare value
or a record that carries one, and so a record with an empty value is taken for a part that was given.

* `Value.isHollow` — a record with an empty value;
* `keyAttributes_given_iff` — only for such a record a condition of the key asks for an empty value;
* `boundTo_given_iff` — when the placeholders of the key hold no empty value;
* `keyParts_given_iff` — both, for a compiled query;
* `boundTo_given` — keys and filters that keep empty values out.
-/

namespace KeysetQuery

open Value Entries

/-! ### Parts -/

/-- Whether a part of a key is a record with an empty value. -/
def Value.isHollow : Value → Bool
  | map es => ((last? es "value").map Value.isEmpty).getD false
  | _ => false

/-- A hollow part is not empty itself. -/
theorem isEmpty_of_isHollow {raw : Value} (h : raw.isHollow = true) : raw.isEmpty = false := by
  cases raw with
  | map es => rfl
  | _ => exact absurd h Bool.false_ne_true

/-- The condition on a part that is not empty asks for an empty value exactly if the part is
hollow. -/
theorem isEmpty_value_ofRaw {raw : Value} (h : raw.isEmpty = false) (name : Value) :
    (Attribute.ofRaw raw name).value.isEmpty = raw.isHollow := by
  cases raw with
  | map es =>
    rw [Attribute.ofRaw, isHollow]
    cases last? es "value" <;> rfl
  | _ => exact h

/-- No condition of a key asks for an empty value exactly if no part of the key is hollow. -/
theorem keyAttributes_given_iff {key : Entries} :
    (∀ a ∈ keyAttributes (map key), a.value.isEmpty = false) ↔
      ∀ e ∈ key, e.2.isHollow = false := by
  rw [keyAttributes, List.forall_mem_map]
  constructor
  · intro hgiven e he
    cases hhollow : e.2.isHollow with
    | false => rfl
    | true =>
      have hkept := isEmpty_of_isHollow hhollow
      have hmem : e ∈ key.filter fun e => !e.2.isEmpty := List.mem_filter.2 ⟨he, by rw [hkept]; rfl⟩
      rw [← hhollow, ← isEmpty_value_ofRaw hkept e.1, hgiven e hmem]
  · intro hgiven e he
    obtain ⟨hmem, hkept⟩ := List.mem_filter.1 he
    rw [isEmpty_value_ofRaw (by simpa using hkept), hgiven e hmem]

/-- An empty value behind a placeholder of a condition that asks for none is an item of a
sequence. -/
theorem mem_items_of_isEmpty {a : Attribute} (ha : a.value.isEmpty = false) {p : String × Value}
    (hp : p ∈ a.bindings) (hempty : p.2.isEmpty = true) :
    ∃ vs, a.value.items? = some vs ∧ p.2 ∈ vs := by
  rw [Attribute.bindings] at hp
  split at hp
  · exact absurd hp List.not_mem_nil
  · split at hp
    · rename_i vs hvs
      have hsnd := List.mem_map_of_mem (f := Prod.snd) hp
      rw [Attribute.map_snd_numbered] at hsnd
      exact ⟨vs, hvs, hsnd⟩
    · rw [List.mem_singleton.1 hp, ha] at hempty
      exact absurd hempty Bool.false_ne_true

/-! ### Placeholders -/

theorem mem_of_writtenLast {α : Type} {ps : List (String × α)} {name : String} {v : α}
    (h : writtenLast ps name = some v) : (name, v) ∈ ps := by
  obtain ⟨before, after, hps, -⟩ := List.lookup_eq_some_iff.1 h
  exact List.mem_reverse.1 (hps ▸ List.mem_append_right _ List.mem_cons_self)

/-- A list says something last about each of its names. -/
theorem exists_writtenLast {α : Type} {ps : List (String × α)} {p : String × α} (hp : p ∈ ps) :
    ∃ v, writtenLast ps p.1 = some v := by
  refine Option.ne_none_iff_exists'.1 fun hnone => ?_
  have hdiffers := List.lookup_eq_none_iff.1 hnone p (List.mem_reverse.2 hp)
  simp at hdiffers

section Requests

variable {key params : Entries} {table : Value} {d : Descriptor}

/-- The key expression of a compiled query has one clause for each part of the key that is not
empty. -/
theorem expression_key (h : (queryParams .standard (map key) table d).result = .ok params) :
    params.expression "KeyConditionExpression"
      = (Bundle.block ⟨"AND", keyAttributes (map key)⟩).text.toList := by
  obtain ⟨-, -, keys, block, -, -, -, -, hkeys, hblock, -, -, rfl⟩ := queryParams_eq_ok h
  obtain ⟨hnamed, hkeys⟩ := keyConditions_eq_ok hkeys
  obtain ⟨rfl, -⟩ := ofConditions_eq_ok hnamed hblock
  rw [expression_members_keyText, hkeys]
  rfl

/-- Behind a placeholder of the key stands a value that is not empty exactly if what the filter
writes last under it, if anything, is not empty, and else what the key does. -/
theorem boundTo_given_iff (h : (queryParams .standard (map key) table d).result = .ok params)
    {p : String × Value} (hp : p ∈ (keyAttributes (map key)).flatMap Attribute.bindings) :
    (∃ v, params.boundTo p.1 = some v ∧ v.isEmpty = false) ↔
      (∀ v, writtenLast (d.filterAttributes.flatMap Attribute.bindings) p.1 = some v →
        v.isEmpty = false) ∧
      (writtenLast (d.filterAttributes.flatMap Attribute.bindings) p.1 = none → ∀ v,
        writtenLast ((keyAttributes (map key)).flatMap Attribute.bindings) p.1 = some v →
          v.isEmpty = false) := by
  obtain ⟨w, hw⟩ := exists_writtenLast hp
  rw [(boundTo_and_namedBy_queryParams h p.1).1, writtenLast_append, hw]
  cases writtenLast (d.filterAttributes.flatMap Attribute.bindings) p.1 <;> simp

/-- No empty value stands behind a placeholder of the key if no part of the key is hollow, no
sequence in it has an empty item, and the filter writes no empty value there. -/
theorem boundTo_given (h : (queryParams .standard (map key) table d).result = .ok params)
    (hgiven : ∀ e ∈ key, e.2.isHollow = false)
    (hitems : ∀ a ∈ keyAttributes (map key), ∀ vs, a.value.items? = some vs →
      ∀ v ∈ vs, v.isEmpty = false)
    {p : String × Value} (hp : p ∈ (keyAttributes (map key)).flatMap Attribute.bindings)
    (hfilter : ∀ v, writtenLast (d.filterAttributes.flatMap Attribute.bindings) p.1 = some v →
      v.isEmpty = false) :
    ∃ v, params.boundTo p.1 = some v ∧ v.isEmpty = false := by
  refine (boundTo_given_iff h hp).2 ⟨hfilter, fun _ v hv => ?_⟩
  obtain ⟨a, ha, hbinding⟩ := List.mem_flatMap.1 (mem_of_writtenLast hv)
  cases hempty : v.isEmpty with
  | false => rfl
  | true =>
    obtain ⟨vs, hvs, hmem⟩ :=
      mem_items_of_isEmpty (keyAttributes_given_iff.2 hgiven a ha) hbinding hempty
    rw [← hempty, hitems a ha vs hvs v hmem]

/-- The key expression of a compiled query has one clause for each part of the key that is not
empty.  None of the clauses asks for an empty value, and behind no placeholder of the key stands one,
exactly if no part of the key is hollow and what is written last under each of these placeholders is
not empty: by the filter, or else by the key. -/
theorem keyParts_given_iff (h : (queryParams .standard (map key) table d).result = .ok params) :
    params.expression "KeyConditionExpression"
        = (Bundle.block ⟨"AND", keyAttributes (map key)⟩).text.toList ∧
      (((∀ a ∈ keyAttributes (map key), a.value.isEmpty = false) ∧
          ∀ p ∈ (keyAttributes (map key)).flatMap Attribute.bindings,
            ∃ v, params.boundTo p.1 = some v ∧ v.isEmpty = false) ↔
        (∀ e ∈ key, e.2.isHollow = false) ∧
          ∀ p ∈ (keyAttributes (map key)).flatMap Attribute.bindings,
            (∀ v, writtenLast (d.filterAttributes.flatMap Attribute.bindings) p.1 = some v →
              v.isEmpty = false) ∧
            (writtenLast (d.filterAttributes.flatMap Attribute.bindings) p.1 = none → ∀ v,
              writtenLast ((keyAttributes (map key)).flatMap Attribute.bindings) p.1 = some v →
                v.isEmpty = false)) :=
  ⟨expression_key h,
    and_congr keyAttributes_given_iff (forall₂_congr fun _ hp => boundTo_given_iff h hp)⟩

end Requests

/-- A key of which one part is empty and one is a record. -/
def rangedKey : Entries :=
  [(str "pk", str "A"), (str "blank", str ""),
    (str "sk", map [(str "value", list [str "x", str "y"]), (str "operator", str "between")])]

/-- A filter that writes over a part of the key. -/
def ownerFilter : Descriptor :=
  { Descriptor.plain 10 with filters := [⟨"pk", [("condition",
    map [(str "path", str "owner"), (str "value", str "B")])]⟩] }

/-- The part that is empty is left out, and no empty value is written for the others. -/
theorem keyParts_given_ranged : ∃ params,
    (queryParams .standard (map rangedKey) (str "t") ownerFilter).result = .ok params ∧
      params.expression "KeyConditionExpression"
        = "((#pk = :pk) AND (#sk BETWEEN :sk0 AND :sk1))".toList ∧
      ∀ p ∈ (keyAttributes (map rangedKey)).flatMap Attribute.bindings,
        ∃ v, params.boundTo p.1 = some v ∧ v.isEmpty = false := by
  refine ⟨_, rfl, by decide +kernel, ?_⟩
  refine ((@keyParts_given_iff rangedKey _ (str "t") ownerFilter rfl).2.2 ⟨by decide, ?_⟩).2
  have hkey : (keyAttributes (map rangedKey)).flatMap Attribute.bindings
      = [("pk", str "A"), ("sk0", str "x"), ("sk1", str "y")] := rfl
  have hfilter : ownerFilter.filterAttributes.flatMap Attribute.bindings = [("pk", str "B")] := rfl
  rw [hkey, hfilter]
  simp [writtenLast, List.lookup_cons, Value.isEmpty]

/-- An empty sort key is left out, but in a record it is asked for. -/
theorem not_keyParts_given_hollow : ∃ params,
    (queryParams .standard (map [(str "pk", str "A"), (str "sk", map [(str "value", str "")])])
      (str "t") (Descriptor.plain 10)).result = .ok params ∧
      params.expression "KeyConditionExpression" = "((#pk = :pk) AND (#sk = :sk))".toList ∧
      params.boundTo "sk" = some (str "") :=
  ⟨_, rfl, by decide +kernel, rfl⟩

end KeysetQuery

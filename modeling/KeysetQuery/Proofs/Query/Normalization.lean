import KeysetQuery.Expression.Clause
import KeysetQuery.Expression.Placeholder
import KeysetQuery.Proofs.Query.Canonical

/-!
# The usual normalizer as a gate

The usual normalizer stands in front of everything that is compiled.  It looks at the name it is
given and at the value of the record; a name in the record wins afterwards, unseen.

* `Value.HasKeysOnce` — maps as they come, with one entry for each key;
* `Normalizer.canonical_of_given` — all that the usual normalizer does under a name that is given;
* `Normalizer.IsGated` — what comes through has a name and a value, and what does not lacks one;
* `Normalizer.isGated_iff` — when that is so;
* `Normalizer.condition_canonical` — a condition in canonical form comes through as it is, under any
  name, and is compiled to the same.
-/

namespace KeysetQuery

open Value Entries

/-- A map has each key once. -/
def Value.HasKeysOnce (v : Value) : Prop := ∀ es, v = map es → Distinct es

namespace Normalizer

variable {raw name : Value} {es : Entries}

/-! ### Records -/

theorem distinct_record (h : raw.HasKeysOnce) : Distinct (RawAttribute.ofValue raw).record := by
  cases raw with
  | map es =>
    rw [RawAttribute.ofValue]
    split
    · exact h es rfl
    · exact distinct_singleton _
  | _ => exact distinct_singleton _

/-- A record carries the value that the raw condition says. -/
theorem field?_record_value (h : raw.HasKeysOnce) (name : Value) :
    field? (RawAttribute.ofValue raw).record "value" = some (Attribute.ofRaw raw name).value := by
  obtain ⟨v, hv⟩ := Option.isSome_iff_exists.1 (RawAttribute.record_ofValue raw)
  rw [Attribute.ofRaw_eq, last?_eq_field? (distinct_record h) "value", hv]
  rfl

/-- What the canonical record holds: the parts of the raw record, and the given name if that has
none. -/
theorem field?_merge_record (h : raw.HasKeysOnce) (name : Value) (t : String) :
    field? (merge [(str "name", name)] (RawAttribute.ofValue raw).record) t
      = (field? (RawAttribute.ofValue raw).record t).or
        (if t = "name" then some name else none) := by
  rw [field?, get?_merge_text, get?_cons_text, get?_nil, ← last?_eq_field? (distinct_record h)]
  simp only [last?, eq_comm]

theorem field?_canonical_value (h : raw.HasKeysOnce) (name : Value) :
    field? (merge [(str "name", name)] (RawAttribute.ofValue raw).record) "value"
      = some (Attribute.ofRaw raw name).value := by
  rw [field?_merge_record h, field?_record_value h name]
  rfl

/-! ### What comes through -/

/-- Under a name that is given, a record without a value is refused, in words if the name can be put
into them, and every other one comes through. -/
theorem canonical_of_given (h : raw.HasKeysOnce) (hname : name ≠ null) : canonical raw name =
      if (Attribute.ofRaw raw name).value.isMissing then
        name.requireText >>= fun _ => .error (.invalid (.missingValue name))
      else .ok (merge [(str "name", name)] (RawAttribute.ofValue raw).record) := by
  have hgiven : ¬ name.isNull = true := fun hnull => hname (isNull_iff.1 hnull)
  simp only [canonical, if_neg hgiven, field?_record_value h name, Option.getD_some]

theorem condition_eq (raw name : Value) : standard.condition raw name
      = (canonical raw name).map fun record =>
          pick conditionFields (merge [(str "operator", Attribute.defaultOperator)] record) :=
  bind_ok_eq_map _ _

/-- A condition holds what the record of its attribute holds, but for the operator. -/
theorem field?_pick_condition {record : Entries} (h : Distinct record) {t : String}
    (ht : t ∈ conditionFields) (hoperator : t ≠ "operator") :
    field? (pick conditionFields (merge [(str "operator", Attribute.defaultOperator)] record)) t
      = field? record t := by
  rw [Attribute.field?_pick, if_pos ht, field?, get?_merge_text, get?_cons_text,
    if_neg hoperator.symm, get?_nil, Option.or_none]
  exact last?_eq_field? h t

/-! ### The gate -/

theorem ne_null_of_canonical (hes : canonical raw name = .ok es) : name ≠ null := by
  rintro rfl
  cases hes

/-- What comes through has a value. -/
theorem value_of_canonical (h : raw.HasKeysOnce) (hes : canonical raw name = .ok es) :
    ∃ v, field? es "value" = some v ∧ v ≠ missing := by
  rw [canonical_of_given h (ne_null_of_canonical hes)] at hes
  split at hes
  · obtain ⟨_, -, ⟨⟩⟩ := bind_eq_ok.1 hes
  · rename_i hthere
    rw [← Except.ok.inj hes]
    exact ⟨_, field?_canonical_value h name, fun hmissing => hthere (isMissing_iff.2 hmissing)⟩

theorem value_of_condition (h : raw.HasKeysOnce) (hes : standard.condition raw name = .ok es) :
    ∃ v, field? es "value" = some v ∧ v ≠ missing := by
  obtain ⟨record, hrecord, rfl⟩ := Attribute.exists_record_of_condition hes
  rw [field?_pick_condition (Attribute.distinct_of_canonical hrecord) (by decide) (by decide)]
  exact value_of_canonical h hrecord

/-- Picked entries have the names that are picked, in their order. -/
theorem keys_pick_sublist (names : List String) (es : Entries) :
    (keys (pick names es)).Sublist (names.map str) := by
  induction names with
  | nil => exact List.Sublist.refl _
  | cons t names ih =>
    cases ht : field? es t with
    | none =>
      have hpick : pick (t :: names) es = pick names es := by simp [pick, ht]
      rw [hpick]
      exact ih.cons _
    | some v =>
      have hpick : pick (t :: names) es = (str t, v) :: pick names es := by simp [pick, ht]
      rw [hpick]
      exact ih.cons_cons _

theorem pick_congr {names : List String} {fs : Entries}
    (h : ∀ t ∈ names, field? es t = field? fs t) : pick names es = pick names fs :=
  List.filterMap_congr fun t ht => by rw [h t ht]

/-- What is picked is determined by what it holds. -/
theorem pick_eq_of_field? {names : List String} {fs : Entries}
    (h : ∀ t ∈ names, field? (pick names es) t = field? (pick names fs) t) :
    pick names es = pick names fs := by
  refine pick_congr fun t ht => ?_
  have hfield := h t ht
  rwa [Attribute.field?_pick, Attribute.field?_pick, if_pos ht, if_pos ht] at hfield

variable {c : Entries}

/-- A condition in canonical form gives its name and its operator. -/
theorem field?_condition_ne_none (hc : standard.condition raw name = .ok c) {t : String}
    (ht : t = "name" ∨ t = "operator") : field? c t ≠ none := by
  rcases ht with rfl | rfl
  · rw [Attribute.field?_of_condition hc (by decide)]
    cases last? (RawAttribute.ofValue raw).record "name" <;> simp
  · rw [Attribute.field?_of_condition hc (by decide)]
    cases last? (RawAttribute.ofValue raw).record "operator" <;> simp

theorem distinct_condition (hc : standard.condition raw name = .ok c) : Distinct c := by
  obtain ⟨_, -, rfl⟩ := Attribute.exists_record_of_condition hc
  exact List.Pairwise.sublist (keys_pick_sublist conditionFields _) (by decide)

theorem record_condition (h : raw.HasKeysOnce) (hc : standard.condition raw name = .ok c) :
    (RawAttribute.ofValue (map c)).record = c := by
  obtain ⟨v, hv, -⟩ := value_of_condition h hc
  have hhas : has c (str "value") = true := Option.isSome_iff_exists.2 ⟨v, hv⟩
  rw [RawAttribute.ofValue, if_pos hhas]
  rfl

/-- A condition in canonical form comes through. -/
theorem exists_condition_again (h : raw.HasKeysOnce) (hc : standard.condition raw name = .ok c)
    {other : Value} (hother : other ≠ null) : ∃ d, standard.condition (map c) other = .ok d := by
  have hkeys : (map c).HasKeysOnce := by
    rintro es ⟨⟩
    exact distinct_condition hc
  obtain ⟨v, hv, hvalue⟩ := value_of_condition h hc
  have hrecord := field?_record_value hkeys other
  rw [record_condition h hc, hv] at hrecord
  have hthere : ¬ (Attribute.ofRaw (map c) other).value.isMissing = true := by
    rw [← Option.some.inj hrecord, isMissing_iff]
    exact hvalue
  rw [condition_eq, canonical_of_given hkeys hother, if_neg hthere]
  exact ⟨_, rfl⟩

/-- Neither the given name nor the usual operator replaces what a condition in canonical form
says. -/
theorem condition_again (h : raw.HasKeysOnce) (hc : standard.condition raw name = .ok c)
    {other : Value} (hother : other ≠ null) : standard.condition (map c) other = .ok c := by
  obtain ⟨d, hd⟩ := exists_condition_again h hc hother
  have hfields : ∀ t ∈ conditionFields, field? d t = field? c t := by
    intro t ht
    rw [Attribute.field?_of_condition hd ht, record_condition h hc,
      last?_eq_field? (distinct_condition hc)]
    cases hfield : field? c t with
    | some v => rfl
    | none =>
      have hname : t ≠ "name" := fun h => field?_condition_ne_none hc (.inl h) hfield
      have hoperator : t ≠ "operator" := fun h => field?_condition_ne_none hc (.inr h) hfield
      rw [if_neg hname, if_neg hoperator]
      rfl
  obtain ⟨_, -, rfl⟩ := Attribute.exists_record_of_condition hc
  obtain ⟨_, -, rfl⟩ := Attribute.exists_record_of_condition hd
  rw [hd, pick_eq_of_field? hfields]

/-- A condition in canonical form comes through the usual normalizer as it is, whatever name is
given, with its entries in their order.  So it is compiled to the same clause, aliases and
placeholders as before. -/
theorem condition_canonical (h : raw.HasKeysOnce) (hc : standard.condition raw name = .ok c)
    {other : Value} (hother : other ≠ null) :
    standard.condition (map c) other = .ok c ∧
    (keys c).Sublist (conditionFields.map str) ∧
    (standard.condition (map c) other >>= fun d => (Clause.read (map d)).result)
      = (Clause.read (map c)).result ∧
    ∀ mark, (standard.condition (map c) other >>= fun d => placeholderMap (list [map d]) mark)
      = placeholderMap (list [map c]) mark := by
  have hagain := condition_again h hc hother
  rw [hagain]
  obtain ⟨_, -, rfl⟩ := Attribute.exists_record_of_condition hc
  exact ⟨rfl, keys_pick_sublist conditionFields _, rfl, fun mark => rfl⟩

/-- A map that has no value is the value, also if it holds one further down. -/
theorem condition_canonical_nested :
    standard.condition (map [(str "name", str "a"), (str "operator", str "="),
        (str "value", map [(str "path", map [(str "value", int 1)])])]) (str "b")
      = .ok [(str "name", str "a"), (str "operator", str "="),
        (str "value", map [(str "path", map [(str "value", int 1)])])] := by
  have hraw : (map [(str "path", map [(str "value", int 1)])]).HasKeysOnce := by
    rintro es ⟨⟩
    exact distinct_singleton _
  have hc : standard.condition (map [(str "path", map [(str "value", int 1)])]) (str "a") = .ok _ :=
    rfl
  exact (condition_canonical hraw hc (show str "b" ≠ null by simp)).1

end Normalizer

end KeysetQuery

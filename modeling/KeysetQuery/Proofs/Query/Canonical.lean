import KeysetQuery.Attribute.Normalizer
import KeysetQuery.Proofs.Outcome
import KeysetQuery.Proofs.Value.Entries

/-!
# Raw conditions

* `Attribute.ofRaw` — what a raw condition says about an attribute, without any normalization;
* `Attribute.ofCanonical` — what a canonical record says;
* `ofCanonical_of_condition` — the usual normalizer keeps what a raw condition says.
-/

namespace KeysetQuery

open Value Entries

namespace Attribute

/-! ### What raw conditions say -/

/-- The attribute of a name has a value. -/
def bare (v name : Value) : Attribute where
  name := name
  path := null
  operator := str "="
  value := v
  memberOf := null
  negate := null

/-- The attribute that a raw condition under a name is about.  A map with an entry `value` is a
record, and its own name wins; anything else is the value that the attribute has. -/
def ofRaw (raw name : Value) : Attribute :=
  match raw with
  | map es =>
    match last? es "value" with
    | some v =>
      { name := (last? es "name").getD name
        path := (last? es "path").getD null
        operator := (last? es "operator").getD (str "=")
        value := v
        memberOf := (last? es "memberOf").getD null
        negate := (last? es "negate").getD null }
    | none => bare (map es) name
  | v => bare v name

/-- The attribute that a canonical record is about. -/
def ofCanonical (es : Entries) : Attribute := ofEntries ((field? es "name").getD null) es

/-- A canonical record gives the name of its attribute. -/
def IsNamed (es : Entries) : Prop := (field? es "name").isSome = true

theorem read_of_isNamed {es : Entries} (h : IsNamed es) : read (map es) = .ok (ofCanonical es) := by
  obtain ⟨name, hname⟩ := Option.isSome_iff_exists.1 h
  rw [read_map hname, ofCanonical, hname]
  rfl

/-! ### The usual normalizer -/

/-- Picking entries keeps those that are asked for. -/
theorem field?_pick (names : List String) (es : Entries) (t : String) :
    field? (Normalizer.pick names es) t = if t ∈ names then field? es t else none := by
  induction names with
  | nil => rfl
  | cons n names ih =>
    cases hn : field? es n with
    | none =>
      have hpick : Normalizer.pick (n :: names) es = Normalizer.pick names es := by
        simp [Normalizer.pick, hn]
      rw [hpick, ih]
      by_cases ht : t = n
      · subst ht
        simp [hn]
      · simp [ht]
    | some v =>
      have hpick : Normalizer.pick (n :: names) es = (str n, v) :: Normalizer.pick names es := by
        simp [Normalizer.pick, hn]
      rw [hpick, field?, get?_cons_text]
      by_cases ht : t = n
      · subst ht
        simp [hn]
      · rw [if_neg (Ne.symm ht)]
        show field? (Normalizer.pick names es) t = _
        rw [ih]
        simp [ht]

/-- The record that the usual normalizer makes: the name is given, and the parts of the raw record
win over it. -/
theorem canonical_eq_ok {raw name : Value} {es : Entries}
    (h : Normalizer.canonical raw name = .ok es) :
    es = merge [(str "name", name)] (RawAttribute.ofValue raw).record := by
  unfold Normalizer.canonical at h
  split at h
  · exact absurd h (by simp)
  · simp only at h
    split at h
    · cases hname : name.requireText with
      | error f => simp [hname, bind, Except.bind] at h
      | ok u => simp [hname, bind, Except.bind] at h
    · exact (Except.ok.inj h).symm

theorem distinct_of_canonical {raw name : Value} {es : Entries}
    (h : Normalizer.canonical raw name = .ok es) : Distinct es := by
  rw [canonical_eq_ok h]
  exact distinct_merge (distinct_singleton _) _

/-- A condition is made of the record of its attribute. -/
theorem exists_record_of_condition {raw name : Value} {es : Entries}
    (h : Normalizer.standard.condition raw name = .ok es) :
    ∃ record, Normalizer.canonical raw name = .ok record ∧
      es = Normalizer.pick Normalizer.conditionFields
        (merge [(str "operator", Attribute.defaultOperator)] record) := by
  obtain ⟨record, hrecord, hes⟩ := bind_eq_ok.1 h
  exact ⟨record, hrecord, (Except.ok.inj hes).symm⟩

/-- What the canonical form of a condition holds under a field: what the raw record says last, or
else what it says by default. -/
theorem field?_of_condition {raw name : Value} {es : Entries}
    (h : Normalizer.standard.condition raw name = .ok es) {t : String}
    (ht : t ∈ Normalizer.conditionFields) :
    field? es t = ((last? (RawAttribute.ofValue raw).record t).or
      (if t = "name" then some name else none)).or
        (if t = "operator" then some (str "=") else none) := by
  obtain ⟨record, hrecord, rfl⟩ := exists_record_of_condition h
  have hdistinct := distinct_of_canonical hrecord
  rw [field?_pick, if_pos ht, field?, get?_merge_text]
  have hlast : get? record.reverse (str t) = (last? (RawAttribute.ofValue raw).record t).or
      (if t = "name" then some name else none) := by
    have hfield : get? record.reverse (str t) = field? record t := last?_eq_field? hdistinct t
    rw [hfield, field?, canonical_eq_ok hrecord, get?_merge_text, get?_cons_text, get?_nil]
    simp only [last?, eq_comm]
  rw [hlast, get?_cons_text, get?_nil]
  simp only [eq_comm, Attribute.defaultOperator]

/-- A raw condition says what its record says last. -/
theorem ofRaw_eq (raw name : Value) :
    ofRaw raw name =
      { name := (last? (RawAttribute.ofValue raw).record "name").getD name
        path := (last? (RawAttribute.ofValue raw).record "path").getD null
        operator := (last? (RawAttribute.ofValue raw).record "operator").getD (str "=")
        value := (last? (RawAttribute.ofValue raw).record "value").getD null
        memberOf := (last? (RawAttribute.ofValue raw).record "memberOf").getD null
        negate := (last? (RawAttribute.ofValue raw).record "negate").getD null } := by
  cases raw with
  | map es =>
    have hlast : (last? es "value").isSome = Entries.has es (str "value") := by
      cases hget : get? es (str "value") with
      | none =>
        cases hrev : get? es.reverse (str "value") with
        | none => simp [last?, hrev, Entries.has, hget]
        | some v =>
          exact absurd hget (get?_text_ne_none (List.mem_reverse.1 (mem_of_get?_text hrev)))
      | some v =>
        have hrev := get?_text_ne_none (List.mem_reverse.2 (mem_of_get?_text hget))
        obtain ⟨w, hw⟩ := Option.ne_none_iff_exists'.1 hrev
        simp [last?, hw, Entries.has, hget]
    cases hv : last? es "value" with
    | none =>
      have hhas : Entries.has es (str "value") = false := by rw [← hlast, hv]; rfl
      simp only [ofRaw, hv]
      simp [bare, RawAttribute.ofValue, hhas, RawAttribute.record, last?, get?]
    | some v =>
      have hhas : Entries.has es (str "value") = true := by rw [← hlast, hv]; rfl
      simp [ofRaw, hv, RawAttribute.ofValue, hhas, RawAttribute.record]
  | _ => simp [ofRaw, bare, RawAttribute.ofValue, RawAttribute.record, last?, get?]

/-- The usual normalizer keeps what a raw condition says. -/
theorem ofCanonical_of_condition {raw name : Value} {es : Entries}
    (h : Normalizer.standard.condition raw name = .ok es) :
    IsNamed es ∧ ofCanonical es = ofRaw raw name := by
  have hname := field?_of_condition h (t := "name") (by simp [Normalizer.conditionFields])
  have hpath := field?_of_condition h (t := "path") (by simp [Normalizer.conditionFields])
  have hop := field?_of_condition h (t := "operator") (by simp [Normalizer.conditionFields])
  have hvalue := field?_of_condition h (t := "value") (by simp [Normalizer.conditionFields])
  have hgroup := field?_of_condition h (t := "memberOf") (by simp [Normalizer.conditionFields])
  have hneg := field?_of_condition h (t := "negate") (by simp [Normalizer.conditionFields])
  simp only [String.reduceEq, if_true, if_false, Option.or_none]
    at hname hpath hop hvalue hgroup hneg
  constructor
  · rw [IsNamed, hname]
    cases last? (RawAttribute.ofValue raw).record "name" <;> rfl
  · have hor : ∀ (o : Option Value) (v w : Value), (o.or (some v)).getD w = o.getD v := by
      intro o v w
      cases o <;> rfl
    rw [ofRaw_eq]
    simp only [ofCanonical, ofEntries, hname, hpath, hop, hvalue, hgroup, hneg, hor]

end Attribute

end KeysetQuery

import KeysetQuery.Proofs.Expression.Marks
import KeysetQuery.Proofs.Expression.Meaning
import KeysetQuery.Proofs.Expression.Overlaps

/-!
# What clauses use and what maps define

The clause of a condition names its placeholders by the operator, the map of values by the value.

* `Entries.IsKeyedBy` — the keys of a map are given words behind a mark;
* `isKeyedBy_markedMap` — the keys of the maps of attributes;
* `Attribute.Fits` — the value of a condition has the shape that its operator asks for;
* `mem_operands_iff` — clause and map name the same placeholders exactly if it has;
* `isKeyedBy_words_iff` — the same for the text of the clause of a condition that is read from a map.
-/

namespace KeysetQuery

open Value

/-! ### Keys of maps -/

/-- The keys of a map are given words, each behind a mark. -/
def Entries.IsKeyedBy (m : Mark) (es : Entries) (ws : List String) : Prop :=
  ∀ k, k ∈ Entries.keys es ↔ ∃ w ∈ ws, k = str (m.text ++ w)

/-- The texts that attributes have behind a mark: the aliases of their paths, or the placeholders of
their values. -/
def Attribute.behind (a : Attribute) : Mark → List String
  | .name => a.aliases.map Prod.fst
  | .value => a.bindings.map Prod.fst

section Keys

variable {m : Mark} {es : Entries} {ws us : List String}

theorem isKeyedBy_ofList (h : Entries.keys es = ws.map fun w => str (m.text ++ w)) :
    (Entries.ofList es).IsKeyedBy m ws := by
  have htext : ∀ k ∈ Entries.keys es, ∃ t, k = str t := by
    intro k hk
    rw [h] at hk
    obtain ⟨w, -, rfl⟩ := List.mem_map.1 hk
    exact ⟨_, rfl⟩
  intro k
  rw [Entries.mem_keys_ofList_iff htext, h, List.mem_map]
  exact exists_congr fun w => and_congr_right fun _ => eq_comm

/-- The map of attributes for a mark has what they have behind the mark as its keys. -/
theorem isKeyedBy_markedMap (as : List Attribute) (m : Mark) :
    (markedMap as m).IsKeyedBy m (as.flatMap fun a => a.behind m) := by
  cases m with
  | name =>
    refine isKeyedBy_ofList ?_
    rw [keys_aliasEntries, List.map_flatMap]
    rfl
  | value =>
    refine isKeyedBy_ofList ?_
    rw [keys_bindingEntries, List.map_flatMap]
    rfl

/-- A map that is keyed by some words is keyed by exactly the lists with the same members. -/
theorem Entries.IsKeyedBy.iff (h : es.IsKeyedBy m ws) :
    es.IsKeyedBy m us ↔ ∀ w, w ∈ us ↔ w ∈ ws := by
  have hmem : ∀ {vs : List String} {w : String},
      (∃ v ∈ vs, str (m.text ++ w) = str (m.text ++ v)) ↔ w ∈ vs := by
    intro vs w
    constructor
    · rintro ⟨v, hv, heq⟩
      rwa [mark_append_injective (str.inj heq)]
    · intro hw
      exact ⟨w, hw, rfl⟩
  constructor
  · intro hus w
    rw [← hmem, ← hus, h, hmem]
  · intro hsame k
    rw [h]
    exact exists_congr fun w => and_congr_left fun _ => (hsame w).symm

end Keys

/-! ### Shapes of values -/

/-- The value of a condition has the shape that its operator asks for: no sequence where one
placeholder is written, two items for a range, and anything that is accepted for the others. -/
def Attribute.Fits (a : Attribute) : Prop :=
  (a.operator.text ∈ ["=", "<", ">", "<=", ">=", "!=", "contains", "startswith"] ∧
      a.value.isSequence = false) ∨
    a.operator.text ∈ ["in", "notin", "exists"] ∨
    (a.operator.text = "between" ∧ a.value.items?.map List.length = some 2)

instance (a : Attribute) : Decidable a.Fits := inferInstanceAs (Decidable (_ ∨ _))

namespace Operator

/-- The shape that an operator asks for. -/
def Takes (v : Value) : Operator → Prop
  | between => v.items?.map List.length = some 2
  | oneOf | noneOf | .exists => True
  | _ => v.isSequence = false

theorem fits_iff {a : Attribute} {s : String} {op : Operator} (hs : a.operator = str s)
    (hop : (s, op) ∈ names) : a.Fits ↔ op.Takes a.value := by
  obtain rfl := eq_name hop
  have htext : a.operator.text = op.name := by rw [hs]; rfl
  rw [Attribute.Fits, htext]
  cases op with
  | compare c => cases c <;> simp [Takes, name, Comparison.sign]
  | _ => simp [Takes, name]

end Operator

namespace Attribute

variable {a : Attribute}

theorem ne_numbered (s : String) (i : ℕ) : s ≠ s ++ toString i := by
  intro h
  have hlen := congrArg String.length h
  have hpos : (toString i).length ≠ 0 := by
    rw [ne_eq, String.length_eq_zero_iff]
    exact Nat.repr_ne_empty
  rw [String.length_append] at hlen
  omega

/-- The name alone is the placeholder of a value exactly if that is no sequence. -/
theorem mem_name_iff (hop : isText "exists" a.operator = false) :
    (∀ w, w ∈ [a.name.text] ↔ w ∈ a.bindings.map Prod.fst) ↔ a.value.isSequence = false := by
  constructor
  · intro hsame
    by_contra hseq
    obtain ⟨vs, hvs⟩ := Option.isSome_iff_exists.1 (Bool.not_eq_false _ ▸ hseq)
    have hname := (hsame a.name.text).1 List.mem_cons_self
    rw [bindings_of_items hop hvs] at hname
    obtain ⟨p, hp, heq⟩ := List.mem_map.1 hname
    obtain ⟨i, -, hi, -⟩ := mem_numbered hp
    exact ne_numbered a.name.text i (heq.symm.trans hi)
  · intro hseq w
    rw [bindings_of_scalar hop hseq]
    rfl

/-- The first two numbers are those of the items exactly if there are two. -/
theorem mem_bounds_iff {s : String} {vs : List Value} (hlen : 2 ≤ vs.length) :
    (∀ w, w ∈ [s ++ "0", s ++ "1"] ↔ w ∈ (numbered s 0 vs).map Prod.fst) ↔ vs.length = 2 := by
  rw [map_fst_numbered]
  constructor
  · intro hsame
    by_contra hne
    have hthird : s ++ toString 2 ∈ (List.range' 0 vs.length).map fun j => s ++ toString j :=
      List.mem_map_of_mem (List.mem_range'_1.2 ⟨Nat.zero_le 2, by omega⟩)
    have hbound := (hsame _).2 hthird
    rw [List.mem_cons, List.mem_singleton] at hbound
    rcases hbound with h | h
    · exact absurd (mark_append_injective h) (by decide)
    · exact absurd (mark_append_injective h) (by decide)
  · intro htwo w
    rw [htwo]
    rfl

end Attribute

/-! ### Clauses -/

namespace Clause

variable {a : Attribute} {c : Clause}

theorem mem_operands_positive {s : String} {op : Operator} {d : Clause} (hs : a.operator = str s)
    (hop : (s, op) ∈ Operator.names) (hpos : positive a op = .ok d) :
    (∀ w, w ∈ d.operands ↔ w ∈ a.bindings.map Prod.fst) ↔ op.Takes a.value := by
  have hexists : op ≠ .exists → isText "exists" a.operator = false := by
    intro hne
    rw [hs]
    simpa using fun h => hne ((Operator.isOnItems_iff hop).1.2 h)
  cases op with
  | compare c => cases hpos; exact Attribute.mem_name_iff (hexists (by simp))
  | differs => cases hpos; exact Attribute.mem_name_iff (hexists (by simp))
  | contains => cases hpos; exact Attribute.mem_name_iff (hexists (by simp))
  | startsWith => cases hpos; exact Attribute.mem_name_iff (hexists (by simp))
  | «exists» =>
    cases hpos
    have hnone : a.bindings = [] := by
      rw [Attribute.bindings, hs, (Operator.isOnItems_iff hop).1.1 rfl]
      rfl
    rw [hnone]
    exact iff_of_true (fun _ => Iff.rfl) trivial
  | oneOf =>
    obtain ⟨vs, hitems, hd⟩ := bind_eq_ok.1 hpos
    cases hd
    rw [Attribute.bindings_of_items (hexists (by simp)) (items_of_itemsFor hitems).1]
    exact iff_of_true (fun _ => Iff.rfl) trivial
  | noneOf =>
    obtain ⟨vs, hitems, hd⟩ := bind_eq_ok.1 hpos
    cases hd
    rw [Attribute.bindings_of_items (hexists (by simp)) (items_of_itemsFor hitems).1]
    exact iff_of_true (fun _ => Iff.rfl) trivial
  | between =>
    obtain ⟨vs, hitems, hd⟩ := bind_eq_ok.1 hpos
    cases hd
    obtain ⟨hvs, hlen⟩ := items_of_itemsFor hitems
    rw [Attribute.bindings_of_items (hexists (by simp)) hvs]
    refine (Attribute.mem_bounds_iff hlen).trans ?_
    rw [Operator.Takes, hvs]
    exact (Option.some_inj).symm

/-- The clause of a condition and the map of values name the same placeholders exactly if the value
fits the operator. -/
theorem mem_operands_iff (h : ofAttribute a = .ok c) :
    (∀ w, w ∈ c.operands ↔ w ∈ a.bindings.map Prod.fst) ↔ a.Fits := by
  obtain ⟨s, op, d, hs, hop, hpos, rfl⟩ := ofAttribute_eq_ok h
  have hoperands : (negateIf a.negate.truthy d).operands = d.operands := by
    cases a.negate.truthy <;> rfl
  rw [hoperands, Operator.fits_iff hs hop]
  exact mem_operands_positive hs hop hpos

/-- The words of the clause of a condition that is made of words. -/
theorem words_of_ofAttribute (hwords : a.HasWords) (h : ofAttribute a = .ok c) (m : Mark) :
    m.words c.text.toList = c.behind (a.aliases.map Prod.fst) m := by
  refine words_text ?_ (isAbout_of_ofAttribute hwords.name h) m
  intro s hs
  obtain ⟨p, hp, rfl⟩ := List.mem_map.1 hs
  exact hwords.isWord_alias hp

/-- What has a clause can be written into both maps. -/
theorem requireMarked_of_ofAttribute (h : ofAttribute a = .ok c) (m : Mark) :
    requireMarked m a = .ok () := by
  obtain ⟨_, halias, -⟩ := bind_eq_ok.1 h
  cases m with
  | name => exact halias
  | value =>
    obtain ⟨-, -, hname⟩ := bind_eq_ok.1 halias
    show (if a.bindings.isEmpty then _ else a.name.requireText) = _
    rw [hname]
    exact ite_self _

/-- The placeholders in the clause of a condition are the keys of its map of values exactly if the
value fits the operator. -/
theorem isKeyedBy_words_iff {v : Value} (hv : Attribute.read v = .ok a) (hwords : a.HasWords)
    (h : (read v).result = .ok c) :
    ∃ values, placeholderMap (list [v]) (str Mark.value.text) = .ok values ∧
      (values.IsKeyedBy .value (Mark.value.words c.text.toList) ↔ a.Fits) := by
  rw [result_read, hv] at h
  have hread : readAttributes [v] = .ok [a] := eachOk_cons_eq_ok.2 ⟨a, [], hv, rfl, rfl⟩
  have hmap := placeholderMap_of_readAttributes .value hread fun b hb => by
    rw [List.mem_singleton.1 hb]
    exact requireMarked_of_ofAttribute h .value
  refine ⟨_, hmap, ?_⟩
  rw [(isKeyedBy_markedMap [a] .value).iff, words_of_ofAttribute hwords h, List.flatMap_singleton]
  exact mem_operands_iff h

end Clause

end KeysetQuery

import KeysetQuery.Proofs.Expression.Placeholders
import Mathlib.Data.List.Pairwise

/-!
# Names that run into each other

Aliases and placeholders are the name of an attribute with something behind it, and nothing marks
where the name ends.

* `Attribute.aliasEndings`, `Attribute.placeholderEndings` — what stands behind the name;
* `Overlaps` — one name goes on where another one ends, so that both come to the same text;
* `disjoint_texts_iff` — attributes with different names have a text in common exactly if one of the
  two overlaps the other one;
* `pairwise_disjoint_texts_iff` — the same for all attributes of a list.
-/

namespace KeysetQuery

open Value

namespace Attribute

/-! ### Endings -/

/-- What stands behind the name in the aliases of an attribute. -/
def aliasEndings (a : Attribute) : List String :=
  if a.path.isNull then [""] else (Text.segments '.' a.path.text).map ("_" ++ ·)

/-- What stands behind the name in the placeholders of an attribute. -/
def placeholderEndings (a : Attribute) : List String :=
  if isText "exists" a.operator then []
  else match a.value.items? with
    | some vs => (List.range vs.length).map toString
    | none => [""]

/-- The name of an attribute with each of its endings behind it. -/
def texts (endings : Attribute → List String) (a : Attribute) : List String :=
  (endings a).map (a.name.text ++ ·)

theorem map_fst_aliases (a : Attribute) : a.aliases.map Prod.fst = a.texts aliasEndings := by
  unfold aliases texts aliasEndings
  split
  · show [a.name.text] = [a.name.text ++ ""]
    rw [String.append_empty]
  · rw [List.map_map, List.map_map]
    refine List.map_congr_left fun s _ => ?_
    show a.name.text ++ "_" ++ s = a.name.text ++ ("_" ++ s)
    rw [String.append_assoc]

theorem map_fst_numbered (name : String) (i : ℕ) (vs : List Value) :
    (numbered name i vs).map Prod.fst
      = (List.range' i vs.length).map fun j => name ++ toString j := by
  induction vs generalizing i with
  | nil => rfl
  | cons v vs ih => rw [numbered, List.map_cons, ih, List.length_cons, List.range'_succ,
      List.map_cons]

theorem map_fst_bindings (a : Attribute) :
    a.bindings.map Prod.fst = a.texts placeholderEndings := by
  unfold bindings texts placeholderEndings
  split
  · rfl
  · cases a.value.items? with
    | none =>
      show [a.name.text] = [a.name.text ++ ""]
      rw [String.append_empty]
    | some vs =>
      show (numbered a.name.text 0 vs).map Prod.fst = _
      rw [map_fst_numbered, ← List.range_eq_range', List.map_map]
      rfl

/-- The placeholders of one attribute are different. -/
theorem nodup_texts_placeholderEndings (a : Attribute) : (a.texts placeholderEndings).Nodup := by
  have hendings : a.placeholderEndings.Nodup := by
    unfold placeholderEndings
    split
    · exact List.nodup_nil
    · cases a.value.items? with
      | none => exact List.nodup_singleton ""
      | some vs =>
        refine List.nodup_range.map fun i j h => ?_
        exact toString_injective (congrArg String.toList h)
  exact hendings.map fun s t h => mark_append_injective h

end Attribute

/-! ### Overlaps -/

/-- The name of `b` is that of `a` with something behind it, and with one of the endings of `b` this
is an ending of `a`. -/
def Overlaps (endings : Attribute → List String) (a b : Attribute) : Prop :=
  ∃ r, r ≠ "" ∧ b.name.text = a.name.text ++ r ∧ ∃ e ∈ endings b, r ++ e ∈ endings a

section

variable {endings : Attribute → List String} {a b : Attribute}

theorem Overlaps.name_ne (h : Overlaps endings a b) : a.name.text ≠ b.name.text := by
  obtain ⟨r, hr, hname, -⟩ := h
  intro heq
  rw [hname] at heq
  have hlen := congrArg String.length heq
  rw [String.length_append] at hlen
  exact hr (String.length_eq_zero_iff.1 (by omega))

/-- Attributes that overlap have a text in common. -/
theorem Overlaps.exists_mem (h : Overlaps endings a b) :
    ∃ t, t ∈ a.texts endings ∧ t ∈ b.texts endings := by
  obtain ⟨r, -, hname, e, he, hre⟩ := h
  refine ⟨b.name.text ++ e, ?_, List.mem_map_of_mem he⟩
  rw [hname, String.append_assoc]
  exact List.mem_map_of_mem hre

/-- Of two texts that are the same, one has the shorter name. -/
theorem overlaps_of_append_eq {g f : String} (hg : g ∈ endings a) (hf : f ∈ endings b)
    (heq : a.name.text ++ g = b.name.text ++ f) (hne : a.name.text ≠ b.name.text)
    (hle : a.name.text.length ≤ b.name.text.length) : Overlaps endings a b := by
  have hchars : a.name.text.toList ++ g.toList = b.name.text.toList ++ f.toList := by
    rw [← String.toList_append, ← String.toList_append, heq]
  obtain ⟨r, hname⟩ : a.name.text.toList <+: b.name.text.toList :=
    List.prefix_of_prefix_length_le (List.prefix_append _ g.toList)
      (hchars.symm ▸ List.prefix_append _ f.toList)
      (by rwa [String.length_toList, String.length_toList])
  rw [← hname, List.append_assoc] at hchars
  have hrest : g = String.ofList r ++ f := by
    apply String.toList_injective
    rw [String.toList_append, String.toList_ofList]
    exact List.append_cancel_left hchars
  refine ⟨String.ofList r, ?_, ?_, f, hf, hrest ▸ hg⟩
  · rintro hnil
    have hr : r = [] := by rw [← String.toList_ofList (l := r), hnil]; rfl
    rw [hr, List.append_nil] at hname
    exact hne (String.toList_injective hname)
  · apply String.toList_injective
    rw [String.toList_append, String.toList_ofList, hname]

/-- Attributes with different names have a text in common exactly if one of the two overlaps the
other one. -/
theorem disjoint_texts_iff (hne : a.name.text ≠ b.name.text) :
    (a.texts endings).Disjoint (b.texts endings) ↔
      ¬ Overlaps endings a b ∧ ¬ Overlaps endings b a := by
  constructor
  · intro hdisjoint
    constructor
    · intro hover
      obtain ⟨t, hta, htb⟩ := hover.exists_mem
      exact hdisjoint hta htb
    · intro hover
      obtain ⟨t, htb, hta⟩ := hover.exists_mem
      exact hdisjoint hta htb
  · rintro ⟨hab, hba⟩ t hta htb
    obtain ⟨g, hg, rfl⟩ := List.mem_map.1 hta
    obtain ⟨f, hf, heq⟩ := List.mem_map.1 htb
    rcases Nat.le_total a.name.text.length b.name.text.length with hle | hle
    · exact hab (overlaps_of_append_eq hg hf heq.symm hne hle)
    · exact hba (overlaps_of_append_eq hf hg heq hne.symm hle)

/-- Of attributes with different names, any two have no text in common exactly if none overlaps
another one. -/
theorem pairwise_disjoint_texts_iff {as : List Attribute}
    (hnodup : (as.map fun a => a.name.text).Nodup) :
    as.Pairwise (fun a b => (a.texts endings).Disjoint (b.texts endings)) ↔
      ∀ a ∈ as, ∀ b ∈ as, ¬ Overlaps endings a b := by
  constructor
  · intro hpairwise a ha b hb hover
    obtain ⟨t, hta, htb⟩ := hover.exists_mem
    have hab : a ≠ b := fun h => hover.name_ne (h ▸ rfl)
    have : Std.Symm fun a b : Attribute => (a.texts endings).Disjoint (b.texts endings) :=
      ⟨fun _ _ h _ hb ha => h ha hb⟩
    exact hpairwise.forall ha hb hab hta htb
  · intro hnone
    rw [List.Nodup, List.pairwise_map] at hnodup
    refine hnodup.imp_of_mem fun ha hb hne => ?_
    exact (disjoint_texts_iff hne).2 ⟨hnone _ ha _ hb, hnone _ hb _ ha⟩

/-- Whether names run into each other can be seen from the texts, once these are worked out. -/
theorem not_overlaps_of_texts {as : List Attribute} (hnodup : (as.map fun a => a.name.text).Nodup)
    {texts : List (List String)} (htexts : as.map (Attribute.texts endings) = texts)
    (hdisjoint : texts.Pairwise List.Disjoint) : ∀ a ∈ as, ∀ b ∈ as, ¬ Overlaps endings a b := by
  refine (pairwise_disjoint_texts_iff hnodup).1 ?_
  rw [← htexts, List.pairwise_map] at hdisjoint
  exact hdisjoint

end

end KeysetQuery

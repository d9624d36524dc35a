import KeysetQuery.Expression.Placeholder
import KeysetQuery.Proofs.Expression.Clauses
import KeysetQuery.Proofs.Outcome
import KeysetQuery.Proofs.Value.Entries
import Mathlib.Data.List.DropRight
import Mathlib.Data.List.Nodup

/-!
# What aliases and placeholders stand for

* `IsName` — a name of letters and digits that does not end in a digit;
* `name_eq_of_placeholder_eq`, `alias_injective` — such a name can be told from its placeholders and
  aliases;
* `Attribute.HasWords` — an attribute that is made of words, and so are its aliases;
* `WellNamed` — attributes with such names, all of them different;
* `segmentOf_aliasMap`, `valueOf_bindingMap` — then no alias and no placeholder is overwritten.
-/

namespace KeysetQuery

open Value Reader

/-! ### Names -/

/-- A name of letters and digits that does not end in a digit. -/
def IsName (s : String) : Prop :=
  s ≠ "" ∧ (∀ c ∈ s.toList, c.isAlphanum = true) ∧ ∀ c ∈ s.toList.getLast?, c.isDigit = false

instance (s : String) : Decidable (IsName s) :=
  decidable_of_iff (s ≠ "" ∧ s.toList.all Char.isAlphanum = true ∧
      s.toList.getLast?.all (fun c => !c.isDigit) = true) (by
    rw [IsName, List.all_eq_true, Option.all_eq_true]
    simp only [Bool.not_eq_true', Option.mem_def])

theorem isDigit_of_mem_toString {n : ℕ} {c : Char} (h : c ∈ (toString n).toList) :
    c.isDigit = true := by
  change c ∈ n.repr.toList at h
  rw [Nat.toList_repr] at h
  exact Nat.isDigit_of_mem_toDigits (by decide) (by decide) h

theorem toString_injective {m n : ℕ} (h : (toString m).toList = (toString n).toList) : m = n := by
  change m.repr.toList = n.repr.toList at h
  rw [Nat.toList_repr, Nat.toList_repr] at h
  rw [← Nat.ofDigitChars_ten_toDigits (n := m), h, Nat.ofDigitChars_ten_toDigits]

theorem isWordChar_of_isAlphanum {c : Char} (h : c.isAlphanum = true) : isWordChar c = true := by
  rw [isWordChar, h, Bool.true_or]

namespace Reader.IsWord

variable {s t : String}

/-- A numbered placeholder is a word. -/
theorem numbered (h : IsWord s) (i : ℕ) : IsWord (s ++ toString i) := by
  refine ⟨fun hnil => h.1 (String.append_eq_empty_iff.1 hnil).1, ?_⟩
  intro c hc
  rw [String.toList_append, List.mem_append] at hc
  rcases hc with hc | hc
  · exact h.2 c hc
  · refine isWordChar_of_isAlphanum ?_
    rw [Char.isAlphanum, isDigit_of_mem_toString hc, Bool.or_true]

/-- An alias of a segment is a word. -/
theorem aliased (h : IsWord s) (ht : IsWord t) : IsWord (s ++ "_" ++ t) := by
  refine ⟨fun hnil => ht.1 (String.append_eq_empty_iff.1 hnil).2, ?_⟩
  intro c hc
  rw [String.toList_append, String.toList_append, List.mem_append, List.mem_append] at hc
  rcases hc with (hc | hc) | hc
  · exact h.2 c hc
  · rw [List.mem_singleton.1 hc]
    rfl
  · exact ht.2 c hc

end Reader.IsWord

namespace IsName

variable {s t : String}

theorem isWord (h : IsName s) : IsWord s :=
  ⟨h.1, fun c hc => isWordChar_of_isAlphanum (h.2.1 c hc)⟩

theorem underscore_notMem (h : IsName s) : '_' ∉ s.toList := by
  intro hmem
  exact absurd (h.2.1 '_' hmem) (by decide)

/-- Without the digits at its end, a placeholder is the name it was made of. -/
theorem rdropWhile_append (h : IsName s) {ds : List Char} (hds : ∀ c ∈ ds, c.isDigit = true) :
    (s.toList ++ ds).rdropWhile Char.isDigit = s.toList := by
  rw [List.rdropWhile, List.reverse_append,
    List.dropWhile_append_of_pos fun c hc => hds c (List.mem_reverse.1 hc)]
  cases hrev : s.toList.reverse with
  | nil =>
    rw [List.reverse_eq_nil_iff] at hrev
    rw [hrev]
    rfl
  | cons c cs =>
    have hlast : c.isDigit = false := h.2.2 c (by rw [List.getLast?_eq_head?_reverse, hrev]; rfl)
    rw [List.dropWhile_cons, hlast]
    simp [← hrev]

end IsName

/-- Names that are followed by digits are told apart by what comes before these. -/
theorem name_eq_of_placeholder_eq {s t : String} (hs : IsName s) (ht : IsName t)
    {ds es : List Char} (hds : ∀ c ∈ ds, c.isDigit = true) (hes : ∀ c ∈ es, c.isDigit = true)
    (h : s.toList ++ ds = t.toList ++ es) : s = t ∧ ds = es := by
  have hname : s.toList = t.toList := by
    rw [← hs.rdropWhile_append hds, h, ht.rdropWhile_append hes]
  rw [hname] at h
  exact ⟨String.toList_injective hname, List.append_cancel_left h⟩

/-- The alias of a segment tells the name and the segment. -/
theorem alias_injective {s t u v : String} (hs : IsName s) (ht : IsName t)
    (h : s ++ "_" ++ u = t ++ "_" ++ v) : s = t ∧ u = v := by
  have hchars : s.toList ++ '_' :: u.toList = t.toList ++ '_' :: v.toList := by
    have := congrArg String.toList h
    simpa [String.toList_append] using this
  have htake : ∀ {r : String}, IsName r → ∀ cs,
      (r.toList ++ '_' :: cs).takeWhile (· ≠ '_') = r.toList := by
    intro r hr cs
    rw [List.takeWhile_append_of_pos fun c hc => by
      simpa using fun heq : c = '_' => hr.underscore_notMem (heq ▸ hc)]
    simp
  have hname : s.toList = t.toList := by rw [← htake hs u.toList, hchars, htake ht]
  rw [hname] at hchars
  have hrest := List.append_cancel_left hchars
  exact ⟨String.toList_injective hname, String.toList_injective (List.cons.inj hrest).2⟩

/-- The alias of a segment is no name. -/
theorem name_ne_alias {s t u : String} (hs : IsName s) : s ≠ t ++ "_" ++ u := by
  rintro rfl
  exact hs.underscore_notMem (by simp [String.toList_append])

/-! ### Numbered placeholders -/

namespace Attribute

theorem mem_numbered {name : String} {i : ℕ} {vs : List Value} {p : String × Value}
    (h : p ∈ numbered name i vs) :
    ∃ j, i ≤ j ∧ p.1 = name ++ toString j ∧ vs[j - i]? = some p.2 := by
  induction vs generalizing i with
  | nil => simp [numbered] at h
  | cons v vs ih =>
    rcases List.mem_cons.1 h with rfl | h
    · exact ⟨i, le_rfl, rfl, by simp⟩
    · obtain ⟨j, hj, hname, hget⟩ := ih h
      refine ⟨j, by omega, hname, ?_⟩
      rw [show j - i = j - (i + 1) + 1 by omega, List.getElem?_cons_succ]
      exact hget

theorem map_snd_numbered (name : String) (i : ℕ) (vs : List Value) :
    (numbered name i vs).map Prod.snd = vs := by
  induction vs generalizing i with
  | nil => rfl
  | cons v vs ih => rw [numbered, List.map_cons, ih]

/-- A placeholder is the name with some digits, or none, behind it, and within one attribute the
digits tell the value. -/
theorem digits_of_mem_bindings {a : Attribute} {p : String × Value} (h : p ∈ a.bindings) :
    ∃ ds : List Char, (∀ c ∈ ds, c.isDigit = true) ∧ p.1.toList = a.name.text.toList ++ ds ∧
      ∀ q ∈ a.bindings, q.1.toList = a.name.text.toList ++ ds → q.2 = p.2 := by
  unfold bindings at h ⊢
  split at h
  · simp at h
  · rename_i hop
    rw [if_neg hop]
    cases hitems : a.value.items? with
    | none =>
      rw [hitems] at h
      obtain rfl := List.mem_singleton.1 h
      refine ⟨[], by simp, by simp, ?_⟩
      intro q hq _
      rw [List.mem_singleton.1 hq]
    | some vs =>
      rw [hitems] at h
      obtain ⟨j, -, hname, hget⟩ := mem_numbered h
      refine ⟨(toString j).toList, fun c hc => isDigit_of_mem_toString hc, ?_, ?_⟩
      · rw [hname, String.toList_append]
      · intro q hq hqname
        obtain ⟨k, -, hname', hget'⟩ := mem_numbered hq
        rw [hname', String.toList_append] at hqname
        have hjk : k = j := toString_injective (List.append_cancel_left hqname)
        rw [hjk, hget] at hget'
        exact (Option.some.inj hget').symm

end Attribute

/-! ### Attributes made of words -/

/-- The name of an attribute is a word, and so are the segments of its path, if it has one. -/
structure Attribute.HasWords (a : Attribute) : Prop where
  name : IsWord a.name.text
  segments : a.path.isNull = false → ∀ s ∈ Text.segments '.' a.path.text, IsWord s

instance (a : Attribute) : Decidable a.HasWords :=
  decidable_of_iff (IsWord a.name.text ∧
      (a.path.isNull = false → ∀ s ∈ Text.segments '.' a.path.text, IsWord s))
    ⟨fun h => ⟨h.1, h.2⟩, fun h => ⟨h.name, h.segments⟩⟩

/-- The aliases of an attribute that is made of words are words. -/
theorem Attribute.HasWords.isWord_alias {a : Attribute} (h : a.HasWords) {p : String × String}
    (hp : p ∈ a.aliases) : IsWord p.1 := by
  unfold Attribute.aliases at hp
  split at hp
  · rw [List.mem_singleton.1 hp]
    exact h.name
  · rename_i hnull
    obtain ⟨s, hs, rfl⟩ := List.mem_map.1 hp
    exact h.name.aliased (h.segments (by simpa using hnull) s hs)

/-! ### Attributes with different names -/

/-- Attributes whose names are different and whose paths are made of words. -/
structure WellNamed (as : List Attribute) : Prop where
  isName : ∀ a ∈ as, IsName a.name.text
  distinct : (as.map fun a => a.name.text).Nodup
  isWord : ∀ a ∈ as, a.path.isNull = false →
    ∀ s ∈ Text.segments '.' a.path.text, IsWord s

namespace WellNamed

variable {as : List Attribute} {a b : Attribute}

theorem hasWords (h : WellNamed as) (ha : a ∈ as) : a.HasWords :=
  ⟨(h.isName a ha).isWord, h.isWord a ha⟩

/-- An alias stands for one segment, whichever attributes it belongs to. -/
theorem segment_eq (h : WellNamed as) (ha : a ∈ as) (hb : b ∈ as) {p q : String × String}
    (hp : p ∈ a.aliases) (hq : q ∈ b.aliases) (heq : p.1 = q.1) : p.2 = q.2 := by
  have hna := h.isName a ha
  have hnb := h.isName b hb
  unfold Attribute.aliases at hp hq
  split at hp
  · rw [List.mem_singleton.1 hp] at heq ⊢
    split at hq
    · rw [List.mem_singleton.1 hq] at heq ⊢
      exact heq
    · obtain ⟨s, -, rfl⟩ := List.mem_map.1 hq
      exact absurd heq (name_ne_alias hna)
  · obtain ⟨s, -, rfl⟩ := List.mem_map.1 hp
    split at hq
    · rw [List.mem_singleton.1 hq] at heq ⊢
      exact absurd heq.symm (name_ne_alias hnb)
    · obtain ⟨t, -, rfl⟩ := List.mem_map.1 hq
      exact (alias_injective hna hnb heq).2

/-- A placeholder stands for one value, whichever attributes it belongs to. -/
theorem value_eq (h : WellNamed as) (ha : a ∈ as) (hb : b ∈ as) {p q : String × Value}
    (hp : p ∈ a.bindings) (hq : q ∈ b.bindings) (heq : p.1 = q.1) : q.2 = p.2 := by
  obtain ⟨ds, hds, hpname, hsame⟩ := Attribute.digits_of_mem_bindings hp
  obtain ⟨es, hes, hqname, -⟩ := Attribute.digits_of_mem_bindings hq
  have hchars : a.name.text.toList ++ ds = b.name.text.toList ++ es := by
    rw [← hpname, ← hqname, heq]
  obtain ⟨hname, hdigits⟩ :=
    name_eq_of_placeholder_eq (h.isName a ha) (h.isName b hb) hds hes hchars
  obtain rfl : a = b := List.inj_on_of_nodup_map h.distinct ha hb hname
  exact hsame q hq (by rw [hqname, hdigits])

end WellNamed

/-! ### The two maps -/

/-- The text behind a mark. -/
theorem mark_append_injective {mark s t : String} (h : mark ++ s = mark ++ t) : s = t := by
  have hchars := congrArg String.toList h
  rw [String.toList_append, String.toList_append] at hchars
  exact String.toList_injective (List.append_cancel_left hchars)

section Maps

variable {as : List Attribute} {a : Attribute}

theorem mem_aliasEntries {s : String} {v : Value} :
    (str s, v) ∈ aliasEntries as ↔ ∃ a ∈ as, ∃ p ∈ a.aliases, s = "#" ++ p.1 ∧ v = str p.2 := by
  simp only [aliasEntries, List.mem_flatMap, List.mem_map, Prod.mk.injEq, str.injEq]
  constructor
  · rintro ⟨a, ha, p, hp, rfl, rfl⟩
    exact ⟨a, ha, p, hp, rfl, rfl⟩
  · rintro ⟨a, ha, p, hp, rfl, rfl⟩
    exact ⟨a, ha, p, hp, rfl, rfl⟩

theorem mem_bindingEntries {s : String} {v : Value} :
    (str s, v) ∈ bindingEntries as ↔ ∃ a ∈ as, ∃ p ∈ a.bindings, s = ":" ++ p.1 ∧ v = p.2 := by
  simp only [bindingEntries, List.mem_flatMap, List.mem_map, Prod.mk.injEq, str.injEq]
  constructor
  · rintro ⟨a, ha, p, hp, rfl, rfl⟩
    exact ⟨a, ha, p, hp, rfl, rfl⟩
  · rintro ⟨a, ha, p, hp, rfl, rfl⟩
    exact ⟨a, ha, p, hp, rfl, rfl⟩

theorem keys_aliasEntries (as : List Attribute) :
    Entries.keys (aliasEntries as)
      = ((as.flatMap Attribute.aliases).map Prod.fst).map fun s => str ("#" ++ s) := by
  rw [aliasEntries, Entries.keys, List.map_flatMap, List.map_flatMap, List.map_flatMap]
  refine List.flatMap_congr fun a _ => ?_
  rw [List.map_map, List.map_map]
  rfl

theorem keys_bindingEntries (as : List Attribute) :
    Entries.keys (bindingEntries as)
      = ((as.flatMap Attribute.bindings).map Prod.fst).map fun s => str (":" ++ s) := by
  rw [bindingEntries, Entries.keys, List.map_flatMap, List.map_flatMap, List.map_flatMap]
  refine List.flatMap_congr fun a _ => ?_
  rw [List.map_map, List.map_map]
  rfl

/-- An alias on whose segment all attributes agree stands for it. -/
theorem segmentOf_of_forall (ha : a ∈ as) {p : String × String} (hp : p ∈ a.aliases)
    (hall : ∀ b ∈ as, ∀ q ∈ b.aliases, q.1 = p.1 → q.2 = p.2) :
    Formula.segmentOf (aliasMap as) p.1 = some p.2 := by
  have hget : Entries.field? (aliasMap as) ("#" ++ p.1) = some (str p.2) := by
    refine Entries.get?_ofList_of_forall (mem_aliasEntries.2 ⟨a, ha, p, hp, rfl, rfl⟩) ?_
    intro w hw
    obtain ⟨b, hb, q, hq, hname, rfl⟩ := mem_aliasEntries.1 hw
    rw [hall b hb q hq (mark_append_injective hname).symm]
  rw [Formula.segmentOf, hget]

/-- A placeholder on whose value all attributes agree stands for it. -/
theorem valueOf_of_forall (ha : a ∈ as) {p : String × Value} (hp : p ∈ a.bindings)
    (hall : ∀ b ∈ as, ∀ q ∈ b.bindings, q.1 = p.1 → q.2 = p.2) :
    Formula.valueOf (bindingMap as) p.1 = some p.2 := by
  refine Entries.get?_ofList_of_forall (mem_bindingEntries.2 ⟨a, ha, p, hp, rfl, rfl⟩) ?_
  intro w hw
  obtain ⟨b, hb, q, hq, hname, rfl⟩ := mem_bindingEntries.1 hw
  exact hall b hb q hq (mark_append_injective hname).symm

/-- An alias of a well-named attribute stands for its segment. -/
theorem segmentOf_aliasMap (h : WellNamed as) (ha : a ∈ as) {p : String × String}
    (hp : p ∈ a.aliases) : Formula.segmentOf (aliasMap as) p.1 = some p.2 :=
  segmentOf_of_forall ha hp fun _ hb _ hq heq => h.segment_eq hb ha hq hp heq

/-- A placeholder of a well-named attribute stands for its value. -/
theorem valueOf_bindingMap (h : WellNamed as) (ha : a ∈ as) {p : String × Value}
    (hp : p ∈ a.bindings) : Formula.valueOf (bindingMap as) p.1 = some p.2 :=
  valueOf_of_forall ha hp fun _ hb _ hq heq => h.value_eq ha hb hp hq heq.symm

/-- Attributes of which the part for a mark can be written have a map for it. -/
theorem placeholderMap_of_readAttributes (m : Mark) {vs : List Value}
    (hread : readAttributes vs = .ok as) (hwritable : ∀ a ∈ as, requireMarked m a = .ok ()) :
    placeholderMap (list vs) (str m.text) = .ok (markedMap as m) := by
  have hmarked : eachOk (readMarked m) vs = .ok as := by
    rw [readAttributes] at hread
    induction vs generalizing as with
    | nil => exact hread
    | cons v vs ih =>
      obtain ⟨a, as, ha, has, rfl⟩ := eachOk_cons_eq_ok.1 hread
      refine eachOk_cons_eq_ok.2 ⟨a, as, ?_, ?_, rfl⟩
      · rw [readMarked, ha]
        show (requireMarked m a >>= fun _ => pure a) = .ok a
        rw [hwritable a List.mem_cons_self]
        rfl
      · exact ih has fun b hb => hwritable b (List.mem_cons_of_mem a hb)
  have hmark : Mark.ofValue (str m.text) = .ok m := by cases m <;> rfl
  show (Mark.ofValue (str m.text) >>= fun m => eachOk (readMarked m) vs >>= fun as =>
    pure (markedMap as m)) = _
  rw [hmark]
  show (eachOk (readMarked m) vs >>= fun as => pure (markedMap as m)) = _
  rw [hmarked]
  rfl

end Maps

end KeysetQuery

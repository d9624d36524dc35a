import KeysetQuery.Proofs.Expression.Meaning
import KeysetQuery.Proofs.Expression.Overlaps

/-!
# Paths read back

The aliases of an attribute are written into one map with those of the other attributes, and whatever
is written last stays.

* `joined_injective` — segments without separators can be told from what they are joined to;
* `Attribute.readBack` — the path that a map of aliases gives for an attribute;
* `readBack_eq_some_iff` — it is the path of the attribute exactly if each alias stands for its own
  segment;
* `readBack_placeholderMap_iff` — this is so for all of them exactly if no name runs into another
  one.
-/

namespace KeysetQuery

open Value

/-! ### Joined segments -/

/-- The separators in joined segments are those inside of the segments and those between them. -/
theorem count_intercalate (sep : Char) {xs : List (List Char)} (h : xs ≠ []) :
    ([sep].intercalate xs).count sep + 1 = xs.flatten.count sep + xs.length := by
  induction xs with
  | nil => exact absurd rfl h
  | cons x xs ih =>
    cases xs with
    | nil => simp [List.intercalate]
    | cons y ys =>
      have htail := ih (by simp)
      have htext : [sep].intercalate (x :: y :: ys) = x ++ sep :: [sep].intercalate (y :: ys) := by
        simp [List.intercalate]
      rw [htext, List.count_append, List.count_cons_self, List.flatten_cons, List.count_append,
        List.length_cons]
      omega

/-- Segments without separators are told by what they are joined to, among as many segments. -/
theorem joined_injective {sep : Char} {xs ys : List (List Char)} (hlen : xs.length = ys.length)
    (hys : ∀ y ∈ ys, sep ∉ y) (h : [sep].intercalate xs = [sep].intercalate ys) : xs = ys := by
  rcases eq_or_ne ys [] with rfl | hne
  · exact List.length_eq_zero_iff.1 hlen
  have hxsne : xs ≠ [] := by
    rintro rfl
    exact hne (List.length_eq_zero_iff.1 hlen.symm)
  -- there are as many separators on either side, and on one side none is inside of a segment
  have hcount : xs.flatten.count sep = 0 := by
    have hx := count_intercalate sep hxsne
    have hy := count_intercalate sep hne
    have hnone : ys.flatten.count sep = 0 := by
      rw [List.count_eq_zero, List.mem_flatten]
      rintro ⟨y, hmemy, hmem⟩
      exact hys y hmemy hmem
    rw [h] at hx
    omega
  have hxs : ∀ x ∈ xs, sep ∉ x := by
    intro x hx hmem
    exact List.count_eq_zero.1 hcount (List.mem_flatten.2 ⟨x, hx, hmem⟩)
  rw [← List.splitOn_intercalate sep hxs hxsne, h, List.splitOn_intercalate sep hys hne]

/-! ### Reading back -/

namespace Attribute

/-- The path that a map of aliases gives for an attribute: what its aliases stand for, with dots in
between. -/
def readBack (names : Entries) (a : Attribute) : Option String :=
  (Formula.eachSome (Formula.segmentOf names) (a.aliases.map Prod.fst)).map (".".intercalate ·)

/-- An alias and its segment tell the name. -/
theorem name_eq_of_mem_aliases {a b : Attribute} {p : String × String} (ha : p ∈ a.aliases)
    (hb : p ∈ b.aliases) : a.name.text = b.name.text := by
  -- a text is shorter than what a name and an underscore make of it
  have hne : ∀ s t : String, s ≠ t ++ "_" ++ s := by
    intro s t h
    have hlen := congrArg String.length h
    rw [String.length_append, String.length_append, show "_".length = 1 from rfl] at hlen
    omega
  unfold aliases at ha hb
  split at ha
  · obtain rfl := List.mem_singleton.1 ha
    split at hb
    · exact (Prod.mk.inj (List.mem_singleton.1 hb)).1
    · obtain ⟨s, -, heq⟩ := List.mem_map.1 hb
      obtain ⟨hname, rfl⟩ := Prod.mk.inj heq
      exact absurd hname.symm (hne _ _)
  · obtain ⟨s, -, rfl⟩ := List.mem_map.1 ha
    split at hb
    · obtain ⟨hname, rfl⟩ := Prod.mk.inj (List.mem_singleton.1 hb)
      exact absurd hname.symm (hne _ _)
    · obtain ⟨t, -, heq⟩ := List.mem_map.1 hb
      obtain ⟨hname, rfl⟩ := Prod.mk.inj heq
      have hchars := congrArg String.toList hname
      simp only [String.toList_append, List.append_assoc] at hchars
      exact (String.toList_injective (List.append_cancel_right hchars)).symm

/-- As many segments as an attribute has aliases that are joined to its path are its segments. -/
theorem segments_eq_of_intercalate {a : Attribute} {segments : List String}
    (hlen : segments.length = a.aliases.length)
    (h : ".".intercalate segments = a.documentPath) : segments = a.aliases.map Prod.snd := by
  unfold documentPath at h
  unfold aliases at hlen ⊢
  split at h
  · rename_i hnull
    rw [if_pos hnull] at hlen ⊢
    obtain ⟨s, rfl⟩ := List.length_eq_one_iff.1 hlen
    rw [String.intercalate_singleton] at h
    rw [h]
    rfl
  · rename_i hnull
    rw [if_neg hnull, List.length_map] at hlen
    rw [if_neg hnull, List.map_map]
    have hsnd : (Prod.snd ∘ fun s => (a.name.text ++ "_" ++ s, s)) = (id : String → String) := rfl
    rw [hsnd, List.map_id]
    have hchars : ['.'].intercalate (segments.map String.toList)
        = ['.'].intercalate ((Text.segments '.' a.path.text).map String.toList) := by
      have hdot : ".".toList = ['.'] := rfl
      rw [← hdot, ← String.toList_intercalate, ← String.toList_intercalate, h]
      exact congrArg String.toList (Text.intercalate_segments '.' a.path.text).symm
    have hfree : ∀ cs ∈ (Text.segments '.' a.path.text).map String.toList, '.' ∉ cs := by
      intro cs hcs
      rw [Text.segments, List.map_map] at hcs
      obtain ⟨ds, hds, rfl⟩ := List.mem_map.1 hcs
      show '.' ∉ (String.ofList ds).toList
      rw [String.toList_ofList]
      exact Text.not_mem_of_mem_splitAt hds
    have hmap := joined_injective (by simpa using hlen) hfree hchars
    exact List.map_injective_iff.2 (fun _ _ => String.toList_injective) hmap

/-- An alias of an attribute tells its segment. -/
theorem segment_eq_of_mem_aliases {a : Attribute} {p q : String × String} (hp : p ∈ a.aliases)
    (hq : q ∈ a.aliases) (h : p.1 = q.1) : p.2 = q.2 := by
  unfold aliases at hp hq
  split at hp
  · rename_i hnull
    rw [if_pos hnull] at hq
    rw [List.mem_singleton.1 hp, List.mem_singleton.1 hq]
  · rename_i hnull
    rw [if_neg hnull] at hq
    obtain ⟨s, -, rfl⟩ := List.mem_map.1 hp
    obtain ⟨t, -, rfl⟩ := List.mem_map.1 hq
    exact mark_append_injective h

/-- The path of an attribute is read back exactly if each of its aliases stands for its own
segment. -/
theorem readBack_eq_some_iff {names : Entries} {a : Attribute} :
    a.readBack names = some a.documentPath ↔
      ∀ p ∈ a.aliases, Formula.segmentOf names p.1 = some p.2 := by
  constructor
  · intro h
    obtain ⟨segments, hsegments, hpath⟩ := Option.map_eq_some_iff.1 h
    have hmap := Formula.eachSome_eq_some_iff.1 hsegments
    have hlen : segments.length = a.aliases.length := by
      simpa using (congrArg List.length hmap).symm
    rw [segments_eq_of_intercalate hlen hpath, List.map_map, List.map_map] at hmap
    exact List.map_inj_left.1 hmap
  · intro h
    have heach : Formula.eachSome (Formula.segmentOf names) (a.aliases.map Prod.fst)
        = some (a.aliases.map Prod.snd) := Formula.eachSome_map h
    rw [readBack, heach, Option.map_some, intercalate_segments_aliases]

end Attribute

/-! ### The map of aliases -/

section Maps

variable {vs : List Value} {as : List Attribute}

/-- Attributes whose aliases can be written have a map of aliases. -/
theorem placeholderMap_name (hread : readAttributes vs = .ok as)
    (hwritable : ∀ a ∈ as, a.requireAliases = .ok ()) :
    placeholderMap (list vs) (str "#") = .ok (aliasMap as) :=
  placeholderMap_of_readAttributes .name hread hwritable

/-- Attributes with different names: with the map of their aliases, the path of each of them is read
back exactly if the name of none runs into that of another one.  Then no two of them have an alias
in common. -/
theorem readBack_placeholderMap_iff (hread : readAttributes vs = .ok as)
    (hwritable : ∀ a ∈ as, a.requireAliases = .ok ())
    (hnodup : (as.map fun a => a.name.text).Nodup) :
    ∃ names, placeholderMap (list vs) (str "#") = .ok names ∧
      ((∀ a ∈ as, a.readBack names = some a.documentPath) ↔
        ∀ a ∈ as, ∀ b ∈ as, ¬ Overlaps Attribute.aliasEndings a b) := by
  refine ⟨aliasMap as, placeholderMap_name hread hwritable, ?_⟩
  constructor
  · intro hback a ha b hb hover
    obtain ⟨t, hta, htb⟩ := hover.exists_mem
    rw [← Attribute.map_fst_aliases] at hta htb
    obtain ⟨p, hp, rfl⟩ := List.mem_map.1 hta
    obtain ⟨q, hq, heq⟩ := List.mem_map.1 htb
    have hsegment := Attribute.readBack_eq_some_iff.1 (hback b hb) q hq
    rw [heq, Attribute.readBack_eq_some_iff.1 (hback a ha) p hp] at hsegment
    obtain rfl : p = q := Prod.ext heq.symm (Option.some.inj hsegment)
    exact hover.name_ne (Attribute.name_eq_of_mem_aliases hp hq)
  · intro hnone a ha
    refine Attribute.readBack_eq_some_iff.2 fun p hp => ?_
    refine segmentOf_of_forall ha hp fun b hb q hq heq => ?_
    by_cases hname : b.name.text = a.name.text
    · obtain rfl : b = a := List.inj_on_of_nodup_map hnodup hb ha hname
      exact Attribute.segment_eq_of_mem_aliases hq hp heq
    · have hdisjoint := (disjoint_texts_iff hname).2 ⟨hnone b hb a ha, hnone a ha b hb⟩
      have hqa : p.1 ∈ b.texts Attribute.aliasEndings := by
        rw [← Attribute.map_fst_aliases, ← heq]
        exact List.mem_map_of_mem hq
      have hpa : p.1 ∈ a.texts Attribute.aliasEndings := by
        rw [← Attribute.map_fst_aliases]
        exact List.mem_map_of_mem hp
      exact absurd hpa fun hpa => hdisjoint hqa hpa

end Maps

/-- A name may go on where another one ends, if what follows is no segment: `own_note` is no alias
of `own`. -/
theorem readBack_beside_own : ∃ names,
    placeholderMap (list [map [(str "name", str "own"), (str "path", str "meta.owner")],
      map [(str "name", str "own_note"), (str "path", str "meta")],
      map [(str "name", str "status")]]) (str "#") = .ok names ∧
    ∀ a ∈ [Attribute.ofEntries (str "own") [(str "path", str "meta.owner")],
      Attribute.ofEntries (str "own_note") [(str "path", str "meta")],
      Attribute.ofEntries (str "status") []], a.readBack names = some a.documentPath := by
  have hnodup : ([Attribute.ofEntries (str "own") [(str "path", str "meta.owner")],
      Attribute.ofEntries (str "own_note") [(str "path", str "meta")],
      Attribute.ofEntries (str "status") []].map fun a => a.name.text).Nodup := by decide
  have hwritable : ∀ a ∈ [Attribute.ofEntries (str "own") [(str "path", str "meta.owner")],
      Attribute.ofEntries (str "own_note") [(str "path", str "meta")],
      Attribute.ofEntries (str "status") []], a.requireAliases = .ok () := by
    intro a ha
    simp only [List.mem_cons, List.not_mem_nil, or_false] at ha
    rcases ha with rfl | rfl | rfl <;> rfl
  have htexts : [Attribute.ofEntries (str "own") [(str "path", str "meta.owner")],
      Attribute.ofEntries (str "own_note") [(str "path", str "meta")],
      Attribute.ofEntries (str "status") []].map (Attribute.texts Attribute.aliasEndings)
        = [["own_meta", "own_owner"], ["own_note_meta"], ["status"]] := rfl
  obtain ⟨names, hnames, hiff⟩ := @readBack_placeholderMap_iff
    [map [(str "name", str "own"), (str "path", str "meta.owner")],
      map [(str "name", str "own_note"), (str "path", str "meta")],
      map [(str "name", str "status")]] _ rfl hwritable hnodup
  exact ⟨names, hnames, hiff.2 (not_overlaps_of_texts hnodup htexts (by simp))⟩

/-- The name of one attribute can go on with a segment of the other one: both have the alias
`#a_b_value`, which stands for what is written last. -/
theorem not_readBack_shared : ∃ as names,
    readAttributes [map [(str "name", str "a"), (str "path", str "value.b_value")],
      map [(str "name", str "a_b"), (str "path", str "value")]] = .ok as ∧
    (as.map fun a => a.name.text).Nodup ∧
    placeholderMap (list [map [(str "name", str "a"), (str "path", str "value.b_value")],
      map [(str "name", str "a_b"), (str "path", str "value")]]) (str "#") = .ok names ∧
    ¬ ∀ a ∈ as, a.readBack names = some a.documentPath := by
  have hwritable : ∀ a ∈ [Attribute.ofEntries (str "a") [(str "path", str "value.b_value")],
      Attribute.ofEntries (str "a_b") [(str "path", str "value")]], a.requireAliases = .ok () := by
    intro a ha
    simp only [List.mem_cons, List.not_mem_nil, or_false] at ha
    rcases ha with rfl | rfl <;> rfl
  refine ⟨_, _, rfl, by decide, placeholderMap_name rfl hwritable, ?_⟩
  intro hback
  have haliases : (Attribute.ofEntries (str "a") [(str "path", str "value.b_value")]).aliases
      = [("a_value", "value"), ("a_b_value", "b_value")] := rfl
  have hother : (Attribute.ofEntries (str "a_b") [(str "path", str "value")]).aliases
      = [("a_b_value", "value")] := rfl
  have hfirst := Attribute.readBack_eq_some_iff.1 (hback _ List.mem_cons_self)
    ("a_b_value", "b_value") (haliases ▸ List.mem_cons_of_mem _ List.mem_cons_self)
  have hsecond := Attribute.readBack_eq_some_iff.1
    (hback _ (List.mem_cons_of_mem _ List.mem_cons_self)) ("a_b_value", "value")
    (hother ▸ List.mem_cons_self)
  rw [hfirst] at hsecond
  exact absurd (Option.some.inj hsecond) (by decide)

end KeysetQuery

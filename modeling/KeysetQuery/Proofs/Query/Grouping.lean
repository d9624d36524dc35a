import KeysetQuery.Proofs.Query.Blocks

/-!
# Grouping is a partition

* `filterBundles` — the bundles of a filter: one for each group that has members, by its first
  declaration, and one for the conditions outside all groups;
* `perm_members` — the bundles of groups with different names and the conditions outside them hold
  every condition once;
* `joinedBy`, `Bundle.inner` — texts in parentheses joined by a word, and what stands inside the
  parentheses of a bundle;
* `filterExpression_partition` — the expression of a filter is that of its bundles, each of its
  conditions stands in one of them, and all that is joined by `OR` stands inside one group.
-/

namespace KeysetQuery

open Value Entries

/-- The bundles of a filter whose groups may be declared more than once. -/
def filterBundles (as : List Attribute) (gs : List (String × String)) : List Bundle :=
  groupBundles as (firstDeclared gs) ++ otherBundles as gs

/-! ### Every condition once -/

section Partition

variable {as : List Attribute} {gs : List (String × String)}

/-- Groups without members hold nothing. -/
theorem flatMap_groupBundles (as : List Attribute) (gs : List (String × String)) :
    (groupBundles as gs).flatMap Bundle.members = gs.flatMap fun g => membersOf as g.1 := by
  induction gs with
  | nil => rfl
  | cons g gs ih =>
    rw [List.flatMap_cons, ← ih, groupBundles, groupsInUse_cons]
    split
    · rename_i hnone
      rw [hnone, List.nil_append, groupBundles]
    · rw [List.map_cons, List.flatMap_cons, groupBundles]

theorem flatMap_otherBundles (as : List Attribute) (gs : List (String × String)) :
    (otherBundles as gs).flatMap Bundle.members = as.filter fun a => !isGrouped gs a := by
  rw [otherBundles, Bundle.allOf]
  split
  · rename_i hnone
    rw [List.isEmpty_iff.1 hnone, List.flatMap_nil]
  · rw [List.flatMap_singleton]

/-- The members of a group are found among the conditions outside another one. -/
theorem membersOf_filter {s t : String} (h : s ≠ t) (as : List Attribute) :
    membersOf (as.filter fun a => !isText t a.memberOf) s = membersOf as s := by
  rw [membersOf, membersOf, List.filter_filter]
  refine List.filter_congr fun a _ => ?_
  by_cases hs : isText s a.memberOf = true
  · have hne : (s == t) = false := beq_eq_false_iff_ne.2 h
    rw [isText_iff.1 hs, isText_str, isText_str, beq_self_eq_true, Bool.true_and, hne]
    rfl
  · rw [Bool.eq_false_iff.2 hs, Bool.false_and]

/-- The members of groups with different names, and the conditions outside these groups, are all of
the conditions. -/
theorem perm_members (hnodup : (gs.map Prod.fst).Nodup) (as : List Attribute) :
    ((gs.flatMap fun g => membersOf as g.1) ++ as.filter fun a => !isGrouped gs a).Perm as := by
  induction gs generalizing as with
  | nil =>
    show (as.filter fun _ => true).Perm as
    rw [List.filter_eq_self.2 fun _ _ => rfl]
  | cons g gs ih =>
    obtain ⟨hnotMem, hnodup⟩ := List.nodup_cons.1 hnodup
    -- What is left of the conditions without the members of the first group.
    let rest := as.filter fun a => !isText g.1 a.memberOf
    have hmembers : (gs.flatMap fun h => membersOf as h.1)
        = gs.flatMap fun h => membersOf rest h.1 := by
      refine List.flatMap_congr fun h hh => ?_
      have hne : h.1 ≠ g.1 := fun heq => hnotMem (heq ▸ List.mem_map_of_mem hh)
      exact (membersOf_filter hne as).symm
    have hothers : (as.filter fun a => !isGrouped (g :: gs) a)
        = rest.filter fun a => !isGrouped gs a := by
      rw [List.filter_filter]
      refine List.filter_congr fun a _ => ?_
      rw [isGrouped, List.any_cons, Bool.not_or, Bool.and_comm]
      rfl
    rw [List.flatMap_cons, List.append_assoc, hmembers, hothers]
    exact ((ih hnodup rest).append_left _).trans (List.filter_append_perm _ as)

/-- Every condition is in one bundle of a filter, and there once. -/
theorem perm_filterBundles (as : List Attribute) (gs : List (String × String)) :
    ((filterBundles as gs).flatMap Bundle.members).Perm as := by
  have hothers : (as.filter fun a => !isGrouped gs a)
      = as.filter fun a => !isGrouped (firstDeclared gs) a :=
    List.filter_congr fun a _ => by rw [isGrouped_firstDeclared]
  rw [filterBundles, List.flatMap_append, flatMap_groupBundles, flatMap_otherBundles, hothers]
  exact perm_members (nodup_firstDeclared gs) as

/-- A bundle that is not joined by `AND` is that of a declared group. -/
theorem of_mem_filterBundles {b : Bundle} (hb : b ∈ filterBundles as gs)
    (hconj : b.conjunction ≠ "AND") :
    ∃ g ∈ gs, b.conjunction = g.2 ∧ ∀ a ∈ b.members, a.memberOf = str g.1 := by
  rcases List.mem_append.1 hb with hb | hb
  · obtain ⟨g, hg, rfl, -⟩ := of_mem_groupBundles hb
    refine ⟨g, (firstDeclared_sublist gs).subset hg, rfl, ?_⟩
    intro a ha
    exact isText_iff.1 (List.mem_filter.1 ha).2
  · obtain ⟨rfl, -⟩ := of_mem_otherBundles hb
    exact absurd rfl hconj

end Partition

/-! ### The expression -/

/-- Texts in parentheses, joined by a word. -/
def joinedBy (word : String) (texts : List String) : String :=
  (" " ++ word ++ " ").intercalate (texts.map Block.parenthesised)

namespace Bundle

/-- What stands inside the parentheses of a bundle: its only clause, or its clauses under its
conjunction. -/
def inner (b : Bundle) : String :=
  match b.members with
  | [a] => (clauseOf a).text
  | as => joinedBy b.conjunction (as.map fun a => (clauseOf a).text)

/-- The block of a bundle that has members is written in parentheses. -/
theorem text_block {b : Bundle} (h : b.members ≠ []) :
    b.block.text = Block.parenthesised b.inner := by
  obtain ⟨conjunction, members⟩ := b
  cases members with
  | nil => exact absurd rfl h
  | cons a as =>
    cases as with
    | nil => rfl
    | cons a' as =>
      have hmap : ((a :: a' :: as).map clauseOf).map (fun c => Block.parenthesised c.text)
          = ((a :: a' :: as).map fun a => (clauseOf a).text).map Block.parenthesised := by
        rw [List.map_map, List.map_map]
        rfl
      have hlength : 1 < ((a :: a' :: as).map clauseOf).length := by
        rw [List.length_map, List.length_cons, List.length_cons]
        omega
      simp only [block, Block.text, if_pos hlength, hmap]
      rfl

/-- The expression of bundles that have members. -/
theorem filterText_map_block {bs : List Bundle} (h : ∀ b ∈ bs, b.members ≠ []) :
    filterText (bs.map block) = joinedBy "AND" (bs.map inner) := by
  have htexts : (bs.map block).map Block.text = (bs.map inner).map Block.parenthesised := by
    rw [List.map_map, List.map_map]
    exact List.map_congr_left fun b hb => text_block (h b hb)
  rw [filterText, htexts]
  rfl

end Bundle

section Expression

variable {groups conditions : List Entries} {gs : List (String × String)}

/-- A condition that has a clause gives the name of its attribute. -/
theorem isNamed_of_read {es : Entries} {c : Clause} (h : (Clause.read (map es)).result = .ok c) :
    Attribute.IsNamed es ∧ IsWritten (Attribute.ofCanonical es) := by
  rw [Clause.result_read] at h
  obtain ⟨a, ha, hc⟩ := bind_eq_ok.1 h
  have hnamed : Attribute.IsNamed es := by
    unfold Attribute.read at ha
    cases hname : field? es "name" with
    | none => simp [hname, misused] at ha
    | some name => rw [Attribute.IsNamed, hname]; rfl
  rw [Attribute.read_of_isNamed hnamed] at ha
  obtain rfl := Except.ok.inj ha
  exact ⟨hnamed, (isWritten_of_eq_ok hc).1⟩

/-- The blocks of a filter whose conditions all have clauses and may all be looked up. -/
theorem filterBlocks_of_isWritten (hnamed : ∀ es ∈ conditions, Attribute.IsNamed es)
    (hgroups : List.Forall₂ IsGroup groups gs) (hconj : ∀ g ∈ gs, g.2 = "AND" ∨ g.2 = "OR")
    (hwritten : ∀ a ∈ conditions.map Attribute.ofCanonical, IsWritten a)
    (hlook : ∀ a ∈ conditions.map Attribute.ofCanonical, asMember a.memberOf = .ok a.memberOf) :
    (filterBlocks (list (groups.map .map)) (list (conditions.map .map))).result
      = .ok ((filterBundles (conditions.map Attribute.ofCanonical) gs).map Bundle.block) := by
  have hmember : ∀ b ∈ filterBundles (conditions.map Attribute.ofCanonical) gs,
      ∀ a ∈ b.members, IsWritten a := by
    intro b hb a ha
    have hperm := perm_filterBundles (conditions.map Attribute.ofCanonical) gs
    exact hwritten a (hperm.subset (List.mem_flatMap.2 ⟨b, hb, ha⟩))
  have hlooked := eachOk_of_forall (f := fun a : Attribute => asMember a.memberOf) (g := id) hlook
  rw [List.map_id] at hlooked
  rw [result_filterBlocks hnamed rfl hgroups hconj, hlooked,
    Bundle.eachOk_write_of_isWritten fun b hb => hmember b (List.mem_append_left _ hb),
    Bundle.eachOk_write_of_isWritten fun b hb => hmember b (List.mem_append_right _ hb),
    filterBundles, List.map_append]
  rfl

/-- Groups may be declared more than once, and may have no members; conditions have clauses, and a
text or nothing as their group.  The expression of such a filter joins, by `AND`, one part in
parentheses for each group that has members, at its first declaration and under the conjunction
declared there, and one for the conditions outside all groups, if there are any.  Every condition
stands in one part, and there once; a part that is joined by `OR` holds members of one group. -/
theorem filterExpression_partition (hgroups : List.Forall₂ IsGroup groups gs)
    (hconj : ∀ g ∈ gs, g.2 = "AND" ∨ g.2 = "OR")
    (haccepted : ∀ es ∈ conditions, ∃ c, (Clause.read (map es)).result = .ok c)
    (hmemberOf : ∀ a ∈ conditions.map Attribute.ofCanonical,
      a.memberOf = null ∨ ∃ s, a.memberOf = str s) :
    (filterExpression (list (groups.map .map)) (list (conditions.map .map))).result
        = .ok (joinedBy "AND"
          ((filterBundles (conditions.map Attribute.ofCanonical) gs).map Bundle.inner)) ∧
      (∀ es ∈ conditions, (Clause.read (map es)).result
        = .ok (clauseOf (Attribute.ofCanonical es))) ∧
      ((filterBundles (conditions.map Attribute.ofCanonical) gs).flatMap Bundle.members).Perm
        (conditions.map Attribute.ofCanonical) ∧
      ∀ b ∈ filterBundles (conditions.map Attribute.ofCanonical) gs, b.conjunction ≠ "AND" →
        ∃ g ∈ gs, b.conjunction = g.2 ∧ ∀ a ∈ b.members, a.memberOf = str g.1 := by
  have hnamed : ∀ es ∈ conditions, Attribute.IsNamed es := by
    intro es hes
    obtain ⟨c, hc⟩ := haccepted es hes
    exact (isNamed_of_read hc).1
  have hwritten : ∀ es ∈ conditions, IsWritten (Attribute.ofCanonical es) := by
    intro es hes
    obtain ⟨c, hc⟩ := haccepted es hes
    exact (isNamed_of_read hc).2
  have hblocks := filterBlocks_of_isWritten hnamed hgroups hconj
    (fun a ha => by
      obtain ⟨es, hes, rfl⟩ := List.mem_map.1 ha
      exact hwritten es hes)
    (fun a ha => by
      rcases hmemberOf a ha with hnone | ⟨s, hs⟩
      · rw [hnone]
        rfl
      · rw [hs]
        rfl)
  refine ⟨?_, ?_, perm_filterBundles _ gs, fun b hb => of_mem_filterBundles hb⟩
  · rw [filterExpression, Noted.result_bind, hblocks]
    show Except.ok (filterText _) = _
    rw [Bundle.filterText_map_block]
    intro b hb
    rcases List.mem_append.1 hb with hb | hb
    · obtain ⟨g, -, rfl, hsome⟩ := of_mem_groupBundles hb
      exact hsome
    · exact (of_mem_otherBundles hb).2
  · intro es hes
    rw [Clause.result_read, Attribute.read_of_isNamed (hnamed es hes)]
    exact hwritten es hes

end Expression

/-- A group that is declared twice, with a group without members in between. -/
def repeatedGroups : List (String × String) := [("g", "OR"), ("e", "OR"), ("g", "AND")]

/-- Two members of that group, a member of a group that is not declared, and a condition without a
group. -/
def scatteredConditions : List Entries :=
  [[(str "name", str "a"), (str "value", int 1), (str "memberOf", str "g")],
    [(str "name", str "b"), (str "value", int 2), (str "memberOf", str "x")],
    [(str "name", str "c"), (str "value", int 3), (str "memberOf", str "g")],
    [(str "name", str "d"), (str "value", int 4)]]

/-- The filter of these conditions and groups. -/
theorem filterExpression_partition_repeated :
    (filterExpression (list ((repeatedGroups.map groupRecord).map .map))
        (list (scatteredConditions.map .map))).result
      = .ok "((#a = :a) OR (#c = :c)) AND ((#b = :b) AND (#d = :d))" ∧
    ((filterBundles (scatteredConditions.map Attribute.ofCanonical) repeatedGroups).flatMap
      Bundle.members).Perm (scatteredConditions.map Attribute.ofCanonical) := by
  have haccepted : ∀ es ∈ scatteredConditions, ∃ c, (Clause.read (map es)).result = .ok c := by
    simp only [scatteredConditions, List.forall_mem_cons, List.not_mem_nil, false_imp_iff,
      implies_true, and_true]
    exact ⟨⟨_, rfl⟩, ⟨_, rfl⟩, ⟨_, rfl⟩, ⟨_, rfl⟩⟩
  have hmemberOf : ∀ a ∈ scatteredConditions.map Attribute.ofCanonical,
      a.memberOf = null ∨ ∃ s, a.memberOf = str s := by
    simp only [scatteredConditions, List.map_cons, List.map_nil, List.forall_mem_cons,
      List.not_mem_nil, false_imp_iff, implies_true, and_true]
    exact ⟨.inr ⟨"g", rfl⟩, .inr ⟨"x", rfl⟩, .inr ⟨"g", rfl⟩, .inl rfl⟩
  obtain ⟨htext, -, hperm, -⟩ := filterExpression_partition (forall₂_groupRecord repeatedGroups)
    (by decide) haccepted hmemberOf
  exact ⟨htext.trans rfl, hperm⟩

end KeysetQuery

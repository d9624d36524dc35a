import KeysetQuery.Proofs.Expression.Meaning
import KeysetQuery.Proofs.Query.Blocks
import KeysetQuery.Proofs.Query.Members
import KeysetQuery.Proofs.Schema.Names

/-!
# Compiled queries mean what was asked

* `Entries.meaningOf` — the truth of an expression in a request, read and evaluated by the maps of
  that request;
* `Descriptor.admits` — whether a filter admits a record, without any expression;
* `Bundle.isTerm`, `Bundle.eval_formula` — a bundle is read back as what its members say;
* `meaningOf_queryParams` — the key expression and the filter expression of a compiled query say
  what the key and the filter say.
-/

namespace KeysetQuery

open Value Entries

/-! ### What is said -/

/-- The truth of the expression that a request has as a member; a member that is missing asks
nothing. -/
def Entries.meaningOf (I : Interpretation) (params : Entries) (member : String) : Option Bool := do
  let f ←
    match params.field? member with
    | some (str text) => Formula.read text
    | some _ => none
    | none => some .always
  let names ← params.field? "ExpressionAttributeNames"
  let values ← params.field? "ExpressionAttributeValues"
  match names, values with
  | map names, map values => f.eval I names values
  | _, _ => none

/-- Whether conditions under a conjunction hold. -/
def holdsJointly (I : Interpretation) (conjunction : String) (as : List Attribute) : Bool :=
  if conjunction = "OR" then as.any (Attribute.holds I) else as.all (Attribute.holds I)

/-- Whether a filter admits a record: each group that has members holds by its own conjunction, and
so does each condition outside all groups. -/
def Descriptor.admits (I : Interpretation) (d : Descriptor) : Bool :=
  (d.declaredGroups.all fun g =>
    (membersOf d.filterAttributes g.1).isEmpty ||
      holdsJointly I g.2 (membersOf d.filterAttributes g.1)) &&
    ((d.filterAttributes.filter fun a => !isGrouped d.declaredGroups a).all (Attribute.holds I))

/-! ### Bundles -/

namespace Bundle

/-- The formula of a bundle. -/
def formula (b : Bundle) : Formula :=
  Formula.join b.conjunction
    (b.members.map fun a => (clauseOf a).formula (a.aliases.map Prod.fst))

/-- Whether a bundle holds. -/
def holds (I : Interpretation) (b : Bundle) : Bool := holdsJointly I b.conjunction b.members

/-- The text of a block of conditions all of which must hold. -/
theorem filterText_allOf (as : List Attribute) :
    filterText ((allOf as).map block) = (block ⟨"AND", as⟩).text := by
  unfold allOf
  split
  · rename_i hempty
    rw [List.isEmpty_iff.1 hempty]
    rfl
  · exact String.intercalate_singleton

section Bundles

variable {as : List Attribute} {b : Bundle}

/-- The block of a bundle is a term. -/
theorem isTerm (hnames : WellNamed as) (hb : b.IsWritten) (hsub : ∀ a ∈ b.members, a ∈ as)
    (n : ℕ) : Reader.IsTerm (Reader.nested (n + 1)) b.block.text.toList b.formula := by
  refine Reader.isTerm_block hb.conjunction hb.nonempty ?_ n
  intro a ha
  have hmem := hsub a ha
  refine Clause.isClause_text a.aliases_map_fst_ne_nil ?_
    (Clause.isAbout_of_ofAttribute (hnames.isName a hmem).isWord (hb.members a ha))
  intro s hs
  obtain ⟨p, hp, rfl⟩ := List.mem_map.1 hs
  exact (hnames.hasWords hmem).isWord_alias hp

/-- The formula of a bundle says what its members say. -/
theorem eval_formula (hnames : WellNamed as) (hshape : ∀ a ∈ as, a.IsShaped) (hb : b.IsWritten)
    (hsub : ∀ a ∈ b.members, a ∈ as) (I : Interpretation) :
    b.formula.eval I (aliasMap as) (bindingMap as) = some (b.holds I) := by
  have hmember : ∀ a ∈ b.members,
      ((clauseOf a).formula (a.aliases.map Prod.fst)).eval I (aliasMap as) (bindingMap as)
        = some (a.holds I) := by
    intro a ha
    have hmem := hsub a ha
    exact Clause.eval_formula_of_ofAttribute (hshape a hmem) (hb.members a ha)
      (fun p hp => segmentOf_aliasMap hnames hmem hp)
      (fun p hp => valueOf_bindingMap hnames hmem hp)
  cases b with
  | mk conjunction members =>
    cases members with
    | nil => exact absurd rfl hb.nonempty
    | cons a rest =>
      obtain ⟨ha, hrest⟩ := List.forall_mem_cons.1 hmember
      rw [holds, holdsJointly]
      by_cases hor : conjunction = "OR"
      · have hjoin : formula ⟨conjunction, a :: rest⟩
            = (rest.map fun a => (clauseOf a).formula (a.aliases.map Prod.fst)).foldl .either
              ((clauseOf a).formula (a.aliases.map Prod.fst)) := if_pos hor
        rw [hjoin, Formula.eval_foldl_either ha hrest, if_pos hor, List.any_cons]
      · have hjoin : formula ⟨conjunction, a :: rest⟩
            = (rest.map fun a => (clauseOf a).formula (a.aliases.map Prod.fst)).foldl .both
              ((clauseOf a).formula (a.aliases.map Prod.fst)) := if_neg hor
        rw [hjoin, Formula.eval_foldl_both ha hrest, if_neg hor, List.all_cons]

/-- The text of several bundles is read back as what all of them say. -/
theorem exists_read_filterText (hnames : WellNamed as) (hshape : ∀ a ∈ as, a.IsShaped)
    {bs : List Bundle} (hbs : ∀ b ∈ bs, b.IsWritten ∧ ∀ a ∈ b.members, a ∈ as) :
    ∃ f, Formula.read (filterText (bs.map block)) = some f ∧
      ∀ I, f.eval I (aliasMap as) (bindingMap as) = some (bs.all (holds I)) := by
  cases bs with
  | nil => exact ⟨.always, by decide +kernel, fun I => rfl⟩
  | cons b bs =>
    refine ⟨_, Reader.read_filterText (by simp) fun c hc n =>
      isTerm hnames (hbs c hc).1 (hbs c hc).2 n, ?_⟩
    intro I
    obtain ⟨hb, hbs⟩ := List.forall_mem_cons.1 hbs
    have hword : ¬ "AND" = "OR" := by decide
    rw [List.map_cons, Formula.join, if_neg hword, List.all_cons]
    exact Formula.eval_foldl_both (eval_formula hnames hshape hb.1 hb.2 I)
      fun c hc => eval_formula hnames hshape (hbs c hc).1 (hbs c hc).2 I

end Bundles

end Bundle

/-! ### Filters -/

section Filters

variable {as : List Attribute} {gs : List (String × String)}

/-- The bundles of a filter have conditions of the filter as members. -/
theorem members_subset {b : Bundle} (hb : b ∈ groupBundles as gs ++ otherBundles as gs) :
    ∀ a ∈ b.members, a ∈ as := by
  intro a ha
  rcases List.mem_append.1 hb with hb | hb
  · obtain ⟨g, -, rfl⟩ := List.mem_map.1 hb
    exact (List.mem_filter.1 ha).1
  · unfold otherBundles Bundle.allOf at hb
    split at hb
    · exact absurd hb List.not_mem_nil
    · rw [List.mem_singleton.1 hb] at ha
      exact (List.mem_filter.1 ha).1

theorem all_groupBundles (I : Interpretation) :
    (groupBundles as gs).all (Bundle.holds I)
      = gs.all fun g => (membersOf as g.1).isEmpty || holdsJointly I g.2 (membersOf as g.1) := by
  induction gs with
  | nil => rfl
  | cons g gs ih =>
    rw [List.all_cons, ← ih, groupBundles, groupsInUse, List.filter_cons]
    cases hempty : (membersOf as g.1).isEmpty <;> rfl

theorem all_allOf (I : Interpretation) (as : List Attribute) :
    (Bundle.allOf as).all (Bundle.holds I) = as.all (Attribute.holds I) := by
  unfold Bundle.allOf
  split
  · rename_i hempty
    rw [List.isEmpty_iff.1 hempty]
    rfl
  · rw [List.all_cons, List.all_nil, Bool.and_true]
    rfl

/-- The bundles of a filter say what the filter says. -/
theorem all_bundles (I : Interpretation) (d : Descriptor) :
    (groupBundles d.filterAttributes d.declaredGroups
      ++ otherBundles d.filterAttributes d.declaredGroups).all (Bundle.holds I) = d.admits I := by
  rw [List.all_append, all_groupBundles, otherBundles, all_allOf, Descriptor.admits]

/-- The groups of a descriptor whose filters have different names have different names. -/
theorem nodup_declaredGroups {d : Descriptor} (h : (d.filters.map Filter.name).Nodup) :
    (d.declaredGroups.map Prod.fst).Nodup := by
  have hsub : (d.declaredGroups.map Prod.fst).Sublist (d.filters.map Filter.name) := by
    rw [Descriptor.declaredGroups, List.map_map, Descriptor.partsOf, List.map_filterMap]
    have hpick : ∀ fs : List Filter, (fs.filterMap fun f =>
        ((f.parts.get? "group").map fun v => (f.name, v)).map
          (Prod.fst ∘ fun p : String × Value => (p.1, declaredConjunction p.2))).Sublist
          (fs.map Filter.name) := by
      intro fs
      induction fs with
      | nil => exact List.Sublist.refl []
      | cons f fs ih =>
        rw [List.filterMap_cons]
        cases f.parts.get? "group" with
        | none => exact ih.cons _
        | some v => exact ih.cons_cons _
    exact hpick d.filters
  exact h.sublist hsub

end Filters

/-! ### Requests -/

section Requests

variable {p : QueryParts} {d : Descriptor} {I : Interpretation} {f : Formula} {b : Bool}

theorem meaningOf_keyText (hread : Formula.read p.keyText = some f)
    (heval : f.eval I p.names p.values = some b) :
    (p.members d).meaningOf I "KeyConditionExpression" = some b := by
  simp only [Entries.meaningOf, p.field?_members_keyText, p.field?_members_names,
    p.field?_members_values, hread, Option.bind_eq_bind, Option.bind_some, heval]

theorem meaningOf_filterText {s : String} (hs : p.filterText = some s)
    (hread : Formula.read s = some f) (heval : f.eval I p.names p.values = some b) :
    (p.members d).meaningOf I "FilterExpression" = some b := by
  simp only [Entries.meaningOf, p.field?_members_filterText, hs, Option.map_some,
    p.field?_members_names, p.field?_members_values, hread, Option.bind_eq_bind,
    Option.bind_some, heval]

theorem meaningOf_noFilter (hs : p.filterText = none) :
    (p.members d).meaningOf I "FilterExpression" = some true := by
  simp only [Entries.meaningOf, p.field?_members_filterText, hs, Option.map_none,
    p.field?_members_names, p.field?_members_values, Option.bind_eq_bind, Option.bind_some,
    Formula.eval]

end Requests

/-! ### Compiled queries -/

/-- A compiled query means what was asked.  Both of its expressions can be read, every alias and
placeholder in them is defined, and under each interpretation of the primitive tests the key
expression holds when all conditions of the key do, and the filter expression when the filter
admits the record. -/
theorem meaningOf_queryParams {defaultLimit : ℤ} {es params : Entries} {d : Descriptor}
    {primaryKey table : Value} (hd : Descriptor.check defaultLimit es = .ok d)
    (hnames : WellNamed (keyAttributes primaryKey ++ d.filterAttributes))
    (hshape : ∀ a ∈ keyAttributes primaryKey ++ d.filterAttributes, a.IsShaped)
    (h : (queryParams .standard primaryKey table d).result = .ok params) (I : Interpretation) :
    params.meaningOf I "KeyConditionExpression"
        = some ((keyAttributes primaryKey).all (Attribute.holds I)) ∧
      params.meaningOf I "FilterExpression" = some (d.admits I) := by
  obtain ⟨groups, conditions, keys, block, attributes, filter, hgroups, hconditions, hkeys, hblock,
    hattributes, hfilter, rfl⟩ := queryParams_eq_ok h
  obtain ⟨hconj, rfl⟩ := groups_eq_ok hgroups
  have hattributes := readAttributes_eq_ok hkeys hconditions hattributes
  obtain ⟨hnamed, hconditions⟩ := conditions_eq_ok hconditions
  obtain ⟨hkeysNamed, hkeys⟩ := keyConditions_eq_ok hkeys
  obtain ⟨rfl, hwritten⟩ := ofConditions_eq_ok hkeysNamed hblock
  rw [hkeys] at hwritten ⊢
  rw [← hattributes] at hnames hshape
  constructor
  · have hkey : ∀ b ∈ Bundle.allOf (keyAttributes primaryKey),
        b.IsWritten ∧ ∀ a ∈ b.members, a ∈ attributes := by
      intro b hb
      unfold Bundle.allOf at hb
      split at hb
      · exact absurd hb List.not_mem_nil
      · rename_i hne
        rw [List.mem_singleton.1 hb]
        refine ⟨⟨.inl rfl, by simpa using hne, hwritten⟩, ?_⟩
        intro a ha
        rw [hattributes]
        exact List.mem_append_left _ ha
    obtain ⟨f, hread, heval⟩ := Bundle.exists_read_filterText hnames hshape hkey
    rw [Bundle.filterText_allOf] at hread
    rw [meaningOf_keyText hread (heval I), all_allOf]
  · unfold IsFilterText at hfilter
    split at hfilter
    · rename_i hempty
      have hnone : d.filterAttributes = [] := by
        rw [← hconditions, List.isEmpty_iff.1 hempty]
        rfl
      rw [meaningOf_noFilter hfilter, Descriptor.admits, hnone]
      simp [membersOf]
    · obtain ⟨blocks, hblocks, rfl⟩ := hfilter
      obtain ⟨rfl, hbundles⟩ := filterBlocks_eq_ok hnamed hconditions hconj
        (nodup_declaredGroups (Descriptor.nodup_names hd)) hblocks
      obtain ⟨f, hread, heval⟩ := Bundle.exists_read_filterText hnames hshape fun b hb =>
        ⟨hbundles b hb, fun a ha => by
          rw [hattributes]
          exact List.mem_append_right _ (members_subset hb a ha)⟩
      rw [meaningOf_filterText rfl hread (heval I), all_bundles]

/-- A key with a bare part and a tagged one. -/
def groupedKey : Value :=
  map [(str "pk", str "A"),
    (str "sk", map [(str "value", str "b"), (str "operator", str "startswith")])]

/-- Filters with a group that has two members, one of them with a path, beside a negated range. -/
def groupedFilters : Entries :=
  [(str "rawFilters", map [
    (str "any", map [(str "group", map [(str "conjunction", str "OR")])]),
    (str "x", map [(str "condition", map [(str "value", list [int 1, int 2]),
      (str "operator", str "in"), (str "memberOf", str "any")])]),
    (str "y", map [(str "condition", map [(str "value", .bool true),
      (str "operator", str "exists"), (str "path", str "meta.owner_1"),
      (str "memberOf", str "any")])]),
    (str "z", map [(str "condition", map [(str "value", tuple [int 3, int 9]),
      (str "operator", str "between"), (str "negate", .bool true)])])])]

/-- The meaning of a query with such a key and such filters. -/
theorem meaningOf_queryParams_grouped : ∃ d params,
    Descriptor.check 50 groupedFilters = .ok d ∧
      (queryParams .standard groupedKey (str "t") d).result = .ok params ∧
      ∀ I : Interpretation,
        params.meaningOf I "KeyConditionExpression"
            = some (I (.compare .equal) "pk" [str "A"] && I (.call .beginsWith) "sk" [str "b"]) ∧
          params.meaningOf I "FilterExpression"
            = some ((I .oneOf "x" [int 1, int 2] || I (.call .attributeExists) "meta.owner_1" [])
              && !I .between "z" [int 3, int 9]) := by
  refine ⟨_, _, rfl, rfl, fun I => ?_⟩
  obtain ⟨hkey, hfilter⟩ := @meaningOf_queryParams 50 groupedFilters _ _ groupedKey (str "t") rfl
    ⟨by decide +kernel, by decide +kernel, by decide +kernel⟩ (by decide +kernel) rfl I
  refine ⟨hkey.trans ?_, hfilter.trans ?_⟩
  · show some (_ && (_ && true)) = _
    rw [Bool.and_true]
    rfl
  · show some ((_ || (_ || false)) && true && (_ && true)) = _
    rw [Bool.or_false, Bool.and_true, Bool.and_true]
    rfl

end KeysetQuery

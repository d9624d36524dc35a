import KeysetQuery.Proofs.Expression.Operands
import KeysetQuery.Proofs.Query.Compiled

/-!
# Closed requests

A store refuses a request whose expressions use an alias or a placeholder that is not defined, and
one that defines an alias or a placeholder that is not used.

* `queryAttributes` — the conditions of a query, as a normalizer gives them;
* `Entries.wordsOf` — what the expressions of a request use behind a mark;
* `mem_wordsOf_iff` — this is what the clauses of the conditions use, in whatever groups they are;
* `isKeyedBy_names` — the aliases that are used are the ones that are defined;
* `isKeyedBy_values` — so are the placeholders, where values fit their operators.
-/

namespace KeysetQuery

open Value Entries

/-- The conditions of a query, those of its key and then those of its filter. -/
def queryAttributes (n : Normalizer) (primaryKey : Value) (d : Descriptor) :
    Except Fault (List Attribute) := do
  let keys ← keyConditions n primaryKey
  let conditions ← d.conditions n
  readAttributes ((keys ++ conditions).map .map)

/-- The characters of an expression of a request; a member that is missing has none. -/
def Entries.expression (params : Entries) (member : String) : List Char :=
  match params.field? member with
  | some (str text) => text.toList
  | _ => []

/-- The words behind a mark in the two expressions of a request. -/
def Entries.wordsOf (params : Entries) (m : Mark) : List String :=
  m.words (params.expression "KeyConditionExpression")
    ++ m.words (params.expression "FilterExpression")

/-! ### Bundles -/

section Bundles

variable {as : List Attribute} {gs : List (String × String)} {a : Attribute}

namespace Bundle

theorem isWritten_allOf (h : ∀ a ∈ as, KeysetQuery.IsWritten a) : ∀ b ∈ allOf as, b.IsWritten := by
  intro b hb
  unfold allOf at hb
  split at hb
  · exact absurd hb List.not_mem_nil
  · rename_i hne
    rw [List.mem_singleton.1 hb]
    exact ⟨.inl rfl, by simpa using hne, h⟩

theorem mem_allOf : a ∈ as ↔ ∃ b ∈ allOf as, a ∈ b.members := by
  unfold allOf
  constructor
  · intro ha
    rw [if_neg (by simpa using List.ne_nil_of_mem ha)]
    exact ⟨_, List.mem_singleton_self _, ha⟩
  · rintro ⟨b, hb, ha⟩
    split at hb
    · exact absurd hb List.not_mem_nil
    · rw [List.mem_singleton.1 hb] at ha
      exact ha

/-- The words of bundles are those of the clauses of their members. -/
theorem words_filterText {bs : List Bundle} (hbs : ∀ b ∈ bs, b.IsWritten) (m : Mark) :
    m.words (filterText (bs.map block)).toList
      = bs.flatMap fun b => b.members.flatMap fun a => m.words (clauseOf a).text.toList := by
  rw [KeysetQuery.words_filterText, List.flatMap_map]
  refine List.flatMap_congr fun b hb => ?_
  rw [words_block m (hbs b hb).conjunction, block, List.flatMap_map]

end Bundle

/-- Each condition of a filter is in one of its bundles: in that of its group if that is declared,
and else in the one for the conditions outside all groups. -/
theorem mem_bundles : a ∈ as ↔ ∃ b ∈ groupBundles as gs ++ otherBundles as gs, a ∈ b.members := by
  constructor
  · intro ha
    cases hgrouped : isGrouped gs a with
    | true =>
      obtain ⟨g, hg, hmember⟩ := List.any_eq_true.1 hgrouped
      have hmem : a ∈ membersOf as g.1 := List.mem_filter.2 ⟨ha, hmember⟩
      have hused : g ∈ groupsInUse as gs :=
        List.mem_filter.2 ⟨hg, by simpa using List.ne_nil_of_mem hmem⟩
      exact ⟨_, List.mem_append_left _ (List.mem_map_of_mem hused), hmem⟩
    | false =>
      have hmem : a ∈ as.filter fun a => !isGrouped gs a :=
        List.mem_filter.2 ⟨ha, by rw [hgrouped]; rfl⟩
      obtain ⟨b, hb, hab⟩ := Bundle.mem_allOf.1 hmem
      exact ⟨b, List.mem_append_right _ hb, hab⟩
  · rintro ⟨b, hb, ha⟩
    exact members_subset hb a ha

end Bundles

/-! ### Requests -/

section Requests

variable {n : Normalizer} {defaultLimit : ℤ} {es params : Entries} {d : Descriptor}
  {primaryKey table : Value} {as : List Attribute}

theorem isNamed_of_readAttributes {ess : List Entries} (h : readAttributes (ess.map .map) = .ok as) :
    ∀ es ∈ ess, Attribute.IsNamed es := by
  intro es hes
  obtain ⟨a, -, ha⟩ := exists_ok_of_eachOk h (List.mem_map_of_mem hes)
  rw [Attribute.IsNamed]
  cases hname : field? es "name" with
  | some name => rfl
  | none => simp [Attribute.read, hname, misused] at ha

theorem expression_members_keyText (p : QueryParts) (d : Descriptor) :
    (p.members d).expression "KeyConditionExpression" = p.keyText.toList := rfl

theorem expression_members_filterText (p : QueryParts) (d : Descriptor) :
    (p.members d).expression "FilterExpression" = (p.filterText.getD "").toList := by
  rw [Entries.expression, p.field?_members_filterText]
  cases p.filterText <;> rfl

/-- The filter of a query is written from its bundles; one without conditions has none. -/
theorem filterText_eq {conditions : List Entries} {gs : List (String × String)}
    {filter : Option String} (hnamed : ∀ es ∈ conditions, Attribute.IsNamed es)
    (hconj : ∀ g ∈ gs, g.2 = "AND" ∨ g.2 = "OR") (hnodup : (gs.map Prod.fst).Nodup)
    (hfilter : IsFilterText (gs.map groupRecord) conditions filter) : ∃ fs : List Bundle,
      filter.getD "" = filterText (fs.map Bundle.block) ∧ (∀ b ∈ fs, b.IsWritten) ∧
        ∀ a, a ∈ conditions.map Attribute.ofCanonical ↔ ∃ b ∈ fs, a ∈ b.members := by
  unfold IsFilterText at hfilter
  split at hfilter
  · rename_i hempty
    rw [List.isEmpty_iff.1 hempty, hfilter]
    exact ⟨[], rfl, by simp, by simp⟩
  · obtain ⟨blocks, hblocks, rfl⟩ := hfilter
    obtain ⟨rfl, hwritten⟩ := filterBlocks_eq_ok hnamed rfl hconj hnodup hblocks
    exact ⟨_, rfl, hwritten, fun a => mem_bundles⟩

/-- The expressions of a request are written from bundles that have the conditions of the query as
members, and its maps are those of the conditions. -/
theorem exists_bundles (hd : Descriptor.check defaultLimit es = .ok d)
    (has : queryAttributes n primaryKey d = .ok as)
    (h : (queryParams n primaryKey table d).result = .ok params) : ∃ ks fs : List Bundle,
      params.expression "KeyConditionExpression" = (filterText (ks.map Bundle.block)).toList ∧
        params.expression "FilterExpression" = (filterText (fs.map Bundle.block)).toList ∧
        (∀ b ∈ ks ++ fs, b.IsWritten) ∧ (∀ a, a ∈ as ↔ ∃ b ∈ ks ++ fs, a ∈ b.members) ∧
        params.field? "ExpressionAttributeNames" = some (map (markedMap as .name)) ∧
        params.field? "ExpressionAttributeValues" = some (map (markedMap as .value)) := by
  obtain ⟨groups, conditions, keys, block, attributes, filter, hgroups, hconditions, hkeys, hblock,
    hattributes, hfilter, rfl⟩ := queryParams_eq_ok h
  obtain ⟨keys', hkeys', has⟩ := bind_eq_ok.1 has
  obtain rfl := Except.ok.inj (hkeys.symm.trans hkeys')
  obtain ⟨conditions', hconditions', has⟩ := bind_eq_ok.1 has
  obtain rfl := Except.ok.inj (hconditions.symm.trans hconditions')
  obtain rfl := Except.ok.inj (hattributes.symm.trans has)
  have hnamed := isNamed_of_readAttributes hattributes
  obtain ⟨hkeysNamed, hconditionsNamed⟩ := List.forall_mem_append.1 hnamed
  have hsplit : attributes
      = keys.map Attribute.ofCanonical ++ conditions.map Attribute.ofCanonical := by
    rw [← List.map_append]
    exact Except.ok.inj (hattributes.symm.trans (readAttributes_of_isNamed hnamed))
  obtain ⟨rfl, hkeysWritten⟩ := ofConditions_eq_ok hkeysNamed hblock
  obtain ⟨hconj, rfl⟩ := groups_eq_ok hgroups
  obtain ⟨fs, htext, hfilterWritten, hmem⟩ := filterText_eq hconditionsNamed hconj
    (nodup_declaredGroups (Descriptor.nodup_names hd)) hfilter
  refine ⟨Bundle.allOf (keys.map Attribute.ofCanonical), fs, ?_, ?_,
    List.forall_mem_append.2 ⟨Bundle.isWritten_allOf hkeysWritten, hfilterWritten⟩, fun a => ?_,
    rfl, rfl⟩
  · rw [expression_members_keyText, Bundle.filterText_allOf]
    rfl
  · rw [expression_members_filterText, htext]
  · rw [hsplit, List.mem_append, Bundle.mem_allOf, hmem]
    simp only [List.mem_append, or_and_right, exists_or]

/-- What the expressions of a request use behind a mark is what the clauses of the conditions of the
query use, whichever groups these are in. -/
theorem mem_wordsOf_iff (hd : Descriptor.check defaultLimit es = .ok d)
    (has : queryAttributes n primaryKey d = .ok as)
    (h : (queryParams n primaryKey table d).result = .ok params) (m : Mark) (w : String) :
    w ∈ params.wordsOf m ↔ ∃ a ∈ as, w ∈ m.words (clauseOf a).text.toList := by
  obtain ⟨ks, fs, hkeyText, hfilterText, hwritten, hmem, -⟩ := exists_bundles hd has h
  obtain ⟨hks, hfs⟩ := List.forall_mem_append.1 hwritten
  rw [Entries.wordsOf, hkeyText, hfilterText, Bundle.words_filterText hks,
    Bundle.words_filterText hfs, ← List.flatMap_append]
  simp only [List.mem_flatMap]
  constructor
  · rintro ⟨b, hb, a, ha, hw⟩
    exact ⟨a, (hmem a).2 ⟨b, hb, ha⟩, hw⟩
  · rintro ⟨a, ha, hw⟩
    obtain ⟨b, hb, hab⟩ := (hmem a).1 ha
    exact ⟨b, hb, a, hab, hw⟩

/-- Each condition of a compiled query has a clause. -/
theorem isWritten_of_queryAttributes (hd : Descriptor.check defaultLimit es = .ok d)
    (has : queryAttributes n primaryKey d = .ok as)
    (h : (queryParams n primaryKey table d).result = .ok params) : ∀ a ∈ as, IsWritten a := by
  obtain ⟨ks, fs, -, -, hwritten, hmem, -⟩ := exists_bundles hd has h
  intro a ha
  obtain ⟨b, hb, hab⟩ := (hmem a).1 ha
  exact (hwritten b hb).members a hab

/-! ### What is used and what is defined -/

/-- If the clause of each condition of a query uses what the condition has behind a mark, the map
for the mark defines what the request uses. -/
theorem isKeyedBy_wordsOf (hd : Descriptor.check defaultLimit es = .ok d)
    (has : queryAttributes n primaryKey d = .ok as)
    (h : (queryParams n primaryKey table d).result = .ok params) {m : Mark}
    (hsame : ∀ a ∈ as, ∀ w, w ∈ m.words (clauseOf a).text.toList ↔ w ∈ a.behind m) :
    (markedMap as m).IsKeyedBy m (params.wordsOf m) := by
  refine (isKeyedBy_markedMap as m).iff.2 fun w => ?_
  rw [mem_wordsOf_iff hd has h, List.mem_flatMap]
  exact exists_congr fun a => and_congr_right fun ha => hsame a ha w

/-- The aliases in the expressions of a compiled query are exactly those that it defines, whatever
the operators, the paths and the groups of its conditions are, and even if aliases coincide. -/
theorem isKeyedBy_names (hd : Descriptor.check defaultLimit es = .ok d)
    (has : queryAttributes n primaryKey d = .ok as) (hwords : ∀ a ∈ as, a.HasWords)
    (h : (queryParams n primaryKey table d).result = .ok params) :
    ∃ names : Entries, params.field? "ExpressionAttributeNames" = some (map names) ∧
      names.IsKeyedBy .name (params.wordsOf .name) := by
  obtain ⟨-, -, -, -, -, -, hnames, -⟩ := exists_bundles hd has h
  refine ⟨_, hnames, isKeyedBy_wordsOf hd has h fun a ha w => ?_⟩
  rw [Clause.words_of_ofAttribute (hwords a ha) (isWritten_of_queryAttributes hd has h a ha)]
  rfl

end Requests

/-- Filters with a group of two members, one of them with a path, and a condition outside it whose
alias is also that of a segment of this path. -/
def sharedAliasFilters : Entries :=
  [(str "rawFilters", map [
    (str "any", map [(str "group", map [(str "conjunction", str "OR")])]),
    (str "x", map [(str "condition", map [(str "value", list [int 1, int 2]),
      (str "operator", str "in"), (str "memberOf", str "any")])]),
    (str "y", map [(str "condition", map [(str "value", .bool true),
      (str "operator", str "exists"), (str "path", str "meta.owner"),
      (str "memberOf", str "any")])]),
    (str "y_meta", map [(str "condition", map [(str "value", tuple [int 3, int 9]),
      (str "operator", str "between"), (str "negate", .bool true)])])])]

/-- The aliases of a query with such filters. -/
theorem isKeyedBy_names_shared : ∃ d params,
    Descriptor.check 50 sharedAliasFilters = .ok d ∧
      (queryParams .standard groupedKey (str "t") d).result = .ok params ∧
      params.wordsOf .name = ["pk", "sk", "x", "y_meta", "y_owner", "y_meta"] ∧
      ∃ names : Entries, params.field? "ExpressionAttributeNames" = some (map names) ∧
        names.IsKeyedBy .name (params.wordsOf .name) := by
  refine ⟨_, _, rfl, rfl, by decide +kernel, ?_⟩
  exact @isKeyedBy_names .standard 50 sharedAliasFilters _ _ groupedKey (str "t") _ rfl rfl
    (by decide +kernel) rfl

/-- A clause and the map of values of its condition have the same placeholders exactly if the value
fits the operator.  So the placeholders in the expressions of a compiled query are exactly those
that it defines, if the values of all of its conditions fit. -/
theorem isKeyedBy_values :
    (∀ (v : Value) (a : Attribute) (c : Clause), Attribute.read v = .ok a → a.HasWords →
      (Clause.read v).result = .ok c →
      ∃ values, placeholderMap (list [v]) (str ":") = .ok values ∧
        (values.IsKeyedBy .value (Mark.value.words c.text.toList) ↔ a.Fits)) ∧
    ∀ {n : Normalizer} {defaultLimit : ℤ} {es params : Entries} {d : Descriptor}
      {primaryKey table : Value} {as : List Attribute},
      Descriptor.check defaultLimit es = .ok d → queryAttributes n primaryKey d = .ok as →
      (∀ a ∈ as, a.HasWords ∧ a.Fits) →
      (queryParams n primaryKey table d).result = .ok params →
      ∃ values : Entries, params.field? "ExpressionAttributeValues" = some (map values) ∧
        values.IsKeyedBy .value (params.wordsOf .value) := by
  refine ⟨fun v a c hv hwords h => Clause.isKeyedBy_words_iff hv hwords h, ?_⟩
  intro n defaultLimit es params d primaryKey table as hd has hfits h
  obtain ⟨-, -, -, -, -, -, -, hvalues⟩ := exists_bundles hd has h
  refine ⟨_, hvalues, isKeyedBy_wordsOf hd has h fun a ha w => ?_⟩
  have hwritten := isWritten_of_queryAttributes hd has h a ha
  obtain ⟨hwords, hfit⟩ := hfits a ha
  rw [Clause.words_of_ofAttribute hwords hwritten]
  exact (Clause.mem_operands_iff hwritten).2 hfit w

/-- A range with three items defines a placeholder that its clause does not use.  The values of a
query whose conditions all fit are those that it uses. -/
theorem isKeyedBy_values_range_and_grouped :
    (∃ values, placeholderMap (list [map [(str "name", str "z"), (str "operator", str "between"),
        (str "value", list [int 1, int 2, int 3])]]) (str ":") = .ok values ∧
      ¬ values.IsKeyedBy .value (Mark.value.words "#z BETWEEN :z0 AND :z1".toList)) ∧
    ∃ d params, Descriptor.check 50 groupedFilters = .ok d ∧
      (queryParams .standard groupedKey (str "t") d).result = .ok params ∧
      params.wordsOf .value = ["pk", "sk", "x0", "x1", "z0", "z1"] ∧
      ∃ values : Entries, params.field? "ExpressionAttributeValues" = some (map values) ∧
        values.IsKeyedBy .value (params.wordsOf .value) := by
  constructor
  · obtain ⟨values, hvalues, hiff⟩ := isKeyedBy_values.1
      (map [(str "name", str "z"), (str "operator", str "between"),
        (str "value", list [int 1, int 2, int 3])]) _ (.between "#z" "z0" "z1") rfl
      (by decide +kernel) rfl
    refine ⟨values, hvalues, fun hkeyed => ?_⟩
    exact absurd (hiff.1 hkeyed) (by decide)
  · refine ⟨_, _, rfl, rfl, by decide +kernel, ?_⟩
    exact @isKeyedBy_values.2 .standard 50 groupedFilters _ _ groupedKey (str "t") _ rfl rfl
      (by decide +kernel) rfl

end KeysetQuery

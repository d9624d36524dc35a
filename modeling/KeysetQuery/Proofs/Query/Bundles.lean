import KeysetQuery.Proofs.Query.Canonical
import KeysetQuery.Query.Params
import Mathlib.Data.List.Nodup

/-!
# What a query says

* `keyAttributes`, `Descriptor.filterAttributes`, `Descriptor.declaredGroups` — the conditions and
  the groups of a query, as they are given;
* `Bundle` — conditions under one conjunction, and the block that is written for them;
* `result_ofConditions_map` — the block of canonical conditions is written as that of a bundle;
* `groupBundles`, `otherBundles` — the bundles of a filter: one for each group that has members, and
  one for the conditions outside all groups.
-/

namespace KeysetQuery

open Value Entries

/-! ### Conditions and groups -/

/-- The conditions of a key: one for each part that is not empty. -/
def keyAttributes : Value → List Attribute
  | map es => (es.filter fun e => !e.2.isEmpty).map fun e => Attribute.ofRaw e.2 e.1
  | _ => []

/-- The conjunction that the declaration of a group names, `AND` if it names none. -/
def declaredConjunction : Value → String
  | map es =>
    match field? es "conjunction" with
    | some (str s) => s
    | _ => "AND"
  | _ => "AND"

namespace Descriptor

/-- The conditions of a filter. -/
def filterAttributes (d : Descriptor) : List Attribute :=
  (d.partsOf "condition").map fun p => Attribute.ofRaw p.2 (str p.1)

/-- The groups of a filter, each with its conjunction. -/
def declaredGroups (d : Descriptor) : List (String × String) :=
  (d.partsOf "group").map fun p => (p.1, declaredConjunction p.2)

end Descriptor

/-- The members of a group. -/
def membersOf (as : List Attribute) (group : String) : List Attribute :=
  as.filter fun a => isText group a.memberOf

/-- Whether a condition is a member of a declared group. -/
def isGrouped (gs : List (String × String)) (a : Attribute) : Bool :=
  gs.any fun g => isText g.1 a.memberOf

/-! ### Canonical parts -/

/-- The canonical record of a group. -/
def groupRecord (g : String × String) : Entries :=
  [(str "name", str g.1), (str "conjunction", str g.2)]

/-- The declaration of a group that is accepted names one of the two conjunctions. -/
theorem normalizeGroup_eq_ok {raw : Value} {name : String} {es : Entries}
    (h : normalizeGroup raw (str name) = .ok es) :
    (declaredConjunction raw = "AND" ∨ declaredConjunction raw = "OR") ∧
      es = groupRecord (name, declaredConjunction raw) := by
  obtain ⟨declares, hdeclares, h⟩ := bind_eq_ok.1 h
  cases declares with
  | false =>
    have hnone : declaredConjunction raw = "AND" := by
      cases raw with
      | map fs =>
        have hhas : field? fs "conjunction" = none := by
          cases fs with
          | nil => rfl
          | cons e fs =>
            have hhas : Entries.has (e :: fs) (str "conjunction") = false :=
              Except.ok.inj hdeclares
            exact Option.isSome_eq_false_iff.1 hhas |> Option.isNone_iff_eq_none.1
        rw [declaredConjunction, hhas]
      | _ => rfl
    rw [hnone]
    exact ⟨.inl rfl, (Except.ok.inj h).symm⟩
  | true =>
    rw [if_pos rfl] at h
    obtain ⟨c, hc, hrest⟩ := bind_eq_ok.1 h
    cases raw with
    | map fs =>
      have hfield : field? fs "conjunction" = some c := by
        unfold entry at hc
        cases hf : field? fs "conjunction" with
        | none => simp [hf, misused] at hc
        | some w => simpa [hf] using hc
      split at hrest
      · rename_i hconj
        obtain ⟨s, hs, hcs⟩ := List.any_eq_true.1 hconj
        have hcs := isText_iff.1 hcs
        subst hcs
        have hdeclared : declaredConjunction (map fs) = s := by rw [declaredConjunction, hfield]
        rw [hdeclared]
        refine ⟨?_, (Except.ok.inj hrest).symm⟩
        simpa [conjunctions] using hs
      · obtain ⟨-, -, herror⟩ := bind_eq_ok.1 hrest
        exact absurd herror (by simp)
    | _ => simp [entry, misused] at hc

/-- The canonical groups of a query. -/
theorem groups_eq_ok {d : Descriptor} {groups : List Entries} (h : d.groups = .ok groups) :
    (∀ g ∈ d.declaredGroups, g.2 = "AND" ∨ g.2 = "OR") ∧
      groups = d.declaredGroups.map groupRecord := by
  constructor
  · intro g hg
    obtain ⟨p, hp, rfl⟩ := List.mem_map.1 hg
    obtain ⟨es, -, hes⟩ := exists_ok_of_eachOk h hp
    exact (normalizeGroup_eq_ok hes).1
  · obtain ⟨-, hmap⟩ := eachOk_map (P := fun _ => True) (g := id)
      (k := fun p : String × Value => groupRecord (p.1, declaredConjunction p.2)) h
      fun p _ es hes => ⟨trivial, (normalizeGroup_eq_ok hes).2⟩
    rw [List.map_id] at hmap
    rw [hmap, Descriptor.declaredGroups, List.map_map]
    rfl

/-- The canonical conditions of a query say what the filters say. -/
theorem conditions_eq_ok {d : Descriptor} {conditions : List Entries}
    (h : d.conditions .standard = .ok conditions) :
    (∀ es ∈ conditions, Attribute.IsNamed es) ∧
      conditions.map Attribute.ofCanonical = d.filterAttributes :=
  eachOk_map h fun _ _ _ hes => Attribute.ofCanonical_of_condition hes

/-- The canonical conditions of a key say what its parts say. -/
theorem keyConditions_eq_ok {primaryKey : Value} {keys : List Entries}
    (h : keyConditions .standard primaryKey = .ok keys) :
    (∀ es ∈ keys, Attribute.IsNamed es) ∧
      keys.map Attribute.ofCanonical = keyAttributes primaryKey := by
  obtain ⟨es, hentries, hkeys⟩ := bind_eq_ok.1 h
  cases primaryKey with
  | map fs =>
    obtain rfl := Except.ok.inj hentries
    exact eachOk_map hkeys fun _ _ _ hes => Attribute.ofCanonical_of_condition hes
  | _ => simp [Value.entries, misused] at hentries

theorem readAttributes_of_isNamed {ess : List Entries} (h : ∀ es ∈ ess, Attribute.IsNamed es) :
    readAttributes (ess.map .map) = .ok (ess.map Attribute.ofCanonical) :=
  eachOk_of_forall fun es hes => Attribute.read_of_isNamed (h es hes)

/-- The attributes of a compiled query are the conditions of its key and then those of its
filter. -/
theorem readAttributes_eq_ok {d : Descriptor} {primaryKey : Value} {keys conditions : List Entries}
    {attributes : List Attribute} (hkeys : keyConditions .standard primaryKey = .ok keys)
    (hconditions : d.conditions .standard = .ok conditions)
    (h : readAttributes ((keys ++ conditions).map .map) = .ok attributes) :
    attributes = keyAttributes primaryKey ++ d.filterAttributes := by
  obtain ⟨hkeysNamed, hkeys⟩ := keyConditions_eq_ok hkeys
  obtain ⟨hnamed, hconditions⟩ := conditions_eq_ok hconditions
  have hall : ∀ fs ∈ keys ++ conditions, Attribute.IsNamed fs := by
    intro fs hfs
    rcases List.mem_append.1 hfs with hfs | hfs
    · exact hkeysNamed fs hfs
    · exact hnamed fs hfs
  rw [readAttributes_of_isNamed hall, List.map_append, hkeys, hconditions] at h
  exact (Except.ok.inj h).symm

/-! ### Bundles -/

/-- The clause of a condition that has one. -/
def clauseOf (a : Attribute) : Clause := (Clause.ofAttribute a).toOption.getD default

/-- A condition has a clause. -/
def IsWritten (a : Attribute) : Prop := Clause.ofAttribute a = .ok (clauseOf a)

theorem isWritten_of_eq_ok {a : Attribute} {c : Clause} (h : Clause.ofAttribute a = .ok c) :
    IsWritten a ∧ clauseOf a = c := by
  have hclause : clauseOf a = c := by rw [clauseOf, h]; rfl
  exact ⟨by rw [IsWritten, hclause, h], hclause⟩

/-- Conditions under one conjunction. -/
structure Bundle where
  conjunction : String
  members : List Attribute

namespace Bundle

/-- The block of a bundle. -/
def block (b : Bundle) : Block := ⟨b.conjunction, b.members.map clauseOf⟩

/-- A bundle can be written: it has members, and each of them has a clause. -/
structure IsWritten (b : Bundle) : Prop where
  conjunction : b.conjunction = "AND" ∨ b.conjunction = "OR"
  nonempty : b.members ≠ []
  members : ∀ a ∈ b.members, KeysetQuery.IsWritten a

/-- The bundle of conditions all of which must hold, if there are any. -/
def allOf (as : List Attribute) : List Bundle := if as.isEmpty then [] else [⟨"AND", as⟩]

/-- The block of a bundle, or the fault of the first member that has no clause. -/
def write (b : Bundle) : Except Fault Block :=
  (eachOk Clause.ofAttribute b.members).map fun clauses => ⟨b.conjunction, clauses⟩

/-- A bundle whose members have clauses is written as its block. -/
theorem write_of_isWritten {b : Bundle} (h : ∀ a ∈ b.members, KeysetQuery.IsWritten a) :
    b.write = .ok b.block := by
  have hclauses : eachOk Clause.ofAttribute (b.members.map id) = .ok (b.members.map clauseOf) :=
    eachOk_of_forall h
  rw [List.map_id] at hclauses
  rw [write, hclauses]
  rfl

theorem write_eq_ok {b : Bundle} {x : Block} (h : b.write = .ok x) :
    x = b.block ∧ ∀ a ∈ b.members, KeysetQuery.IsWritten a := by
  obtain ⟨clauses, hclauses, -⟩ := map_eq_ok.1 h
  have hwritten : ∀ a ∈ b.members, KeysetQuery.IsWritten a := by
    intro a ha
    obtain ⟨c, -, hc⟩ := exists_ok_of_eachOk hclauses ha
    exact (isWritten_of_eq_ok hc).1
  rw [write_of_isWritten hwritten] at h
  exact ⟨(Except.ok.inj h).symm, hwritten⟩

/-- Bundles that are written one after the other. -/
theorem eachOk_write_eq_ok {bs : List Bundle} {xs : List Block} (h : eachOk write bs = .ok xs) :
    xs = bs.map block ∧ ∀ b ∈ bs, ∀ a ∈ b.members, KeysetQuery.IsWritten a := by
  constructor
  · obtain ⟨-, hmap⟩ := eachOk_map (P := fun _ => True) (g := id) (k := block) h
      fun b _ x hx => ⟨trivial, (write_eq_ok hx).1⟩
    rwa [List.map_id] at hmap
  · intro b hb
    obtain ⟨x, -, hx⟩ := exists_ok_of_eachOk h hb
    exact (write_eq_ok hx).2

theorem eachOk_write_of_isWritten {bs : List Bundle}
    (h : ∀ b ∈ bs, ∀ a ∈ b.members, KeysetQuery.IsWritten a) :
    eachOk write bs = .ok (bs.map block) := by
  have hwrite : eachOk write (bs.map id) = .ok (bs.map block) :=
    eachOk_of_forall fun b hb => write_of_isWritten (h b hb)
  rwa [List.map_id] at hwrite

end Bundle

/-- The block of canonical conditions is written as that of a bundle. -/
theorem result_ofConditions_map {ess : List Entries} (hnamed : ∀ es ∈ ess, Attribute.IsNamed es)
    (conjunction : Value) :
    (Block.ofConditions (ess.map .map) conjunction).result =
      Bundle.write ⟨if conjunction.truthy then conjunction.text else "AND",
        ess.map Attribute.ofCanonical⟩ >>= fun b => conjunction.requireText.map fun _ => b := by
  have hread : eachOk (fun v => (Clause.read v).result) (ess.map .map)
      = eachOk Clause.ofAttribute (ess.map Attribute.ofCanonical) := by
    refine eachOk_map_congr fun es hes => ?_
    rw [Clause.result_read, Attribute.read_of_isNamed (hnamed es hes)]
    rfl
  rw [Block.result_ofConditions, hread, Bundle.write]
  cases eachOk Clause.ofAttribute (ess.map Attribute.ofCanonical) <;> rfl

/-- A conjunction that can be put into a text leaves the faults to the members. -/
theorem result_ofConditions_of_requireText {ess : List Entries}
    (hnamed : ∀ es ∈ ess, Attribute.IsNamed es) {conjunction : Value}
    (h : conjunction.requireText = .ok ()) :
    (Block.ofConditions (ess.map .map) conjunction).result =
      Bundle.write ⟨if conjunction.truthy then conjunction.text else "AND",
        ess.map Attribute.ofCanonical⟩ := by
  rw [result_ofConditions_map hnamed, h]
  cases Bundle.write ⟨if conjunction.truthy then conjunction.text else "AND",
    ess.map Attribute.ofCanonical⟩ <;> rfl

/-- The block of canonical conditions is the block of a bundle. -/
theorem ofConditions_eq_ok {ess : List Entries} (hnamed : ∀ es ∈ ess, Attribute.IsNamed es)
    {conjunction : Value} {b : Block}
    (h : (Block.ofConditions (ess.map .map) conjunction).result = .ok b) :
    b = Bundle.block ⟨if conjunction.truthy then conjunction.text else "AND",
        ess.map Attribute.ofCanonical⟩ ∧
      ∀ a ∈ ess.map Attribute.ofCanonical, IsWritten a := by
  rw [result_ofConditions_map hnamed] at h
  obtain ⟨x, hx, h⟩ := bind_eq_ok.1 h
  obtain ⟨-, -, rfl⟩ := map_eq_ok.1 h
  exact Bundle.write_eq_ok hx

/-! ### Groups -/

/-- The groups that have members. -/
def groupsInUse (as : List Attribute) (gs : List (String × String)) : List (String × String) :=
  gs.filter fun g => !(membersOf as g.1).isEmpty

/-- The bundles of the groups that have members. -/
def groupBundles (as : List Attribute) (gs : List (String × String)) : List Bundle :=
  (groupsInUse as gs).map fun g => ⟨g.2, membersOf as g.1⟩

/-- The bundle of the conditions outside all groups, if there are any. -/
def otherBundles (as : List Attribute) (gs : List (String × String)) : List Bundle :=
  Bundle.allOf (as.filter fun a => !isGrouped gs a)

/-- The bundle of a group holds its members, of which there are some. -/
theorem of_mem_groupBundles {as : List Attribute} {gs : List (String × String)} {b : Bundle}
    (h : b ∈ groupBundles as gs) :
    ∃ g ∈ gs, b = ⟨g.2, membersOf as g.1⟩ ∧ membersOf as g.1 ≠ [] := by
  obtain ⟨g, hg, rfl⟩ := List.mem_map.1 h
  obtain ⟨hmem, hsome⟩ := List.mem_filter.1 hg
  exact ⟨g, hmem, rfl, by simpa using hsome⟩

/-- The other bundle holds the conditions outside all groups, of which there are some. -/
theorem of_mem_otherBundles {as : List Attribute} {gs : List (String × String)} {b : Bundle}
    (h : b ∈ otherBundles as gs) :
    b = ⟨"AND", as.filter fun a => !isGrouped gs a⟩ ∧ b.members ≠ [] := by
  rw [otherBundles, Bundle.allOf] at h
  split at h
  · exact absurd h List.not_mem_nil
  · rename_i hsome
    obtain rfl := List.mem_singleton.1 h
    exact ⟨rfl, by simpa using hsome⟩

end KeysetQuery

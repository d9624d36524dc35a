import KeysetQuery.Proofs.Expression.Operands
import KeysetQuery.Proofs.Record.Update
import KeysetQuery.Proofs.Stored.RoundTrip
import Mathlib.Data.List.Forall2

/-!
# The guard of a new record

A request that writes only where there is no record carries a guard: a condition on the attributes of
the key, and the map of the aliases that the condition uses.

* `guardText` — the condition, for the words of its aliases, and `words_guardText` that these are
  found in it;
* `IsGuard` — the map defines exactly these aliases, and they stand for the attributes of the key;
* `Record.named` — the attributes that the map is made for;
* `isGuard_named_iff`, `isGuard_put_iff` — when a guard is one, and the same of what is sent.
-/

namespace KeysetQuery

open Value Entries Reader

/-! ### Guards -/

/-- The condition that a record has none of the attributes behind given aliases. -/
def guardText (words : List String) : String :=
  " OR ".intercalate (words.map fun w => "attribute_not_exists(#" ++ w ++ ")")

/-- Where all of them are words, the aliases of the condition are found in its text. -/
theorem words_guardText {words : List String} (h : ∀ w ∈ words, IsWord w) :
    Mark.name.words (guardText words).toList = words := by
  have htest : ∀ w ∈ words,
      Mark.name.words ("attribute_not_exists(#" ++ w ++ ")").toList = [w] := by
    intro w hw
    have htext : ("attribute_not_exists(#" ++ w ++ ")").toList
        = "attribute_not_exists(".toList ++ (('#' :: w.toList) ++ (")".toList ++ [])) := by
      simp
    rw [htext, Mark.words_behind Mark.name "attribute_not_exists(".toList (by decide),
      Mark.words_divided Mark.name ('#' :: w.toList) ")".toList (by decide)]
    exact (List.append_nil _).trans (Mark.words_marked .name .name (h w hw))
  have hjoined := words_joined Mark.name (.inr rfl)
    (words.map fun w => "attribute_not_exists(#" ++ w ++ ")")
  rw [List.flatMap_map, List.flatMap_congr htest, List.flatMap_singleton'] at hjoined
  exact hjoined

/-- A condition on the attributes behind given aliases guards the record of a key: the map defines
exactly these aliases, and there is one for each attribute of the key, which stands for the name that
the attribute has in the record. -/
structure IsGuard (words : List String) (names item : Entries) (key : Record) : Prop where
  keyed : names.IsKeyedBy .name words
  resolved : List.Forall₂ (fun e w => names.field? ("#" ++ w) = some (str e.1) ∧
    (item.field? e.1).isSome = true) key words

/-- The parts of a key that are not empty, under the names that a normalizer gives them. -/
def Record.named (f : String → String) (key : Record) : Record :=
  (key.filter fun e => !e.2.isEmpty).map fun e => (f e.1, e.2)

section Guards

variable {n : Normalizer} {f : String → String} {key : Record}

/-- The aliases of changes are their names. -/
theorem isKeyedBy_attributes (changes : Record) :
    (aliasMap changes.attributes).IsKeyedBy .name (changes.map Prod.fst) := by
  have hbehind : changes.attributes.flatMap (fun a => a.behind .name) = changes.map Prod.fst := by
    rw [Record.attributes, List.flatMap_map, List.map_eq_flatMap]
    rfl
  have h := isKeyedBy_markedMap changes.attributes .name
  rwa [hbehind] at h

/-- If the names of a key are the names that are left of it, then nothing was left out. -/
theorem perm_names_named (hnodup : (key.map Prod.fst).Nodup)
    (h : ∀ w, w ∈ key.map Prod.fst ↔ w ∈ (key.named f).map Prod.fst) :
    (∀ e ∈ key, e.2.isEmpty = false) ∧ ((key.map Prod.fst).map f).Perm (key.map Prod.fst) := by
  have hlength : ((key.named f).map Prod.fst).length
      = (key.filter fun e => !e.2.isEmpty).length := by
    rw [Record.named, List.length_map, List.length_map]
  have hle : (key.filter fun e => !e.2.isEmpty).length ≤ key.length := List.length_filter_le _ key
  have hperm : (key.map Prod.fst).Perm ((key.named f).map Prod.fst) := by
    refine (List.subperm_of_subset hnodup fun w hw => (h w).1 hw).perm_of_length_le ?_
    rw [hlength, List.length_map]
    exact hle
  have hfull : (key.filter fun e => !e.2.isEmpty).length = key.length := by
    rw [← hlength, ← hperm.length_eq, List.length_map]
  have hnonempty := List.length_filter_eq_length_iff.1 hfull
  refine ⟨fun e he => by simpa using hnonempty e he, ?_⟩
  rw [Record.named, List.filter_eq_self.2 hnonempty, List.map_map] at hperm
  rw [List.map_map]
  exact hperm.symm

/-- The guard of a key is one exactly if no part of the key is empty and the names are only
permuted. -/
theorem isGuard_named_iff (hnodup : (key.map Prod.fst).Nodup) (data : Entries) :
    IsGuard (key.map Prod.fst) (aliasMap (key.named f).attributes)
        (merge data (Record.entries key)) key ↔
      (∀ e ∈ key, e.2.isEmpty = false) ∧ ((key.map Prod.fst).map f).Perm (key.map Prod.fst) := by
  constructor
  · intro h
    exact perm_names_named hnodup ((isKeyedBy_attributes _).iff.1 h.keyed)
  · rintro ⟨hnonempty, hperm⟩
    have hnames : (key.named f).map Prod.fst = (key.map Prod.fst).map f := by
      rw [Record.named, List.filter_eq_self.2 fun e he => by rw [hnonempty e he]; rfl, List.map_map,
        List.map_map]
      rfl
    have hsame : ∀ w, w ∈ key.map Prod.fst ↔ w ∈ (key.named f).map Prod.fst := by
      intro w
      rw [hnames, hperm.mem_iff]
    refine ⟨(isKeyedBy_attributes _).iff.2 hsame, ?_⟩
    rw [List.forall₂_map_right_iff, List.forall₂_same]
    intro e he
    constructor
    · exact field?_aliasMap_attributes.2 ⟨rfl, (hsame e.1).1 (List.mem_map_of_mem he)⟩
    · exact Option.isSome_iff_ne_none.2 (get?_text_ne_none (mem_merge_entries hnodup he))

/-! ### Requests -/

theorem createGuard_eq_ok (key : Record) :
    createGuard key.toValue = .ok (guardText (key.map Prod.fst)) := by
  have htests : eachOk createTest (key.map fun e => str e.1)
      = .ok (key.map fun e => "attribute_not_exists(#" ++ e.1 ++ ")") :=
    eachOk_of_forall fun e _ => rfl
  have hmembers : key.toValue.members = .ok (key.map fun e => str e.1) := by
    show Except.ok ((Record.entries key).map Prod.fst) = _
    rw [Record.entries, List.map_map]
    rfl
  rw [createGuard, hmembers]
  show (eachOk createTest (key.map fun e => str e.1) >>= _) = _
  rw [htests, guardText, List.map_map]
  rfl

/-- The guard of a key can always be compiled. -/
theorem guardMembers_eq_ok (hn : n.Renames f) (key : Record) :
    guardMembers n key.toValue =
      .ok [(str "ConditionExpression", str (guardText (key.map Prod.fst))),
        (str "ExpressionAttributeNames", map (aliasMap (key.named f).attributes))] := by
  have hread : readAttributes (((key.filter fun e => !e.2.isEmpty).map fun e =>
      [(str "name", str (f e.1)), (str "value", e.2)]).map .map)
      = .ok (key.named f).attributes := by
    rw [List.map_map, Record.attributes, Record.named, List.map_map]
    exact eachOk_of_forall fun e _ => rfl
  rw [guardMembers, createGuard_eq_ok]
  show (n.dataValues (map (Record.entries key)) >>= _) = _
  rw [hn.dataValues_eq_ok]
  show (readAttributes _ >>= _) = _
  rw [hread]
  show (requireAllAliases _ >>= _) = _
  rw [requireAllAliases_attributes]
  rfl

/-- The request that writes the record of a key only where there is none. -/
def Record.guardedParams (key : Record) (f : String → String) (data : Entries) (table : Value) :
    Entries :=
  [(str "TableName", table), (str "Item", map (merge data (Record.entries key))),
    (str "ConditionExpression", str (guardText (key.map Prod.fst))),
    (str "ExpressionAttributeNames", map (aliasMap (key.named f).attributes))]

/-- A request that writes only where there is no record is always compiled, and its condition tests
one alias for each attribute of the key, by its name; where the names are words, these are the
aliases that are found in its text.  The map defines exactly these aliases, each
for the name that the attribute has in the record, exactly if no part of the key is empty and the
names that the normalizer gives are those of the key in some order. -/
theorem isGuard_put_iff {store : RecordStore} (hn : store.normalizer.Renames f)
    (hnodup : (key.map Prod.fst).Nodup) (data : Entries) (table : Value) {createOnly : Value}
    (hcreate : createOnly.truthy = true) :
    ∃ params names item : Entries, (store.begin (.put (map data) key.toValue table createOnly)).result
        = .ok (.process (.settled ⟨.put, map params⟩)) ∧
      params.field? "ConditionExpression" = some (str (guardText (key.map Prod.fst))) ∧
      ((∀ w ∈ key.map Prod.fst, IsWord w) →
        Mark.name.words (guardText (key.map Prod.fst)).toList = key.map Prod.fst) ∧
      params.field? "ExpressionAttributeNames" = some (map names) ∧
      params.field? "Item" = some (map item) ∧
      (IsGuard (key.map Prod.fst) names item key ↔
        (∀ e ∈ key, e.2.isEmpty = false) ∧
          ((key.map Prod.fst).map f).Perm (key.map Prod.fst)) := by
  have hparams : putParams store.normalizer (map data) key.toValue table createOnly.truthy
      = .ok (key.guardedParams f data table) := by
    rw [hcreate]
    show (guardMembers store.normalizer key.toValue >>= _) = _
    rw [guardMembers_eq_ok hn]
    rfl
  refine ⟨key.guardedParams f data table, _, _, ?_, rfl, words_guardText, rfl, rfl,
    isGuard_named_iff hnodup data⟩
  show (RecordStore.settled .put _).result = _
  rw [hparams]
  rfl

end Guards

/-- A key with a text and a zero is guarded, and so is a key whose name is in capitals already where
names are put into capitals. -/
theorem isGuard_put_pair_and_capital :
    (∃ params names item : Entries, ((RecordStore.mk ⟨true, int 1000, 20⟩ .standard 10).begin
        (.put (map [(str "v", int 1)]) (Record.toValue [("pk", str "A"), ("sk", int 0)]) (str "t")
          (.bool true))).result = .ok (.process (.settled ⟨.put, map params⟩)) ∧
      params.field? "ConditionExpression"
        = some (str "attribute_not_exists(#pk) OR attribute_not_exists(#sk)") ∧
      IsGuard ["pk", "sk"] names item [("pk", str "A"), ("sk", int 0)]) ∧
    ∃ params names item : Entries, ((RecordStore.mk ⟨true, int 1000, 20⟩ .upperCase 10).begin
        (.put (map [(str "v", int 1)]) (Record.toValue [("PK", str "A")]) (str "t")
          (.bool true))).result = .ok (.process (.settled ⟨.put, map params⟩)) ∧
      params.field? "ConditionExpression" = some (str "attribute_not_exists(#PK)") ∧
      IsGuard ["PK"] names item [("PK", str "A")] := by
  have hcreate : (Value.bool true).truthy = true := rfl
  constructor
  · have hn : (RecordStore.mk ⟨true, int 1000, 20⟩ .standard 10).normalizer.Renames id := .standard
    have hnodup : (([("pk", str "A"), ("sk", int 0)] : Record).map Prod.fst).Nodup := by decide
    obtain ⟨params, names, item, hbegin, hcondition, -, -, -, hiff⟩ :=
      isGuard_put_iff hn hnodup [(str "v", int 1)] (str "t") hcreate
    exact ⟨params, names, item, hbegin, hcondition, hiff.2 ⟨by decide, List.Perm.refl _⟩⟩
  · have hn : (RecordStore.mk ⟨true, int 1000, 20⟩ .upperCase 10).normalizer.Renames
        Text.upperCase := .withNames fun _ => rfl
    have hnodup : (([("PK", str "A")] : Record).map Prod.fst).Nodup := by decide
    obtain ⟨params, names, item, hbegin, hcondition, -, -, -, hiff⟩ :=
      isGuard_put_iff hn hnodup [(str "v", int 1)] (str "t") hcreate
    exact ⟨params, names, item, hbegin, hcondition, hiff.2 ⟨by decide, by decide⟩⟩

/-- An empty part of a key is tested behind an alias that is not defined.  Where names are put into
capitals, the aliases of a key in small letters are neither defined nor used as they are tested. -/
theorem not_isGuard_put_blank_or_small :
    (∃ params names item : Entries, ((RecordStore.mk ⟨true, int 1000, 20⟩ .standard 10).begin
        (.put (map [(str "v", int 1)]) (Record.toValue [("pk", str "A"), ("sk", str "")]) (str "t")
          (.bool true))).result = .ok (.process (.settled ⟨.put, map params⟩)) ∧
      params.field? "ConditionExpression"
        = some (str "attribute_not_exists(#pk) OR attribute_not_exists(#sk)") ∧
      params.field? "ExpressionAttributeNames" = some (map names) ∧
      params.field? "Item" = some (map item) ∧ names = [(str "#pk", str "pk")] ∧
      ¬ IsGuard ["pk", "sk"] names item [("pk", str "A"), ("sk", str "")]) ∧
    ∃ params names item : Entries, ((RecordStore.mk ⟨true, int 1000, 20⟩ .upperCase 10).begin
        (.put (map [(str "v", int 1)]) (Record.toValue [("pk", str "A")]) (str "t")
          (.bool true))).result = .ok (.process (.settled ⟨.put, map params⟩)) ∧
      params.field? "ConditionExpression" = some (str "attribute_not_exists(#pk)") ∧
      params.field? "ExpressionAttributeNames" = some (map names) ∧
      params.field? "Item" = some (map item) ∧ names = [(str "#PK", str "PK")] ∧
      ¬ IsGuard ["pk"] names item [("pk", str "A")] := by
  constructor
  · refine ⟨_, [(str "#pk", str "pk")], _, rfl, rfl, rfl, rfl, rfl, fun h => ?_⟩
    obtain ⟨-, htail⟩ := List.forall₂_cons.1 h.resolved
    obtain ⟨⟨hsk, -⟩, -⟩ := List.forall₂_cons.1 htail
    exact nomatch (hsk : (none : Option Value) = some (str "sk"))
  · refine ⟨_, [(str "#PK", str "PK")], _, rfl, rfl, rfl, rfl, rfl, fun h => ?_⟩
    obtain ⟨⟨hpk, -⟩, -⟩ := List.forall₂_cons.1 h.resolved
    exact nomatch (hpk : (none : Option Value) = some (str "pk"))

end KeysetQuery

import KeysetQuery.Proofs.Record.Guard

/-!
# What a patch is aimed at

A patch writes the attributes of a record that are outside its key and not empty, and no others.

* `Update.targets` — the document paths that an update writes;
* `targets_update` — those of an update are the names of the changes that it is made of;
* `mem_names_besides` — which changes a patch is made of;
* `targets_patch` — the targets and the aliases of a patch, from the call to the request.
-/

namespace KeysetQuery

open Value Entries Reader

/-- The document paths that an update writes, in order.  A path with an alias that stands for
nothing is none. -/
def Update.targets (u : Update) : List (Option (List String)) := u.assignments.map u.target

/-- Each change of an update is aimed at the attribute of its name, whatever its value is. -/
theorem targets_update (changes : Record) :
    changes.update.targets = (changes.map Prod.fst).map fun name => some [name] := by
  show (changes.map fun e => ([e.1], e.1)).map changes.update.target = _
  rw [List.map_map, List.map_map]
  exact List.map_congr_left fun e he => target_update he

theorem get?_isNone_iff {r : Record} {name : String} :
    (r.get? name).isNone = true ↔ name ∉ r.map Prod.fst := by
  rw [Record.get?, Option.isNone_iff_eq_none, List.lookup_eq_none_iff, List.mem_map]
  constructor
  · rintro h ⟨e, he, rfl⟩
    exact absurd (h e he) (by simp)
  · intro h e he
    exact bne_iff_ne.2 fun heq => h ⟨e, he, heq.symm⟩

/-- The changes to the record of a key are the data outside the key that are not missing, no empty
text and no empty sequence. -/
theorem mem_names_besides {data key : Record} {name : String} :
    name ∈ (data.besides key).map Prod.fst ↔ name ∉ key.map Prod.fst ∧
      ∃ v, (name, v) ∈ data ∧ v ≠ missing ∧ v ≠ str "" ∧ v.items? ≠ some [] := by
  have hnonempty : ∀ v : Value, (!v.isEmpty) = true ↔
      v ≠ missing ∧ v ≠ str "" ∧ v.items? ≠ some [] := by
    intro v
    rw [Bool.not_eq_true', ← Bool.not_eq_true, Value.isEmpty_iff, not_or, not_or]
  rw [Record.besides, List.mem_map]
  constructor
  · rintro ⟨⟨_, v⟩, he, rfl⟩
    obtain ⟨hmem, hkeep⟩ := List.mem_filter.1 he
    obtain ⟨hkey, hv⟩ := Bool.and_eq_true_iff.1 hkeep
    exact ⟨get?_isNone_iff.1 hkey, v, hmem, (hnonempty v).1 hv⟩
  · rintro ⟨hkey, v, hmem, hv⟩
    refine ⟨(name, v), List.mem_filter.2 ⟨hmem, ?_⟩, rfl⟩
    exact Bool.and_eq_true_iff.2 ⟨get?_isNone_iff.2 hkey, (hnonempty v).2 hv⟩

/-- A patch of the record of a key is always compiled.  The attributes that it writes are those of
the data outside the key that are not missing, no empty text and no empty sequence, each once and in
the order of the data, whatever else their values hold, and its aliases are those of these
attributes. -/
theorem targets_patch {store : RecordStore} (hstore : store.normalizer = .standard)
    {data : Record} (hnodup : (data.map Prod.fst).Nodup) (hwords : ∀ e ∈ data, IsWord e.1)
    (key : Record) (table : Value) :
    ∃ (params : Entries) (u : Update) (names : List String),
      (store.begin (.patch data.toValue key.toValue table)).result
        = .ok (.process (.settled ⟨.update, map params⟩)) ∧
      Update.ofParams params = some u ∧
      u.targets = names.map (fun name => some [name]) ∧
      (∀ name, name ∈ names ↔ name ∉ key.map Prod.fst ∧
        ∃ v, (name, v) ∈ data ∧ v ≠ missing ∧ v ≠ str "" ∧ v.items? ≠ some []) ∧
      names.Nodup ∧ names.Sublist (data.map Prod.fst) ∧ u.names.IsKeyedBy .name names := by
  have hsub : (data.besides key).Sublist data := List.filter_sublist
  have hbegin : (store.begin (.patch data.toValue key.toValue table)).result
      = .ok (.process (.settled ⟨.update, map ((data.besides key).updateParams key table)⟩)) := by
    show (RecordStore.settled .update _).result = _
    rw [hstore, patchParams_eq_ok]
    rfl
  exact ⟨_, (data.besides key).update, (data.besides key).map Prod.fst, hbegin,
    ofParams_updateParams (fun e he => hwords e (hsub.subset he)) key table, targets_update _,
    fun name => mem_names_besides, hnodup.sublist (hsub.map Prod.fst), hsub.map Prod.fst,
    isKeyedBy_attributes _⟩

/-- Data with a part of the key, a sequence, a map that has the entries of a condition, three empty
values and a null. -/
def mixedChanges : Record :=
  [("id", str "7"), ("tags", list [str "a"]),
    ("meta", map [(str "value", str ""), (str "name", str "id"), (str "path", str "x.y"),
      (str "operator", str "exists")]),
    ("blank", str ""), ("none", tuple []), ("gone", missing), ("skip", null)]

/-- The map is written as an attribute of its own, and neither the key nor the empty values are. -/
theorem targets_patch_mixed : ∃ (params : Entries) (u : Update),
    ((RecordStore.mk ⟨true, int 1000, 20⟩ .standard 10).begin
      (.patch mixedChanges.toValue (Record.toValue [("id", str "1")]) (str "t"))).result
        = .ok (.process (.settled ⟨.update, map params⟩)) ∧
      Update.ofParams params = some u ∧
      (∀ name, some [name] ∈ u.targets ↔ name ∈ ["tags", "meta", "skip"]) ∧
      u.names.IsKeyedBy .name ["tags", "meta", "skip"] := by
  have hstore : (RecordStore.mk ⟨true, int 1000, 20⟩ .standard 10).normalizer = .standard := rfl
  obtain ⟨params, u, names, hbegin, hread, htargets, hmem, -, -, hkeyed⟩ :=
    @targets_patch _ hstore mixedChanges (by decide) (by decide) [("id", str "1")] (str "t")
  have hnames : ∀ name, name ∈ names ↔ name ∈ ["tags", "meta", "skip"] := by
    intro name
    rw [hmem, ← mem_names_besides,
      show (mixedChanges.besides [("id", str "1")]).map Prod.fst
        = ["tags", "meta", "skip"] by decide]
  refine ⟨params, u, hbegin, hread, ?_, hkeyed.iff.2 fun name => (hnames name).symm⟩
  intro name
  rw [htargets, ← hnames]
  simp

end KeysetQuery

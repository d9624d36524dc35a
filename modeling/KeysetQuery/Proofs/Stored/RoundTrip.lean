import KeysetQuery.Client.Exchange
import KeysetQuery.Proofs.Counting.Steps
import KeysetQuery.Proofs.Session.Jobs
import KeysetQuery.Proofs.Stored.Canonical
import KeysetQuery.Proofs.Value.Entries
import KeysetQuery.Store.RecordStore

/-!
# Records that are put and loaded

A record passes through its stored form when it is put, and again when it is loaded.

* `Client` and `Client.answer` — a client, and the store that is reached through it;
* `exchange_eq_answer` — in a session requests are answered in the same way;
* `keeping` — a client that keeps the record that it was last given;
* `RecordStore.complete` — what comes of a task that consists of one request;
* `load_put` — a record that is put and then loaded comes back in canonical form.
-/

namespace KeysetQuery

open Value Entries

/-! ### Clients -/

/-- A client: its state, the name of a method and its arguments, the reply and the state after
it. -/
abbrev Client (σ : Type) := σ → String → Entries → Reply × σ

/-- The store that is reached through a client: requests and responses pass through their stored
form. -/
def Client.answer {σ : Type} (client : Client σ) : Process.Responder σ := fun s request =>
  let method := request.operation.method
  match encodeArguments request.params with
  | .error f => (.error (exchangeFailure method f), s)
  | .ok arguments =>
    let r := client s method arguments
    (decodeReply method r.1, r.2)

/-- In a session a request is answered as through any client that replies what the script says. -/
theorem Play.exchange_eq_answer {σ : Type} {client : Client σ} {t : σ} {a : Address}
    {request : Request} {s : Session}
    (h : ∀ arguments, encodeArguments request.params = .ok arguments →
      (s.script.take (Play.scriptName request.operation.method (map arguments))).1.reply?
        = some (client t request.operation.method arguments).1) :
    ((Play.exchange a request).run s).1 = some (client.answer t request).1 := by
  unfold Play.exchange Client.answer
  cases hencode : encodeArguments request.params with
  | error f => rfl
  | ok arguments =>
    show (((Play.transmit a request.operation.method (map arguments)).run s).1).map
      (decodeReply request.operation.method) = _
    rw [Play.run_transmit_fst, h arguments hencode]
    rfl

/-! ### A client that keeps a record -/

/-- A client that keeps the record that it was last given, and gives it back.  Each response
describes the exchange as well. -/
def keeping (metadata : Value) : Client (Option Value) := fun kept method arguments =>
  let description : Entries := [(str "ResponseMetadata", metadata)]
  if method = "put_item" then (.ok (map description), arguments.field? "Item")
  else if method = "get_item" then
    (.ok (map (kept.toList.map (fun item => (str "Item", item)) ++ description)), kept)
  else (.ok (map description), kept)

/-- What comes of a task that consists of one request, with a store that answers at once, and the
state after it. -/
def RecordStore.complete {σ : Type} (store : RecordStore) (respond : Process.Responder σ) (s : σ)
    (task : Task) : Except Fault (Option Value) × σ :=
  match (store.begin task).result with
  | .ok (.process p) =>
    let r := p.run store.policy respond 1 s
    (r.1.result, r.2)
  | .ok _ => (.ok none, s)
  | .error f => (.error f, s)

/-- A task that consists of one settled request comes to what the request is answered with. -/
theorem RecordStore.complete_of_settled {σ : Type} {store : RecordStore}
    {respond : Process.Responder σ} {s : σ} {task : Task} {request : Request} {v : Value}
    (hbegin : (store.begin task).result = .ok (.process (.settled request)))
    (hreply : (respond s request).1 = .ok v) :
    store.complete respond s task = (.ok (some v), (respond s request).2) := by
  have hsend : ((Process.settled request).next store.policy).result = .ok (.send request) := rfl
  obtain ⟨htrip, hstate⟩ := Process.trip_of_send respond s hsend
  have hends : ((Process.settled request).trip store.policy respond s).1.result
      = Except.map .stops (.ok v) := by
    rw [htrip, hreply]
    rfl
  obtain ⟨hresult, hrun⟩ := Process.run_of_ends 0 hends
  rw [complete, hbegin]
  show ((Process.run store.policy respond 1 s (.settled request)).1.result,
    (Process.run store.policy respond 1 s (.settled request)).2) = _
  rw [hresult, hrun, hstate]
  rfl

/-! ### Requests for records -/

/-- A record has a stored form if all of its values have one. -/
theorem Stored.exists_encodeEntries {es : Entries} (h : ∀ e ∈ es, ∃ w, Stored.encode e.2 = .ok w) :
    ∃ fs, Stored.encodeEntries es = .ok fs := by
  induction es with
  | nil => exact ⟨[], rfl⟩
  | cons e es ih =>
    obtain ⟨k, v⟩ := e
    obtain ⟨w, hw⟩ := h (k, v) List.mem_cons_self
    obtain ⟨fs, hfs⟩ := ih fun f hf => h f (List.mem_cons_of_mem _ hf)
    exact ⟨(k, w) :: fs, bind_eq_ok.2 ⟨(k, w), map_eq_ok.2 ⟨w, hw, rfl⟩,
      bind_eq_ok.2 ⟨fs, hfs, rfl⟩⟩⟩

/-- The values of a record that has a stored form have one. -/
theorem Stored.exists_encode_of_mem {es fs : Entries} (h : Stored.encodeEntries es = .ok fs)
    {e : Value × Value} (he : e ∈ es) : ∃ w, Stored.encode e.2 = .ok w := by
  induction es generalizing fs with
  | nil => exact absurd he List.not_mem_nil
  | cons f es ih =>
    obtain ⟨g, hg, h⟩ := bind_eq_ok.1 h
    obtain ⟨gs, hgs, -⟩ := bind_eq_ok.1 h
    rcases List.mem_cons.1 he with rfl | he
    · obtain ⟨k, v⟩ := e
      obtain ⟨w, hw, -⟩ := map_eq_ok.1 hg
      exact ⟨w, hw⟩
    · exact ih hgs he

section Records

variable {data : Entries} {key : Record}

/-- The parts of a key are written over the data. -/
theorem mem_merge_entries (hnodup : (key.map Prod.fst).Nodup) {e : String × Value}
    (he : e ∈ key) : (str e.1, e.2) ∈ merge data (Record.entries key) := by
  have hmem : (str e.1, e.2) ∈ (Record.entries key).reverse :=
    List.mem_reverse.2 (List.mem_map_of_mem (f := fun e : String × Value => (str e.1, e.2)) he)
  have hlast : Entries.get? (Record.entries key).reverse (str e.1) = some e.2 := by
    refine get?_of_forall hmem fun w hw => ?_
    obtain ⟨f, hf, heq⟩ := List.mem_map.1 (List.mem_reverse.1 hw)
    obtain ⟨hname, rfl⟩ := Prod.mk.inj heq
    rw [List.inj_on_of_nodup_map hnodup hf he (str.inj hname)]
  refine mem_of_get?_text ?_
  rw [get?_merge_text, hlast]
  rfl

/-- A request to put a record carries the data with the key written over it. -/
theorem putParams_eq_ok {n : Normalizer} {table : Value} {createOnly : Bool} {params : Entries}
    (h : putParams n (map data) key.toValue table createOnly = .ok params) :
    ∃ members, params = [(str "TableName", table),
        (str "Item", map (merge data (Record.entries key)))] ++ members ∧
      (members = [] ∨ ∃ condition names, members = [(str "ConditionExpression", str condition),
        (str "ExpressionAttributeNames", map names)]) := by
  obtain ⟨es, hes, h⟩ := bind_eq_ok.1 h
  obtain ⟨fs, hfs, h⟩ := bind_eq_ok.1 h
  obtain rfl : data = es := Except.ok.inj hes
  obtain rfl : Record.entries key = fs := Except.ok.inj hfs
  cases createOnly with
  | false => exact ⟨[], (Except.ok.inj h).symm, .inl rfl⟩
  | true =>
    obtain ⟨members, hmembers, h⟩ := bind_eq_ok.1 h
    obtain ⟨condition, -, hmembers⟩ := bind_eq_ok.1 hmembers
    obtain ⟨records, -, hmembers⟩ := bind_eq_ok.1 hmembers
    obtain ⟨attributes, -, hmembers⟩ := bind_eq_ok.1 hmembers
    obtain ⟨-, -, hmembers⟩ := bind_eq_ok.1 hmembers
    exact ⟨members, (Except.ok.inj h).symm,
      .inr ⟨condition, aliasMap attributes, (Except.ok.inj hmembers).symm⟩⟩

/-- The client is handed the record of a request to put it in stored form. -/
theorem encodeArguments_putParams {n : Normalizer} {table : Value} {createOnly : Bool}
    {params arguments : Entries}
    (hparams : putParams n (map data) key.toValue table createOnly = .ok params)
    (hencode : encodeArguments (map params) = .ok arguments) :
    ∃ stored, Stored.encodeEntries (merge data (Record.entries key)) = .ok stored ∧
      arguments.field? "Item" = some (map stored) := by
  obtain ⟨members, rfl, hmembers⟩ := putParams_eq_ok hparams
  obtain ⟨es, hrequest, harguments⟩ := bind_eq_ok.1 hencode
  obtain ⟨plain, hplain, hrequest⟩ := bind_eq_ok.1 hrequest
  obtain rfl := Except.ok.inj hplain
  rcases hmembers with rfl | ⟨condition, names, rfl⟩
  · obtain ⟨stored, hstored, hrequest⟩ := bind_eq_ok.1 hrequest
    obtain rfl := Except.ok.inj hrequest
    obtain rfl := Except.ok.inj harguments
    exact ⟨stored, hstored, rfl⟩
  · obtain ⟨stored, hstored, hrequest⟩ := bind_eq_ok.1 hrequest
    obtain rfl := Except.ok.inj hrequest
    obtain rfl := Except.ok.inj harguments
    exact ⟨stored, hstored, rfl⟩

end Records

/-! ### Putting and loading -/

section Stores

variable {store : RecordStore} {data : Entries} {key : Record} {table createOnly : Value}
  {params arguments : Entries}

/-- A record that is put is kept in stored form. -/
theorem complete_put (metadata : Value) (kept : Option Value)
    (hparams : putParams store.normalizer (map data) key.toValue table createOnly.truthy
      = .ok params)
    (hencode : encodeArguments (map params) = .ok arguments) {stored : Entries}
    (hitem : arguments.field? "Item" = some (map stored)) :
    store.complete (keeping metadata).answer kept (.put (map data) key.toValue table createOnly)
      = (.ok (some (map [])), some (map stored)) := by
  have hbegin : (store.begin (.put (map data) key.toValue table createOnly)).result
      = .ok (.process (.settled ⟨.put, map params⟩)) := by
    show (RecordStore.settled .put _).result = _
    rw [hparams]
    rfl
  have hanswer : (keeping metadata).answer kept ⟨.put, map params⟩
      = (.ok (map []), arguments.field? "Item") := by
    rw [Client.answer]
    dsimp only
    rw [hencode]
    rfl
  rw [RecordStore.complete_of_settled hbegin (by rw [hanswer]), hanswer, hitem]

/-- A record that is kept is loaded as what its stored form is read back as. -/
theorem complete_load (metadata : Value) {stored item keyStored : Entries}
    (hkey : Stored.encodeEntries (Record.entries key) = .ok keyStored)
    (hdecode : Stored.decodeEntries stored = .ok item) :
    store.complete (keeping metadata).answer (some (map stored)) (.load key.toValue table)
      = (.ok (some (map [(str "Item", map item)])), some (map stored)) := by
  have hbegin : (store.begin (.load key.toValue table)).result
      = .ok (.process (.settled ⟨.get, map [(str "TableName", table),
        (str "Key", key.toValue)]⟩)) := rfl
  have hencode : encodeArguments (map [(str "TableName", table), (str "Key", key.toValue)])
      = .ok [(str "TableName", table), (str "Key", map keyStored)] := by
    refine bind_eq_ok.2 ⟨_, bind_eq_ok.2 ⟨_, rfl, bind_eq_ok.2 ⟨keyStored, hkey, rfl⟩⟩, rfl⟩
  have hreply : Stored.decodeResponse (map [(str "Item", map stored),
      (str "ResponseMetadata", metadata)]) = .ok [(str "Item", map item)] := by
    refine bind_eq_ok.2 ⟨_, rfl, bind_eq_ok.2 ⟨_, bind_eq_ok.2 ⟨item, hdecode, rfl⟩, rfl⟩⟩
  have hanswer : (keeping metadata).answer (some (map stored))
      ⟨.get, map [(str "TableName", table), (str "Key", key.toValue)]⟩
      = (.ok (map [(str "Item", map item)]), some (map stored)) := by
    rw [Client.answer]
    dsimp only
    rw [hencode]
    show ((Stored.decodeResponse (map [(str "Item", map stored),
      (str "ResponseMetadata", metadata)])).map map, _) = _
    rw [hreply]
    rfl
  rw [RecordStore.complete_of_settled hbegin (by rw [hanswer]), hanswer]

/-- Over a client that keeps the record that it is given, a record that is put and then loaded comes
back in canonical form, the key written over the data.  It is so because every record that has a
stored form is read back from it in canonical form. -/
theorem load_put (metadata : Value) (kept : Option Value) (hnodup : (key.map Prod.fst).Nodup)
    (hsets : EntriesHaveProperSets (merge data (Record.entries key)))
    (hparams : putParams store.normalizer (map data) key.toValue table createOnly.truthy
      = .ok params)
    (hencode : encodeArguments (map params) = .ok arguments) :
    ∃ stored item, Stored.encodeRecord (map (merge data (Record.entries key))) = .ok stored ∧
      Stored.decodeRecord (map stored) = .ok item ∧
      CanonicalEntries (merge data (Record.entries key)) item ∧
      store.complete (keeping metadata).answer kept (.put (map data) key.toValue table createOnly)
        = (.ok (some (map [])), some (map stored)) ∧
      store.complete (keeping metadata).answer (some (map stored)) (.load key.toValue table)
        = (.ok (some (map [(str "Item", map item)])), some (map stored)) := by
  obtain ⟨stored, hstored, hitem⟩ := encodeArguments_putParams hparams hencode
  obtain ⟨item, hdecode, hcanonical⟩ := Stored.decodeEntries_encodeEntries _ hsets hstored
  obtain ⟨keyStored, hkey⟩ : ∃ keyStored,
      Stored.encodeEntries (Record.entries key) = .ok keyStored := by
    refine Stored.exists_encodeEntries fun e he => ?_
    obtain ⟨f, hf, rfl⟩ := List.mem_map.1 he
    exact Stored.exists_encode_of_mem hstored (mem_merge_entries hnodup hf)
  exact ⟨stored, item, hstored, hdecode, hcanonical,
    complete_put metadata kept hparams hencode hitem, complete_load metadata hkey hdecode⟩

end Stores

/-- A tuple, a set and a key that is written over the data pass through the store. -/
theorem load_put_nested : ∃ stored item,
    CanonicalEntries [(str "pk", str "A"), (str "sizes", tuple [int 5, bytes [255]]),
      (str "tags", set [str "b", str "a"])] item ∧
    (RecordStore.mk ⟨true, int 1000, 20⟩ .standard 10).complete (keeping null).answer none
        (.put (map [(str "pk", str "B"), (str "sizes", tuple [int 5, bytes [255]]),
          (str "tags", set [str "b", str "a"])]) (Record.toValue [("pk", str "A")]) (str "t")
          (.bool false))
      = (.ok (some (map [])), some (map stored)) ∧
    (RecordStore.mk ⟨true, int 1000, 20⟩ .standard 10).complete (keeping null).answer
        (some (map stored)) (.load (Record.toValue [("pk", str "A")]) (str "t"))
      = (.ok (some (map [(str "Item", map item)])), some (map stored)) := by
  have hsets : EntriesHaveProperSets [(str "pk", str "A"),
      (str "sizes", tuple [int 5, bytes [255]]), (str "tags", set [str "b", str "a"])] := by
    refine ⟨trivial, ⟨trivial, trivial, trivial⟩, ?_, trivial⟩
    exact ⟨by simp, by simp⟩
  have hparams : putParams .standard (map [(str "pk", str "B"),
      (str "sizes", tuple [int 5, bytes [255]]), (str "tags", set [str "b", str "a"])])
      (Record.toValue [("pk", str "A")]) (str "t") (Value.bool false).truthy
        = .ok [(str "TableName", str "t"), (str "Item", map [(str "pk", str "A"),
          (str "sizes", tuple [int 5, bytes [255]]), (str "tags", set [str "b", str "a"])])] := rfl
  obtain ⟨arguments, hencode⟩ : ∃ arguments, encodeArguments (map [(str "TableName", str "t"),
      (str "Item", map [(str "pk", str "A"), (str "sizes", tuple [int 5, bytes [255]]),
        (str "tags", set [str "b", str "a"])])]) = .ok arguments := ⟨_, rfl⟩
  obtain ⟨stored, item, -, -, hcanonical, hput, hload⟩ :=
    @load_put (RecordStore.mk ⟨true, int 1000, 20⟩ .standard 10) [(str "pk", str "B"),
      (str "sizes", tuple [int 5, bytes [255]]), (str "tags", set [str "b", str "a"])]
      [("pk", str "A")] (str "t") (.bool false) _ arguments null none (by decide) hsets hparams
      hencode
  exact ⟨stored, item, hcanonical, hput, hload⟩

end KeysetQuery

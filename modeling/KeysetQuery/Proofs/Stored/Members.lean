import KeysetQuery.Client.Exchange
import KeysetQuery.Proofs.Outcome
import KeysetQuery.Proofs.Value.Entries

/-!
# Members in stored form

The members of a request that are records are written in stored form, and those of a response are
read from it.  Each of them stands for itself.

* `field?_mapRecords_of_mem`, `field?_mapRecords_of_notMem` — what the members hold afterwards;
* `mapRecords_putField` — a record that is put into a request before or afterwards;
* `encodeArguments_putField` — the same of what a client is handed;
* `field?_decodeResponse` — the records of a response.
-/

namespace KeysetQuery

open Value Entries

namespace Stored

/-! ### Records among the members -/

section Records

variable {f : Value → Except Fault Entries} {m t : String} {ms : List String} {es fs gs : Entries}
  {v : Value}

theorem mapRecords_of_field?_eq_none (h : es.field? m = none) :
    mapRecords f (m :: ms) es = mapRecords f ms es := by
  rw [mapRecords, h]

theorem mapRecords_of_field?_eq_some (h : es.field? m = some v) :
    mapRecords f (m :: ms) es
      = f v >>= fun gs => mapRecords f ms (es.putField m (map gs)) := by
  rw [mapRecords, h]

/-- The other members are left alone. -/
theorem field?_mapRecords_of_notMem (ht : t ∉ ms) (h : mapRecords f ms es = .ok fs) :
    fs.field? t = es.field? t := by
  induction ms generalizing es with
  | nil => rw [Except.ok.inj h]
  | cons m ms ih =>
    obtain ⟨hm, hms⟩ := List.ne_and_not_mem_of_not_mem_cons ht
    cases hfield : es.field? m with
    | none =>
      rw [mapRecords_of_field?_eq_none hfield] at h
      exact ih hms h
    | some v =>
      rw [mapRecords_of_field?_eq_some hfield] at h
      obtain ⟨gs, -, h⟩ := bind_eq_ok.1 h
      rw [ih hms h, field?_putField, if_neg hm.symm]

/-- A member that is a record is replaced by what the function makes of it. -/
theorem field?_mapRecords_of_mem (hnodup : ms.Nodup) (ht : t ∈ ms)
    (h : mapRecords f ms es = .ok fs) (hfield : es.field? t = some v) :
    ∃ gs, f v = .ok gs ∧ fs.field? t = some (map gs) := by
  induction ms generalizing es with
  | nil => exact absurd ht List.not_mem_nil
  | cons m ms ih =>
    obtain ⟨hm, hms⟩ := List.nodup_cons.1 hnodup
    by_cases hmt : m = t
    · subst hmt
      rw [mapRecords_of_field?_eq_some hfield] at h
      obtain ⟨gs, hgs, h⟩ := bind_eq_ok.1 h
      refine ⟨gs, hgs, ?_⟩
      rw [field?_mapRecords_of_notMem hm h, field?_putField, if_pos rfl]
    · have hrest : t ∈ ms := List.mem_of_ne_of_mem (Ne.symm hmt) ht
      cases hother : es.field? m with
      | none =>
        rw [mapRecords_of_field?_eq_none hother] at h
        exact ih hms hrest h hfield
      | some w =>
        rw [mapRecords_of_field?_eq_some hother] at h
        obtain ⟨gs, -, h⟩ := bind_eq_ok.1 h
        exact ih hms hrest h (by rw [field?_putField, if_neg hmt, hfield])

/-- Another member may be put in before or afterwards. -/
theorem mapRecords_putField_of_notMem (ht : t ∉ ms) (es : Entries) (w : Value) :
    mapRecords f ms (es.putField t w) = (mapRecords f ms es).map fun fs => fs.putField t w := by
  induction ms generalizing es with
  | nil => rfl
  | cons m ms ih =>
    obtain ⟨hm, hms⟩ := List.ne_and_not_mem_of_not_mem_cons ht
    have hsame : (es.putField t w).field? m = es.field? m := by
      rw [field?_putField, if_neg hm]
    cases hfield : es.field? m with
    | none =>
      rw [mapRecords_of_field?_eq_none hfield, mapRecords_of_field?_eq_none (hsame.trans hfield),
        ih hms]
    | some v =>
      rw [mapRecords_of_field?_eq_some hfield, mapRecords_of_field?_eq_some (hsame.trans hfield)]
      cases f v with
      | error e => rfl
      | ok gs =>
        show mapRecords f ms ((es.putField t w).putField m (map gs))
          = (mapRecords f ms (es.putField m (map gs))).map _
        rw [putField_comm hm.symm (by rw [hfield]; exact Option.some_ne_none v), ih hms]

/-- A record may be put in before the function is applied, or what the function makes of it
afterwards.  What stood in its place must not have failed. -/
theorem mapRecords_putField (hnodup : ms.Nodup) (ht : t ∈ ms) (hv : f v = .ok gs)
    (hold : ∀ u ∈ es.field? t, ∃ hs, f u = .ok hs) :
    mapRecords f ms (es.putField t v)
      = (mapRecords f ms es).map fun fs => fs.putField t (map gs) := by
  induction ms generalizing es with
  | nil => exact absurd ht List.not_mem_nil
  | cons m ms ih =>
    obtain ⟨hm, hms⟩ := List.nodup_cons.1 hnodup
    by_cases hmt : m = t
    · subst hmt
      have hput : (es.putField m v).field? m = some v := by rw [field?_putField, if_pos rfl]
      rw [mapRecords_of_field?_eq_some hput, hv]
      show mapRecords f ms ((es.putField m v).putField m (map gs)) = _
      rw [putField_putField_self]
      cases hfield : es.field? m with
      | none => rw [mapRecords_of_field?_eq_none hfield, mapRecords_putField_of_notMem hm]
      | some u =>
        obtain ⟨hs, hu⟩ := hold u hfield
        rw [mapRecords_of_field?_eq_some hfield, hu]
        show _ = (mapRecords f ms (es.putField m (map hs))).map _
        rw [← mapRecords_putField_of_notMem hm, putField_putField_self]
    · have hrest : t ∈ ms := List.mem_of_ne_of_mem (Ne.symm hmt) ht
      have hsame : (es.putField t v).field? m = es.field? m := by
        rw [field?_putField, if_neg (Ne.symm hmt)]
      cases hfield : es.field? m with
      | none =>
        rw [mapRecords_of_field?_eq_none hfield,
          mapRecords_of_field?_eq_none (hsame.trans hfield), ih hms hrest hold]
      | some u =>
        rw [mapRecords_of_field?_eq_some hfield,
          mapRecords_of_field?_eq_some (hsame.trans hfield)]
        cases f u with
        | error e => rfl
        | ok hs =>
          show mapRecords f ms ((es.putField t v).putField m (map hs))
            = (mapRecords f ms (es.putField m (map hs))).map _
          have hother : ∀ u ∈ (es.putField m (map hs)).field? t, ∃ hs, f u = .ok hs := by
            rw [field?_putField, if_neg hmt]
            exact hold
          rw [putField_comm hmt (by rw [hfield]; exact Option.some_ne_none u),
            ih hms hrest hother]

end Records

/-! ### Responses -/

theorem field?_decodeItemsMember {es fs : Entries} (h : decodeItemsMember es = .ok fs) {t : String}
    (ht : t ≠ "Items") : fs.field? t = es.field? t := by
  unfold decodeItemsMember at h
  split at h
  · rw [Except.ok.inj h]
  · obtain ⟨vs, -, h⟩ := bind_eq_ok.1 h
    obtain ⟨items, -, h⟩ := bind_eq_ok.1 h
    rw [← Except.ok.inj h, field?_putField, if_neg ht.symm]

/-- A record in a response is read from its stored form. -/
theorem field?_decodeResponse {response decoded : Entries} {t : String} {v : Value}
    (h : decodeResponse (map response) = .ok decoded) (ht : t ∈ responseRecords)
    (hfield : response.field? t = some v) :
    ∃ item, decodeRecord v = .ok item ∧ decoded.field? t = some (map item) := by
  obtain ⟨es, hes, h⟩ := bind_eq_ok.1 h
  obtain rfl := Except.ok.inj hes
  obtain ⟨fs, hfs, h⟩ := bind_eq_ok.1 h
  have hnames : ∀ t ∈ responseRecords, t ≠ "Items" ∧ t ≠ "ResponseMetadata" := by decide
  obtain ⟨hitems, hmetadata⟩ := hnames t ht
  have hrest : (erase response (str "ResponseMetadata")).field? t = some v :=
    (get?_erase_text_of_ne response fun heq => hmetadata (str.inj heq)).trans hfield
  obtain ⟨item, hitem, hdecoded⟩ := field?_mapRecords_of_mem (by decide) ht hfs hrest
  exact ⟨item, hitem, (field?_decodeItemsMember h hitems).trans hdecoded⟩

end Stored

/-! ### Requests -/

theorem hasTextKeys_putField (es : Entries) (t : String) (v : Value) :
    hasTextKeys (es.putField t v) = hasTextKeys es := by
  show (put es (str t) v).all _ = es.all _
  induction es with
  | nil => rfl
  | cons e es ih =>
    obtain ⟨k, u⟩ := e
    by_cases hk : same k (str t) = true
    · rw [put, if_pos hk, List.all_cons, List.all_cons]
    · rw [put, if_neg hk, List.all_cons, List.all_cons, ih]

/-- A record in a request is handed to the client in stored form. -/
theorem field?_encodeArguments {params arguments : Entries} {t : String} {v : Value}
    (h : encodeArguments (map params) = .ok arguments) (ht : t ∈ Stored.requestRecords)
    (hfield : params.field? t = some v) :
    ∃ stored, Stored.encodeRecord v = .ok stored ∧ arguments.field? t = some (map stored) := by
  obtain ⟨es, hes, h⟩ := bind_eq_ok.1 h
  obtain ⟨plain, hplain, hes⟩ := bind_eq_ok.1 hes
  obtain rfl := Except.ok.inj hplain
  unfold asArguments at h
  split at h
  · obtain rfl := Except.ok.inj h
    exact Stored.field?_mapRecords_of_mem (by decide) ht hes hfield
  · cases h

/-- A record that is put into a request is put into what the client is handed, in stored form.
What stood in its place must have had a stored form. -/
theorem encodeArguments_putField {params stored : Entries} {t : String} {v : Value}
    (ht : t ∈ Stored.requestRecords) (hv : Stored.encodeRecord v = .ok stored)
    (hold : ∀ u ∈ params.field? t, ∃ gs, Stored.encodeRecord u = .ok gs) :
    encodeArguments (map (params.putField t v))
      = (encodeArguments (map params)).map fun arguments =>
          arguments.putField t (map stored) := by
  show (Stored.mapRecords Stored.encodeRecord Stored.requestRecords (params.putField t v)
      >>= asArguments)
    = ((Stored.mapRecords Stored.encodeRecord Stored.requestRecords params >>= asArguments).map _)
  rw [Stored.mapRecords_putField (by decide) ht hv hold]
  cases Stored.mapRecords Stored.encodeRecord Stored.requestRecords params with
  | error f => rfl
  | ok es =>
    show asArguments (es.putField t (map stored)) = (asArguments es).map _
    rw [asArguments, asArguments, hasTextKeys_putField]
    split <;> rfl

end KeysetQuery

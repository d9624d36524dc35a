import KeysetQuery.Proofs.Query.Restart
import KeysetQuery.Proofs.Stored.Keys
import KeysetQuery.Proofs.Stored.Recorded
import KeysetQuery.Proofs.Stored.Rewritten
import Mathlib.Data.List.Chain

/-!
# Cursors that are handed back

The key at which a page ended is read from its stored form, given away as a cursor, and written
again when the cursor comes back.  The store gets the key that it gave.

* `ClientCall.EndsAt` — a call whose response ended at a key;
* `RecordStore.RestartsAt` — a query with a cursor restarts at a key;
* `ClientCall.HandsOn` — the call after another one restarts at the key where that one ended;
* `RecordStore.restartsAt` — every query with the cursor that a key is read as restarts there;
* `RecordStore.cursor_of_ask` — the cursor of the page of a query;
* `Process.exists_calls` — each call of a count hands its key on;
* `cursor_handed_back` — pages, counts and records: what was read is written again, with the
  exception of the last page (`not_handed_back_from_last_page`).
-/

namespace KeysetQuery

open Value Entries

/-! ### Calls that end at a key -/

namespace ClientCall

/-- The response to a call ended at a key. -/
def EndsAt (x : ClientCall) (key : Record) : Prop :=
  ∃ response, x.reply = .ok (map response) ∧
    field? response "LastEvaluatedKey" = some key.toValue

/-- The call after another one is the same call from the key on at which that one ended. -/
def HandsOn (x y : ClientCall) : Prop :=
  ∀ key, Stored.IsKey key → x.EndsAt key →
    y.arguments = x.arguments.putField "ExclusiveStartKey" key.toValue

/-- The response to a call ended at no key. -/
def EndsNowhere (x : ClientCall) : Prop := ∀ key, Stored.IsKey key → x.EndsAt key → key = []

variable {x : ClientCall} {key cursor : Record}

/-- The key at which a call ended is given away as the cursor that it is read as. -/
theorem EndsAt.field?_decoded (h : x.EndsAt key) (hread : Stored.IsReadAs key cursor)
    {v : Value} (hv : decodeReply "query" x.reply = .ok v) :
    ∃ decoded, v = map decoded ∧ field? decoded "LastEvaluatedKey" = some cursor.toValue := by
  obtain ⟨response, hreply, hlast⟩ := h
  rw [hreply] at hv
  obtain ⟨decoded, hdecoded, rfl⟩ := map_eq_ok.1 hv
  obtain ⟨item, hitem, hfield⟩ := Stored.field?_decodeResponse
    (t := "LastEvaluatedKey") hdecoded (by decide) hlast
  obtain rfl := Except.ok.inj (hitem.symm.trans hread.decode)
  exact ⟨decoded, rfl, hfield⟩

end ClientCall

/-! ### Queries -/

/-- A query with a cursor is the query from the beginning in all other respects, and the client is
handed the key besides.  Unless it is refused before, that is the first call of the query. -/
structure RecordStore.RestartsAt (store : RecordStore) (cursor key : Record) : Prop where
  arguments : ∀ (primaryKey table : Value) (fields : Entries) (byItself : Bool),
    store.queryArguments primaryKey table (map (fields.putField "startKey" cursor.toValue)) byItself
      = (store.queryArguments primaryKey table (map (fields.putField "startKey" null)) byItself).map
          fun arguments => arguments.putField "ExclusiveStartKey" key.toValue
  called : ∀ (primaryKey table : Value) (fields : Entries) (byItself : Bool) (arguments : Entries),
    store.queryArguments primaryKey table (map (fields.putField "startKey" cursor.toValue)) byItself
      = .ok arguments →
    ∀ (σ : Type) (client : Client σ) (turns : ℕ) (s : σ), ∃ reply rest,
      (store.ask client.recorded.answer turns (s, []) primaryKey table
        (map (fields.putField "startKey" cursor.toValue)) byItself).2.2
        = ⟨arguments, reply⟩ :: rest

namespace RecordStore

variable {store : RecordStore} {primaryKey table descriptor : Value} {byItself : Bool}

/-- The first call of a query is that for its page. -/
theorem ask_recorded {arguments : Entries}
    (h : store.queryArguments primaryKey table descriptor byItself = .ok arguments) {σ : Type}
    (client : Client σ) (turns : ℕ) (s : σ) : ∃ rest,
      (store.ask client.recorded.answer turns (s, []) primaryKey table descriptor byItself).2.2
        = ⟨arguments, (client s "query" arguments).1⟩ :: rest := by
  obtain ⟨d, hd, h⟩ := bind_eq_ok.1 h
  obtain ⟨plan, hplan, hencode⟩ := bind_eq_ok.1 h
  have hbegin : (store.begin (.query primaryKey table descriptor byItself)).result
      = .ok (.query plan) := by
    rw [begin_query]
    exact bind_eq_ok.2 ⟨d, hd, map_eq_ok.2 ⟨plan, hplan, rfl⟩⟩
  obtain ⟨rest, hrest⟩ := QueryPlan.run_recorded store.policy client turns s hencode
  rw [ask, hbegin]
  exact ⟨rest, hrest⟩

/-- Every query with the cursor that a key is read as restarts at that key. -/
theorem restartsAt (store : RecordStore) {key cursor : Record}
    (hread : Stored.IsReadAs key cursor) (hnames : (cursor.map Prod.fst).Nodup) :
    store.RestartsAt cursor key where
  arguments primaryKey table fields byItself :=
    queryArguments_startKey store primaryKey table fields byItself hnames hread.encode
  called _ _ _ _ _ h _ client turns s := ⟨_, ask_recorded h client turns s⟩

/-- The page of a query has the cursor that the key in the response is read as, unless the last
page was asked for. -/
theorem cursor_of_ask {σ : Type} {client : Client σ} {turns : ℕ} {s : σ} {d : Descriptor}
    {page : Page} (hd : store.descriptor descriptor byItself = .ok d)
    (h : (store.ask client.recorded.answer turns (s, []) primaryKey table descriptor byItself).1
      = .ok (some page)) :
    ∃ x rest,
      (store.ask client.recorded.answer turns (s, []) primaryKey table descriptor byItself).2.2
        = x :: rest ∧
      ∀ key cursor, x.EndsAt key → Stored.IsReadAs key cursor → (cursor.map Prod.fst).Nodup →
        page.cursor = if d.wantsLastPage then none else some cursor := by
  have hbegin : (store.begin (.query primaryKey table descriptor byItself)).result
      = (QueryPlan.make store.normalizer primaryKey table d).result.map .query := by
    rw [begin_query, hd]
    rfl
  cases hmake : (QueryPlan.make store.normalizer primaryKey table d).result with
  | error f =>
    rw [hmake] at hbegin
    rw [ask, hbegin] at h
    cases h
  | ok plan =>
    rw [hmake] at hbegin
    obtain rfl : plan.descriptor = d := by
      unfold QueryPlan.make at hmake
      rw [Noted.result_bind] at hmake
      obtain ⟨params, -, hmake⟩ := bind_eq_ok.1 hmake
      rw [← Except.ok.inj hmake]
    rw [ask, hbegin] at h ⊢
    obtain ⟨response, total, hpage, hconclude⟩ := QueryPlan.exists_conclude_of_run h
    cases hencode : encodeArguments (map plan.params) with
    | error f =>
      rw [QueryPlan.result_run_pageProcess_of_error client (s, []) hencode hpage] at hconclude
      cases hconclude
    | ok arguments =>
      obtain ⟨rest, hrest⟩ := QueryPlan.run_recorded store.policy client turns s hencode
      refine ⟨_, rest, hrest, ?_⟩
      intro key cursor hends hread hnames
      obtain ⟨-, hresult⟩ := QueryPlan.run_pageProcess_of_ok store.policy client (s, []) hencode
      rw [hresult] at hpage
      obtain ⟨v, hv, hresponse⟩ := map_eq_ok.1 hpage
      obtain rfl := Option.some.inj hresponse
      obtain ⟨read, hpageRead, hcursor⟩ := QueryPlan.cursor_of_conclude hconclude
      cases hreply : decodeReply "query" (client s "query" arguments).1 with
      | error f =>
        rw [hreply] at hv
        rw [(Policy.eq_null_of_settle hv).2] at hconclude
        cases hconclude
      | ok w =>
        rw [hreply] at hv
        obtain rfl : w = v := Except.ok.inj hv
        obtain ⟨decoded, rfl, hlast⟩ := hends.field?_decoded hread hreply
        rw [hcursor, Page.cursor_of_ofResponse hnames hlast hpageRead]

end RecordStore

/-! ### Counts -/

namespace Process

variable {σ : Type} {policy : Policy} {client : Client σ} {w w' : CountWalk}

/-- What follows in a count after a call that ended at a key. -/
theorem encodeArguments_of_goes {x : ClientCall} {key cursor : Record}
    (hencode : encodeArguments (map w.params) = .ok x.arguments) (hends : x.EndsAt key)
    (hread : Stored.IsReadAs key cursor)
    (habsorb : decodeReply "query" x.reply >>= w.absorb = .ok (.more w')) :
    encodeArguments (map w'.params)
      = .ok (x.arguments.putField "ExclusiveStartKey" key.toValue) := by
  obtain ⟨v, hv, habsorb⟩ := bind_eq_ok.1 habsorb
  obtain ⟨decoded, rfl, hlast⟩ := hends.field?_decoded hread hv
  obtain ⟨_, -, habsorb⟩ := bind_eq_ok.1 habsorb
  obtain ⟨_, -, habsorb⟩ := bind_eq_ok.1 habsorb
  obtain ⟨last, hpart, habsorb⟩ := bind_eq_ok.1 habsorb
  obtain rfl : field? decoded "LastEvaluatedKey" = last := Except.ok.inj hpart
  rw [hlast, Option.getD_some] at habsorb
  dsimp only at habsorb
  split at habsorb
  · obtain rfl := CountProgress.more.inj (Except.ok.inj habsorb)
    have hput := @encodeArguments_putField w.params _ "ExclusiveStartKey" _ (by decide)
      hread.encode fun u hu =>
        let ⟨gs, hgs, _⟩ := field?_encodeArguments hencode (by decide) hu
        ⟨gs, hgs⟩
    rw [hput, hencode]
    rfl
  · cases Except.ok.inj habsorb

/-- A count that is complete has seen no further key. -/
theorem endsNowhere_of_complete {x : ClientCall} {v : Value}
    (habsorb : decodeReply "query" x.reply >>= w.absorb = .ok (.complete v)) : x.EndsNowhere := by
  intro key hkey hends
  obtain ⟨cursor, hread, -⟩ := Stored.exists_cursor hkey
  obtain ⟨u, hu, habsorb⟩ := bind_eq_ok.1 habsorb
  obtain ⟨decoded, rfl, hlast⟩ := hends.field?_decoded hread hu
  obtain ⟨_, -, habsorb⟩ := bind_eq_ok.1 habsorb
  obtain ⟨_, -, habsorb⟩ := bind_eq_ok.1 habsorb
  obtain ⟨last, hpart, habsorb⟩ := bind_eq_ok.1 habsorb
  obtain rfl : field? decoded "LastEvaluatedKey" = last := Except.ok.inj hpart
  rw [hlast, Option.getD_some] at habsorb
  have hempty : cursor = [] := by
    cases cursor with
    | nil => rfl
    | cons e cursor => cases Except.ok.inj habsorb
  have hnames := hread.names
  rw [hempty] at hnames
  exact List.map_eq_nil_iff.1 hnames.symm

/-- What becomes of a count is another count, unless the count has failed or is complete. -/
theorem eq_count_of_goes {r : Except Fault CountProgress} {q : Process}
    (h : ofCountProgress policy r = .ok (.goes q)) : ∃ w', r = .ok (.more w') ∧ q = .count w' := by
  rcases r with f | (w' | total)
  · obtain ⟨v, -, hv⟩ := map_eq_ok.1 h
    cases hv
  · exact ⟨w', rfl, (Progress.goes.inj (Except.ok.inj h)).symm⟩
  · cases h

theorem eq_complete_of_stops {r : Except Fault CountProgress} {v : Value}
    (hrejects : policy.rejects = true) (h : ofCountProgress policy r = .ok (.stops v)) :
    r = .ok (.complete v) := by
  rcases r with f | (w' | total)
  · obtain ⟨u, hu, -⟩ := map_eq_ok.1 h
    rw [(Policy.eq_null_of_settleCount hu).1] at hrejects
    cases hrejects
  · cases h
  · rw [Progress.stops.inj (Except.ok.inj h)]

end Process

/-- The calls of a count: the first of them is for the next request, and each hands its key on. -/
structure CountWalk.Calls (w : CountWalk) (calls : List ClientCall) : Prop where
  first : ∀ x ∈ calls.head?, encodeArguments (map w.params) = .ok x.arguments
  chain : calls.IsChain ClientCall.HandsOn

namespace CountWalk.Calls

variable {w w' : CountWalk} {x : ClientCall} {calls : List ClientCall}

theorem nil (w : CountWalk) : w.Calls [] where
  first := by simp
  chain := List.isChain_nil

theorem singleton (h : encodeArguments (map w.params) = .ok x.arguments) : w.Calls [x] where
  first y hy := by rwa [← Option.some.inj hy]
  chain := List.isChain_singleton x

/-- The calls of a count that goes on follow the one before. -/
theorem cons (h : encodeArguments (map w.params) = .ok x.arguments)
    (hmore : decodeReply "query" x.reply >>= w.absorb = .ok (.more w')) (hcalls : w'.Calls calls) :
    w.Calls (x :: calls) where
  first y hy := by rwa [← Option.some.inj hy]
  chain := by
    refine List.isChain_cons.2 ⟨fun y hy key hkey hends => ?_, hcalls.chain⟩
    obtain ⟨cursor, hread, -⟩ := Stored.exists_cursor hkey
    have hnext := Process.encodeArguments_of_goes h hends hread hmore
    exact Except.ok.inj ((hcalls.first y hy).symm.trans hnext)

end CountWalk.Calls

namespace Process

variable {σ : Type}

/-- A count hands on the key of each call.  If faults are raised, a count that comes to a total has
handed on all keys: its last call ended at none. -/
theorem exists_calls (policy : Policy) (client : Client σ) (turns : ℕ) (s : σ × List ClientCall)
    (w : CountWalk) :
    ∃ calls, ((count w).run policy client.recorded.answer turns s).2.2 = s.2 ++ calls ∧
      w.Calls calls ∧
      (policy.rejects = true → ∀ v,
        ((count w).run policy client.recorded.answer turns s).1.result = .ok (some v) →
          ∃ x ∈ calls.getLast?, x.EndsNowhere) := by
  induction turns generalizing s w with
  | zero =>
    refine ⟨[], (List.append_nil _).symm, .nil w, fun _ v hv => ?_⟩
    cases hv
  | succ turns ih =>
    rcases trip_count_recorded policy client s w with ⟨hstate, f, hresult⟩ |
      ⟨x, hencode, hstate, hresult⟩
    · -- the client is not reached
      obtain ⟨hrun, hafter⟩ := run_of_ends turns hresult
      refine ⟨[], by rw [hafter, hstate, List.append_nil], .nil w, fun hrejects v hv => ?_⟩
      obtain ⟨u, hu, -⟩ := map_eq_ok.1 (hrun.symm.trans hv)
      rw [(Policy.eq_null_of_settleCount hu).1] at hrejects
      cases hrejects
    · cases htrip : ofCountProgress policy (decodeReply "query" x.reply >>= w.absorb) with
      | error f =>
        have hends : ((count w).trip policy client.recorded.answer s).1.result
            = Except.map .stops (.error f) := hresult.trans htrip
        obtain ⟨hrun, hafter⟩ := run_of_ends turns hends
        refine ⟨[x], by rw [hafter, hstate], .singleton hencode, fun _ v hv => ?_⟩
        cases hrun.symm.trans hv
      | ok progress =>
        cases progress with
        | stops u =>
          have hends : ((count w).trip policy client.recorded.answer s).1.result
              = Except.map .stops (.ok u) := hresult.trans htrip
          obtain ⟨-, hafter⟩ := run_of_ends turns hends
          refine ⟨[x], by rw [hafter, hstate], .singleton hencode, fun hrejects _ _ => ?_⟩
          exact ⟨x, rfl, endsNowhere_of_complete (eq_complete_of_stops hrejects htrip)⟩
        | goes q =>
          obtain ⟨w', hmore, rfl⟩ := eq_count_of_goes htrip
          obtain ⟨hrun, hafter⟩ := run_of_goes turns (hresult.trans htrip)
          obtain ⟨calls, hcalls, hkeys, hlast⟩ :=
            ih ((count w).trip policy client.recorded.answer s).2 w'
          refine ⟨x :: calls, ?_, .cons hencode hmore hkeys, fun hrejects v hv => ?_⟩
          · rw [hafter, hcalls, hstate, List.append_assoc, List.singleton_append]
          · obtain ⟨y, hy, hend⟩ := hlast hrejects v (hrun.symm.trans hv)
            exact ⟨y, by rw [List.getLast?_cons, hy]; rfl, hend⟩

end Process

/-! ### What was read is written again -/

/-- The key in a response comes back as it was given: as the cursor of a page that is the start of
the next query, in every such query, and from page to page of a count.  It is so because a record
that is read from its stored form is written in that form again.

The last page has no cursor, because nothing comes after it. -/
theorem cursor_handed_back {σ : Type} (store : RecordStore) (client : Client σ) (turns : ℕ)
    (s : σ) :
    (∀ primaryKey table descriptor byItself d page,
      store.descriptor descriptor byItself = .ok d →
      (store.ask client.recorded.answer turns (s, []) primaryKey table descriptor byItself).1
        = .ok (some page) →
      ∃ x rest,
        (store.ask client.recorded.answer turns (s, []) primaryKey table descriptor byItself).2.2
          = x :: rest ∧
        ∀ key, Stored.IsKey key → x.EndsAt key →
          if d.wantsLastPage then page.cursor = none
          else ∃ cursor, page.cursor = some cursor ∧ store.RestartsAt cursor key) ∧
    (∀ walk : CountWalk,
      ((Process.count walk).run store.policy client.recorded.answer turns (s, [])).2.2.IsChain
          ClientCall.HandsOn ∧
        (store.policy.rejects = true → ∀ total,
          ((Process.count walk).run store.policy client.recorded.answer turns (s, [])).1.result
            = .ok (some total) →
          ∃ x ∈ ((Process.count walk).run store.policy client.recorded.answer turns
            (s, [])).2.2.getLast?, x.EndsNowhere)) ∧
    ∀ item stored, EntriesHaveProperSets item → Stored.encodeRecord (map item) = .ok stored →
      ∃ back, Stored.decodeRecord (map stored) = .ok back ∧
        Stored.encodeRecord (map back) = .ok stored := by
  refine ⟨?_, ?_, fun _ _ => Stored.decodeRecord_encodeRecord_again⟩
  · intro primaryKey table descriptor byItself d page hd hpage
    obtain ⟨x, rest, hcalls, hcursor⟩ := RecordStore.cursor_of_ask hd hpage
    refine ⟨x, rest, hcalls, fun key hkey hends => ?_⟩
    obtain ⟨cursor, hread, hnames⟩ := Stored.exists_cursor hkey
    rw [hcursor key cursor hends hread hnames]
    split
    · rfl
    · exact ⟨cursor, rfl, store.restartsAt hread hnames⟩
  · intro walk
    obtain ⟨calls, hcalls, hkeys, hlast⟩ :=
      Process.exists_calls store.policy client turns (s, []) walk
    rw [hcalls]
    exact ⟨hkeys.chain, hlast⟩

/-- A key of a text, a number and a byte string, at which the first of two pages ends. -/
theorem cursor_handed_back_mixed :
    let key : Record := [("pk", Stored.form .text (str "A")),
      ("rank", Stored.form .number (str "-7.50")), ("raw", Stored.form .bytes (.bytes [0, 255]))]
    let client : Client Bool := fun ended _ _ =>
      (.ok (map ((str "Count", int 1)
        :: if ended then [] else [(str "LastEvaluatedKey", key.toValue)])), true)
    let store : RecordStore := ⟨⟨true, int 1000, 20⟩, .standard, 10⟩
    ∃ page cursor x y,
      (store.ask client.recorded.answer 2 (false, []) (map [(str "pk", str "A")]) (str "t") (map [])
        false).1 = .ok (some page) ∧ page.cursor = some cursor ∧ store.RestartsAt cursor key ∧
      ((Process.count (.fromBeginning [(str "TableName", str "t")])).run store.policy
        client.recorded.answer 2 (false, [])).2.2 = [x, y] ∧
      x.EndsAt key ∧ x.HandsOn y ∧ y.EndsNowhere := by
  intro key client store
  have hkey : Stored.IsKey key := by
    refine ⟨by decide, ?_⟩
    rintro e he
    rcases List.mem_cons.1 he with rfl | he
    · exact .text "A"
    rcases List.mem_cons.1 he with rfl | he
    · exact .number ⟨.finite true 750 (-2), rfl, rfl⟩
    rcases List.mem_cons.1 he with rfl | he
    · exact .bytes [0, 255]
    · cases he
  obtain ⟨hpages, hcounts, -⟩ := cursor_handed_back store client 2 false
  obtain ⟨page, hpage⟩ : ∃ page, (store.ask client.recorded.answer 2 (false, [])
      (map [(str "pk", str "A")]) (str "t") (map []) false).1 = .ok (some page) := ⟨_, rfl⟩
  obtain ⟨x, rest, hcalls, hcursor⟩ := hpages _ _ _ _ (Descriptor.plain 10) page rfl hpage
  have hends : x.EndsAt key := ⟨_, congrArg ClientCall.reply (List.cons.inj hcalls).1.symm, rfl⟩
  obtain ⟨cursor, hpageCursor, hrestarts⟩ := hcursor key hkey hends
  obtain ⟨hchain, hlast⟩ := hcounts (.fromBeginning [(str "TableName", str "t")])
  obtain ⟨y, hy, hnowhere⟩ := hlast rfl (int 2) rfl
  obtain rfl := Option.some.inj hy
  refine ⟨page, cursor, _, _, hpage, hpageCursor, hrestarts, rfl, ⟨_, rfl, rfl⟩, ?_, hnowhere⟩
  exact (List.isChain_cons_cons.1 hchain).1

/-- The last page is asked for, and the response ends at a key.  All the same the page has no
cursor, and the next query is not handed the key. -/
theorem not_handed_back_from_last_page :
    let key : Record := [("pk", Stored.form .text (str "A"))]
    let client : Client Bool := fun ended _ _ =>
      (.ok (map ((str "Count", int 1)
        :: if ended then [] else [(str "LastEvaluatedKey", key.toValue)])), true)
    let store : RecordStore := ⟨⟨true, int 1000, 20⟩, .standard, 10⟩
    let ask (startKey : Value) (ended : Bool) :=
      store.ask client.recorded.answer 2 (ended, []) (map [(str "pk", str "A")]) (str "t")
        (map [(str "startKey", startKey)]) false
    ∃ page x rest y rest', Stored.IsKey key ∧
      (ask (str "last") false).1 = .ok (some page) ∧
      (ask (str "last") false).2.2 = x :: rest ∧ x.EndsAt key ∧ page.cursor = none ∧
      (ask ((page.cursor.map Record.toValue).getD null) true).2.2 = y :: rest' ∧
      field? y.arguments "ExclusiveStartKey" = none := by
  intro key client store ask
  have hkey : Stored.IsKey key := by
    refine ⟨by decide, fun e he => ?_⟩
    obtain rfl := List.mem_singleton.1 he
    exact .text "A"
  obtain ⟨cursor, hread, hnames⟩ := Stored.exists_cursor hkey
  obtain ⟨page, hpage⟩ : ∃ page, (ask (str "last") false).1 = .ok (some page) := ⟨_, rfl⟩
  obtain ⟨x, rest, hcalls, hcursor⟩ := RecordStore.cursor_of_ask rfl hpage
  -- the call for the last page is answered with the key
  obtain ⟨arguments, harguments⟩ : ∃ arguments, store.queryArguments (map [(str "pk", str "A")])
      (str "t") (map [(str "startKey", str "last")]) false = .ok arguments := ⟨_, rfl⟩
  obtain ⟨_, hfirst⟩ := RecordStore.ask_recorded harguments client 2 false
  obtain rfl := (List.cons.inj (hcalls.symm.trans hfirst)).1
  have hends : ClientCall.EndsAt ⟨arguments, (client false "query" arguments).1⟩ key :=
    ⟨_, rfl, rfl⟩
  have hnone : page.cursor = none := hcursor key cursor hends hread hnames
  -- the query that starts at no cursor is called without a key
  obtain ⟨next, hnext, hfield⟩ : ∃ next, store.queryArguments (map [(str "pk", str "A")])
      (str "t") (map [(str "startKey", null)]) false = .ok next ∧
        field? next "ExclusiveStartKey" = none := ⟨_, rfl, rfl⟩
  obtain ⟨rest', hsecond⟩ := RecordStore.ask_recorded hnext client 2 true
  refine ⟨page, _, rest, ⟨next, (client true "query" next).1⟩, rest', hkey, hpage, hcalls, hends,
    hnone, ?_, hfield⟩
  rw [hnone]
  exact hsecond

end KeysetQuery

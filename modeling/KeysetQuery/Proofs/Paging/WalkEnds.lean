import KeysetQuery.Proofs.Counting.Walk
import KeysetQuery.Proofs.Paging.Query
import KeysetQuery.Proofs.Query.Restart
import KeysetQuery.Proofs.Stored.Keys

/-!
# Where walks end

Pages and counts go from key to key.  A page has a cursor if its response has a key at all, a count
goes on if the key counts as a yes.

* `EndsAlike` — the responses to a page and to a count that end at the same key;
* `Page.cursor_ne_none_iff`, `goesOn_iff` — when a page has a cursor and when a count goes on;
* `RecordStore.answered` — what a query comes to with a response to its page and a total;
* `RecordStore.walk` — the pages that a caller reads who passes each cursor back;
* `RecordStore.walk_of_last`, `RecordStore.exists_of_walk` — how many there are;
* `walks_agree_iff` — pages and counts agree on the end unless a key without parts is given.
-/

namespace KeysetQuery

open Value Entries Schema

/-! ### Ends -/

/-- A response ended at a key. -/
def EndsAtKey (response : Entries) : Prop :=
  ∃ key, field? response "LastEvaluatedKey" = some (map key)

/-- A response to a page and one to a count that end at the same key. -/
structure EndsAlike (response counted : Entries) : Prop where
  readable : IsQueryResponse (map response)
  isCounted : IsCounted counted
  key_eq : field? counted "LastEvaluatedKey" = field? response "LastEvaluatedKey"

theorem cursorIn_eq_map_iff {response key : Entries} :
    cursorIn response = map key ↔ field? response "LastEvaluatedKey" = some (map key) := by
  rw [cursorIn]
  cases field? response "LastEvaluatedKey" <;> simp

section Ends

variable {response : Entries} {page : Page} (h : Page.ofResponse (map response) = .ok page)

include h

/-- A response that is read ended at no key, or at one that is the cursor of its page. -/
theorem Page.cursor_cases :
    (cursorIn response = null ∧ page.cursor = none) ∨
      ∃ (key : Entries) (cursor : Record), cursorIn response = map key ∧
        page.cursor = some cursor ∧ (cursor.map Prod.fst).Nodup := by
  have hread := Page.readRecord?_of_ofResponse h
  cases hlast : cursorIn response with
  | null =>
    rw [hlast] at hread
    exact .inl ⟨rfl, (Except.ok.inj hread).symm⟩
  | map key =>
    rw [hlast] at hread
    obtain ⟨cursor, hcursor, hpage⟩ := map_eq_ok.1 hread
    obtain ⟨ps, -, rfl⟩ := map_eq_ok.1 hcursor
    exact .inr ⟨key, _, rfl, hpage.symm, nodup_byName ps⟩
  | _ =>
    rw [hlast] at hread
    cases hread

/-- A page has a cursor exactly if its response ended at a key, whatever its parts are. -/
theorem Page.cursor_ne_none_iff : page.cursor ≠ none ↔ EndsAtKey response := by
  simp only [EndsAtKey, ← cursorIn_eq_map_iff]
  rcases Page.cursor_cases h with ⟨hlast, hcursor⟩ | ⟨key, cursor, hlast, hcursor, -⟩
  · simp [hlast, hcursor]
  · simp [hlast, hcursor]

/-- The names in a cursor are different. -/
theorem Page.nodup_cursor {cursor : Record} (hcursor : page.cursor = some cursor) :
    (cursor.map Prod.fst).Nodup := by
  rcases Page.cursor_cases h with ⟨-, hnone⟩ | ⟨key, same, -, hsame, hnodup⟩
  · rw [hcursor] at hnone
    cases hnone
  · rw [hcursor] at hsame
    exact Option.some.inj hsame ▸ hnodup

/-- A count goes on exactly if the response ended at a key with parts. -/
theorem goesOn_iff : goesOn response = true ↔
    ∃ key, field? response "LastEvaluatedKey" = some (map key) ∧ key ≠ [] := by
  simp only [goesOn, ← cursorIn_eq_map_iff]
  rcases Page.cursor_cases h with ⟨hlast, -⟩ | ⟨key, cursor, hlast, -⟩
  · simp [hlast, truthy]
  · simp [hlast, truthy]

end Ends

namespace EndsAlike

variable {response counted : Entries} (h : EndsAlike response counted)

include h

theorem goesOn_eq : goesOn counted = goesOn response := by
  rw [goesOn, goesOn, cursorIn, cursorIn, h.key_eq]

/-- A response after which a count goes on ended at a key. -/
theorem endsAtKey_of_goesOn (hgoes : goesOn counted = true) : EndsAtKey response := by
  obtain ⟨es, hes, -, page, hpage⟩ := h.readable
  rw [h.goesOn_eq] at hgoes
  obtain ⟨key, hkey, -⟩ := (goesOn_iff hpage).1 hgoes
  exact ⟨key, hkey⟩

/-- Another response ended at a key only if this has no parts. -/
theorem endsAtKey_iff_of_last (hlast : goesOn counted = false) :
    EndsAtKey response ↔ field? response "LastEvaluatedKey" = some (map []) := by
  obtain ⟨es, hes, -, page, hpage⟩ := h.readable
  constructor
  · rintro ⟨key, hkey⟩
    have hempty : key = [] := by
      by_contra hparts
      have hgoes := (goesOn_iff hpage).2 ⟨key, hkey, hparts⟩
      rw [← h.goesOn_eq, hlast] at hgoes
      exact absurd hgoes Bool.false_ne_true
    rw [hkey, hempty]
  · exact fun hkey => ⟨[], hkey⟩

end EndsAlike

/-! ### One response -/

/-- A count sends another request after a response. -/
def CountWalk.AsksAgain (w : CountWalk) (policy : Policy) (response : Value) : Prop :=
  ∃ w', w.absorb response = .ok (.more w') ∧
    ((Process.count w').next policy).result = .ok (.send w'.request)

/-- A count sends a request exactly if its bound is not used up. -/
theorem Process.result_next_count_eq_send_iff {policy : Policy} {w : CountWalk} :
    ((count w).next policy).result = .ok (.send w.request) ↔ w.isExhausted policy = .ok false := by
  constructor
  · intro hnext
    have hbarred : ∀ f, (w.checkBound policy).result ≠ .error f := by
      intro f hf
      rw [result_next_count_of_error hf] at hnext
      obtain ⟨v, -, ⟨⟩⟩ := map_eq_ok.1 hnext
    cases hspent : w.isExhausted policy with
    | error f => exact absurd (by rw [CountWalk.checkBound, hspent]; rfl) (hbarred f)
    | ok spent =>
      cases spent with
      | false => rfl
      | true => exact absurd (CountWalk.result_checkBound hspent) (hbarred _)
  · intro hfree
    rw [next_count_of_free hfree]
    rfl

/-- A count with an integer sum sends another request exactly if the response ended at a key with
parts and the bound allows another page. -/
theorem CountWalk.asksAgain_iff {w : CountWalk} {policy : Policy} {total : ℤ}
    (htotal : w.total = int total) {response : Entries} (hcounted : IsCounted response) :
    w.AsksAgain policy (map response) ↔
      goesOn response = true ∧ { w with pages := w.pages + 1 }.isExhausted policy = .ok false := by
  rw [AsksAgain, absorb_of_isCounted htotal hcounted]
  cases goesOn response with
  | false => simp
  | true =>
    constructor
    · rintro ⟨w', hmore, hnext⟩
      obtain rfl := CountProgress.more.inj (Except.ok.inj hmore)
      have hfree := Process.result_next_count_eq_send_iff.1 hnext
      exact ⟨rfl, hfree⟩
    · rintro ⟨-, hfree⟩
      refine ⟨_, rfl, Process.result_next_count_eq_send_iff.2 ?_⟩
      exact hfree

/-- A query that does not ask for the last page shows the cursor of the page that was read. -/
theorem QueryPlan.exists_conclude {plan : QueryPlan} (hlast : plan.descriptor.wantsLastPage = false)
    {response : Value} (hresponse : IsQueryResponse response) {read : Page}
    (hread : Page.ofResponse response = .ok read) (policy : Policy) (total : Value) :
    ∃ page, (plan.conclude policy response total).result = .ok (some page) ∧
      page.cursor = read.cursor := by
  have hconclude : (plan.conclude policy response total).result
      = .ok (some (plan.oriented read total)) := by
    rw [result_conclude hresponse hread, hlast]
    rfl
  obtain ⟨same, hsame, hcursor⟩ := cursor_of_conclude hconclude
  rw [hlast] at hcursor
  obtain rfl := Except.ok.inj (hread.symm.trans hsame)
  exact ⟨_, hconclude, hcursor⟩

/-- A query and a count agree on a response exactly if it ended at no key, or at one with parts
after which the count may read another page. -/
theorem EndsAlike.agree_iff {response counted : Entries} (h : EndsAlike response counted)
    {plan : QueryPlan} (hlast : plan.descriptor.wantsLastPage = false) (policy : Policy)
    (total : Value) {w : CountWalk} {sum : ℤ} (hsum : w.total = int sum) : ∃ page,
      (plan.conclude policy (map response) total).result = .ok (some page) ∧
        ((page.cursor ≠ none ↔ w.AsksAgain policy (map counted)) ↔
          ∀ key, field? response "LastEvaluatedKey" = some (map key) →
            key ≠ [] ∧ { w with pages := w.pages + 1 }.isExhausted policy = .ok false) := by
  obtain ⟨es, hes, -, read, hread⟩ := h.readable
  obtain ⟨page, hconclude, hcursor⟩ := QueryPlan.exists_conclude hlast h.readable hread policy total
  refine ⟨page, hconclude, ?_⟩
  rw [CountWalk.asksAgain_iff hsum h.isCounted, h.goesOn_eq, hcursor,
    Page.cursor_ne_none_iff hread, goesOn_iff hread]
  constructor
  · intro hiff key hkey
    obtain ⟨⟨key', hkey', hparts⟩, hfree⟩ := hiff.1 ⟨key, hkey⟩
    rw [hkey] at hkey'
    obtain rfl := Value.map.inj (Option.some.inj hkey')
    exact ⟨hparts, hfree⟩
  · intro hall
    constructor
    · rintro ⟨key, hkey⟩
      obtain ⟨hparts, hfree⟩ := hall key hkey
      exact ⟨⟨key, hkey, hparts⟩, hfree⟩
    · rintro ⟨⟨key, hkey, -⟩, -⟩
      exact ⟨key, hkey⟩

/-! ### Walks -/

/-- A value that a caller passes as a start key: null, or the cursor of a page. -/
def IsStart (start : Value) : Prop :=
  start = null ∨ ∃ cursor : Record, (cursor.map Prod.fst).Nodup ∧ start = cursor.toValue

/-- A start key is read, and does not stand for the last page. -/
theorem IsStart.exists_startKey {start : Value} (h : IsStart start) : ∃ s,
    Descriptor.readStartKey [.name FieldName.startKey.preferred] start = .ok s ∧ s ≠ .last := by
  rcases h with rfl | ⟨cursor, hnames, rfl⟩
  · exact ⟨.beginning, rfl, by simp⟩
  · exact ⟨.after cursor, Descriptor.readStartKey_toValue hnames _, by simp⟩

namespace RecordStore

/-- What a query comes to if the request for its page is answered with a response and its count, if
it counts, comes to a total. -/
def answered (store : RecordStore) (primaryKey table descriptor response total : Value) :
    Except Fault (Option Page) :=
  match (store.begin (.query primaryKey table descriptor false)).result with
  | .ok (.query plan) => (plan.conclude store.policy response total).result
  | .ok _ => .ok none
  | .error f => .error f

/-- That is the whole of the query with a store that answers its page and its count so. -/
theorem answered_eq_run {σ : Type} {respond : Process.Responder σ} {turns : ℕ} {s : σ}
    {store : RecordStore} {primaryKey table descriptor response total : Value} {plan : QueryPlan}
    (hbegin : (store.begin (.query primaryKey table descriptor false)).result = .ok (.query plan))
    (hpage : (plan.pageProcess.run store.policy respond 1 s).1.result = .ok (some response))
    (hcount : (if plan.counts then
        plan.countProcess.run store.policy respond turns
          (plan.pageProcess.run store.policy respond 1 s).2
      else (pure (some null), (plan.pageProcess.run store.policy respond 1 s).2)).1.result
        = .ok (some total)) :
    store.answered primaryKey table descriptor response total
      = (plan.run store.policy respond turns s).1.result := by
  rw [answered, hbegin]
  exact (QueryPlan.result_run hpage hcount).symm

/-- The pages that a caller reads who passes the cursor of each page back as a start key until a
page has none, if there are no more of them than a given number.  The queries are answered with one
response after the other. -/
def walk (store : RecordStore) (primaryKey table : Value) (fields : Entries)
    (responses : ℕ → Entries) (totals : ℕ → Value) : ℕ → ℕ → Value → Option (List Page)
  | 0, _, _ => none
  | most + 1, i, start =>
    match store.answered primaryKey table (map (fields.putField "startKey" start))
      (map (responses i)) (totals i) with
    | .ok (some page) =>
      match page.cursor with
      | none => some [page]
      | some cursor =>
        (walk store primaryKey table fields responses totals most (i + 1) cursor.toValue).map
          fun pages => page :: pages
    | _ => none

section Walks

variable {store : RecordStore} {primaryKey table : Value} {fields : Entries} {plan : QueryPlan}
  (hbegin : (store.begin (.query primaryKey table (map (fields.putField "startKey" null))
    false)).result = .ok (.query plan))
  {responses : ℕ → Entries} (hresponses : ∀ i, IsQueryResponse (map (responses i)))
  (totals : ℕ → Value)

include hbegin

/-- A query that is accepted from the beginning is accepted from every start. -/
theorem exists_begin {start : Value} (hstart : IsStart start) : ∃ plan,
    (store.begin (.query primaryKey table (map (fields.putField "startKey" start)) false)).result
        = .ok (.query plan) ∧
      plan.descriptor.wantsLastPage = false := by
  obtain ⟨s, hs, hlast⟩ := hstart.exists_startKey
  have hnull : Descriptor.readStartKey [.name FieldName.startKey.preferred] null
      = .ok .beginning := rfl
  rw [begin_query] at hbegin
  obtain ⟨d, hd, hplan⟩ := bind_eq_ok.1 hbegin
  obtain ⟨_, hmake, -⟩ := map_eq_ok.1 hplan
  rw [QueryPlan.result_make] at hmake
  obtain ⟨params, hparams, -⟩ := map_eq_ok.1 hmake
  have hdescriptor : store.descriptor (map (fields.putField "startKey" start)) false
      = .ok { d with startKey := s } := by
    refine (descriptor_startKey store fields false hs hnull).trans ?_
    show (store.descriptor (map (fields.putField "startKey" null)) false).map _ = _
    rw [hd]
    rfl
  refine ⟨⟨{ d with startKey := s }, QueryPlan.startAt s params,
    { d with startKey := s }.counts⟩, ?_, ?_⟩
  · rw [begin_query, hdescriptor]
    show (QueryPlan.make store.normalizer primaryKey table
      { d with startKey := s }).result.map _ = _
    rw [QueryPlan.result_make]
    show (((queryParams store.normalizer primaryKey table d).result).map _).map _ = _
    rw [hparams]
    rfl
  · cases s with
    | last => exact absurd rfl hlast
    | _ => rfl

include hresponses

/-- Each query of a walk comes to the page that was read. -/
theorem exists_answered {start : Value} (hstart : IsStart start) (i : ℕ) : ∃ page,
    store.answered primaryKey table (map (fields.putField "startKey" start)) (map (responses i))
        (totals i) = .ok (some page) ∧
      (page.cursor ≠ none ↔ EndsAtKey (responses i)) ∧
      ∀ cursor, page.cursor = some cursor → IsStart cursor.toValue := by
  obtain ⟨plan, hplan, hlast⟩ := exists_begin hbegin hstart
  obtain ⟨es, hes, -, read, hread⟩ := hresponses i
  obtain ⟨page, hconclude, hcursor⟩ :=
    QueryPlan.exists_conclude hlast (hresponses i) hread store.policy (totals i)
  refine ⟨page, by rw [answered, hplan]; exact hconclude, ?_, ?_⟩
  · rw [hcursor]
    exact Page.cursor_ne_none_iff hread
  · intro cursor hc
    rw [hcursor] at hc
    exact .inr ⟨cursor, Page.nodup_cursor hread hc, rfl⟩

/-- A query of a walk is the last one if its response ended at no key, and else the walk goes on
with the next response. -/
theorem walk_succ {start : Value} (hstart : IsStart start) (most i : ℕ) :
    (¬ EndsAtKey (responses i) ∧ ∃ page,
      store.walk primaryKey table fields responses totals (most + 1) i start = some [page]) ∨
    (EndsAtKey (responses i) ∧ ∃ page next, IsStart next ∧
      store.walk primaryKey table fields responses totals (most + 1) i start
        = (store.walk primaryKey table fields responses totals most (i + 1) next).map
            fun pages => page :: pages) := by
  obtain ⟨page, hanswered, hiff, hnext⟩ := exists_answered hbegin hresponses totals hstart i
  cases hcursor : page.cursor with
  | none =>
    refine .inl ⟨fun hkey => hiff.2 hkey hcursor, page, ?_⟩
    rw [walk, hanswered]
    simp only [hcursor]
  | some cursor =>
    refine .inr ⟨hiff.1 (by simp [hcursor]), page, cursor.toValue, hnext cursor hcursor, ?_⟩
    rw [walk, hanswered]
    simp only [hcursor]

/-- A walk reads the pages up to the first one whose response ended at no key. -/
theorem walk_of_last {k i : ℕ} {start : Value} (hstart : IsStart start)
    (hgoes : ∀ j < k, EndsAtKey (responses (i + j))) (hlast : ¬ EndsAtKey (responses (i + k)))
    {most : ℕ} (hmost : k < most) : ∃ pages,
      store.walk primaryKey table fields responses totals most i start = some pages ∧
        pages.length = k + 1 := by
  induction k generalizing i start most with
  | zero =>
    obtain ⟨most, rfl⟩ := Nat.exists_eq_add_of_lt hmost
    rcases walk_succ hbegin hresponses totals hstart (0 + most) i with ⟨-, page, hwalk⟩ | ⟨hkey, -⟩
    · exact ⟨[page], hwalk, rfl⟩
    · exact absurd hkey hlast
  | succ k ih =>
    obtain ⟨most, rfl⟩ := Nat.exists_eq_add_of_lt hmost
    rcases walk_succ hbegin hresponses totals hstart (k + 1 + most) i with
      ⟨hnone, -⟩ | ⟨-, page, next, hnext, hwalk⟩
    · exact absurd (hgoes 0 (by omega)) hnone
    · have hshift : ∀ j, i + 1 + j = i + (j + 1) := fun j => by omega
      have hleft : k < k + 1 + most := by omega
      obtain ⟨pages, hpages, hlength⟩ := ih (i := i + 1) hnext
        (fun j hj => hshift j ▸ hgoes (j + 1) (by omega)) (hshift k ▸ hlast) hleft
      refine ⟨page :: pages, ?_, by rw [List.length_cons, hlength]⟩
      rw [hwalk, hpages]
      rfl

/-- The last page of a walk, and no page before it, has a response that ended at no key. -/
theorem exists_of_walk {most i : ℕ} {start : Value} (hstart : IsStart start) {pages : List Page}
    (h : store.walk primaryKey table fields responses totals most i start = some pages) :
    ∃ k, pages.length = k + 1 ∧ (∀ j < k, EndsAtKey (responses (i + j))) ∧
      ¬ EndsAtKey (responses (i + k)) := by
  induction most generalizing i start pages with
  | zero => cases h
  | succ most ih =>
    rcases walk_succ hbegin hresponses totals hstart most i with
      ⟨hnone, page, hwalk⟩ | ⟨hkey, page, next, hnext, hwalk⟩
    · rw [hwalk] at h
      rw [← Option.some.inj h]
      exact ⟨0, rfl, by simp, hnone⟩
    · rw [hwalk] at h
      obtain ⟨rest, hrest, rfl⟩ := Option.map_eq_some_iff.1 h
      obtain ⟨k, hlength, hgoes, hlast⟩ := ih hnext hrest
      have hshift : ∀ j, i + 1 + j = i + (j + 1) := fun j => by omega
      refine ⟨k + 1, by rw [List.length_cons, hlength], fun j hj => ?_, hshift k ▸ hlast⟩
      cases j with
      | zero => exact hkey
      | succ j => exact hshift j ▸ hgoes j (by omega)

end Walks

end RecordStore

/-! ### Pages and counts -/

/-- A count sends as many requests as it has responses up to the last one exactly if it may read all
of their pages. -/
theorem length_asked_eq_iff (store : RecordStore) {params : Entries} (hparams : Distinct params)
    {counts : ℕ → Entries} (hcounts : ∀ i, IsCounted (counts i)) {k turns : ℕ}
    (hgoes : ∀ i < k, goesOn (counts i) = true) (hlast : goesOn (counts k) = false)
    (hturns : k + 1 ≤ turns) :
    (store.count params (.int 0) (inOrder counts) turns []).2.length ≤ k + 1 ∧
      ((store.count params (.int 0) (inOrder counts) turns []).2.length = k + 1 ↔
        store.policy.AllowsPages (k + 1)) := by
  by_cases hallowed : store.policy.AllowsPages (k + 1)
  · have hlength := (count_of_allowed hparams 0 hcounts hgoes hlast hallowed hturns).2.length_eq
    exact ⟨by omega, fun _ => hallowed, fun _ => hlength⟩
  · obtain ⟨j, hj, hbefore, hbarred⟩ := Policy.exists_barred hallowed
    have hturns' : j + 1 ≤ turns := by omega
    have hlength := (asked_of_barred hparams 0 hcounts (fun i hi => hgoes i (by omega)) hbefore
      hbarred hturns').length_eq
    exact ⟨by omega, fun heq => by omega, fun h => absurd h hallowed⟩

/-- A query that does not ask for the last page and a count agree on the end at a response exactly
if it ended at no key, or at one with parts after which the count may read another page.  So a caller
who passes each cursor back does not come to an end where a count does not; and where a count does,
the caller reads as many pages as the count sends requests exactly if the count may read all of them
and the last response did not end at a key without parts. -/
theorem walks_agree_iff (store : RecordStore) :
    (∀ {response counted : Entries}, EndsAlike response counted →
      ∀ {plan : QueryPlan}, plan.descriptor.wantsLastPage = false →
      ∀ (total : Value) {w : CountWalk} {sum : ℤ}, w.total = int sum → ∃ page,
        (plan.conclude store.policy (map response) total).result = .ok (some page) ∧
          ((page.cursor ≠ none ↔ w.AsksAgain store.policy (map counted)) ↔
            ∀ key, field? response "LastEvaluatedKey" = some (map key) →
              key ≠ [] ∧ { w with pages := w.pages + 1 }.isExhausted store.policy = .ok false)) ∧
    ∀ {primaryKey table : Value} {fields : Entries} {plan : QueryPlan},
      (store.begin (.query primaryKey table (map (fields.putField "startKey" null)) false)).result
        = .ok (.query plan) →
      ∀ {responses counts : ℕ → Entries}, (∀ i, EndsAlike (responses i) (counts i)) →
      ∀ (totals : ℕ → Value) {params : Entries}, Distinct params →
        ((∀ i, goesOn (counts i) = true) → ∀ most,
          store.walk primaryKey table fields responses totals most 0 null = none) ∧
        ∀ k turns, (∀ i < k, goesOn (counts i) = true) → goesOn (counts k) = false →
          k + 1 ≤ turns →
          ((∃ most pages,
              store.walk primaryKey table fields responses totals most 0 null = some pages ∧
                pages.length = (store.count params (int 0) (inOrder counts) turns []).2.length) ↔
            store.policy.AllowsPages (k + 1) ∧
              field? (responses k) "LastEvaluatedKey" ≠ some (map [])) := by
  refine ⟨fun h _ hlast total _ _ hsum => h.agree_iff hlast store.policy total hsum, ?_⟩
  intro primaryKey table fields plan hbegin responses counts halike totals params hparams
  have hresponses : ∀ i, IsQueryResponse (map (responses i)) := fun i => (halike i).readable
  have hcounts : ∀ i, IsCounted (counts i) := fun i => (halike i).isCounted
  have hends : ∀ {most pages}, store.walk primaryKey table fields responses totals most 0 null
      = some pages → ∃ j, pages.length = j + 1 ∧ (∀ i < j, EndsAtKey (responses i)) ∧
        ¬ EndsAtKey (responses j) := by
    intro most pages hwalk
    obtain ⟨j, hj⟩ := RecordStore.exists_of_walk hbegin hresponses totals (.inl rfl) hwalk
    simp only [Nat.zero_add] at hj
    exact ⟨j, hj⟩
  constructor
  · intro hgoes most
    by_contra hwalk
    obtain ⟨pages, hpages⟩ := Option.ne_none_iff_exists'.1 hwalk
    obtain ⟨j, -, -, hnone⟩ := hends hpages
    exact hnone ((halike j).endsAtKey_of_goesOn (hgoes j))
  · intro k turns hgoes hlast hturns
    obtain ⟨hle, hiff⟩ := length_asked_eq_iff store hparams hcounts hgoes hlast hturns
    have hkey := (halike k).endsAtKey_iff_of_last hlast
    constructor
    · rintro ⟨most, pages, hwalk, hlength⟩
      obtain ⟨j, hj, hbefore, hnone⟩ := hends hwalk
      -- the caller goes on as long as the count does
      have hjk : ¬ j < k := fun hlt => hnone ((halike j).endsAtKey_of_goesOn (hgoes j hlt))
      have heq : j = k := by omega
      subst heq
      exact ⟨hiff.1 (by omega), fun hempty => hnone (hkey.2 hempty)⟩
    · rintro ⟨hallowed, hempty⟩
      obtain ⟨pages, hwalk, hlength⟩ := RecordStore.walk_of_last hbegin hresponses totals (.inl rfl)
        (fun i hi => (halike _).endsAtKey_of_goesOn (hgoes _ (by omega)))
        (fun hk => hempty (hkey.1 ((Nat.zero_add k) ▸ hk))) (Nat.lt_succ_self k)
      exact ⟨k + 1, pages, hwalk, by rw [hlength, hiff.2 hallowed]⟩

/-- Three responses, of which the first two ended at keys with parts. -/
theorem endsAlike_inTwos (i : ℕ) : EndsAlike (inTwos 2 i) (inTwos 2 i) := by
  refine ⟨⟨_, rfl, isCounted_inTwos 2 i, ?_⟩, isCounted_inTwos 2 i, rfl⟩
  unfold inTwos
  split <;> exact ⟨_, rfl⟩

/-- Three pages are read with three requests, and so are three counts. -/
theorem walks_agree_inTwos :
    (∃ plan page, ((RecordStore.mk ⟨true, int 1000, 20⟩ .standard 10).begin
        (.query (map [(str "pk", str "A")]) (str "t") (map [(str "startKey", null)]) false)).result
          = .ok (.query plan) ∧
      (plan.conclude ⟨true, int 1000, 20⟩ (map (inTwos 2 0)) null).result = .ok (some page) ∧
      (page.cursor ≠ none ↔
        (CountWalk.fromBeginning plan.params).AsksAgain ⟨true, int 1000, 20⟩ (map (inTwos 2 0)))) ∧
    ∃ most pages, (RecordStore.mk ⟨true, int 1000, 20⟩ .standard 10).walk
        (map [(str "pk", str "A")]) (str "t") [] (inTwos 2) (fun _ => null) most 0 null
          = some pages ∧
      pages.length = ((RecordStore.mk ⟨true, int 1000, 20⟩ .standard 10).count
        [(str "TableName", str "t")] (int 0) (inOrder (inTwos 2)) 3 []).2.length := by
  constructor
  · obtain ⟨plan, hplan, hlast⟩ : ∃ plan, ((RecordStore.mk ⟨true, int 1000, 20⟩ .standard 10).begin
        (.query (map [(str "pk", str "A")]) (str "t") (map [(str "startKey", null)]) false)).result
          = .ok (.query plan) ∧ plan.descriptor.wantsLastPage = false := ⟨_, rfl, rfl⟩
    obtain ⟨page, hpage, hiff⟩ := (walks_agree_iff (.mk ⟨true, int 1000, 20⟩ .standard 10)).1
      (endsAlike_inTwos 0) hlast null (w := .fromBeginning plan.params) rfl
    refine ⟨plan, page, hplan, hpage, hiff.2 fun key hkey => ⟨?_, rfl⟩⟩
    rintro rfl
    simp [inTwos, field?, get?] at hkey
  · obtain ⟨-, hwalk⟩ := @(walks_agree_iff (.mk ⟨true, int 1000, 20⟩ .standard 10)).2
      (map [(str "pk", str "A")]) (str "t") [] _ rfl (inTwos 2) (inTwos 2) endsAlike_inTwos
      (fun _ => null) [(str "TableName", str "t")] (distinct_singleton _)
    refine (hwalk 2 3 (by decide) (by decide) (by decide)).2 ⟨?_, by simp [inTwos, field?, get?]⟩
    exact allowsPages_int rfl (.inr (by decide))

/-- A response that ended at a key without parts. -/
def endless : Entries := [(str "Items", list []), (str "LastEvaluatedKey", map [])]

/-- A count ends there after one request, but a page has a cursor, and a caller who passes it back
does not come to an end. -/
theorem not_walks_agree_endless : ∃ plan page,
    ((RecordStore.mk ⟨true, int 1000, 20⟩ .standard 10).begin
      (.query (map [(str "pk", str "A")]) (str "t") (map [(str "startKey", null)]) false)).result
        = .ok (.query plan) ∧
    (plan.conclude ⟨true, int 1000, 20⟩ (map endless) null).result = .ok (some page) ∧
    page.cursor = some [] ∧
    ¬ (CountWalk.fromBeginning plan.params).AsksAgain ⟨true, int 1000, 20⟩ (map endless) ∧
    ((RecordStore.mk ⟨true, int 1000, 20⟩ .standard 10).count plan.params (int 0)
      (inOrder fun _ => endless) 2 []).2.length = 1 ∧
    ∀ most, (RecordStore.mk ⟨true, int 1000, 20⟩ .standard 10).walk (map [(str "pk", str "A")])
      (str "t") [] (fun _ => endless) (fun _ => null) most 0 null = none := by
  have hcounted : IsCounted endless := by
    rintro v ⟨⟩
  have hresponses : ∀ _ : ℕ, IsQueryResponse (map endless) := fun _ =>
    ⟨endless, rfl, hcounted, _, rfl⟩
  refine ⟨_, _, rfl, rfl, rfl, ?_, rfl, ?_⟩
  · rw [CountWalk.asksAgain_iff rfl hcounted]
    exact fun hgoes => absurd hgoes.1 (by decide)
  · intro most
    by_contra hwalk
    obtain ⟨pages, hpages⟩ := Option.ne_none_iff_exists'.1 hwalk
    obtain ⟨k, -, -, hnone⟩ :=
      RecordStore.exists_of_walk rfl hresponses (fun _ => null) (.inl rfl) hpages
    exact hnone ⟨[], rfl⟩

end KeysetQuery

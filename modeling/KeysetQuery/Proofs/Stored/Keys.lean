import KeysetQuery.Proofs.Query.Conclusion
import KeysetQuery.Proofs.Stored.Canonical

/-!
# Keys in stored form

The key at which a page ended is a record of texts, byte strings and numbers.

* `Stored.IsKey` — a key in stored form, whose numbers stand as they are written;
* `Stored.IsReadAs` — the cursor that such a key is read as, and from which it is written again;
* `Stored.exists_cursor` — every key has one;
* `Page.cursor_of_ofResponse`, `QueryPlan.cursor_of_conclude` — it becomes the cursor of the page.
-/

namespace KeysetQuery

open Value Entries Schema Number

namespace Stored

/-! ### Keys -/

/-- A text that is written for the number that it is read as. -/
def IsNumberText (s : String) : Prop :=
  ∃ d, decodeNumber (str s) = .ok (decimal d) ∧ numberText d = .ok s

/-- The stored form of a part of a key. -/
inductive IsKeyForm : Value → Prop
  | text (s : String) : IsKeyForm (form .text (str s))
  | bytes (bs : List UInt8) : IsKeyForm (form .bytes (.bytes bs))
  | number {s : String} (h : IsNumberText s) : IsKeyForm (form .number (str s))

/-- A key in stored form. -/
structure IsKey (key : Record) : Prop where
  names : (key.map Prod.fst).Nodup
  forms : ∀ e ∈ key, IsKeyForm e.2

/-- A cursor that a key in stored form is read as, and whose stored form is that key. -/
structure IsReadAs (key cursor : Record) : Prop where
  names : cursor.map Prod.fst = key.map Prod.fst
  decode : decodeRecord key.toValue = .ok (Record.entries cursor)
  encode : encodeRecord cursor.toValue = .ok (Record.entries key)

/-- A part of a key is read and written again as it is. -/
theorem IsKeyForm.exists_decode {v : Value} (h : IsKeyForm v) :
    ∃ w, decode v = .ok w ∧ encode w = .ok v := by
  cases h with
  | text s => exact ⟨str s, rfl, rfl⟩
  | bytes bs => exact ⟨binary bs, rfl, rfl⟩
  | number h =>
    obtain ⟨d, hread, hwritten⟩ := h
    exact ⟨decimal d, hread, map_eq_ok.2 ⟨_, hwritten, rfl⟩⟩

/-- A record of such parts is read as a cursor. -/
theorem exists_cursor_of_forms {key : Record} (h : ∀ e ∈ key, IsKeyForm e.2) :
    ∃ cursor, IsReadAs key cursor := by
  induction key with
  | nil => exact ⟨[], rfl, rfl, rfl⟩
  | cons e key ih =>
    obtain ⟨name, v⟩ := e
    obtain ⟨hhead, htail⟩ := List.forall_mem_cons.1 h
    obtain ⟨w, hdecode, hencode⟩ := IsKeyForm.exists_decode hhead
    obtain ⟨cursor, hnames, hread, hwritten⟩ := ih htail
    refine ⟨(name, w) :: cursor, congrArg (List.cons name) hnames, ?_, ?_⟩
    · show decodeEntries ((str name, v) :: Record.entries key) = _
      exact bind_eq_ok.2 ⟨(str name, w), map_eq_ok.2 ⟨w, hdecode, rfl⟩,
        bind_eq_ok.2 ⟨_, hread, rfl⟩⟩
    · show encodeEntries ((str name, w) :: Record.entries cursor) = _
      exact bind_eq_ok.2 ⟨(str name, v), map_eq_ok.2 ⟨v, hencode, rfl⟩,
        bind_eq_ok.2 ⟨_, hwritten, rfl⟩⟩

/-- Every key is read as a cursor from which it is written again. -/
theorem exists_cursor {key : Record} (h : IsKey key) :
    ∃ cursor, IsReadAs key cursor ∧ (cursor.map Prod.fst).Nodup := by
  obtain ⟨cursor, hread⟩ := exists_cursor_of_forms h.forms
  exact ⟨cursor, hread, hread.names ▸ h.names⟩

end Stored

/-! ### Pages -/

/-- The key in a response becomes the cursor of the page. -/
theorem Page.cursor_of_ofResponse {response : Entries} {page : Page} {cursor : Record}
    (hnames : (cursor.map Prod.fst).Nodup)
    (hlast : response.field? "LastEvaluatedKey" = some cursor.toValue)
    (h : Page.ofResponse (map response) = .ok page) : page.cursor = some cursor := by
  have hread := readRecord?_of_ofResponse h
  have hcursor : readRecord? [.name "continuation_cursor"] (cursorIn response)
      = .ok (some cursor) := by
    rw [cursorIn, hlast]
    show (readRecord _ cursor.toValue).map some = _
    rw [readRecord_toValue hnames]
    rfl
  exact Except.ok.inj (hread.symm.trans hcursor)

namespace QueryPlan

variable {plan : QueryPlan} {policy : Policy} {response total : Value} {page : Page}

/-- A query shows the cursor of the page that was read, unless the last page was asked for. -/
theorem cursor_of_conclude (h : (plan.conclude policy response total).result = .ok (some page)) :
    ∃ read, Page.ofResponse response = .ok read ∧
      page.cursor = if plan.descriptor.wantsLastPage then none else read.cursor := by
  unfold conclude at h
  split at h
  · cases h
  rw [Noted.result_bind, Noted.result_liftM] at h
  obtain ⟨read, hread, h⟩ := bind_eq_ok.1 h
  refine ⟨read, hread, ?_⟩
  have horiented : (plan.oriented read total).cursor = read.cursor := by
    unfold oriented
    dsimp only
    split <;> rfl
  split at h
  · rename_i hlast
    rw [if_pos hlast]
    rw [Noted.result_bind] at h
    obtain ⟨trimmed, htrimmed, h⟩ := bind_eq_ok.1 h
    obtain rfl := Option.some.inj (Except.ok.inj h)
    unfold Page.trimLast at htrimmed
    split at htrimmed
    · rw [← Except.ok.inj htrimmed]
    · rw [Noted.result_bind] at htrimmed
      obtain ⟨n, -, htrimmed⟩ := bind_eq_ok.1 htrimmed
      rw [Noted.result_bind] at htrimmed
      obtain ⟨_, -, htrimmed⟩ := bind_eq_ok.1 htrimmed
      rw [← Except.ok.inj htrimmed]
  · rename_i hlast
    rw [if_neg hlast, ← horiented, Option.some.inj (Except.ok.inj h)]

end QueryPlan

end KeysetQuery

import KeysetQuery.Query.Descriptor

/-!
# Places of issues

The issues with a field lie at or behind the place of the field, and apart from that they do not
depend on it.

* `Issue.under`, `Check.under` — issues moved behind a place;
* `IsPlaced` — a reader whose issues move with the place that it is given;
* `isPlaced_readInteger`, …, `isPlaced_readStartKey` — the readers of all fields are such.
-/

namespace KeysetQuery

/-- An issue moved behind a place. -/
def Issue.under (front : List Place) (i : Issue) : Issue := ⟨front ++ i.place, i.kind⟩

namespace Schema

/-- A value, or its issues moved behind a place. -/
def Check.under {α : Type} (front : List Place) (c : Check α) : Check α :=
  c.mapError fun issues => issues.map (Issue.under front)

/-! ### Gathering -/

section Gathering

variable {α β : Type} (front : List Place)

theorem Check.under_map (c : Check α) (g : α → β) :
    Check.under front (c.map g) = (Check.under front c).map g := by
  cases c <;> rfl

theorem Check.under_both (a : Check α) (b : Check β) :
    Check.under front (Check.both a b)
      = Check.both (Check.under front a) (Check.under front b) := by
  cases a with
  | ok a => cases b <;> rfl
  | error is =>
    cases b with
    | ok b => rfl
    | error js => exact congrArg Except.error List.map_append

theorem Check.under_all (cs : List (Check α)) :
    Check.under front (Check.all cs) = Check.all (cs.map (Check.under front)) := by
  induction cs with
  | nil => rfl
  | cons c cs ih =>
    rw [List.map_cons, Check.all, Check.all, ← ih, ← under_both]
    cases Check.both c (Check.all cs) <;> rfl

end Gathering

/-! ### Readers -/

/-- A reader whose issues move with the place that it is given. -/
def IsPlaced {α β : Type} (read : List Place → β → Check α) : Prop :=
  ∀ front place v, read (front ++ place) v = Check.under front (read place v)

section Readers

variable {α β γ : Type}

theorem IsPlaced.map {read : List Place → β → Check α} (h : IsPlaced read) (g : α → γ) :
    IsPlaced fun place v => (read place v).map g := by
  intro front place v
  show (read (front ++ place) v).map g = _
  rw [h, Check.under_map]

/-- A reader of the members of a list. -/
theorem IsPlaced.all {read : List Place → β → Check α} (h : IsPlaced read) :
    IsPlaced fun place (vs : List β) => Check.all (vs.map (read place)) := by
  intro front place vs
  show _ = Check.under front (Check.all (vs.map (read place)))
  rw [Check.under_all, List.map_map]
  exact congrArg Check.all (List.map_congr_left fun v _ => h front place v)

theorem isPlaced_integerOfText : IsPlaced integerOfText := by
  intro front place s
  unfold integerOfText
  split <;> rfl

theorem isPlaced_readInteger : IsPlaced readInteger := by
  intro front place v
  cases v with
  | float x =>
    simp only [readInteger]
    split
    · split
      · rfl
      · split <;> rfl
    · rfl
  | decimal d =>
    simp only [readInteger]
    split
    · split <;> rfl
    · rfl
  | str s => exact isPlaced_integerOfText front place s
  | bytes bs =>
    simp only [readInteger]
    split
    · exact isPlaced_integerOfText front place _
    · rfl
  | _ => rfl

theorem isPlaced_truthOfInteger : IsPlaced truthOfInteger := by
  intro front place i
  unfold truthOfInteger
  split
  · rfl
  · split
    · rfl
    · split <;> rfl

theorem isPlaced_truthOfFloat : IsPlaced truthOfFloat := by
  intro front place x
  unfold truthOfFloat
  split
  · split
    · exact isPlaced_truthOfInteger front place _
    · rfl
  · rfl

theorem isPlaced_truthOfText : IsPlaced truthOfText := by
  intro front place s
  simp only [truthOfText]
  split
  · rfl
  · split <;> rfl

theorem isPlaced_readTruth : IsPlaced readTruth := by
  intro front place v
  cases v with
  | int i => exact isPlaced_truthOfInteger front place i
  | float x => exact isPlaced_truthOfFloat front place x
  | decimal d => exact isPlaced_truthOfFloat front place _
  | str s => exact isPlaced_truthOfText front place s
  | bytes bs =>
    simp only [readTruth]
    split
    · exact isPlaced_truthOfText front place _
    · rfl
  | _ => rfl

theorem isPlaced_readText : IsPlaced readText := by
  intro front place v
  cases v with
  | bytes bs =>
    simp only [readText]
    split <;> rfl
  | _ => rfl

theorem isPlaced_readText? : IsPlaced readText? := by
  intro front place v
  cases v with
  | null => rfl
  | _ =>
    simp only [readText?]
    exact isPlaced_readText.map some front place _

theorem isPlaced_readKey : IsPlaced readKey := by
  intro front place k
  unfold readKey
  rw [List.append_assoc, isPlaced_readText]

theorem isPlaced_readRecord : IsPlaced readRecord := by
  intro front place v
  cases v with
  | map es =>
    have hentry : IsPlaced fun place (e : Value × Value) =>
        (readKey place e.1).map fun s => (s, e.2) := by
      intro front place e
      show (readKey (front ++ place) e.1).map _ = _
      rw [isPlaced_readKey, Check.under_map]
    exact hentry.all.map byName front place es
  | _ => rfl

end Readers

end Schema

/-! ### Fields of a descriptor -/

namespace Descriptor

open Schema

theorem isPlaced_readFilter : IsPlaced readFilter := by
  intro front place e
  unfold readFilter
  rw [List.append_assoc, isPlaced_readKey, isPlaced_readRecord, Check.under_both]

theorem isPlaced_readFilters : IsPlaced readFilters := by
  intro front place v
  cases v with
  | map es => exact isPlaced_readFilter.all.map _ front place es
  | _ => rfl

theorem isPlaced_readLimit : IsPlaced readLimit := by
  intro front place v
  unfold readLimit
  rw [isPlaced_readInteger]
  cases readInteger place v with
  | error issues => rfl
  | ok i =>
    show (if _ then _ else _ : Check Int) = Check.under front (if _ then _ else _ : Check Int)
    split <;> rfl

theorem isPlaced_readStartKey : IsPlaced readStartKey := by
  intro front place v
  unfold readStartKey
  split
  · rfl
  · split
    · rfl
    · rw [List.append_assoc, isPlaced_readRecord]
      cases readRecord (place ++ [.name "dict[str,any]"]) _ with
      | ok cursor => rfl
      | error issues =>
        rw [List.append_assoc]
        rfl

end Descriptor

end KeysetQuery

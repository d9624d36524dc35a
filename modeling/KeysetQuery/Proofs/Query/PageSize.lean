import KeysetQuery.Proofs.Counting.Walk
import KeysetQuery.Proofs.Number.NearestFloat
import KeysetQuery.Proofs.Paging.Query
import KeysetQuery.Proofs.Query.Restart

/-!
# The size of a page

The size of a page comes from the descriptor of a query, which is checked, or from the environment,
which is not.  The last page is cut by a division by it.

* `Descriptor.limit_of_check`, `Settings.integer_of_load` — where the size comes from;
* `DividesByZero` — a computation ends in a division by zero;
* `not_dividesByZero_remainder` — no total does if the size is another integer, whatever kind of
  number it is;
* `QueryPlan.exists_dividesByZero_conclude_iff` — the queries that can end so;
* `pageSize_pos_iff` — when a query sends a positive size and never divides by zero.
-/

namespace KeysetQuery

open Value Entries Schema

/-! ### Sizes -/

namespace Descriptor

/-- A size that is given is positive. -/
theorem readLimit_pos {place : List Place} {v : Value} {i : ℤ} (h : readLimit place v = .ok i) :
    0 < i := by
  obtain ⟨j, -, h⟩ := bind_eq_ok.1 h
  split at h
  · rename_i hpos
    obtain rfl := Except.ok.inj h
    exact hpos
  · cases h

variable {defaultLimit : ℤ} {es : Entries} {d : Descriptor}

/-- The size of a page is read by itself: it is the one that is given, which is positive, or else
the default. -/
theorem limit_of_check (h : check defaultLimit es = .ok d) :
    (field? es "limit" = none ∧ d.limit = defaultLimit) ∨
      (field? es "limit" ≠ none ∧ 0 < d.limit) := by
  obtain ⟨fields, hfields, hd⟩ := bind_eq_ok.1 h
  obtain ⟨-, hrest⟩ := Check.both_eq_ok.1 hfields
  obtain ⟨hlimit, -⟩ := Check.both_eq_ok.1 hrest
  obtain rfl := Except.ok.inj hd
  show (_ ∧ fields.2.1 = defaultLimit) ∨ (_ ∧ 0 < fields.2.1)
  generalize fields.2.1 = limit at hlimit
  unfold FieldName.readWith FieldName.find? FieldName.limit at hlimit
  cases hgiven : field? es "limit" with
  | none =>
    rw [hgiven] at hlimit
    exact .inl ⟨rfl, (Except.ok.inj hlimit).symm⟩
  | some v =>
    rw [hgiven] at hlimit
    exact .inr ⟨by simp, readLimit_pos hlimit⟩

theorem limit_eq_zero_iff (h : check defaultLimit es = .ok d) :
    d.limit = 0 ↔ field? es "limit" = none ∧ defaultLimit = 0 := by
  rcases limit_of_check h with ⟨hnone, hsize⟩ | ⟨hgiven, hpos⟩
  · rw [hsize]
    exact ⟨fun hzero => ⟨hnone, hzero⟩, fun hzero => hzero.2⟩
  · exact ⟨fun hzero => by omega, fun hnone => absurd hnone.1 hgiven⟩

theorem one_le_limit_iff (h : check defaultLimit es = .ok d) :
    1 ≤ d.limit ↔ field? es "limit" ≠ none ∨ 1 ≤ defaultLimit := by
  rcases limit_of_check h with ⟨hnone, hsize⟩ | ⟨hgiven, hpos⟩
  · rw [hsize, hnone]
    exact ⟨.inr, fun hpos => hpos.resolve_left fun hgiven => hgiven rfl⟩
  · exact ⟨fun _ => .inl hgiven, fun _ => by omega⟩

end Descriptor

/-- The default of the settings is the integer that the environment has for it, whatever it is. -/
theorem Settings.integer_of_load {env : String → Option String} {s : Settings}
    (h : Settings.load env = .ok s) :
    Settings.integer ((env "DYNAMO_QUERY_DEFAULT_LIMIT").getD "10") = .ok s.defaultLimit := by
  obtain ⟨limit, hlimit, hrest⟩ := bind_eq_ok.1 h
  obtain ⟨bound, -, hrest⟩ := bind_eq_ok.1 hrest
  obtain ⟨severity, -, hrest⟩ := bind_eq_ok.1 hrest
  rw [hlimit, ← Except.ok.inj hrest]

/-! ### Divisions by zero -/

/-- A computation ends in a division by zero. -/
def DividesByZero {α : Type} (r : Except Fault α) : Prop :=
  ∃ whole, r = .error (.arithmetic (.zeroDivisor whole))

section Steps

variable {α β : Type}

theorem not_dividesByZero_ok (a : α) : ¬ DividesByZero (.ok a : Except Fault α) := by
  rintro ⟨_, ⟨⟩⟩

theorem not_dividesByZero_misused (m : Misuse) : ¬ DividesByZero (misused m : Except Fault α) := by
  rintro ⟨_, ⟨⟩⟩

/-- A computation of two steps divides by zero in one of them. -/
theorem dividesByZero_bind {x : Except Fault α} {f : α → Except Fault β} :
    DividesByZero (x >>= f) ↔ DividesByZero x ∨ ∃ a, x = .ok a ∧ DividesByZero (f a) := by
  cases x <;> simp [DividesByZero, bind, Except.bind]

theorem dividesByZero_map {x : Except Fault α} {g : α → β} :
    DividesByZero (x.map g) ↔ DividesByZero x := by
  cases x <;> simp [DividesByZero, Except.map]

end Steps

/-! ### Where none occur -/

theorem not_dividesByZero_part? (v : Value) (name : String) :
    ¬ DividesByZero (v.part? name) := by
  cases v <;> rintro ⟨_, ⟨⟩⟩

theorem not_dividesByZero_members (v : Value) : ¬ DividesByZero v.members := by
  unfold members
  split
  · exact not_dividesByZero_ok _
  · exact not_dividesByZero_misused _

/-- A page is read without any division. -/
theorem not_dividesByZero_ofResponse (response : Value) :
    ¬ DividesByZero (Page.ofResponse response) := by
  have hpart := not_dividesByZero_part? response
  intro h
  rcases dividesByZero_bind.1 h with h | ⟨items, -, h⟩
  · exact hpart _ h
  rcases dividesByZero_bind.1 h with h | ⟨vs, -, h⟩
  · unfold Page.itemsOf at h
    split at h
    · exact not_dividesByZero_members _ h
    · exact not_dividesByZero_ok _ h
  rcases dividesByZero_bind.1 h with h | ⟨cursor, -, h⟩
  · exact hpart _ h
  rcases dividesByZero_bind.1 h with h | ⟨count, -, h⟩
  · exact hpart _ h
  rcases dividesByZero_bind.1 h with h | ⟨scanned, -, ⟨whole, h⟩⟩
  · exact hpart _ h
  -- what is wrong with the parts of a page are issues with its form
  generalize Page.check vs _ _ _ _ = page at h
  cases page <;> cases h

/-! ### The cut -/

namespace Quantity

theorem not_dividesByZero_floatOfInt (i : ℤ) : ¬ DividesByZero (floatOfInt i) := by
  unfold floatOfInt
  dsimp only
  split <;> rintro ⟨_, ⟨⟩⟩

theorem not_dividesByZero_floatMultiple {x y : Float} (hy : Number.isZeroFloat y = false) :
    ¬ DividesByZero (floatMultiple x y) := by
  rw [floatMultiple, hy, if_neg Bool.false_ne_true]
  split <;> rintro ⟨_, ⟨⟩⟩

/-- A quantity is divided by an integer other than zero. -/
theorem not_dividesByZero_isMultipleOf (p : Quantity) {n : ℤ} (hn : n ≠ 0) :
    ¬ DividesByZero (p.isMultipleOf (.int n)) := by
  cases p with
  | int i =>
    rw [isMultipleOf, if_neg hn]
    exact not_dividesByZero_ok _
  | float x =>
    intro h
    rcases dividesByZero_bind.1 h with hfloat | ⟨y, hy, hmultiple⟩
    · exact not_dividesByZero_floatOfInt n hfloat
    · have hzero : Number.isZeroFloat y = false := by
        unfold floatOfInt at hy
        dsimp only at hy
        split at hy
        · cases hy
        · rw [← Except.ok.inj hy]
          exact Number.isZeroFloat_nearestFloat_ofInt hn
      exact not_dividesByZero_floatMultiple hzero hmultiple
  | decimal d =>
    rw [isMultipleOf, ofTrapped]
    rintro ⟨_, h⟩
    cases hmultiple : d.isMultipleOf (.ofInt n) <;> rw [hmultiple] at h <;> cases h

end Quantity

/-- No total is divided by zero if the size is another integer. -/
theorem not_dividesByZero_remainder (total : Value) {n : ℤ} (hn : n ≠ 0) :
    ¬ DividesByZero (total.remainder (int n)) := by
  rw [remainder, show (int n).quantity? = some (.int n) from rfl]
  cases htotal : total.quantity? with
  | none => exact not_dividesByZero_misused _
  | some p =>
    have hmultiple : ¬ DividesByZero (do
        if ← p.isMultipleOf (.int n) then pure 0 else misused (.notIndex total.kind) :
          Except Fault ℕ) := by
      intro h
      rcases dividesByZero_bind.1 h with h | ⟨b, -, h⟩
      · exact Quantity.not_dividesByZero_isMultipleOf p hn h
      · cases b
        · exact not_dividesByZero_misused _ h
        · exact not_dividesByZero_ok _ h
    cases p with
    | int t =>
      dsimp only
      rw [if_neg hn]
      exact not_dividesByZero_ok _
    | _ => exact hmultiple

namespace Page

/-- The surplus of a page is what a division leaves if the page is full; else there is none. -/
theorem surplus_eq (length : ℕ) (limit : ℤ) (total : Value) :
    surplus length (int limit) total
      = if (length : ℤ) = limit then total.remainder (int limit) else .ok 0 := by
  by_cases h : (length : ℤ) = limit <;> simp [surplus, h, bind, Except.bind, pure, Except.pure]

/-- A page is cut by a division by zero only if its size is zero. -/
theorem eq_zero_of_dividesByZero_trimLast {page : Page} {shownFrom : ℕ} {limit : ℤ}
    (h : DividesByZero (page.trimLast shownFrom (int limit)).result) : limit = 0 := by
  unfold trimLast at h
  split at h
  · exact absurd h (not_dividesByZero_ok _)
  rename_i total _
  simp only [Noted.result_bind, Noted.result_liftM] at h
  rcases dividesByZero_bind.1 h with h | ⟨n, -, h⟩
  · rw [surplus_eq] at h
    by_contra hne
    split at h
    · exact not_dividesByZero_remainder total hne h
    · exact not_dividesByZero_ok _ h
  rw [Noted.result_report] at h
  exact absurd h (not_dividesByZero_ok _)

/-- A page without items is full if its size is zero, and then every total is divided by zero. -/
theorem dividesByZero_trimLast_of_empty {page : Page} (hitems : page.items = []) {total : ℤ}
    (htotal : page.totalCount = some (int total)) (shownFrom : ℕ) :
    DividesByZero (page.trimLast shownFrom (int 0)).result := by
  rw [trimLast, htotal]
  simp only [Noted.result_bind, Noted.result_liftM]
  refine dividesByZero_bind.2 (.inl ⟨true, ?_⟩)
  rw [hitems, surplus_int]
  rfl

end Page

/-! ### Queries -/

namespace QueryPlan

variable {plan : QueryPlan} {policy : Policy}

/-- A query can end in a division by zero exactly if it asks for the last page of pages of size
zero. -/
theorem exists_dividesByZero_conclude_iff (plan : QueryPlan) (policy : Policy) :
    (∃ response total, DividesByZero (plan.conclude policy response total).result) ↔
      plan.descriptor.wantsLastPage = true ∧ plan.descriptor.limit = 0 := by
  constructor
  · rintro ⟨response, total, h⟩
    unfold conclude at h
    split at h
    · exact absurd h (not_dividesByZero_ok _)
    rw [Noted.result_bind, Noted.result_liftM] at h
    rcases dividesByZero_bind.1 h with h | ⟨page, -, h⟩
    · exact absurd h (not_dividesByZero_ofResponse response)
    split at h
    · rename_i hlast
      rw [Noted.result_bind_pure] at h
      exact ⟨hlast, Page.eq_zero_of_dividesByZero_trimLast (dividesByZero_map.1 h)⟩
    · exact absurd h (not_dividesByZero_ok _)
  · rintro ⟨hlast, hzero⟩
    have hpage : Page.ofResponse (map []) = .ok ⟨[], none, none, none, none⟩ := rfl
    have hempty : (plan.oriented ⟨[], none, none, none, none⟩ (int 0)).items = [] ∧
        (plan.oriented ⟨[], none, none, none, none⟩ (int 0)).totalCount = some (int 0) := by
      rw [oriented]
      cases plan.isReversed <;> exact ⟨rfl, rfl⟩
    refine ⟨map [], int 0, ?_⟩
    rw [result_conclude ⟨[], rfl, by rintro v ⟨⟩, _, rfl⟩ hpage, if_pos hlast, dividesByZero_map,
      hzero]
    exact Page.dividesByZero_trimLast_of_empty hempty.1 hempty.2 policy.shownFrom

end QueryPlan

/-- A descriptor that is given as a map is checked with the default of the store. -/
theorem RecordStore.check_of_descriptor {store : RecordStore} {es : Entries} {byItself : Bool}
    {d : Descriptor} (h : store.descriptor (map es) byItself = .ok d) :
    Descriptor.check store.defaultLimit es = .ok d := by
  have hcheck : ∀ f : List Issue → Fault,
      (Descriptor.check store.defaultLimit es).mapError f = .ok d →
        Descriptor.check store.defaultLimit es = .ok d := by
    intro f h
    cases hread : Descriptor.check store.defaultLimit es with
    | error issues =>
      rw [hread] at h
      cases h
    | ok e =>
      rw [hread] at h
      rw [Except.ok.inj h]
  cases byItself with
  | true => exact hcheck _ h
  | false =>
    cases es with
    | nil => exact hcheck (fun issues => .invalid (.descriptor issues)) h
    | cons e es => exact hcheck _ h

/-- A query sends the page size of its descriptor with the request for the page, and none with that
for the count.  It can end in a division by zero exactly if it asks for the last page, names no page
size, and the environment sets a default of zero.  So the page size is positive and nothing is
divided by zero, whatever the store answers and whatever was counted, exactly if the descriptor names
a page size or the default in the environment is positive. -/
theorem pageSize_pos_iff {env : String → Option String} {s : Settings}
    (hload : Settings.load env = .ok s) {n : Normalizer} {rejects pages : Option Value}
    {primaryKey table : Value} {es : Entries} {byItself : Bool} {plan : QueryPlan}
    (h : ((RecordStore.make s n rejects pages).begin
      (.query primaryKey table (map es) byItself)).result = .ok (.query plan)) (policy : Policy) :
    Settings.integer ((env "DYNAMO_QUERY_DEFAULT_LIMIT").getD "10") = .ok s.defaultLimit ∧
      field? plan.params "Limit" = some (int plan.descriptor.limit) ∧
      field? (CountWalk.fromBeginning plan.params).params "Limit" = none ∧
      ((∃ response total, DividesByZero (plan.conclude policy response total).result) ↔
        plan.descriptor.wantsLastPage = true ∧ field? es "limit" = none ∧ s.defaultLimit = 0) ∧
      ((1 ≤ plan.descriptor.limit ∧
          ∀ response total, ¬ DividesByZero (plan.conclude policy response total).result) ↔
        field? es "limit" ≠ none ∨ 1 ≤ s.defaultLimit) := by
  rw [RecordStore.begin_query] at h
  obtain ⟨d, hd, h⟩ := bind_eq_ok.1 h
  obtain ⟨_, hplan, ⟨⟩⟩ := map_eq_ok.1 h
  rw [QueryPlan.result_make] at hplan
  obtain ⟨params, hparams, rfl⟩ := map_eq_ok.1 hplan
  obtain ⟨hdistinct, -, hlimit, -⟩ := members_startAt hparams
  have hcheck := RecordStore.check_of_descriptor hd
  have hdivides := QueryPlan.exists_dividesByZero_conclude_iff
    ⟨d, QueryPlan.startAt d.startKey params, d.counts⟩ policy
  refine ⟨Settings.integer_of_load hload, hlimit, (asksForCount_fromBeginning hdistinct).unlimited,
    ?_, ?_⟩
  · rw [hdivides, Descriptor.limit_eq_zero_iff hcheck]
    rfl
  · refine Iff.trans ?_ (Descriptor.one_le_limit_iff hcheck)
    refine ⟨fun hsafe => hsafe.1, fun hsize => ⟨hsize, fun response total hzero => ?_⟩⟩
    have hnone := (hdivides.1 ⟨response, total, hzero⟩).2
    dsimp only at hnone
    omega

/-- The environment that sets the default size of a page, and nothing else. -/
def withDefaultLimit (text : String) (name : String) : Option String :=
  if name = "DYNAMO_QUERY_DEFAULT_LIMIT" then some text else none

/-- A page size that is named is used in place of a default of zero. -/
theorem pageSize_pos_named : ∃ s plan, Settings.load (withDefaultLimit "0") = .ok s ∧
    ((RecordStore.make s .standard none none).begin (.query (map [(str "pk", str "A")]) (str "t")
      (map [(str "startKey", str "last"), (str "limit", int 3)]) false)).result
        = .ok (.query plan) ∧
    field? plan.params "Limit" = some (int 3) ∧
    ∀ response total,
      ¬ DividesByZero (plan.conclude ⟨true, int 1000, 20⟩ response total).result := by
  refine ⟨_, _, rfl, rfl, rfl, ?_⟩
  obtain ⟨-, -, -, -, hiff⟩ := @pageSize_pos_iff (withDefaultLimit "0") _ rfl .standard none none
    (map [(str "pk", str "A")]) (str "t") [(str "startKey", str "last"), (str "limit", int 3)] false
    _ rfl ⟨true, int 1000, 20⟩
  exact (hiff.2 (.inl (Option.some_ne_none (int 3)))).2

/-- A default of zero is sent, and the last page of a table without records is cut by it. -/
theorem not_pageSize_pos_zero : ∃ s plan, Settings.load (withDefaultLimit "0") = .ok s ∧
    ((RecordStore.make s .standard none none).begin (.query (map [(str "pk", str "A")]) (str "t")
      (map [(str "startKey", str "last")]) false)).result = .ok (.query plan) ∧
    field? plan.params "Limit" = some (int 0) ∧
    (plan.run (RecordStore.make s .standard none none).policy
      (fun u _ => (.ok (map [(str "Items", list []), (str "Count", int 0)]), u)) 1 ()).1.result
        = .error (.arithmetic (.zeroDivisor true)) :=
  ⟨_, _, rfl, rfl, rfl, rfl⟩

end KeysetQuery

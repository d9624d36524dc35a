import KeysetQuery.Fault

/-!
# Computations that succeed

* `bind_eq_ok`, `map_eq_ok` — a computation of several steps succeeds exactly when each step does;
* `eachOk_map` — what the results of a function along a list have in common;
* `eachOk_of_forall` — a function that fails on no item of a list has a result for each of them;
* `exists_map_of_eachOk` — and its results are those of a function that cannot fail;
* `eachOk_map_congr` — functions that agree along two lists give the same results;
* `exists_perm_of_eachOk` — the order of a list is the order of the results.
-/

namespace KeysetQuery

/-! ### Steps -/

section Steps

variable {ε α β γ : Type}

/-- Two steps succeed when the first does and the second does with its result. -/
theorem bind_eq_ok {x : Except ε α} {f : α → Except ε β} {b : β} :
    (x >>= f) = .ok b ↔ ∃ a, x = .ok a ∧ f a = .ok b := by
  cases x with
  | error e =>
    constructor
    · intro h
      exact absurd h (by simp [bind, Except.bind])
    · rintro ⟨a, ha, -⟩
      exact absurd ha (by simp)
  | ok a =>
    constructor
    · intro h
      exact ⟨a, rfl, h⟩
    · rintro ⟨a', ha', hf⟩
      obtain rfl := Except.ok.inj ha'
      exact hf

theorem map_eq_ok {x : Except ε α} {f : α → β} {b : β} :
    x.map f = .ok b ↔ ∃ a, x = .ok a ∧ f a = b := by
  cases x with
  | error e => simp [Except.map]
  | ok a => simp [Except.map]

theorem bind_ok_eq_map (x : Except ε α) (f : α → β) : (x >>= fun a => .ok (f a)) = x.map f := by
  cases x <;> rfl

theorem map_bind_eq (x : Except ε α) (f : α → Except ε β) (g : β → γ) :
    (x >>= f).map g = x >>= fun a => (f a).map g := by
  cases x <;> rfl

theorem map_map_eq (x : Except ε α) (f : α → β) (g : β → γ) :
    (x.map f).map g = x.map fun a => g (f a) := by
  cases x <;> rfl

end Steps

/-! ### Lists -/

section Lists

variable {α β γ : Type} {f : α → Except Fault β} {as : List α}

theorem eachOk_cons (f : α → Except Fault β) (a : α) (as : List α) :
    eachOk f (a :: as) = f a >>= fun b => (eachOk f as).map fun bs => b :: bs := by
  rw [eachOk]
  exact congrArg _ (funext fun b => bind_ok_eq_map (eachOk f as) fun bs => b :: bs)

theorem eachOk_cons_eq_ok {a : α} {bs : List β} :
    eachOk f (a :: as) = .ok bs ↔
      ∃ b cs, f a = .ok b ∧ eachOk f as = .ok cs ∧ bs = b :: cs := by
  rw [eachOk, bind_eq_ok]
  constructor
  · rintro ⟨b, hb, hrest⟩
    obtain ⟨cs, hcs, heq⟩ := bind_eq_ok.1 hrest
    exact ⟨b, cs, hb, hcs, (Except.ok.inj heq).symm⟩
  · rintro ⟨b, cs, hb, hcs, rfl⟩
    exact ⟨b, hb, bind_eq_ok.2 ⟨cs, hcs, rfl⟩⟩

/-- What a function makes of each item of a list, if it fails on none. -/
theorem eachOk_map {bs : List β} (h : eachOk f as = .ok bs) {P : β → Prop} {g : β → γ}
    {k : α → γ} (hf : ∀ a ∈ as, ∀ b, f a = .ok b → P b ∧ g b = k a) :
    (∀ b ∈ bs, P b) ∧ bs.map g = as.map k := by
  induction as generalizing bs with
  | nil =>
    cases h
    simp
  | cons a as ih =>
    obtain ⟨b, cs, hb, hcs, rfl⟩ := eachOk_cons_eq_ok.1 h
    obtain ⟨hPb, hgb⟩ := hf a List.mem_cons_self b hb
    obtain ⟨hPcs, hgcs⟩ := ih hcs fun c hc => hf c (List.mem_cons_of_mem a hc)
    refine ⟨?_, by rw [List.map_cons, List.map_cons, hgb, hgcs]⟩
    intro c hc
    rcases List.mem_cons.1 hc with rfl | hc
    · exact hPb
    · exact hPcs c hc

/-- What a function makes of an item of a list is among the results. -/
theorem exists_ok_of_eachOk {bs : List β} (h : eachOk f as = .ok bs) {a : α} (ha : a ∈ as) :
    ∃ b ∈ bs, f a = .ok b := by
  induction as generalizing bs with
  | nil => exact absurd ha List.not_mem_nil
  | cons a' as ih =>
    obtain ⟨b, cs, hb, hcs, rfl⟩ := eachOk_cons_eq_ok.1 h
    rcases List.mem_cons.1 ha with rfl | ha
    · exact ⟨b, List.mem_cons_self, hb⟩
    · obtain ⟨c, hc, hfc⟩ := ih hcs ha
      exact ⟨c, List.mem_cons_of_mem b hc, hfc⟩

/-- A function that fails on no item of a list. -/
theorem eachOk_of_forall {cs : List γ} {g : γ → α} {k : γ → β}
    (h : ∀ c ∈ cs, f (g c) = .ok (k c)) : eachOk f (cs.map g) = .ok (cs.map k) := by
  induction cs with
  | nil => rfl
  | cons c cs ih =>
    rw [List.map_cons, eachOk_cons_eq_ok]
    exact ⟨k c, cs.map k, h c List.mem_cons_self, ih fun b hb => h b (List.mem_cons_of_mem c hb),
      rfl⟩

/-- Results of a function that fails on no item of a list are those of a function that cannot fail. -/
theorem exists_map_of_eachOk [Inhabited β] {bs : List β} (h : eachOk f as = .ok bs) :
    ∃ k, bs = as.map k ∧ ∀ a ∈ as, f a = .ok (k a) := by
  have hok : ∀ a ∈ as, f a = .ok ((f a).toOption.getD default) := by
    intro a ha
    obtain ⟨b, -, hb⟩ := exists_ok_of_eachOk h ha
    rw [hb]
    rfl
  have hmap := eachOk_of_forall (g := id) hok
  rw [List.map_id, h] at hmap
  exact ⟨_, Except.ok.inj hmap, hok⟩

/-- Functions that agree along two lists give the same results. -/
theorem eachOk_map_congr {δ : Type} {cs : List γ} {g : γ → α} {f' : δ → Except Fault β}
    {g' : γ → δ} (h : ∀ c ∈ cs, f (g c) = f' (g' c)) :
    eachOk f (cs.map g) = eachOk f' (cs.map g') := by
  induction cs with
  | nil => rfl
  | cons c cs ih =>
    rw [List.map_cons, List.map_cons, eachOk, eachOk, h c List.mem_cons_self,
      ih fun b hb => h b (List.mem_cons_of_mem c hb)]

/-- A second step that leaves every result as it is. -/
theorem eachOk_bind {g : β → Except Fault β} {bs : List β} (h : eachOk f as = .ok bs)
    (hg : ∀ b ∈ bs, g b = .ok b) : eachOk (fun a => f a >>= g) as = .ok bs := by
  induction as generalizing bs with
  | nil => exact h
  | cons a as ih =>
    obtain ⟨b, cs, hb, hcs, rfl⟩ := eachOk_cons_eq_ok.1 h
    refine eachOk_cons_eq_ok.2 ⟨b, cs, ?_, ?_, rfl⟩
    · exact bind_eq_ok.2 ⟨b, hb, hg b List.mem_cons_self⟩
    · exact ih hcs fun c hc => hg c (List.mem_cons_of_mem b hc)

/-- In another order, a function along a list gives the same results in another order. -/
theorem exists_perm_of_eachOk {as' : List α} (hperm : as.Perm as') {bs : List β}
    (h : eachOk f as = .ok bs) : ∃ bs', eachOk f as' = .ok bs' ∧ bs.Perm bs' := by
  induction hperm generalizing bs with
  | nil => exact ⟨bs, h, List.Perm.refl bs⟩
  | cons a _ ih =>
    obtain ⟨b, cs, hb, hcs, rfl⟩ := eachOk_cons_eq_ok.1 h
    obtain ⟨cs', hcs', hp⟩ := ih hcs
    exact ⟨b :: cs', eachOk_cons_eq_ok.2 ⟨b, cs', hb, hcs', rfl⟩, hp.cons b⟩
  | swap a a' as =>
    obtain ⟨b, cs, hb, hcs, rfl⟩ := eachOk_cons_eq_ok.1 h
    obtain ⟨b', ds, hb', hds, rfl⟩ := eachOk_cons_eq_ok.1 hcs
    refine ⟨b' :: b :: ds, ?_, List.Perm.swap b' b ds⟩
    exact eachOk_cons_eq_ok.2 ⟨b', b :: ds, hb',
      eachOk_cons_eq_ok.2 ⟨b, ds, hb, hds, rfl⟩, rfl⟩
  | trans _ _ ih ih' =>
    obtain ⟨cs, hcs, hp⟩ := ih h
    obtain ⟨ds, hds, hp'⟩ := ih' hcs
    exact ⟨ds, hds, hp.trans hp'⟩

end Lists

end KeysetQuery

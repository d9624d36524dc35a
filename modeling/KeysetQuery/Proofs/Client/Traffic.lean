import KeysetQuery.Client.Traffic
import Mathlib.Data.List.Basic

/-!
# What a turn can do

* `SharedClient.stage_create`, `SharedClient.stage_setStage` and their like — the openings after a
  step in the life of a client;
* `Traffic.Steps` — all that one turn can do, as `steps_of_step` and `Steps.step_eq` say;
* `Traffic.Along` — turns that are taken only where they are allowed;
* `Traffic.invariant_after` — what every turn preserves holds after all of them;
* `Traffic.Sound`, `Sound.steps` — what holds in all traffic;
* `Turn.Succeeds`, `Traffic.Flawless` — traffic in which nothing fails and nothing is given up.
-/

namespace KeysetQuery

/-! ### Openings -/

namespace SharedClient

variable (c : SharedClient) (k j : Nat)

theorem stage_of_le {c : SharedClient} {k : Nat} (h : c.next ≤ k) : c.stage k = .done none := by
  rw [stage, List.getElem?_eq_none h]

/-- An opening that is not over is one of those that were begun. -/
theorem lt_next {c : SharedClient} {k : Nat} (h : c.stage k ≠ .done none) : k < c.next := by
  by_contra hle
  exact h (stage_of_le (Nat.le_of_not_lt hle))

theorem next_create : c.create.next = c.next + 1 := by
  rw [next, create, List.length_append, List.length_singleton, next]

theorem next_setStage (s : OpeningStage) : (c.setStage k s).next = c.next :=
  List.length_modify _ _ _

theorem next_giveUp : (c.giveUp k).next = c.next :=
  List.length_modify _ _ _

theorem stage_create : c.create.stage j = if j = c.next then .created else c.stage j := by
  by_cases hj : j = c.next
  · rw [if_pos hj, stage, create, hj, next, List.getElem?_concat_length]
  · rw [if_neg hj, stage, create, stage]
    by_cases hlt : j < c.openings.length
    · rw [List.getElem?_append_left hlt]
    · have hgt : (c.openings ++ [Opening.mk .created false]).length ≤ j := by
        rw [List.length_append, List.length_singleton]
        have : j ≠ c.openings.length := hj
        omega
      rw [List.getElem?_eq_none hgt, List.getElem?_eq_none (Nat.le_of_not_lt hlt)]

theorem isGivenUp_create : c.create.isGivenUp j = c.isGivenUp j := by
  rw [isGivenUp, create, isGivenUp]
  rcases Nat.lt_trichotomy j c.openings.length with hlt | rfl | hgt
  · rw [List.getElem?_append_left hlt]
  · rw [List.getElem?_concat_length, List.getElem?_eq_none (Nat.le_refl _)]
  · have hlength : (c.openings ++ [Opening.mk .created false]).length ≤ j := by
      rw [List.length_append, List.length_singleton]
      omega
    rw [List.getElem?_eq_none hlength, List.getElem?_eq_none (Nat.le_of_lt hgt)]

theorem isGivenUp_next : c.isGivenUp c.next = false := by
  rw [isGivenUp, next, List.getElem?_eq_none (Nat.le_refl _)]

theorem stage_setStage (s : OpeningStage) :
    (c.setStage k s).stage j = if k = j ∧ j < c.next then s else c.stage j := by
  rw [stage, setStage, List.getElem?_modify, stage]
  cases hj : c.openings[j]? with
  | none =>
    have hle : ¬ j < c.next := Nat.not_lt.2 (List.getElem?_eq_none_iff.1 hj)
    rw [if_neg fun h => hle h.2]
    rfl
  | some o =>
    have hlt : j < c.next := (List.getElem?_eq_some_iff.1 hj).1
    by_cases hk : k = j
    · rw [if_pos ⟨hk, hlt⟩]
      simp [hk]
    · rw [if_neg fun h => hk h.1]
      simp [hk]

/-- An opening that goes on is not one that is over. -/
theorem stage_setStage_of_isDone {c : SharedClient} {k j : Nat} (hk : (c.stage k).isDone = false)
    (hj : (c.stage j).isDone = true) (s : OpeningStage) : (c.setStage k s).stage j = c.stage j := by
  rw [stage_setStage, if_neg]
  rintro ⟨rfl, -⟩
  rw [hj] at hk
  cases hk

theorem isDone_setStage (f : Option Fault) : ((c.setStage k (.done f)).stage k).isDone = true := by
  rw [stage_setStage]
  split
  · rfl
  · rename_i hlt
    rw [stage_of_le (Nat.le_of_not_lt fun h => hlt ⟨rfl, h⟩)]
    rfl

theorem isGivenUp_setStage (s : OpeningStage) : (c.setStage k s).isGivenUp j = c.isGivenUp j := by
  rw [isGivenUp, setStage, List.getElem?_modify, isGivenUp]
  cases c.openings[j]? with
  | none => rfl
  | some o => by_cases hk : k = j <;> simp [hk]

/-- An opening that is given up goes on until it is its turn. -/
theorem stage_giveUp : (c.giveUp k).stage j = c.stage j := by
  rw [stage, giveUp, List.getElem?_modify, stage]
  cases c.openings[j]? with
  | none => rfl
  | some o =>
    by_cases hk : k = j
    · cases hdone : o.stage.isDone <;> simp [hk, hdone]
    · simp [hk]

/-- An opening that is over cannot be given up. -/
theorem giveUp_of_isDone {c : SharedClient} {k : Nat} (h : (c.stage k).isDone = true) :
    c.giveUp k = c := by
  have hopenings : (c.giveUp k).openings = c.openings := by
    refine List.ext_getElem? fun j => ?_
    rw [giveUp, List.getElem?_modify]
    cases hj : c.openings[j]? with
    | none => rfl
    | some o =>
      by_cases hk : k = j
      · subst hk
        rw [stage, hj] at h
        simp [show o.stage.isDone = true from h]
      · simp [hk]
  show { c with openings := (c.giveUp k).openings } = c
  rw [hopenings]

theorem isGivenUp_giveUp_of_ne {k j : Nat} (h : k ≠ j) :
    (c.giveUp k).isGivenUp j = c.isGivenUp j := by
  rw [isGivenUp, giveUp, List.getElem?_modify, isGivenUp]
  cases c.openings[j]? with
  | none => rfl
  | some o => simp [h]

theorem isGivenUp_giveUp_self {c : SharedClient} {k : Nat} (h : (c.stage k).isDone = false) :
    (c.giveUp k).isGivenUp k = true := by
  rw [isGivenUp, giveUp, List.getElem?_modify]
  rw [stage] at h
  cases hk : c.openings[k]? with
  | none =>
    rw [hk] at h
    cases h
  | some o =>
    rw [hk] at h
    simp [show o.stage.isDone = false from h]

end SharedClient

namespace Traffic

/-! ### All that one turn can do -/

/-- All that one turn can do. -/
inductive Steps (t : Traffic) : Turn → Traffic → Prop
  | inUse (fault : Option Fault) {k : Nat} (hclient : t.client.client = some k) :
    Steps t (.request fault) (t.note (.sent k))
  | opened (fault : Option Fault) {k : Nat} (hclient : t.client.client = none)
    (hcontext : t.client.context = some k) (hstage : t.client.stage k = .done none) :
    Steps t (.request fault) ({ t with client := t.client.install k }.note (.sent k))
  | refused (fault : Option Fault) {k : Nat} {f : Fault} (hclient : t.client.client = none)
    (hcontext : t.client.context = some k) (hstage : t.client.stage k = .done (some f)) :
    Steps t (.request fault) (t.note (.refused f))
  | waits (fault : Option Fault) {k : Nat} (hclient : t.client.client = none)
    (hcontext : t.client.context = some k) (hstage : (t.client.stage k).isDone = false) :
    Steps t (.request fault) { t with waiting := t.waiting ++ [k] }
  | barred (f : Fault) (hclient : t.client.client = none) (hcontext : t.client.context = none) :
    Steps t (.request (some f)) (t.note (.refused f))
  | creates (hclient : t.client.client = none) (hcontext : t.client.context = none) :
    Steps t (.request none)
      ({ t with client := t.client.create, waiting := t.waiting ++ [t.client.next] }.note
        (.created t.client.next))
  | enters (fault : Option Fault) {k : Nat} (hstage : t.client.stage k = .created)
    (hwanted : t.client.isGivenUp k = false) :
    Steps t (.opening k fault) ({ t with client := t.client.setStage k .entered }.note (.entered k))
  | entersNot (fault : Option Fault) {k : Nat} (hstage : t.client.stage k = .created)
    (hgivenUp : t.client.isGivenUp k = true) :
    Steps t (.opening k fault)
      { t with client := t.client.setStage k (.done (some .cancelled)) }
  | finishes (fault : Option Fault) {k : Nat} (hstage : t.client.stage k = .entered) :
    Steps t (.opening k fault) { t with client := t.client.finish k fault }
  | wakes {k : Nat} (hwaits : k ∈ t.waiting) (hstage : t.client.stage k = .done none) :
    Steps t (.wake k)
      ({ t with client := t.client.install k, waiting := t.waiting.erase k }.note (.sent k))
  | fails {k : Nat} {f : Fault} (hwaits : k ∈ t.waiting)
    (hstage : t.client.stage k = .done (some f)) :
    Steps t (.wake k) ({ t with waiting := t.waiting.erase k }.note (.refused f))
  | givesUp {k : Nat} (hwaits : k ∈ t.waiting) :
    Steps t (.giveUp k)
      { t with client := t.client.giveUp k, waiting := t.waiting.erase k }
  | closes (hcontext : t.client.context = none) :
    Steps t .close ({ t with client := t.client.close }.note .closed)
  | leaves {k : Nat} (hcontext : t.client.context = some k) :
    Steps t .close ({ t with leaving := t.leaving ++ [k] }.note (.left k))
  | left {k : Nat} (hleaving : k ∈ t.leaving) :
    Steps t (.left k)
      ({ t with client := t.client.close, leaving := t.leaving.erase k }.note .closed)

variable {t t' : Traffic}

theorem steps_request (t : Traffic) (fault : Option Fault) :
    Steps t (.request fault) (t.request fault) := by
  unfold request SharedClient.reach
  cases hclient : t.client.client with
  | some k => exact .inUse fault hclient
  | none =>
    cases hcontext : t.client.context with
    | none =>
      cases fault with
      | some f => exact .barred f hclient hcontext
      | none => exact .creates hclient hcontext
    | some k =>
      dsimp only
      cases hstage : t.client.stage k with
      | created => exact .waits fault hclient hcontext (by rw [hstage]; rfl)
      | entered => exact .waits fault hclient hcontext (by rw [hstage]; rfl)
      | done f =>
        cases f with
        | none => exact .opened fault hclient hcontext hstage
        | some f => exact .refused fault hclient hcontext hstage

theorem steps_opening {k : Nat} {fault : Option Fault} (h : t.opening k fault = some t') :
    Steps t (.opening k fault) t' := by
  unfold opening SharedClient.enter at h
  cases hstage : t.client.stage k with
  | created =>
    rw [hstage] at h
    obtain rfl := Option.some.inj h
    cases hgivenUp : t.client.isGivenUp k with
    | true => exact .entersNot fault hstage hgivenUp
    | false => exact .enters fault hstage hgivenUp
  | entered =>
    rw [hstage] at h
    obtain rfl := Option.some.inj h
    exact .finishes fault hstage
  | done f =>
    rw [hstage] at h
    cases h

theorem steps_wake {k : Nat} (h : t.wake k = some t') : Steps t (.wake k) t' := by
  unfold wake at h
  split at h
  · rename_i hwaits
    cases hstage : t.client.stage k with
    | created | entered =>
      rw [hstage] at h
      cases h
    | done f =>
      rw [hstage] at h
      cases f with
      | none =>
        obtain rfl := Option.some.inj h
        exact .wakes hwaits hstage
      | some f =>
        obtain rfl := Option.some.inj h
        exact .fails hwaits hstage
  · cases h

/-- That is all that one turn can do. -/
theorem steps_of_step {x : Turn} (h : t.step x = some t') : Steps t x t' := by
  cases x with
  | request fault =>
    obtain rfl := Option.some.inj h
    exact steps_request t fault
  | opening k fault => exact steps_opening h
  | wake k => exact steps_wake h
  | giveUp k =>
    rw [step, giveUp] at h
    split at h
    · rename_i hwaits
      obtain rfl := Option.some.inj h
      exact .givesUp hwaits
    · cases h
  | close =>
    obtain rfl := Option.some.inj h
    rw [close]
    cases hcontext : t.client.context with
    | none => exact .closes hcontext
    | some k => exact .leaves hcontext
  | left k =>
    rw [step, finishClose] at h
    split at h
    · rename_i hleaving
      obtain rfl := Option.some.inj h
      exact .left hleaving
    · cases h

/-- Each of these can be done. -/
theorem Steps.step_eq {x : Turn} (h : Steps t x t') : t.step x = some t' := by
  cases h with
  | inUse fault hclient => simp only [step, request, SharedClient.reach, hclient]
  | opened fault hclient hcontext hstage | refused fault hclient hcontext hstage =>
    simp only [step, request, SharedClient.reach, hclient, hcontext, hstage]
  | @waits fault k hclient hcontext hstage =>
    cases hk : t.client.stage k with
    | created | entered => simp only [step, request, SharedClient.reach, hclient, hcontext, hk]
    | done f =>
      rw [hk] at hstage
      cases hstage
  | barred f hclient hcontext | creates hclient hcontext =>
    simp only [step, request, SharedClient.reach, hclient, hcontext]
  | enters fault hstage hwanted | entersNot fault hstage hwanted =>
    simp only [step, opening, SharedClient.enter, hstage, hwanted]
    rfl
  | finishes fault hstage => simp only [step, opening, hstage]
  | wakes hwaits hstage | fails hwaits hstage => simp only [step, wake, if_pos hwaits, hstage]
  | givesUp hwaits => rw [step, giveUp, if_pos hwaits]
  | closes hcontext | leaves hcontext => simp only [step, close, hcontext]
  | left hleaving => rw [step, finishClose, if_pos hleaving]

/-- An opening that is over stays as it is. -/
theorem Steps.stage_of_isDone {x : Turn} (h : Steps t x t') {k : Nat}
    (hdone : (t.client.stage k).isDone = true) (hlt : k < t.client.next) :
    t'.client.stage k = t.client.stage k := by
  cases h with
  | creates =>
    show t.client.create.stage k = _
    rw [SharedClient.stage_create, if_neg (Nat.ne_of_lt hlt)]
  | enters fault hstage | entersNot fault hstage | finishes fault hstage =>
    exact SharedClient.stage_setStage_of_isDone (by rw [hstage]; rfl) hdone _
  | givesUp => exact SharedClient.stage_giveUp _ _ _
  | _ => rfl

/-- Openings are begun and never forgotten. -/
theorem Steps.next_le {x : Turn} (h : Steps t x t') : t.client.next ≤ t'.client.next := by
  cases h with
  | creates =>
    show t.client.next ≤ t.client.create.next
    rw [SharedClient.next_create]
    exact Nat.le_succ _
  | enters | entersNot | finishes => exact Nat.le_of_eq (SharedClient.next_setStage _ _ _).symm
  | givesUp => exact Nat.le_of_eq (SharedClient.next_giveUp _ _).symm
  | _ => exact Nat.le_refl _

/-- A request waits for an opening that was begun. -/
theorem Steps.waiting_lt {x : Turn} (h : Steps t x t')
    (hbegun : ∀ k ∈ t.waiting, k < t.client.next) : ∀ k ∈ t'.waiting, k < t'.client.next := by
  have hle := h.next_le
  have hold : ∀ k ∈ t.waiting, k < t'.client.next :=
    fun k hk => Nat.lt_of_lt_of_le (hbegun k hk) hle
  cases h with
  | @waits _ k _ _ hstage =>
    intro j hj
    rcases List.mem_append.1 hj with hj | hj
    · exact hold j hj
    · rw [List.mem_singleton.1 hj]
      exact SharedClient.lt_next fun hdone => by rw [hdone] at hstage; cases hstage
  | creates =>
    intro j hj
    rcases List.mem_append.1 hj with hj | hj
    · exact hold j hj
    · rw [List.mem_singleton.1 hj]
      show t.client.next < t.client.create.next
      rw [SharedClient.next_create]
      exact Nat.lt_succ_self _
  | wakes | fails | givesUp => exact fun j hj => hold j (List.mem_of_mem_erase hj)
  | _ => exact hold

/-- A turn adds to the deeds. -/
theorem Steps.exists_deeds {x : Turn} (h : Steps t x t') : ∃ more, t'.deeds = t.deeds ++ more := by
  cases h with
  | waits | entersNot | finishes | givesUp => exact ⟨[], (List.append_nil _).symm⟩
  | _ => exact ⟨_, rfl⟩

/-! ### Runs -/

/-- Turns that are taken only where they are allowed. -/
def Along (allowed : Traffic → Turn → Prop) (t : Traffic) : List Turn → Prop
  | [] => True
  | x :: xs => allowed t x ∧ ∀ t' ∈ t.step x, t'.Along allowed xs

instance decidableAlong (allowed : Traffic → Turn → Prop) [∀ t x, Decidable (allowed t x)] :
    (t : Traffic) → (turns : List Turn) → Decidable (t.Along allowed turns)
  | _, [] => isTrue trivial
  | t, x :: xs =>
    have : ∀ t' : Traffic, Decidable (t'.Along allowed xs) := fun t' => decidableAlong allowed t' xs
    inferInstanceAs (Decidable (allowed t x ∧ ∀ t' ∈ t.step x, t'.Along allowed xs))

variable {allowed : Traffic → Turn → Prop} {turns : List Turn}

/-- What every turn preserves that is allowed holds after all of them. -/
theorem invariant_after {P : Traffic → Prop}
    (hstep : ∀ {t x t'}, P t → allowed t x → Steps t x t' → P t') (ht : P t)
    (halong : t.Along allowed turns) (h : t.after turns = some t') : P t' := by
  induction turns generalizing t with
  | nil =>
    obtain rfl := Option.some.inj h
    exact ht
  | cons x xs ih =>
    obtain ⟨u, hu, h⟩ := Option.bind_eq_some_iff.1 h
    exact ih (hstep ht halong.1 (steps_of_step hu)) (halong.2 u hu) h

/-- Turns that are allowed wherever they are taken. -/
theorem along_of_forall (h : ∀ x ∈ turns, ∀ t, allowed t x) (t : Traffic) :
    t.Along allowed turns := by
  induction turns generalizing t with
  | nil => trivial
  | cons x xs ih =>
    exact ⟨h x List.mem_cons_self t, fun u _ => ih (fun y hy => h y (List.mem_cons_of_mem x hy)) u⟩

/-- What is done is never undone. -/
theorem exists_deeds_after (h : t.after turns = some t') :
    ∃ more, t'.deeds = t.deeds ++ more := by
  have hstep : ∀ {u x u'}, (∃ more, u.deeds = t.deeds ++ more) → True → Steps u x u' →
      ∃ more, u'.deeds = t.deeds ++ more := by
    rintro u x u' ⟨more, hmore⟩ - hstep
    obtain ⟨rest, hrest⟩ := hstep.exists_deeds
    exact ⟨more ++ rest, by rw [hrest, hmore, List.append_assoc]⟩
  exact invariant_after hstep ⟨[], (List.append_nil _).symm⟩
    (along_of_forall (fun _ _ _ => trivial) t) h

/-! ### What holds in all traffic -/

/-- What holds in all traffic. -/
structure Sound (t : Traffic) : Prop where
  /-- The current context is the last one that was created. -/
  context : ∀ {k}, t.client.context = some k → k + 1 = t.client.next
  created : ∀ {k}, .created k ∈ t.deeds → k < t.client.next
  left : ∀ {k}, .left k ∈ t.deeds → k < t.client.next
  /-- An opening that is not over is waited for, unless it was given up. -/
  wanted : ∀ {k}, (t.client.stage k).isDone = false → t.client.isGivenUp k = false →
    k ∈ t.waiting
  leaving : ∀ {k}, k ∈ t.leaving → .left k ∈ t.deeds

theorem sound_unused : Sound unused where
  context h := by cases h
  created h := by cases h
  left h := by cases h
  wanted h := by cases h
  leaving h := by cases h

theorem mem_note {d e : Deed} : e ∈ (t.note d).deeds ↔ e ∈ t.deeds ∨ e = d := by
  rw [note, List.mem_append, List.mem_singleton]

namespace Sound

theorem note (h : Sound t) {d : Deed} (hcreated : ∀ k, d = .created k → k < t.client.next)
    (hleft : ∀ k, d = .left k → k < t.client.next) : Sound (t.note d) where
  context := h.context
  created hk := (mem_note.1 hk).elim h.created fun heq => hcreated _ heq.symm
  left hk := (mem_note.1 hk).elim h.left fun heq => hleft _ heq.symm
  wanted := h.wanted
  leaving hk := mem_note.2 (.inl (h.leaving hk))

/-- An opening goes on as long as it is waited for. -/
theorem setStage (h : Sound t) {k : Nat} {s : OpeningStage}
    (hs : s.isDone = false → k ∈ t.waiting) :
    Sound { t with client := t.client.setStage k s } where
  context hk := (h.context hk).trans (SharedClient.next_setStage _ _ _).symm
  created hk := Nat.lt_of_lt_of_eq (h.created hk) (SharedClient.next_setStage _ _ _).symm
  left hk := Nat.lt_of_lt_of_eq (h.left hk) (SharedClient.next_setStage _ _ _).symm
  wanted {j} hj hgivenUp := by
    rw [SharedClient.stage_setStage] at hj
    rw [SharedClient.isGivenUp_setStage] at hgivenUp
    split at hj
    · rename_i heq
      exact heq.1 ▸ hs hj
    · exact h.wanted hj hgivenUp
  leaving := h.leaving

/-- Who goes on after an opening is not needed by another one. -/
theorem wake (h : Sound t) {k : Nat} (hdone : (t.client.stage k).isDone = true) :
    Sound { t with waiting := t.waiting.erase k } where
  context := h.context
  created := h.created
  left := h.left
  wanted {j} hj hgivenUp := by
    have hne : j ≠ k := by
      rintro rfl
      rw [hdone] at hj
      cases hj
    exact (List.mem_erase_of_ne hne).2 (h.wanted hj hgivenUp)
  leaving := h.leaving

theorem giveUp (h : Sound t) (k : Nat) :
    Sound { t with client := t.client.giveUp k, waiting := t.waiting.erase k } where
  context hk := (h.context hk).trans (SharedClient.next_giveUp _ _).symm
  created hk := Nat.lt_of_lt_of_eq (h.created hk) (SharedClient.next_giveUp _ _).symm
  left hk := Nat.lt_of_lt_of_eq (h.left hk) (SharedClient.next_giveUp _ _).symm
  wanted {j} hj hgivenUp := by
    rw [SharedClient.stage_giveUp] at hj
    have hne : k ≠ j := by
      rintro rfl
      rw [SharedClient.isGivenUp_giveUp_self hj] at hgivenUp
      cases hgivenUp
    rw [SharedClient.isGivenUp_giveUp_of_ne _ hne] at hgivenUp
    exact (List.mem_erase_of_ne hne.symm).2 (h.wanted hj hgivenUp)
  leaving := h.leaving

theorem create (h : Sound t) :
    Sound { t with client := t.client.create, waiting := t.waiting ++ [t.client.next] } where
  context hk := by
    obtain rfl := Option.some.inj hk
    exact (SharedClient.next_create _).symm
  created hk :=
    Nat.lt_of_lt_of_eq (Nat.lt_succ_of_lt (h.created hk)) (SharedClient.next_create _).symm
  left hk := Nat.lt_of_lt_of_eq (Nat.lt_succ_of_lt (h.left hk)) (SharedClient.next_create _).symm
  wanted {j} hj hgivenUp := by
    rw [SharedClient.stage_create] at hj
    rw [SharedClient.isGivenUp_create] at hgivenUp
    split at hj
    · rename_i heq
      exact heq ▸ List.mem_concat_self
    · exact List.mem_append_left _ (h.wanted hj hgivenUp)
  leaving := h.leaving

theorem install (h : Sound t) (k : Nat) : Sound { t with client := t.client.install k } where
  context := h.context
  created := h.created
  left := h.left
  wanted := h.wanted
  leaving := h.leaving

theorem close (h : Sound t) {leaving : List Nat} (hleaving : leaving ⊆ t.leaving) :
    Sound { t with client := t.client.close, leaving := leaving } where
  context hk := by cases hk
  created := h.created
  left := h.left
  wanted := h.wanted
  leaving hk := h.leaving (hleaving hk)

theorem leave (h : Sound t) {k : Nat} (hcontext : t.client.context = some k) :
    Sound ({ t with leaving := t.leaving ++ [k] }.note (.left k)) where
  context := h.context
  created hk := h.created ((mem_note.1 hk).resolve_right (by simp))
  left {j} hk := by
    rcases mem_note.1 hk with hk | heq
    · exact h.left hk
    · obtain rfl := Deed.left.inj heq
      exact Nat.lt_of_lt_of_eq (Nat.lt_succ_self _) (h.context hcontext)
  wanted := h.wanted
  leaving {j} hj := by
    refine mem_note.2 ?_
    rcases List.mem_append.1 hj with hj | hj
    · exact .inl (h.leaving hj)
    · rw [List.mem_singleton.1 hj]
      exact .inr rfl

/-- No turn breaks it. -/
theorem steps {x : Turn} (h : Sound t) (hstep : Steps t x t') : Sound t' := by
  cases hstep with
  | inUse => exact h.note (by simp) (by simp)
  | opened =>
    refine (h.install _).note ?_ ?_
    all_goals simp
  | refused | barred => exact h.note (by simp) (by simp)
  | waits =>
    exact ⟨h.context, h.created, h.left, fun hj hg => List.mem_append_left _ (h.wanted hj hg),
      h.leaving⟩
  | creates =>
    refine h.create.note (fun k hk => ?_) (by simp)
    obtain rfl := Deed.created.inj hk
    show t.client.next < t.client.create.next
    rw [SharedClient.next_create]
    exact Nat.lt_succ_self _
  | enters fault hstage hwanted =>
    exact (h.setStage fun _ => h.wanted (by rw [hstage]; rfl) hwanted).note (by simp) (by simp)
  | entersNot | finishes => exact h.setStage fun hdone => by cases hdone
  | wakes hwaits hstage =>
    refine ((h.wake (by rw [hstage]; rfl)).install _).note ?_ ?_
    all_goals simp
  | fails hwaits hstage => exact (h.wake (by rw [hstage]; rfl)).note (by simp) (by simp)
  | givesUp => exact h.giveUp _
  | closes =>
    refine (h.close (List.Subset.refl t.leaving)).note ?_ ?_
    all_goals simp
  | leaves hcontext => exact h.leave hcontext
  | left =>
    refine (h.close List.erase_subset).note ?_ ?_
    all_goals simp

end Sound

/-! ### Traffic without failures -/

/-- Contexts can be created, openings succeed, and no request is given up. -/
def Turn.Succeeds : Turn → Prop
  | .request fault => fault.isNone
  | .opening _ fault => fault.isNone
  | .giveUp _ => False
  | _ => True

/-- Nothing has failed. -/
structure Flawless (t : Traffic) : Prop where
  notRefused : ∀ f, .refused f ∉ t.deeds
  notFailed : ∀ k f, t.client.stage k ≠ .done (some f)
  notGivenUp : ∀ k, t.client.isGivenUp k = false

theorem flawless_unused : Flawless unused where
  notRefused f h := by cases h
  notFailed k f h := by cases h
  notGivenUp k := rfl

namespace Flawless

theorem note (h : Flawless t) {d : Deed} (hd : ∀ f, d ≠ .refused f) : Flawless (t.note d) where
  notRefused f hf := (mem_note.1 hf).elim (h.notRefused f) fun heq => hd f heq.symm
  notFailed := h.notFailed
  notGivenUp := h.notGivenUp

theorem setStage (h : Flawless t) (k : Nat) {s : OpeningStage} (hs : ∀ f, s ≠ .done (some f)) :
    Flawless { t with client := t.client.setStage k s } where
  notRefused := h.notRefused
  notFailed j f := by
    rw [SharedClient.stage_setStage]
    split
    · exact hs f
    · exact h.notFailed j f
  notGivenUp j := (SharedClient.isGivenUp_setStage _ _ _ _).trans (h.notGivenUp j)

theorem create (h : Flawless t) (waiting : List Nat) :
    Flawless { t with client := t.client.create, waiting := waiting } where
  notRefused := h.notRefused
  notFailed j f := by
    show t.client.create.stage j ≠ _
    rw [SharedClient.stage_create]
    split
    · simp
    · exact h.notFailed j f
  notGivenUp j := (SharedClient.isGivenUp_create _ _).trans (h.notGivenUp j)

theorem steps {x : Turn} (h : Flawless t) (hx : x.Succeeds) (hstep : Steps t x t') :
    Flawless t' := by
  have hsame : ∀ {c waiting leaving}, (∀ k, c.stage k = t.client.stage k) →
      (∀ k, c.isGivenUp k = t.client.isGivenUp k) → Flawless ⟨c, waiting, leaving, t.deeds⟩ :=
    fun hstage hgivenUp => ⟨h.notRefused, fun k f => by rw [hstage]; exact h.notFailed k f,
      fun k => by rw [hgivenUp]; exact h.notGivenUp k⟩
  cases hstep with
  | inUse => exact h.note (by simp)
  | opened | wakes =>
    refine Flawless.note (hsame (c := t.client.install _) (fun _ => rfl) fun _ => rfl) ?_
    simp
  | closes | left =>
    refine Flawless.note (hsame (c := t.client.close) (fun _ => rfl) fun _ => rfl) ?_
    simp
  | leaves =>
    refine Flawless.note (hsame (fun _ => rfl) fun _ => rfl) ?_
    simp
  | waits => exact hsame (fun _ => rfl) fun _ => rfl
  | refused fault hclient hcontext hstage => exact absurd hstage (h.notFailed _ _)
  | barred => cases hx
  | creates => exact (h.create _).note (by simp)
  | enters => exact (h.setStage _ (by simp)).note (by simp)
  | entersNot fault hstage hgivenUp =>
    rw [h.notGivenUp] at hgivenUp
    cases hgivenUp
  | @finishes fault k hstage =>
    refine h.setStage k fun f => ?_
    rw [h.notGivenUp, Option.isNone_iff_eq_none.1 hx]
    simp
  | fails hwaits hstage => exact absurd hstage (h.notFailed _ _)
  | givesUp => cases hx

end Flawless

end Traffic

end KeysetQuery

import KeysetQuery.Proofs.Client.Periods
import KeysetQuery.Session.Schedule

/-!
# Leaving contexts once

A close leaves the context that it finds, whether or not it is still being opened, another close is
leaving it already, or requests come in the meantime.

* `Traffic.Alone` — closes that have the client for themselves;
* `Traffic.Released` — no context is left twice, and none is sent to after that;
* `Traffic.Tidy`, `Tidy.steps` — what holds in traffic whose closes have the client for themselves;
* `sent_of_waits` — a request that waits is sent in the end, when nothing fails;
* `released_iff_alone` — without failures contexts are left once, and last, exactly if each close
  has the client for itself.
-/

namespace KeysetQuery

open Value

/-- The context that a close begins to leave. -/
def Deed.left? : Deed → Option Nat
  | .left k => some k
  | _ => none

namespace Traffic

variable {t t' : Traffic} {x : Turn} {turns : List Turn}

/-! ### Closes by themselves -/

/-- A close has the client for itself: it comes while no request waits and no other close is under
way, and no request comes until it is over. -/
def Alone (t : Traffic) : Turn → Prop
  | .request _ => t.leaving = []
  | .close => t.waiting = [] ∧ t.leaving = []
  | _ => True

instance (t : Traffic) (x : Turn) : Decidable (Alone t x) :=
  match x with
  | .request _ => inferInstanceAs (Decidable (t.leaving = []))
  | .close => inferInstanceAs (Decidable (t.waiting = [] ∧ t.leaving = []))
  | .opening _ _ | .wake _ | .giveUp _ | .left _ => isTrue trivial

theorem Alone.quiet (h : Alone t x) : Quiet t x := by
  cases x with
  | request => exact h
  | close => exact h.1
  | _ => trivial

/-! ### Contexts that are left -/

/-- The contexts that closes have begun to leave. -/
def exits (t : Traffic) : List Nat := t.deeds.filterMap Deed.left?

theorem mem_exits {k : Nat} : k ∈ t.exits ↔ .left k ∈ t.deeds := by
  rw [exits, List.mem_filterMap]
  constructor
  · rintro ⟨d, hd, hk⟩
    cases d with
    | left j =>
      obtain rfl := Option.some.inj hk
      exact hd
    | _ => cases hk
  · exact fun h => ⟨_, h, rfl⟩

/-- No context is left twice, and no request is sent to a context after that. -/
structure Released (t : Traffic) : Prop where
  once : t.exits.Nodup
  last : t.deeds.Pairwise fun d e => ∀ k, d = .left k → e ≠ .sent k

/-- What is done later cannot make good for it. -/
theorem Released.of_append {more : List Deed} (h : Released t')
    (hdeeds : t'.deeds = t.deeds ++ more) : Released t where
  once := by
    have honce := h.once
    rw [exits, hdeeds, List.filterMap_append] at honce
    exact (List.nodup_append.1 honce).1
  last := by
    have hlast := h.last
    rw [hdeeds] at hlast
    exact (List.pairwise_append.1 hlast).1

theorem not_released_of_sent {k : Nat} {more : List Deed} (hleft : .left k ∈ t.deeds)
    (hdeeds : t'.deeds = t.deeds ++ more) (hsent : .sent k ∈ more) : ¬ Released t' := by
  intro h
  have hlast := h.last
  rw [hdeeds] at hlast
  exact (List.pairwise_append.1 hlast).2.2 _ hleft _ hsent k rfl rfl

theorem not_released_of_left {k : Nat} (hleft : .left k ∈ t.deeds)
    (hdeeds : t'.deeds = t.deeds ++ [.left k]) : ¬ Released t' := by
  intro h
  have honce := h.once
  rw [exits, hdeeds, List.filterMap_append] at honce
  exact (List.nodup_append.1 honce).2.2 k (mem_exits.2 hleft) k List.mem_cons_self rfl

/-! ### Tidy traffic -/

/-- What holds in traffic whose closes have the client for themselves. -/
structure Tidy (t : Traffic) : Prop where
  orderly : Orderly t
  once : t.exits.Nodup
  /-- Nothing more is done to a context that was left. -/
  last : t.deeds.Pairwise fun d e => ∀ k, d = .left k → e ≠ .entered k ∧ e ≠ .sent k
  leaving : t.leaving = [] ∨ ∃ k, t.leaving = [k] ∧ t.client.context = some k
  /-- The current context was left only by a close that is under way. -/
  current : ∀ {k}, t.client.context = some k → .left k ∈ t.deeds → k ∈ t.leaving
  /-- A context that was entered was left, unless it is the current one. -/
  entered : ∀ {k}, .entered k ∈ t.deeds → .left k ∈ t.deeds ∨ t.client.context = some k

theorem tidy_unused : Tidy unused where
  orderly := orderly_unused
  once := List.nodup_nil
  last := List.Pairwise.nil
  leaving := .inl rfl
  current hk := by cases hk
  entered hk := by cases hk

namespace Tidy

/-- The current context was not left as long as no close is under way. -/
theorem not_left (h : Tidy t) (hleaving : t.leaving = []) {k : Nat}
    (hcontext : t.client.context = some k) : .left k ∉ t.deeds := by
  intro hleft
  have hk := h.current hcontext hleft
  rw [hleaving] at hk
  cases hk

/-- No context is left by what is done. -/
theorem once_append (h : Tidy t) {more : List Deed} (hdeeds : t'.deeds = t.deeds ++ more)
    (hleft : ∀ d ∈ more, d.left? = none) : t'.exits.Nodup := by
  rw [exits, hdeeds, List.filterMap_append, List.filterMap_eq_nil_iff.2 hleft, List.append_nil]
  exact h.once

/-- What is entered or sent to was not left. -/
theorem last_append (h : Tidy t) {more : List Deed} (hdeeds : t'.deeds = t.deeds ++ more)
    (hleft : ∀ d ∈ more, d.left? = none) (hentered : ∀ k, .entered k ∈ more → .left k ∉ t.deeds)
    (hsent : ∀ k, .sent k ∈ more → .left k ∉ t.deeds) :
    t'.deeds.Pairwise fun d e => ∀ k, d = .left k → e ≠ .entered k ∧ e ≠ .sent k := by
  rw [hdeeds]
  refine List.pairwise_append.2 ⟨h.last, ?_, ?_⟩
  · refine List.pairwise_of_forall_mem_list fun d hd e _ k hk => ?_
    rw [hk] at hd
    cases hleft _ hd
  · rintro d hd e he k rfl
    exact ⟨fun heq => hentered k (heq ▸ he) hd, fun heq => hsent k (heq ▸ he) hd⟩

theorem mem_left_append {more : List Deed} (hdeeds : t'.deeds = t.deeds ++ more)
    (hleft : ∀ d ∈ more, d.left? = none) {k : Nat} (hk : .left k ∈ t'.deeds) :
    .left k ∈ t.deeds := by
  rw [hdeeds] at hk
  refine (List.mem_append.1 hk).resolve_right fun hmore => ?_
  cases hleft _ hmore

/-- The current context stays.  What is entered is the current context. -/
theorem grow (h : Tidy t) (horderly : Orderly t') {more : List Deed}
    (hcontext : t'.client.context = t.client.context) (hleaving : t'.leaving = t.leaving)
    (hdeeds : t'.deeds = t.deeds ++ more) (hleft : ∀ d ∈ more, d.left? = none)
    (hentered : ∀ k, .entered k ∈ more → t.client.context = some k ∧ .left k ∉ t.deeds)
    (hsent : ∀ k, .sent k ∈ more → .left k ∉ t.deeds) : Tidy t' where
  orderly := horderly
  once := h.once_append hdeeds hleft
  last := h.last_append hdeeds hleft (fun k hk => (hentered k hk).2) hsent
  leaving := by
    rw [hleaving, hcontext]
    exact h.leaving
  current hk hd := by
    rw [hleaving]
    exact h.current (hcontext ▸ hk) (mem_left_append hdeeds hleft hd)
  entered {k} hd := by
    rw [hcontext, hdeeds]
    rw [hdeeds] at hd
    rcases List.mem_append.1 hd with hd | hmore
    · exact (h.entered hd).imp_left (List.mem_append_left _)
    · exact .inr (hentered k hmore).1

/-- A request is sent to a context that was not left. -/
theorem send (h : Tidy t) (horderly : Orderly t') {k : Nat}
    (hcontext : t'.client.context = t.client.context) (hleaving : t'.leaving = t.leaving)
    (hdeeds : t'.deeds = t.deeds ++ [.sent k]) (hnot : .left k ∉ t.deeds) : Tidy t' := by
  refine h.grow horderly hcontext hleaving hdeeds (by simp [Deed.left?]) (by simp) fun j hj => ?_
  obtain rfl := Deed.sent.inj (List.mem_singleton.1 hj)
  exact hnot

/-- The current context was left, or there was none, and now there is another one or none. -/
theorem renew (h : Tidy t) (horderly : Orderly t') {d : Deed}
    (hgone : ∀ k, t.client.context = some k → .left k ∈ t.deeds)
    (hnew : ∀ k, t'.client.context = some k → .left k ∉ t.deeds) (hleaving : t'.leaving = [])
    (hdeeds : t'.deeds = t.deeds ++ [d]) (hd : d.left? = none)
    (hentered : ∀ k, d ≠ .entered k) (hsent : ∀ k, d ≠ .sent k) : Tidy t' where
  orderly := horderly
  once := h.once_append hdeeds (by simpa using hd)
  last := by
    refine h.last_append hdeeds (by simpa using hd) (fun k hk => ?_) fun k hk => ?_
    · exact absurd (List.mem_singleton.1 hk).symm (hentered k)
    · exact absurd (List.mem_singleton.1 hk).symm (hsent k)
  leaving := .inl hleaving
  current hk hleft := absurd (mem_left_append hdeeds (by simpa using hd) hleft) (hnew _ hk)
  entered {k} hk := by
    rw [hdeeds] at hk ⊢
    rcases List.mem_append.1 hk with hk | hk
    · exact .inl (List.mem_append_left _ ((h.entered hk).elim id (hgone k)))
    · exact absurd (List.mem_singleton.1 hk).symm (hentered k)

/-- A close begins to leave the current context, which was not left before. -/
theorem leave (h : Tidy t) {k : Nat} (hcontext : t.client.context = some k)
    (hleaving : t.leaving = []) (horderly : Orderly t')
    (ht' : t' = { t with leaving := t.leaving ++ [k] }.note (.left k)) : Tidy t' where
  orderly := horderly
  once := by
    have hnew : k ∉ t.exits := fun hk => h.not_left hleaving hcontext (mem_exits.1 hk)
    rw [ht', exits]
    show (List.filterMap _ (t.deeds ++ [.left k])).Nodup
    rw [List.filterMap_append]
    refine List.nodup_append.2 ⟨h.once, List.pairwise_singleton _ _, fun j hj i hi heq => hnew ?_⟩
    rwa [← List.mem_singleton.1 hi, ← heq]
  last := by
    rw [ht']
    refine List.pairwise_append.2 ⟨h.last, List.pairwise_singleton _ _, fun d _ e he j _ => ?_⟩
    rw [List.mem_singleton.1 he]
    simp
  leaving := by
    rw [ht']
    refine .inr ⟨k, ?_, hcontext⟩
    show t.leaving ++ [k] = [k]
    rw [hleaving, List.nil_append]
  current {j} hj _ := by
    subst ht'
    obtain rfl := Option.some.inj (hcontext.symm.trans hj)
    exact List.mem_concat_self
  entered {j} hj := by
    subst ht'
    have hj := (mem_note.1 hj).resolve_right (by simp)
    exact (h.entered hj).imp_left fun hleft => mem_note.2 (.inl hleft)

theorem steps (h : Tidy t) (halone : Alone t x) (hstep : Steps t x t') : Tidy t' := by
  have horderly := h.orderly.steps halone.quiet hstep
  -- Requests wait for the current context alone, and then no close is under way.
  have hwaits : ∀ {k}, k ∈ t.waiting → t.client.context = some k ∧ .left k ∉ t.deeds := by
    intro k hk
    have hcontext := h.orderly.settled.waits hk
    exact ⟨hcontext, h.not_left (h.orderly.settled.leaving_eq_nil hk) hcontext⟩
  have hnil : ∀ {u : Traffic}, u.deeds = t.deeds → u.deeds = t.deeds ++ [] :=
    fun hu => hu.trans (List.append_nil _).symm
  cases hstep with
  | inUse fault hclient =>
    exact h.send horderly rfl rfl rfl (h.not_left halone (h.orderly.settled.client hclient).1)
  | opened fault _ hcontext =>
    exact h.send horderly rfl rfl rfl (h.not_left halone hcontext)
  | refused | barred | fails =>
    refine h.grow horderly rfl rfl rfl ?_ ?_ ?_
    all_goals simp [Deed.left?]
  | waits | entersNot | finishes | givesUp =>
    refine h.grow horderly rfl rfl (hnil rfl) ?_ ?_ ?_
    all_goals simp
  | creates _ hcontext =>
    refine h.renew horderly ?_ ?_ halone rfl rfl (by simp) (by simp)
    · simp [hcontext]
    · intro k hk hleft
      obtain rfl := Option.some.inj hk
      exact lt_irrefl _ (h.orderly.sound.left hleft)
  | @enters fault k hstage hwanted =>
    have hk := hwaits (h.orderly.sound.wanted (by rw [hstage]; rfl) hwanted)
    refine h.grow horderly rfl rfl rfl (by simp [Deed.left?]) (fun j hj => ?_) (by simp)
    obtain rfl := Deed.entered.inj (List.mem_singleton.1 hj)
    exact hk
  | wakes hk => exact h.send horderly rfl rfl rfl (hwaits hk).2
  | closes hcontext =>
    refine h.renew horderly ?_ (fun k hk => (by cases hk)) halone.2 rfl rfl (by simp) (by simp)
    simp [hcontext]
  | leaves hcontext => exact h.leave hcontext halone.2 horderly rfl
  | @left k hleaving =>
    obtain hnil | ⟨j, hj, hcontext⟩ := h.leaving
    · rw [hnil] at hleaving
      cases hleaving
    · rw [hj] at hleaving
      obtain rfl := List.mem_singleton.1 hleaving
      refine h.renew horderly ?_ (fun k hk => (by cases hk)) ?_ rfl rfl (by simp) (by simp)
      · intro i hi
        obtain rfl := Option.some.inj (hcontext.symm.trans hi)
        exact h.orderly.sound.leaving (by rw [hj]; exact List.mem_cons_self)
      · show t.leaving.erase k = []
        rw [hj, List.erase_cons_head]

theorem of_alone (halone : unused.Along Alone turns) (h : unused.after turns = some t) : Tidy t :=
  invariant_after (fun h halone hstep => h.steps halone hstep) tidy_unused halone h

/-- When a close is over, what was entered was left after that. -/
theorem left_after_entered (h : Tidy t) (hcurrent : t.current = []) {k : Nat}
    (hentered : .entered k ∈ t.deeds) :
    ∃ before later, t.deeds = before ++ .left k :: later ∧ .entered k ∈ before := by
  have hleft : .left k ∈ t.deeds := by
    refine (h.entered hentered).resolve_right fun hcontext => ?_
    rw [h.orderly.context_of_nil hcurrent] at hcontext
    cases hcontext
  obtain ⟨before, later, hdeeds⟩ := List.append_of_mem hleft
  refine ⟨before, later, hdeeds, ?_⟩
  have hlast := h.last
  rw [hdeeds] at hlast hentered
  rcases List.mem_append.1 hentered with hbefore | hlater
  · exact hbefore
  · have hnot := (List.pairwise_cons.1 (List.pairwise_append.1 hlast).2.1).1
    rcases List.mem_cons.1 hlater with heq | hlater
    · cases heq
    · exact absurd rfl (hnot _ hlater k rfl).1

end Tidy

/-! ### Closes that interfere -/

/-- If nothing fails, a request that waits goes on waiting or is sent. -/
theorem Steps.waits_or_sent (hflawless : Flawless t) (hx : x.Succeeds) (hstep : Steps t x t')
    {k : Nat} (hk : k ∈ t.waiting) : k ∈ t'.waiting ∨ t'.deeds = t.deeds ++ [.sent k] := by
  cases hstep with
  | waits | creates => exact .inl (List.mem_append_left _ hk)
  | @wakes j =>
    by_cases hj : k = j
    · obtain rfl := hj
      exact .inr rfl
    · exact .inl ((List.mem_erase_of_ne hj).2 hk)
  | fails _ hstage => exact absurd hstage (hflawless.notFailed _ _)
  | givesUp => cases hx
  | _ => exact .inl hk

/-- If nothing fails, a request that waits is sent to the context for which it waits before no
request waits any more. -/
theorem sent_of_waits (hflawless : Flawless t) (hsucceeds : ∀ x ∈ turns, x.Succeeds)
    (h : t.after turns = some t') (hwaiting : t'.waiting = []) {k : Nat} (hk : k ∈ t.waiting) :
    ∃ more, t'.deeds = t.deeds ++ more ∧ .sent k ∈ more := by
  induction turns generalizing t with
  | nil =>
    obtain rfl := Option.some.inj h
    rw [hwaiting] at hk
    cases hk
  | cons x xs ih =>
    obtain ⟨u, hu, hrun⟩ := Option.bind_eq_some_iff.1 h
    have hstep := steps_of_step hu
    have hx := hsucceeds x List.mem_cons_self
    rcases hstep.waits_or_sent hflawless hx hk with hk | hsent
    · obtain ⟨first, hfirst⟩ := hstep.exists_deeds
      obtain ⟨rest, hrest, hsent⟩ := ih (hflawless.steps hx hstep)
        (fun y hy => hsucceeds y (List.mem_cons_of_mem x hy)) hrun hk
      refine ⟨first ++ rest, ?_, List.mem_append_right _ hsent⟩
      rw [hrest, hfirst, List.append_assoc]
    · obtain ⟨rest, hrest⟩ := exists_deeds_after hrun
      refine ⟨.sent k :: rest, ?_, List.mem_cons_self⟩
      rw [hrest, hsent, List.append_assoc, List.singleton_append]

/-- A turn that disturbs a close leaves a context twice, sends a request to a context that was left,
or has a request wait for one. -/
theorem Tidy.disturbed (h : Tidy t) (hflawless : Flawless t) (hx : x.Succeeds)
    (halone : ¬ Alone t x) (hstep : Steps t x t') :
    ¬ Released t' ∨ ∃ k ∈ t'.waiting, .left k ∈ t'.deeds := by
  have hunderway : t.leaving ≠ [] → ∃ k, t.client.context = some k ∧ .left k ∈ t.deeds := by
    intro hleaving
    obtain ⟨k, hk, hcontext⟩ := h.leaving.resolve_left hleaving
    exact ⟨k, hcontext, h.orderly.sound.leaving (by rw [hk]; exact List.mem_cons_self)⟩
  cases hstep with
  | inUse fault hclient =>
    obtain ⟨k, hcontext, hleft⟩ := hunderway halone
    obtain rfl := Option.some.inj (hcontext.symm.trans (h.orderly.settled.client hclient).1)
    exact .inl (not_released_of_sent hleft rfl List.mem_cons_self)
  | opened fault _ hk =>
    obtain ⟨k, hcontext, hleft⟩ := hunderway halone
    obtain rfl := Option.some.inj (hcontext.symm.trans hk)
    exact .inl (not_released_of_sent hleft rfl List.mem_cons_self)
  | refused fault _ _ hstage => exact absurd hstage (hflawless.notFailed _ _)
  | waits fault _ hk =>
    obtain ⟨k, hcontext, hleft⟩ := hunderway halone
    obtain rfl := Option.some.inj (hcontext.symm.trans hk)
    exact .inr ⟨k, List.mem_concat_self, hleft⟩
  | barred => cases hx
  | creates _ hnone =>
    obtain ⟨k, hcontext, -⟩ := hunderway halone
    cases hnone.symm.trans hcontext
  | closes hnone =>
    refine absurd ⟨?_, ?_⟩ halone
    · refine List.eq_nil_iff_forall_not_mem.2 fun k hk => ?_
      cases hnone.symm.trans (h.orderly.settled.waits hk)
    · by_contra hleaving
      obtain ⟨k, hcontext, -⟩ := hunderway hleaving
      cases hnone.symm.trans hcontext
  | @leaves k hk =>
    by_cases hwaiting : t.waiting = []
    · obtain ⟨j, hcontext, hleft⟩ := hunderway fun hleaving => halone ⟨hwaiting, hleaving⟩
      obtain rfl := Option.some.inj (hcontext.symm.trans hk)
      exact .inl (not_released_of_left hleft rfl)
    · obtain ⟨j, hj⟩ := List.exists_mem_of_ne_nil _ hwaiting
      obtain rfl := Option.some.inj (hk.symm.trans (h.orderly.settled.waits hj))
      exact .inr ⟨k, hj, List.mem_concat_self⟩
  | enters | entersNot | finishes | wakes | fails | givesUp | left => exact absurd trivial halone

/-- If nothing fails and contexts are left once and last, each close has the client for itself. -/
theorem Tidy.alone_of_released (h : Tidy t) (hflawless : Flawless t)
    (hsucceeds : ∀ x ∈ turns, x.Succeeds) (hafter : t.after turns = some t')
    (hwaiting : t'.waiting = []) (hreleased : Released t') : t.Along Alone turns := by
  induction turns generalizing t with
  | nil => trivial
  | cons x xs ih =>
    obtain ⟨u, hu, hrun⟩ := Option.bind_eq_some_iff.1 hafter
    have hstep := steps_of_step hu
    have hx := hsucceeds x List.mem_cons_self
    have hxs : ∀ y ∈ xs, y.Succeeds := fun y hy => hsucceeds y (List.mem_cons_of_mem x hy)
    -- A first turn that disturbs a close shows in the deeds at the end, since nothing is undone.
    have halone : Alone t x := by
      by_contra halone
      rcases h.disturbed hflawless hx halone hstep with hnot | ⟨k, hk, hleft⟩
      · obtain ⟨rest, hrest⟩ := exists_deeds_after hrun
        exact hnot (hreleased.of_append hrest)
      · obtain ⟨rest, hrest, hsent⟩ := sent_of_waits (hflawless.steps hx hstep) hxs hrun hwaiting hk
        exact not_released_of_sent hleft hrest hsent hreleased
    refine ⟨halone, fun u' hu' => ?_⟩
    obtain rfl := Option.some.inj (hu.symm.trans hu')
    exact ih (h.steps halone hstep) (hflawless.steps hx hstep) hxs hrun

/-- Closes that have the client for themselves leave each context at most once, no request is sent
to a context after that, and when a close is over each context that was entered was left after it
was entered.  Without failures, and when no request waits any more, contexts are left once and last
only if each close had the client for itself: a close that comes while a request waits for an
opening, or while another close is under way, breaks it, and so does a request that comes while a
close is under way. -/
theorem released_iff_alone (h : unused.after turns = some t) :
    (unused.Along Alone turns → Released t ∧ (t.current = [] → ∀ k, .entered k ∈ t.deeds →
      ∃ before later, t.deeds = before ++ .left k :: later ∧ .entered k ∈ before)) ∧
    ((∀ x ∈ turns, x.Succeeds) → t.waiting = [] → (Released t ↔ unused.Along Alone turns)) := by
  have hreleased : unused.Along Alone turns → Released t := by
    intro halone
    have htidy := Tidy.of_alone halone h
    exact ⟨htidy.once, htidy.last.imp fun hlast k hk => (hlast k hk).2⟩
  refine ⟨fun halone => ⟨hreleased halone, fun hcurrent k hk => ?_⟩, fun hsucceeds hwaiting => ?_⟩
  · exact (Tidy.of_alone halone h).left_after_entered hcurrent hk
  · exact ⟨tidy_unused.alone_of_released flawless_unused hsucceeds h hwaiting, hreleased⟩

/-- A client is opened, closed, opened again and closed again; and a client is closed while it is
still being opened. -/
theorem released_iff_alone_reopened_and_early :
    let opening (k : Nat) : List Turn := [.opening k none, .opening k none, .wake k]
    let late : List Turn := [.request none] ++ opening 0 ++ [.close, .left 0, .request none] ++
      opening 1 ++ [.close, .left 1]
    let early : List Turn := [.request none, .close, .left 0] ++ opening 0
    (∃ t, unused.after late = some t ∧ Released t ∧
      ∃ before later, t.deeds = before ++ .left 1 :: later ∧ .entered 1 ∈ before) ∧
    ∃ t, unused.after early = some t ∧ ¬ Released t := by
  intro opening late early
  refine ⟨⟨_, rfl, ?_⟩, _, rfl, ?_⟩
  · have hreleased := (@released_iff_alone _ late rfl).1 (by decide)
    have hentered : Deed.entered 1 ∈ [.created 0, .entered 0, .sent 0, .left 0, .closed,
        .created 1, .entered 1, .sent 1, .left 1, .closed] := by simp
    exact ⟨hreleased.1, hreleased.2 rfl 1 hentered⟩
  · have hiff := (@released_iff_alone _ early rfl).2 (by simp [early, opening, Turn.Succeeds]) rfl
    rw [hiff]
    decide

end Traffic

/-- A record is asked for and the client is closed at the same time: the context is left before it
is entered, and the request is sent to it after that. -/
theorem sent_after_exit_when_closed_early :
    let store : RecordStore := ⟨⟨true, int 1000, 20⟩, .standard, 10⟩
    let load : Task := .load (map [(str "pk", str "A")]) (str "t")
    let after := (Session.start store (.shared .unused []) ⟨[], [], []⟩).perform [load, .close]
    after.1.map Except.isOk = [true, true] ∧
      after.2.calls.map Call.operation =
        ["create_client", "client_exit", "client_enter", "get_item"] := by
  intro store load after
  refine ⟨?_, ?_⟩
  all_goals decide +kernel

end KeysetQuery

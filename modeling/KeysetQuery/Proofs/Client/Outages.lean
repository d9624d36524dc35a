import KeysetQuery.Proofs.Client.Periods
import KeysetQuery.Session.Schedule

/-!
# Openings that come to nothing

An opening may fail, and it is given up with a request that waits for it.  Either way its context
stays the current one, and so does what has become of the opening: all requests get the same fault
until a close is over.

* `Steps.context_cases` — what a turn can do to the current context;
* `Traffic.Outage`, `Outage.steps` — an opening that has come to nothing, until a close is over;
* `Traffic.Gone`, `Gone.steps` — a context that is not the current one never will be again;
* `reach_request_of_barred` — a client that cannot be created, in contrast, leaves no context;
* `after_opening_of_vacant` — without a context the next request opens a client and is sent to it;
* `refused_until_left` — requests are refused exactly until a close is over.
-/

namespace KeysetQuery

open Value

namespace Traffic

variable {t t' : Traffic} {x : Turn} {k : Nat} {f : Fault}

/-! ### The current context -/

/-- A turn leaves the current context as it is, clears it or creates another one. -/
theorem Steps.context_cases (h : Steps t x t') :
    t'.client.context = t.client.context ∨ (t'.client.context = none ∧ ∃ j, x = .left j) ∨
      (t.client.context = none ∧
        (t'.client.context = none ∨ t'.client.context = some t.client.next)) := by
  cases h with
  | creates hclient hcontext => exact .inr (.inr ⟨hcontext, .inr rfl⟩)
  | closes hcontext => exact .inr (.inr ⟨hcontext, .inl rfl⟩)
  | left => exact .inr (.inl ⟨rfl, _, rfl⟩)
  | _ => exact .inl rfl

/-- A context is there no more, and others may have been created since. -/
def Gone (t : Traffic) (k : Nat) : Prop := k < t.client.next ∧ t.client.context ≠ some k

/-- A context that is there no more does not come back. -/
theorem Gone.steps (h : Gone t k) (hstep : Steps t x t') : Gone t' k := by
  obtain ⟨hlt, hcontext⟩ := h
  refine ⟨Nat.lt_of_lt_of_le hlt hstep.next_le, ?_⟩
  obtain heq | ⟨heq, -⟩ | ⟨-, heq | heq⟩ := hstep.context_cases
  · rwa [heq]
  · simp [heq]
  · simp [heq]
  · rw [heq]
    exact fun hk => Nat.ne_of_gt hlt (Option.some.inj hk)

theorem gone_of_left {j : Nat} (hk : k < t.client.next) (h : Steps t (.left j) t') : Gone t' k := by
  cases h with
  | left => exact ⟨hk, fun hcontext => by cases hcontext⟩

/-! ### Outages -/

/-- The opening of the current context has come to nothing, and no other one is waited for. -/
structure Outage (t : Traffic) (k : Nat) (f : Fault) : Prop where
  context : t.client.context = some k
  failed : t.client.stage k = .done (some f)
  client : t.client.client = none
  waits : ∀ j ∈ t.waiting, j = k

theorem Orderly.outage (h : Orderly t) (hcontext : t.client.context = some k)
    (hfailed : t.client.stage k = .done (some f)) : Outage t k f where
  context := hcontext
  failed := hfailed
  client := by
    by_contra hclient
    obtain ⟨j, hj⟩ := Option.ne_none_iff_exists'.1 hclient
    obtain ⟨hj, hdone⟩ := h.settled.client hj
    obtain rfl := Option.some.inj (hj.symm.trans hcontext)
    cases hdone.symm.trans hfailed
  waits j hj := Option.some.inj ((h.settled.waits hj).symm.trans hcontext)

namespace Outage

theorem reach (h : Outage t k f) : t.client.reach = .refused f := by
  rw [SharedClient.reach, h.client, h.context]
  dsimp only
  rw [h.failed]

/-- The next request gets the fault, whether or not a context could be created. -/
theorem request_eq (h : Outage t k f) (fault : Option Fault) :
    t.request fault = t.note (.refused f) := by
  unfold Traffic.request
  rw [h.reach]

/-- Another opening goes on. -/
theorem setStage (h : Outage t k f) {j : Nat} (hj : (t.client.stage j).isDone = false)
    (s : OpeningStage) : Outage { t with client := t.client.setStage j s } k f where
  context := h.context
  failed :=
    (SharedClient.stage_setStage_of_isDone hj (by rw [h.failed]; rfl) s).trans h.failed
  client := h.client
  waits := h.waits

theorem erase (h : Outage t k f) (j : Nat) : Outage { t with waiting := t.waiting.erase j } k f :=
  ⟨h.context, h.failed, h.client, fun i hi => h.waits i (List.mem_of_mem_erase hi)⟩

/-- As long as no close is over the outage lasts: requests get the same fault, and closes begin to
leave the context. -/
theorem steps (h : Outage t k f) (hsound : Sound t) (hstep : Steps t x t')
    (hx : ∀ j, x ≠ .left j) :
    Outage t' k f ∧ ∃ more, t'.deeds = t.deeds ++ more ∧
      ∀ d ∈ more, d = .refused f ∨ d = .left k := by
  have hnothing : ∃ more, t.deeds = t.deeds ++ more ∧ ∀ d ∈ more, d = .refused f ∨ d = .left k :=
    ⟨[], by simp⟩
  have hstage : ∀ {s}, t.client.stage k = s → s = .done (some f) := fun hs => hs.symm.trans h.failed
  have hcontext : ∀ {j}, t.client.context = some j → j = k :=
    fun hj => Option.some.inj (hj.symm.trans h.context)
  cases hstep with
  | inUse fault hclient => cases h.client.symm.trans hclient
  | opened fault _ hj hdone | waits fault _ hj hdone =>
    obtain rfl := hcontext hj
    rw [h.failed] at hdone
    cases hdone
  | refused fault _ hj hdone =>
    obtain rfl := hcontext hj
    obtain rfl := Option.some.inj (OpeningStage.done.inj (hstage hdone))
    exact ⟨⟨h.context, h.failed, h.client, h.waits⟩, _, rfl, by simp⟩
  | barred f' _ hnone | creates _ hnone | closes hnone => cases hnone.symm.trans h.context
  | enters fault hcreated hwanted =>
    -- Whatever is still being opened is waited for, and nobody waits for another context.
    obtain rfl := h.waits _ (hsound.wanted (by rw [hcreated]; rfl) hwanted)
    cases hstage hcreated
  | entersNot fault hcreated => exact ⟨h.setStage (by rw [hcreated]; rfl) _, hnothing⟩
  | finishes fault hentered => exact ⟨h.setStage (by rw [hentered]; rfl) _, hnothing⟩
  | wakes hwaits hdone =>
    obtain rfl := h.waits _ hwaits
    cases hstage hdone
  | fails hwaits hdone =>
    obtain rfl := h.waits _ hwaits
    obtain rfl := Option.some.inj (OpeningStage.done.inj (hstage hdone))
    exact ⟨⟨h.context, h.failed, h.client, (h.erase _).waits⟩, _, rfl, by simp⟩
  | @givesUp j =>
    have hfailed := (SharedClient.stage_giveUp t.client j k).trans h.failed
    exact ⟨⟨h.context, hfailed, h.client, (h.erase j).waits⟩, hnothing⟩
  | leaves hj =>
    obtain rfl := hcontext hj
    exact ⟨⟨h.context, h.failed, h.client, h.waits⟩, _, rfl, by simp⟩
  | left => exact absurd rfl (hx _)

/-! ### Until a close is over -/

/-- Along a run the outage lasts until a close is over; after that its context is gone. -/
theorem lasts (h : Outage t k f) (hsound : Sound t) {turns : List Turn}
    (hafter : t.after turns = some t') :
    (∀ j, .left j ∉ turns) ∧ Outage t' k f ∧ (∃ more, t'.deeds = t.deeds ++ more ∧
        ∀ d ∈ more, d = .refused f ∨ d = .left k) ∨
      (∃ j, .left j ∈ turns) ∧ Gone t' k := by
  induction turns generalizing t with
  | nil =>
    obtain rfl := Option.some.inj hafter
    exact .inl ⟨by simp, h, [], by simp⟩
  | cons x xs ih =>
    obtain ⟨u, hu, hrun⟩ := Option.bind_eq_some_iff.1 hafter
    have hstep := steps_of_step hu
    by_cases hx : ∃ j, x = .left j
    · -- The close is over, and what follows cannot bring the context back.
      obtain ⟨j, rfl⟩ := hx
      have hgone : Gone u k := gone_of_left (Nat.lt_of_succ_le (hsound.context h.context).le) hstep
      exact .inr ⟨⟨j, List.mem_cons_self⟩,
        invariant_after (P := fun t => Gone t k) (fun h _ hstep => h.steps hstep) hgone
          (along_of_forall (fun _ _ _ => trivial) u) hrun⟩
    · have hne : ∀ j, x ≠ .left j := fun j hj => hx ⟨j, hj⟩
      obtain ⟨hu, more, hmore, hrefused⟩ := h.steps hsound hstep hne
      rcases ih hu (hsound.steps hstep) hrun with ⟨hnone, ht', rest, hrest, hall⟩ | ⟨⟨j, hj⟩, hgone⟩
      · refine .inl ⟨fun j hj => ?_, ht', more ++ rest, ?_, fun d hd => ?_⟩
        · exact (List.mem_cons.1 hj).elim (fun heq => hne j heq.symm) (hnone j)
        · rw [hrest, hmore, List.append_assoc]
        · exact (List.mem_append.1 hd).elim (hrefused d) (hall d)
      · exact .inr ⟨⟨j, List.mem_cons_of_mem x hj⟩, hgone⟩

end Outage

/-! ### Openings anew -/

theorem reach_finishClose {j : Nat} (h : t.step (.left j) = some t') :
    t'.client.reach = .vacant := by
  cases steps_of_step h with
  | left => exact SharedClient.reach_close _

/-- If no context can be created, the next request may try again. -/
theorem reach_request_of_barred (h : t.client.reach = .vacant) (f : Fault) :
    (t.request (some f)).client.reach = .vacant := by
  rw [request, h]
  exact h

/-- An opening that goes well serves a request that waits for it. -/
theorem after_opening_of_created (hstage : t.client.stage k = .created)
    (hwanted : t.client.isGivenUp k = false) (hwaits : k ∈ t.waiting) :
    ∃ t', t.after [.opening k none, .opening k none, .wake k] = some t' ∧
      t'.deeds = t.deeds ++ [.entered k, .sent k] := by
  have hlt : k < t.client.next := SharedClient.lt_next (by rw [hstage]; simp)
  have henters := (Steps.enters none hstage hwanted).step_eq
  let u : Traffic := { t with client := t.client.setStage k .entered }.note (.entered k)
  have hentered : u.client.stage k = .entered :=
    (SharedClient.stage_setStage _ _ _ _).trans (if_pos ⟨rfl, hlt⟩)
  have hfinishes := (Steps.finishes none hentered).step_eq
  let v : Traffic := { u with client := u.client.finish k none }
  have hopened : v.client.stage k = .done none := by
    have hwanted' : u.client.isGivenUp k = false :=
      (SharedClient.isGivenUp_setStage _ _ _ _).trans hwanted
    rw [show v.client = u.client.setStage k _ from rfl, SharedClient.stage_setStage, hwanted',
      if_pos ⟨rfl, hlt.trans_eq (SharedClient.next_setStage _ _ _).symm⟩]
    rfl
  have hwakes := (Steps.wakes (t := v) hwaits hopened).step_eq
  obtain ⟨t', ht'⟩ : ∃ t', v.step (.wake k) = some t' := ⟨_, hwakes⟩
  refine ⟨t', ?_, ?_⟩
  · rw [after, henters]
    show (u.step _).bind _ = _
    rw [hfinishes]
    show (v.step _).bind _ = _
    rw [ht']
    rfl
  · obtain rfl := Option.some.inj (hwakes.symm.trans ht')
    exact List.append_assoc t.deeds [.entered k] [.sent k]

/-- Without a context the next request opens a client, and is sent to it. -/
theorem after_opening_of_vacant (h : t.client.reach = .vacant) :
    let k := t.client.next
    ∃ t', t.after [.request none, .opening k none, .opening k none, .wake k] = some t' ∧
      t'.deeds = t.deeds ++ [.created k, .entered k, .sent k] := by
  intro k
  let u : Traffic :=
    { t with client := t.client.create, waiting := t.waiting ++ [k] }.note (.created k)
  have hcreates : t.step (.request none) = some u := by
    rw [step, request, h]
  have hstage : u.client.stage k = .created := (SharedClient.stage_create _ _).trans (if_pos rfl)
  have hwanted : u.client.isGivenUp k = false :=
    (SharedClient.isGivenUp_create _ _).trans t.client.isGivenUp_next
  obtain ⟨t', hrun, hdeeds⟩ := after_opening_of_created hstage hwanted List.mem_concat_self
  refine ⟨t', ?_, hdeeds.trans (List.append_assoc t.deeds [.created k] _)⟩
  rw [after, hcreates]
  exact hrun

/-- Once the opening of the current context has come to nothing, in traffic in which closes keep
away from requests, it stays the current one exactly until a close is over.  So long every request
gets the fault of the opening, those that have waited for it and all that come later, and nothing
but that is done, apart from closes that begin to leave the context.  A request after the close
opens another client and is sent to it. -/
theorem refused_until_left {before later : List Turn} (hquiet : unused.Along Quiet before)
    (ht : unused.after before = some t) (hcontext : t.client.context = some k)
    (hfailed : t.client.stage k = .done (some f)) (h : t.after later = some t') :
    (t'.client.context = some k ↔ ∀ j, .left j ∉ later) ∧
      (t'.client.context = some k →
        (∀ fault, t'.request fault = t'.note (.refused f)) ∧
        ∃ more, t'.deeds = t.deeds ++ more ∧ ∀ d ∈ more, d = .refused f ∨ d = .left k) ∧
      (∀ rest j, later = rest ++ [.left j] →
        let n := t'.client.next
        ∃ u, t'.after [.request none, .opening n none, .opening n none, .wake n] = some u ∧
          u.deeds = t'.deeds ++ [.created n, .entered n, .sent n]) := by
  have horderly := Orderly.of_quiet hquiet ht
  refine ⟨?_, ?_, fun rest j hlater => after_opening_of_vacant ?_⟩
  · rcases (horderly.outage hcontext hfailed).lasts horderly.sound h with
      ⟨hnone, houtage, -⟩ | ⟨⟨j, hj⟩, hgone⟩
    · exact ⟨fun _ => hnone, fun _ => houtage.context⟩
    · exact ⟨fun hk => absurd hk hgone.2, fun hnone => absurd hj (hnone j)⟩
  · intro hk
    rcases (horderly.outage hcontext hfailed).lasts horderly.sound h with
      ⟨-, houtage, hdeeds⟩ | ⟨-, hgone⟩
    · exact ⟨houtage.request_eq, hdeeds⟩
    · exact absurd hk hgone.2
  · rw [hlater, after_append] at h
    obtain ⟨u, -, h⟩ := Option.bind_eq_some_iff.1 h
    obtain ⟨u', hu', h⟩ := Option.bind_eq_some_iff.1 h
    obtain rfl := Option.some.inj h
    exact reach_finishClose hu'

/-- An opening fails while two requests wait for it, and another one is given up by one of two
requests: a third request is refused, until a close is over. -/
theorem refused_until_left_down_and_given_up :
    let down : Fault := .remote (.crashed "down")
    let failing : List Turn :=
      [.request none, .request none, .opening 0 none, .opening 0 (some down)]
    let givenUp : List Turn := [.request none, .request none, .giveUp 0, .opening 0 none]
    (∃ t t', unused.after failing = some t ∧
      t.after [.wake 0, .wake 0] = some t' ∧ t'.request none = t'.note (.refused down)) ∧
    (∃ t t', unused.after givenUp = some t ∧
      t.after [.wake 0] = some t' ∧ t'.request none = t'.note (.refused .cancelled)) ∧
    ∃ t t', unused.after failing = some t ∧
      t.after [.wake 0, .wake 0, .close, .left 0] = some t' ∧ t'.client.context ≠ some 0 ∧
      ∃ u, t'.after [.request none, .opening 1 none, .opening 1 none, .wake 1] = some u ∧
        u.deeds = t'.deeds ++ [.created 1, .entered 1, .sent 1] := by
  intro down failing givenUp
  refine ⟨⟨_, _, rfl, rfl, ?_⟩, ⟨_, _, rfl, rfl, ?_⟩, _, _, rfl, rfl, ?_⟩
  · obtain ⟨-, hrefused, -⟩ := @refused_until_left _ _ 0 down failing [.wake 0, .wake 0] (by decide)
      rfl rfl rfl rfl
    exact (hrefused rfl).1 none
  · obtain ⟨-, hrefused, -⟩ := @refused_until_left _ _ 0 .cancelled givenUp [.wake 0] (by decide)
      rfl rfl rfl rfl
    exact (hrefused rfl).1 none
  · obtain ⟨hcurrent, -, hopens⟩ := @refused_until_left _ _ 0 down failing
      [.wake 0, .wake 0, .close, .left 0] (by decide) rfl rfl rfl rfl
    exact ⟨fun hk => hcurrent.1 hk 0 (by simp), hopens [.wake 0, .wake 0, .close] 0 rfl⟩

end Traffic

/-- One opening fails and nothing after it would.  The next request fails all the same, and no call
is made for it; the same request succeeds in a session of its own. -/
theorem not_usable_after_failed_opening :
    let store : RecordStore := ⟨⟨true, int 1000, 20⟩, .standard, 10⟩
    let load : Task := .load (map [(str "pk", str "A")]) (str "t")
    let down : Fault := .remote (.crashed "down")
    let first := (Session.start store (.shared .unused []) ⟨[], [], [some down]⟩).perform [load]
    let second := first.2.perform [load]
    let alone := (Session.start store (.shared .unused []) first.2.script).perform [load]
    first.1.map Except.isOk = [false] ∧ first.2.script.openFaults.isEmpty ∧
      second.1.map Except.isOk = [false] ∧ second.2.calls.map Call.operation = [] ∧
      alone.1.map Except.isOk = [true] ∧
      alone.2.calls.map Call.operation = ["create_client", "client_enter", "get_item"] := by
  intro store load down first second alone
  refine ⟨?_, ?_, ?_, ?_, ?_, ?_⟩
  all_goals decide +kernel

end KeysetQuery

import KeysetQuery.Proofs.Client.Traffic
import KeysetQuery.Proofs.Session.Jobs

/-!
# The shared client in sessions

A session that reaches its store through the shared client is traffic at that client: what its
branches and its closes do to the client are turns.

* `Session.pending` — the openings for which branches wait;
* `Session.visits` — how contexts were entered and left;
* `Session.Carries` — a session and traffic have one client, the same requests wait, and the same
  contexts were entered and left;
* `Session.Beside`, `Play.Beside` — what has nothing to do with the client;
* `Play.Carried` — what happens is some turns; `Play.follows_handle` says so of every event;
* `Session.perform_carries` — tasks that are done side by side are turns.
-/

namespace KeysetQuery

open Value

/-! ### Sessions and traffic -/

/-- The opening for which a branch waits. -/
def Delay.opening? : Delay → Option Nat
  | .opening k _ => some k
  | .call _ => none

/-- The opening after which a branch goes on. -/
def Event.wakes? : Event → Option Nat
  | .wake _ k _ => some k
  | _ => none

/-- The call by which a context is entered or left. -/
def Deed.visit? : Deed → Option String
  | .entered _ => some "client_enter"
  | .left _ => some "client_exit"
  | _ => none

/-- The operation of a call, if a context is entered or left by it. -/
def Call.visit? (c : Call) : Option String :=
  if c.operation = "client_enter" ∨ c.operation = "client_exit" then some c.operation else none

namespace Session

/-- The openings after which branches go on. -/
def woken (s : Session) : List Nat := s.queue.filterMap Event.wakes?

/-- The openings for which branches wait: some are over, and the branches go on soon. -/
def pending (s : Session) : List Nat := s.woken ++ s.delays.filterMap fun d => d.2.opening?

/-- How contexts were entered and left. -/
def visits (s : Session) : List String := s.calls.filterMap Call.visit?

/-- A session and traffic have one client, requests wait for the same openings, and contexts were
entered and left alike since the calls began, some visits having come before. -/
structure Carries (past : List String) (options : Entries) (pending : List Nat) (s : Session)
    (t : Traffic) : Prop where
  connection : s.connection = .shared t.client options
  leaving : t.leaving = []
  waiting : t.waiting.Perm pending
  ended : ∀ k ∈ s.woken, (t.client.stage k).isDone = true
  begun : ∀ k ∈ t.waiting, k < t.client.next
  visits : t.deeds.filterMap Deed.visit? = past ++ s.visits

/-- A session carries traffic that goes on from other traffic. -/
def Follows (past : List String) (options : Entries) (s : Session) (t : Traffic) : Prop :=
  ∃ turns t', t.after turns = some t' ∧ s.Carries past options s.pending t'

/-- What has nothing to do with the client. -/
structure Beside (s s' : Session) : Prop where
  connection_eq : s'.connection = s.connection
  woken_eq : s'.woken = s.woken
  pending_eq : s'.pending = s.pending
  visits_eq : s'.visits = s.visits

variable {s s' s'' : Session} {t t' : Traffic} {x : Traffic.Turn} {past : List String}
  {options : Entries} {pending pending' : List Nat}

theorem Beside.refl (s : Session) : s.Beside s := ⟨rfl, rfl, rfl, rfl⟩

theorem Beside.trans (h : s.Beside s') (h' : s'.Beside s'') : s.Beside s'' :=
  ⟨h'.connection_eq.trans h.connection_eq, h'.woken_eq.trans h.woken_eq,
    h'.pending_eq.trans h.pending_eq, h'.visits_eq.trans h.visits_eq⟩

theorem Carries.beside (h : s.Carries past options pending t) (h' : s.Beside s') :
    s'.Carries past options pending t where
  connection := h'.connection_eq.trans h.connection
  leaving := h.leaving
  waiting := h.waiting
  ended := h'.woken_eq ▸ h.ended
  begun := h.begun
  visits := h'.visits_eq ▸ h.visits

theorem Follows.of_carries (h : s.Carries past options s.pending t) : s.Follows past options t :=
  ⟨[], t, rfl, h⟩

theorem Follows.beside (h : s.Follows past options t) (h' : s.Beside s') :
    s'.Follows past options t := by
  obtain ⟨turns, t', hturns, hcarries⟩ := h
  refine ⟨turns, t', hturns, ?_⟩
  rw [h'.pending_eq]
  exact hcarries.beside h'

theorem Follows.after {turns : List Traffic.Turn} (hturns : t.after turns = some t')
    (h : s.Follows past options t') : s.Follows past options t := by
  obtain ⟨more, t'', hmore, hcarries⟩ := h
  refine ⟨turns ++ more, t'', ?_, hcarries⟩
  rw [Traffic.after_append, hturns]
  exact hmore

theorem woken_subset_pending (s : Session) : s.woken ⊆ s.pending := List.subset_append_left _ _

/-- A session goes on with traffic after a turn, if it does the same to the client, to those who
wait and to contexts. -/
theorem Carries.turn (h : s.Carries past options pending t) (hsub : s.woken ⊆ pending)
    (hstep : t.step x = some t') (hleaving : t'.leaving = [])
    (hconnection : s'.connection = .shared t'.client options) (hwoken : s'.woken = s.woken)
    (hwaiting : t'.waiting.Perm pending')
    (hvisits : ∃ more, t'.deeds = t.deeds ++ more ∧
      s'.visits = s.visits ++ more.filterMap Deed.visit?) :
    s'.Carries past options pending' t' where
  connection := hconnection
  leaving := hleaving
  waiting := hwaiting
  ended k hk := by
    rw [hwoken] at hk
    rw [(Traffic.steps_of_step hstep).stage_of_isDone (h.ended k hk)
      (h.begun k (h.waiting.mem_iff.2 (hsub hk)))]
    exact h.ended k hk
  begun := (Traffic.steps_of_step hstep).waiting_lt h.begun
  visits := by
    obtain ⟨more, hmore, hvisits⟩ := hvisits
    rw [hmore, hvisits, List.filterMap_append, h.visits, List.append_assoc]

theorem Follows.turn (hstep : t.step x = some t') (h : s.Follows past options t') :
    s.Follows past options t := by
  have hafter : t.after [x] = some t' := by
    rw [Traffic.after, hstep]
    rfl
  exact Follows.after hafter h

theorem Carries.follows_turn (h : s.Carries past options pending t) (hsub : s.woken ⊆ pending)
    (hstep : t.step x = some t') (hleaving : t'.leaving = [])
    (hconnection : s'.connection = .shared t'.client options) (hwoken : s'.woken = s.woken)
    (hwaiting : t'.waiting.Perm s'.pending)
    (hvisits : ∃ more, t'.deeds = t.deeds ++ more ∧
      s'.visits = s.visits ++ more.filterMap Deed.visit?) : s'.Follows past options t :=
  (Follows.of_carries (h.turn hsub hstep hleaving hconnection hwoken hwaiting hvisits)).turn hstep

end Session

namespace Play

open Session

variable {α β : Type}

/-! ### Beside the client -/

/-- A step that has nothing to do with the client. -/
def Beside (m : Play α) : Prop := ∀ s : Session, s.Beside (m.run s).2

theorem beside_pure (a : α) : Beside (pure a : Play α) := fun s => .refl s

theorem Beside.bind {m : Play α} {f : α → Play β} (hm : Beside m) (hf : ∀ a, Beside (f a)) :
    Beside (m >>= f) := fun s => (hm s).trans (hf _ _)

theorem beside_get {f : Session → Play β} (hf : ∀ s, Beside (f s)) : Beside (get >>= f) :=
  fun s => hf s s

theorem beside_note (ns : List Notice) : Beside (note ns) := fun _ => ⟨rfl, rfl, rfl, rfl⟩

theorem beside_noted (x : Noted α) : Beside (noted x) := (beside_note _).bind fun _ => beside_pure _

theorem beside_record {operation : String} (params : Value)
    (h : operation ≠ "client_enter" ∧ operation ≠ "client_exit") :
    Beside (record operation params) := by
  refine fun s => ⟨rfl, rfl, rfl, ?_⟩
  have hcall : (Call.mk operation params false).visit? = none := if_neg (not_or.2 h)
  show (s.calls ++ [_]).filterMap Call.visit? = _
  rw [List.filterMap_append, List.filterMap_cons_none hcall, List.filterMap_nil, List.append_nil]
  rfl

theorem beside_takeBack (index : Nat) : Beside (takeBack index) := by
  refine fun s => ⟨rfl, rfl, rfl, ?_⟩
  show (s.calls.modify index _).filterMap Call.visit? = s.calls.filterMap Call.visit?
  generalize s.calls = calls
  induction calls generalizing index with
  | nil => rw [List.modify_nil]
  | cons c calls ih =>
    cases index with
    | zero => rfl
    | succ index =>
      rw [List.modify_succ_cons, List.filterMap_cons, ih, ← List.filterMap_cons]

theorem beside_enqueue {e : Event} (h : e.wakes? = none) : Beside (enqueue e) := by
  have hwoken : ∀ s : Session, ((enqueue e).run s).2.woken = s.woken := by
    intro s
    show (s.queue ++ [e]).filterMap _ = _
    rw [List.filterMap_append, List.filterMap_cons_none h, List.filterMap_nil, List.append_nil]
    rfl
  exact fun s => ⟨rfl, hwoken s, congrArg (· ++ _) (hwoken s), rfl⟩

theorem beside_proceed {e : Event} (h : e.wakes? = none) : Beside (proceed e) := by
  have hwoken : ∀ s : Session, ((proceed e).run s).2.woken = s.woken :=
    fun s => List.filterMap_cons_none h
  exact fun s => ⟨rfl, hwoken s, congrArg (· ++ _) (hwoken s), rfl⟩

theorem beside_delay_call (a : Address) (index : Nat) : Beside (delay a (.call index)) := by
  refine fun s => ⟨rfl, rfl, congrArg (s.woken ++ ·) ?_, rfl⟩
  show (s.delays ++ [_]).filterMap _ = _
  rw [List.filterMap_append]
  exact List.append_nil _

theorem beside_job (i : Nat) : Beside (job i) := fun s => .refl s

theorem beside_setJob (i : Nat) (x : Job) : Beside (setJob i x) := fun _ => ⟨rfl, rfl, rfl, rfl⟩

theorem beside_process? (a : Address) : Beside (process? a) := by
  refine (beside_job _).bind fun x => ?_
  split <;> exact beside_pure _

theorem beside_setBranch (a : Address) (b : Branch) : Beside (setBranch a b) := by
  refine (beside_job _).bind fun x => ?_
  split
  · exact beside_setJob _ _
  · exact beside_setJob _ _
  · exact beside_pure _

theorem beside_finishBranch (a : Address) (r : Except Fault Value) : Beside (finishBranch a r) := by
  refine (beside_setBranch _ _).bind fun _ => (beside_job _).bind fun x => ?_
  split
  · exact beside_enqueue rfl
  · exact beside_pure _

theorem beside_receive (a : Address) (p : Process) (reply : Reply) :
    Beside (receive a p reply) := by
  refine beside_get fun s => (beside_noted _).bind fun progress => ?_
  split
  · exact beside_finishBranch _ _
  · exact beside_finishBranch _ _
  · exact (beside_setBranch _ _).bind fun _ => beside_proceed rfl

theorem beside_continueWith (a : Address) (p : Process) (reply : Option Reply) :
    Beside (continueWith a p reply) := by
  cases reply with
  | some reply => exact beside_receive a p reply
  | none => exact beside_pure _

theorem beside_report (a : Address) : Beside (report a) := by
  refine (beside_job _).bind fun x => ?_
  split
  · refine (beside_setJob _ _).bind fun _ => ?_
    split
    · exact beside_enqueue rfl
    · exact beside_pure _
  · exact beside_pure _

theorem beside_transmit (a : Address) {name : String} (params : Value)
    (h : name ≠ "client_enter" ∧ name ≠ "client_exit") : Beside (transmit a name params) := by
  refine (beside_record params h).bind fun index => ?_
  refine Beside.bind (fun _ => ⟨rfl, rfl, rfl, rfl⟩) fun response => ?_
  cases response with
  | returns v => exact beside_pure _
  | raises f => exact beside_pure _
  | hangs => exact (beside_delay_call a _).bind fun _ => beside_pure _

theorem beside_exchange (a : Address) (request : Request) : Beside (exchange a request) := by
  rw [exchange]
  split
  · exact beside_pure _
  · refine Beside.bind (beside_transmit a _ ?_) fun _ => beside_pure _
    cases request.operation <;> decide

/-! ### Requests -/

variable {s s' : Session} {t t' : Traffic} {past : List String} {options : Entries}

/-- A step that is some turns, if it is anything at all to the client. -/
def Carried (m : Play α) : Prop :=
  ∀ past options s t, s.Carries past options s.pending t →
    ((m.run s).2).Follows past options t

theorem Beside.carried {m : Play α} (h : Beside m) : Carried m :=
  fun _ _ _ _ hs => (Follows.of_carries hs).beside (h _)

/-- What is carried goes on with a step that is. -/
theorem follows_run (h : s.Follows past options t) {m : Play α} (hm : Carried m) :
    ((m.run s).2).Follows past options t := by
  obtain ⟨turns, t', hturns, hcarries⟩ := h
  exact (hm _ _ _ _ hcarries).after hturns

theorem Carried.bind {m : Play α} {f : α → Play β} (hm : Carried m) (hf : ∀ a, Carried (f a)) :
    Carried (m >>= f) := fun _ _ _ _ hs => follows_run (hm _ _ _ _ hs) (hf _)

theorem Carried.beside {m : Play α} {f : α → Play β} (hm : Carried m) (hf : ∀ a, Beside (f a)) :
    Carried (m >>= f) := hm.bind fun a => (hf a).carried

theorem run_changeClient {c : SharedClient} (hs : s.connection = .shared c options)
    (f : SharedClient → SharedClient) :
    (changeClient f).run s = ((), { s with connection := .shared (f c) options }) := by
  rw [changeClient, StateT.run_modify]
  simp only [hs]
  rfl

theorem beside_clientOptions : Beside clientOptions := by
  refine beside_get fun s => ?_
  split <;> exact beside_pure _

/-- A change of the client and what has nothing to do with it. -/
theorem beside_changeClient_bind {c : SharedClient} (hs : s.connection = .shared c options)
    (f : SharedClient → SharedClient) {g : Unit → Play β} (hg : Beside (g ())) :
    ({ s with connection := .shared (f c) options } : Session).Beside
      ((changeClient f >>= g).run s).2 := by
  have hrun : (changeClient f >>= g).run s = (g ()).run ((changeClient f).run s).2 := rfl
  rw [hrun, run_changeClient hs]
  exact hg _

/-- A client is taken into use and the request is sent to it. -/
theorem beside_sendOpened {c : SharedClient} (hs : s.connection = .shared c options) (a : Address)
    (k : Nat) (request : Request) :
    ({ s with connection := .shared (c.install k) options } : Session).Beside
      ((sendOpened a k request).run s).2 := by
  rw [sendOpened, install, bind_assoc]
  refine beside_changeClient_bind hs (fun c => c.install k) ?_
  rw [bind_assoc]
  refine beside_clientOptions.bind fun options => ?_
  rw [bind_assoc]
  exact beside_get fun s => (beside_note _).bind fun _ => beside_exchange _ _

theorem run_clientOptions_bind {c : SharedClient} (hs : s.connection = .shared c options)
    (f : Entries → Play β) : (clientOptions >>= f).run s = (f options).run s := by
  have hoptions : clientOptions.run s = (options, s) := by
    rw [clientOptions, run_get_bind, hs]
    rfl
  rw [StateT.run_bind, hoptions]
  rfl

theorem run_record_bind (operation : String) (params : Value) (f : Nat → Play β) (s : Session) :
    (record operation params >>= f).run s =
      (f s.calls.length).run ((record operation params).run s).2 := rfl

theorem run_modifyGet_bind (f : Session → α × Session) (g : α → Play β) (s : Session) :
    ((modifyGet f : Play α) >>= g).run s = (g (f s).1).run (f s).2 := rfl

/-- A context is created, or there is a fault. -/
theorem run_createContext {c : SharedClient} (hs : s.connection = .shared c options) :
    ∃ s', s.Beside s' ∧ ((∃ f, createContext.run s = (some f, s')) ∨
      createContext.run s = (none, { s' with connection := .shared c.create options })) := by
  rw [createContext, run_clientOptions_bind hs]
  cases asArguments options with
  | error f => exact ⟨s, .refl s, .inl ⟨f, rfl⟩⟩
  | ok arguments =>
    dsimp only
    rw [run_record_bind]
    have hrecorded : s.Beside ((record "create_client" (map (service :: arguments))).run s).2 :=
      beside_record _ (by decide) s
    generalize ((record "create_client" (map (service :: arguments))).run s).2 = recorded
      at hrecorded ⊢
    let s' : Session := { recorded with script := recorded.script.takeCreateFault.2 }
    have hs' : s'.connection = .shared c options := hrecorded.connection_eq.trans hs
    refine ⟨s', hrecorded.trans ⟨rfl, rfl, rfl, rfl⟩, ?_⟩
    rw [run_modifyGet_bind]
    dsimp only
    cases recorded.script.takeCreateFault.1 with
    | some f => exact .inl ⟨f, rfl⟩
    | none =>
      refine .inr ?_
      dsimp only
      rw [StateT.run_bind, run_changeClient hs']
      rfl

theorem pending_delay (s : Session) (a : Address) (k : Nat) (request : Request) :
    ((delay a (.opening k request)).run s).2.pending = s.pending ++ [k] := by
  show s.woken ++ (s.delays ++ [_]).filterMap _ = _
  rw [List.filterMap_append, ← List.append_assoc]
  rfl

/-- A request comes, and is sent, fails or waits. -/
theorem follows_sendShared (hs : s.Carries past options s.pending t) (a : Address)
    (request : Request) : ((sendShared a request t.client).run s).2.Follows past options t := by
  have hsub := s.woken_subset_pending
  have hnil := (List.append_nil s.visits).symm
  unfold sendShared
  cases hreach : t.client.reach with
  | inUse k =>
    have hstep : t.step (.request none) = some (t.note (.sent k)) := by
      rw [Traffic.step, Traffic.request, hreach]
    have hsent : s.Follows past options t :=
      hs.follows_turn hsub hstep hs.leaving hs.connection rfl hs.waiting ⟨_, rfl, hnil⟩
    exact hsent.beside (beside_exchange a request s)
  | opened k =>
    have hstep : t.step (.request none) =
        some ({ t with client := t.client.install k }.note (.sent k)) := by
      rw [Traffic.step, Traffic.request, hreach]
    have hsent : Follows past options { s with connection := .shared _ options } t :=
      hs.follows_turn hsub hstep hs.leaving rfl rfl hs.waiting ⟨_, rfl, hnil⟩
    exact hsent.beside (beside_sendOpened hs.connection a k request)
  | refused f =>
    have hstep : t.step (.request none) = some (t.note (.refused f)) := by
      rw [Traffic.step, Traffic.request, hreach]
    exact hs.follows_turn hsub hstep hs.leaving hs.connection rfl hs.waiting ⟨_, rfl, hnil⟩
  | waits k =>
    have hstep : t.step (.request none) = some { t with waiting := t.waiting ++ [k] } := by
      rw [Traffic.step, Traffic.request, hreach]
    refine hs.follows_turn hsub hstep hs.leaving hs.connection rfl ?_
      ⟨[], (List.append_nil _).symm, hnil⟩
    show (t.waiting ++ [k]).Perm ((delay a (.opening k request)).run s).2.pending
    rw [pending_delay]
    exact hs.waiting.append_right [k]
  | vacant =>
    obtain ⟨s', hbeside, ⟨f, hrun⟩ | hrun⟩ := run_createContext hs.connection
    · have hstep : t.step (.request (some f)) = some (t.note (.refused f)) := by
        rw [Traffic.step, Traffic.request, hreach]
      have hrefused : s.Follows past options t :=
        hs.follows_turn hsub hstep hs.leaving hs.connection rfl hs.waiting ⟨_, rfl, hnil⟩
      dsimp only
      rw [StateT.run_bind, hrun]
      exact hrefused.beside hbeside
    · have hstep : t.step (.request none) = some
          ({ t with client := t.client.create, waiting := t.waiting ++ [t.client.next] }.note
            (.created t.client.next)) := by
        rw [Traffic.step, Traffic.request, hreach]
      let created : Session := { s' with connection := .shared t.client.create options }
      let begun : Session := ((enqueue (.opening t.client.next)).run created).2
      have hbegun : created.Beside begun := beside_enqueue rfl created
      have hpending : begun.pending = s.pending := hbegun.pending_eq.trans hbeside.pending_eq
      dsimp only
      rw [StateT.run_bind, hrun]
      refine hs.follows_turn hsub hstep hs.leaving rfl
        (hbegun.woken_eq.trans hbeside.woken_eq) ?_
        ⟨_, rfl, (hbegun.visits_eq.trans hbeside.visits_eq).trans hnil⟩
      show (t.waiting ++ [t.client.next]).Perm
        ((delay a (.opening t.client.next request)).run begun).2.pending
      rw [pending_delay, hpending]
      exact hs.waiting.append_right _

theorem carried_send (a : Address) (request : Request) : Carried (send a request) := by
  intro past options s t hs
  rw [send, run_get_bind, hs.connection]
  dsimp only
  split
  · exact .of_carries hs
  · exact follows_sendShared hs a request

theorem carried_takeTurn (a : Address) : Carried (takeTurn a) := by
  refine (beside_process? a).carried.bind fun p => ?_
  cases p with
  | none => exact (beside_pure _).carried
  | some p =>
    intro past options s t hs
    rw [run_get_bind]
    refine Carried.bind (beside_noted _).carried (fun move => ?_) _ _ _ _ hs
    split
    · exact (beside_finishBranch _ _).carried
    · exact (beside_finishBranch _ _).carried
    · exact (carried_send a _).beside fun reply => beside_continueWith a p reply

/-! ### Openings -/

/-- A request goes on after the opening for which it has waited. -/
theorem follows_sendAfterOpening {k : Nat} (hs : s.Carries past options (k :: s.pending) t)
    (hdone : (t.client.stage k).isDone = true) (a : Address) (request : Request) :
    ((sendAfterOpening a k request).run s).2.Follows past options t := by
  obtain ⟨hwaits, hrest⟩ := List.cons_perm_iff_perm_erase.1 hs.waiting.symm
  have hsub := List.subset_cons_of_subset k s.woken_subset_pending
  have hnil := (List.append_nil s.visits).symm
  rw [sendAfterOpening, run_get_bind, hs.connection]
  dsimp only
  cases hstage : t.client.stage k with
  | created | entered =>
    rw [hstage] at hdone
    cases hdone
  | done fault =>
    cases fault with
    | some f =>
      have hstep := (Traffic.Steps.fails hwaits hstage).step_eq
      exact hs.follows_turn hsub hstep hs.leaving hs.connection rfl hrest.symm ⟨_, rfl, hnil⟩
    | none =>
      have hstep := (Traffic.Steps.wakes hwaits hstage).step_eq
      have hsent : Follows past options { s with connection := .shared _ options } t :=
        hs.follows_turn hsub hstep hs.leaving rfl rfl hrest.symm ⟨_, rfl, hnil⟩
      exact hsent.beside (beside_sendOpened hs.connection a k request)

/-- A branch goes on after the opening for which it has waited, or was given up since. -/
theorem follows_wake {k : Nat} (hs : s.Carries past options (k :: s.pending) t)
    (hdone : (t.client.stage k).isDone = true) (a : Address) (request : Request) :
    ((wake a k request).run s).2.Follows past options t := by
  have hbeside := beside_process? a s
  rw [wake, StateT.run_bind]
  generalize (process? a).run s = r at hbeside ⊢
  obtain ⟨p, s'⟩ := r
  have hs' : Carries past options _ s' t := hs.beside hbeside
  rw [← hbeside.pending_eq] at hs'
  cases p with
  | none =>
    -- The branch has ended in the meantime, so that its request is given up, too late for the
    -- opening.
    obtain ⟨hwaits, hrest⟩ := List.cons_perm_iff_perm_erase.1 hs'.waiting.symm
    have hstep := (Traffic.Steps.givesUp hwaits).step_eq
    rw [SharedClient.giveUp_of_isDone hdone] at hstep
    exact hs'.follows_turn (List.subset_cons_of_subset k s'.woken_subset_pending) hstep
      hs'.leaving hs'.connection rfl hrest.symm
      ⟨[], (List.append_nil _).symm, (List.append_nil _).symm⟩
  | some p =>
    have hsent := follows_sendAfterOpening hs' hdone a request
    exact hsent.beside (beside_continueWith a p _ _)

theorem wakeEvent?_self (k : Nat) (a : Address) (request : Request) :
    wakeEvent? k (a, .opening k request) = some (.wake a k request) := if_pos rfl

theorem wakeEvent?_of_ne {k j : Nat} (h : j ≠ k) (a : Address) (request : Request) :
    wakeEvent? k (a, .opening j request) = none := if_neg h

theorem wakes?_of_wakeEvent? {k j : Nat} {d : Address × Delay} {e : Event}
    (h : wakeEvent? k d = some e) (hj : e.wakes? = some j) : j = k := by
  obtain ⟨a, d⟩ := d
  cases d with
  | call index => cases h
  | opening i request =>
    by_cases hi : i = k
    · subst hi
      obtain rfl := Option.some.inj ((wakeEvent?_self i a request).symm.trans h)
      exact (Option.some.inj hj).symm
    · cases (wakeEvent?_of_ne hi a request).symm.trans h

/-- Whoever is woken up has waited before. -/
theorem perm_wakeEvent? (k : Nat) (delays : List (Address × Delay)) :
    ((delays.filterMap (wakeEvent? k)).filterMap Event.wakes? ++
      (delays.filter fun d => (wakeEvent? k d).isNone).filterMap fun d => d.2.opening?).Perm
      (delays.filterMap fun d => d.2.opening?) := by
  induction delays with
  | nil => exact .refl _
  | cons d delays ih =>
    obtain ⟨a, d⟩ := d
    cases d with
    | call index => exact ih
    | opening j request =>
      by_cases hj : j = k
      · subst hj
        have hwakes := wakeEvent?_self j a request
        rw [List.filterMap_cons_some hwakes, List.filter_cons_of_neg (by rw [hwakes]; simp)]
        exact ih.cons j
      · have hwaits := wakeEvent?_of_ne hj a request
        rw [List.filterMap_cons_none hwaits, List.filter_cons_of_pos (by rw [hwaits]; rfl)]
        exact List.perm_middle.trans (ih.cons j)

/-- Branches that wait for an opening that is over go on. -/
theorem carries_wakeAll {k : Nat} (hs : s.Carries past options s.pending t)
    (hdone : (t.client.stage k).isDone = true) :
    ((wakeAll k).run s).2.Carries past options ((wakeAll k).run s).2.pending t where
  connection := hs.connection
  leaving := hs.leaving
  waiting := by
    refine hs.waiting.trans ?_
    show s.pending.Perm ((s.queue ++ s.delays.filterMap (wakeEvent? k)).filterMap Event.wakes? ++ _)
    rw [List.filterMap_append, List.append_assoc]
    exact (perm_wakeEvent? k s.delays).symm.append_left s.woken
  ended j hj := by
    have hj : j ∈ (s.queue ++ s.delays.filterMap (wakeEvent? k)).filterMap Event.wakes? := hj
    rw [List.filterMap_append] at hj
    rcases List.mem_append.1 hj with hj | hj
    · exact hs.ended j hj
    · obtain ⟨e, he, hwakes⟩ := List.mem_filterMap.1 hj
      obtain ⟨d, -, hd⟩ := List.mem_filterMap.1 he
      rwa [wakes?_of_wakeEvent? hd hwakes]
  begun := hs.begun
  visits := hs.visits

/-- An opening is over, and those who have waited for it go on. -/
theorem follows_over {k : Nat} {fault : Option Fault} {f : SharedClient → SharedClient}
    (hs : s.Carries past options s.pending t)
    (hstep : t.step (.opening k fault) = some { t with client := f t.client })
    (hdone : ((f t.client).stage k).isDone = true) :
    ((changeClient f >>= fun _ => wakeAll k : Play Unit).run s).2.Follows past options t := by
  let changed : Session := { s with connection := .shared (f t.client) options }
  have hchanged : changed.Carries past options changed.pending { t with client := f t.client } :=
    hs.turn s.woken_subset_pending hstep hs.leaving rfl rfl hs.waiting
      ⟨[], (List.append_nil _).symm, (List.append_nil _).symm⟩
  rw [StateT.run_bind, run_changeClient hs.connection]
  exact (Follows.of_carries (carries_wakeAll hchanged hdone)).turn hstep

theorem carried_continueOpening (k : Nat) : Carried (continueOpening k) := by
  intro past options s t hs
  have hsub := s.woken_subset_pending
  rw [continueOpening, run_get_bind, hs.connection]
  dsimp only
  cases hstage : t.client.stage k with
  | created =>
    cases hgivenUp : t.client.isGivenUp k with
    | true =>
      have hstep : t.step (.opening k none) = some { t with client := t.client.enter k } := by
        simp only [Traffic.step, Traffic.opening, hstage, hgivenUp, if_true]
      have hdone : ((t.client.enter k).stage k).isDone = true := by
        rw [SharedClient.enter, hgivenUp]
        exact SharedClient.isDone_setStage _ _ _
      exact follows_over hs hstep hdone
    | false =>
      have hstep := (Traffic.Steps.enters none hstage hgivenUp).step_eq
      have henter : t.client.enter k = t.client.setStage k .entered := by
        rw [SharedClient.enter, hgivenUp]
        rfl
      let entered : Session :=
        { s with
          connection := .shared (t.client.setStage k .entered) options
          calls := s.calls ++ [⟨"client_enter", null, false⟩] }
      have hvisits : entered.visits = s.visits ++ ["client_enter"] := List.filterMap_append
      have hentered : entered.Follows past options t :=
        hs.follows_turn hsub hstep hs.leaving rfl rfl hs.waiting ⟨_, rfl, hvisits⟩
      rw [if_neg Bool.false_ne_true, StateT.run_bind, run_changeClient hs.connection, henter]
      exact hentered.beside (beside_enqueue rfl entered)
  | entered =>
    have hstep : ∀ fault, t.step (.opening k fault) =
        some { t with client := t.client.finish k fault } := by
      intro fault
      rw [Traffic.step, Traffic.opening, hstage]
    have hdone : ∀ fault, ((t.client.finish k fault).stage k).isDone = true :=
      fun fault => SharedClient.isDone_setStage _ _ _
    cases t.client.isGivenUp k with
    | true => exact follows_over hs (hstep none) (hdone none)
    | false =>
      have htaken : s.Beside { s with script := s.script.takeOpenFault.2 } := ⟨rfl, rfl, rfl, rfl⟩
      exact follows_over (hs.beside htaken) (hstep _) (hdone _)
  | done f => exact .of_carries hs

/-- What branches have waited for is taken back, and the others wait on. -/
theorem carries_takeBack (delays : List (Address × Delay)) {rest : List Nat} (hsub : s.woken ⊆ rest)
    (hs : s.Carries past options (delays.filterMap (fun d => d.2.opening?) ++ rest) t) :
    ∃ turns t' s', t.after turns = some t' ∧
      (delays.forM fun d => takeBackDelay d.2).run s = ((), s') ∧
      s'.Carries past options rest t' ∧ s'.queue = s.queue ∧ s'.delays = s.delays := by
  -- The traffic forgets those who waited one by one, the session all of them at the end; so what
  -- is pending is followed apart from the session.
  induction delays generalizing s t with
  | nil => exact ⟨[], t, s, rfl, rfl, hs, rfl, rfl⟩
  | cons d delays ih =>
    obtain ⟨a, d⟩ := d
    cases d with
    | call index =>
      have htaken := beside_takeBack index s
      obtain ⟨turns, t', s', hturns, hrun, hs', hqueue, hdelays⟩ :=
        ih (htaken.woken_eq ▸ hsub) (hs.beside htaken)
      exact ⟨turns, t', s', hturns, hrun, hs', hqueue, hdelays⟩
    | opening k request =>
      obtain ⟨hwaits, hrest⟩ := List.cons_perm_iff_perm_erase.1 hs.waiting.symm
      have hstep := (Traffic.Steps.givesUp hwaits).step_eq
      let changed : Session := { s with connection := .shared (t.client.giveUp k) options }
      have hchanged : changed.Carries past options _ _ :=
        hs.turn (fun j hj => List.mem_append_right _ (hsub hj)) hstep hs.leaving rfl rfl hrest.symm
          ⟨[], (List.append_nil _).symm, (List.append_nil _).symm⟩
      obtain ⟨turns, t', s', hturns, hrun, hs', hqueue, hdelays⟩ := ih (s := changed) hsub hchanged
      refine ⟨.giveUp k :: turns, t', s', ?_, ?_, hs', hqueue, hdelays⟩
      · rw [Traffic.after, hstep]
        exact hturns
      · show (delays.forM fun d => takeBackDelay d.2).run
          ((changeClient fun c => c.giveUp k).run s).2 = _
        rw [run_changeClient hs.connection]
        exact hrun

theorem carried_abandon (a : Address) : Carried (abandon a) := by
  intro past options s t hs
  let own := s.delays.filter fun d => d.1 = a
  let others := s.delays.filter fun d => d.1 ≠ a
  have hperm : s.pending.Perm (own.filterMap (fun d => d.2.opening?) ++
      (s.woken ++ others.filterMap fun d => d.2.opening?)) := by
    have hdelays : (own ++ others).Perm s.delays := by
      have hnot : others = s.delays.filter fun d => !decide (d.1 = a) :=
        List.filter_congr fun d _ => decide_not
      rw [hnot]
      exact List.filter_append_perm _ _
    have hopenings := hdelays.symm.filterMap fun d => d.2.opening?
    rw [List.filterMap_append] at hopenings
    refine (hopenings.append_left s.woken).trans ?_
    rw [← List.append_assoc, ← List.append_assoc]
    exact List.perm_append_comm.append_right _
  obtain ⟨turns, t', s', hturns, hrun, hs', hqueue, hdelays⟩ :=
    carries_takeBack own (List.subset_append_left s.woken _)
      { hs with waiting := hs.waiting.trans hperm }
  have habandoned : (abandon a).run s =
      (modify fun s => { s with delays := s.delays.filter fun d => d.1 ≠ a } : Play Unit).run
        ((own.forM fun d => takeBackDelay d.2).run s).2 := rfl
  rw [habandoned, hrun]
  refine Follows.after hturns (Follows.of_carries ?_)
  show Carries past options ({ s' with delays := s'.delays.filter _ } : Session).pending _ t'
  rw [hdelays]
  have hpending : s.woken ++ others.filterMap (fun d => d.2.opening?) =
      ({ s' with delays := others } : Session).pending := by
    show _ = s'.queue.filterMap _ ++ _
    rw [hqueue]
    rfl
  rw [hpending] at hs'
  exact { hs' with }

theorem carried_leave : Carried leave := by
  intro past options s t hs
  rw [leave, run_get_bind, hs.connection]
  dsimp only
  cases hcontext : t.client.context with
  | none =>
    have hstep := (Traffic.Steps.closes hcontext).step_eq
    show ((changeClient SharedClient.close).run s).2.Follows past options t
    rw [run_changeClient hs.connection]
    exact hs.follows_turn s.woken_subset_pending hstep hs.leaving rfl rfl hs.waiting
      ⟨_, rfl, (List.append_nil _).symm⟩
  | some k =>
    -- Leaving the context and the end of the close are two turns, between which nobody else comes.
    let exited : Session := ((record "client_exit" null).run s).2
    have hexited : exited.connection = .shared t.client options := hs.connection
    show ((changeClient SharedClient.close).run exited).2.Follows past options t
    rw [run_changeClient hexited]
    have hvisits : exited.visits = s.visits ++ ["client_exit"] := List.filterMap_append
    have hleaves := (Traffic.Steps.leaves hcontext).step_eq
    let leaving : Traffic := { t with leaving := t.leaving ++ [k] }.note (.left k)
    have hcloses := (Traffic.Steps.left (t := leaving) (k := k) List.mem_concat_self).step_eq
    refine Follows.turn hleaves (Follows.turn hcloses (Follows.of_carries ?_))
    refine ⟨rfl, ?_, hs.waiting, hs.ended, hs.begun, ?_⟩
    · show (t.leaving ++ [k]).erase k = []
      rw [hs.leaving, List.nil_append, List.erase_cons_head]
    · show ((t.deeds ++ [Deed.left k]) ++ [Deed.closed]).filterMap Deed.visit? =
        past ++ exited.visits
      rw [hvisits, List.filterMap_append, List.filterMap_append, hs.visits, List.append_assoc,
        List.append_assoc]
      rfl

/-! ### Events -/

theorem beside_finish (i : Nat) (r : Except Fault Output) : Beside (finish i r) := beside_setJob _ _

theorem carried_resume (i : Nat) : Carried (resume i) := by
  refine (beside_job i).carried.bind fun x => ?_
  split
  · intro past options s t hs
    rw [run_get_bind]
    split
    · exact (beside_pure _).carried _ _ _ _ hs
    · refine Carried.bind (beside_setJob _ _).carried (fun _ => ?_) _ _ _ _ hs
      refine (carried_abandon _).bind fun _ => (carried_abandon _).bind fun _ => ?_
      exact ((beside_noted _).bind fun _ => beside_finish _ _).carried
  · exact (beside_pure _).carried

theorem carried_leaving : Carried leaving := carried_leave.bind fun _ => (beside_pure _).carried

theorem carried_asContext (i : Nat) {act : Play Value} (h : Carried act) :
    Carried (asContext i act) := by
  intro past options s t hs
  rw [asContext, run_get_bind, hs.connection]
  exact (h.beside fun _ => beside_finish _ _) _ _ _ _ hs

theorem carried_startJob (i : Nat) : Carried (startJob i) := by
  refine (beside_job i).carried.bind fun x => ?_
  split
  · intro past options s t hs
    rw [run_get_bind]
    refine Carried.bind (beside_noted _).carried (fun r => ?_) _ _ _ _ hs
    split
    · exact (beside_finish _ _).carried
    · exact ((beside_setJob _ _).bind fun _ => beside_proceed rfl).carried
    · refine ((beside_setJob _ _).bind fun _ => (beside_enqueue rfl).bind fun _ => ?_).carried
      split
      · exact beside_enqueue rfl
      · exact beside_pure _
    · exact (beside_finish _ _).carried
    · exact carried_leaving.beside fun _ => beside_finish _ _
    · exact carried_asContext _ (beside_pure _).carried
    · exact carried_asContext _ carried_leaving
  · exact (beside_pure _).carried

/-- Every event is some turns. -/
theorem follows_handle {e : Event} {es : List Event} (hqueue : s.queue = e :: es)
    (hs : s.Carries past options s.pending t) :
    ((handle e).run { s with queue := es }).2.Follows past options t := by
  let rest : Session := { s with queue := es }
  have hwoken : s.woken = e.wakes?.toList ++ rest.woken := by
    rw [woken, hqueue]
    cases he : e.wakes? with
    | none => exact List.filterMap_cons_none he
    | some k => exact List.filterMap_cons_some he
  have hpending : s.pending = e.wakes?.toList ++ rest.pending := by
    rw [pending, hwoken, List.append_assoc]
    rfl
  have hrest : rest.Carries past options (e.wakes?.toList ++ rest.pending) t :=
    { connection := hs.connection
      leaving := hs.leaving
      waiting := hpending ▸ hs.waiting
      ended := fun k hk => hs.ended k (hwoken ▸ List.mem_append_right _ hk)
      begun := hs.begun
      visits := hs.visits }
  cases e with
  | start i => exact carried_startJob i _ _ _ _ hrest
  | turn a => exact carried_takeTurn a _ _ _ _ hrest
  | wake a k request =>
    exact follows_wake hrest (hs.ended k (hwoken ▸ List.mem_cons_self)) a request
  | report a => exact (beside_report a).carried _ _ _ _ hrest
  | resume i => exact carried_resume i _ _ _ _ hrest
  | opening k => exact carried_continueOpening k _ _ _ _ hrest

/-- All events in the queue are some turns. -/
theorem carried_drain (n : Nat) : Carried (drain n) := by
  induction n with
  | zero => exact (beside_pure _).carried
  | succ n ih =>
    intro past options s t hs
    cases hqueue : s.queue with
    | nil =>
      rw [drain, StateT.run_bind, run_nextEvent?_nil hqueue]
      exact .of_carries hs
    | cons e es =>
      rw [drain, StateT.run_bind, run_nextEvent?_cons hqueue]
      exact follows_run (follows_handle hqueue hs) ih

end Play

/-! ### Whole sessions -/

/-- Tasks that are done side by side, over a shared client for which nobody waits, are turns of the
traffic at it: the client goes through the turns, and contexts are entered and left as in them. -/
theorem Session.perform_carries {s : Session} {t : Traffic} {options : Entries}
    (hs : s.connection = .shared t.client options) (hwaiting : t.waiting = [])
    (hleaving : t.leaving = []) (tasks : List Task) :
    ∃ turns t', t.after turns = some t' ∧
      (s.perform tasks).2.connection = .shared t'.client options ∧
      t'.waiting.Perm (s.perform tasks).2.pending ∧ t'.leaving = [] ∧
      t'.deeds.filterMap Deed.visit? =
        t.deeds.filterMap Deed.visit? ++ (s.perform tasks).2.visits := by
  let begun : Session :=
    { s with
      jobs := tasks.map .fresh
      queue := (List.range tasks.length).map .start
      delays := []
      calls := []
      notices := [] }
  have hwoken : begun.woken = [] := by
    show ((List.range tasks.length).map Event.start).filterMap _ = []
    rw [List.filterMap_map]
    exact List.filterMap_eq_nil_iff.2 fun _ _ => rfl
  have hpending : begun.pending = [] := by
    rw [pending, hwoken]
    rfl
  have hbegun : begun.Carries (t.deeds.filterMap Deed.visit?) options begun.pending t := by
    refine ⟨hs, hleaving, ?_, ?_, ?_, (List.append_nil _).symm⟩
    · rw [hwaiting, hpending]
    · simp [hwoken]
    · simp [hwaiting]
  obtain ⟨turns, t', hturns, hcarries⟩ :=
    Play.carried_drain (Play.eventBound begun) _ _ _ _ hbegun
  exact ⟨turns, t', hturns, hcarries.connection, hcarries.waiting, hcarries.leaving,
    hcarries.visits⟩

end KeysetQuery

import KeysetQuery.Proofs.Client.Traffic
import Mathlib.Data.List.DropRight

/-!
# Periods of the shared client

Where closes come and go only while no request is under way, closes divide the traffic into
periods, and each period has a client of its own.

* `Traffic.Quiet` — closes keep away from requests;
* `Traffic.current` — what was done since the last close was over;
* `Stretch`, `Period` — what is done in a period;
* `Traffic.Orderly`, `Orderly.steps` — what holds in quiet traffic;
* `Traffic.Tallied`, `Tallied.steps` — without failures each request of a period was sent or waits;
* `exists_after_waiting_eq_nil` — and those who wait can go on until all of them were sent;
* `periods_of_quiet` — a period creates at most one context, enters it at most once and before
  anything is sent, sends every request to it, and each close leaves it once.
-/

namespace KeysetQuery

/-! ### Periods -/

def Deed.isClosed : Deed → Bool
  | .closed => true
  | _ => false

def Deed.isSent : Deed → Bool
  | .sent _ => true
  | _ => false

/-- How many turns an opening takes until it is over. -/
def OpeningStage.turnsLeft : OpeningStage → Nat
  | .created => 2
  | .entered => 1
  | .done _ => 0

/-- What is done in a period after its context was created, by the stage of the opening. -/
inductive Stretch (k : Nat) : OpeningStage → List Deed → Prop
  | created : Stretch k .created []
  | entered : Stretch k .entered [.entered k]
  | opened {sent : List Deed} (hsent : ∀ d ∈ sent, d = .sent k) :
    Stretch k (.done none) (.entered k :: sent)
  | failed {begun refused : List Deed} {f : Fault} (hbegun : begun = [] ∨ begun = [.entered k])
    (hrefused : ∀ d ∈ refused, d = .refused f) : Stretch k (.done (some f)) (begun ++ refused)

/-- What is done in a period so far, with a number of closes under way.  Before a context is
created, requests may fail to create one; at the end each close begins to leave it. -/
inductive Period (c : SharedClient) (closes : Nat) : List Deed → Prop
  | idle {barred : List Deed} (hcontext : c.context = none)
    (hbarred : ∀ d ∈ barred, ∃ f, d = .refused f) : Period c closes barred
  | busy {k : Nat} {barred served : List Deed} (hcontext : c.context = some k)
    (hbarred : ∀ d ∈ barred, ∃ f, d = .refused f) (hserved : Stretch k (c.stage k) served) :
    Period c closes (barred ++ .created k :: (served ++ List.replicate closes (.left k)))

namespace Stretch

variable {k : Nat} {served : List Deed} {f : Fault}

theorem send (h : Stretch k (.done none) served) :
    Stretch k (.done none) (served ++ [.sent k]) := by
  cases h with
  | opened hsent =>
    refine .opened fun d hd => ?_
    rcases List.mem_append.1 hd with hd | hd
    · exact hsent d hd
    · exact List.mem_singleton.1 hd

theorem refuse (h : Stretch k (.done (some f)) served) :
    Stretch k (.done (some f)) (served ++ [.refused f]) := by
  cases h with
  | failed hbegun hrefused =>
    rw [List.append_assoc]
    refine .failed hbegun fun d hd => ?_
    rcases List.mem_append.1 hd with hd | hd
    · exact hrefused d hd
    · exact List.mem_singleton.1 hd

theorem cancel (h : Stretch k .created served) : Stretch k (.done (some f)) served := by
  cases h
  show Stretch k _ ([] ++ [])
  exact .failed (.inl rfl) (by simp)

theorem finish (h : Stretch k .entered served) (fault : Option Fault) :
    Stretch k (.done fault) served := by
  cases h
  cases fault with
  | none => exact .opened (by simp)
  | some f =>
    show Stretch k _ ([.entered k] ++ [])
    exact .failed (.inr rfl) (by simp)

theorem eq_of_sent {s : OpeningStage} {j : Nat} (h : Stretch k s served)
    (hsent : .sent j ∈ served) : j = k := by
  cases h with
  | created => cases hsent
  | entered => simp at hsent
  | opened hserved =>
    rcases List.mem_cons.1 hsent with heq | hsent
    · cases heq
    · exact Deed.sent.inj (hserved _ hsent)
  | failed hbegun hrefused =>
    rcases List.mem_append.1 hsent with hsent | hsent
    · rcases hbegun with rfl | rfl
      · cases hsent
      · simp at hsent
    · cases hrefused _ hsent

end Stretch

namespace Period

variable {c c' : SharedClient} {closes k : Nat} {ds : List Deed} {f : Fault}

/-- A period depends on the current context and its opening alone. -/
theorem congr (h : Period c closes ds) (hcontext : c'.context = c.context)
    (hstage : ∀ k, c.context = some k → c'.stage k = c.stage k) : Period c' closes ds := by
  cases h with
  | idle hc hbarred => exact .idle (hcontext.trans hc) hbarred
  | busy hc hbarred hserved =>
    exact .busy (hcontext.trans hc) hbarred ((hstage _ hc).symm ▸ hserved)

theorem create (h : Period c 0 ds) (hc : c.context = none) :
    Period c.create 0 (ds ++ [.created c.next]) := by
  cases h with
  | idle _ hbarred =>
    show Period c.create 0 (_ ++ .created c.next :: ([] ++ List.replicate 0 (.left c.next)))
    refine .busy rfl hbarred ?_
    rw [SharedClient.stage_create, if_pos rfl]
    exact .created
  | busy hcontext =>
    rw [hc] at hcontext
    cases hcontext

/-- What is done while no close is under way stands at the end. -/
theorem snoc {d : Deed} (h : Period c 0 ds) (hc : c.context = some k)
    (hcontext : c'.context = some k)
    (hd : ∀ served, Stretch k (c.stage k) served → Stretch k (c'.stage k) (served ++ [d])) :
    Period c' 0 (ds ++ [d]) := by
  cases h with
  | idle hnone =>
    rw [hc] at hnone
    cases hnone
  | busy hk hbarred hserved =>
    obtain rfl := Option.some.inj (hc.symm.trans hk)
    rw [List.replicate_zero, List.append_nil, List.append_assoc, List.cons_append]
    have hbusy : Period c' 0 _ := .busy hcontext hbarred (hd _ hserved)
    rwa [List.replicate_zero, List.append_nil] at hbusy

theorem bar (h : Period c closes ds) (hc : c.context = none) (f : Fault) :
    Period c closes (ds ++ [.refused f]) := by
  cases h with
  | idle _ hbarred =>
    refine .idle hc fun d hd => ?_
    rcases List.mem_append.1 hd with hd | hd
    · exact hbarred d hd
    · exact ⟨f, List.mem_singleton.1 hd⟩
  | busy hcontext =>
    rw [hc] at hcontext
    cases hcontext

/-- An opening goes on, of this period or of an earlier one. -/
theorem restage (h : Period c closes ds) {s : OpeningStage}
    (hs : ∀ served, Stretch k (c.stage k) served → Stretch k s served) :
    Period (c.setStage k s) closes ds := by
  cases h with
  | idle hc hbarred => exact .idle hc hbarred
  | @busy j _ _ hc hbarred hserved =>
    refine .busy hc hbarred ?_
    rw [SharedClient.stage_setStage]
    split
    · rename_i heq
      obtain ⟨rfl, -⟩ := heq
      exact hs _ hserved
    · exact hserved

/-- What is sent is sent to the current context. -/
theorem context_of_sent (h : Period c closes ds) (hsent : .sent k ∈ ds) : c.context = some k := by
  cases h with
  | idle hnone hbarred =>
    obtain ⟨f, hf⟩ := hbarred _ hsent
    cases hf
  | busy hk hbarred hserved =>
    simp only [List.mem_append, List.mem_cons, List.mem_replicate, reduceCtorEq, false_or,
      and_false, or_false] at hsent
    rcases hsent with hsent | hsent
    · obtain ⟨f, hf⟩ := hbarred _ hsent
      cases hf
    · rwa [hserved.eq_of_sent hsent]

theorem leave (h : Period c closes ds) (hc : c.context = some k) :
    Period c (closes + 1) (ds ++ [.left k]) := by
  cases h with
  | idle hnone =>
    rw [hc] at hnone
    cases hnone
  | busy hk hbarred hserved =>
    obtain rfl := Option.some.inj (hc.symm.trans hk)
    have hbusy : Period c (closes + 1) _ := .busy hc hbarred hserved
    rwa [List.replicate_succ', ← List.append_assoc, ← List.cons_append, ← List.append_assoc]
      at hbusy

end Period

namespace Traffic

variable {t t' : Traffic}

/-! ### Quiet traffic -/

/-- Closes keep away from requests: no request comes while a close is under way, and no close comes
while a request waits. -/
def Quiet (t : Traffic) : Turn → Prop
  | .request _ => t.leaving = []
  | .close => t.waiting = []
  | _ => True

instance (t : Traffic) (x : Turn) : Decidable (Quiet t x) :=
  match x with
  | .request _ => inferInstanceAs (Decidable (t.leaving = []))
  | .close => inferInstanceAs (Decidable (t.waiting = []))
  | .opening _ _ | .wake _ | .giveUp _ | .left _ => isTrue trivial

/-- What was done since the last close was over. -/
def current (t : Traffic) : List Deed := t.deeds.rtakeWhile fun d => !d.isClosed

theorem current_note {d : Deed} (h : d.isClosed = false) :
    (t.note d).current = t.current ++ [d] := by
  rw [current, note, List.rtakeWhile_concat, h]
  rfl

theorem current_note_closed (t : Traffic) : (t.note .closed).current = [] := by
  rw [current, note, List.rtakeWhile_concat]
  rfl

/-- How the client, the requests that wait and the closes under way stand in quiet traffic. -/
structure Settled (c : SharedClient) (waiting leaving : List Nat) : Prop where
  client : ∀ {k}, c.client = some k → c.context = some k ∧ c.stage k = .done none
  waits : ∀ {k}, k ∈ waiting → c.context = some k
  leaves : ∀ {j k}, j ∈ leaving → c.context = some k → j = k
  apart : leaving ≠ [] → waiting = []

namespace Settled

variable {c : SharedClient} {waiting leaving : List Nat} {k : Nat}

theorem leaving_eq_nil (h : Settled c waiting leaving) (hk : k ∈ waiting) : leaving = [] := by
  by_contra hleaving
  rw [h.apart hleaving] at hk
  cases hk

/-- A request that waited goes on, or is given up. -/
theorem erase (h : Settled c waiting leaving) (k : Nat) : Settled c (waiting.erase k) leaving where
  client := h.client
  waits hj := h.waits (List.mem_of_mem_erase hj)
  leaves := h.leaves
  apart hleaving := by rw [h.apart hleaving]; rfl

theorem install (h : Settled c waiting leaving) (hcontext : c.context = some k)
    (hstage : c.stage k = .done none) : Settled (c.install k) waiting leaving where
  client hj := by
    obtain rfl := Option.some.inj hj
    exact ⟨hcontext, hstage⟩
  waits := h.waits
  leaves := h.leaves
  apart := h.apart

/-- An opening that was not over goes on. -/
theorem setStage (h : Settled c waiting leaving) (hstage : (c.stage k).isDone = false)
    (s : OpeningStage) : Settled (c.setStage k s) waiting leaving where
  client {j} hj := by
    obtain ⟨hcontext, hdone⟩ := h.client hj
    refine ⟨hcontext, ?_⟩
    exact (SharedClient.stage_setStage_of_isDone hstage (by rw [hdone]; rfl) s).trans hdone
  waits := h.waits
  leaves := h.leaves
  apart := h.apart

theorem steps {x : Turn} (h : Settled t.client t.waiting t.leaving) (hquiet : Quiet t x)
    (hstep : Steps t x t') : Settled t'.client t'.waiting t'.leaving := by
  cases hstep with
  | inUse | refused | barred => exact h
  | opened fault hclient hcontext hstage => exact h.install hcontext hstage
  | waits fault hclient hcontext hstage =>
    refine ⟨h.client, fun hj => ?_, h.leaves, fun hleaving => absurd hquiet hleaving⟩
    rcases List.mem_append.1 hj with hj | hj
    · exact h.waits hj
    · rw [List.mem_singleton.1 hj]
      exact hcontext
  | creates hclient hcontext =>
    refine ⟨fun hj => ?_, fun hj => ?_, fun hj => ?_, fun hleaving => absurd hquiet hleaving⟩
    · cases hclient.symm.trans hj
    · rcases List.mem_append.1 hj with hj | hj
      · cases hcontext.symm.trans (h.waits hj)
      · rw [List.mem_singleton.1 hj]
        rfl
    · rw [show t.leaving = [] from hquiet] at hj
      cases hj
  | enters fault hstage | entersNot fault hstage | finishes fault hstage =>
    exact h.setStage (by rw [hstage]; rfl) _
  | wakes hwaits hstage => exact (h.erase _).install (h.waits hwaits) hstage
  | fails => exact h.erase _
  | givesUp hwaits =>
    refine ⟨fun hj => ?_, (h.erase _).waits, h.leaves, (h.erase _).apart⟩
    rw [SharedClient.stage_giveUp]
    exact h.client hj
  | closes hcontext =>
    refine ⟨fun hj => (by cases hj), fun hj => ?_, fun _ hj => (by cases hj), h.apart⟩
    cases hcontext.symm.trans (h.waits hj)
  | leaves hcontext =>
    refine ⟨h.client, h.waits, fun hj hk => ?_, fun _ => hquiet⟩
    rcases List.mem_append.1 hj with hj | hj
    · exact h.leaves hj hk
    · rw [List.mem_singleton.1 hj]
      exact Option.some.inj (hcontext.symm.trans hk)
  | left hleaving =>
    have hwaiting := h.apart (List.ne_nil_of_mem hleaving)
    refine ⟨fun hj => (by cases hj), fun hj => ?_, fun _ hj => (by cases hj), fun _ => hwaiting⟩
    rw [show _ = [] from hwaiting] at hj
    cases hj

end Settled

/-- What holds in quiet traffic. -/
structure Orderly (t : Traffic) : Prop where
  sound : Sound t
  settled : Settled t.client t.waiting t.leaving
  period : Period t.client t.leaving.length t.current

theorem orderly_unused : Orderly unused where
  sound := sound_unused
  settled :=
    ⟨fun hk => (by cases hk), fun hk => (by cases hk), fun hj => (by cases hj), fun _ => rfl⟩
  period := .idle rfl (by simp [current, unused])

namespace Orderly

/-- What is done while no close is under way belongs to the current period. -/
theorem period_note (h : Orderly t) (hleaving : t.leaving = []) (c : SharedClient)
    (waiting : List Nat) {k : Nat} {d : Deed} (hd : d.isClosed = false)
    (hcontext : t.client.context = some k) (hc : c.context = some k)
    (hstretch : ∀ served, Stretch k (t.client.stage k) served →
      Stretch k (c.stage k) (served ++ [d])) :
    Period c t.leaving.length ({ t with client := c, waiting := waiting }.note d).current := by
  have hperiod := h.period
  rw [current_note hd]
  rw [hleaving] at hperiod ⊢
  exact hperiod.snoc hcontext hc hstretch

theorem period_steps {x : Turn} (h : Orderly t) (hquiet : Quiet t x) (hstep : Steps t x t') :
    Period t'.client t'.leaving.length t'.current := by
  cases hstep with
  | inUse fault hclient =>
    obtain ⟨hcontext, hstage⟩ := h.settled.client hclient
    refine h.period_note hquiet t.client t.waiting rfl hcontext hcontext ?_
    rw [hstage]
    exact fun _ hserved => hserved.send
  | @opened fault k hclient hcontext hstage =>
    refine h.period_note hquiet (t.client.install k) t.waiting rfl hcontext hcontext ?_
    show ∀ served, Stretch k _ served → Stretch k (t.client.stage k) _
    rw [hstage]
    exact fun _ hserved => hserved.send
  | refused fault hclient hcontext hstage =>
    refine h.period_note hquiet t.client t.waiting rfl hcontext hcontext ?_
    rw [hstage]
    exact fun _ hserved => hserved.refuse
  | waits => exact h.period
  | barred f hclient hcontext =>
    rw [current_note rfl]
    exact h.period.bar hcontext f
  | creates hclient hcontext =>
    have hperiod := h.period
    rw [current_note rfl]
    show Period _ t.leaving.length _
    rw [show t.leaving = [] from hquiet] at hperiod ⊢
    exact hperiod.create hcontext
  | @enters fault k hstage hwanted =>
    have hwaits := h.sound.wanted (by rw [hstage]; rfl) hwanted
    have hcontext := h.settled.waits hwaits
    refine h.period_note (h.settled.leaving_eq_nil hwaits) (t.client.setStage k .entered)
      t.waiting rfl hcontext hcontext fun served hserved => ?_
    rw [hstage] at hserved
    have hlt : k < t.client.next := SharedClient.lt_next (by rw [hstage]; simp)
    rw [SharedClient.stage_setStage, if_pos ⟨rfl, hlt⟩]
    cases hserved
    exact .entered
  | entersNot fault hstage =>
    refine h.period.restage ?_
    rw [hstage]
    exact fun _ hserved => hserved.cancel
  | finishes fault hstage =>
    refine h.period.restage ?_
    rw [hstage]
    exact fun _ hserved => hserved.finish _
  | @wakes k hwaits hstage =>
    have hcontext := h.settled.waits hwaits
    refine h.period_note (h.settled.leaving_eq_nil hwaits) (t.client.install k)
      (t.waiting.erase k) rfl hcontext hcontext ?_
    show ∀ served, Stretch k _ served → Stretch k (t.client.stage k) _
    rw [hstage]
    exact fun _ hserved => hserved.send
  | @fails k f hwaits hstage =>
    have hcontext := h.settled.waits hwaits
    refine h.period_note (h.settled.leaving_eq_nil hwaits) t.client
      (t.waiting.erase k) rfl hcontext hcontext ?_
    rw [hstage]
    exact fun _ hserved => hserved.refuse
  | givesUp hwaits => exact h.period.congr rfl fun j _ => SharedClient.stage_giveUp _ _ _
  | closes hcontext =>
    rw [current_note_closed]
    exact .idle rfl (by simp)
  | leaves hcontext =>
    rw [current_note rfl]
    show Period _ (t.leaving ++ [_]).length _
    rw [List.length_append]
    exact h.period.leave hcontext
  | left =>
    rw [current_note_closed]
    exact .idle rfl (by simp)

/-- Quiet traffic stays orderly. -/
theorem steps {x : Turn} (h : Orderly t) (hquiet : Quiet t x) (hstep : Steps t x t') :
    Orderly t' :=
  ⟨h.sound.steps hstep, h.settled.steps hquiet hstep, h.period_steps hquiet hstep⟩

theorem of_quiet {turns : List Turn} (hquiet : unused.Along Quiet turns)
    (h : unused.after turns = some t) : Orderly t :=
  invariant_after (fun h hquiet hstep => h.steps hquiet hstep) orderly_unused hquiet h

/-- After a close there is no context. -/
theorem context_of_nil (h : Orderly t) (hcurrent : t.current = []) : t.client.context = none := by
  have hperiod := h.period
  rw [hcurrent] at hperiod
  generalize hds : [] = ds at hperiod
  cases hperiod with
  | idle hcontext => exact hcontext
  | busy => simp at hds

/-- A request after a close creates a context. -/
theorem reach_of_nil (h : Orderly t) (hcurrent : t.current = []) : t.client.reach = .vacant := by
  have hcontext := h.context_of_nil hcurrent
  have hclient : t.client.client = none := by
    cases hclient : t.client.client with
    | none => rfl
    | some k => cases hcontext.symm.trans (h.settled.client hclient).1
  rw [SharedClient.reach, hclient, hcontext]

end Orderly

/-! ### Requests of a period -/

/-- How many requests have come since the last close was over, when a turn is taken after a number
of them.  A close that has nothing to leave is over at once. -/
def Turn.requestsSince (t : Traffic) (came : Nat) : Turn → Nat
  | .request _ => came + 1
  | .close => if t.client.context = none then 0 else came
  | .left _ => 0
  | .opening _ _ | .wake _ | .giveUp _ => came

/-- How many requests have come since the last close was over, after turns. -/
def requestsSince (t : Traffic) (came : Nat) : List Turn → Nat
  | [] => came
  | x :: xs => (t.step x).elim came fun t' => t'.requestsSince (x.requestsSince t came) xs

/-- A number of requests has come since the last close was over: each of them was sent or waits, and
there is a context if there is one of them. -/
structure Tallied (t : Traffic) (came : Nat) : Prop where
  tally : t.current.countP Deed.isSent + t.waiting.length = came
  context : t.client.context = none ↔ came = 0

theorem tallied_unused : Tallied unused 0 := ⟨rfl, iff_of_true rfl rfl⟩

namespace Tallied

variable {came : Nat}

/-- A deed that sends nothing. -/
theorem note (h : Tallied t came) {d : Deed} (hclosed : d.isClosed = false)
    (hsent : d.isSent = false) : Tallied (t.note d) came where
  tally := by
    rw [current_note hclosed, List.countP_append, List.countP_singleton, hsent]
    exact h.tally
  context := h.context

/-- With a context some request has come. -/
theorem context_eq_none_iff {c : SharedClient} {k : Nat} (h : c.context = some k) (came : Nat) :
    c.context = none ↔ came + 1 = 0 :=
  iff_of_false (by rw [h]; simp) (Nat.succ_ne_zero came)

/-- A request is sent as it comes. -/
theorem send (h : Tallied t came) {c : SharedClient} {k : Nat} (hcontext : c.context = some k) :
    Tallied ({ t with client := c }.note (.sent k)) (came + 1) where
  tally := by
    rw [current_note rfl, List.countP_append, ← h.tally]
    show t.current.countP Deed.isSent + 1 + t.waiting.length = _
    omega
  context := context_eq_none_iff hcontext came

/-- A request that has waited is sent. -/
theorem wake (h : Tallied t came) {k : Nat} (hwaits : k ∈ t.waiting) :
    Tallied ({ t with client := t.client.install k, waiting := t.waiting.erase k }.note (.sent k))
      came where
  tally := by
    have hpos := List.length_pos_of_mem hwaits
    rw [current_note rfl, List.countP_append, ← h.tally]
    show t.current.countP Deed.isSent + 1 + (t.waiting.erase k).length = _
    rw [List.length_erase_of_mem hwaits]
    omega
  context := h.context

/-- A request has to wait. -/
theorem wait (h : Tallied t came) {c : SharedClient} {k : Nat} (hcontext : c.context = some k) :
    Tallied { t with client := c, waiting := t.waiting ++ [k] } (came + 1) where
  tally := by
    show t.current.countP Deed.isSent + (t.waiting ++ [k]).length = _
    rw [List.length_append, List.length_singleton, ← h.tally]
    rfl
  context := context_eq_none_iff hcontext came

/-- Another period begins. -/
theorem close {leaving : List Nat} (hwaiting : t.waiting = []) :
    Tallied ({ t with client := t.client.close, leaving := leaving }.note .closed) 0 where
  tally := by
    rw [current_note_closed]
    show ([] : List Deed).countP Deed.isSent + t.waiting.length = 0
    rw [hwaiting]
    rfl
  context := iff_of_true rfl rfl

/-- Without failures no turn loses a request. -/
theorem steps {x : Turn} (h : Tallied t came) (hsettled : Settled t.client t.waiting t.leaving)
    (hflawless : Flawless t) (hquiet : Quiet t x) (hx : x.Succeeds) (hstep : Steps t x t') :
    Tallied t' (x.requestsSince t came) := by
  cases hstep with
  | inUse fault hclient => exact h.send (hsettled.client hclient).1
  | opened fault hclient hcontext => exact h.send hcontext
  | refused fault hclient hcontext hstage => exact absurd hstage (hflawless.notFailed _ _)
  | waits fault hclient hcontext => exact h.wait hcontext
  | barred => cases hx
  | creates => exact (h.wait rfl).note rfl rfl
  | @enters fault k =>
    have hentered : Tallied { t with client := t.client.setStage k .entered } came :=
      ⟨h.tally, h.context⟩
    exact hentered.note rfl rfl
  | entersNot fault hstage hgivenUp =>
    rw [hflawless.notGivenUp] at hgivenUp
    cases hgivenUp
  | finishes => exact ⟨h.tally, h.context⟩
  | wakes hwaits => exact h.wake hwaits
  | fails hwaits hstage => exact absurd hstage (hflawless.notFailed _ _)
  | givesUp => cases hx
  | closes hcontext =>
    rw [Turn.requestsSince, if_pos hcontext]
    exact close hquiet
  | @leaves k hcontext =>
    rw [Turn.requestsSince, if_neg (by rw [hcontext]; simp)]
    have hleaving : Tallied { t with leaving := t.leaving ++ [k] } came := ⟨h.tally, h.context⟩
    exact hleaving.note rfl rfl
  | left hleaving => exact close (hsettled.apart (List.ne_nil_of_mem hleaving))

/-- Without failures no turns lose a request. -/
theorem after {turns : List Turn} (h : Tallied t came) (horderly : Orderly t)
    (hflawless : Flawless t) (hquiet : t.Along Quiet turns) (hsucceeds : ∀ x ∈ turns, x.Succeeds)
    (hafter : t.after turns = some t') : Tallied t' (t.requestsSince came turns) := by
  induction turns generalizing t came with
  | nil =>
    obtain rfl := Option.some.inj hafter
    exact h
  | cons x xs ih =>
    obtain ⟨u, hu, hafter⟩ := Option.bind_eq_some_iff.1 hafter
    have hstep := steps_of_step hu
    have hx := hsucceeds x List.mem_cons_self
    rw [requestsSince, hu]
    exact ih (h.steps horderly.settled hflawless hquiet.1 hx hstep) (horderly.steps hquiet.1 hstep)
      (hflawless.steps hx hstep) (hquiet.2 u hu)
      (fun y hy => hsucceeds y (List.mem_cons_of_mem x hy)) hafter

end Tallied

/-! ### Those who wait -/

/-- An opening goes on and does not fail, or a request goes on that has waited for one. -/
def Turn.GoesOn : Turn → Prop
  | .opening _ fault => fault = none
  | .wake _ => True
  | _ => False

namespace Turn.GoesOn

variable {x : Turn}

theorem quiet (h : x.GoesOn) (t : Traffic) : Quiet t x := by
  cases x with
  | opening | wake => trivial
  | _ => cases h

theorem succeeds (h : x.GoesOn) : x.Succeeds := by
  cases x with
  | opening k fault =>
    obtain rfl : fault = none := h
    rfl
  | wake => trivial
  | _ => cases h

theorem requestsSince_eq (h : x.GoesOn) (t : Traffic) (came : Nat) :
    x.requestsSince t came = came := by
  cases x with
  | opening | wake => rfl
  | _ => cases h

end Turn.GoesOn

/-- How many turns it takes until nobody waits for the current opening. -/
def turnsLeft (t : Traffic) : Nat :=
  t.waiting.length + t.client.context.elim 0 fun k => (t.client.stage k).turnsLeft

theorem turnsLeft_of_context {k : Nat} (h : t.client.context = some k) :
    t.turnsLeft = t.waiting.length + (t.client.stage k).turnsLeft := by
  rw [turnsLeft, h]
  rfl

theorem turnsLeft_setStage_lt {k : Nat} {s : OpeningStage} (h : t.client.context = some k)
    (hs : s.turnsLeft < (t.client.stage k).turnsLeft) :
    { t with client := t.client.setStage k s }.turnsLeft < t.turnsLeft := by
  have hlt : k < t.client.next := SharedClient.lt_next fun hdone => by
    rw [hdone] at hs
    exact absurd hs (Nat.not_lt_zero _)
  rw [turnsLeft_of_context h]
  show _ + t.client.context.elim 0 _ < _
  rw [h]
  show _ + ((t.client.setStage k s).stage k).turnsLeft < _
  rw [SharedClient.stage_setStage, if_pos ⟨rfl, hlt⟩]
  exact Nat.add_lt_add_left hs _

/-- As long as a request waits, its opening can go on, or the request can. -/
theorem exists_goesOn (h : Orderly t) (hflawless : Flawless t) (hwaiting : t.waiting ≠ []) :
    ∃ x t', x.GoesOn ∧ Steps t x t' ∧ t'.turnsLeft < t.turnsLeft := by
  obtain ⟨k, hk⟩ := List.exists_mem_of_ne_nil _ hwaiting
  have hcontext := h.settled.waits hk
  cases hstage : t.client.stage k with
  | created =>
    refine ⟨.opening k none, _, rfl, .enters none hstage (hflawless.notGivenUp k), ?_⟩
    exact turnsLeft_setStage_lt hcontext (by rw [hstage]; decide)
  | entered =>
    refine ⟨.opening k none, _, rfl, .finishes none hstage, ?_⟩
    exact turnsLeft_setStage_lt hcontext (by rw [hstage]; exact Nat.one_pos)
  | done fault =>
    cases fault with
    | some f => exact absurd hstage (hflawless.notFailed k f)
    | none =>
      refine ⟨.wake k, _, trivial, .wakes hk hstage, ?_⟩
      show (t.waiting.erase k).length + _ < t.waiting.length + _
      rw [List.length_erase_of_mem hk]
      exact Nat.add_lt_add_right (Nat.sub_lt (List.length_pos_of_mem hk) Nat.one_pos) _

/-- Those who wait are sent before long. -/
theorem exists_after_waiting_eq_nil {came : Nat} (h : Tallied t came) (horderly : Orderly t)
    (hflawless : Flawless t) :
    ∃ more t', (∀ x ∈ more, x.GoesOn) ∧ t.after more = some t' ∧ t'.waiting = [] ∧
      t'.current.countP Deed.isSent = came := by
  induction hleft : t.turnsLeft using Nat.strong_induction_on generalizing t with
  | h n ih =>
    by_cases hwaiting : t.waiting = []
    · have htally := h.tally
      rw [hwaiting] at htally
      exact ⟨[], t, by simp, rfl, hwaiting, htally⟩
    · obtain ⟨x, u, hx, hstep, hlt⟩ := exists_goesOn horderly hflawless hwaiting
      have htallied := h.steps horderly.settled hflawless (hx.quiet t) hx.succeeds hstep
      rw [hx.requestsSince_eq] at htallied
      obtain ⟨more, t', hmore, hafter, hsent⟩ := ih u.turnsLeft (hleft ▸ hlt) htallied
        (horderly.steps (hx.quiet t) hstep) (hflawless.steps hx.succeeds hstep) rfl
      refine ⟨x :: more, t', List.forall_mem_cons.2 ⟨hx, hmore⟩, ?_, hsent⟩
      rw [after, hstep.step_eq]
      exact hafter

/-! ### Periods of quiet traffic -/

/-- Closes that keep away from requests divide the traffic into periods.  A period creates at most
one context.  The context is entered at most once, and before a request is sent; all requests of
the period are sent to it or wait for it.  Each close under way leaves it once, and a close in a
period without a context leaves nothing.  A request after a close creates a context that has not
been there before.

Without failures no request is refused: each request that has come since the last close was sent or
waits, there is no context only if none has come, and those who wait can go on until all requests of
the period have been sent. -/
theorem periods_of_quiet {turns : List Turn} (hquiet : unused.Along Quiet turns)
    (h : unused.after turns = some t) :
    Period t.client t.leaving.length t.current ∧
      (∀ k, .sent k ∈ t.current ∨ k ∈ t.waiting → t.client.context = some k) ∧
      (t.current = [] → ∃ t', t.step (.request none) = some t' ∧
        t'.current = [.created t.client.next] ∧ .created t.client.next ∉ t.deeds) ∧
      ((∀ x ∈ turns, x.Succeeds) →
        (∀ f, .refused f ∉ t.deeds) ∧
        t.current.countP Deed.isSent + t.waiting.length = unused.requestsSince 0 turns ∧
        (t.client.context = none ↔ unused.requestsSince 0 turns = 0) ∧
        ∃ more t', (∀ x ∈ more, x.GoesOn) ∧ t.after more = some t' ∧ t'.waiting = [] ∧
          t'.current.countP Deed.isSent = unused.requestsSince 0 turns) := by
  have horderly := Orderly.of_quiet hquiet h
  refine ⟨horderly.period, fun k hk => ?_, fun hcurrent => ?_, fun hsucceeds => ?_⟩
  · exact hk.elim horderly.period.context_of_sent horderly.settled.waits
  · refine ⟨_, rfl, ?_, fun hcreated => absurd (horderly.sound.created hcreated) (lt_irrefl _)⟩
    rw [request, horderly.reach_of_nil hcurrent, current_note rfl]
    show t.current ++ _ = _
    rw [hcurrent, List.nil_append]
  · have hflawless : Flawless t :=
      invariant_after (fun h hx hstep => Flawless.steps h hx hstep) flawless_unused
        (along_of_forall (fun x hx _ => hsucceeds x hx) unused) h
    have htallied := tallied_unused.after orderly_unused flawless_unused hquiet hsucceeds h
    exact ⟨hflawless.notRefused, htallied.tally, htallied.context,
      exists_after_waiting_eq_nil htallied horderly hflawless⟩

/-- Two requests share a client, which is closed twice.  Then another client is opened; one request
has waited for it, one is sent as it comes. -/
theorem periods_of_quiet_reopened :
    let turns : List Turn := [.request none, .request none, .opening 0 none, .opening 0 none,
      .wake 0, .wake 0, .close, .left 0, .close, .request none, .opening 1 none, .opening 1 none,
      .wake 1, .request none]
    ∃ t, unused.after turns = some t ∧ Period t.client 0 t.current ∧
      t.current = [.created 1, .entered 1, .sent 1, .sent 1] ∧
      t.current.countP Deed.isSent + t.waiting.length = 2 ∧ ∀ f, .refused f ∉ t.deeds := by
  intro turns
  obtain ⟨t, h⟩ : ∃ t, unused.after turns = some t := ⟨_, rfl⟩
  obtain ⟨hperiod, -, -, hflawless⟩ := periods_of_quiet (by decide) h
  obtain ⟨hrefused, htally, -⟩ := hflawless (by simp [turns, Turn.Succeeds])
  refine ⟨t, h, ?_, ?_, htally, hrefused⟩
  · obtain rfl := Option.some.inj h
    exact hperiod
  · obtain rfl := Option.some.inj h
    rfl

end Traffic

end KeysetQuery

import KeysetQuery.Value.Quantity

/-!
# Notices

What the library reports while it works.

* `Level` — how grave a notice is;
* `Notice` — the events that are reported, with their `level` and `wording`;
* `Noted` — a computation that gives a result or a fault, and leaves notices either way;
* `Noted.report` — a notice is shown if it can be put into words, and the work goes on;
* `Noted.result_bind`, `Noted.notices_bind` — what happens to both when computations follow each
  other.
-/

namespace KeysetQuery

/-! ### Levels -/

/-- How grave a notice is. -/
inductive Level where
  | info | warning | error
deriving DecidableEq, Inhabited

def Level.severity : Level → Nat
  | info => 20
  | warning => 30
  | error => 40

/-! ### Notices -/

/-- An event that is reported. -/
inductive Notice where
  | extraBounds (name : Value) (count : Nat)
  | lastPage (total limit : Value) (dropped : Nat)
  | countBound (table pages : Value)
  | failed (operation text : String)
  | clientReady (region endpoint : Value)
deriving Inhabited

namespace Notice

def level : Notice → Level
  | extraBounds _ _ => .warning
  | lastPage _ _ _ => .info
  | countBound _ _ => .warning
  | failed _ _ => .error
  | clientReady _ _ => .info

/-- The wording of a notice, unless a value in it cannot be written. -/
def wording : Notice → Except Fault String
  | extraBounds name count =>
    .ok ("between condition '" ++ name.text ++ "' has " ++ toString count
      ++ " values; only the first two are used")
  | lastPage total limit dropped => do
    let t ← total.whole
    let l ← limit.whole
    pure ("last page: total=" ++ toString t ++ " limit=" ++ toString l ++ ", dropped "
      ++ toString dropped ++ " leading items")
  | countBound table pages => do
    table.requireText
    let n ← pages.whole
    pure ("count for " ++ table.text ++ " hit the " ++ toString n ++ " page bound")
  | failed operation text => .ok (operation ++ " failed: " ++ text)
  | clientReady region endpoint => do
    region.requireText
    endpoint.requireText
    pure ("DynamoDB client ready (region=" ++ region.text ++ ", endpoint=" ++ endpoint.text ++ ")")

/-- The wording of a notice, empty if there is none. -/
def message (n : Notice) : String := n.wording.toOption.getD ""

end Notice

/-! ### Computations that leave notices -/

/-- A result or a fault, and the notices left on the way to it. -/
structure Noted (α : Type) where
  result : Except Fault α
  notices : List Notice

namespace Noted

/-- A result without notices. -/
def ok {α : Type} (a : α) : Noted α := ⟨.ok a, []⟩

/-- A computation without notices. -/
def lift {α : Type} (r : Except Fault α) : Noted α := ⟨r, []⟩

def after {α : Type} (ns : List Notice) (x : Noted α) : Noted α := ⟨x.result, ns ++ x.notices⟩

def note (n : Notice) : Noted Unit := ⟨.ok (), [n]⟩

/-- Report a notice.  Notices are shown from a severity on, and one that is shown is put into words at
once; nothing is shown if a value in it cannot be written.  The work goes on either way. -/
def report (shownFrom : Nat) (n : Notice) : Noted Unit :=
  if shownFrom ≤ n.level.severity then
    match n.wording with
    | .ok _ => note n
    | .error _ => ok ()
  else note n

/-- A report never ends the work. -/
@[simp] theorem result_report (shownFrom : Nat) (n : Notice) :
    (report shownFrom n).result = .ok () := by
  unfold report
  split
  · cases n.wording <;> rfl
  · rfl

/-- Go on with a result; a fault ends the computation and keeps its notices. -/
def bind {α β : Type} (x : Noted α) (f : α → Noted β) : Noted β :=
  match x.result with
  | .ok a => ⟨(f a).result, x.notices ++ (f a).notices⟩
  | .error e => ⟨.error e, x.notices⟩

instance : Monad Noted where
  pure := ok
  bind := bind

instance : MonadLift (Except Fault) Noted where
  monadLift := lift

@[simp] theorem result_pure {α : Type} (a : α) : (pure a : Noted α).result = .ok a := rfl

@[simp] theorem notices_pure {α : Type} (a : α) : (pure a : Noted α).notices = [] := rfl

@[simp] theorem result_lift {α : Type} (r : Except Fault α) : (lift r).result = r := rfl

@[simp] theorem result_liftM {α : Type} (r : Except Fault α) :
    (liftM r : Noted α).result = r := rfl

@[simp] theorem notices_liftM {α : Type} (r : Except Fault α) :
    (liftM r : Noted α).notices = [] := rfl

/-- Results follow each other as if there were no notices. -/
@[simp] theorem result_bind {α β : Type} (x : Noted α) (f : α → Noted β) :
    (x >>= f).result = x.result >>= fun a => (f a).result := by
  show (bind x f).result = _
  unfold bind
  cases h : x.result <;> rfl

/-- Apply a computation to the items of a list, in order, up to the first fault. -/
def forEach {α β : Type} (f : α → Noted β) : List α → Noted (List β)
  | [] => pure []
  | a :: as => do
    let b ← f a
    let bs ← forEach f as
    pure (b :: bs)

end Noted

theorem result_forEach {α β : Type} (f : α → Noted β) (as : List α) :
    (Noted.forEach f as).result = eachOk (fun a => (f a).result) as := by
  induction as with
  | nil => rfl
  | cons a as ih => simp [Noted.forEach, eachOk, ih]; rfl

end KeysetQuery

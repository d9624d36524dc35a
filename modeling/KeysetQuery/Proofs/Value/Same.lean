import KeysetQuery.Value.Equality
import Mathlib.Data.Bool.Basic

/-!
# Values that are the same

* `Decimal.sameValue_comm`, `Decimal.sameValue_ofInt` — numbers of the same value;
* `same_of_isSome_number?` — numbers of every kind are compared by their values;
* `same_comm_of_isAtom` — values without parts are compared in either order;
* `distinct_of_pairwise` — where no two values are the same, none is left out.
-/

namespace KeysetQuery

open Number Value

namespace Number.Decimal

theorem sameValue_comm (d d' : Decimal) : d.sameValue d' = d'.sameValue d := by
  cases d with
  | finite s c e =>
    cases d' with
    | finite s' c' e' =>
      simp only [sameValue]
      rw [Bool.or_comm, BEq.comm (a := c) (b := c'), BEq.comm (a := s),
        BEq.comm (a := adjusted c e), BEq.comm (a := c * _)]
    | _ => rfl
  | infinite s =>
    cases d' with
    | infinite s' => exact BEq.comm
    | _ => rfl
  | nan => cases d' <;> rfl

/-- Integers that differ have different values. -/
theorem sameValue_ofInt (i j : Int) : (ofInt i).sameValue (ofInt j) = (i == j) := by
  rw [Bool.eq_iff_iff, beq_iff_eq]
  simp only [ofInt, sameValue]
  split
  · rename_i hzero
    simp only [Bool.or_eq_true, beq_iff_eq] at hzero ⊢
    omega
  · simp only [Bool.and_eq_true, beq_iff_eq, decide_eq_decide]
    constructor
    · rintro ⟨⟨hsign, -⟩, habs⟩
      have habs' : i.natAbs = j.natAbs := by simpa using habs
      omega
    · rintro rfl
      exact ⟨⟨Iff.rfl, rfl⟩, rfl⟩

end Number.Decimal

namespace Value

/-! ### Numbers -/

theorem sameNumber_comm (v w : Value) : sameNumber v w = sameNumber w v := by
  unfold sameNumber
  cases v.number? with
  | none => cases w.number? <;> rfl
  | some d =>
    cases w.number? with
    | none => rfl
    | some d' => exact Decimal.sameValue_comm d d'

/-- A number is the same as whatever is a number of the same value. -/
theorem same_of_isSome_number? {v : Value} (hv : v.number?.isSome = true) (w : Value) :
    same v w = sameNumber v w := by
  cases v with
  | bool b =>
    cases w with
    | bool b' =>
      show (b == b') = _
      rw [show sameNumber (bool b) (bool b') = _ from Decimal.sameValue_ofInt _ _]
      cases b <;> cases b' <;> rfl
    | _ => rfl
  | int i =>
    cases w with
    | int j => exact (Decimal.sameValue_ofInt i j).symm
    | _ => rfl
  | float x => rfl
  | decimal d => rfl
  | _ => exact absurd hv Bool.false_ne_true

/-! ### Values without parts -/

/-- Whether a value has no parts. -/
def isAtom : Value → Bool
  | list _ | tuple _ | set _ | map _ => false
  | _ => true

theorem same_comm_of_isAtom {v w : Value} (hv : v.isAtom = true) (hw : w.isAtom = true) :
    same v w = same w v := by
  by_cases hnumber : v.number?.isSome = true ∧ w.number?.isSome = true
  · rw [same_of_isSome_number? hnumber.1, same_of_isSome_number? hnumber.2, sameNumber_comm]
  · cases v <;> cases w <;> first
      | rfl
      | exact BEq.comm
      | exact absurd ⟨rfl, rfl⟩ hnumber
      | exact absurd hv Bool.false_ne_true

/-! ### Lists without repetitions -/

/-- Where no two values are the same, none is left out. -/
theorem distinct_of_pairwise {vs : List Value} (h : vs.Pairwise fun v w => same v w = false) :
    distinct vs = vs := by
  have hfold : ∀ (seen rest : List Value),
      (seen ++ rest).Pairwise (fun v w => same v w = false) →
        rest.foldl (fun seen v => if seen.any fun w => same w v then seen else seen ++ [v]) seen
          = seen ++ rest := by
    intro seen rest
    induction rest generalizing seen with
    | nil => intro _; rw [List.append_nil]; rfl
    | cons v rest ih =>
      intro hpairwise
      have hnone : (seen.any fun w => same w v) = false := by
        rw [List.any_eq_false]
        intro w hw
        have hwv := (List.pairwise_append.1 hpairwise).2.2 w hw v List.mem_cons_self
        rw [hwv]
        exact Bool.false_ne_true
      rw [List.foldl_cons, hnone, if_neg Bool.false_ne_true,
        ih (seen ++ [v]) (by rwa [List.append_assoc, List.singleton_append]), List.append_assoc,
        List.singleton_append]
  exact hfold [] vs h

end Value

end KeysetQuery

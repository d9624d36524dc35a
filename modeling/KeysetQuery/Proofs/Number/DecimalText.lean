import KeysetQuery.Number.Decimal
import Mathlib.Data.List.Basic

/-!
# Numbers read back from their texts

* `digitValues` — the values of the digits `0` to `9`;
* `takeDigits_append` — a run of digits is read up to its end;
* `readExponent?_exponentText`, `readPayload?_digits` — so are an exponent and a payload;
* `readFinite?_whole`, `readFinite?_point` — so are the digits of a number, with a point or without;
* `readFinite?_positional`, `readFinite?_leading` — so are the two ways to write a finite number;
* `read?_text` — the text of a number reads as that number, digits and exponent included.
-/

namespace KeysetQuery.Number

open KeysetQuery.Text

/-! ### Runs of digits -/

/-- The values of the digits `0` to `9`. -/
def digitValues (cs : List Char) : List Nat := cs.map fun c => c.toNat - '0'.toNat

theorem length_digitValues (cs : List Char) : (digitValues cs).length = cs.length :=
  List.length_map _

theorem digitValues_append (cs ds : List Char) :
    digitValues (cs ++ ds) = digitValues cs ++ digitValues ds := List.map_append

theorem isDigit_of_mem_digitsOf {n : Nat} {c : Char} (h : c ∈ digitsOf n) : c.isDigit = true :=
  Nat.isDigit_of_mem_toDigits (by decide) (by decide) h

theorem isDigit_of_mem_zeros {k : Nat} {c : Char} (h : c ∈ List.replicate k '0') :
    c.isDigit = true := by
  rw [List.eq_of_mem_replicate h]
  rfl

theorem toList_toString (n : Nat) : (toString n).toList = digitsOf n := Nat.toList_repr

/-- The digits of a number write that number. -/
theorem ofDigits_digitsOf (n : Nat) : ofDigits (digitValues (digitsOf n)) = n := by
  rw [ofDigits, digitValues, List.foldl_map]
  exact Nat.ofDigitChars_ten_toDigits

/-- Zeros in front of digits do not count. -/
theorem ofDigits_zeros_append (k : Nat) (ds : List Nat) :
    ofDigits (List.replicate k 0 ++ ds) = ofDigits ds := by
  induction k with
  | zero => rfl
  | succ k ih => exact ih

theorem digitValue?_of_isDigit {c : Char} (h : c.isDigit = true) :
    digitValue? c = some (c.toNat - '0'.toNat) :=
  digitValue?_of_asciiDigit? (by rw [asciiDigit?, if_pos h])

/-- A digit is no letter. -/
theorem toLower_of_isDigit {c : Char} (h : c.isDigit = true) : c.toLower = c := by
  simp only [Char.isDigit, ge_iff_le, Bool.and_eq_true, decide_eq_true_eq] at h
  unfold Char.toLower
  rw [dif_neg]
  rintro ⟨hA, -⟩
  have hle := UInt32.le_trans hA h.2
  exact absurd hle (by decide)

theorem map_toLower_of_digits {cs : List Char} (h : ∀ c ∈ cs, c.isDigit = true) :
    cs.map Char.toLower = cs := by
  rw [List.map_congr_left fun c hc => toLower_of_isDigit (h c hc)]
  exact List.map_id cs

namespace Decimal

/-- A run of digits is read up to its end. -/
theorem takeDigits_append {cs rest : List Char} (hcs : ∀ c ∈ cs, c.isDigit = true)
    (hrest : ∀ c ∈ rest.head?, digitValue? c = none) :
    takeDigits (cs ++ rest) = (digitValues cs, rest) := by
  induction cs with
  | nil =>
    cases rest with
    | nil => rfl
    | cons c rest =>
      show takeDigits (c :: rest) = _
      rw [takeDigits, hrest c rfl]
      rfl
  | cons c cs ih =>
    have htail := ih fun d hd => hcs d (List.mem_cons_of_mem c hd)
    rw [List.cons_append, takeDigits, digitValue?_of_isDigit (hcs c List.mem_cons_self), htail]
    rfl

theorem takeDigits_digits {cs : List Char} (hcs : ∀ c ∈ cs, c.isDigit = true) :
    takeDigits cs = (digitValues cs, []) := by
  have h : takeDigits (cs ++ []) = (digitValues cs, []) := takeDigits_append hcs (by simp)
  rwa [List.append_nil] at h

/-! ### Exponents and payloads -/

theorem toList_exponentText (e : Int) :
    (exponentText e).toList = (if e < 0 then '-' else '+') :: digitsOf e.natAbs := by
  unfold exponentText
  split <;> rw [String.toList_append, toList_toString] <;> rfl

theorem takeSign_exponentText (e : Int) :
    takeSign (exponentText e).toList = (decide (e < 0), digitsOf e.natAbs) := by
  rw [toList_exponentText]
  by_cases h : e < 0
  · rw [if_pos h, decide_eq_true h]
    rfl
  · rw [if_neg h, decide_eq_false h]
    rfl

/-- An exponent is read as it was written. -/
theorem readExponent?_exponentText (e : Int) :
    readExponent? ('E' :: (exponentText e).toList) = some e := by
  have hdigits : takeDigits (digitsOf e.natAbs) = (digitValues (digitsOf e.natAbs), []) :=
    takeDigits_digits fun c => isDigit_of_mem_digitsOf
  obtain ⟨d, ds, hds⟩ : ∃ d ds, digitValues (digitsOf e.natAbs) = d :: ds := by
    refine List.exists_cons_of_length_pos ?_
    rw [length_digitValues]
    exact length_digitsOf_pos e.natAbs
  have hvalue := ofDigits_digitsOf e.natAbs
  rw [hds] at hdigits hvalue
  rw [readExponent?, if_pos (by decide), takeSign_exponentText]
  simp only [hdigits, hvalue]
  rw [signed]
  by_cases h : e < 0
  · rw [if_pos (decide_eq_true h)]
    exact congrArg some (by omega)
  · rw [if_neg (by simpa using h)]
    exact congrArg some (by omega)

/-- The digits of a payload; nothing stands for zero. -/
theorem readPayload?_digits (negative signalling : Bool) (payload : Nat) :
    readPayload? negative signalling
        ((if payload = 0 then "" else toString payload).toList.map Char.toLower)
      = some (nan negative signalling payload) := by
  by_cases h : payload = 0
  · subst h
    rfl
  · have hall : ∀ c ∈ digitsOf payload, c.isDigit = true := fun c => isDigit_of_mem_digitsOf
    rw [if_neg h, toList_toString, map_toLower_of_digits hall, readPayload?, takeDigits_digits hall]
    show some (nan negative signalling (ofDigits (digitValues (digitsOf payload)))) = _
    rw [ofDigits_digitsOf]

/-! ### Finite numbers -/

/-- The digits of a number without a point. -/
theorem readFinite?_whole (negative : Bool) (ws rest : List Char) (hne : ws ≠ [])
    (hws : ∀ c ∈ ws, c.isDigit = true)
    (hrest : ∀ c ∈ rest.head?, digitValue? c = none ∧ c ≠ '.') :
    readFinite? negative (ws ++ rest)
      = (readExponent? rest).map fun e => finite negative (ofDigits (digitValues ws)) e := by
  have hwhole := takeDigits_append hws fun c hc => (hrest c hc).1
  have hvalues : digitValues ws ≠ [] := by simpa [digitValues] using hne
  rw [readFinite?, hwhole]
  cases rest with
  | nil => simp [hvalues]
  | cons c rest =>
    obtain ⟨-, hc⟩ := hrest c rfl
    simp [hvalues, hc]

/-- The digits of a number with a point. -/
theorem readFinite?_point (negative : Bool) (ws fs rest : List Char) (hne : ws ++ fs ≠ [])
    (hws : ∀ c ∈ ws, c.isDigit = true) (hfs : ∀ c ∈ fs, c.isDigit = true)
    (hrest : ∀ c ∈ rest.head?, digitValue? c = none) :
    readFinite? negative (ws ++ '.' :: (fs ++ rest))
      = (readExponent? rest).map fun e =>
          finite negative (ofDigits (digitValues (ws ++ fs))) (e - fs.length) := by
  have hpoint : ∀ c ∈ ('.' :: (fs ++ rest)).head?, digitValue? c = none := by
    intro c hc
    obtain rfl : '.' = c := Option.some.inj hc
    rfl
  have hwhole := takeDigits_append hws hpoint
  have hfraction := takeDigits_append hfs hrest
  have hvalues : (digitValues (ws ++ fs)).isEmpty = false := by
    rw [List.isEmpty_eq_false_iff, digitValues]
    simpa using hne
  unfold readFinite?
  rw [hwhole]
  simp only [hfraction, ← digitValues_append, hvalues, length_digitValues]
  simp

/-- A number that begins with a digit, behind its sign, is a finite one. -/
theorem read?_signText (negative : Bool) {c : Char} {cs : List Char} (hc : c.isDigit = true) :
    read? (signText negative ++ String.ofList (c :: cs)) = readFinite? negative (c :: cs) := by
  have hsign : takeSign (signText negative ++ String.ofList (c :: cs)).toList
      = (negative, c :: cs) := by
    rw [String.toList_append, String.toList_ofList]
    cases negative with
    | true => rfl
    | false =>
      show takeSign (c :: cs) = _
      unfold takeSign
      split
      · rename_i heq
        rw [(List.cons.inj heq).1] at hc
        exact absurd hc (by decide)
      · rename_i heq
        rw [(List.cons.inj heq).1] at hc
        exact absurd hc (by decide)
      · rfl
  -- no name of a number that is not finite begins with a digit
  have hhead : ∀ {d : Char} {ds : List Char}, d.isDigit = false →
      (c :: cs).map Char.toLower ≠ d :: ds := by
    intro d ds hd heq
    have hcd := (List.cons.inj heq).1
    rw [toLower_of_isDigit hc] at hcd
    rw [hcd, hd] at hc
    exact Bool.noConfusion hc
  unfold read?
  rw [hsign]
  dsimp only
  split
  · rename_i heq
    exact absurd heq (hhead (by decide))
  · rename_i heq
    exact absurd heq (hhead (by decide))
  · rename_i heq
    exact absurd heq (hhead (by decide))
  · rename_i heq
    exact absurd heq (hhead (by decide))
  · rfl

/-! ### Texts -/

/-- The first digit of a number. -/
theorem exists_digitsOf_eq_cons (n : Nat) :
    ∃ d ds, digitsOf n = d :: ds ∧ d.isDigit = true ∧ ∀ c ∈ ds, c.isDigit = true := by
  obtain ⟨d, ds, hds⟩ := List.exists_cons_of_length_pos (length_digitsOf_pos n)
  have hall : ∀ c ∈ d :: ds, c.isDigit = true := fun c hc =>
    isDigit_of_mem_digitsOf (hds ▸ hc)
  exact ⟨d, ds, hds, hall d List.mem_cons_self, fun c hc => hall c (List.mem_cons_of_mem d hc)⟩

/-- Digits behind a point and zeros are read with the exponent that their distance from the point
stands for. -/
theorem readFinite?_fraction (negative : Bool) (c k : Nat) :
    readFinite? negative ('0' :: '.' :: (List.replicate k '0' ++ digitsOf c))
      = some (finite negative c (-((k + (digitsOf c).length : Nat) : Int))) := by
  have hzeros : ∀ d ∈ List.replicate k '0' ++ digitsOf c, d.isDigit = true := by
    intro d hd
    rcases List.mem_append.1 hd with hd | hd
    · exact isDigit_of_mem_zeros hd
    · exact isDigit_of_mem_digitsOf hd
  have hread := readFinite?_point negative ['0'] (List.replicate k '0' ++ digitsOf c) []
    (by simp) (fun d hd => isDigit_of_mem_zeros (k := 1) hd) hzeros (by simp)
  have hdigits : ofDigits (digitValues (['0'] ++ (List.replicate k '0' ++ digitsOf c))) = c := by
    rw [digitValues_append, digitValues_append, digitValues, digitValues, List.map_replicate,
      ← List.append_assoc]
    exact (ofDigits_zeros_append (k + 1) _).trans (ofDigits_digitsOf c)
  rw [List.append_nil, hdigits, List.length_append, List.length_replicate] at hread
  refine hread.trans ?_
  show some (finite negative c (0 - ((k + (digitsOf c).length : Nat) : Int))) = _
  rw [Int.zero_sub]

/-- Digits with a point among them, or in front of them, are read with the exponent that the point
stands for. -/
theorem readFinite?_positional (negative : Bool) (c : Nat) {e : Int} (he : e ≤ 0) :
    readFinite? negative (positional (digitsOf c) ((digitsOf c).length + e))
      = some (finite negative c e) := by
  have hall : ∀ d ∈ digitsOf c, d.isDigit = true := fun d => isDigit_of_mem_digitsOf
  have hvalue := ofDigits_digitsOf c
  have hpos := length_digitsOf_pos c
  have hne : digitsOf c ≠ [] := List.length_pos_iff.1 hpos
  unfold positional
  split
  · rename_i hleft
    -- zeros stand between the point and the digits
    refine (readFinite?_fraction negative c _).trans ?_
    exact congrArg (fun x => some (finite negative c x)) (by omega)
  · split
    · rename_i hleft hinside
      have hread := readFinite?_point negative
        ((digitsOf c).take (((digitsOf c).length : Int) + e).toNat)
        ((digitsOf c).drop (((digitsOf c).length : Int) + e).toNat) [] (by simpa using hne)
        (fun d hd => hall d (List.mem_of_mem_take hd))
        (fun d hd => hall d (List.mem_of_mem_drop hd)) (by simp)
      rw [List.append_nil, List.take_append_drop, hvalue, List.length_drop] at hread
      refine hread.trans ?_
      show some (finite negative c (0 - (((digitsOf c).length
        - (((digitsOf c).length : Int) + e).toNat : Nat) : Int))) = _
      rw [show (0 - (((digitsOf c).length
        - (((digitsOf c).length : Int) + e).toNat : Nat) : Int)) = e by omega]
    · rename_i hleft hinside
      have hread := readFinite?_whole negative (digitsOf c) [] hne hall (by simp)
      rw [List.append_nil, hvalue] at hread
      refine hread.trans ?_
      show some (finite negative c 0) = _
      rw [show e = 0 by omega]

/-- Digits with a point after the first are read with the exponent behind them. -/
theorem readFinite?_leading (negative : Bool) (c : Nat) (e : Int) :
    readFinite? negative (leading (digitsOf c)
        ++ 'E' :: (exponentText ((digitsOf c).length + e - 1)).toList)
      = some (finite negative c e) := by
  have hvalue := ofDigits_digitsOf c
  obtain ⟨d, ds, hds, hd, hrest⟩ := exists_digitsOf_eq_cons c
  rw [hds] at hvalue ⊢
  have hE : ∀ x ∈ ('E' :: (exponentText ((d :: ds).length + e - 1)).toList).head?,
      digitValue? x = none ∧ x ≠ '.' := by
    intro x hx
    obtain rfl : 'E' = x := Option.some.inj hx
    exact ⟨by decide, by decide⟩
  have hone : ∀ x ∈ [d], x.isDigit = true := by
    intro x hx
    rw [List.mem_singleton.1 hx]
    exact hd
  cases ds with
  | nil =>
    have hread := readFinite?_whole negative [d] _ (by simp) hone hE
    rw [hvalue, readExponent?_exponentText] at hread
    refine hread.trans ?_
    show some (finite negative c _) = _
    rw [show (([d] : List Char).length : Int) + e - 1 = e by rw [List.length_singleton]; omega]
  | cons d' ds =>
    have hread := readFinite?_point negative [d] (d' :: ds) _ (by simp) hone hrest
      fun x hx => (hE x hx).1
    rw [show [d] ++ d' :: ds = d :: d' :: ds from rfl, hvalue,
      readExponent?_exponentText] at hread
    refine hread.trans ?_
    show some (finite negative c _) = _
    rw [show ((d :: d' :: ds).length : Int) + e - 1 - ((d' :: ds).length : Int) = e by
      rw [List.length_cons]; omega]

theorem exists_positional_eq_cons (c : Nat) (left : Int) :
    ∃ d ds, positional (digitsOf c) left = d :: ds ∧ d.isDigit = true := by
  obtain ⟨d, ds, hds, hd, -⟩ := exists_digitsOf_eq_cons c
  unfold positional
  split
  · exact ⟨'0', _, rfl, rfl⟩
  · rename_i hleft
    rw [hds]
    split
    · obtain ⟨n, hn⟩ : ∃ n, left.toNat = n + 1 := ⟨left.toNat - 1, by omega⟩
      rw [hn]
      exact ⟨d, _, rfl, hd⟩
    · exact ⟨d, ds, rfl, hd⟩

theorem exists_leading_eq_cons (c : Nat) (rest : List Char) :
    ∃ d ds, leading (digitsOf c) ++ rest = d :: ds ∧ d.isDigit = true := by
  obtain ⟨d, ds, hds, hd, -⟩ := exists_digitsOf_eq_cons c
  rw [hds]
  cases ds with
  | nil => exact ⟨d, rest, rfl, hd⟩
  | cons d' ds => exact ⟨d, _, rfl, hd⟩

/-- The text of a number reads as that number, digits and exponent included. -/
theorem read?_text (d : Decimal) : read? d.text = some d := by
  cases d with
  | infinite negative => cases negative <;> rfl
  | nan negative signalling payload =>
    have hpayload := readPayload?_digits negative signalling payload
    rw [text, read?]
    generalize (if payload = 0 then "" else toString payload) = tail at hpayload ⊢
    rw [String.toList_append, String.toList_append]
    cases negative <;> cases signalling <;> exact hpayload
  | finite negative c e =>
    unfold text
    dsimp only
    split
    · rename_i hplain
      simp only [Bool.and_eq_true, decide_eq_true_eq] at hplain
      have hread := readFinite?_positional negative c hplain.1
      obtain ⟨d, ds, hds, hd⟩ := exists_positional_eq_cons c ((digitsOf c).length + e)
      rw [hds] at hread ⊢
      rw [read?_signText negative hd, hread]
    · have hread := readFinite?_leading negative c e
      obtain ⟨d, ds, hds, hd⟩ := exists_leading_eq_cons c
        ('E' :: (exponentText ((digitsOf c).length + e - 1)).toList)
      have htext : signText negative ++ String.ofList (leading (digitsOf c)) ++ "E"
          ++ exponentText ((digitsOf c).length + e - 1)
            = signText negative ++ String.ofList (d :: ds) := by
        apply String.toList_injective
        rw [← hds]
        simp [String.toList_append, String.toList_ofList]
      rw [hds] at hread
      rw [htext, read?_signText negative hd, hread]

end Decimal

end KeysetQuery.Number

import KeysetQuery.Proofs.Stored.Canonical
import Mathlib.Data.List.Perm.Basic

/-!
# Stored forms that are written again

What is read from a stored form and written again has the stored form that was read.

* `sortTexts_eq_of_perm`, `sortBytes_eq_of_perm` — members are written in an order of their own;
* `encodeSet_of_perm` — a set in canonical form is written as the set was;
* `encode_of_canonicalForm`, `encodeEntries_of_canonicalEntries` — so is every value and every
  record;
* `decode_encode_again`, `decodeRecord_encodeRecord_again` — what was written is read and written
  again.
-/

namespace KeysetQuery

open Number Value

namespace Stored

/-! ### Orders -/

/-- Where an order tells any two values apart, sorting forgets the order in which they stood. -/
theorem mergeSort_eq_of_perm {α : Type} {le : α → α → Bool}
    (htrans : ∀ a b c, le a b = true → le b c = true → le a c = true)
    (htotal : ∀ a b, (le a b || le b a) = true)
    (hantisymm : ∀ a b, le a b = true → le b a = true → a = b) {xs ys : List α}
    (h : xs.Perm ys) : xs.mergeSort le = ys.mergeSort le := by
  refine List.Perm.eq_of_pairwise (fun a b _ _ => hantisymm a b)
    (List.pairwise_mergeSort htrans htotal xs) (List.pairwise_mergeSort htrans htotal ys) ?_
  calc (xs.mergeSort le).Perm xs := List.mergeSort_perm xs le
    _ |>.Perm ys := h
    _ |>.Perm (ys.mergeSort le) := (List.mergeSort_perm ys le).symm

theorem sortTexts_eq_of_perm {ss ts : List String} (h : ss.Perm ts) :
    sortTexts ss = sortTexts ts := by
  refine mergeSort_eq_of_perm ?_ ?_ ?_ h
  · intro a b c hab hbc
    rw [decide_eq_true_eq] at hab hbc ⊢
    exact String.le_trans hab hbc
  · intro a b
    rw [Bool.or_eq_true, decide_eq_true_eq, decide_eq_true_eq]
    exact String.le_total a b
  · intro a b hab hba
    rw [decide_eq_true_eq] at hab hba
    exact String.le_antisymm hab hba

theorem sortBytes_eq_of_perm {bs cs : List (List UInt8)} (h : bs.Perm cs) :
    sortBytes bs = sortBytes cs := by
  refine mergeSort_eq_of_perm ?_ ?_ ?_ h
  · intro a b c hab hbc
    rw [decide_eq_true_eq] at hab hbc ⊢
    exact List.le_trans hab hbc
  · intro a b
    rw [Bool.or_eq_true, decide_eq_true_eq, decide_eq_true_eq]
    exact List.le_total a b
  · intro a b hab hba
    rw [decide_eq_true_eq] at hab hba
    exact List.le_antisymm hab hba

/-- What stands in another order than the images of a list are the images of that list in another
order. -/
theorem exists_eq_map_of_perm {α β : Type} {f : α → β} {xs : List α} {ys : List β}
    (h : ys.Perm (xs.map f)) : ∃ zs : List α, ys = zs.map f ∧ zs.Perm xs := by
  rwa [← funext_iff.1 (funext_iff.1 (List.eq_map_comp_perm f) ys) xs] at h

/-! ### Members of sets -/

/-- The numbers of a set in canonical form. -/
theorem map_canonicalMember_of_allNumbers {vs : List Value} (h : allNumbers vs = .ok true) :
    vs.map canonicalMember = (vs.map memberNumber).map decimal := by
  induction vs with
  | nil => rfl
  | cons v vs ih =>
    cases v with
    | bool | int | decimal => exact congrArg₂ List.cons rfl (ih h)
    | _ => cases h

theorem allNumbers_map_decimal (ds : List Decimal) : allNumbers (ds.map decimal) = .ok true := by
  induction ds with
  | nil => rfl
  | cons d ds ih => exact ih

/-- The texts of numbers are those of their canonical forms. -/
theorem eachOk_numberText_map (ds : List Decimal) :
    eachOk (fun v => numberText (memberNumber v)) (ds.map decimal) = eachOk numberText ds := by
  induction ds with
  | nil => rfl
  | cons d ds ih => rw [List.map_cons, eachOk, eachOk, ih]; rfl

theorem eachOk_numberText_memberNumber (vs : List Value) :
    eachOk (fun v => numberText (memberNumber v)) vs
      = eachOk numberText (vs.map memberNumber) := by
  induction vs with
  | nil => rfl
  | cons v vs ih => rw [List.map_cons, eachOk, eachOk, ih]

theorem allTexts?_map_str (ss : List String) : allTexts? (ss.map str) = some ss := by
  induction ss with
  | nil => rfl
  | cons s ss ih => exact congrArg (Option.map (s :: ·)) ih

/-- The byte strings of a set in canonical form. -/
theorem map_canonicalMember_of_allBytes? {vs : List Value} {bs : List (List UInt8)}
    (h : allBytes? vs = some bs) : vs.map canonicalMember = bs.map binary := by
  induction vs generalizing bs with
  | nil =>
    cases h
    rfl
  | cons v vs ih =>
    cases v with
    | bytes b | binary b =>
      obtain ⟨cs, hcs, rfl⟩ := Option.map_eq_some_iff.1 h
      exact congrArg₂ List.cons rfl (ih hcs)
    | _ => cases h

theorem allBytes?_map_binary (bs : List (List UInt8)) :
    allBytes? (bs.map binary) = some bs := by
  induction bs with
  | nil => rfl
  | cons b bs ih => exact congrArg (Option.map (b :: ·)) ih

/-- A set of texts. -/
theorem encodeSet_of_allTexts? {vs : List Value} {ss : List String}
    (hnumbers : allNumbers vs = .ok false) (h : allTexts? vs = some ss) :
    encodeSet vs = .ok (form .texts (.list ((sortTexts ss).map .str))) := by
  rw [encodeSet, hnumbers, h]
  rfl

/-- A set of byte strings. -/
theorem encodeSet_of_allBytes? {vs : List Value} {bs : List (List UInt8)}
    (hnumbers : allNumbers vs = .ok false) (htexts : allTexts? vs = none)
    (h : allBytes? vs = some bs) :
    encodeSet vs = .ok (form .byteStrings (.list ((sortBytes bs).map .bytes))) := by
  rw [encodeSet, hnumbers, htexts, h]
  rfl

/-! ### Sets -/

/-- A set in canonical form is written as the set was, in whatever order its members stand. -/
theorem encodeSet_of_perm {vs ws : List Value} {stored : Value} (h : encodeSet vs = .ok stored)
    (hperm : ws.Perm (vs.map canonicalMember)) : encodeSet ws = .ok stored := by
  obtain ⟨areNumbers, hnumbers, hrest⟩ := bind_eq_ok.1 h
  cases areNumbers with
  | true =>
    obtain ⟨ts, hts, hrest⟩ := bind_eq_ok.1 hrest
    obtain rfl := Except.ok.inj hrest
    rw [map_canonicalMember_of_allNumbers hnumbers] at hperm
    obtain ⟨ds, rfl, hds⟩ := exists_eq_map_of_perm hperm
    rw [eachOk_numberText_memberNumber] at hts
    obtain ⟨us, hus, hp⟩ := exists_perm_of_eachOk hds.symm hts
    refine bind_eq_ok.2 ⟨true, allNumbers_map_decimal ds, bind_eq_ok.2 ⟨us, ?_, ?_⟩⟩
    · rw [eachOk_numberText_map, hus]
    · rw [sortTexts_eq_of_perm hp]
      rfl
  | false =>
    rw [if_neg Bool.false_ne_true] at hrest
    cases hss : allTexts? vs with
    | some ss =>
      rw [encodeSet_of_allTexts? hnumbers hss] at h
      obtain rfl := eq_map_of_allTexts? hss
      have hcanonical : (ss.map str).map canonicalMember = ss.map str := by
        rw [List.map_map]
        rfl
      rw [hcanonical] at hperm
      obtain ⟨ts, rfl, hts⟩ := exists_eq_map_of_perm hperm
      -- a set without members would be one of numbers
      have hfirst : allNumbers (ts.map str) = .ok false := by
        cases ts with
        | nil =>
          rw [hts.symm.eq_nil] at hnumbers
          cases hnumbers
        | cons t ts => rfl
      rw [encodeSet_of_allTexts? hfirst (allTexts?_map_str ts), sortTexts_eq_of_perm hts, h]
    | none =>
      cases hbs : allBytes? vs with
      | none =>
        rw [hss, hbs] at hrest
        cases hrest
      | some bs =>
        rw [encodeSet_of_allBytes? hnumbers hss hbs] at h
        have hcanonical := map_canonicalMember_of_allBytes? hbs
        rw [hcanonical] at hperm
        obtain ⟨cs, rfl, hcs⟩ := exists_eq_map_of_perm hperm
        have hfirst :
            allNumbers (cs.map binary) = .ok false ∧ allTexts? (cs.map binary) = none := by
          cases cs with
          | nil =>
            rw [hcs.symm.eq_nil, List.map_nil, List.map_eq_nil_iff] at hcanonical
            rw [hcanonical] at hss
            cases hss
          | cons c cs => exact ⟨rfl, rfl⟩
        rw [encodeSet_of_allBytes? hfirst.1 hfirst.2 (allBytes?_map_binary cs),
          sortBytes_eq_of_perm hcs, h]

/-! ### All values -/

mutual

/-- A value in canonical form is written as the value was. -/
theorem encode_of_canonicalForm : ∀ (v : Value) {w stored : Value}, CanonicalForm v w →
    encode v = .ok stored → encode w = .ok stored
  | .null, _, _, rfl, h => h
  | .missing, _, _, _, h => by cases h
  | .bool _, _, _, rfl, h => h
  | .int _, _, _, rfl, h => h
  | .float _, _, _, _, h => by cases h
  | .decimal _, _, _, rfl, h => h
  | .str _, _, _, rfl, h => h
  | .bytes _, _, _, rfl, h => h
  | .binary _, _, _, rfl, h => h
  | .list vs, _, _, ⟨ws, rfl, hws⟩, h => by
    obtain ⟨ss, hss, rfl⟩ := map_eq_ok.1 h
    exact map_eq_ok.2 ⟨ss, encodeItems_of_canonicalItems vs hws hss, rfl⟩
  | .tuple vs, _, _, ⟨ws, rfl, hws⟩, h => by
    obtain ⟨ss, hss, rfl⟩ := map_eq_ok.1 h
    exact map_eq_ok.2 ⟨ss, encodeItems_of_canonicalItems vs hws hss, rfl⟩
  | .set _, _, _, ⟨ws, rfl, hperm⟩, h => encodeSet_of_perm h hperm
  | .map es, _, _, ⟨fs, rfl, hfs⟩, h => by
    obtain ⟨ss, hss, rfl⟩ := map_eq_ok.1 h
    exact map_eq_ok.2 ⟨ss, encodeEntries_of_canonicalEntries es hfs hss, rfl⟩
termination_by structural v => v

theorem encodeItems_of_canonicalItems : ∀ (vs : List Value) {ws ss : List Value},
    CanonicalItems vs ws → encodeItems vs = .ok ss → encodeItems ws = .ok ss
  | [], _, _, rfl, h => h
  | v :: vs, _, _, ⟨w, ws, rfl, hw, hws⟩, h => by
    obtain ⟨s, hs, h⟩ := bind_eq_ok.1 h
    obtain ⟨ss, hss, h⟩ := bind_eq_ok.1 h
    exact bind_eq_ok.2 ⟨s, encode_of_canonicalForm v hw hs,
      bind_eq_ok.2 ⟨ss, encodeItems_of_canonicalItems vs hws hss, h⟩⟩
termination_by structural vs => vs

theorem encodeEntry_of_canonicalEntry : ∀ (e : Value × Value) {f s : Value × Value},
    CanonicalEntry e f → encodeEntry e = .ok s → encodeEntry f = .ok s
  | (_, v), (_, _), _, ⟨rfl, hw⟩, h => by
    obtain ⟨s, hs, rfl⟩ := map_eq_ok.1 h
    exact map_eq_ok.2 ⟨s, encode_of_canonicalForm v hw hs, rfl⟩
termination_by structural e => e

/-- A record in canonical form is written as the record was. -/
theorem encodeEntries_of_canonicalEntries : ∀ (es : List (Value × Value))
    {fs ss : List (Value × Value)}, CanonicalEntries es fs →
      encodeEntries es = .ok ss → encodeEntries fs = .ok ss
  | [], _, _, rfl, h => h
  | e :: es, _, _, ⟨f, fs, rfl, hf, hfs⟩, h => by
    obtain ⟨s, hs, h⟩ := bind_eq_ok.1 h
    obtain ⟨ss, hss, h⟩ := bind_eq_ok.1 h
    exact bind_eq_ok.2 ⟨s, encodeEntry_of_canonicalEntry e hf hs,
      bind_eq_ok.2 ⟨ss, encodeEntries_of_canonicalEntries es hfs hss, h⟩⟩
termination_by structural es => es

end

/-- The stored form of a value is read and written again as it is. -/
theorem decode_encode_again {v stored : Value} (hsets : v.HasProperSets)
    (h : encode v = .ok stored) : ∃ w, decode stored = .ok w ∧ encode w = .ok stored := by
  obtain ⟨w, hw, hcanonical⟩ := decode_encode v hsets h
  exact ⟨w, hw, encode_of_canonicalForm v hcanonical h⟩

/-- The stored form of a record is read and written again as it is. -/
theorem decodeRecord_encodeRecord_again {item stored : Entries}
    (hsets : EntriesHaveProperSets item) (h : encodeRecord (map item) = .ok stored) :
    ∃ back, decodeRecord (map stored) = .ok back ∧ encodeRecord (map back) = .ok stored := by
  obtain ⟨back, hback, hcanonical⟩ := decodeEntries_encodeEntries item hsets h
  exact ⟨back, hback, encodeEntries_of_canonicalEntries item hcanonical h⟩

end Stored

end KeysetQuery

import KeysetQuery.Proofs.Outcome
import KeysetQuery.Query.Descriptor
import Mathlib.Data.List.Nodup

/-!
# Names in records and descriptors

* `nodup_byName` — what is written under names has each name once;
* `byName_eq_self` — writing under different names changes nothing;
* `readRecord_toValue` — a record is read back from the value that it is passed as;
* `Descriptor.readStartKey_toValue` — so is the cursor of a page;
* `Descriptor.nodup_names` — the filters of an accepted descriptor have different names.
-/

namespace KeysetQuery

namespace Schema

/-! ### Gathering -/

theorem Check.both_eq_ok {α β : Type} {a : Check α} {b : Check β} {p : α × β} :
    Check.both a b = .ok p ↔ a = .ok p.1 ∧ b = .ok p.2 := by
  obtain ⟨x, y⟩ := p
  cases a <;> cases b <;> simp [Check.both]

theorem Check.all_map_ok {α : Type} (as : List α) :
    Check.all (as.map fun a => (.ok a : Check α)) = .ok as := by
  induction as with
  | nil => rfl
  | cons a as ih => simp [Check.all, ih, Check.both]

/-! ### Writing under names -/

section ByName

variable {α : Type}

theorem map_fst_putByName (name : String) (a : α) (ps : List (String × α)) :
    (putByName name a ps).map Prod.fst =
      if name ∈ ps.map Prod.fst then ps.map Prod.fst else ps.map Prod.fst ++ [name] := by
  induction ps with
  | nil => simp [putByName]
  | cons p ps ih =>
    obtain ⟨n, b⟩ := p
    by_cases hn : n = name
    · simp [putByName, hn]
    · by_cases hmem : name ∈ ps.map Prod.fst
      · simp only [putByName, hn, if_false, List.map_cons, ih, if_pos hmem,
          if_pos (List.mem_cons_of_mem n hmem)]
      · have hmem' : ¬ name ∈ n :: ps.map Prod.fst := by
          intro h
          rcases List.mem_cons.1 h with h | h
          · exact hn h.symm
          · exact hmem h
        simp only [putByName, hn, if_false, List.map_cons, ih, if_neg hmem, if_neg hmem',
          List.cons_append]

theorem nodup_putByName {ps : List (String × α)} (h : (ps.map Prod.fst).Nodup) (name : String)
    (a : α) : ((putByName name a ps).map Prod.fst).Nodup := by
  rw [map_fst_putByName]
  split
  · exact h
  · rename_i hmem
    exact List.nodup_append.2 ⟨h, List.nodup_singleton name, by
      intro n hn m hm
      rw [List.mem_singleton.1 hm]
      rintro rfl
      exact hmem hn⟩

/-- What is written under names has each name once. -/
theorem nodup_byName (ps : List (String × α)) : ((byName ps).map Prod.fst).Nodup := by
  have hfold : ∀ (qs acc : List (String × α)), (acc.map Prod.fst).Nodup →
      ((qs.foldl (fun acc p => putByName p.1 p.2 acc) acc).map Prod.fst).Nodup := by
    intro qs
    induction qs with
    | nil => exact fun _ h => h
    | cons q qs ih => exact fun acc h => ih _ (nodup_putByName h q.1 q.2)
  exact hfold ps [] List.nodup_nil

theorem putByName_of_notMem {ps : List (String × α)} {name : String}
    (h : name ∉ ps.map Prod.fst) (a : α) : putByName name a ps = ps ++ [(name, a)] := by
  induction ps with
  | nil => rfl
  | cons p ps ih =>
    obtain ⟨n, b⟩ := p
    rw [List.map_cons, List.mem_cons, not_or] at h
    rw [putByName, if_neg (Ne.symm h.1), ih h.2, List.cons_append]

/-- Writing under different names changes nothing. -/
theorem byName_eq_self {ps : List (String × α)} (h : (ps.map Prod.fst).Nodup) :
    byName ps = ps := by
  have hfold : ∀ (qs acc : List (String × α)), ((acc ++ qs).map Prod.fst).Nodup →
      qs.foldl (fun acc p => putByName p.1 p.2 acc) acc = acc ++ qs := by
    intro qs
    induction qs with
    | nil => exact fun acc _ => (List.append_nil acc).symm
    | cons q qs ih =>
      intro acc hacc
      have hmem : q.1 ∉ acc.map Prod.fst := by
        intro hin
        rw [List.map_append, List.map_cons] at hacc
        exact (List.nodup_append.1 hacc).2.2 q.1 hin q.1 List.mem_cons_self rfl
      rw [List.foldl_cons, putByName_of_notMem hmem, ih _ (by simpa using hacc),
        List.append_assoc]
      rfl
  exact hfold ps [] h

end ByName

/-- A record is read back from the value that it is passed as. -/
theorem readRecord_toValue {r : Record} (h : (r.map Prod.fst).Nodup) (place : List Place) :
    readRecord place r.toValue = .ok r := by
  have hkeys : readKeys place (Record.entries r)
      = r.map fun e => (.ok e : Check (String × Value)) := by
    rw [readKeys, Record.entries, List.map_map]
    exact List.map_congr_left fun e _ => rfl
  show (Check.all (readKeys place (Record.entries r))).map byName = .ok r
  rw [hkeys, Check.all_map_ok, Except.map, byName_eq_self h]

end Schema

/-! ### Descriptors -/

namespace Descriptor

open Schema

/-- A record that is passed as a start key stands for the page behind it. -/
theorem readStartKey_toValue {r : Record} (h : (r.map Prod.fst).Nodup) (place : List Place) :
    readStartKey place r.toValue = .ok (.after r) := by
  have hread := readRecord_toValue h (place ++ [.name "dict[str,any]"])
  have htext : Value.isText lastPage r.toValue = false := rfl
  rw [Record.toValue] at htext hread ⊢
  simp only [readStartKey, htext, hread]
  rfl

variable {defaultLimit : Int} {es : Entries} {d : Descriptor}

/-- The filters of an accepted descriptor were read by themselves. -/
theorem filters_of_check (h : check defaultLimit es = .ok d) :
    FieldName.filters.readWith es [] readFilters = .ok d.filters := by
  obtain ⟨fields, hfields, hd⟩ := bind_eq_ok.1 h
  obtain ⟨hfilters, -⟩ := Check.both_eq_ok.1 hfields
  rw [← Except.ok.inj hd]
  exact hfilters

/-- The filters of an accepted descriptor have different names. -/
theorem nodup_names (h : check defaultLimit es = .ok d) : (d.filters.map Filter.name).Nodup := by
  have hread := filters_of_check h
  unfold FieldName.readWith at hread
  split at hread
  · rename_i name v _
    cases v with
    | map fs =>
      obtain ⟨ps, -, hps⟩ := map_eq_ok.1 hread
      rw [← hps, List.map_map]
      exact nodup_byName ps
    | _ => exact absurd hread (by simp [readFilters, issue])
  · rw [← Except.ok.inj hread]
    exact List.nodup_nil

end Descriptor

end KeysetQuery

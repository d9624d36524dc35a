import KeysetQuery.Proofs.Query.Bundles
import Mathlib.Data.List.Forall2

/-!
# The blocks of a filter

* `membersWhere_map` — the conditions that are picked by a test of their group;
* `firstDeclared` — the groups of a list without repeated declarations;
* `groupBlocks_cons` — one step through the groups: a group is passed over, or its block is written
  and its name claimed;
* `result_groupBlocks`, `result_filterBlocks` — from it, what a run through all groups and a whole
  filter give, faults included;
* `filterBlocks_eq_ok` — the blocks of a filter that has some are those of its bundles.
-/

namespace KeysetQuery

open Value Entries

/-! ### Members of groups -/

section Members

variable {ess : List Entries}

/-- The members that pass a test which looks every group up, and then goes by the group alone. -/
theorem membersWhere_map {α : Type} {test : Value → Except Fault Bool}
    (look : Value → Except Fault α) (f : Value → Bool)
    (htest : ∀ v, test v = (look v).map fun _ => f v) (ess : List Entries) :
    membersWhere test (ess.map .map) =
      (eachOk (fun a => look a.memberOf) (ess.map Attribute.ofCanonical)).map fun _ =>
        (ess.filter fun es => f (Attribute.ofCanonical es).memberOf).map .map := by
  induction ess with
  | nil => rfl
  | cons es ess ih =>
    have hcons : membersWhere test ((es :: ess).map .map)
        = test (Attribute.ofCanonical es).memberOf >>= fun member =>
            membersWhere test (ess.map .map) >>= fun rest =>
              pure (if member then map es :: rest else rest) := rfl
    rw [hcons, htest, ih, List.map_cons, eachOk, List.filter_cons]
    cases look (Attribute.ofCanonical es).memberOf with
    | error e => rfl
    | ok x =>
      cases eachOk (fun a => look a.memberOf) (ess.map Attribute.ofCanonical) with
      | error e => rfl
      | ok xs =>
        cases f (Attribute.ofCanonical es).memberOf <;> rfl

/-- A look-up that never fails. -/
theorem eachOk_unit (as : List Attribute) :
    eachOk (fun _ => (.ok () : Except Fault Unit)) as = .ok (as.map fun _ => ()) := by
  have h : eachOk (fun _ => (.ok () : Except Fault Unit)) (as.map id) = .ok (as.map fun _ => ()) :=
    eachOk_of_forall fun _ _ => rfl
  rwa [List.map_id] at h

/-- The members of a group with a text as its name. -/
theorem membersWhere_compare (s : String) (ess : List Entries) :
    membersWhere (fun group => compare group (str s)) (ess.map .map)
      = .ok ((ess.filter fun es => isText s (Attribute.ofCanonical es).memberOf).map .map) := by
  rw [membersWhere_map (fun _ => .ok ()) (isText s) (fun v => compare_str v s), eachOk_unit]
  rfl

/-- What is looked up successfully is found to be itself. -/
theorem eq_of_asMember_eq_ok {v k : Value} (h : asMember v = .ok k) : k = v := by
  have hkey : ∀ {w : Value}, asKey w = .ok k → k = w := by
    intro w hw
    unfold asKey at hw
    split at hw
    · exact (Except.ok.inj hw).symm
    · simp [misused] at hw
  cases v with
  | set vs => exact (Except.ok.inj h).symm
  | _ => exact hkey h

/-- A value that is looked up among claimed names is compared with each of them. -/
theorem isClaimed_eq (claimed : List Value) (v : Value) :
    isClaimed claimed v = (asMember v).map fun _ => claimed.any fun c => same c v := by
  rw [isClaimed]
  cases h : asMember v with
  | error e => rfl
  | ok k =>
    rw [eq_of_asMember_eq_ok h]
    rfl

theorem same_str_eq_isText (s : String) (v : Value) : same (str s) v = isText s v := by
  rw [Bool.eq_iff_iff, same_str_iff, isText_iff]

theorem isClaimed_map_str (claimed : List String) (s : String) :
    isClaimed (claimed.map str) (str s) = .ok (decide (s ∈ claimed)) := by
  have hany : ((claimed.map str).any fun c => same c (str s)) = decide (s ∈ claimed) := by
    rw [Bool.eq_iff_iff, List.any_map, List.any_eq_true, decide_eq_true_eq]
    simp
  rw [isClaimed_eq, asMember_str, hany]
  rfl

theorem filter_map_ofCanonical (ess : List Entries) (f : Value → Bool) :
    (ess.filter fun es => f (Attribute.ofCanonical es).memberOf).map Attribute.ofCanonical
      = (ess.map Attribute.ofCanonical).filter fun a => f a.memberOf := by
  rw [List.filter_map]
  rfl

end Members

/-! ### Groups by their first declaration -/

/-- The groups of a list without those whose name was declared before. -/
def firstDeclared : List (String × String) → List (String × String)
  | [] => []
  | g :: gs => g :: (firstDeclared gs).filter fun h => h.1 ≠ g.1

section FirstDeclared

variable {gs : List (String × String)}

theorem firstDeclared_sublist (gs : List (String × String)) : (firstDeclared gs).Sublist gs := by
  induction gs with
  | nil => exact List.Sublist.refl []
  | cons g gs ih => exact (List.filter_sublist.trans ih).cons_cons g

/-- Every name that is declared is declared for the first time. -/
theorem mem_map_fst_firstDeclared {s : String} :
    s ∈ (firstDeclared gs).map Prod.fst ↔ s ∈ gs.map Prod.fst := by
  induction gs with
  | nil => rfl
  | cons g gs ih =>
    simp only [firstDeclared, List.map_cons, List.mem_cons]
    by_cases hs : s = g.1
    · simp only [hs, true_or]
    · have hrest : s ∈ ((firstDeclared gs).filter fun h => h.1 ≠ g.1).map Prod.fst
          ↔ s ∈ (firstDeclared gs).map Prod.fst := by
        simp only [List.mem_map, List.mem_filter, decide_eq_true_eq]
        constructor
        · rintro ⟨h, ⟨hmem, -⟩, rfl⟩
          exact ⟨h, hmem, rfl⟩
        · rintro ⟨h, hmem, rfl⟩
          exact ⟨h, ⟨hmem, hs⟩, rfl⟩
      simp only [hs, false_or]
      rw [hrest, ih]

theorem nodup_firstDeclared (gs : List (String × String)) :
    ((firstDeclared gs).map Prod.fst).Nodup := by
  induction gs with
  | nil => exact List.nodup_nil
  | cons g gs ih =>
    refine List.nodup_cons.2 ⟨?_, ih.sublist (List.filter_sublist.map Prod.fst)⟩
    intro hmem
    obtain ⟨h, hh, heq⟩ := List.mem_map.1 hmem
    exact absurd heq (by simpa using (List.mem_filter.1 hh).2)

/-- Groups with different names are all declared for the first time. -/
theorem firstDeclared_of_nodup (h : (gs.map Prod.fst).Nodup) : firstDeclared gs = gs := by
  induction gs with
  | nil => rfl
  | cons g gs ih =>
    obtain ⟨hnotMem, hnodup⟩ := List.nodup_cons.1 h
    rw [firstDeclared, ih hnodup, List.filter_eq_self.2]
    intro h hh
    have hne : h.1 ≠ g.1 := fun heq => hnotMem (heq ▸ List.mem_map_of_mem hh)
    exact decide_eq_true hne

theorem isGrouped_firstDeclared (gs : List (String × String)) (a : Attribute) :
    isGrouped (firstDeclared gs) a = isGrouped gs a := by
  have hmap : ∀ gs : List (String × String),
      isGrouped gs a = (gs.map Prod.fst).any fun s => isText s a.memberOf := by
    intro gs
    rw [isGrouped, List.any_map]
    rfl
  rw [hmap, hmap, Bool.eq_iff_iff, List.any_eq_true, List.any_eq_true]
  exact exists_congr fun s => and_congr_left fun _ => mem_map_fst_firstDeclared

end FirstDeclared

/-- A map declares a group: its name and its conjunction. -/
def IsGroup (es : Entries) (g : String × String) : Prop :=
  field? es "name" = some (str g.1) ∧ field? es "conjunction" = some (str g.2)

theorem forall₂_groupRecord (gs : List (String × String)) :
    List.Forall₂ IsGroup (gs.map groupRecord) gs := by
  induction gs with
  | nil => exact .nil
  | cons g gs ih => exact .cons ⟨rfl, rfl⟩ ih

/-! ### Blocks of groups -/

section Blocks

variable {ess : List Entries} {as : List Attribute} {groups : List Entries}
  {gs : List (String × String)}

/-- One step through the groups: a group whose name is claimed is passed over, and so is one without
members; else its block is written and its name is claimed for the rest. -/
theorem groupBlocks_cons (hnamed : ∀ es ∈ ess, Attribute.IsNamed es)
    (has : ess.map Attribute.ofCanonical = as) {e : Entries} {g : String × String}
    (he : IsGroup e g) (hg : g.2 = "AND" ∨ g.2 = "OR") (claimed : List String) (vs : List Value) :
    (groupBlocks (list (ess.map .map)) (claimed.map str) (map e :: vs)).result =
      if g.1 ∈ claimed ∨ membersOf as g.1 = [] then
        (groupBlocks (list (ess.map .map)) (claimed.map str) vs).result
      else Bundle.write ⟨g.2, membersOf as g.1⟩ >>= fun b =>
        (groupBlocks (list (ess.map .map)) ((claimed ++ [g.1]).map str) vs).result.map fun rest =>
          (b :: rest.1, rest.2) := by
  have hname : (map e).entry "name" = .ok (str g.1) := by rw [entry, he.1]
  have hconjunction : (map e).entry "conjunction" = .ok (str g.2) := by rw [entry, he.2]
  have hword : (if (str g.2).truthy = true then (str g.2).text else "AND") = g.2 := by
    rcases hg with hg | hg <;> rw [hg] <;> rfl
  have hmembers := filter_map_ofCanonical ess (isText g.1)
  rw [has] at hmembers
  have hblock : (Block.ofConditions ((ess.filter fun es =>
      isText g.1 (Attribute.ofCanonical es).memberOf).map .map) (str g.2)).result
        = Bundle.write ⟨g.2, membersOf as g.1⟩ := by
    rw [result_ofConditions_of_requireText (fun es hes => hnamed es (List.mem_filter.1 hes).1) rfl,
      hword, hmembers]
    rfl
  rw [groupBlocks]
  simp only [Noted.result_bind, Noted.result_liftM, hname]
  show (isClaimed (claimed.map str) (str g.1) >>= fun isOld => _) = _
  rw [isClaimed_map_str]
  show Noted.result (if decide (g.1 ∈ claimed) = true then _ else _) = _
  by_cases hclaimed : g.1 ∈ claimed
  · rw [if_pos (decide_eq_true hclaimed), if_pos (.inl hclaimed)]
  · rw [if_neg (by simpa using hclaimed)]
    simp only [Noted.result_bind, Noted.result_liftM, members_list]
    show (membersWhere (fun group => compare group (str g.1)) (ess.map .map) >>= fun ms => _) = _
    rw [membersWhere_compare]
    show Noted.result (if _ then _ else _) = _
    rw [List.isEmpty_map]
    have hempty : (ess.filter fun es => isText g.1 (Attribute.ofCanonical es).memberOf).isEmpty
        = (membersOf as g.1).isEmpty := by
      rw [membersOf, ← hmembers, List.isEmpty_map]
    rw [hempty]
    by_cases hnone : membersOf as g.1 = []
    · rw [if_pos (by rw [hnone]; rfl), if_pos (.inr hnone)]
    · rw [if_neg (by simpa using hnone), if_neg (by simp [hclaimed, hnone])]
      simp only [Noted.result_bind, Noted.result_liftM, hconjunction]
      show ((Block.ofConditions _ (str g.2)).result >>= _) = _
      rw [hblock]
      refine congrArg _ (funext fun b => ?_)
      rw [List.map_append]
      exact bind_ok_eq_map (groupBlocks _ _ vs).result _

/-- The groups of a list that are declared for the first time and whose names are not claimed. -/
def unclaimed (claimed : List String) (gs : List (String × String)) : List (String × String) :=
  (firstDeclared gs).filter fun g => g.1 ∉ claimed

theorem unclaimed_nil (gs : List (String × String)) : unclaimed [] gs = firstDeclared gs :=
  List.filter_eq_self.2 fun _ _ => rfl

theorem groupsInUse_cons (as : List Attribute) (g : String × String) (gs : List (String × String)) :
    groupsInUse as (g :: gs)
      = if membersOf as g.1 = [] then groupsInUse as gs else g :: groupsInUse as gs := by
  rw [groupsInUse, List.filter_cons]
  by_cases hnone : membersOf as g.1 = [] <;> simp [hnone, groupsInUse]

/-- A group whose name is claimed, or that has no members, does not count. -/
theorem groupsInUse_unclaimed_of_passed {claimed : List String} {g : String × String}
    (h : g.1 ∈ claimed ∨ membersOf as g.1 = []) (gs : List (String × String)) :
    groupsInUse as (unclaimed claimed (g :: gs)) = groupsInUse as (unclaimed claimed gs) := by
  have hrest : groupsInUse as (((firstDeclared gs).filter fun h => h.1 ≠ g.1).filter
      fun g => g.1 ∉ claimed) = groupsInUse as (unclaimed claimed gs) := by
    rw [groupsInUse, groupsInUse, unclaimed, List.filter_filter, List.filter_filter,
      List.filter_filter]
    refine List.filter_congr fun x _ => ?_
    by_cases hx : x.1 = g.1
    · rcases h with hmem | hnone
      · simp [hx, hmem]
      · simp [hx, hnone]
    · simp [hx]
  rw [unclaimed, firstDeclared, List.filter_cons]
  split
  · rename_i hnotMem
    rcases h with hmem | hnone
    · exact absurd hmem (by simpa using hnotMem)
    · rw [groupsInUse_cons, if_pos hnone, hrest]
  · exact hrest

/-- A group that counts is in front, and its name is claimed for the rest. -/
theorem groupsInUse_unclaimed_of_written {claimed : List String} {g : String × String}
    (hnew : g.1 ∉ claimed) (hsome : membersOf as g.1 ≠ []) (gs : List (String × String)) :
    groupsInUse as (unclaimed claimed (g :: gs))
      = g :: groupsInUse as (unclaimed (claimed ++ [g.1]) gs) := by
  have hrest : ((firstDeclared gs).filter fun h => h.1 ≠ g.1).filter (fun g => g.1 ∉ claimed)
      = unclaimed (claimed ++ [g.1]) gs := by
    rw [unclaimed, List.filter_filter]
    refine List.filter_congr fun x _ => ?_
    simp [not_or]
  rw [unclaimed, firstDeclared, List.filter_cons, if_pos (by simpa using hnew), groupsInUse_cons,
    if_neg hsome, hrest]

/-- The blocks of groups are those of the groups that are declared for the first time and have
members, and the names of these are claimed. -/
theorem result_groupBlocks (hnamed : ∀ es ∈ ess, Attribute.IsNamed es)
    (has : ess.map Attribute.ofCanonical = as) (hgroups : List.Forall₂ IsGroup groups gs)
    (hconj : ∀ g ∈ gs, g.2 = "AND" ∨ g.2 = "OR") (claimed : List String) :
    (groupBlocks (list (ess.map .map)) (claimed.map str) (groups.map .map)).result =
      (eachOk Bundle.write (groupBundles as (unclaimed claimed gs))).map fun blocks =>
        (blocks, (claimed ++ (groupsInUse as (unclaimed claimed gs)).map Prod.fst).map str) := by
  induction hgroups generalizing claimed with
  | nil =>
    show Except.ok ([], claimed.map str) = Except.ok ([], (claimed ++ []).map str)
    rw [List.append_nil]
  | @cons e g groups gs he _ ih =>
    obtain ⟨hg, hgs⟩ := List.forall_mem_cons.1 hconj
    rw [List.map_cons, groupBlocks_cons hnamed has he hg]
    split
    · rename_i hpassed
      rw [ih hgs, groupBundles, groupBundles, groupsInUse_unclaimed_of_passed hpassed]
    · rename_i hcounts
      obtain ⟨hnew, hsome⟩ := not_or.1 hcounts
      rw [ih hgs, groupBundles, groupBundles, groupsInUse_unclaimed_of_written hnew hsome,
        List.map_cons, List.map_cons, List.append_assoc, List.singleton_append, eachOk_cons,
        map_bind_eq]
      refine congrArg _ (funext fun b => ?_)
      rw [map_map_eq, map_map_eq]

/-- A condition is a member of a declared group exactly if the name of its group is claimed. -/
theorem any_groupsInUse {gs : List (String × String)} {a : Attribute} (ha : a ∈ as) :
    (((groupsInUse as gs).map fun g => str g.1).any fun c => same c a.memberOf)
      = isGrouped gs a := by
  rw [isGrouped, List.any_map, Bool.eq_iff_iff, List.any_eq_true, List.any_eq_true]
  constructor
  · rintro ⟨g, hg, hsame⟩
    rw [Function.comp_apply, same_str_eq_isText] at hsame
    exact ⟨g, (List.mem_filter.1 hg).1, hsame⟩
  · rintro ⟨g, hg, hmember⟩
    have hmem : a ∈ membersOf as g.1 := List.mem_filter.2 ⟨ha, hmember⟩
    refine ⟨g, List.mem_filter.2 ⟨hg, ?_⟩, ?_⟩
    · have hne : membersOf as g.1 ≠ [] := List.ne_nil_of_mem hmem
      simpa using hne
    · rw [Function.comp_apply, same_str_eq_isText]
      exact hmember

/-- The blocks of a filter are those of the groups that are declared for the first time and have
members, and then that of the other conditions.  In between, the group of each condition is looked
up among the claimed names. -/
theorem result_filterBlocks (hnamed : ∀ es ∈ ess, Attribute.IsNamed es)
    (has : ess.map Attribute.ofCanonical = as) (hgroups : List.Forall₂ IsGroup groups gs)
    (hconj : ∀ g ∈ gs, g.2 = "AND" ∨ g.2 = "OR") :
    (filterBlocks (list (groups.map .map)) (list (ess.map .map))).result =
      eachOk Bundle.write (groupBundles as (firstDeclared gs)) >>= fun grouped =>
        eachOk (fun a => asMember a.memberOf) as >>= fun _ =>
          (eachOk Bundle.write (otherBundles as gs)).map fun others => grouped ++ others := by
  have hgrouped := result_groupBlocks hnamed has hgroups hconj []
  rw [unclaimed_nil, List.nil_append, List.map_map] at hgrouped
  have hchosen : (as.filter fun a =>
      !(((groupsInUse as (firstDeclared gs)).map fun g => str g.1).any fun c =>
        same c a.memberOf)) = as.filter fun a => !isGrouped gs a := by
    refine List.filter_congr fun a ha => ?_
    rw [any_groupsInUse ha, isGrouped_firstDeclared]
  rw [filterBlocks]
  simp only [Noted.result_bind, Noted.result_liftM, members_list]
  show ((groupBlocks (list (ess.map .map)) ([].map str) (groups.map .map)).result >>= _) = _
  rw [hgrouped]
  cases eachOk Bundle.write (groupBundles as (firstDeclared gs)) with
  | error e => rfl
  | ok grouped =>
    show (membersWhere (fun group => (isClaimed ((groupsInUse as (firstDeclared gs)).map
      fun g => str g.1) group).map (!·)) (ess.map .map) >>= _) = _
    rw [membersWhere_map asMember (fun v => !(((groupsInUse as
      (firstDeclared gs)).map fun g => str g.1).any fun c => same c v)) (fun v => by
        rw [isClaimed_eq]; cases asMember v <;> rfl), has]
    cases eachOk (fun a => asMember a.memberOf) as with
    | error e => rfl
    | ok looked =>
      have hothers := filter_map_ofCanonical ess fun v => !(((groupsInUse as
        (firstDeclared gs)).map fun g => str g.1).any fun c => same c v)
      rw [has, hchosen] at hothers
      show Noted.result (if _ then _ else _) = _
      rw [otherBundles, Bundle.allOf, List.isEmpty_map, ← List.isEmpty_map, hothers]
      split
      · show Except.ok grouped = Except.ok (grouped ++ [])
        rw [List.append_nil]
      · rw [eachOk_cons, Noted.result_bind, result_ofConditions_of_requireText
          (fun es hes => hnamed es (List.mem_filter.1 hes).1) rfl, hothers]
        show (Bundle.write ⟨"AND", as.filter fun a => !isGrouped gs a⟩ >>= fun b =>
          .ok (grouped ++ [b])) = Except.map _ (Bundle.write _ >>= _)
        rw [map_bind_eq]
        rfl

/-- The blocks of a filter are those of its bundles, which can be written. -/
theorem filterBlocks_eq_ok (hnamed : ∀ es ∈ ess, Attribute.IsNamed es)
    (has : ess.map Attribute.ofCanonical = as) {gs : List (String × String)}
    (hconj : ∀ g ∈ gs, g.2 = "AND" ∨ g.2 = "OR") (hnodup : (gs.map Prod.fst).Nodup)
    {blocks : List Block}
    (h : (filterBlocks (list ((gs.map groupRecord).map .map)) (list (ess.map .map))).result
      = .ok blocks) :
    blocks = (groupBundles as gs ++ otherBundles as gs).map Bundle.block ∧
      ∀ b ∈ groupBundles as gs ++ otherBundles as gs, b.IsWritten := by
  rw [result_filterBlocks hnamed has (forall₂_groupRecord gs) hconj,
    firstDeclared_of_nodup hnodup] at h
  obtain ⟨grouped, hgrouped, h⟩ := bind_eq_ok.1 h
  obtain ⟨-, -, h⟩ := bind_eq_ok.1 h
  obtain ⟨others, hothers, hblocks⟩ := map_eq_ok.1 h
  obtain ⟨hgrouped, hwritten⟩ := Bundle.eachOk_write_eq_ok hgrouped
  obtain ⟨hothers, hwrittenOthers⟩ := Bundle.eachOk_write_eq_ok hothers
  refine ⟨by rw [← hblocks, hgrouped, hothers, List.map_append], ?_⟩
  intro b hb
  rcases List.mem_append.1 hb with hb | hb
  · obtain ⟨g, hg, rfl, hsome⟩ := of_mem_groupBundles hb
    exact ⟨hconj g hg, hsome, hwritten _ hb⟩
  · obtain ⟨rfl, hsome⟩ := of_mem_otherBundles hb
    exact ⟨.inl rfl, hsome, hwrittenOthers _ hb⟩

end Blocks

end KeysetQuery

import KeysetQuery.Proofs.Schema.Names
import KeysetQuery.Proofs.Schema.Places
import KeysetQuery.Proofs.Value.Entries
import KeysetQuery.Store.RecordStore
import Mathlib.Data.List.Forall2
import Mathlib.Data.List.Pairwise

/-!
# The two spellings of a field

A descriptor may give a field under either of its names.

* `FieldName.IsSpelled`, `FieldName.Alike` — the spellings of a field, and names that mean the same;
* `Record.SpellsOnce`, `Record.Respells` — a descriptor that gives no field twice, and one that
  differs from it in the spelling of its fields;
* `Issue.Alike`, `Check.Alike` — issues, and readings, that differ in the spelling of a field only;
* `Descriptor.check_respelled` — a descriptor that is spelled in another way reads alike;
* `Descriptor.reports_of_both` — one that gives a field in both spellings is not accepted;
* `descriptor_respelled` — so a store makes the same of the one as of the other.
-/

namespace KeysetQuery

open Value Entries Schema

/-! ### Spellings -/

namespace FieldName

/-- A name is one of the spellings of a field. -/
def IsSpelled (f : FieldName) (name : String) : Prop := name = f.preferred ∨ name = f.plain

instance (f : FieldName) (name : String) : Decidable (f.IsSpelled name) :=
  inferInstanceAs (Decidable (_ ∨ _))

/-- Two names that mean the same: the same name, or two spellings of one field. -/
def Alike (s t : String) : Prop := s = t ∨ ∃ f ∈ all, f.IsSpelled s ∧ f.IsSpelled t

instance (s t : String) : Decidable (Alike s t) := inferInstanceAs (Decidable (_ ∨ _))

/-- Two fields without a common spelling. -/
def Apart (f g : FieldName) : Prop :=
  f.preferred ≠ g.preferred ∧ f.preferred ≠ g.plain ∧ f.plain ≠ g.preferred ∧ f.plain ≠ g.plain

instance (f g : FieldName) : Decidable (f.Apart g) := inferInstanceAs (Decidable (_ ∧ _))

instance : Std.Symm Apart := ⟨fun _ _ h => ⟨h.1.symm, h.2.2.1.symm, h.2.1.symm, h.2.2.2.symm⟩⟩

/-- No name is a spelling of two fields. -/
theorem eq_of_isSpelled {f g : FieldName} (hf : f ∈ all) (hg : g ∈ all) {s : String}
    (hfs : f.IsSpelled s) (hgs : g.IsSpelled s) : f = g := by
  have happart : all.Pairwise Apart := by decide
  by_contra hne
  obtain ⟨h1, h2, h3, h4⟩ := happart.forall hf hg hne
  rcases hfs with rfl | rfl
  · exact hgs.elim h1 h2
  · exact hgs.elim h3 h4

namespace Alike

variable {s t u : String}

theorem refl (s : String) : Alike s s := .inl rfl

theorem symm (h : Alike s t) : Alike t s := by
  rcases h with rfl | ⟨f, hf, hs, ht⟩
  · exact refl s
  · exact .inr ⟨f, hf, ht, hs⟩

/-- Names that mean the same are spellings of the same fields. -/
theorem isSpelled_iff (h : Alike s t) {f : FieldName} (hf : f ∈ all) :
    f.IsSpelled s ↔ f.IsSpelled t := by
  rcases h with rfl | ⟨g, hg, hs, ht⟩
  · rfl
  · constructor
    · intro h
      rwa [eq_of_isSpelled hf hg h hs]
    · intro h
      rwa [eq_of_isSpelled hf hg h ht]

theorem trans (h : Alike s t) (h' : Alike t u) : Alike s u := by
  rcases h' with rfl | ⟨f, hf, ht, hu⟩
  · exact h
  · exact .inr ⟨f, hf, (h.isSpelled_iff hf).2 ht, hu⟩

end Alike

end FieldName

/-! ### Descriptors that are spelled in another way -/

/-- No two names of a descriptor mean the same: no name stands twice, and no field is given in both
of its spellings. -/
def Record.SpellsOnce (r : Record) : Prop := r.Pairwise fun e e' => ¬ FieldName.Alike e.1 e'.1

instance (r : Record) : Decidable r.SpellsOnce := inferInstanceAs (Decidable (List.Pairwise _ _))

/-- The same values in the same order, each under a name that means the same. -/
def Record.Respells (r r' : Record) : Prop :=
  List.Forall₂ (fun e e' => FieldName.Alike e.1 e'.1 ∧ e.2 = e'.2) r r'

namespace Record

variable {r r' : Record}

theorem Respells.exists_of_mem (h : r.Respells r') {e' : String × Value} (he : e' ∈ r') :
    ∃ e ∈ r, FieldName.Alike e.1 e'.1 := by
  induction h with
  | nil => cases he
  | cons hhead _ ih =>
    rcases List.mem_cons.1 he with rfl | he
    · exact ⟨_, List.mem_cons_self, hhead.1⟩
    · obtain ⟨e, he, halike⟩ := ih he
      exact ⟨e, List.mem_cons_of_mem _ he, halike⟩

theorem Respells.spellsOnce (h : r.Respells r') (hr : r.SpellsOnce) : r'.SpellsOnce := by
  induction h with
  | nil => exact List.Pairwise.nil
  | cons hhead hrest ih =>
    obtain ⟨hfirst, hothers⟩ := List.pairwise_cons.1 hr
    refine List.pairwise_cons.2 ⟨fun e' he' halike => ?_, ih hothers⟩
    obtain ⟨e, he, hsame⟩ := Respells.exists_of_mem hrest he'
    exact hfirst e he ((hhead.1.trans halike).trans hsame.symm)

/-- Names that mean the same are the name of one entry. -/
theorem SpellsOnce.eq_of_alike (hr : r.SpellsOnce) {e e' : String × Value} (he : e ∈ r)
    (he' : e' ∈ r) (h : FieldName.Alike e.1 e'.1) : e = e' := by
  have hsymm : Std.Symm fun e e' : String × Value => ¬ FieldName.Alike e.1 e'.1 :=
    ⟨fun _ _ h halike => h halike.symm⟩
  by_contra hne
  exact hr.forall he he' hne h

/-! ### Looking up -/

theorem field?_entries_cons (e : String × Value) (r : Record) (name : String) :
    field? (Record.entries (e :: r)) name
      = if e.1 = name then some e.2 else field? (Record.entries r) name := by
  show (if same (str e.1) (str name) then _ else _) = _
  by_cases h : e.1 = name
  · simp [h]
  · simp [h, field?, Record.entries]

theorem field?_entries_eq_none {name : String} (h : ∀ e ∈ r, e.1 ≠ name) :
    field? r.entries name = none := by
  induction r with
  | nil => rfl
  | cons e r ih =>
    rw [field?_entries_cons, if_neg (h e List.mem_cons_self)]
    exact ih fun e' he' => h e' (List.mem_cons_of_mem e he')

/-- A field that is given once is found by any of its spellings. -/
theorem find?_entries {f : FieldName} (hf : f ∈ FieldName.all) (hr : r.SpellsOnce) :
    f.find? r.entries = r.find? fun e => f.IsSpelled e.1 := by
  induction r with
  | nil => rfl
  | cons e r ih =>
    obtain ⟨hfirst, hothers⟩ := List.pairwise_cons.1 hr
    have hrest := ih hothers
    obtain ⟨name, v⟩ := e
    rw [FieldName.find?] at hrest ⊢
    rw [field?_entries_cons, field?_entries_cons]
    by_cases hpreferred : name = f.preferred
    · rw [if_pos hpreferred, List.find?_cons_of_pos (by simp [FieldName.IsSpelled, hpreferred]),
        hpreferred]
    · rw [if_neg hpreferred]
      by_cases hplain : name = f.plain
      · -- the other spelling would be a second one
        have hnone : field? (Record.entries r) f.preferred = none := field?_entries_eq_none fun e' he' h =>
          hfirst e' he' (.inr ⟨f, hf, .inr hplain, .inl h⟩)
        rw [hnone, if_pos hplain, List.find?_cons_of_pos (by simp [FieldName.IsSpelled, hplain]),
          hplain]
        rfl
      · rw [if_neg hplain, List.find?_cons_of_neg (by simp [FieldName.IsSpelled, hpreferred, hplain])]
        exact hrest

theorem Respells.find?_cases (h : r.Respells r') {f : FieldName} (hf : f ∈ FieldName.all) :
    (r.find? (fun e => f.IsSpelled e.1) = none ∧ r'.find? (fun e => f.IsSpelled e.1) = none) ∨
      ∃ s t v, r.find? (fun e => f.IsSpelled e.1) = some (s, v) ∧
        r'.find? (fun e => f.IsSpelled e.1) = some (t, v) ∧ FieldName.Alike s t := by
  induction h with
  | nil => exact .inl ⟨rfl, rfl⟩
  | @cons e e' r r' hhead _ ih =>
    obtain ⟨s, v⟩ := e
    obtain ⟨t, w⟩ := e'
    obtain ⟨halike, rfl⟩ := hhead
    by_cases hspelled : f.IsSpelled s
    · have hspelled' := (halike.isSpelled_iff hf).1 hspelled
      refine .inr ⟨s, t, v, ?_, ?_, halike⟩
      · exact List.find?_cons_of_pos (by simpa using hspelled)
      · exact List.find?_cons_of_pos (by simpa using hspelled')
    · have hspelled' : ¬ f.IsSpelled t := fun ht => hspelled ((halike.isSpelled_iff hf).2 ht)
      rw [List.find?_cons_of_neg (by simpa using hspelled),
        List.find?_cons_of_neg (by simpa using hspelled')]
      exact ih

/-- The names that are used are the spellings of the fields. -/
theorem isUsed_entries (hr : r.SpellsOnce) {e : String × Value} (he : e ∈ r) :
    FieldName.isUsed r.entries e.1 = true ↔ ∃ f ∈ FieldName.all, f.IsSpelled e.1 := by
  rw [FieldName.isUsed, List.any_eq_true]
  constructor
  · rintro ⟨f, hf, hused⟩
    rw [find?_entries hf hr] at hused
    cases hfind : r.find? (fun e => f.IsSpelled e.1) with
    | none =>
      rw [hfind] at hused
      cases hused
    | some used =>
      rw [hfind] at hused
      have hspelled := List.find?_some hfind
      rw [beq_iff_eq.1 hused] at hspelled
      exact ⟨f, hf, by simpa using hspelled⟩
  · rintro ⟨f, hf, hspelled⟩
    refine ⟨f, hf, ?_⟩
    rw [find?_entries hf hr]
    cases hfind : r.find? (fun e => f.IsSpelled e.1) with
    | none => exact absurd (List.find?_eq_none.1 hfind e he) (by simpa using hspelled)
    | some used =>
      have hspelled' := List.find?_some hfind
      have heq := hr.eq_of_alike (List.mem_of_find?_eq_some hfind) he
        (.inr ⟨f, hf, by simpa using hspelled', hspelled⟩)
      rw [heq]
      exact beq_self_eq_true _

end Record

/-! ### Readings that are alike -/

/-- Two issues of one kind whose places differ in the spelling of the field only. -/
def Issue.Alike (i j : Issue) : Prop :=
  i.kind = j.kind ∧ ∃ s t behind,
    i.place = .name s :: behind ∧ j.place = .name t :: behind ∧ FieldName.Alike s t

namespace Schema

/-- The same value, or issues in the same order that are alike. -/
inductive Check.Alike {α : Type} : Check α → Check α → Prop
  | ok (a : α) : Alike (.ok a) (.ok a)
  | error {is js : List Issue} (h : List.Forall₂ Issue.Alike is js) : Alike (.error is) (.error js)

namespace Check

variable {α β : Type}

theorem Alike.map {c c' : Check α} (h : Alike c c') (g : α → β) : Alike (c.map g) (c'.map g) := by
  cases h with
  | ok a => exact .ok (g a)
  | error h => exact .error h

theorem Alike.both {a a' : Check α} {b b' : Check β} (ha : Alike a a') (hb : Alike b b') :
    Alike (Check.both a b) (Check.both a' b') := by
  cases ha with
  | ok a =>
    cases hb with
    | ok b => exact .ok (a, b)
    | error hb => exact .error hb
  | error ha =>
    cases hb with
    | ok b => exact .error ha
    | error hb => exact .error (List.rel_append ha hb)

theorem Alike.all {cs cs' : List (Check α)} (h : List.Forall₂ Alike cs cs') :
    Alike (Check.all cs) (Check.all cs') := by
  induction h with
  | nil => exact .ok []
  | @cons c c' cs cs' hhead _ ih =>
    have hboth := hhead.both ih
    rw [Check.all, Check.all]
    generalize Check.both c (Check.all cs) = d at hboth
    generalize Check.both c' (Check.all cs') = d' at hboth
    cases hboth with
    | ok p => exact .ok _
    | error h => exact .error h

/-- A value that is read under either of two names reads alike. -/
theorem alike_read {read : List Place → Value → Check α} (hread : IsPlaced read) {s t : String}
    (h : FieldName.Alike s t) (v : Value) : Alike (read [.name s] v) (read [.name t] v) := by
  have hs := hread [.name s] [] v
  have ht := hread [.name t] [] v
  rw [List.append_nil] at hs ht
  rw [hs, ht]
  cases read [] v with
  | ok a => exact .ok a
  | error issues =>
    refine .error ?_
    rw [List.forall₂_map_left_iff, List.forall₂_map_right_iff]
    exact List.forall₂_same.2 fun i _ => ⟨rfl, s, t, i.place, rfl, rfl, h⟩

/-- A check with an issue among others. -/
def Reports (c : Check α) (i : Issue) : Prop := ∃ issues, c = .error issues ∧ i ∈ issues

theorem Reports.map {c : Check α} {i : Issue} (h : Reports c i) (g : α → β) :
    Reports (c.map g) i := by
  obtain ⟨issues, rfl, hi⟩ := h
  exact ⟨issues, rfl, hi⟩

theorem Reports.both_left {a : Check α} {i : Issue} (h : Reports a i) (b : Check β) :
    Reports (Check.both a b) i := by
  obtain ⟨issues, rfl, hi⟩ := h
  cases b with
  | ok b => exact ⟨issues, rfl, hi⟩
  | error more => exact ⟨issues ++ more, rfl, List.mem_append_left more hi⟩

theorem Reports.both_right {b : Check β} {i : Issue} (h : Reports b i) (a : Check α) :
    Reports (Check.both a b) i := by
  obtain ⟨issues, rfl, hi⟩ := h
  cases a with
  | ok a => exact ⟨issues, rfl, hi⟩
  | error more => exact ⟨more ++ issues, rfl, List.mem_append_right more hi⟩

theorem Reports.all {c : Check α} {i : Issue} (h : Reports c i) {cs : List (Check α)}
    (hc : c ∈ cs) : Reports (Check.all cs) i := by
  induction cs with
  | nil => cases hc
  | cons d cs ih =>
    have hboth : Reports (Check.both d (Check.all cs)) i := by
      rcases List.mem_cons.1 hc with rfl | hc
      · exact h.both_left _
      · exact (ih hc).both_right d
    obtain ⟨issues, herror, hi⟩ := hboth
    rw [Check.all, herror]
    exact ⟨issues, rfl, hi⟩

end Check

end Schema

/-! ### Descriptors -/

namespace Descriptor

variable {r r' : Record}

theorem readWith_respelled {α : Type} {f : FieldName} (hf : f ∈ FieldName.all) (hr : r.SpellsOnce)
    (h : r.Respells r') (otherwise : α) {read : List Place → Value → Check α}
    (hread : IsPlaced read) :
    Check.Alike (f.readWith r.entries otherwise read) (f.readWith r'.entries otherwise read) := by
  rw [FieldName.readWith, FieldName.readWith, Record.find?_entries hf hr,
    Record.find?_entries hf (h.spellsOnce hr)]
  rcases h.find?_cases hf with ⟨hnone, hnone'⟩ | ⟨s, t, v, hsome, hsome', halike⟩
  · rw [hnone, hnone']
    exact .ok otherwise
  · rw [hsome, hsome']
    exact Check.alike_read hread halike v

/-- The entries that are no fields are the same ones. -/
theorem unknownEntries_respelled {es es' : Entries}
    (hused : ∀ e ∈ r, FieldName.isUsed es e.1 = true ↔ ∃ f ∈ FieldName.all, f.IsSpelled e.1)
    (hused' : ∀ e ∈ r', FieldName.isUsed es' e.1 = true ↔ ∃ f ∈ FieldName.all, f.IsSpelled e.1)
    (h : r.Respells r') :
    List.Forall₂ Check.Alike (unknownEntries r.entries es) (unknownEntries r'.entries es') := by
  induction h with
  | nil => exact .nil
  | @cons e e' r r' hhead _ ih =>
    refine .cons ?_ (ih (fun d hd => hused d (List.mem_cons_of_mem e hd))
      fun d hd => hused' d (List.mem_cons_of_mem e' hd))
    have hiff : FieldName.isUsed es e.1 = true ↔ FieldName.isUsed es' e'.1 = true := by
      rw [hused e List.mem_cons_self, hused' e' List.mem_cons_self]
      exact exists_congr fun f => and_congr_right fun hf => hhead.1.isSpelled_iff hf
    show Check.Alike (if FieldName.isUsed es e.1 = true then _ else _)
      (if FieldName.isUsed es' e'.1 = true then _ else _)
    by_cases hcase : FieldName.isUsed es e.1 = true
    · rw [if_pos hcase, if_pos (hiff.1 hcase)]
      exact .ok ()
    · rw [if_neg hcase, if_neg fun h => hcase (hiff.2 h)]
      exact .error (.cons ⟨rfl, e.1, e'.1, [], rfl, rfl, hhead.1⟩ .nil)

/-- A descriptor that is spelled in another way reads alike. -/
theorem check_respelled (defaultLimit : Int) (hr : r.SpellsOnce) (h : r.Respells r') :
    Check.Alike (check defaultLimit r.entries) (check defaultLimit r'.entries) := by
  have hfield : ∀ {α : Type} {f : FieldName} {otherwise : α} {read : List Place → Value → Check α},
      f ∈ FieldName.all → IsPlaced read →
        Check.Alike (f.readWith r.entries otherwise read) (f.readWith r'.entries otherwise read) :=
    fun hf hread => readWith_respelled hf hr h _ hread
  have hrest := Check.Alike.all (unknownEntries_respelled (fun _ he => Record.isUsed_entries hr he)
    (fun _ he => Record.isUsed_entries (h.spellsOnce hr) he) h)
  refine Check.Alike.map (.both (hfield ?_ isPlaced_readFilters)
    (.both (hfield ?_ isPlaced_readLimit) (.both (hfield ?_ isPlaced_readTruth)
      (.both (hfield ?_ isPlaced_readTruth) (.both (hfield ?_ isPlaced_readStartKey)
        (.both (hfield ?_ isPlaced_readTruth) (.both (hfield ?_ isPlaced_readText?)
          (.both (hfield ?_ isPlaced_readText?) hrest)))))))) _ <;>
    simp [FieldName.all]

/-! ### Fields that are given twice -/

theorem mem_unknownEntries {es all : Entries} {name : String} {v : Value} (h : (str name, v) ∈ es)
    (hused : FieldName.isUsed all name = false) :
    issue [.name name] .unknownField ∈ unknownEntries es all := by
  induction es with
  | nil => cases h
  | cons e es ih =>
    rcases List.mem_cons.1 h with rfl | h
    · show _ ∈ (if FieldName.isUsed all name = true then _ else _) :: unknownEntries es all
      rw [if_neg (by simp [hused])]
      exact List.mem_cons_self
    · exact List.mem_cons_of_mem _ (ih h)

/-- Where a field is given in both spellings, its plain one is not used. -/
theorem isUsed_plain {f : FieldName} (hf : f ∈ FieldName.all) (hne : f.preferred ≠ f.plain)
    {es : Entries} (hpreferred : field? es f.preferred ≠ none) :
    FieldName.isUsed es f.plain = false := by
  rw [FieldName.isUsed, List.any_eq_false]
  intro g hg hused
  cases hfind : g.find? es with
  | none =>
    rw [hfind] at hused
    cases hused
  | some used =>
    rw [hfind] at hused
    have hname : used.1 = f.plain := beq_iff_eq.1 hused
    have hspelled : g.IsSpelled used.1 := by
      unfold FieldName.find? at hfind
      split at hfind
      · exact .inl (congrArg Prod.fst (Option.some.inj hfind)).symm
      · obtain ⟨v, -, rfl⟩ := Option.map_eq_some_iff.1 hfind
        exact .inr rfl
    obtain rfl := FieldName.eq_of_isSpelled hg hf hspelled (.inr hname)
    obtain ⟨v, hv⟩ := Option.ne_none_iff_exists'.1 hpreferred
    rw [FieldName.find?, hv] at hfind
    rw [← Option.some.inj hfind] at hname
    exact hne hname

/-- A descriptor that gives a field in both spellings is not accepted: the plain one is no field. -/
theorem reports_of_both (defaultLimit : Int) {f : FieldName} (hf : f ∈ FieldName.all)
    (hne : f.preferred ≠ f.plain) {es : Entries} (hpreferred : field? es f.preferred ≠ none)
    (hplain : field? es f.plain ≠ none) :
    Check.Reports (check defaultLimit es) ⟨[.name f.plain], .unknownField⟩ := by
  obtain ⟨v, hv⟩ := Option.ne_none_iff_exists'.1 hplain
  have hissue : Check.Reports (issue [.name f.plain] .unknownField : Check Unit)
      ⟨[.name f.plain], .unknownField⟩ := ⟨_, rfl, List.mem_singleton_self _⟩
  have hrest := hissue.all (mem_unknownEntries (mem_of_get?_text hv) (isUsed_plain hf hne hpreferred))
  exact Check.Reports.map ((((((((hrest.both_right _).both_right _).both_right _).both_right _
    ).both_right _).both_right _).both_right _).both_right _) _

/-- The descriptor of a query that is given as a map. -/
theorem ofQuery_map (defaultLimit : Int) (es : Entries) :
    ofQuery defaultLimit (map es)
      = (check defaultLimit es).mapError fun issues => .invalid (.descriptor issues) := by
  cases es <;> rfl

end Descriptor

/-- Of two descriptors that differ in the spelling of their fields, of which none gives a field
twice, a store makes the same: it accepts both as one descriptor and begins the same query with the
same request, or it refuses both, for issues of the same kinds in the same order and at the same
places but for the spelling of the field.  A map that gives a field in both spellings is refused. -/
theorem descriptor_respelled (store : RecordStore) {r r' : Record} (hr : r.SpellsOnce)
    (h : r.Respells r') :
    ((∃ d, store.descriptor r.toValue false = .ok d ∧ store.descriptor r'.toValue false = .ok d ∧
        ∀ primaryKey table, store.begin (.query primaryKey table r.toValue false)
          = store.begin (.query primaryKey table r'.toValue false)) ∨
      ∃ issues issues', store.descriptor r.toValue false = .error (.invalid (.descriptor issues)) ∧
        store.descriptor r'.toValue false = .error (.invalid (.descriptor issues')) ∧
        List.Forall₂ Issue.Alike issues issues') ∧
    ∀ f ∈ FieldName.all, f.preferred ≠ f.plain → ∀ es : Entries, field? es f.preferred ≠ none →
      field? es f.plain ≠ none → ∃ issues,
        store.descriptor (map es) false = .error (.invalid (.descriptor issues)) ∧
        ⟨[.name f.plain], .unknownField⟩ ∈ issues := by
  have hdescriptor : ∀ es, store.descriptor (map es) false = (Descriptor.check store.defaultLimit
      es).mapError fun issues => .invalid (.descriptor issues) :=
    Descriptor.ofQuery_map store.defaultLimit
  constructor
  · have halike := Descriptor.check_respelled store.defaultLimit hr h
    have hread := hdescriptor r.entries
    have hread' := hdescriptor r'.entries
    generalize Descriptor.check store.defaultLimit r.entries = c at halike hread
    generalize Descriptor.check store.defaultLimit r'.entries = c' at halike hread'
    cases halike with
    | ok d =>
      refine .inl ⟨d, hread, hread', fun primaryKey table => ?_⟩
      unfold RecordStore.begin Record.toValue
      simp only [hread, hread']
    | error hissues => exact .inr ⟨_, _, hread, hread', hissues⟩
  · intro f hf hne es hpreferred hplain
    obtain ⟨issues, herror, hi⟩ :=
      Descriptor.reports_of_both store.defaultLimit hf hne hpreferred hplain
    refine ⟨issues, ?_, hi⟩
    rw [hdescriptor, herror]
    rfl

/-- A descriptor of the last page in either spelling, a cursor that is none in either spelling, and a
field in both spellings. -/
theorem descriptor_respelled_last :
    (∃ d, (RecordStore.mk ⟨true, int 3, 20⟩ .standard 10).descriptor (map [(str "limit", str "5"),
        (str "pageForward", bool false), (str "startKey", str "last")]) false = .ok d ∧
      (RecordStore.mk ⟨true, int 3, 20⟩ .standard 10).descriptor (map [(str "limit", str "5"),
        (str "page_forward", bool false), (str "start_key", str "last")]) false = .ok d) ∧
    (∃ issues issues', (RecordStore.mk ⟨true, int 3, 20⟩ .standard 10).descriptor
        (map [(str "startKey", int 5)]) false = .error (.invalid (.descriptor issues)) ∧
      (RecordStore.mk ⟨true, int 3, 20⟩ .standard 10).descriptor
        (map [(str "start_key", int 5)]) false = .error (.invalid (.descriptor issues')) ∧
      List.Forall₂ Issue.Alike issues issues') ∧
    ∃ issues, (RecordStore.mk ⟨true, int 3, 20⟩ .standard 10).descriptor
        (map [(str "page_forward", bool true), (str "pageForward", bool true)]) false
          = .error (.invalid (.descriptor issues)) ∧
      ⟨[.name "page_forward"], .unknownField⟩ ∈ issues := by
  obtain ⟨hlast, hboth⟩ := @descriptor_respelled ⟨⟨true, int 3, 20⟩, .standard, 10⟩
    [("limit", str "5"), ("pageForward", bool false), ("startKey", str "last")]
    [("limit", str "5"), ("page_forward", bool false), ("start_key", str "last")] (by decide)
    (.cons ⟨by decide, rfl⟩ (.cons ⟨by decide, rfl⟩ (.cons ⟨by decide, rfl⟩ .nil)))
  obtain ⟨hcursor, -⟩ := @descriptor_respelled ⟨⟨true, int 3, 20⟩, .standard, 10⟩
    [("startKey", int 5)] [("start_key", int 5)] (by decide) (.cons ⟨by decide, rfl⟩ .nil)
  refine ⟨?_, ?_, hboth .pageForward (by simp [FieldName.all]) (by decide) _ (Option.some_ne_none _)
    (Option.some_ne_none _)⟩
  · rcases hlast with ⟨d, hd, hd', -⟩ | ⟨_, _, herror, -⟩
    · exact ⟨d, hd, hd'⟩
    · cases herror
  · rcases hcursor with ⟨_, hd, -⟩ | hissues
    · cases hd
    · exact hissues

end KeysetQuery

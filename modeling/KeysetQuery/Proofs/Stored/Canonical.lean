import KeysetQuery.Proofs.Number.DecimalText
import KeysetQuery.Proofs.Outcome
import KeysetQuery.Proofs.Value.Same
import KeysetQuery.Stored.Decode

/-!
# Values read back from their stored forms

* `Value.CanonicalForm` — what a store makes of a value: numbers become decimals as written, tuples
  lists and byte strings wrapped ones; the members of a set may change places;
* `Value.HasProperSets` — the members of the sets inside of a value may be members and differ;
* `decodeNumber_of_numberText`, `decode_encodeSet` — numbers and sets are read back in that form;
* `decode_encode`, `decodeEntries_encodeEntries` — so are all values and all records.
-/

namespace KeysetQuery

open Number Value

namespace Value

/-! ### Canonical forms -/

/-- The canonical form of a member of a set. -/
def canonicalMember : Value → Value
  | bool b => decimal (.ofInt (if b then 1 else 0))
  | int i => decimal (.ofInt i)
  | bytes bs => binary bs
  | v => v

mutual

/-- Whether a value is the canonical form of another one. -/
def CanonicalForm : Value → Value → Prop
  | int i, w => w = decimal (.ofInt i)
  | bytes bs, w => w = binary bs
  | list vs, w => ∃ ws, w = list ws ∧ CanonicalItems vs ws
  | tuple vs, w => ∃ ws, w = list ws ∧ CanonicalItems vs ws
  | set vs, w => ∃ ws, w = set ws ∧ ws.Perm (vs.map canonicalMember)
  | map es, w => ∃ fs, w = map fs ∧ CanonicalEntries es fs
  | v, w => w = v
termination_by structural v => v

/-- Whether the items of a list are the canonical forms of those of another one, in order. -/
def CanonicalItems : List Value → List Value → Prop
  | [], ws => ws = []
  | v :: vs, ws => ∃ u us, ws = u :: us ∧ CanonicalForm v u ∧ CanonicalItems vs us
termination_by structural vs => vs

/-- Whether an entry has the key of another one and the canonical form of its value. -/
def CanonicalEntry : Value × Value → Value × Value → Prop
  | (k, v), f => f.1 = k ∧ CanonicalForm v f.2
termination_by structural e => e

/-- Whether a map has the keys of another one and the canonical forms of its values, in order. -/
def CanonicalEntries : List (Value × Value) → List (Value × Value) → Prop
  | [], fs => fs = []
  | e :: es, fs => ∃ g gs, fs = g :: gs ∧ CanonicalEntry e g ∧ CanonicalEntries es gs
termination_by structural es => es

end

/-! ### Sets -/

/-- Values that may be the members of one set: each of them may be a member, and they differ. -/
structure AreMembers (vs : List Value) : Prop where
  isKey : ∀ v ∈ vs, v.isKey = true
  differ : vs.Pairwise fun v w => same v w = false

mutual

/-- Whether the sets inside of a value have members that may be the members of one set. -/
def HasProperSets : Value → Prop
  | list vs => ItemsHaveProperSets vs
  | tuple vs => ItemsHaveProperSets vs
  | set vs => AreMembers vs
  | map es => EntriesHaveProperSets es
  | _ => True
termination_by structural v => v

def ItemsHaveProperSets : List Value → Prop
  | [] => True
  | v :: vs => HasProperSets v ∧ ItemsHaveProperSets vs
termination_by structural vs => vs

def EntryHasProperSets : Value × Value → Prop
  | (_, v) => HasProperSets v
termination_by structural e => e

def EntriesHaveProperSets : List (Value × Value) → Prop
  | [] => True
  | e :: es => EntryHasProperSets e ∧ EntriesHaveProperSets es
termination_by structural es => es

end

/-! ### Members in canonical form -/

theorem number?_canonicalMember (v : Value) : (canonicalMember v).number? = v.number? := by
  cases v <;> rfl

/-- In canonical form values are the same exactly if they were before. -/
theorem same_canonicalMember (v w : Value) :
    same (canonicalMember v) (canonicalMember w) = same v w := by
  by_cases hv : v.number?.isSome = true
  · rw [same_of_isSome_number? hv,
      same_of_isSome_number? (by rw [number?_canonicalMember]; exact hv), sameNumber, sameNumber,
      number?_canonicalMember, number?_canonicalMember]
  · cases v <;> first
      | exact absurd rfl hv
      | cases w <;> rfl

theorem isKey_canonicalMember {v : Value} (h : v.isKey = true) :
    (canonicalMember v).isKey = true := by
  cases v <;> exact h

end Value

namespace Stored

/-! ### Numbers -/

/-- The text of a number is that of the number that a store holds. -/
theorem numberText_eq_ok {d : Decimal} {s : String} (h : numberText d = .ok s) :
    hold d = .ok d ∧ s = d.text := by
  obtain ⟨d', hhold, htext⟩ := bind_eq_ok.1 h
  have hd : d' = d := by
    rw [hold] at hhold
    cases hctx : context.hold d with
    | error l =>
      rw [hctx] at hhold
      cases hhold
    | ok held =>
      rw [hctx] at hhold
      obtain rfl : held = d' := Except.ok.inj hhold
      obtain ⟨-, rfl⟩ := DecimalContext.hold_eq_ok_iff.1 hctx
      cases d with
      | finite => rfl
      | infinite => rfl
      | nan negative signalling payload =>
        unfold DecimalContext.admissibleNan at htext ⊢
        dsimp only at htext ⊢
        split at htext
        · -- too long a payload leaves a number that is refused
          rw [if_pos (by decide)] at htext
          cases htext
        · rename_i hshort
          rw [if_neg hshort]
  subst hd
  split at htext
  · cases htext
  · exact ⟨hhold, (Except.ok.inj htext).symm⟩

/-- A number is read back as it was written. -/
theorem decodeNumber_of_numberText {d : Decimal} {s : String} (h : numberText d = .ok s) :
    decodeNumber (str s) = .ok (decimal d) := by
  obtain ⟨hhold, rfl⟩ := numberText_eq_ok h
  show (hold ((Decimal.read? d.text).getD _) >>= fun d => pure (decimal d)) = _
  rw [Decimal.read?_text, Option.getD_some, hhold]
  rfl

/-! ### Sets -/

/-- The members of a set are read back from their contents, in whatever order these stand. -/
theorem decodeSet_of_perm {read : Value → Except Fault Value} {vs contents sorted : List Value}
    (hmembers : AreMembers vs) (hatoms : ∀ v ∈ vs, v.isAtom = true)
    (hread : eachOk read contents = .ok (vs.map canonicalMember))
    (hperm : contents.Perm sorted) :
    ∃ ws, decodeSet read (list sorted) = .ok (set ws) ∧ ws.Perm (vs.map canonicalMember) := by
  obtain ⟨ws, hws, hp⟩ := exists_perm_of_eachOk hperm hread
  have hkeys : eachOk (fun v => read v >>= asKey) sorted = .ok ws := by
    refine eachOk_bind hws fun w hw => asKey_of_isKey ?_
    obtain ⟨v, hv, rfl⟩ := List.mem_map.1 (hp.mem_iff.2 hw)
    exact isKey_canonicalMember (hmembers.isKey v hv)
  -- the members differ in either order, so they differ in every order of all of them
  have hmap : (vs.map canonicalMember).Pairwise
      fun v w => same v w = false ∧ same w v = false := by
    refine List.pairwise_map.2 (hmembers.differ.imp_of_mem fun {v w} hv hw hvw => ⟨?_, ?_⟩)
    · rw [same_canonicalMember, hvw]
    · rw [same_canonicalMember, same_comm_of_isAtom (hatoms w hw) (hatoms v hv), hvw]
  have hdiffer : ws.Pairwise fun v w => same v w = false :=
    ((hp.pairwise_iff fun h => ⟨h.2, h.1⟩).1 hmap).imp And.left
  refine ⟨ws, ?_, hp.symm⟩
  show (eachOk (fun v => read v >>= asKey) sorted >>= fun ws => pure (set (distinct ws))) = _
  rw [hkeys]
  show Except.ok (set (distinct ws)) = _
  rw [distinct_of_pairwise hdiffer]

/-- The numbers of a set are read back from their texts. -/
theorem eachOk_decodeNumber {vs : List Value} {ts : List String}
    (hnumbers : allNumbers vs = .ok true)
    (h : eachOk (fun v => numberText (memberNumber v)) vs = .ok ts) :
    eachOk decodeNumber (ts.map str) = .ok (vs.map canonicalMember) ∧
      ∀ v ∈ vs, v.isAtom = true := by
  induction vs generalizing ts with
  | nil =>
    cases h
    exact ⟨rfl, by simp⟩
  | cons v vs ih =>
    obtain ⟨t, us, ht, hus, rfl⟩ := eachOk_cons_eq_ok.1 h
    have hnumber : allNumbers vs = .ok true ∧ canonicalMember v = decimal (memberNumber v) ∧
        v.isAtom = true := by
      cases v with
      | bool b => exact ⟨hnumbers, rfl, rfl⟩
      | int i => exact ⟨hnumbers, rfl, rfl⟩
      | decimal d => exact ⟨hnumbers, rfl, rfl⟩
      | _ => cases hnumbers
    obtain ⟨hrest, hv, hatom⟩ := hnumber
    obtain ⟨hread, hatoms⟩ := ih hrest hus
    constructor
    · refine eachOk_cons_eq_ok.2 ⟨_, _, decodeNumber_of_numberText ht, hread, ?_⟩
      rw [List.map_cons, hv]
    · exact List.forall_mem_cons.2 ⟨hatom, hatoms⟩

theorem eq_map_of_allTexts? {vs : List Value} {ss : List String} (h : allTexts? vs = some ss) :
    vs = ss.map str := by
  induction vs generalizing ss with
  | nil =>
    cases h
    rfl
  | cons v vs ih =>
    cases v with
    | str s =>
      obtain ⟨ts, hts, rfl⟩ := Option.map_eq_some_iff.1 h
      rw [List.map_cons, ← ih hts]
    | _ => cases h

/-- The byte strings of a set are read back wrapped. -/
theorem eachOk_decodeBytes {vs : List Value} {bs : List (List UInt8)}
    (h : allBytes? vs = some bs) :
    eachOk decodeBytes (bs.map .bytes) = .ok (vs.map canonicalMember) ∧
      ∀ v ∈ vs, v.isAtom = true := by
  induction vs generalizing bs with
  | nil =>
    cases h
    exact ⟨rfl, by simp⟩
  | cons v vs ih =>
    have hbytes : ∃ b cs, allBytes? vs = some cs ∧ b :: cs = bs ∧ canonicalMember v = binary b ∧
        v.isAtom = true := by
      cases v with
      | bytes b =>
        obtain ⟨cs, hcs, hbs⟩ := Option.map_eq_some_iff.1 h
        exact ⟨b, cs, hcs, hbs, rfl, rfl⟩
      | binary b =>
        obtain ⟨cs, hcs, hbs⟩ := Option.map_eq_some_iff.1 h
        exact ⟨b, cs, hcs, hbs, rfl, rfl⟩
      | _ => cases h
    obtain ⟨b, cs, hcs, rfl, hv, hatom⟩ := hbytes
    obtain ⟨hread, hatoms⟩ := ih hcs
    constructor
    · refine eachOk_cons_eq_ok.2 ⟨binary b, _, rfl, hread, ?_⟩
      rw [List.map_cons, hv]
    · exact List.forall_mem_cons.2 ⟨hatom, hatoms⟩

/-- A set is read back as a set of the canonical forms of its members. -/
theorem decode_encodeSet {vs : List Value} {stored : Value} (hmembers : AreMembers vs)
    (h : encodeSet vs = .ok stored) :
    ∃ ws, decode stored = .ok (set ws) ∧ ws.Perm (vs.map canonicalMember) := by
  obtain ⟨areNumbers, hnumbers, h⟩ := bind_eq_ok.1 h
  cases areNumbers with
  | true =>
    obtain ⟨ts, hts, h⟩ := bind_eq_ok.1 h
    obtain rfl := Except.ok.inj h
    obtain ⟨hread, hatoms⟩ := eachOk_decodeNumber hnumbers hts
    show ∃ ws, decodeSet decodeNumber (list ((sortTexts ts).map str)) = .ok (set ws) ∧ _
    exact decodeSet_of_perm hmembers hatoms hread ((List.mergeSort_perm ts _).symm.map str)
  | false =>
    rw [if_neg Bool.false_ne_true] at h
    cases hss : allTexts? vs with
    | some ss =>
      rw [hss] at h
      obtain rfl := Except.ok.inj h
      obtain rfl := eq_map_of_allTexts? hss
      have hread : eachOk .ok (ss.map str) = .ok ((ss.map str).map canonicalMember) := by
        rw [List.map_map]
        exact eachOk_of_forall fun _ _ => rfl
      have hatoms : ∀ v ∈ ss.map str, v.isAtom = true := by
        intro v hv
        obtain ⟨s, -, rfl⟩ := List.mem_map.1 hv
        rfl
      show ∃ ws, decodeSet .ok (list ((sortTexts ss).map str)) = .ok (set ws) ∧ _
      exact decodeSet_of_perm hmembers hatoms hread ((List.mergeSort_perm ss _).symm.map str)
    | none =>
      rw [hss] at h
      cases hbs : allBytes? vs with
      | none =>
        rw [hbs] at h
        cases h
      | some bs =>
        rw [hbs] at h
        obtain rfl := Except.ok.inj h
        obtain ⟨hread, hatoms⟩ := eachOk_decodeBytes hbs
        show ∃ ws, decodeSet decodeBytes (list ((sortBytes bs).map Value.bytes)) = .ok (set ws) ∧ _
        exact decodeSet_of_perm hmembers hatoms hread
          ((List.mergeSort_perm bs _).symm.map Value.bytes)

/-! ### All values -/

mutual

/-- A value is read back in canonical form. -/
theorem decode_encode : ∀ (v : Value) {stored : Value}, v.HasProperSets →
    encode v = .ok stored → ∃ w, decode stored = .ok w ∧ CanonicalForm v w
  | .null, _, _, h => by
    cases h
    exact ⟨null, rfl, rfl⟩
  | .missing, _, _, h => by cases h
  | .bool b, _, _, h => by
    cases h
    exact ⟨bool b, rfl, rfl⟩
  | .int i, _, _, h => by
    obtain ⟨s, hs, rfl⟩ := map_eq_ok.1 h
    exact ⟨decimal (.ofInt i), decodeNumber_of_numberText hs, rfl⟩
  | .float _, _, _, h => by cases h
  | .decimal d, _, _, h => by
    obtain ⟨s, hs, rfl⟩ := map_eq_ok.1 h
    exact ⟨decimal d, decodeNumber_of_numberText hs, rfl⟩
  | .str s, _, _, h => by
    cases h
    exact ⟨str s, rfl, rfl⟩
  | .bytes bs, _, _, h => by
    cases h
    exact ⟨binary bs, rfl, rfl⟩
  | .binary bs, _, _, h => by
    cases h
    exact ⟨binary bs, rfl, rfl⟩
  | .list vs, _, hsets, h => by
    obtain ⟨ss, hss, rfl⟩ := map_eq_ok.1 h
    obtain ⟨ws, hws, hcanonical⟩ := decodeItems_encodeItems vs hsets hss
    exact ⟨list ws, map_eq_ok.2 ⟨ws, hws, rfl⟩, ws, rfl, hcanonical⟩
  | .tuple vs, _, hsets, h => by
    obtain ⟨ss, hss, rfl⟩ := map_eq_ok.1 h
    obtain ⟨ws, hws, hcanonical⟩ := decodeItems_encodeItems vs hsets hss
    exact ⟨list ws, map_eq_ok.2 ⟨ws, hws, rfl⟩, ws, rfl, hcanonical⟩
  | .set vs, _, hsets, h => by
    obtain ⟨ws, hws, hperm⟩ := decode_encodeSet hsets h
    exact ⟨set ws, hws, ws, rfl, hperm⟩
  | .map es, _, hsets, h => by
    obtain ⟨ss, hss, rfl⟩ := map_eq_ok.1 h
    obtain ⟨fs, hfs, hcanonical⟩ := decodeEntries_encodeEntries es hsets hss
    exact ⟨map fs, map_eq_ok.2 ⟨fs, hfs, rfl⟩, fs, rfl, hcanonical⟩
termination_by structural v => v

theorem decodeItems_encodeItems : ∀ (vs : List Value) {ss : List Value},
    ItemsHaveProperSets vs → encodeItems vs = .ok ss →
      ∃ ws, decodeItems ss = .ok ws ∧ CanonicalItems vs ws
  | [], _, _, h => by
    cases h
    exact ⟨[], rfl, rfl⟩
  | v :: vs, _, hsets, h => by
    obtain ⟨s, hs, h⟩ := bind_eq_ok.1 h
    obtain ⟨ss, hss, h⟩ := bind_eq_ok.1 h
    obtain rfl := Except.ok.inj h
    obtain ⟨w, hw, hcanonical⟩ := decode_encode v hsets.1 hs
    obtain ⟨ws, hws, hcanonicals⟩ := decodeItems_encodeItems vs hsets.2 hss
    refine ⟨w :: ws, ?_, w, ws, rfl, hcanonical, hcanonicals⟩
    exact bind_eq_ok.2 ⟨w, hw, bind_eq_ok.2 ⟨ws, hws, rfl⟩⟩
termination_by structural vs => vs

theorem decodeEntry_encodeEntry : ∀ (e : Value × Value) {s : Value × Value},
    EntryHasProperSets e → encodeEntry e = .ok s →
      ∃ f, decodeEntry s = .ok f ∧ CanonicalEntry e f
  | (k, v), _, hsets, h => by
    obtain ⟨s, hs, rfl⟩ := map_eq_ok.1 h
    obtain ⟨w, hw, hcanonical⟩ := decode_encode v hsets hs
    exact ⟨(k, w), map_eq_ok.2 ⟨w, hw, rfl⟩, rfl, hcanonical⟩
termination_by structural e => e

/-- A record is read back in canonical form. -/
theorem decodeEntries_encodeEntries : ∀ (es : List (Value × Value)) {ss : List (Value × Value)},
    EntriesHaveProperSets es → encodeEntries es = .ok ss →
      ∃ fs, decodeEntries ss = .ok fs ∧ CanonicalEntries es fs
  | [], _, _, h => by
    cases h
    exact ⟨[], rfl, rfl⟩
  | e :: es, _, hsets, h => by
    obtain ⟨s, hs, h⟩ := bind_eq_ok.1 h
    obtain ⟨ss, hss, h⟩ := bind_eq_ok.1 h
    obtain rfl := Except.ok.inj h
    obtain ⟨f, hf, hcanonical⟩ := decodeEntry_encodeEntry e hsets.1 hs
    obtain ⟨fs, hfs, hcanonicals⟩ := decodeEntries_encodeEntries es hsets.2 hss
    refine ⟨f :: fs, ?_, f, fs, rfl, hcanonical, hcanonicals⟩
    exact bind_eq_ok.2 ⟨f, hf, bind_eq_ok.2 ⟨fs, hfs, rfl⟩⟩
termination_by structural es => es

end

end Stored

end KeysetQuery

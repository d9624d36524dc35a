import KeysetQuery.Value.Equality

/-!
# Entries of a map

The entries of a map stand in the order in which their keys were first written.

* `Entries.get?`, `Entries.has` — the value at a key, and whether there is one;
* `Entries.put` — write a key: an old key keeps its place and takes the new value;
* `Entries.erase` — remove a key;
* `Entries.merge` — write all entries of another map; `Entries.ofList` writes them into no map;
* `get?_put_text` and `get?_merge_text` — what a text key holds afterwards.
-/

namespace KeysetQuery

open Value

/-- The entries of a map, in order. -/
abbrev Entries := List (Value × Value)

namespace Entries

/-! ### Operations -/

def get? : Entries → Value → Option Value
  | [], _ => none
  | (k, v) :: es, key => if same k key then some v else get? es key

def has (es : Entries) (key : Value) : Bool := (get? es key).isSome

/-- Write a key.  An old key keeps its place. -/
def put : Entries → Value → Value → Entries
  | [], key, value => [(key, value)]
  | (k, v) :: es, key, value =>
    if same k key then (k, value) :: es else (k, v) :: put es key value

def erase : Entries → Value → Entries
  | [], _ => []
  | (k, v) :: es, key => if same k key then es else (k, v) :: erase es key

/-- Write all entries of another map, one after the other. -/
def merge (es fs : Entries) : Entries := fs.foldl (fun acc e => put acc e.1 e.2) es

/-- The map written by a list of entries; later ones win. -/
def ofList (es : List (Value × Value)) : Entries := merge [] es

def keys (es : Entries) : List Value := es.map Prod.fst

/-- The entry of a text key. -/
def field? (es : Entries) (name : String) : Option Value := get? es (str name)

/-- Write a text key. -/
def putField (es : Entries) (name : String) (value : Value) : Entries := put es (str name) value

/-! ### Writing and looking up -/

@[simp] theorem get?_nil (key : Value) : get? [] key = none := rfl

@[simp] theorem merge_nil (es : Entries) : merge es [] = es := rfl

theorem merge_cons (es : Entries) (e : Value × Value) (fs : Entries) :
    merge es (e :: fs) = merge (put es e.1 e.2) fs := rfl

/-- After a text key was written it holds the new value and every other text key what it held. -/
theorem get?_put_text (es : Entries) (s t : String) (v : Value) :
    get? (put es (str s) v) (str t) = if s = t then some v else get? es (str t) := by
  induction es with
  | nil => by_cases h : s = t <;> simp [put, get?, h]
  | cons e es ih =>
    obtain ⟨k, w⟩ := e
    by_cases hk : same k (str s) = true
    · have hk' := same_iff_eq_str.1 hk
      subst hk'
      by_cases h : s = t
      · simp [put, get?, h]
      · simp [put, get?, h]
    · have hks : same k (str s) = false := by simpa using hk
      by_cases h : s = t
      · subst h
        simp [put, get?, hks, ih]
      · by_cases hkt : same k (str t) = true
        · simp [put, get?, hks, hkt, h]
        · simp [put, get?, hks, hkt, h, ih]

/-- Writing a key of another kind or text leaves a text key alone. -/
theorem get?_put_of_ne {es : Entries} {k : Value} {t : String} {v : Value}
    (h : same k (str t) = false) : get? (put es k v) (str t) = get? es (str t) := by
  induction es with
  | nil => simp [put, get?, h]
  | cons e es ih =>
    obtain ⟨k', w⟩ := e
    by_cases hk : same k' k = true
    · simp only [put, hk, if_true, get?]
      by_cases hkt : same k' (str t) = true
      · have := same_iff_eq_str.1 hkt
        subst this
        have hk2 := same_str_iff.1 hk
        subst hk2
        simp at h
      · simp [hkt]
    · simp only [put, hk, get?]
      by_cases hkt : same k' (str t) = true
      · simp [hkt, get?]
      · simp [hkt, get?, ih]

/-- After a merge a text key holds the last value that was written to it. -/
theorem get?_merge_text (es fs : Entries) (t : String) :
    get? (merge es fs) (str t) = (get? fs.reverse (str t)).or (get? es (str t)) := by
  induction fs generalizing es with
  | nil => simp
  | cons e fs ih =>
    obtain ⟨k, v⟩ := e
    have happ : ∀ gs : Entries, get? (gs ++ [(k, v)]) (str t)
        = (get? gs (str t)).or (if same k (str t) then some v else none) := by
      intro gs
      induction gs with
      | nil => simp [get?]
      | cons g gs ihg =>
        obtain ⟨k', w⟩ := g
        by_cases h : same k' (str t) = true <;> simp [get?, h, ihg]
    rw [merge_cons, ih, List.reverse_cons, happ, Option.or_assoc]
    congr 1
    by_cases h : same k (str t) = true
    · have := same_iff_eq_str.1 h
      subst this
      simp [get?_put_text]
    · have hf : same k (str t) = false := by simpa using h
      simp [get?_put_of_ne hf, hf]

/-- A key that has an entry is written in place. -/
theorem keys_put (es : Entries) (k v : Value) :
    keys (put es k v) = if es.any (fun e => same e.1 k) then keys es else keys es ++ [k] := by
  induction es with
  | nil => simp [put, keys]
  | cons e es ih =>
    obtain ⟨k', w⟩ := e
    by_cases h : same k' k = true
    · simp [put, keys, h]
    · have hf : same k' k = false := by simpa using h
      unfold keys at ih ⊢
      by_cases ha : es.any (fun e => same e.1 k) = true <;>
        simp [put, hf, ha, ih]

end Entries

end KeysetQuery

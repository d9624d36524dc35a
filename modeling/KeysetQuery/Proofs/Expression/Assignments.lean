import KeysetQuery.Expression.Update
import KeysetQuery.Proofs.Expression.Meaning

/-!
# Reading update expressions

An update expression is a list of assignments.  The readers of paths and placeholders read it back.

* `Reader.assignment`, `readUpdate` — the assignments that an update expression is read as;
* `assignment_append` — an assignment is read as it was written;
* `readUpdate_updateOf` — so are the assignments of attributes whose aliases are words.
-/

namespace KeysetQuery

open Value Reader

/-! ### The grammar -/

/-- An assignment: a path in aliases, and the placeholder whose value it takes. -/
def Reader.assignment : Reader (List String × String) := fun cs => do
  let (p, rest) ← path cs
  let rest ← literal " = " rest
  let (v, rest) ← marked ':' rest
  some ((p, v), rest)

/-- The assignments that an update expression is read as.  There may be none of them. -/
def readUpdate (s : String) : Option (List (List String × String)) :=
  match literal "SET " s.toList with
  | none => none
  | some [] => some []
  | some rest =>
    match separated assignment ", " rest with
    | some (as, []) => some as
    | _ => none

/-! ### Single assignments -/

/-- An assignment, as characters. -/
def assignmentChars (path : List String) (placeholder : String) : List Char :=
  pathChars path ++ (" = ".toList ++ (':' :: placeholder.toList))

/-- An assignment is read up to its end. -/
theorem assignment_append {path : List String} {placeholder : String} (hne : path ≠ [])
    (hpath : ∀ s ∈ path, IsWord s) (hplaceholder : IsWord placeholder) {rest : List Char}
    (hrest : EndsWord rest) :
    assignment (assignmentChars path placeholder ++ rest) = some ((path, placeholder), rest) := by
  have htext : assignmentChars path placeholder ++ rest
      = pathChars path ++ (" = ".toList ++ (':' :: placeholder.toList ++ rest)) := by
    simp [assignmentChars]
  have hread := path_append hne hpath
    (endsWord_cons (c := ' ') (by decide) ("= ".toList ++ (':' :: placeholder.toList ++ rest))) rfl
  have hblank : ∀ cs, " = ".toList ++ cs = ' ' :: ("= ".toList ++ cs) := fun cs => rfl
  rw [← hblank] at hread
  rw [htext]
  simp only [assignment, hread, literal_append, marked_append ':' hplaceholder hrest,
    Option.bind_eq_bind, Option.bind_some]

/-! ### Whole expressions -/

section Attributes

variable {as : List Attribute}

/-- The assignment to an attribute, as characters. -/
def Attribute.assignmentChars (a : Attribute) : List Char :=
  KeysetQuery.assignmentChars (a.aliases.map Prod.fst) a.name.text

/-- An update expression, as characters. -/
theorem toList_updateOf (as : List Attribute) :
    (updateOf as).toList
      = "SET ".toList ++ ", ".toList.intercalate (as.map Attribute.assignmentChars) := by
  have htext : ∀ a : Attribute, (Assignment.ofAttribute a).text.toList = a.assignmentChars := by
    intro a
    rw [Assignment.text, Assignment.ofAttribute, a.pathText_eq, String.toList_append,
      String.toList_append, Clause.toList_pathOf, List.append_assoc]
    rfl
  rw [updateOf, updateText, String.toList_append, String.toList_intercalate, List.map_map,
    List.map_map]
  congr 2
  exact List.map_congr_left fun a _ => htext a

/-- The assignments of attributes are read back as they were written: the path of each attribute
takes the value of the placeholder of its name. -/
theorem readUpdate_updateOf (haliases : ∀ a ∈ as, ∀ p ∈ a.aliases, IsWord p.1)
    (hnames : ∀ a ∈ as, IsWord a.name.text) :
    readUpdate (updateOf as) = some (as.map fun a => (a.aliases.map Prod.fst, a.name.text)) := by
  rw [readUpdate, toList_updateOf, literal_append]
  cases as with
  | nil => rfl
  | cons a as =>
    have hnil : EndsWord [] := by simp [EndsWord]
    have hitem : ∀ b ∈ a :: as, ∀ rest, EndsWord rest →
        assignment (b.assignmentChars ++ rest)
          = some ((b.aliases.map Prod.fst, b.name.text), rest) := by
      intro b hb rest hrest
      refine assignment_append b.aliases_map_fst_ne_nil (fun s hs => ?_) (hnames b hb) hrest
      obtain ⟨p, hp, rfl⟩ := List.mem_map.1 hs
      exact haliases b hb p hp
    have hread := separated_intercalate assignment ", " Attribute.assignmentChars _ EndsWord
      (List.cons_ne_nil a as) (by simp) hitem
      (fun rest => endsWord_cons (c := ',') (by decide) (' ' :: rest)) hnil rfl
    rw [List.append_nil] at hread
    -- the text is not empty, so that it is read as a list of assignments
    obtain ⟨cs, hcs⟩ : ∃ cs, ", ".toList.intercalate ((a :: as).map Attribute.assignmentChars)
        = '#' :: cs := by
      obtain ⟨cs, hcs⟩ := pathChars_eq_cons a.aliases_map_fst_ne_nil
      have hhead : a.assignmentChars = '#' :: (cs ++ (" = ".toList ++ ':' :: a.name.text.toList)) :=
        by rw [Attribute.assignmentChars, KeysetQuery.assignmentChars, hcs, List.cons_append]
      cases as with
      | nil => exact ⟨_, by simp [List.intercalate, hhead]; rfl⟩
      | cons b as => exact ⟨_, by simp [List.intercalate, hhead]; rfl⟩
    rw [hcs] at hread ⊢
    simp only [hread]

end Attributes

end KeysetQuery

import Phrasebook.Expansion.Bindings
import Phrasebook.Proofs.Book.Entries

/-!
# Derivations

The sentences of a book, said without any expansion: a category is derived by one of its
alternatives of positive weight, together with a derivation for each placeholder of that
alternative that is not bound. A name is derivable when it has such a finite tree, and the
derivable names are fixed by the alternatives alone.
-/

namespace Phrasebook

mutual

/-- A derivation of a name: its category, one of the alternatives that can be chosen, and
what fills that alternative. -/
inductive Derivation (book : Book) (bindings : Bindings) : String → Type where
  | node {name : String} (category : Category) (hfind : book.find? name = some category)
      (i : Fin category.alternatives.length)
      (hpositive : (category.alternatives.get i).weight.isPositive = true)
      (filling : Filling book bindings (category.alternatives.get i).template) :
      Derivation book bindings name

/-- What fills the segments of a template: a bound placeholder is filled by the bound text,
and any other by a derivation of its name. -/
inductive Filling (book : Book) (bindings : Bindings) : Template → Type where
  | nil : Filling book bindings []
  | literal (text : String) {rest : Template} (tail : Filling book bindings rest) :
      Filling book bindings (.literal text :: rest)
  | bound {name : String} (text : String) (hbound : bindings.get? name = some text)
      {rest : Template} (tail : Filling book bindings rest) :
      Filling book bindings (.placeholder name :: rest)
  | derived {name : String} (hfree : bindings.get? name = none)
      (piece : Derivation book bindings name) {rest : Template}
      (tail : Filling book bindings rest) : Filling book bindings (.placeholder name :: rest)

end

variable {book : Book} {bindings : Bindings}

/-! ## Text, depth and size -/

mutual

def Derivation.text {name : String} : Derivation book bindings name → String
  | .node _ _ _ _ filling => filling.text

def Filling.text {template : Template} : Filling book bindings template → String
  | .nil => ""
  | .literal text tail => text ++ tail.text
  | .bound text _ tail => text ++ tail.text
  | .derived _ piece tail => piece.text ++ tail.text

end

mutual

/-- The number of nodes on the longest way down from the root. -/
def Derivation.depth {name : String} : Derivation book bindings name → Nat
  | .node _ _ _ _ filling => filling.depth + 1

def Filling.depth {template : Template} : Filling book bindings template → Nat
  | .nil => 0
  | .literal _ tail => tail.depth
  | .bound _ _ tail => tail.depth
  | .derived _ piece tail => max piece.depth tail.depth

end

mutual

def Derivation.size {name : String} : Derivation book bindings name → Nat
  | .node _ _ _ _ filling => filling.size + 1

def Filling.size {template : Template} : Filling book bindings template → Nat
  | .nil => 0
  | .literal _ tail => tail.size
  | .bound _ _ tail => tail.size
  | .derived _ piece tail => piece.size + tail.size

end

/-! ## Derivable names -/

/-- A name is derivable when a category of that name has an alternative that can be chosen
and filled. -/
theorem nonempty_derivation_iff {name : String} :
    Nonempty (Derivation book bindings name) ↔
      ∃ category, book.find? name = some category ∧ ∃ alternative ∈ category.alternatives,
        alternative.weight.isPositive = true ∧
          Nonempty (Filling book bindings alternative.template) := by
  constructor
  · intro hderivation
    obtain ⟨category, hfind, i, hpositive, filling⟩ := hderivation
    exact ⟨category, hfind, _, List.get_mem _ i, hpositive, ⟨filling⟩⟩
  · intro hcategory
    obtain ⟨category, hfind, alternative, halternative, hpositive, hfilling⟩ := hcategory
    obtain ⟨i, rfl⟩ := List.get_of_mem halternative
    obtain ⟨filling⟩ := hfilling
    exact ⟨.node category hfind i hpositive filling⟩

/-- A template can be filled when each placeholder in it is bound or derivable. -/
theorem nonempty_filling {template : Template}
    (hnames : ∀ name ∈ template.placeholders, bindings.get? name = none →
      Nonempty (Derivation book bindings name)) :
    Nonempty (Filling book bindings template) := by
  induction template with
  | nil => exact ⟨.nil⟩
  | cons segment rest ih =>
      cases segment with
      | literal text =>
          obtain ⟨tail⟩ := ih hnames
          exact ⟨.literal text tail⟩
      | placeholder name =>
          obtain ⟨tail⟩ := ih fun other hother => hnames other (List.mem_cons_of_mem _ hother)
          cases hname : bindings.get? name with
          | some text => exact ⟨.bound text hname tail⟩
          | none =>
              obtain ⟨piece⟩ := hnames name List.mem_cons_self hname
              exact ⟨.derived hname piece tail⟩

end Phrasebook

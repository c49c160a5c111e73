import Phrasebook.Ascending

/-! # Bindings

Names bound to texts that need no expansion. A placeholder with a bound name stands
for the bound text. Bindings are kept in ascending order of the names, so equal
bindings have equal entries.
-/

namespace Phrasebook

structure Bindings where
  entries : List (String × String)
  ascending : Ascending Prod.fst entries

namespace Bindings

def empty : Bindings := ⟨[], List.Pairwise.nil⟩

/-- The bindings with a name bound to a text, whatever it was bound to before. -/
def bind (bindings : Bindings) (name text : String) : Bindings :=
  ⟨Ascending.insert Prod.fst (name, text) bindings.entries,
    Ascending.ascending_insert (name, text) bindings.ascending⟩

/-- The bindings of a list of pairs; of two with the same name the later one counts. -/
def ofList (pairs : List (String × String)) : Bindings :=
  pairs.foldl (fun bindings pair => bindings.bind pair.1 pair.2) empty

def get? (bindings : Bindings) (name : String) : Option String :=
  (bindings.entries.find? (·.1 == name)).map (·.2)

theorem get?_bind_self (bindings : Bindings) (name text : String) :
    (bindings.bind name text).get? name = some text := by
  have found := Ascending.find?_insert_self Prod.fst (name, text) bindings.entries
  simp only [get?, bind]
  rw [found]
  rfl

theorem get?_bind_of_ne (bindings : Bindings) {name other : String} (h : name ≠ other)
    (text : String) : (bindings.bind name text).get? other = bindings.get? other :=
  congrArg (Option.map Prod.snd) <|
    @Ascending.find?_insert_of_ne _ Prod.fst (name, text) other h bindings.entries

def size (bindings : Bindings) : Nat := bindings.entries.length

instance : BEq Bindings := ⟨fun a b => a.entries == b.entries⟩

end Bindings

end Phrasebook

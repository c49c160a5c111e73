import Phrasebook.Proofs.Expansion.Recursion
import Phrasebook.Proofs.Lint.Reach
import Phrasebook.Proofs.Text.Unbroken

/-!
# What faults of an expansion name

An expansion meets no names but those of a set that holds its start and is closed under
reference, so its faults name nothing else.
-/

namespace Phrasebook

namespace Expansion

def Error.names : Error → List String
  | .unknownCategory name referencedFrom => name :: referencedFrom.toList
  | .depthExceeded category _ => [category]
  | .noPositiveWeight category => [category]
  | .expansionLimit category _ => [category]

theorem Error.newline_mem_message_iff {error : Error} :
    '\n' ∈ error.message.toList ↔ ∃ name ∈ error.names, '\n' ∈ name.toList := by
  unfold message names
  cases error with
  | unknownCategory name referencedFrom => cases referencedFrom <;> simp
  | depthExceeded category maxDepth => simp [Text.unbroken_toDigits]
  | noPositiveWeight category => simp
  | expansionLimit category limit => simp [Text.unbroken_toDigits]

/-- The answer is a text, or a fault that names only what is in a set. -/
def NamesWithin (names : Set String) (answer : Except Error α) : Prop :=
  ∀ error, answer = .error error → ∀ name ∈ error.names, name ∈ names

section
variable {names : Set String}

theorem namesWithin_ok (x : α) : NamesWithin names (.ok x) := nofun

theorem namesWithin_error {error : Error} (hnames : ∀ name ∈ error.names, name ∈ names) :
    NamesWithin names (.error error : Except Error α) := by
  rintro _ ⟨⟩
  exact hnames

theorem NamesWithin.map {answer : Except Error α} (hanswer : NamesWithin names answer)
    (f : α → β) : NamesWithin names (answer.map f) := by
  cases answer with
  | error error => exact namesWithin_error (hanswer error rfl)
  | ok x => exact namesWithin_ok (f x)

theorem NamesWithin.bind {answer : Except Error α} (hanswer : NamesWithin names answer)
    {f : α → Except Error β} (hf : ∀ x, NamesWithin names (f x)) :
    NamesWithin names (answer.bind f) := by
  cases answer with
  | error error => exact namesWithin_error (hanswer error rfl)
  | ok x => exact hf x

namespace Task

variable {task : Task}

theorem namesWithin_emit {depth : Nat}
    (hbelow : ∀ name ∈ names, ∀ referencedFrom : Option String,
      (∀ parent ∈ referencedFrom, parent ∈ names) → ∀ path spent,
        NamesWithin names (task.expandAt name referencedFrom (depth + 1) path spent))
    {parent : String} (hparent : parent ∈ names) (path : Draw.Path) (i k : Nat)
    {segments : Template} (hsegments : ∀ name ∈ segments.placeholders, name ∈ names)
    (spent : Nat) : NamesWithin names (task.emit parent depth path i k segments spent) := by
  induction segments generalizing k spent with
  | nil =>
      rw [emit_nil]
      exact namesWithin_ok _
  | cons segment rest ih =>
      cases segment with
      | literal text =>
          rw [emit_literal]
          exact (ih k hsegments spent).map _
      | placeholder name =>
          obtain ⟨hname, hrest⟩ : name ∈ names ∧
              ∀ name ∈ Template.placeholders rest, name ∈ names := by
            simpa [Template.placeholders, Segment.name?] using hsegments
          cases hbound : task.bindings.get? name with
          | some bound =>
              rw [emit_bound hbound]
              exact (ih (k + 1) hrest spent).map _
          | none =>
              rw [emit_free hbound]
              have hpiece := hbelow name hname (some parent) (by simpa using hparent)
              exact (hpiece _ spent).bind fun piece => (ih (k + 1) hrest piece.2).map _

/-- Expanding a name of a set that is closed under reference, for one that is in the set as
well, meets no other names. -/
theorem namesWithin_expandAt (hclosed : task.book.IsReferenceClosed names) (name : String)
    (hname : name ∈ names) (referencedFrom : Option String)
    (hfrom : ∀ parent ∈ referencedFrom, parent ∈ names) (depth : Nat) (path : Draw.Path)
    (spent : Nat) :
    NamesWithin names (task.expandAt name referencedFrom depth path spent) := by
  rw [expandAt]
  split
  · refine namesWithin_error ?_
    simpa [Error.names] using ⟨hname, hfrom⟩
  · next category hfind =>
    split
    · exact namesWithin_error (by simpa [Error.names] using hname)
    · split
      · exact namesWithin_error (by simpa [Error.names] using hname)
      · split
        · exact namesWithin_error (by simpa [Error.names] using hname)
        · next i _ =>
          have hbelow := fun name hname referencedFrom hfrom path spent =>
            namesWithin_expandAt hclosed name hname referencedFrom hfrom (depth + 1) path spent
          apply namesWithin_emit hbelow hname
          intro reference hreference
          apply hclosed name hname category hfind
          exact List.mem_flatMap.2 ⟨_, List.get_mem _ i, hreference⟩
termination_by task.maxDepth - depth

end Task

end

end Expansion

theorem Book.namesWithin_generate {book : Book} {names : Set String}
    (hclosed : book.IsReferenceClosed names) {start : String} (hstart : start ∈ names)
    (config : Config) (bindings : Bindings) (seed : Seed) (t : Binary64) :
    Expansion.NamesWithin names (book.generate config start bindings seed t) := by
  let task : Expansion.Task :=
    ⟨book, bindings, (Draw.Source.ofTime seed.state t).at, config.maxDepth, config.maxExpansions⟩
  have hexpand := task.namesWithin_expandAt hclosed start hstart none (by simp) 0 #[] 0
  have hrecursively : book.generate config start bindings seed t =
      (task.expandAt start none 0 #[] 0).map Prod.fst := task.expand_eq_expandRecursively start
  rw [hrecursively]
  exact hexpand.map Prod.fst

end Phrasebook

import Phrasebook.Book.Basic
import Phrasebook.Config.Basic
import Phrasebook.Draw.Site
import Phrasebook.Draw.Weighted
import Phrasebook.Expansion.Bindings
import Phrasebook.Expansion.Error

/-! # The expansion machine

An expansion runs on a stack of frames, one for each category being expanded, so
its depth is bounded by the depth limit alone. All frames share one path, which
names the site of the top frame: entering a category from a placeholder appends two
steps to it, and leaving the category cuts it back to the length it had before.

Every step either leaves fewer segments to be read or spends one of the expansions
that the limit allows, so a run always ends.
-/

namespace Phrasebook.Expansion

structure Task where
  book : Book
  bindings : Bindings
  draw : Draw.Path → Binary64
  maxDepth : Nat
  maxExpansions : Nat

/-- A category being expanded. -/
structure Frame where
  category : String
  /-- The segments still to be emitted. -/
  rest : Template
  /-- The index of the alternative chosen. -/
  selection : UInt32
  /-- How many placeholders of the alternative have been passed. -/
  passed : UInt32
  /-- The length that the path goes back to when the frame is left. -/
  parentLength : Nat

structure State where
  /-- The categories being expanded, the innermost first. -/
  stack : List Frame
  path : Draw.Path
  expansions : Nat
  /-- The text emitted so far. -/
  text : String

/-- The segments that frames still hold, each frame counting for one more. -/
def unreadOf : List Frame → Nat
  | [] => 0
  | frame :: frames => frame.rest.length + 1 + unreadOf frames

def State.unread (state : State) : Nat := unreadOf state.stack

namespace Task

def choose (category : Category) (draw : Binary64) : Option (Nat × Alternative) :=
  match Draw.selectWeighted category.weights draw with
  | none => none
  | some index => category.alternatives[index]?.map (index, ·)

def enter (task : Task) (name : String) (referencedFrom : Option String) (parentLength : Nat)
    (state : State) : Except Error State :=
  match task.book.find? name with
  | none => .error (.unknownCategory name referencedFrom)
  | some category =>
    if task.maxDepth ≤ state.stack.length then .error (.depthExceeded name task.maxDepth)
    else if task.maxExpansions ≤ state.expansions then
      .error (.expansionLimit name task.maxExpansions)
    else
      match choose category (task.draw state.path) with
      | none => .error (.noPositiveWeight name)
      | some (index, alternative) =>
        let frame := ⟨category.name, alternative.template, index.toUInt32, 0, parentLength⟩
        .ok { state with stack := frame :: state.stack, expansions := state.expansions + 1 }

inductive Outcome where
  | finished (text : String)
  | failed (error : Error)
  | running (state : State)

/-- Reads one segment of the innermost frame, or leaves that frame at its end. -/
def step (task : Task) : State → Outcome
  | ⟨[], _, _, text⟩ => .finished text
  | ⟨frame :: frames, path, expansions, text⟩ =>
    match frame.rest with
    | [] => .running ⟨frames, path.shrink frame.parentLength, expansions, text⟩
    | .literal piece :: rest =>
      .running ⟨{ frame with rest := rest } :: frames, path, expansions, text ++ piece⟩
    | .placeholder name :: rest =>
      let passing := { frame with rest := rest, passed := frame.passed + 1 }
      match task.bindings.get? name with
      | some bound => .running ⟨passing :: frames, path, expansions, text ++ bound⟩
      | none =>
        let site := (path.push frame.selection).push frame.passed
        match task.enter name (some frame.category) path.size
            ⟨passing :: frames, site, expansions, text⟩ with
        | .error error => .failed error
        | .ok state => .running state

/-! ## Runs end -/

theorem expansions_of_enter {task : Task} {name : String} {from? : Option String}
    {parentLength : Nat} {state next : State}
    (h : task.enter name from? parentLength state = .ok next) :
    state.expansions < task.maxExpansions ∧ next.expansions = state.expansions + 1 := by
  unfold enter at h
  split at h
  · cases h
  · split at h
    · cases h
    · split at h
      · cases h
      · split at h
        · cases h
        · next within _ _ _ _ =>
          cases h
          exact ⟨Nat.lt_of_not_le within, rfl⟩

/-- A step that keeps running spends an expansion or leaves less to be read. -/
theorem step_decreases {task : Task} {state next : State} (h : task.step state = .running next) :
    task.maxExpansions - next.expansions < task.maxExpansions - state.expansions ∨
      task.maxExpansions - next.expansions = task.maxExpansions - state.expansions ∧
        next.unread < state.unread := by
  unfold step at h
  split at h
  · cases h
  · split at h
    · next empty =>
      cases h
      simp [State.unread, unreadOf]
    · next found =>
      cases h
      simp [State.unread, unreadOf, found]
    · next found =>
      dsimp only at h
      split at h
      · cases h
        simp [State.unread, unreadOf, found]
      · split at h
        · cases h
        · next entered =>
          cases h
          obtain ⟨within, spent⟩ := expansions_of_enter entered
          exact .inl (spent ▸ Nat.sub_succ_lt_self _ _ within)

def run (task : Task) (state : State) : Except Error String :=
  match h : task.step state with
  | .finished text => .ok text
  | .failed error => .error error
  | .running next =>
    have _decreases := step_decreases h
    task.run next
termination_by (task.maxExpansions - state.expansions, state.unread)
decreasing_by
  simp only [Prod.lex_def]
  exact _decreases

def expand (task : Task) (start : String) : Except Error String :=
  match task.enter start none 0 ⟨[], #[], 0, ""⟩ with
  | .error error => .error error
  | .ok state => task.run state

end Task

end Phrasebook.Expansion

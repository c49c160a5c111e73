import Phrasebook.Proofs.Expansion.Recursion

/-!
# Steps of the expansion machine

All that a step can do, and all the states that a run comes to. A step that keeps running
leaves the innermost category, emits a text, or enters a category within the limits.
-/

namespace Phrasebook

def Book.task (book : Book) (config : Config) (bindings : Bindings) (seed : Seed)
    (t : Binary64) : Expansion.Task :=
  ⟨book, bindings, (Draw.Source.ofTime seed.state t).at, config.maxDepth, config.maxExpansions⟩

theorem Book.generate_eq_expand (book : Book) (config : Config) (start : String)
    (bindings : Bindings) (seed : Seed) (t : Binary64) :
    book.generate config start bindings seed t =
      (book.task config bindings seed t).expand start := rfl

namespace Expansion.Task

def initial : State := ⟨[], #[], 0, ""⟩

/-- A category is entered by a frame on top that holds the alternative selected at the path,
and only within the limits. -/
theorem enter_eq_ok_iff {task : Task} {name : String} {referencedFrom : Option String} {n : Nat}
    {state next : State} :
    task.enter name referencedFrom n state = .ok next ↔
      ∃ category i, task.book.find? name = some category ∧
        state.stack.length < task.maxDepth ∧ state.expansions < task.maxExpansions ∧
        category.selected (task.draw state.path) = some i ∧
        next = ⟨⟨category.name, (category.alternatives.get i).template, i.val.toUInt32, 0, n⟩ ::
          state.stack, state.path, state.expansions + 1, state.text⟩ := by
  unfold enter
  cases hfind : task.book.find? name with
  | none => simp
  | some category =>
      by_cases hdepth : task.maxDepth ≤ state.stack.length
      · have hnot : ¬state.stack.length < task.maxDepth := Nat.not_lt.2 hdepth
        simp [hdepth, hnot]
      · have hbelow : state.stack.length < task.maxDepth := Nat.lt_of_not_le hdepth
        by_cases hspent : task.maxExpansions ≤ state.expansions
        · have hnot : ¬state.expansions < task.maxExpansions := Nat.not_lt.2 hspent
          simp [hdepth, hspent, hnot]
        · have hwithin : state.expansions < task.maxExpansions := Nat.lt_of_not_le hspent
          cases hselected : category.selected (task.draw state.path) with
          | none => simp [hdepth, hspent, choose_eq_selected, hselected]
          | some i => simp [hdepth, hspent, choose_eq_selected, hselected, hbelow, hwithin, eq_comm]

inductive Advances (task : Task) : State → State → Prop where
  /-- The innermost frame is left at its end, and the path is cut to the length it records. -/
  | leave {parent : String} {i k : UInt32} {n : Nat} {frames : List Frame} {path : Draw.Path}
      {spent : Nat} {text : String} :
      Advances task ⟨⟨parent, [], i, k, n⟩ :: frames, path, spent, text⟩
        ⟨frames, path.shrink n, spent, text⟩
  | literal {parent piece : String} {rest : Template} {i k : UInt32} {n : Nat}
      {frames : List Frame} {path : Draw.Path} {spent : Nat} {text : String} :
      Advances task ⟨⟨parent, .literal piece :: rest, i, k, n⟩ :: frames, path, spent, text⟩
        ⟨⟨parent, rest, i, k, n⟩ :: frames, path, spent, text ++ piece⟩
  | bound {parent name piece : String} {rest : Template} {i k : UInt32} {n : Nat}
      {frames : List Frame} {path : Draw.Path} {spent : Nat} {text : String}
      (hbound : task.bindings.get? name = some piece) :
      Advances task ⟨⟨parent, .placeholder name :: rest, i, k, n⟩ :: frames, path, spent, text⟩
        ⟨⟨parent, rest, i, k + 1, n⟩ :: frames, path, spent, text ++ piece⟩
  /-- The category of a placeholder is entered, two steps further down. -/
  | enter {parent name : String} {rest : Template} {i k : UInt32} {n : Nat}
      {frames : List Frame} {path : Draw.Path} {spent : Nat} {text : String} {next : State}
      (hfree : task.bindings.get? name = none)
      (henter : task.enter name (some parent) path.size
        ⟨⟨parent, rest, i, k + 1, n⟩ :: frames, (path.push i).push k, spent, text⟩ = .ok next) :
      Advances task ⟨⟨parent, .placeholder name :: rest, i, k, n⟩ :: frames, path, spent, text⟩
        next

theorem advances_of_step {task : Task} {state next : State}
    (hstep : task.step state = .running next) : task.Advances state next := by
  obtain ⟨stack, path, spent, text⟩ := state
  cases stack with
  | nil => cases hstep
  | cons frame frames =>
      obtain ⟨parent, segments, i, k, n⟩ := frame
      cases segments with
      | nil =>
          cases hstep
          exact .leave
      | cons segment rest =>
          cases segment with
          | literal piece =>
              cases hstep
              exact .literal
          | placeholder name =>
              cases hname : task.bindings.get? name with
              | some piece =>
                  simp only [step, hname] at hstep
                  cases hstep
                  exact .bound hname
              | none =>
                  simp only [step, hname] at hstep
                  split at hstep
                  · cases hstep
                  · next henter =>
                    cases hstep
                    exact .enter hname henter

theorem step_eq_running_iff {task : Task} {state next : State} :
    task.step state = .running next ↔ task.Advances state next := by
  constructor
  · exact advances_of_step
  · intro hadvances
    cases hadvances with
    | leave | literal => rfl
    | bound hbound => simp only [step, hbound]
    | enter hfree henter => simp only [step, hfree, henter]

/-- The states at the head of the loop, each with the number of iterations before it. -/
inductive IsHead (task : Task) (start : String) : Nat → State → Prop where
  | first {state : State} (henter : task.enter start none 0 initial = .ok state) :
      IsHead task start 0 state
  | next {iterations : Nat} {state next : State} (hhead : IsHead task start iterations state)
      (hstep : task.step state = .running next) : IsHead task start (iterations + 1) next

/-- From every head of the loop the run comes to one where the next step ends it. -/
theorem IsHead.exists_last {task : Task} {start : String} {iterations : Nat} {state : State}
    (hhead : task.IsHead start iterations state) :
    ∃ total last, task.IsHead start total last ∧
      ((∃ text, task.step last = .finished text ∧ task.run state = .ok text) ∨
        ∃ error, task.step last = .failed error ∧ task.run state = .error error) := by
  rw [run_eq]
  cases hstep : task.step state with
  | finished text => exact ⟨iterations, state, hhead, .inl ⟨text, hstep, rfl⟩⟩
  | failed error => exact ⟨iterations, state, hhead, .inr ⟨error, hstep, rfl⟩⟩
  | running next => exact (hhead.next hstep).exists_last
termination_by (task.maxExpansions - state.expansions, state.unread)
decreasing_by
  simp only [Prod.lex_def]
  exact step_decreases hstep

end Expansion.Task

end Phrasebook

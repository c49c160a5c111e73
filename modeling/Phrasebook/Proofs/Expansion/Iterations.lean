import Mathlib.Data.List.MinMax
import Phrasebook.Proofs.Expansion.Steps
import Phrasebook.Proofs.Source.Contents

/-!
# How long an expansion runs

Each expansion that the limit allows pays for the segments of one alternative and for leaving
it, so what a run has read and has still to read together never exceed what was paid. The
stack stays within the depth limit, and the path is as long as the stack says.
-/

namespace Phrasebook

def Book.maxSegments (book : Book) : Nat :=
  ((book.categories.flatMap Category.alternatives).map (·.template.length)).max?.getD 0

theorem Book.length_template_le {book : Book} {category : Category} {alternative : Alternative}
    (hcategory : category ∈ book.categories) (halternative : alternative ∈ category.alternatives) :
    alternative.template.length ≤ book.maxSegments := by
  have hmem : alternative ∈ book.categories.flatMap Category.alternatives :=
    List.mem_flatMap.2 ⟨category, hcategory, halternative⟩
  exact List.le_max?_getD_of_mem (List.mem_map_of_mem hmem)

namespace Expansion.Task

/-- Whether leaving each frame of a stack goes back to the length that its depth gives. -/
def ReturnsInPairs : List Frame → Prop
  | [] => True
  | frame :: frames => frame.parentLength = 2 * (frames.length - 1) ∧ ReturnsInPairs frames

/-- What holds at the head of the loop after a number of iterations. -/
structure IsPaid (task : Task) (iterations : Nat) (state : State) : Prop where
  paid : iterations + state.unread ≤ state.expansions * (task.book.maxSegments + 1)
  within : state.expansions ≤ task.maxExpansions
  depth : state.stack.length ≤ task.maxDepth
  path : state.path.size = 2 * (state.stack.length - 1)
  returns : ReturnsInPairs state.stack

/-- Entering a category pays for its alternative. -/
theorem unread_of_enter {task : Task} {name : String} {referencedFrom : Option String} {n : Nat}
    {state next : State} (henter : task.enter name referencedFrom n state = .ok next) :
    next.unread ≤ state.unread + (task.book.maxSegments + 1) ∧
      next.expansions = state.expansions + 1 ∧ next.expansions ≤ task.maxExpansions ∧
        next.stack.length ≤ task.maxDepth ∧ next.path = state.path ∧
          ∃ frame, next.stack = frame :: state.stack ∧ frame.parentLength = n := by
  obtain ⟨category, i, hfind, hdepth, hspent, -, rfl⟩ := enter_eq_ok_iff.1 henter
  have hlength : (category.alternatives.get i).template.length ≤ task.book.maxSegments :=
    Book.length_template_le (Book.mem_of_find? hfind) (List.get_mem _ i)
  refine ⟨?_, rfl, hspent, hdepth, rfl, _, rfl, rfl⟩
  simp only [State.unread, unreadOf]
  omega

theorem isPaid_of_enter {task : Task} {start : String} {state : State}
    (henter : task.enter start none 0 initial = .ok state) : task.IsPaid 0 state := by
  obtain ⟨hunread, hexpansions, hwithin, hdepth, hpath, frame, hstack, hreturn⟩ :=
    unread_of_enter henter
  refine ⟨?_, hwithin, hdepth, ?_, ?_⟩
  · rw [hexpansions]
    simpa [initial, State.unread, unreadOf] using hunread
  · rw [hpath, hstack]
    rfl
  · rw [hstack]
    exact ⟨hreturn, trivial⟩

/-- An iteration reads one segment or leaves one frame, and an expansion that it makes is
paid for. -/
theorem IsPaid.step {task : Task} {iterations : Nat} {state next : State}
    (hpaid : task.IsPaid iterations state) (hstep : task.step state = .running next) :
    task.IsPaid (iterations + 1) next := by
  obtain ⟨hread, hwithin, hdepth, hpath, hreturns⟩ := hpaid
  cases step_eq_running_iff.1 hstep with
  | @leave _ _ _ n frames =>
      -- The frame left was counted for one more than its segments, which pays for leaving.
      simp only [State.unread, unreadOf, List.length_nil, List.length_cons] at hread hdepth hpath
      obtain ⟨hreturn, hbelow⟩ : n = 2 * (frames.length - 1) ∧ ReturnsInPairs frames := hreturns
      refine ⟨?_, hwithin, Nat.le_of_succ_le hdepth, ?_, hbelow⟩
      · simp only [State.unread]
        omega
      · simp only [Array.size_shrink]
        omega
  | literal | bound hbound =>
      simp only [State.unread, unreadOf, List.length_cons] at hread hdepth hpath
      refine ⟨?_, hwithin, hdepth, hpath, hreturns⟩
      simp only [State.unread, unreadOf]
      omega
  | enter hfree henter =>
      obtain ⟨hunread, hexpansions, hwithin', hdepth', hpath', frame, hstack, hreturn⟩ :=
        unread_of_enter henter
      simp only [State.unread, unreadOf, List.length_cons] at hread hunread hpath
      simp only at hexpansions
      refine ⟨?_, hwithin', hdepth', ?_, ?_⟩
      · rw [hexpansions, Nat.succ_mul, State.unread]
        omega
      · rw [hpath', hstack]
        simp only [Array.size_push, List.length_cons]
        omega
      · rw [hstack]
        exact ⟨hreturn.trans hpath, hreturns⟩

theorem IsHead.isPaid {task : Task} {start : String} {iterations : Nat} {state : State}
    (hhead : task.IsHead start iterations state) : task.IsPaid iterations state := by
  induction hhead with
  | first henter => exact isPaid_of_enter henter
  | next _ hstep ih => exact ih.step hstep

/-- All iterations together are paid by the expansions that the limit allows. -/
theorem IsPaid.iterations_le {task : Task} {iterations : Nat} {state : State}
    (hpaid : task.IsPaid iterations state) :
    iterations + state.unread ≤ task.maxExpansions * (task.book.maxSegments + 1) :=
  Nat.le_trans hpaid.paid (Nat.mul_le_mul_right _ hpaid.within)

theorem unread_pos {state : State} (hstack : state.stack ≠ []) : 0 < state.unread := by
  obtain ⟨frame, frames, hframes⟩ := List.exists_cons_of_ne_nil hstack
  rw [State.unread, hframes, unreadOf]
  omega

end Expansion.Task

/-- Generating always ends, by a category that cannot be entered or at a head of the loop from
which no further one is reached. Each expansion allowed accounts for one iteration more than
the largest alternative has segments: no head comes after more iterations than that, and one
that still has a frame comes after fewer, so the iteration that starts there is counted too.
While there are frames, they are no more than the depth limit, and the path has two steps for
each but the first. -/
theorem Book.generate_ends_within (book : Book) (config : Config) (start : String)
    (bindings : Bindings) (seed : Seed) (t : Binary64) :
    (∀ iterations state,
      (book.task config bindings seed t).IsHead start iterations state →
        iterations ≤ config.maxExpansions * (book.maxSegments + 1) ∧
        (state.stack ≠ [] →
          iterations < config.maxExpansions * (book.maxSegments + 1) ∧
          state.stack.length ≤ config.maxDepth ∧
          state.path.size = 2 * (state.stack.length - 1))) ∧
    ((∃ error,
        (book.task config bindings seed t).enter start none 0 Expansion.Task.initial =
          .error error ∧
        book.generate config start bindings seed t = .error error) ∨
      ∃ iterations last, (book.task config bindings seed t).IsHead start iterations last ∧
        ((∃ text, (book.task config bindings seed t).step last = .finished text ∧
            book.generate config start bindings seed t = .ok text) ∨
          ∃ error, (book.task config bindings seed t).step last = .failed error ∧
            book.generate config start bindings seed t = .error error)) := by
  constructor
  · intro iterations state hhead
    have hpaid := hhead.isPaid
    have hiterations : iterations + state.unread ≤
        config.maxExpansions * (book.maxSegments + 1) := hpaid.iterations_le
    refine ⟨by omega, fun hstack => ?_⟩
    have hpos := Expansion.Task.unread_pos hstack
    exact ⟨by omega, hpaid.depth, hpaid.path⟩
  · rw [generate_eq_expand, Expansion.Task.expand_eq, ← Expansion.Task.initial]
    generalize book.task config bindings seed t = task
    cases henter : task.enter start none 0 Expansion.Task.initial with
    | error error => exact .inl ⟨error, rfl, rfl⟩
    | ok state => exact .inr (Expansion.Task.IsHead.first henter).exists_last

theorem Book.generate_ends_within_loop :
    ∃ book, Source.parse "loop:\n- {{loop}} again\n" = .ok book ∧ book.maxSegments = 2 ∧
      ∃ state, (book.task ⟨2, 3, "loop"⟩ Bindings.empty ⟨"#7", 7⟩ .zero).IsHead "loop" 1 state ∧
        state.stack ≠ [] ∧ 1 < 3 * (2 + 1) ∧ state.stack.length ≤ 2 ∧
          state.path.size = 2 * (state.stack.length - 1) := by
  let loop : Category := ⟨"loop", [⟨.one, [.placeholder "loop", .literal " again"]⟩]⟩
  obtain ⟨book, hparse, htest⟩ := Source.exists_parse_of_test "loop:\n- {{loop}} again\n"
    (fun book => decide (book.categories = [loop])) (by decide +kernel)
  have hcategories : book.categories = [loop] := of_decide_eq_true htest
  have hsegments : book.maxSegments = 2 := by
    rw [maxSegments, hcategories]
    rfl
  have hfind : book.find? "loop" = some loop := by
    rw [find?, hcategories]
    rfl
  let task := book.task ⟨2, 3, "loop"⟩ Bindings.empty ⟨"#7", 7⟩ .zero
  have hroot : loop.selected ((Draw.Source.ofTime 7 .zero).at #[]) = some ⟨0, by decide⟩ := by
    decide +kernel
  have hinner : loop.selected ((Draw.Source.ofTime 7 .zero).at #[0, 0]) =
      some ⟨0, by decide⟩ := by
    decide +kernel
  have hfirst : task.enter "loop" none 0 Expansion.Task.initial =
      .ok ⟨[⟨"loop", [.placeholder "loop", .literal " again"], 0, 0, 0⟩], #[], 1, ""⟩ :=
    Expansion.Task.enter_eq_ok_iff.2
      ⟨loop, _, hfind, Nat.zero_lt_two, Nat.zero_lt_succ 2, hroot, rfl⟩
  have hsecond : task.enter "loop" (some "loop") 0
      ⟨[⟨"loop", [.literal " again"], 0, 1, 0⟩], #[0, 0], 1, ""⟩ =
      .ok ⟨[⟨"loop", [.placeholder "loop", .literal " again"], 0, 0, 0⟩,
        ⟨"loop", [.literal " again"], 0, 1, 0⟩], #[0, 0], 2, ""⟩ :=
    Expansion.Task.enter_eq_ok_iff.2
      ⟨loop, _, hfind, Nat.one_lt_two, Nat.succ_lt_succ Nat.zero_lt_two, hinner, rfl⟩
  have hstep : task.step
      ⟨[⟨"loop", [.placeholder "loop", .literal " again"], 0, 0, 0⟩], #[], 1, ""⟩ =
      .running ⟨[⟨"loop", [.placeholder "loop", .literal " again"], 0, 0, 0⟩,
        ⟨"loop", [.literal " again"], 0, 1, 0⟩], #[0, 0], 2, ""⟩ :=
    Expansion.Task.step_eq_running_iff.2 (.enter rfl hsecond)
  have hhead := (Expansion.Task.IsHead.first hfirst).next hstep
  have hwithin := ((book.generate_ends_within ⟨2, 3, "loop"⟩ "loop" Bindings.empty ⟨"#7", 7⟩
    .zero).1 1 _ hhead).2 (List.cons_ne_nil _ _)
  rw [hsegments] at hwithin
  exact ⟨book, hparse, hsegments, _, hhead, List.cons_ne_nil _ _, hwithin⟩

end Phrasebook

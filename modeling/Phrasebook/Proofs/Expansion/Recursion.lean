import Phrasebook.Expansion.Generate
import Phrasebook.Proofs.Book.Entries
import Phrasebook.Proofs.Draw.Selection

/-!
# Expansion by recursion

What the machine computes, said without its stack: a category is expanded at a depth
and a path, and each placeholder of the alternative chosen there is expanded one level
deeper, at the path longer by the alternative and the placeholder. The only thing
carried from one expansion to the next is how many were made.
-/

namespace Phrasebook.Expansion.Task

mutual

/-- Expands the category `name` at nesting depth `depth`, after `spent` other expansions.
Answers the text and how many expansions were made by then. -/
def expandAt (task : Task) (name : String) (referencedFrom : Option String) (depth : Nat)
    (path : Draw.Path) (spent : Nat) : Except Error (String × Nat) :=
  match task.book.find? name with
  | none => .error (.unknownCategory name referencedFrom)
  | some category =>
    if task.maxDepth ≤ depth then .error (.depthExceeded name task.maxDepth)
    else if task.maxExpansions < spent + 1 then .error (.expansionLimit name task.maxExpansions)
    else
      match category.selected (task.draw path) with
      | none => .error (.noPositiveWeight name)
      | some i => emit task name depth path i 0 (category.alternatives.get i).template (spent + 1)
termination_by (task.maxDepth + 1 - depth, 0)
decreasing_by exact Prod.Lex.left _ _ (by omega)

/-- Emits segments of the alternative `i` of `parent`, the first placeholder among them
being the `k`-th one of the alternative. -/
def emit (task : Task) (parent : String) (depth : Nat) (path : Draw.Path) (i k : Nat)
    (segments : Template) (spent : Nat) : Except Error (String × Nat) :=
  match segments with
  | [] => .ok ("", spent)
  | .literal text :: rest =>
    (emit task parent depth path i k rest spent).map fun (tail, spent) => (text ++ tail, spent)
  | .placeholder name :: rest =>
    match task.bindings.get? name with
    | some bound =>
      (emit task parent depth path i (k + 1) rest spent).map fun (tail, spent) =>
        (bound ++ tail, spent)
    | none =>
      match expandAt task name (some parent) (depth + 1) (path ++ #[i.toUInt32, k.toUInt32])
          spent with
      | .error error => .error error
      | .ok (piece, spent) =>
        (emit task parent depth path i (k + 1) rest spent).map fun (tail, spent) =>
          (piece ++ tail, spent)
termination_by (task.maxDepth - depth, segments.length + 1)
decreasing_by
  · exact Prod.Lex.right _ (Nat.lt_succ_self _)
  · exact Prod.Lex.right _ (Nat.lt_succ_self _)
  · rw [Nat.add_sub_add_right]
    exact Prod.Lex.right _ (Nat.succ_pos _)
  · exact Prod.Lex.right _ (Nat.lt_succ_self _)

end

def expandRecursively (task : Task) (start : String) : Except Error String :=
  (task.expandAt start none 0 #[] 0).map Prod.fst

/-! ## What one expansion comes to -/

section
variable {task : Task} {name : String} {referencedFrom : Option String} {depth : Nat}
  {path : Draw.Path} {spent : Nat} {category : Category}

theorem expandAt_of_find?_eq_none (hfind : task.book.find? name = none) :
    task.expandAt name referencedFrom depth path spent =
      .error (.unknownCategory name referencedFrom) := by
  rw [expandAt]
  simp only [hfind]

theorem expandAt_of_maxDepth_le (hfind : task.book.find? name = some category)
    (hdepth : task.maxDepth ≤ depth) :
    task.expandAt name referencedFrom depth path spent =
      .error (.depthExceeded name task.maxDepth) := by
  rw [expandAt]
  simp only [hfind, if_pos hdepth]

theorem expandAt_of_maxExpansions_le (hfind : task.book.find? name = some category)
    (hdepth : depth < task.maxDepth) (hspent : task.maxExpansions ≤ spent) :
    task.expandAt name referencedFrom depth path spent =
      .error (.expansionLimit name task.maxExpansions) := by
  rw [expandAt]
  simp only [hfind, if_neg (Nat.not_le.2 hdepth), if_pos (Nat.lt_succ_of_le hspent)]

theorem expandAt_eq_selected (hfind : task.book.find? name = some category)
    (hdepth : depth < task.maxDepth) (hspent : spent < task.maxExpansions) :
    task.expandAt name referencedFrom depth path spent =
      match category.selected (task.draw path) with
      | none => .error (.noPositiveWeight name)
      | some i =>
        task.emit name depth path i 0 (category.alternatives.get i).template (spent + 1) := by
  have hwithin : ¬task.maxExpansions < spent + 1 := Nat.not_lt.2 hspent
  rw [expandAt]
  simp only [hfind, if_neg (Nat.not_le.2 hdepth), if_neg hwithin]

end

/-! ## Emitting one segment -/

section
variable {task : Task} {parent : String} {depth : Nat} {path : Draw.Path} {i k : Nat}
  {rest : Template} {spent : Nat}

theorem emit_nil : task.emit parent depth path i k [] spent = .ok ("", spent) := by
  rw [emit]

theorem emit_literal {text : String} :
    task.emit parent depth path i k (.literal text :: rest) spent =
      (task.emit parent depth path i k rest spent).map fun (tail, after) =>
        (text ++ tail, after) := by
  rw [emit]

theorem emit_bound {name bound : String} (hbound : task.bindings.get? name = some bound) :
    task.emit parent depth path i k (.placeholder name :: rest) spent =
      (task.emit parent depth path i (k + 1) rest spent).map fun (tail, after) =>
        (bound ++ tail, after) := by
  rw [emit]
  simp only [hbound]

theorem emit_free {name : String} (hfree : task.bindings.get? name = none) :
    task.emit parent depth path i k (.placeholder name :: rest) spent =
      (task.expandAt name (some parent) (depth + 1) (path ++ #[i.toUInt32, k.toUInt32])
          spent).bind fun (piece, between) =>
        (task.emit parent depth path i (k + 1) rest between).map fun (tail, after) =>
          (piece ++ tail, after) := by
  rw [emit]
  simp only [hfree]
  cases task.expandAt name (some parent) (depth + 1) (path ++ #[i.toUInt32, k.toUInt32])
    spent <;> rfl

end

/-! ## Expansions that answer a text -/

/-- A category is expanded to a text when it is within the limits and the segments of the
alternative selected in it are emitted. -/
theorem expandAt_eq_ok_iff {task : Task} {name : String} {referencedFrom : Option String}
    {depth : Nat} {path : Draw.Path} {spent : Nat} {answer : String × Nat} :
    task.expandAt name referencedFrom depth path spent = .ok answer ↔
      ∃ category i, task.book.find? name = some category ∧ depth < task.maxDepth ∧
        spent < task.maxExpansions ∧ category.selected (task.draw path) = some i ∧
          task.emit name depth path i 0 (category.alternatives.get i).template (spent + 1) =
            .ok answer := by
  cases hfind : task.book.find? name with
  | none => simp [expandAt_of_find?_eq_none hfind]
  | some category =>
      by_cases hdepth : task.maxDepth ≤ depth
      · have hnot : ¬depth < task.maxDepth := Nat.not_lt.2 hdepth
        simp [expandAt_of_maxDepth_le hfind hdepth, hnot]
      · have hbelow : depth < task.maxDepth := Nat.lt_of_not_le hdepth
        by_cases hlimit : task.maxExpansions ≤ spent
        · have hnot : ¬spent < task.maxExpansions := Nat.not_lt.2 hlimit
          simp [expandAt_of_maxExpansions_le hfind hbelow hlimit, hnot]
        · have hwithin : spent < task.maxExpansions := Nat.lt_of_not_le hlimit
          rw [expandAt_eq_selected hfind hbelow hwithin]
          cases hselected : category.selected (task.draw path) with
          | none => simp [hselected]
          | some i => simp [hselected, hwithin, hbelow]

section
variable {task : Task} {parent : String} {depth : Nat} {path : Draw.Path} {i k : Nat}
  {rest : Template} {spent after : Nat} {text : String}

theorem map_append_eq_ok_iff {answer : Except Error (String × Nat)} {piece : String} :
    (answer.map fun (tail, spent) => (piece ++ tail, spent)) = .ok (text, after) ↔
      ∃ tail, answer = .ok (tail, after) ∧ text = piece ++ tail := by
  cases answer with
  | error error => simp [Except.map]
  | ok answer =>
      obtain ⟨tail, spent⟩ := answer
      constructor
      · intro hanswer
        cases hanswer
        exact ⟨tail, rfl, rfl⟩
      · intro hanswer
        obtain ⟨_, hsame, rfl⟩ := hanswer
        cases hsame
        rfl

theorem emit_literal_eq_ok_iff {piece : String} :
    task.emit parent depth path i k (.literal piece :: rest) spent = .ok (text, after) ↔
      ∃ tail, task.emit parent depth path i k rest spent = .ok (tail, after) ∧
        text = piece ++ tail := by
  rw [emit_literal, map_append_eq_ok_iff]

theorem emit_bound_eq_ok_iff {name bound : String}
    (hbound : task.bindings.get? name = some bound) :
    task.emit parent depth path i k (.placeholder name :: rest) spent = .ok (text, after) ↔
      ∃ tail, task.emit parent depth path i (k + 1) rest spent = .ok (tail, after) ∧
        text = bound ++ tail := by
  rw [emit_bound hbound, map_append_eq_ok_iff]

theorem emit_free_eq_ok_iff {name : String} (hfree : task.bindings.get? name = none) :
    task.emit parent depth path i k (.placeholder name :: rest) spent = .ok (text, after) ↔
      ∃ piece between tail, task.expandAt name (some parent) (depth + 1)
          (path ++ #[i.toUInt32, k.toUInt32]) spent = .ok (piece, between) ∧
        task.emit parent depth path i (k + 1) rest between = .ok (tail, after) ∧
          text = piece ++ tail := by
  rw [emit_free hfree]
  cases hexpand : task.expandAt name (some parent) (depth + 1)
      (path ++ #[i.toUInt32, k.toUInt32]) spent with
  | error error => simp [Except.bind]
  | ok answer =>
      obtain ⟨piece, between⟩ := answer
      simp only [Except.bind, map_append_eq_ok_iff]
      constructor
      · intro hanswer
        obtain ⟨tail, htail, htext⟩ := hanswer
        exact ⟨piece, between, tail, rfl, htail, htext⟩
      · intro hanswer
        obtain ⟨_, _, tail, hsame, htail, htext⟩ := hanswer
        cases hsame
        exact ⟨tail, htail, htext⟩

end

/-! ## Over another book -/

def withBook (task : Task) (book : Book) : Task := { task with book := book }

@[simp] theorem withBook_bindings (task : Task) (book : Book) :
    (task.withBook book).bindings = task.bindings := rfl

@[simp] theorem withBook_draw (task : Task) (book : Book) :
    (task.withBook book).draw = task.draw := rfl

/-- Where both books have a category of the name, a limit is met in both or in neither. -/
theorem expandAt_withBook_of_limits {task : Task} {other : Book} {name : String}
    {category category' : Category} (hfind : task.book.find? name = some category)
    (hother : (task.withBook other).book.find? name = some category')
    (referencedFrom : Option String) (depth : Nat) (path : Draw.Path) (spent : Nat) :
    (∃ error, task.expandAt name referencedFrom depth path spent = .error error ∧
        (task.withBook other).expandAt name referencedFrom depth path spent = .error error) ∨
      depth < task.maxDepth ∧ spent < task.maxExpansions := by
  by_cases hdeep : task.maxDepth ≤ depth
  · exact .inl ⟨_, expandAt_of_maxDepth_le hfind hdeep, expandAt_of_maxDepth_le hother hdeep⟩
  · have hdepth : depth < task.maxDepth := Nat.lt_of_not_le hdeep
    by_cases hmany : task.maxExpansions ≤ spent
    · exact .inl ⟨_, expandAt_of_maxExpansions_le hfind hdepth hmany,
        expandAt_of_maxExpansions_le hother hdepth hmany⟩
    · exact .inr ⟨hdepth, Nat.lt_of_not_le hmany⟩

/-! ## Steps of a run -/

theorem run_eq (task : Task) (state : State) :
    task.run state =
      match task.step state with
      | .finished text => .ok text
      | .failed error => .error error
      | .running next => task.run next := by
  rw [run]
  split <;> next hstep => simp only [hstep]

theorem run_nil (task : Task) (path : Draw.Path) (spent : Nat) (text : String) :
    task.run ⟨[], path, spent, text⟩ = .ok text := by
  rw [run_eq]
  rfl

theorem expand_eq (task : Task) (start : String) :
    task.expand start = (task.enter start none 0 ⟨[], #[], 0, ""⟩).bind task.run := by
  unfold expand
  split <;> next henter => rw [henter]; rfl

section
variable {task : Task} {parent : String} {rest : Template} {i k : UInt32} {n : Nat}
  {frames : List Frame} {path : Draw.Path} {spent : Nat} {text : String}

theorem run_leave :
    task.run ⟨⟨parent, [], i, k, n⟩ :: frames, path, spent, text⟩ =
      task.run ⟨frames, path.shrink n, spent, text⟩ := by
  rw [run_eq]
  rfl

theorem run_literal {piece : String} :
    task.run ⟨⟨parent, .literal piece :: rest, i, k, n⟩ :: frames, path, spent, text⟩ =
      task.run ⟨⟨parent, rest, i, k, n⟩ :: frames, path, spent, text ++ piece⟩ := by
  rw [run_eq]
  rfl

theorem run_bound {name bound : String} (hbound : task.bindings.get? name = some bound) :
    task.run ⟨⟨parent, .placeholder name :: rest, i, k, n⟩ :: frames, path, spent, text⟩ =
      task.run ⟨⟨parent, rest, i, k + 1, n⟩ :: frames, path, spent, text ++ bound⟩ := by
  rw [run_eq]
  simp only [step, hbound]

theorem run_placeholder {name : String} (hfree : task.bindings.get? name = none) :
    task.run ⟨⟨parent, .placeholder name :: rest, i, k, n⟩ :: frames, path, spent, text⟩ =
      (task.enter name (some parent) path.size
        ⟨⟨parent, rest, i, k + 1, n⟩ :: frames, (path.push i).push k, spent, text⟩).bind
          task.run := by
  rw [run_eq]
  simp only [step, hfree]
  cases task.enter name (some parent) path.size
    ⟨⟨parent, rest, i, k + 1, n⟩ :: frames, (path.push i).push k, spent, text⟩ <;> rfl

end

/-! ## The run of one expansion

The text of an expansion is what a run appends between entering a category and leaving
it again. Entering is compared at all frame stacks of one height, which is the depth.
-/

/-- Goes on with a run, back on the path outside, once the expansion of its innermost frame
has answered. -/
def resume (task : Task) (frames : List Frame) (path : Draw.Path) (text : String) :
    String × Nat → Except Error String
  | (piece, spent) => task.run ⟨frames, path, spent, text ++ piece⟩

/-- Whether entering a category at a depth, and running on, first expands it recursively. -/
def EntersAt (task : Task) (depth : Nat) : Prop :=
  ∀ (name : String) (referencedFrom : Option String) (n : Nat) (frames : List Frame)
    (path : Draw.Path) (spent : Nat) (text : String), frames.length = depth →
      (task.enter name referencedFrom n ⟨frames, path, spent, text⟩).bind task.run =
        (task.expandAt name referencedFrom depth path spent).bind
          (task.resume frames (path.shrink n) text)

/-- A piece goes to the front of what follows it or to the end of what is there before. -/
theorem bind_resume_map (task : Task) (frames : List Frame) (path : Draw.Path)
    (text piece : String) (answer : Except Error (String × Nat)) :
    (answer.map fun (tail, spent) => (piece ++ tail, spent)).bind (task.resume frames path text) =
      answer.bind (task.resume frames path (text ++ piece)) := by
  cases answer with
  | error error => rfl
  | ok answer => simp [Except.bind, Except.map, resume, String.append_assoc]

/-- A frame emits its segments, when the level below it enters categories rightly. -/
theorem run_frame {task : Task} {frames : List Frame} (hbelow : task.EntersAt (frames.length + 1))
    (parent : String) (path : Draw.Path) (i k n : Nat) (segments : Template) (spent : Nat)
    (text : String) :
    task.run ⟨⟨parent, segments, i.toUInt32, k.toUInt32, n⟩ :: frames, path, spent, text⟩ =
      (task.emit parent frames.length path i k segments spent).bind
        (task.resume frames (path.shrink n) text) := by
  induction segments generalizing k spent text with
  | nil =>
      rw [run_leave, emit_nil]
      simp [Except.bind, resume]
  | cons segment rest ih =>
      have hnext : k.toUInt32 + 1 = (k + 1).toUInt32 := by
        simp
      cases segment with
      | literal piece =>
          rw [run_literal, ih, emit_literal, bind_resume_map]
      | placeholder name =>
          cases hname : task.bindings.get? name with
          | some bound =>
              rw [run_bound hname, hnext, ih, emit_bound hname, bind_resume_map]
          | none =>
              have hsite : (path.push i.toUInt32).push k.toUInt32 =
                  path ++ #[i.toUInt32, k.toUInt32] := rfl
              have hback : (path ++ #[i.toUInt32, k.toUInt32]).shrink path.size = path := by
                simp
              rw [run_placeholder hname, hnext, hbelow _ _ _ _ _ _ _ rfl, emit_free hname, hsite,
                hback]
              cases task.expandAt name (some parent) (frames.length + 1)
                  (path ++ #[i.toUInt32, k.toUInt32]) spent with
              | error error => rfl
              | ok answer =>
                  obtain ⟨piece, between⟩ := answer
                  show task.resume _ path text (piece, between) =
                    ((task.emit parent frames.length path i (k + 1) rest between).map
                      fun (tail, after) => (piece ++ tail, after)).bind
                        (task.resume frames (path.shrink n) text)
                  rw [bind_resume_map, ← ih, resume]

/-! ## All levels -/

theorem entersAt_of_maxDepth_le {task : Task} {depth : Nat} (hdepth : task.maxDepth ≤ depth) :
    task.EntersAt depth := by
  rintro name referencedFrom n frames path spent text rfl
  rw [expandAt]
  unfold enter
  cases task.book.find? name with
  | none => rfl
  | some category => simp only [if_pos hdepth, Except.bind]

theorem choose_eq_selected (category : Category) (draw : Binary64) :
    choose category draw =
      (category.selected draw).map fun i => (i.val, category.alternatives.get i) := by
  unfold choose
  rw [← category.map_val_selected draw]
  cases category.selected draw with
  | none => rfl
  | some i => simp

/-- A level enters categories rightly when the one below it does. -/
theorem entersAt_of_succ {task : Task} {depth : Nat} (hbelow : task.EntersAt (depth + 1)) :
    task.EntersAt depth := by
  rintro name referencedFrom n frames path spent text rfl
  rw [expandAt]
  unfold enter
  cases hfind : task.book.find? name with
  | none => rfl
  | some category =>
      have hname : category.name = name := Book.name_of_find? hfind
      by_cases hdepth : task.maxDepth ≤ frames.length
      · simp only [if_pos hdepth, Except.bind]
      · by_cases hlimit : task.maxExpansions ≤ spent
        · simp only [if_neg hdepth, if_pos hlimit, if_pos (Nat.lt_succ_of_le hlimit), Except.bind]
        · have hwithin : ¬task.maxExpansions < spent + 1 := by omega
          simp only [if_neg hdepth, if_neg hlimit, if_neg hwithin, choose_eq_selected]
          cases category.selected (task.draw path) with
          | none => rfl
          | some i =>
              rw [← hname]
              exact run_frame hbelow category.name path i 0 n _ (spent + 1) text

theorem entersAt (task : Task) (depth : Nat) : task.EntersAt depth := by
  by_cases hdepth : task.maxDepth ≤ depth
  · exact entersAt_of_maxDepth_le hdepth
  · exact entersAt_of_succ (task.entersAt (depth + 1))
termination_by task.maxDepth - depth

theorem expand_eq_expandRecursively (task : Task) (start : String) :
    task.expand start = task.expandRecursively start := by
  rw [expand_eq, task.entersAt 0 start none 0 [] #[] 0 "" rfl, expandRecursively]
  cases task.expandAt start none 0 #[] 0 with
  | error error => rfl
  | ok answer =>
      show task.run ⟨[], #[], answer.2, "" ++ answer.1⟩ = .ok answer.1
      rw [run_nil, String.empty_append]

end Phrasebook.Expansion.Task

namespace Phrasebook.Book

/-- Generating is expanding recursively, text or error, under every seed, time and limits.
The draws may be any function of the path. -/
theorem generate_eq_expandRecursively (book : Book) (config : Config) (start : String)
    (bindings : Bindings) :
    (∀ draw, Expansion.Task.expand
        ⟨book, bindings, draw, config.maxDepth, config.maxExpansions⟩ start =
      Expansion.Task.expandRecursively
        ⟨book, bindings, draw, config.maxDepth, config.maxExpansions⟩ start) ∧
    ∀ seed t, book.generate config start bindings seed t =
      Expansion.Task.expandRecursively
        ⟨book, bindings, (Draw.Source.ofTime seed.state t).at, config.maxDepth,
          config.maxExpansions⟩ start := by
  constructor
  · intro draw
    exact Expansion.Task.expand_eq_expandRecursively _ start
  · intro seed t
    exact Expansion.Task.expand_eq_expandRecursively _ start

/-- A category is expanded to the text of the alternative selected when that is all literal. -/
theorem generate_of_literal {book : Book} {config : Config} {start text : String}
    {bindings : Bindings} {seed : Seed} {t : Binary64} {category : Category}
    {i : Fin category.alternatives.length} (hfind : book.find? start = some category)
    (hdepth : 0 < config.maxDepth) (hlimit : 0 < config.maxExpansions)
    (hselected : category.selected ((Draw.Source.ofTime seed.state t).at #[]) = some i)
    (htext : (category.alternatives.get i).template = [.literal text]) :
    book.generate config start bindings seed t = .ok text := by
  have hwithin : ¬config.maxDepth ≤ 0 ∧ ¬config.maxExpansions < 0 + 1 := by omega
  refine (Expansion.Task.expand_eq_expandRecursively _ start).trans ?_
  rw [Expansion.Task.expandRecursively, Expansion.Task.expandAt]
  simp only [hfind, if_neg hwithin.1, if_neg hwithin.2, hselected, htext]
  simp [Expansion.Task.emit, Except.map]

end Phrasebook.Book

import Phrasebook.Proofs.Expansion.Recursion
import Phrasebook.Proofs.Lint.Report
import Phrasebook.Proofs.Source.Contents

/-!
# Checked books fail on limits only

Where every name that a category refers to is defined and every category has a positive
weight, no expansion ends for any reason but a limit. A book without errors is such a book.
-/

namespace Phrasebook

/-- Every name that a category of the book refers to is that of a category, and every
category has a weight to select. -/
structure Book.IsClosed (book : Book) : Prop where
  defined : ∀ category ∈ book.categories, ∀ name ∈ category.references, book.contains name = true
  selectable : ∀ category ∈ book.categories, ∃ w ∈ category.weights, w.isPositive = true

theorem Category.exists_selected {category : Category}
    (hpositive : ∃ w ∈ category.weights, w.isPositive = true) (draw : Binary64) :
    ∃ i, category.selected draw = some i := by
  obtain ⟨i, hselect⟩ := Draw.exists_selectWeighted hpositive draw
  refine Option.ne_none_iff_exists'.1 fun hnone => ?_
  rw [selected_eq_none_iff.1 hnone] at hselect
  cases hselect

/-- Where there is one alternative only, of positive weight, every draw selects it. -/
theorem Category.selected_singleton {alternative : Alternative}
    (hpositive : alternative.weight.isPositive = true) (name : String) (draw : Binary64) :
    Category.selected ⟨name, [alternative]⟩ draw = some 0 := by
  have hweight : ∃ w ∈ Category.weights ⟨name, [alternative]⟩, w.isPositive = true :=
    ⟨alternative.weight, List.mem_singleton_self _, hpositive⟩
  obtain ⟨i, hselected⟩ := exists_selected hweight draw
  rw [hselected]
  exact congrArg some (Fin.fin_one_eq_zero i)

/-- So a category with one literal is expanded to that, whatever the seed and the moment. -/
theorem Book.generate_of_singleton {book : Book} {config : Config} {start text : String}
    {weight : Binary64} (hfind : book.find? start = some ⟨start, [⟨weight, [.literal text]⟩]⟩)
    (hpositive : weight.isPositive = true) (hdepth : 0 < config.maxDepth)
    (hlimit : 0 < config.maxExpansions) (bindings : Bindings) (seed : Seed) (t : Binary64) :
    book.generate config start bindings seed t = .ok text :=
  generate_of_literal hfind hdepth hlimit (Category.selected_singleton hpositive start _) rfl

namespace Expansion.Task

def WithinLimits (task : Task) (answer : Except Error α) : Prop :=
  ∀ error, answer = .error error → ∃ category,
    error = .depthExceeded category task.maxDepth ∨
      error = .expansionLimit category task.maxExpansions

theorem withinLimits_ok (task : Task) (value : α) : task.WithinLimits (.ok value) := by
  intro error herror
  cases herror

theorem WithinLimits.map {task : Task} {answer : Except Error α}
    (hanswer : task.WithinLimits answer) (f : α → β) : task.WithinLimits (answer.map f) := by
  cases answer with
  | error error =>
      intro other hother
      cases hother
      exact hanswer error rfl
  | ok value => exact task.withinLimits_ok (f value)

theorem WithinLimits.bind {task : Task} {answer : Except Error α}
    (hanswer : task.WithinLimits answer) {f : α → Except Error β}
    (hnext : ∀ value, task.WithinLimits (f value)) : task.WithinLimits (answer.bind f) := by
  cases answer with
  | error error =>
      intro other hother
      cases hother
      exact hanswer error rfl
  | ok value => exact hnext value

/-- Segments are emitted within limits when all that they name is defined and the level
below expands what is defined within limits. -/
theorem withinLimits_emit {task : Task} {depth : Nat}
    (hbelow : ∀ name parent path spent, task.book.contains name = true →
      task.WithinLimits (task.expandAt name (some parent) (depth + 1) path spent))
    (parent : String) (path : Draw.Path) (i k : Nat) {segments : Template}
    (hdefined : ∀ name ∈ segments.placeholders, task.book.contains name = true) (spent : Nat) :
    task.WithinLimits (task.emit parent depth path i k segments spent) := by
  induction segments generalizing k spent with
  | nil =>
      rw [emit_nil]
      exact task.withinLimits_ok _
  | cons segment rest ih =>
      cases segment with
      | literal text =>
          rw [emit_literal]
          exact (ih k hdefined spent).map _
      | placeholder name =>
          obtain ⟨hname, hrest⟩ : task.book.contains name = true ∧
              ∀ name ∈ Template.placeholders rest, task.book.contains name = true := by
            simpa [Template.placeholders, Segment.name?] using hdefined
          cases hbound : task.bindings.get? name with
          | some bound =>
              rw [emit_bound hbound]
              exact (ih (k + 1) hrest spent).map _
          | none =>
              rw [emit_free hbound]
              have hpiece := hbelow name parent (path ++ #[i.toUInt32, k.toUInt32]) spent hname
              exact hpiece.bind fun answer => (ih (k + 1) hrest answer.2).map _

theorem withinLimits_expandAt {task : Task} (hclosed : task.book.IsClosed) (name : String)
    (referencedFrom : Option String) (depth : Nat) (path : Draw.Path) (spent : Nat)
    (hname : task.book.contains name = true) :
    task.WithinLimits (task.expandAt name referencedFrom depth path spent) := by
  obtain ⟨category, hfind⟩ := Option.isSome_iff_exists.1 hname
  have hmem := Book.mem_of_find? hfind
  obtain ⟨i, hselected⟩ := Category.exists_selected (hclosed.selectable category hmem)
    (task.draw path)
  rw [expandAt]
  simp only [hfind, hselected]
  intro error herror
  split at herror
  · cases herror
    exact ⟨name, .inl rfl⟩
  · split at herror
    · cases herror
      exact ⟨name, .inr rfl⟩
    · have hdefined : ∀ reference ∈ (category.alternatives.get i).template.placeholders,
          task.book.contains reference = true := fun reference hreference =>
        hclosed.defined category hmem reference
          (List.mem_flatMap.2 ⟨_, List.getElem_mem i.isLt, hreference⟩)
      have hbelow := fun name parent path spent =>
        task.withinLimits_expandAt hclosed name (some parent) (depth + 1) path spent
      exact withinLimits_emit hbelow name path i 0 hdefined (spent + 1) error herror
termination_by task.maxDepth - depth

end Expansion.Task

/-- A book that was read and in which a check finds no errors is closed. -/
theorem Book.isClosed_of_errors_eq_nil {text : String} {book : Book} {options : Lint.Options}
    (hparse : Source.parse text = .ok book) (herrors : (Lint.check book options).errors = []) :
    book.IsClosed := by
  refine ⟨fun category hmem name => Lint.contains_of_mem_references herrors hmem,
    fun category hmem => Lint.exists_isPositive_weight herrors hmem ?_⟩
  exact Source.isNonneg_weights_of_parse hparse hmem

/-- A book that was read and in which a check finds no errors makes texts from the start
that it was checked for, unless a limit is met: no name is unknown, and no category is
without a positive weight. -/
theorem Book.generate_of_errors_eq_nil {text : String} {book : Book} {options : Lint.Options}
    (hparse : Source.parse text = .ok book) (herrors : (Lint.check book options).errors = [])
    (config : Config) (bindings : Bindings) (seed : Seed) (t : Binary64) :
    (∃ out, book.generate config options.start bindings seed t = .ok out) ∨
      (∃ category, book.generate config options.start bindings seed t =
        .error (.depthExceeded category config.maxDepth)) ∨
      ∃ category, book.generate config options.start bindings seed t =
        .error (.expansionLimit category config.maxExpansions) := by
  have hstart := Lint.contains_start_of_errors_eq_nil herrors
  have hclosed := Book.isClosed_of_errors_eq_nil hparse herrors
  let task : Expansion.Task :=
    ⟨book, bindings, (Draw.Source.ofTime seed.state t).at, config.maxDepth, config.maxExpansions⟩
  have hgenerate : book.generate config options.start bindings seed t =
      (task.expandAt options.start none 0 #[] 0).map Prod.fst :=
    task.expand_eq_expandRecursively options.start
  have hlimits : task.WithinLimits ((task.expandAt options.start none 0 #[] 0).map Prod.fst) :=
    (Expansion.Task.withinLimits_expandAt hclosed options.start none 0 #[] 0 hstart).map Prod.fst
  rw [hgenerate]
  cases hanswer : (task.expandAt options.start none 0 #[] 0).map Prod.fst with
  | ok out => exact .inl ⟨out, rfl⟩
  | error error =>
      obtain ⟨category, rfl | rfl⟩ := hlimits error hanswer
      · exact .inr (.inl ⟨category, rfl⟩)
      · exact .inr (.inr ⟨category, rfl⟩)

theorem Book.generate_of_errors_eq_nil_recursive :
    ∃ book, Source.parse "root:\n  - 2x {{name}} and {{root}}\n  - nobody\nname:\n- Ann\n" =
        .ok book ∧
      (Lint.check book ⟨"root", 2⟩).errors = [] ∧
      book.generate Config.default "root" Bindings.empty ⟨"a0", 0⟩ .zero =
        .ok "Ann and nobody" := by
  let root : Category := ⟨"root", [⟨.two, [.placeholder "name", .literal " and ",
    .placeholder "root"]⟩, ⟨.one, [.literal "nobody"]⟩]⟩
  let name : Category := ⟨"name", [⟨.one, [.literal "Ann"]⟩]⟩
  obtain ⟨book, hparse, htest⟩ := Source.exists_parse_of_test
    "root:\n  - 2x {{name}} and {{root}}\n  - nobody\nname:\n- Ann\n"
    (fun book => (Lint.check book ⟨"root", 2⟩).errors.isEmpty &&
      decide (book.find? "root" = some root) && decide (book.find? "name" = some name))
    (by decide +kernel)
  simp only [Bool.and_eq_true, decide_eq_true_eq, List.isEmpty_iff] at htest
  obtain ⟨⟨herrors, hroot⟩, hname⟩ := htest
  have hfirst : root.selected ((Draw.Source.ofTime 0 .zero).at #[]) = some ⟨0, by decide⟩ := by
    decide +kernel
  have hleft : name.selected ((Draw.Source.ofTime 0 .zero).at #[0, 0]) = some ⟨0, by decide⟩ := by
    decide +kernel
  have hright : root.selected ((Draw.Source.ofTime 0 .zero).at #[0, 1]) = some ⟨1, by decide⟩ := by
    decide +kernel
  have hfree : Bindings.empty.get? "root" = none ∧ Bindings.empty.get? "name" = none := ⟨rfl, rfl⟩
  have htext : book.generate Config.default "root" Bindings.empty ⟨"a0", 0⟩ .zero =
      .ok "Ann and nobody" := by
    refine (Expansion.Task.expand_eq_expandRecursively _ _).trans ?_
    simp [Expansion.Task.expandRecursively, Expansion.Task.expandAt, Expansion.Task.emit,
      Config.default, hroot, hname, hfree, hfirst, hleft, hright, root, name, Except.map]
  rcases Book.generate_of_errors_eq_nil hparse herrors Config.default Bindings.empty ⟨"a0", 0⟩
    .zero with ⟨out, hout⟩ | ⟨category, hfault⟩ | ⟨category, hfault⟩
  · obtain rfl : out = "Ann and nobody" := Except.ok.inj (hout.symm.trans htext)
    exact ⟨book, hparse, herrors, hout⟩
  · rw [htext] at hfault
    cases hfault
  · rw [htext] at hfault
    cases hfault

end Phrasebook

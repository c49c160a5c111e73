import Phrasebook.Proofs.Derivation.Drawn
import Phrasebook.Proofs.Expansion.Sites
import Phrasebook.Proofs.Lint.Recursion

/-!
# Reports of endless recursion

A category that a check reports as endless is a trap, so no derivation of it can be drawn,
whatever the limits. An expansion that comes to it anywhere fails there, and with it fails the
whole text.
-/

namespace Phrasebook

theorem Lint.exists_alwaysRecurs_of_mem_errors {book : Book} {options : Options} {name : String}
    (hreported : .endlessRecursion name ∈ (check book options).errors) :
    ∃ category ∈ book.categories, category.name = name ∧ alwaysRecurs category = true := by
  rcases List.mem_append.1 hreported with hstart | hcategories
  · split at hstart <;> simp at hstart
  · obtain ⟨category, hmem, herror⟩ := List.mem_flatMap.1 hcategories
    refine ⟨category, hmem, ?_⟩
    simp only [categoryErrors, List.mem_append, List.mem_ite_nil_right, List.mem_map,
      List.mem_singleton, reduceCtorEq, and_false, exists_false, false_or, Bool.and_eq_true,
      Error.endlessRecursion.injEq] at herror
    exact ⟨herror.2.symm, herror.1.1⟩

/-- A category that is reported is a trap all by itself. -/
theorem Book.isTrap_of_endlessRecursion {book : Book} {options : Lint.Options} {name : String}
    (hreported : .endlessRecursion name ∈ (Lint.check book options).errors) :
    book.IsTrap {name} := by
  obtain ⟨category, hmem, rfl, hrecurs⟩ := Lint.exists_alwaysRecurs_of_mem_errors hreported
  exact (isTrap_singleton_iff hmem).2 hrecurs

/-- No level expands a name of a trap, unless it is bound. -/
theorem Expansion.Task.exists_error_of_isTrap (task : Task) {names : Set String}
    (htrap : task.book.IsTrap names) (hfree : ∀ name ∈ names, task.bindings.get? name = none)
    {name : String} (hname : name ∈ names) (referencedFrom : Option String) (depth : Nat)
    (path : Draw.Path) (spent : Nat) :
    ∃ error, task.expandAt name referencedFrom depth path spent = .error error := by
  cases hexpand : task.expandAt name referencedFrom depth path spent with
  | error error => exact ⟨error, rfl⟩
  | ok answer =>
      obtain ⟨tree, -⟩ := task.drawsAt depth _ _ _ _ _ _ hexpand
      exact absurd hname (tree.not_mem_of_isTrap htrap hfree)

/-- A report of endless recursion is never a false alarm: all generation fails that comes to
the category at any site, from whatever start, and so does all that starts there. -/
theorem Book.generate_of_endlessRecursion {book : Book} {options : Lint.Options} {name : String}
    (hreported : .endlessRecursion name ∈ (Lint.check book options).errors)
    {bindings : Bindings} (hfree : bindings.get? name = none) (config : Config) (seed : Seed)
    (t : Binary64) :
    (∀ start path, ⟨name, path⟩ ∈ (book.task config bindings seed t).sites start →
      ∃ error, book.generate config start bindings seed t = .error error) ∧
    ∃ error, book.generate config name bindings seed t = .error error := by
  let task := book.task config bindings seed t
  have htrap : task.book.IsTrap {name} := isTrap_of_endlessRecursion hreported
  have hfrees : ∀ other ∈ ({name} : Set String), task.bindings.get? other = none := by
    intro other hother
    rw [Set.mem_singleton_iff.1 hother]
    exact hfree
  have hfails : ∀ start path, ⟨name, path⟩ ∈ task.sites start →
      ∃ error, book.generate config start bindings seed t = .error error := by
    intro start path hsite
    obtain ⟨referencedFrom, depth, spent, hsame⟩ := Expansion.Task.exists_error_of_mem_sites hsite
    obtain ⟨error, herror⟩ :=
      task.exists_error_of_isTrap htrap hfrees rfl referencedFrom depth path spent
    exact ⟨error, hsame error herror⟩
  exact ⟨hfails, hfails name #[] List.mem_cons_self⟩

theorem Book.generate_of_endlessRecursion_nested :
    ∃ book, Source.parse "root:\n- see {{loop}}\nloop:\n- {{loop}} again\n- 0x stop\n" =
        .ok book ∧
      .endlessRecursion "loop" ∈ (Lint.check book ⟨"root", 2⟩).errors ∧
      Bindings.empty.get? "loop" = none ∧
      ⟨"loop", #[0, 0]⟩ ∈
        (book.task Config.default Bindings.empty ⟨"#7", 7⟩ .zero).sites "root" ∧
      (∃ error, book.generate Config.default "root" Bindings.empty ⟨"#7", 7⟩ .zero =
        .error error) ∧
      ∃ error, book.generate Config.default "loop" Bindings.empty ⟨"#7", 7⟩ .zero =
        .error error := by
  let root : Category := ⟨"root", [⟨.one, [.literal "see ", .placeholder "loop"]⟩]⟩
  let loop : Category := ⟨"loop", [⟨.one, [.placeholder "loop", .literal " again"]⟩,
    ⟨.zero, [.literal "stop"]⟩]⟩
  obtain ⟨book, hparse, htest⟩ := Source.exists_parse_of_test
    "root:\n- see {{loop}}\nloop:\n- {{loop}} again\n- 0x stop\n"
    (fun book => decide (book.categories = [loop, root])) (by decide +kernel)
  have hbook : book.categories = [loop, root] := of_decide_eq_true htest
  have hreported : .endlessRecursion "loop" ∈ (Lint.check book ⟨"root", 2⟩).errors := by
    apply List.mem_append_right
    rw [hbook]
    apply List.mem_append_left
    apply List.mem_append_right
    decide +kernel
  have hroot : book.find? "root" = some root := by
    rw [find?, hbook]
    decide +kernel
  have hloop : book.find? "loop" = some loop := by
    rw [find?, hbook]
    decide +kernel
  let task := book.task Config.default Bindings.empty ⟨"#7", 7⟩ .zero
  have hentered : task.enter "root" none 0 Expansion.Task.initial =
      .ok ⟨[⟨"root", [.literal "see ", .placeholder "loop"], 0, 0, 0⟩], #[], 1, ""⟩ :=
    Expansion.Task.enter_eq_ok_iff.2 ⟨root, 0, hroot, (by decide : 0 < Config.default.maxDepth),
      (by decide : 0 < Config.default.maxExpansions),
      Category.selected_singleton rfl "root" _, rfl⟩
  have hsite : ⟨"loop", #[0, 0]⟩ ∈ task.sites "root" := by
    rw [Expansion.Task.sites_of_enter hentered, Expansion.Task.sitesFrom_literal]
    exact List.mem_cons_of_mem _ (Expansion.Task.mem_sitesFrom rfl)
  have hfree : Bindings.empty.get? "loop" = none := rfl
  obtain ⟨hanywhere, hthere⟩ :=
    generate_of_endlessRecursion hreported hfree Config.default ⟨"#7", 7⟩ .zero
  exact ⟨book, hparse, hreported, hfree, hsite, hanywhere "root" #[0, 0] hsite, hthere⟩

end Phrasebook

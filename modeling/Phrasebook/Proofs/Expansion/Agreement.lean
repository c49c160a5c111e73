import Phrasebook.Proofs.Derivation.Drawn
import Phrasebook.Proofs.Lint.Closure

/-!
# Books that agree on what is reached

An expansion looks up no names but those of a set that holds its start and is closed under
reference. So two books that agree on such a set expand its names alike, and the names that a
search reaches make up such a set.
-/

namespace Phrasebook

namespace Expansion.Task

section
variable {task : Task} {other : Book} {names : Set String}

/-- Segments that name nothing but what the two books expand alike are emitted alike. -/
theorem emit_withBook {depth : Nat}
    (hbelow : ∀ name ∈ names, ∀ referencedFrom path spent,
      (task.withBook other).expandAt name referencedFrom (depth + 1) path spent =
        task.expandAt name referencedFrom (depth + 1) path spent)
    (parent : String) (path : Draw.Path) (i k : Nat) {segments : Template}
    (hsegments : ∀ name ∈ segments.placeholders, name ∈ names) (spent : Nat) :
    (task.withBook other).emit parent depth path i k segments spent =
      task.emit parent depth path i k segments spent := by
  induction segments generalizing k spent with
  | nil => rw [emit_nil, emit_nil]
  | cons segment rest ih =>
      cases segment with
      | literal text => rw [emit_literal, emit_literal, ih k hsegments]
      | placeholder name =>
          obtain ⟨hname, hrest⟩ : name ∈ names ∧
              ∀ name ∈ Template.placeholders rest, name ∈ names := by
            simpa [Template.placeholders, Segment.name?] using hsegments
          cases hbound : task.bindings.get? name with
          | some bound =>
              rw [emit_bound hbound, emit_bound (by simpa using hbound), ih (k + 1) hrest]
          | none =>
              rw [emit_free hbound, emit_free (by simpa using hbound), hbelow name hname]
              simp only [ih (k + 1) hrest]

/-- Two books that agree on a set of names, closed under reference, expand these names alike. -/
theorem expandAt_withBook (hclosed : task.book.IsReferenceClosed names)
    (hagree : ∀ name ∈ names, other.find? name = task.book.find? name) (name : String)
    (hname : name ∈ names) (referencedFrom : Option String) (depth : Nat) (path : Draw.Path)
    (spent : Nat) :
    (task.withBook other).expandAt name referencedFrom depth path spent =
      task.expandAt name referencedFrom depth path spent := by
  have hsame : (task.withBook other).book.find? name = task.book.find? name := hagree name hname
  cases hfind : task.book.find? name with
  | none => rw [expandAt_of_find?_eq_none hfind, expandAt_of_find?_eq_none (hsame.trans hfind)]
  | some category =>
      have hfind' : (task.withBook other).book.find? name = some category := hsame.trans hfind
      rcases expandAt_withBook_of_limits hfind hfind' referencedFrom depth path spent with
        ⟨error, herror, herror'⟩ | ⟨hdepth, hspent⟩
      · rw [herror, herror']
      · rw [expandAt_eq_selected hfind hdepth hspent,
          expandAt_eq_selected hfind' hdepth hspent, withBook_draw]
        cases category.selected (task.draw path) with
        | none => rfl
        | some i =>
            have hbelow := fun name (hname : name ∈ names) referencedFrom path spent =>
              expandAt_withBook hclosed hagree name hname referencedFrom (depth + 1) path spent
            apply emit_withBook hbelow
            intro reference hreference
            apply hclosed name hname category hfind
            exact List.mem_flatMap.2 ⟨_, List.get_mem _ i, hreference⟩
termination_by task.maxDepth - depth

end

end Expansion.Task

namespace Book

theorem generate_eq_of_isReferenceClosed {book other : Book} {names : Set String}
    (hclosed : book.IsReferenceClosed names)
    (hagree : ∀ name ∈ names, other.find? name = book.find? name) {start : String}
    (hstart : start ∈ names) (config : Config) (bindings : Bindings) (seed : Seed) (t : Binary64) :
    other.generate config start bindings seed t = book.generate config start bindings seed t := by
  let task : Expansion.Task :=
    ⟨book, bindings, (Draw.Source.ofTime seed.state t).at, config.maxDepth, config.maxExpansions⟩
  calc
    other.generate config start bindings seed t =
        ((task.withBook other).expandAt start none 0 #[] 0).map Prod.fst :=
      (task.withBook other).expand_eq_expandRecursively start
    _ = (task.expandAt start none 0 #[] 0).map Prod.fst := by
      rw [Expansion.Task.expandAt_withBook hclosed hagree start hstart]
    _ = book.generate config start bindings seed t :=
      (task.expand_eq_expandRecursively start).symm

/-- A book from which only categories were taken out that a check calls unreachable has the
same entries as before for all names that are reached. -/
theorem find?_eq_of_unreachable {book other : Book} {options : Lint.Options}
    (hsubset : other.categories ⊆ book.categories)
    (hdeleted : ∀ category ∈ book.categories, category ∉ other.categories →
      .unreachable category.name options.start ∈ (Lint.check book options).warnings)
    {name : String} (hname : name ∈ Lint.reachableFrom book options.start) :
    other.find? name = book.find? name := by
  cases hfind : book.find? name with
  | none =>
      by_contra hsome
      obtain ⟨category, hcategory⟩ := Option.ne_none_iff_exists'.1 hsome
      have hmem := mem_categories_iff.1 (hsubset (mem_of_find? hcategory))
      rw [name_of_find? hcategory, hfind] at hmem
      cases hmem
  | some category =>
      obtain rfl := name_of_find? hfind
      apply mem_categories_iff.1
      by_contra hdropped
      have hwarning := hdeleted category (mem_of_find? hfind) hdropped
      exact Lint.not_mem_reachableFrom_of_unreachable hwarning hname

/-- What a search from the start does not reach has no part in what is generated from there:
books with the same entry, or none, for each name reached in one of them generate alike, text
or error. So categories that a check calls unreachable can be deleted. -/
theorem generate_eq_of_reachable (book other : Book) (start : String) :
    ((∀ name ∈ Lint.reachableFrom book start, other.find? name = book.find? name) →
      ∀ config bindings seed t,
        other.generate config start bindings seed t =
          book.generate config start bindings seed t) ∧
    ∀ minAlternatives, other.categories ⊆ book.categories →
      (∀ category ∈ book.categories, category ∉ other.categories →
        .unreachable category.name start ∈
          (Lint.check book ⟨start, minAlternatives⟩).warnings) →
      ∀ config bindings seed t,
        other.generate config start bindings seed t =
          book.generate config start bindings seed t := by
  have hclosed := Lint.isReferenceClosed_reachableFrom book start
  have hstart := Lint.mem_reachableFrom_start book start
  constructor
  · intro hagree
    exact generate_eq_of_isReferenceClosed hclosed hagree hstart
  · intro minAlternatives hsubset hdeleted
    apply generate_eq_of_isReferenceClosed hclosed _ hstart
    intro name hname
    exact find?_eq_of_unreachable hsubset hdeleted hname

/-- The names reached include one without a category, to which no draw leads; a category that is
not reached is deleted. -/
theorem generate_eq_of_reachable_spare :
    ∃ book other : Book,
      Source.parse "root:\n- {{a}}!\na:\n- x\n- 0x {{root}} {{gone}}\nspare:\n- {{root}}\n" =
        .ok book ∧
      Source.parse "root:\n- {{a}}!\na:\n- x\n- 0x {{root}} {{gone}}\n" = .ok other ∧
      Lint.reachableFrom book "root" = ["a", "gone", "root"] ∧
      (∀ name ∈ Lint.reachableFrom book "root", other.find? name = book.find? name) ∧
      other.generate Config.default "root" Bindings.empty ⟨"#7", 7⟩ .zero = .ok "x!" ∧
      other.categories ⊆ book.categories ∧
      (∀ category ∈ book.categories, category ∉ other.categories →
        .unreachable category.name "root" ∈ (Lint.check book ⟨"root", 2⟩).warnings) ∧
      other.generate ⟨2, 2, "root"⟩ "root" Bindings.empty ⟨"#7", 7⟩ .zero = .ok "x!" := by
  let a : Category := ⟨"a", [⟨.one, [.literal "x"]⟩,
    ⟨.zero, [.placeholder "root", .literal " ", .placeholder "gone"]⟩]⟩
  let root : Category := ⟨"root", [⟨.one, [.placeholder "a", .literal "!"]⟩]⟩
  let spare : Category := ⟨"spare", [⟨.one, [.placeholder "root"]⟩]⟩
  obtain ⟨book, hparse, htest⟩ := Source.exists_parse_of_test
    "root:\n- {{a}}!\na:\n- x\n- 0x {{root}} {{gone}}\nspare:\n- {{root}}\n"
    (fun book => (book.categories.flatMap Category.references).length ≤ 4 &&
      (Lint.Search.turn book)^[5] (.ofStart "root") = ⟨[], ["a", "gone", "root"]⟩ &&
      book.categories = [a, root, spare]) (by decide +kernel)
  obtain ⟨other, hparse', htest'⟩ := Source.exists_parse_of_test
    "root:\n- {{a}}!\na:\n- x\n- 0x {{root}} {{gone}}\n"
    (fun book => decide (book.categories = [a, root])) (by decide +kernel)
  simp only [Bool.and_eq_true, decide_eq_true_eq] at htest
  obtain ⟨⟨hcount, hsearch⟩, hbook⟩ := htest
  have hother : other.categories = [a, root] := of_decide_eq_true htest'
  have hreached : Lint.reachableFrom book "root" = ["a", "gone", "root"] :=
    congrArg Lint.Search.seen
      ((Lint.Search.iterate_turn_ofStart (n := 5) (by omega)).symm.trans hsearch)
  have hagree : ∀ name ∈ Lint.reachableFrom book "root", other.find? name = book.find? name := by
    intro name hname
    rw [hreached] at hname
    have hsame : ∀ name ∈ ["a", "gone", "root"],
        [a, root].find? (·.name == name) = [a, root, spare].find? (·.name == name) := by
      decide +kernel
    rw [find?, find?, hbook, hother]
    exact hsame name hname
  have hsubset : other.categories ⊆ book.categories := by
    rw [hbook, hother]
    exact List.subset_append_left [a, root] [spare]
  have hwarning : .unreachable "spare" "root" ∈ (Lint.check book ⟨"root", 2⟩).warnings := by
    apply List.mem_append_right
    rw [Lint.unreachableWarnings, hreached, contains, find?, names, hbook]
    decide +kernel
  have hdeleted : ∀ category ∈ book.categories, category ∉ other.categories →
      .unreachable category.name "root" ∈ (Lint.check book ⟨"root", 2⟩).warnings := by
    intro category hmem hdropped
    rw [hbook] at hmem
    rw [hother] at hdropped
    obtain rfl : category = spare := by
      simp only [List.mem_cons, List.not_mem_nil, or_false] at hmem hdropped
      tauto
    exact hwarning
  have hroot : book.find? "root" = some root := by
    rw [find?, hbook]
    decide +kernel
  have ha : book.find? "a" = some a := by
    rw [find?, hbook]
    decide +kernel
  have hfirst : root.selected ((Draw.Source.ofTime 7 .zero).at #[]) = some ⟨0, by decide⟩ := by
    decide +kernel
  have hinner : a.selected ((Draw.Source.ofTime 7 .zero).at #[0, 0]) = some ⟨0, by decide⟩ := by
    decide +kernel
  let tree : Derivation book Bindings.empty "root" :=
    .node root hroot ⟨0, by decide⟩ (by decide) <|
      .derived rfl (.node a ha ⟨0, by decide⟩ (by decide) (.literal "x" .nil)) <|
        .literal "!" .nil
  have hdrawn : tree.IsDrawn (Draw.Source.ofTime 7 .zero).at #[] :=
    ⟨hfirst, ⟨hinner, trivial⟩, trivial⟩
  have htext : ∀ config : Config, 2 ≤ config.maxDepth → 2 ≤ config.maxExpansions →
      book.generate config "root" Bindings.empty ⟨"#7", 7⟩ .zero = .ok "x!" :=
    fun config hdepth hsize => generate_eq_ok_iff.2 ⟨tree, hdrawn, rfl, hdepth, hsize⟩
  obtain ⟨hreach, hdelete⟩ := book.generate_eq_of_reachable other "root"
  exact ⟨book, other, hparse, hparse', hreached, hagree,
    (hreach hagree _ _ _ _).trans (htext _ (by decide) (by decide)), hsubset, hdeleted,
    (hdelete 2 hsubset hdeleted _ _ _ _).trans (htext _ (by decide) (by decide))⟩

end Book

end Phrasebook

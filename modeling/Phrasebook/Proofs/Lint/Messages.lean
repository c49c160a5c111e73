import Phrasebook.Proofs.Lint.Closure
import Phrasebook.Proofs.Lint.Listing
import Phrasebook.Proofs.Lint.Tables
import Phrasebook.Proofs.Source.WellFormed
import Phrasebook.Proofs.Text.Names
import Phrasebook.Proofs.Text.Splitting

/-!
# What a report says

The messages of a report quote the names of categories, which hold no apostrophe, so what stands
in different places of it reads differently. What is said of a book that was read is then all that
applies to it, in order, and nothing is said twice.
-/

namespace Phrasebook.Lint

/-! ## Quoted names -/

def quoting (name rest : String) : String := "Category '" ++ (name ++ ("'" ++ rest))

theorem append_eq_quoting {name tail rest : String} (htail : tail = "'" ++ rest) :
    "Category '" ++ name ++ tail = quoting name rest := by
  rw [htail, String.append_assoc, quoting]

/-- A name without an apostrophe can be told from a message that quotes it. -/
theorem eq_of_quoting_eq {name other rest rest' : String} (hname : '\'' ∉ name.toList)
    (hother : '\'' ∉ other.toList) (hquoting : quoting name rest = quoting other rest') :
    name = other ∧ rest = rest' := by
  have hlists := congrArg String.toList hquoting
  simp only [quoting, String.toList_append, List.append_cancel_left_eq] at hlists
  obtain ⟨hnames, hrests⟩ := Text.eq_of_append_cons_eq hname hother hlists
  exact ⟨String.toList_inj.1 hnames, String.toList_inj.1 hrests⟩

def Error.complaint? : Error → Option (String × String)
  | .undefinedStart _ => none
  | .noPositiveWeight category => some (category, " has no alternative with positive weight")
  | .undefinedReference category reference =>
    some (category, " references undefined category '" ++ (reference ++ "'"))
  | .endlessRecursion category =>
    some (category, " has no non-recursive alternative (infinite recursion)")

theorem Error.message_of_complaint {error : Error} {category rest : String}
    (hcomplaint : error.complaint? = some (category, rest)) :
    error.message = quoting category rest := by
  cases error with
  | undefinedStart start => cases hcomplaint
  | noPositiveWeight name =>
      cases hcomplaint
      exact append_eq_quoting (by decide)
  | undefinedReference name reference =>
      cases hcomplaint
      have hopening : "Category '" ++ category ++ "' references undefined category '" =
          quoting category " references undefined category '" := append_eq_quoting (by decide)
      refine (congrArg (· ++ reference ++ "'") hopening).trans ?_
      simp only [quoting, String.append_assoc]
  | endlessRecursion name =>
      cases hcomplaint
      exact append_eq_quoting (by decide)

theorem Error.place_eq_of_complaint {a b : Error} {complaint : String × String}
    (ha : a.complaint? = some complaint) (hb : b.complaint? = some complaint) :
    a.place = b.place := by
  have hweight (reference : String) : ¬" references undefined category '" ++ (reference ++ "'") =
      " has no alternative with positive weight" := by
    simp [← String.toList_inj]
  have hrecursion (reference : String) :
      ¬" references undefined category '" ++ (reference ++ "'") =
        " has no non-recursive alternative (infinite recursion)" := by
    simp [← String.toList_inj]
  cases a <;> cases ha <;> cases b <;> simp_all [Error.complaint?]

theorem Error.place_of_complaint_eq_none {error : Error} (hnone : error.complaint? = none) :
    error.place = toLex (⊥, toLex (0, "")) ∧
      ∃ start, error.message = "start category '" ++ start ++ "' is not defined" := by
  cases error with
  | undefinedStart start => exact ⟨rfl, start, rfl⟩
  | _ => cases hnone

theorem Error.contains_of_complaint {book : Book} {options : Options} {error : Error}
    {complaint : String × String} (happlies : error.Applies book options)
    (hcomplaint : error.complaint? = some complaint) : book.contains complaint.1 = true := by
  refine Option.isSome_iff_exists.2 ?_
  cases error with
  | undefinedStart start => cases hcomplaint
  | noPositiveWeight name =>
      cases hcomplaint
      exact happlies.imp fun _ h => h.1
  | undefinedReference name reference =>
      cases hcomplaint
      exact happlies.1.imp fun _ h => h.1
  | endlessRecursion name =>
      cases hcomplaint
      exact happlies.imp fun _ h => h.1

def Warning.remark : Warning → String × String
  | .fewAlternatives category count minimum =>
    (category, " has only " ++ (toString count ++ (" alternatives (minimum " ++
      (toString minimum ++ " recommended)"))))
  | .unreachable category start => (category, " is unreachable from '" ++ (start ++ "'"))

theorem Warning.message_eq (warning : Warning) :
    warning.message = quoting warning.remark.1 warning.remark.2 := by
  cases warning with
  | fewAlternatives category count minimum =>
      have hopening : "Category '" ++ category ++ "' has only " = quoting category " has only " :=
        append_eq_quoting (by decide)
      refine (congrArg (· ++ toString count ++ " alternatives (minimum " ++ toString minimum ++
        " recommended)") hopening).trans ?_
      simp only [quoting, remark, String.append_assoc]
  | unreachable category start =>
      have hopening : "Category '" ++ category ++ "' is unreachable from '" =
          quoting category " is unreachable from '" := append_eq_quoting (by decide)
      refine (congrArg (· ++ start ++ "'") hopening).trans ?_
      simp only [quoting, remark, String.append_assoc]

theorem Warning.Applies.contains {book : Book} {options : Options} {warning : Warning}
    (happlies : warning.Applies book options) : book.contains warning.remark.1 = true := by
  cases warning with
  | fewAlternatives name count minimum =>
      exact Option.isSome_iff_exists.2 (happlies.2.2.imp fun _ h => h.1)
  | unreachable name start => exact happlies.2.2.1

section
variable {book : Book} {options : Options}
  (hplain : ∀ category ∈ book.categories, '\'' ∉ category.name.toList)
include hplain

theorem apostrophe_notMem {name : String} (hname : book.contains name = true) :
    '\'' ∉ name.toList := by
  obtain ⟨category, hfind⟩ := Option.isSome_iff_exists.1 hname
  rw [← Book.name_of_find? hfind]
  exact hplain category (Book.mem_of_find? hfind)

/-- Errors of a book that say the same stand in the same place. -/
theorem Error.place_eq_of_message_eq {a b : Error} (ha : a.Applies book options)
    (hb : b.Applies book options) (hmessage : a.message = b.message) : a.place = b.place := by
  cases hca : a.complaint? with
  | none =>
      obtain ⟨hplace, start, hstart⟩ := place_of_complaint_eq_none hca
      cases hcb : b.complaint? with
      | none => rw [hplace, (place_of_complaint_eq_none hcb).1]
      | some complaint =>
          rw [hstart, message_of_complaint hcb] at hmessage
          simp [← String.toList_inj, quoting] at hmessage
  | some complaint =>
      cases hcb : b.complaint? with
      | none =>
          obtain ⟨-, start, hstart⟩ := place_of_complaint_eq_none hcb
          rw [hstart, message_of_complaint hca] at hmessage
          simp [← String.toList_inj, quoting] at hmessage
      | some other =>
          rw [message_of_complaint hca, message_of_complaint hcb] at hmessage
          obtain ⟨hnames, hrests⟩ := eq_of_quoting_eq
            (apostrophe_notMem hplain (contains_of_complaint ha hca))
            (apostrophe_notMem hplain (contains_of_complaint hb hcb)) hmessage
          exact place_eq_of_complaint hca (hcb.trans (congrArg some (Prod.ext hnames hrests).symm))

theorem Warning.place_eq_of_message_eq {a b : Warning} (ha : a.Applies book options)
    (hb : b.Applies book options) (hmessage : a.message = b.message) : a.place = b.place := by
  rw [message_eq, message_eq] at hmessage
  obtain ⟨hnames, hrests⟩ := eq_of_quoting_eq (apostrophe_notMem hplain ha.contains)
    (apostrophe_notMem hplain hb.contains) hmessage
  cases a <;> cases b <;> simp_all [remark, place, ← String.toList_inj]

end

/-! ## Reports -/

/-- The report on a book that was read is the one that lists all that applies to it and nothing
else, in order. It says nothing twice, and a check by the sorted names of a table comes to it
whatever the order in which the table lists the categories. -/
theorem check_eq_iff_isExact {text : String} {book : Book} (hparse : Source.parse text = .ok book)
    (options : Options) :
    (∀ report, check book options = report ↔ report.IsExact book options) ∧
    ((check book options).errors.map Error.message).Nodup ∧
    ((check book options).warnings.map Warning.message).Nodup ∧
    ∀ table : List Category, table.Perm book.categories →
      checkTable table options = check book options := by
  have hexact : (check book options).IsExact book options :=
    isExact_check options fun category hmem => Source.isNonneg_weights_of_parse hparse hmem
  have hplain : ∀ category ∈ book.categories, '\'' ∉ category.name.toList := fun category hmem =>
    Name.apostrophe_notMem_of_isValid (Source.isWellFormed_of_mem_categories hparse hmem).name
  refine ⟨fun report => ⟨?_, hexact.unique⟩, ?_, ?_, fun table htable => checkTable_eq htable options⟩
  · rintro rfl
    exact hexact
  · exact nodup_map_of_pairwise_place hexact.errorsInOrder fun a ha b hb =>
      Error.place_eq_of_message_eq hplain ((hexact.errors a).1 ha) ((hexact.errors b).1 hb)
  · exact nodup_map_of_pairwise_place hexact.warningsInOrder fun a ha b hb =>
      Warning.place_eq_of_message_eq hplain ((hexact.warnings a).1 ha) ((hexact.warnings b).1 hb)

/-- A category that only refers to itself and to a name that is undefined, and one that nothing
can be drawn from, which the first does not refer to. The table lists them in falling order. -/
theorem check_eq_iff_isExact_unreachable :
    ∃ book, Source.parse "b:\n- 0x {{z}} {{y}}\n- 0x {{z}}\na:\n- {{a}} {{x}}\n- 0x stop\n" =
        .ok book ∧
      Report.IsExact
        ⟨[.undefinedReference "a" "x", .endlessRecursion "a", .noPositiveWeight "b",
            .undefinedReference "b" "y", .undefinedReference "b" "z"],
          [.fewAlternatives "a" 2 3, .fewAlternatives "b" 2 3, .unreachable "b" "a"]⟩
        book ⟨"a", 3⟩ ∧
      checkTable book.categories.reverse ⟨"a", 3⟩ = check book ⟨"a", 3⟩ := by
  obtain ⟨book, hparse, htest⟩ := Source.exists_parse_of_test
    "b:\n- 0x {{z}} {{y}}\n- 0x {{z}}\na:\n- {{a}} {{x}}\n- 0x stop\n"
    (fun book => (book.categories.flatMap Category.references).length ≤ 5 &&
      (Search.turn book)^[6] (.ofStart "a") = ⟨[], ["a", "x"]⟩ &&
      (check book ⟨"a", 3⟩).errors = [.undefinedReference "a" "x", .endlessRecursion "a",
        .noPositiveWeight "b", .undefinedReference "b" "y", .undefinedReference "b" "z"] &&
      book.categories.filterMap (fewAlternatives? ⟨"a", 3⟩) =
        [.fewAlternatives "a" 2 3, .fewAlternatives "b" 2 3] &&
      book.contains "a" && book.names = ["a", "b"]) (by decide +kernel)
  simp only [Bool.and_eq_true, decide_eq_true_eq] at htest
  obtain ⟨⟨⟨⟨⟨hcount, hsearch⟩, herrors⟩, hfew⟩, hstart⟩, hnames⟩ := htest
  have hreached : reachableFrom book "a" = ["a", "x"] :=
    congrArg Search.seen ((Search.iterate_turn_ofStart (n := 6) (by omega)).symm.trans hsearch)
  have hunreachable : unreachableWarnings book ⟨"a", 3⟩ = [.unreachable "b" "a"] := by
    simp [unreachableWarnings, hstart, hreached, hnames]
  have hwarnings : (check book ⟨"a", 3⟩).warnings =
      [.fewAlternatives "a" 2 3, .fewAlternatives "b" 2 3, .unreachable "b" "a"] := by
    rw [check, hfew, hunreachable]
    rfl
  obtain ⟨hexact, -, -, htables⟩ := check_eq_iff_isExact hparse ⟨"a", 3⟩
  refine ⟨book, hparse, (hexact _).1 ?_, htables _ (List.reverse_perm _)⟩
  rw [← herrors, ← hwarnings]

end Phrasebook.Lint

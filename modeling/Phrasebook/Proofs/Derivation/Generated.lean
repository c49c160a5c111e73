import Phrasebook.Proofs.Derivation.Drawn
import Phrasebook.Proofs.Source.Contents

/-!
# Generated texts are sentences

Every text that is generated is that of a derivation, the drawn one, which has a node for each
expansion that was made. So it has no more nodes than the limit allows, and it is no deeper
than the expansion was nested.
-/

namespace Phrasebook

/-- A text that is generated is a sentence of the book: it is that of a derivation of the
start, whose depth and number of nodes are within the limits. -/
theorem Book.exists_derivation_of_generate {book : Book} {config : Config} {start : String}
    {bindings : Bindings} {seed : Seed} {t : Binary64} {text : String}
    (hgenerate : book.generate config start bindings seed t = .ok text) :
    ∃ tree : Derivation book bindings start, tree.text = text ∧
      tree.depth ≤ config.maxDepth ∧ tree.size ≤ config.maxExpansions := by
  obtain ⟨tree, -, htext, hdepth, hsize⟩ := generate_eq_ok_iff.1 hgenerate
  exact ⟨tree, htext, hdepth, hsize⟩

theorem Book.exists_derivation_of_generate_letter :
    ∃ book, Source.parse
        "letter:\n- Dear {{to}}, {{close}}\n- 0x no\nclose:\n- yours\n- {{close}}\n" = .ok book ∧
      book.generate ⟨2, 2, "letter"⟩ "letter" (Bindings.empty.bind "to" "Ada") ⟨"#7", 7⟩ .zero =
        .ok "Dear Ada, yours" ∧
      ∃ tree : Derivation book (Bindings.empty.bind "to" "Ada") "letter",
        tree.text = "Dear Ada, yours" ∧ tree.depth ≤ 2 ∧ tree.size ≤ 2 := by
  let letter : Category := ⟨"letter", [⟨.one, [.literal "Dear ", .placeholder "to", .literal ", ",
    .placeholder "close"]⟩, ⟨.zero, [.literal "no"]⟩]⟩
  let close : Category := ⟨"close", [⟨.one, [.literal "yours"]⟩, ⟨.one, [.placeholder "close"]⟩]⟩
  obtain ⟨book, hparse, htest⟩ := Source.exists_parse_of_test
    "letter:\n- Dear {{to}}, {{close}}\n- 0x no\nclose:\n- yours\n- {{close}}\n"
    (fun book => decide (book.find? "letter" = some letter) &&
      decide (book.find? "close" = some close))
    (by decide +kernel)
  simp only [Bool.and_eq_true, decide_eq_true_eq] at htest
  obtain ⟨hletter, hclose⟩ := htest
  have hfirst : letter.selected ((Draw.Source.ofTime 7 .zero).at #[]) = some ⟨0, by decide⟩ := by
    decide +kernel
  have hsecond : close.selected ((Draw.Source.ofTime 7 .zero).at #[0, 1]) =
      some ⟨0, by decide⟩ := by
    decide +kernel
  have hto : (Bindings.empty.bind "to" "Ada").get? "to" = some "Ada" :=
    Bindings.get?_bind_self _ _ _
  have hfree : (Bindings.empty.bind "to" "Ada").get? "close" = none := by decide +kernel
  have hgenerate : book.generate ⟨2, 2, "letter"⟩ "letter" (Bindings.empty.bind "to" "Ada")
      ⟨"#7", 7⟩ .zero = .ok "Dear Ada, yours" := by
    refine (Expansion.Task.expand_eq_expandRecursively _ _).trans ?_
    simp [Expansion.Task.expandRecursively, Expansion.Task.expandAt, Expansion.Task.emit,
      hletter, hclose, hfirst, hsecond, letter, close, hto, hfree, Except.map]
  exact ⟨book, hparse, hgenerate, Book.exists_derivation_of_generate hgenerate⟩

end Phrasebook

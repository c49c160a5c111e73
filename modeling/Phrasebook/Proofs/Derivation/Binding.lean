import Phrasebook.Proofs.Derivation.Drawn
import Phrasebook.Proofs.Source.Contents

/-!
# Binding one name more

A placeholder that is bound still counts, so binding a name moves no other draw. What is
generated is the same derivation, in which each outermost expansion of the name has given way
to the bound text.
-/

namespace Phrasebook

variable {book : Book} {bindings : Bindings} {draw : Draw.Path → Binary64}

/-! ## Pieces of a text -/

/-- A piece of a derived text: one that no expansion of a certain name contains, or the text
of an outermost expansion of that name. -/
inductive Piece where
  | outside (text : String)
  | expansion (text : String)

def Piece.text : Piece → String
  | .outside text => text
  | .expansion text => text

def Piece.textWith (value : String) : Piece → String
  | .outside text => text
  | .expansion _ => value

mutual

/-- The pieces of a derived text, from left to right. The root is not an expansion below
itself, whatever its name is. -/
def Derivation.pieces (name : String) {root : String} : Derivation book bindings root → List Piece
  | .node _ _ _ _ filling => filling.pieces name

def Filling.pieces (name : String) {template : Template} :
    Filling book bindings template → List Piece
  | .nil => []
  | .literal text tail => .outside text :: tail.pieces name
  | .bound text _ tail => .outside text :: tail.pieces name
  | @Filling.derived _ _ other _ piece _ tail =>
      (if other = name then [.expansion piece.text] else piece.pieces name) ++ tail.pieces name

end

mutual

theorem Derivation.join_pieces (name : String) {root : String} :
    ∀ tree : Derivation book bindings root,
      String.join ((tree.pieces name).map Piece.text) = tree.text
  | .node _ _ _ _ filling => filling.join_pieces name

theorem Filling.join_pieces (name : String) {template : Template} :
    ∀ filling : Filling book bindings template,
      String.join ((filling.pieces name).map Piece.text) = filling.text
  | .nil => rfl
  | .literal text tail => by
      rw [Filling.pieces, List.map_cons, String.join_cons, tail.join_pieces name]
      rfl
  | .bound text _ tail => by
      rw [Filling.pieces, List.map_cons, String.join_cons, tail.join_pieces name]
      rfl
  | @Filling.derived _ _ other _ piece _ tail => by
      rw [Filling.pieces, List.map_append, String.join_append, tail.join_pieces name]
      by_cases hname : other = name
      · rw [if_pos hname, List.map_singleton, String.join_cons]
        simp [Piece.text, Filling.text]
      · rw [if_neg hname, piece.join_pieces name]
        rfl

end

/-! ## Derivations with the name bound -/

section
variable {name : String} (hfree : bindings.get? name = none) (value : String)

mutual

/-- The derivation with a name bound that was free before. A text bound already is that of
another name, and stays. -/
def Derivation.rebind {root : String} :
    Derivation book bindings root → Derivation book (bindings.bind name value) root
  | .node category hfind i hpositive filling =>
      .node category hfind i hpositive filling.rebind

def Filling.rebind {template : Template} :
    Filling book bindings template → Filling book (bindings.bind name value) template
  | .nil => .nil
  | .literal text tail => .literal text tail.rebind
  | @Filling.bound _ _ other text hbound _ tail =>
      have hne : name ≠ other := fun heq => by simp [← heq, hfree] at hbound
      .bound text ((bindings.get?_bind_of_ne hne value).trans hbound) tail.rebind
  | @Filling.derived _ _ other hother piece _ tail =>
      if heq : other = name then
        .bound value (heq ▸ bindings.get?_bind_self other value) tail.rebind
      else
        .derived ((bindings.get?_bind_of_ne (Ne.symm heq) value).trans hother) piece.rebind
          tail.rebind

end

mutual

/-- The name bound, each outermost expansion of it gives way to the value. -/
theorem Derivation.text_rebind {root : String} :
    ∀ tree : Derivation book bindings root, (tree.rebind hfree value).text =
      String.join ((tree.pieces name).map (Piece.textWith value))
  | .node _ _ _ _ filling => filling.text_rebind

theorem Filling.text_rebind {template : Template} :
    ∀ filling : Filling book bindings template, (filling.rebind hfree value).text =
      String.join ((filling.pieces name).map (Piece.textWith value))
  | .nil => rfl
  | .literal text tail => by
      rw [Filling.pieces, List.map_cons, String.join_cons, ← tail.text_rebind]
      rfl
  | .bound text _ tail => by
      rw [Filling.pieces, List.map_cons, String.join_cons, ← tail.text_rebind]
      rfl
  | @Filling.derived _ _ other _ piece _ tail => by
      rw [Filling.pieces, List.map_append, String.join_append, ← tail.text_rebind]
      by_cases hname : other = name
      · rw [if_pos hname, List.map_singleton, String.join_cons]
        simp [Filling.rebind, hname, Piece.textWith, Filling.text]
      · rw [if_neg hname, ← piece.text_rebind]
        simp [Filling.rebind, hname, Filling.text]

end

mutual

/-- Placeholders that are bound count as well, so all other draws stay where they were. -/
theorem Derivation.isDrawn_rebind {root : String} {path : Draw.Path} :
    ∀ tree : Derivation book bindings root, tree.IsDrawn draw path →
      (tree.rebind hfree value).IsDrawn draw path
  | .node _ _ _ _ filling, hdrawn => ⟨hdrawn.1, filling.isDrawn_rebind hdrawn.2⟩

theorem Filling.isDrawn_rebind {template : Template} {path : Draw.Path} {i k : Nat} :
    ∀ filling : Filling book bindings template, filling.IsDrawn draw path i k →
      (filling.rebind hfree value).IsDrawn draw path i k
  | .nil, _ => trivial
  | .literal _ tail, hdrawn => tail.isDrawn_rebind hdrawn
  | .bound _ _ tail, hdrawn => tail.isDrawn_rebind hdrawn
  | @Filling.derived _ _ other _ piece _ tail, hdrawn => by
      have hpiece := piece.isDrawn_rebind hdrawn.1
      have htail := tail.isDrawn_rebind hdrawn.2
      by_cases hname : other = name
      · simpa only [Filling.rebind, dif_pos hname, Filling.IsDrawn] using htail
      · simpa only [Filling.rebind, dif_neg hname, Filling.IsDrawn] using ⟨hpiece, htail⟩

end

mutual

/-- Binding a name leaves out derivations, so no more room is needed. -/
theorem Derivation.rebind_le {root : String} :
    ∀ tree : Derivation book bindings root,
      (tree.rebind hfree value).depth ≤ tree.depth ∧ (tree.rebind hfree value).size ≤ tree.size
  | .node _ _ _ _ filling => by
      obtain ⟨hdepth, hsize⟩ := filling.rebind_le
      exact ⟨Nat.succ_le_succ hdepth, Nat.succ_le_succ hsize⟩

theorem Filling.rebind_le {template : Template} :
    ∀ filling : Filling book bindings template,
      (filling.rebind hfree value).depth ≤ filling.depth ∧
        (filling.rebind hfree value).size ≤ filling.size
  | .nil => ⟨Nat.le_refl _, Nat.le_refl _⟩
  | .literal _ tail => tail.rebind_le
  | .bound _ _ tail => tail.rebind_le
  | @Filling.derived _ _ other _ piece _ tail => by
      have htail := tail.rebind_le
      have hpiece := piece.rebind_le
      by_cases hname : other = name
      · simp only [Filling.rebind, dif_pos hname, Filling.depth, Filling.size]
        omega
      · simp only [Filling.rebind, dif_neg hname, Filling.depth, Filling.size]
        omega

end

end

namespace Book

/-- Where a text is generated, one is generated with a further name bound: the text of the
same drawn derivation, with the value in place of each outermost expansion of the name below
the root, and all other pieces as they were. -/
theorem generate_bind {book : Book} {config : Config} {start name : String}
    {bindings : Bindings} {seed : Seed} {t : Binary64} {text : String}
    (hfree : bindings.get? name = none)
    (hgenerate : book.generate config start bindings seed t = .ok text) (value : String) :
    ∃ tree : Derivation book bindings start,
      tree.IsDrawn (Draw.Source.ofTime seed.state t).at #[] ∧
      String.join ((tree.pieces name).map Piece.text) = text ∧
      book.generate config start (bindings.bind name value) seed t =
        .ok (String.join ((tree.pieces name).map (Piece.textWith value))) := by
  obtain ⟨tree, hdrawn, rfl, hdepth, hsize⟩ := generate_eq_ok_iff.1 hgenerate
  obtain ⟨hdepth', hsize'⟩ := tree.rebind_le hfree value
  exact ⟨tree, hdrawn, tree.join_pieces name, generate_eq_ok_iff.2
    ⟨tree.rebind hfree value, tree.isDrawn_rebind hfree value hdrawn,
      tree.text_rebind hfree value, Nat.le_trans hdepth' hdepth, Nat.le_trans hsize' hsize⟩⟩

theorem generate_bind_start :
    ∃ book, Source.parse "a:\n- ({{b}})\nb:\n- y{{a}}\n- z\n" = .ok book ∧
      Bindings.empty.get? "a" = none ∧
      book.generate Config.default "a" Bindings.empty ⟨"#7", 8⟩ .zero = .ok "(y(z))" ∧
      ∃ tree : Derivation book Bindings.empty "a",
        tree.IsDrawn (Draw.Source.ofTime 8 .zero).at #[] ∧
        String.join ((tree.pieces "a").map Piece.text) = "(y(z))" ∧
        book.generate Config.default "a" (Bindings.empty.bind "a" "v") ⟨"#7", 8⟩ .zero =
          .ok (String.join ((tree.pieces "a").map (Piece.textWith "v"))) := by
  let a : Category := ⟨"a", [⟨.one, [.literal "(", .placeholder "b", .literal ")"]⟩]⟩
  let b : Category :=
    ⟨"b", [⟨.one, [.literal "y", .placeholder "a"]⟩, ⟨.one, [.literal "z"]⟩]⟩
  obtain ⟨book, hparse, htest⟩ := Source.exists_parse_of_test
    "a:\n- ({{b}})\nb:\n- y{{a}}\n- z\n"
    (fun book => decide (book.find? "a" = some a) && decide (book.find? "b" = some b))
    (by decide +kernel)
  simp only [Bool.and_eq_true, decide_eq_true_eq] at htest
  obtain ⟨ha, hb⟩ := htest
  have hroot : a.selected ((Draw.Source.ofTime 8 .zero).at #[]) = some ⟨0, by decide⟩ := by
    decide +kernel
  have hfirst : b.selected ((Draw.Source.ofTime 8 .zero).at #[0, 0]) = some ⟨0, by decide⟩ := by
    decide +kernel
  have hsecond : a.selected ((Draw.Source.ofTime 8 .zero).at #[0, 0, 0, 0]) =
      some ⟨0, by decide⟩ := by
    decide +kernel
  have hlast : b.selected ((Draw.Source.ofTime 8 .zero).at #[0, 0, 0, 0, 0, 0]) =
      some ⟨1, by decide⟩ := by
    decide +kernel
  have hfree (name : String) : Bindings.empty.get? name = none := rfl
  have hgenerate : book.generate Config.default "a" Bindings.empty ⟨"#7", 8⟩ .zero =
      .ok "(y(z))" := by
    refine (Expansion.Task.expand_eq_expandRecursively _ _).trans ?_
    simp [Expansion.Task.expandRecursively, Expansion.Task.expandAt, Expansion.Task.emit, ha, hb,
      hroot, hfirst, hsecond, hlast, a, b, hfree, Except.map, Config.default]
  exact ⟨book, hparse, hfree "a", hgenerate, generate_bind (hfree "a") hgenerate "v"⟩

end Book

end Phrasebook

import Phrasebook.Proofs.Derivation.Tree
import Phrasebook.Proofs.Expansion.Recursion

/-!
# Derivations that are drawn

Draws single out one derivation among those of a name: at each path the alternative that
the draw there selects. There may be none, but there are never two. An expansion answers the
text of the drawn derivation exactly when the limits leave room for its depth and its size,
so the limits have no say in what is answered.
-/

namespace Phrasebook

variable {book : Book} {bindings : Bindings} {draw : Draw.Path → Binary64}

mutual

/-- Whether each node of a derivation, of which the root is at a path, has the alternative
that the draw at its own path selects. -/
def Derivation.IsDrawn (draw : Draw.Path → Binary64) {name : String} (path : Draw.Path) :
    Derivation book bindings name → Prop
  | .node category _ i _ filling =>
      category.selected (draw path) = some i ∧ filling.IsDrawn draw path i 0

/-- The same for what fills the end of the alternative `i`, of which the `k`-th placeholder
is the first one there. -/
def Filling.IsDrawn (draw : Draw.Path → Binary64) {template : Template} (path : Draw.Path)
    (i k : Nat) : Filling book bindings template → Prop
  | .nil => True
  | .literal _ tail => tail.IsDrawn draw path i k
  | .bound _ _ tail => tail.IsDrawn draw path i (k + 1)
  | .derived _ piece tail =>
      piece.IsDrawn draw (path ++ #[i.toUInt32, k.toUInt32]) ∧ tail.IsDrawn draw path i (k + 1)

end

/-! ## There is at most one -/

mutual

theorem Derivation.IsDrawn.unique {name : String} {path : Draw.Path} :
    ∀ {tree other : Derivation book bindings name}, tree.IsDrawn draw path →
      other.IsDrawn draw path → tree = other
  | .node category hfind i _ filling, .node other hother j _ filling', htree, htree' => by
      obtain rfl : category = other := Option.some.inj (hfind.symm.trans hother)
      obtain rfl : i = j := Option.some.inj (htree.1.symm.trans htree'.1)
      rw [Filling.IsDrawn.unique htree.2 htree'.2]

theorem Filling.IsDrawn.unique {template : Template} {path : Draw.Path} {i k : Nat} :
    ∀ {filling other : Filling book bindings template}, filling.IsDrawn draw path i k →
      other.IsDrawn draw path i k → filling = other
  | .nil, .nil, _, _ => rfl
  | .literal _ tail, .literal _ tail', hfilling, hother => by
      have htail : tail = tail' := Filling.IsDrawn.unique hfilling hother
      rw [htail]
  | .bound _ hbound tail, .bound _ hbound' tail', hfilling, hother => by
      obtain rfl := Option.some.inj (hbound.symm.trans hbound')
      have htail : tail = tail' := Filling.IsDrawn.unique hfilling hother
      rw [htail]
  | .bound _ hbound _, .derived hfree _ _, _, _ => by
      rw [hfree] at hbound
      cases hbound
  | .derived hfree _ _, .bound _ hbound _, _, _ => by
      rw [hfree] at hbound
      cases hbound
  | .derived _ _ _, .derived _ _ _, hfilling, hother => by
      rw [Derivation.IsDrawn.unique hfilling.1 hother.1, Filling.IsDrawn.unique hfilling.2 hother.2]

end

/-! ## What is drawn is expanded

The recursion is on the derivation, so the depth limit, on which expansions recurse, plays no
part but in the room that is asked for.
-/

namespace Expansion.Task

mutual

/-- With room for a drawn derivation, its category is expanded to its text. -/
theorem expandAt_of_isDrawn {task : Task} {name : String} {path : Draw.Path} :
    ∀ (tree : Derivation task.book task.bindings name) (referencedFrom : Option String)
      (depth spent : Nat), tree.IsDrawn task.draw path → depth + tree.depth ≤ task.maxDepth →
        spent + tree.size ≤ task.maxExpansions →
          task.expandAt name referencedFrom depth path spent = .ok (tree.text, spent + tree.size)
  | .node category hfind i _ filling, _, depth, spent, hdrawn, hdepth, hsize => by
      simp only [Derivation.depth] at hdepth
      simp only [Derivation.size] at hsize
      have hemit := emit_of_isDrawn filling name depth (spent + 1) hdrawn.2 (by omega) (by omega)
      rw [Nat.add_right_comm, Nat.add_assoc] at hemit
      exact expandAt_eq_ok_iff.2 ⟨category, i, hfind, by omega, by omega, hdrawn.1, hemit⟩

theorem emit_of_isDrawn {task : Task} {template : Template} {path : Draw.Path} {i k : Nat} :
    ∀ (filling : Filling task.book task.bindings template) (parent : String) (depth spent : Nat),
      filling.IsDrawn task.draw path i k → depth + 1 + filling.depth ≤ task.maxDepth →
        spent + filling.size ≤ task.maxExpansions →
          task.emit parent depth path i k template spent =
            .ok (filling.text, spent + filling.size)
  | .nil, _, _, _, _, _, _ => emit_nil
  | .literal _ tail, parent, depth, spent, hdrawn, hdepth, hsize =>
      emit_literal_eq_ok_iff.2
        ⟨tail.text, emit_of_isDrawn tail parent depth spent hdrawn hdepth hsize, rfl⟩
  | .bound _ hbound tail, parent, depth, spent, hdrawn, hdepth, hsize =>
      (emit_bound_eq_ok_iff hbound).2
        ⟨tail.text, emit_of_isDrawn tail parent depth spent hdrawn hdepth hsize, rfl⟩
  | .derived hfree piece tail, parent, depth, spent, hdrawn, hdepth, hsize => by
      simp only [Filling.depth] at hdepth
      simp only [Filling.size] at hsize
      have hpiece := expandAt_of_isDrawn piece (some parent) (depth + 1) spent hdrawn.1
        (by omega) (by omega)
      have htail := emit_of_isDrawn tail parent depth (spent + piece.size) hdrawn.2
        (by omega) (by omega)
      rw [Nat.add_assoc] at htail
      exact (emit_free_eq_ok_iff hfree).2 ⟨_, _, _, hpiece, htail, rfl⟩

end

/-! ## What is expanded was drawn

Here there is no derivation yet to recurse on: each level is proved from the one below it, and
the levels past the depth limit expand nothing.
-/

/-- Whether every text expanded at a depth is that of a drawn derivation within the limits. -/
def DrawsAt (task : Task) (depth : Nat) : Prop :=
  ∀ (name : String) (referencedFrom : Option String) (path : Draw.Path) (spent : Nat)
    (text : String) (after : Nat),
    task.expandAt name referencedFrom depth path spent = .ok (text, after) →
      ∃ tree : Derivation task.book task.bindings name, tree.IsDrawn task.draw path ∧
        tree.text = text ∧ depth + tree.depth ≤ task.maxDepth ∧ spent + tree.size = after ∧
          after ≤ task.maxExpansions

/-- Segments that are emitted are filled as drawn, when the level below expands what is
drawn. -/
theorem exists_isDrawn_of_emit {task : Task} {depth : Nat} (hbelow : task.DrawsAt (depth + 1))
    (hdepth : depth < task.maxDepth) (parent : String) (path : Draw.Path) (i k : Nat)
    {segments : Template} {spent after : Nat} {text : String}
    (hspent : spent ≤ task.maxExpansions)
    (hemit : task.emit parent depth path i k segments spent = .ok (text, after)) :
    ∃ filling : Filling task.book task.bindings segments,
      filling.IsDrawn task.draw path i k ∧ filling.text = text ∧
        depth + 1 + filling.depth ≤ task.maxDepth ∧ spent + filling.size = after ∧
          after ≤ task.maxExpansions := by
  induction segments generalizing k spent text with
  | nil =>
      rw [emit_nil] at hemit
      cases hemit
      exact ⟨.nil, trivial, rfl, hdepth, rfl, hspent⟩
  | cons segment rest ih =>
      cases segment with
      | literal piece =>
          obtain ⟨tailText, hrest, rfl⟩ := emit_literal_eq_ok_iff.1 hemit
          obtain ⟨tail, hdrawn, rfl, hwithin⟩ := ih k hspent hrest
          exact ⟨.literal piece tail, hdrawn, rfl, hwithin⟩
      | placeholder name =>
          cases hname : task.bindings.get? name with
          | some bound =>
              obtain ⟨tailText, hrest, rfl⟩ := (emit_bound_eq_ok_iff hname).1 hemit
              obtain ⟨tail, hdrawn, rfl, hwithin⟩ := ih (k + 1) hspent hrest
              exact ⟨.bound bound hname tail, hdrawn, rfl, hwithin⟩
          | none =>
              obtain ⟨pieceText, between, tailText, hpiece, hrest, rfl⟩ :=
                (emit_free_eq_ok_iff hname).1 hemit
              obtain ⟨piece, hpieceDrawn, rfl, hpieceDepth, hpieceSize, hbetween⟩ :=
                hbelow _ _ _ _ _ _ hpiece
              obtain ⟨tail, htailDrawn, rfl, htailDepth, htailSize, hwithin⟩ :=
                ih (k + 1) hbetween hrest
              refine ⟨.derived hname piece tail, ⟨hpieceDrawn, htailDrawn⟩, rfl, ?_, ?_, hwithin⟩
              · simp only [Filling.depth]
                omega
              · simp only [Filling.size]
                omega

/-- A level expands what is drawn when the one below it does. -/
theorem drawsAt_of_succ {task : Task} {depth : Nat} (hbelow : task.DrawsAt (depth + 1)) :
    task.DrawsAt depth := by
  intro name referencedFrom path spent text after hexpand
  obtain ⟨category, i, hfind, hdepth, hspent, hselected, hemit⟩ := expandAt_eq_ok_iff.1 hexpand
  obtain ⟨filling, hdrawn, rfl, hfillingDepth, hfillingSize, hwithin⟩ :=
    exists_isDrawn_of_emit hbelow hdepth name path i 0 hspent hemit
  have hpositive := Category.isPositive_of_selected hselected
  refine ⟨.node category hfind i hpositive filling, ⟨hselected, hdrawn⟩, rfl, ?_, ?_, hwithin⟩
  · simp only [Derivation.depth]
    omega
  · simp only [Derivation.size]
    omega

theorem drawsAt (task : Task) (depth : Nat) : task.DrawsAt depth := by
  by_cases hdepth : task.maxDepth ≤ depth
  · intro name referencedFrom path spent text after hexpand
    obtain ⟨_, _, _, hbelow, _⟩ := expandAt_eq_ok_iff.1 hexpand
    omega
  · exact drawsAt_of_succ (task.drawsAt (depth + 1))
termination_by task.maxDepth - depth

/-- A text is expanded exactly when it is that of a drawn derivation for which the limits
leave room. -/
theorem expand_eq_ok_iff {task : Task} {start text : String} :
    task.expand start = .ok text ↔
      ∃ tree : Derivation task.book task.bindings start, tree.IsDrawn task.draw #[] ∧
        tree.text = text ∧ tree.depth ≤ task.maxDepth ∧ tree.size ≤ task.maxExpansions := by
  rw [expand_eq_expandRecursively, expandRecursively]
  constructor
  · intro hexpand
    cases hanswer : task.expandAt start none 0 #[] 0 with
    | error error =>
        rw [hanswer] at hexpand
        cases hexpand
    | ok answer =>
        rw [hanswer] at hexpand
        cases hexpand
        obtain ⟨tree, hdrawn, htext, hdepth, hsize, hwithin⟩ := task.drawsAt 0 _ _ _ _ _ _ hanswer
        exact ⟨tree, hdrawn, htext, by omega, by omega⟩
  · intro htree
    obtain ⟨tree, hdrawn, rfl, hdepth, hsize⟩ := htree
    rw [expandAt_of_isDrawn tree none 0 0 hdrawn (by omega) (by omega)]
    rfl

end Expansion.Task

/-- A text is generated exactly when it is that of the drawn derivation of the start, and the
limits leave room for that. -/
theorem Book.generate_eq_ok_iff {book : Book} {config : Config} {start : String}
    {bindings : Bindings} {seed : Seed} {t : Binary64} {text : String} :
    book.generate config start bindings seed t = .ok text ↔
      ∃ tree : Derivation book bindings start,
        tree.IsDrawn (Draw.Source.ofTime seed.state t).at #[] ∧ tree.text = text ∧
          tree.depth ≤ config.maxDepth ∧ tree.size ≤ config.maxExpansions :=
  Expansion.Task.expand_eq_ok_iff

end Phrasebook

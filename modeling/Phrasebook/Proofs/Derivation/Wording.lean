import Phrasebook.Proofs.Derivation.Drawn
import Phrasebook.Proofs.Source.Contents

/-!
# Books that differ in wording

Two books differ in wording only when their categories offer the same choices: the same
weights, and the same placeholders in the same order. Literals come and go in between, so the
segments of two alternatives do not stand at the same places, yet the draws of both books are
made at the same paths, which count placeholders alone. Expansions of the two books then make
the same choices all the way down, and they fail alike.
-/

namespace Phrasebook

/-! ## The same choices -/

/-- Templates with the same placeholders in the same order, whatever literals stand
between them. -/
inductive Template.Rewords : Template → Template → Prop where
  | nil : Rewords [] []
  | left {text : String} {template other : Template} (hrest : Rewords template other) :
      Rewords (.literal text :: template) other
  | right {text : String} {template other : Template} (hrest : Rewords template other) :
      Rewords template (.literal text :: other)
  | both {name : String} {template other : Template} (hrest : Rewords template other) :
      Rewords (.placeholder name :: template) (.placeholder name :: other)

theorem Template.rewords_of_placeholders_eq {template other : Template}
    (hplaceholders : template.placeholders = other.placeholders) :
    Template.Rewords template other := by
  induction template generalizing other with
  | nil =>
      induction other with
      | nil => exact .nil
      | cons segment rest ih =>
          cases segment with
          | literal text => exact .right (ih hplaceholders)
          | placeholder name => cases hplaceholders
  | cons segment rest ih =>
      cases segment with
      | literal text => exact .left (ih hplaceholders)
      | placeholder name =>
          induction other with
          | nil => cases hplaceholders
          | cons segment' rest' ih' =>
              cases segment' with
              | literal text => exact .right (ih' hplaceholders)
              | placeholder name' =>
                  obtain ⟨rfl, hrest⟩ := List.cons.inj hplaceholders
                  exact .both (ih hrest)

structure Category.Rewords (category other : Category) : Prop where
  weights : category.weights = other.weights
  placeholders : category.alternatives.map (·.template.placeholders) =
    other.alternatives.map (·.template.placeholders)

/-- Books with the same names, whose categories of one name differ in wording only. -/
structure Book.Rewords (book other : Book) : Prop where
  names : book.names = other.names
  categories : ∀ name category category', book.find? name = some category →
    other.find? name = some category' → category.Rewords category'

/-- A draw selects the same place in both categories, and there the same placeholders. -/
theorem Category.Rewords.selected {category other : Category} (hrewords : category.Rewords other)
    (draw : Binary64) :
    (category.selected draw = none ∧ other.selected draw = none) ∨
      ∃ i j, category.selected draw = some i ∧ other.selected draw = some j ∧ i.val = j.val ∧
        Template.Rewords (category.alternatives.get i).template
          (other.alternatives.get j).template := by
  have hplaces : (category.selected draw).map Fin.val = (other.selected draw).map Fin.val := by
    rw [map_val_selected, map_val_selected, hrewords.weights]
  cases hi : category.selected draw with
  | none =>
      rw [hi] at hplaces
      exact .inl ⟨rfl, Option.map_eq_none_iff.1 hplaces.symm⟩
  | some i =>
      rw [hi] at hplaces
      obtain ⟨j, hj, hval⟩ := Option.map_eq_some_iff.1 hplaces.symm
      refine .inr ⟨i, j, rfl, hj, hval.symm, Template.rewords_of_placeholders_eq ?_⟩
      have hfirst : (category.alternatives.map (·.template.placeholders))[i.val]? =
          some (category.alternatives.get i).template.placeholders := by simp
      have hsecond : (other.alternatives.map (·.template.placeholders))[j.val]? =
          some (other.alternatives.get j).template.placeholders := by simp
      rw [hrewords.placeholders, ← hval, hsecond] at hfirst
      exact (Option.some.inj hfirst).symm

theorem Book.contains_iff_mem_names {book : Book} {name : String} :
    book.contains name = true ↔ name ∈ book.names := by
  simp [contains, find?, names]

/-- A name is unknown to both books, or names categories that differ in wording only. -/
theorem Book.Rewords.find? {book other : Book} (hrewords : book.Rewords other) (name : String) :
    (book.find? name = none ∧ other.find? name = none) ∨
      ∃ category category', book.find? name = some category ∧
        other.find? name = some category' ∧ category.Rewords category' := by
  have hcontains : book.contains name = other.contains name := by
    rw [Bool.eq_iff_iff, contains_iff_mem_names, contains_iff_mem_names, hrewords.names]
  cases hfind : book.find? name with
  | none =>
      cases hother : other.find? name with
      | none => exact .inl ⟨rfl, rfl⟩
      | some category' => simp [contains, hfind, hother] at hcontains
  | some category =>
      cases hother : other.find? name with
      | none => simp [contains, hfind, hother] at hcontains
      | some category' =>
          exact .inr ⟨category, category', rfl, rfl,
            hrewords.categories name category category' hfind hother⟩

/-! ## Expansions in lockstep -/

namespace Expansion.Task

/-- Whether expanding a category at a depth fails alike in another book, and otherwise leaves
as many expansions made. -/
def SpendsAlikeAt (task : Task) (other : Book) (depth : Nat) : Prop :=
  ∀ (name : String) (referencedFrom : Option String) (path : Draw.Path) (spent : Nat),
    (task.expandAt name referencedFrom depth path spent).map Prod.snd =
      ((task.withBook other).expandAt name referencedFrom depth path spent).map Prod.snd

theorem map_snd_map_append (answer : Except Error (String × Nat)) (piece : String) :
    (answer.map fun (tail, spent) => (piece ++ tail, spent)).map Prod.snd =
      answer.map Prod.snd := by
  cases answer <;> rfl

theorem map_snd_bind_congr {answer other : Except Error (String × Nat)}
    {f g : String × Nat → Except Error (String × Nat)}
    (hsame : answer.map Prod.snd = other.map Prod.snd)
    (hnext : ∀ piece piece' spent, (f (piece, spent)).map Prod.snd =
      (g (piece', spent)).map Prod.snd) :
    (answer.bind f).map Prod.snd = (other.bind g).map Prod.snd := by
  cases answer with
  | error error =>
      cases other with
      | error error' =>
          cases hsame
          rfl
      | ok answer' => cases hsame
  | ok answer =>
      obtain ⟨piece, spent⟩ := answer
      cases other with
      | error error' => cases hsame
      | ok answer' =>
          obtain ⟨piece', spent'⟩ := answer'
          cases hsame
          exact hnext piece piece' spent

/-- Literals cost nothing, so templates that differ in them spend alike. -/
theorem map_snd_emit_of_rewords {task : Task} {other : Book} {depth : Nat}
    (hbelow : task.SpendsAlikeAt other (depth + 1)) {segments segments' : Template}
    (hrewords : Template.Rewords segments segments') (parent : String) (path : Draw.Path)
    (i k : Nat) (spent : Nat) :
    (task.emit parent depth path i k segments spent).map Prod.snd =
      ((task.withBook other).emit parent depth path i k segments' spent).map Prod.snd := by
  -- Only `both` moves the count of placeholders, and it does so on both sides.
  induction hrewords generalizing k spent with
  | nil => rw [emit_nil, emit_nil]
  | left _ ih =>
      rw [emit_literal, map_snd_map_append]
      exact ih k spent
  | right _ ih =>
      rw [emit_literal, map_snd_map_append]
      exact ih k spent
  | @both name _ _ _ ih =>
      cases hname : task.bindings.get? name with
      | some bound =>
          have hname' : (task.withBook other).bindings.get? name = some bound := hname
          rw [emit_bound hname, emit_bound hname', map_snd_map_append, map_snd_map_append]
          exact ih (k + 1) spent
      | none =>
          have hname' : (task.withBook other).bindings.get? name = none := hname
          rw [emit_free hname, emit_free hname']
          refine map_snd_bind_congr (hbelow _ _ _ _) fun piece piece' between => ?_
          rw [map_snd_map_append, map_snd_map_append]
          exact ih (k + 1) between

theorem spendsAlikeAt {task : Task} {other : Book} (hrewords : task.book.Rewords other)
    (depth : Nat) : task.SpendsAlikeAt other depth := by
  intro name referencedFrom path spent
  rcases hrewords.find? name with ⟨hfind, hother⟩ | ⟨category, category', hfind, hother, hsame⟩
  · rw [expandAt_of_find?_eq_none hfind, expandAt_of_find?_eq_none hother]
  · have hother' : (task.withBook other).book.find? name = some category' := hother
    rcases expandAt_withBook_of_limits hfind hother' referencedFrom depth path spent with
      ⟨error, herror, herror'⟩ | ⟨hdepth, hspent⟩
    · rw [herror, herror']
    · rw [expandAt_eq_selected hfind hdepth hspent, expandAt_eq_selected hother' hdepth hspent,
        withBook_draw]
      rcases hsame.selected (task.draw path) with ⟨hnone, hnone'⟩ |
        ⟨i, j, hi, hj, hval, htemplates⟩
      · rw [hnone, hnone']
      · rw [hi, hj]
        simp only [hval]
        have hbelow := spendsAlikeAt hrewords (depth + 1)
        exact map_snd_emit_of_rewords hbelow htemplates name path j 0 (spent + 1)
termination_by task.maxDepth - depth

/-- Expansions in two books that differ in wording both end with a text, or with one fault. -/
theorem expand_of_rewords {task : Task} {other : Book} (hrewords : task.book.Rewords other)
    (start : String) :
    (∃ error, task.expand start = .error error ∧
      (task.withBook other).expand start = .error error) ∨
    ∃ text text', task.expand start = .ok text ∧ (task.withBook other).expand start = .ok text' := by
  have hspent := spendsAlikeAt hrewords 0 start none #[] 0
  rw [expand_eq_expandRecursively, expand_eq_expandRecursively, expandRecursively,
    expandRecursively]
  cases hfirst : task.expandAt start none 0 #[] 0 with
  | error error =>
      cases hsecond : (task.withBook other).expandAt start none 0 #[] 0 with
      | error error' =>
          rw [hfirst, hsecond] at hspent
          cases hspent
          exact .inl ⟨error, rfl, rfl⟩
      | ok answer' =>
          rw [hfirst, hsecond] at hspent
          cases hspent
  | ok answer =>
      cases hsecond : (task.withBook other).expandAt start none 0 #[] 0 with
      | error error' =>
          rw [hfirst, hsecond] at hspent
          cases hspent
      | ok answer' => exact .inr ⟨answer.1, answer'.1, rfl, rfl⟩

end Expansion.Task

/-! ## The choices of a derivation -/

/-- A tree of choices: the place of an alternative in its category, and below it the choices
for each placeholder that is expanded, from left to right. -/
inductive Choices where
  | node (place : Nat) (below : List Choices)

variable {book other : Book} {bindings : Bindings} {draw : Draw.Path → Binary64}

mutual

def Derivation.choices {name : String} : Derivation book bindings name → Choices
  | .node _ _ i _ filling => .node i filling.choices

def Filling.choices {template : Template} : Filling book bindings template → List Choices
  | .nil => []
  | .literal _ tail => tail.choices
  | .bound _ _ tail => tail.choices
  | .derived _ piece tail => piece.choices :: tail.choices

end

/-- What fills two templates that differ in literals makes the same choices where both are
drawn, when derivations that are no deeper do. -/
theorem Filling.choices_eq_of_rewords {bound : Nat}
    (hbelow : ∀ (name : String) (path : Draw.Path) (piece : Derivation book bindings name)
      (piece' : Derivation other bindings name), piece.depth ≤ bound →
        piece.IsDrawn draw path → piece'.IsDrawn draw path → piece.choices = piece'.choices)
    {template template' : Template} (hrewords : Template.Rewords template template')
    {path : Draw.Path} {i k : Nat} (filling : Filling book bindings template)
    (filling' : Filling other bindings template') (hdepth : filling.depth ≤ bound)
    (hdrawn : filling.IsDrawn draw path i k) (hdrawn' : filling'.IsDrawn draw path i k) :
    filling.choices = filling'.choices := by
  induction hrewords generalizing k with
  | nil =>
      cases filling
      cases filling'
      rfl
  | left _ ih =>
      cases filling with
      | literal _ tail => exact ih tail filling' hdepth hdrawn hdrawn'
  | right _ ih =>
      cases filling' with
      | literal _ tail => exact ih filling tail hdepth hdrawn hdrawn'
  | both _ ih =>
      cases filling with
      | bound _ hbound tail =>
          cases filling' with
          | bound _ _ tail' => exact ih tail tail' hdepth hdrawn hdrawn'
          | derived hfree _ _ =>
              rw [hfree] at hbound
              cases hbound
      | derived hfree piece tail =>
          cases filling' with
          | bound _ hbound _ =>
              rw [hfree] at hbound
              cases hbound
          | derived _ piece' tail' =>
              obtain ⟨hpieceDepth, htailDepth⟩ := Nat.max_le.1 hdepth
              have hpiece := hbelow _ _ piece piece' hpieceDepth hdrawn.1 hdrawn'.1
              have htail := ih tail tail' htailDepth hdrawn.2 hdrawn'.2
              simp only [choices, hpiece, htail]

/-- Derivations that are drawn in books that differ in wording make the same choices. -/
theorem Derivation.choices_eq_of_rewords (hrewords : book.Rewords other) {name : String}
    {path : Draw.Path} (tree : Derivation book bindings name)
    (tree' : Derivation other bindings name) (hdrawn : tree.IsDrawn draw path)
    (hdrawn' : tree'.IsDrawn draw path) : tree.choices = tree'.choices := by
  match tree, tree' with
  | .node category hfind i _ filling, .node category' hother j _ filling' =>
      obtain ⟨hi, hfilling⟩ := hdrawn
      obtain ⟨hj, hfilling'⟩ := hdrawn'
      rcases (hrewords.categories name category category' hfind hother).selected (draw path) with
        ⟨hnone, -⟩ | ⟨i', j', hi', hj', hval, htemplates⟩
      · rw [hi] at hnone
        cases hnone
      · obtain rfl : i = i' := Option.some.inj (hi.symm.trans hi')
        obtain rfl : j = j' := Option.some.inj (hj.symm.trans hj')
        rw [← hval] at hfilling'
        have hsame : filling.choices = filling'.choices :=
          Filling.choices_eq_of_rewords
            (fun _ _ piece piece' hle => piece.choices_eq_of_rewords hrewords piece')
            htemplates filling filling' (Nat.le_refl _) hfilling hfilling'
        simp only [choices, hval, hsame]
termination_by tree.depth
decreasing_by
  simp only [Derivation.depth]
  omega

namespace Book

/-- Books that differ in wording fail alike, or both make texts, and then by one tree of
choices: each text is that of the derivation which makes these choices in its own book. -/
theorem generate_of_rewords {book other : Book} (hrewords : book.Rewords other) (config : Config)
    (start : String) (bindings : Bindings) (seed : Seed) (t : Binary64) :
    (∃ error, book.generate config start bindings seed t = .error error ∧
      other.generate config start bindings seed t = .error error) ∨
    ∃ (tree : Derivation book bindings start) (tree' : Derivation other bindings start),
      tree.choices = tree'.choices ∧
      tree.IsDrawn (Draw.Source.ofTime seed.state t).at #[] ∧
      tree'.IsDrawn (Draw.Source.ofTime seed.state t).at #[] ∧
      book.generate config start bindings seed t = .ok tree.text ∧
      other.generate config start bindings seed t = .ok tree'.text := by
  let task : Expansion.Task :=
    ⟨book, bindings, (Draw.Source.ofTime seed.state t).at, config.maxDepth, config.maxExpansions⟩
  have hbooks : task.book.Rewords other := hrewords
  rcases Expansion.Task.expand_of_rewords hbooks start with
    hfault | ⟨text, text', htext, htext'⟩
  · exact .inl hfault
  · obtain ⟨tree, hdrawn, rfl, -⟩ := generate_eq_ok_iff.1 htext
    obtain ⟨tree', hdrawn', rfl, -⟩ := generate_eq_ok_iff.1 htext'
    have hchoices := tree.choices_eq_of_rewords hrewords tree' hdrawn hdrawn'
    exact .inr ⟨tree, tree', hchoices, hdrawn, hdrawn', htext, htext'⟩

theorem generate_of_rewords_greetings :
    ∃ book other,
      Source.parse "root:\n- so {{who}}\n- {{who}} and {{who}}\nwho:\n- Ann\n- 2x Ben\n" =
        .ok book ∧
      Source.parse "root:\n- {{who}}!\n- both {{who}}, {{who}}\nwho:\n- Cat\n- 2x Dan\n" =
        .ok other ∧
      book.Rewords other ∧
      book.generate Config.default "root" Bindings.empty ⟨"#7", 7⟩ .zero = .ok "Ben and Ann" ∧
      other.generate Config.default "root" Bindings.empty ⟨"#7", 7⟩ .zero =
        .ok "both Dan, Cat" ∧
      ∃ (tree : Derivation book Bindings.empty "root")
        (tree' : Derivation other Bindings.empty "root"),
        tree.choices = tree'.choices ∧
        tree.IsDrawn (Draw.Source.ofTime 7 .zero).at #[] ∧
        tree'.IsDrawn (Draw.Source.ofTime 7 .zero).at #[] ∧
        tree.text = "Ben and Ann" ∧ tree'.text = "both Dan, Cat" := by
  let root : Category := ⟨"root", [⟨.one, [.literal "so ", .placeholder "who"]⟩,
    ⟨.one, [.placeholder "who", .literal " and ", .placeholder "who"]⟩]⟩
  let who : Category := ⟨"who", [⟨.one, [.literal "Ann"]⟩, ⟨.two, [.literal "Ben"]⟩]⟩
  let root' : Category := ⟨"root", [⟨.one, [.placeholder "who", .literal "!"]⟩,
    ⟨.one, [.literal "both ", .placeholder "who", .literal ", ", .placeholder "who"]⟩]⟩
  let who' : Category := ⟨"who", [⟨.one, [.literal "Cat"]⟩, ⟨.two, [.literal "Dan"]⟩]⟩
  obtain ⟨book, hparse, htest⟩ := Source.exists_parse_of_test
    "root:\n- so {{who}}\n- {{who}} and {{who}}\nwho:\n- Ann\n- 2x Ben\n"
    (fun book => decide (book.categories = [root, who])) (by decide +kernel)
  obtain ⟨other, hparse', htest'⟩ := Source.exists_parse_of_test
    "root:\n- {{who}}!\n- both {{who}}, {{who}}\nwho:\n- Cat\n- 2x Dan\n"
    (fun book => decide (book.categories = [root', who'])) (by decide +kernel)
  have hcategories : book.categories = [root, who] := of_decide_eq_true htest
  have hcategories' : other.categories = [root', who'] := of_decide_eq_true htest'
  have hrewords : book.Rewords other := by
    refine ⟨by rw [names, names, hcategories, hcategories']; rfl, ?_⟩
    intro name category category' hfind hother
    have hmem := mem_of_find? hfind
    have hmem' := mem_of_find? hother
    have hnames : category.name = category'.name :=
      (name_of_find? hfind).trans (name_of_find? hother).symm
    rw [hcategories] at hmem
    rw [hcategories'] at hmem'
    simp only [List.mem_cons, List.not_mem_nil, or_false] at hmem hmem'
    rcases hmem with rfl | rfl <;> rcases hmem' with rfl | rfl
    · exact ⟨rfl, rfl⟩
    · exact absurd hnames (by decide)
    · exact absurd hnames (by decide)
    · exact ⟨rfl, rfl⟩
  have hroot : book.find? "root" = some root := by
    rw [find?, hcategories]
    rfl
  have hwho : book.find? "who" = some who := by
    rw [find?, hcategories]
    rfl
  have hroot' : other.find? "root" = some root' := by
    rw [find?, hcategories']
    rfl
  have hwho' : other.find? "who" = some who' := by
    rw [find?, hcategories']
    rfl
  have hfree : Bindings.empty.get? "who" = none := rfl
  have hsecond : root.selected ((Draw.Source.ofTime 7 .zero).at #[]) = some ⟨1, by decide⟩ ∧
      root'.selected ((Draw.Source.ofTime 7 .zero).at #[]) = some ⟨1, by decide⟩ := by
    decide +kernel
  have hleft : who.selected ((Draw.Source.ofTime 7 .zero).at #[1, 0]) = some ⟨1, by decide⟩ ∧
      who'.selected ((Draw.Source.ofTime 7 .zero).at #[1, 0]) = some ⟨1, by decide⟩ := by
    decide +kernel
  have hright : who.selected ((Draw.Source.ofTime 7 .zero).at #[1, 1]) = some ⟨0, by decide⟩ ∧
      who'.selected ((Draw.Source.ofTime 7 .zero).at #[1, 1]) = some ⟨0, by decide⟩ := by
    decide +kernel
  have htext : book.generate Config.default "root" Bindings.empty ⟨"#7", 7⟩ .zero =
      .ok "Ben and Ann" := by
    refine (Expansion.Task.expand_eq_expandRecursively _ _).trans ?_
    simp [Expansion.Task.expandRecursively, Expansion.Task.expandAt, Expansion.Task.emit,
      Config.default, hroot, hwho, hfree, hsecond, hleft, hright, root, who, Except.map]
  have htext' : other.generate Config.default "root" Bindings.empty ⟨"#7", 7⟩ .zero =
      .ok "both Dan, Cat" := by
    refine (Expansion.Task.expand_eq_expandRecursively _ _).trans ?_
    simp [Expansion.Task.expandRecursively, Expansion.Task.expandAt, Expansion.Task.emit,
      Config.default, hroot', hwho', hfree, hsecond, hleft, hright, root', who', Except.map]
  rcases generate_of_rewords hrewords Config.default "root" Bindings.empty ⟨"#7", 7⟩ .zero with
    ⟨error, hfault, -⟩ | ⟨tree, tree', hchoices, hdrawn, hdrawn', hanswer, hanswer'⟩
  · rw [htext] at hfault
    cases hfault
  · rw [htext] at hanswer
    rw [htext'] at hanswer'
    exact ⟨book, other, hparse, hparse', hrewords, htext, htext', tree, tree', hchoices, hdrawn,
      hdrawn', (Except.ok.inj hanswer).symm, (Except.ok.inj hanswer').symm⟩

end Book

end Phrasebook

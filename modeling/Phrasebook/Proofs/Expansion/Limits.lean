import Phrasebook.Proofs.Derivation.Drawn
import Phrasebook.Proofs.Source.Contents

/-!
# What the limits decide

Runs of one expansion under two pairs of limits, one as large as the other or larger, take
the same steps until the smaller one meets a limit. So limits decide whether an expansion
ends with a text and never which text that is: a text needs as much room as its drawn
derivation takes up, and any other fault stays where there is more room.
-/

namespace Phrasebook

namespace Expansion.Task

def IsLimited (task : Task) (answer : Except Error α) : Prop :=
  ∃ category, answer = .error (.depthExceeded category task.maxDepth) ∨
    answer = .error (.expansionLimit category task.maxExpansions)

theorem IsLimited.bind {task : Task} {answer : Except Error α} (hanswer : task.IsLimited answer)
    (f : α → Except Error β) : task.IsLimited (answer.bind f) := by
  obtain ⟨category, rfl | rfl⟩ := hanswer
  · exact ⟨category, .inl rfl⟩
  · exact ⟨category, .inr rfl⟩

theorem IsLimited.map {task : Task} {answer : Except Error α} (hanswer : task.IsLimited answer)
    (f : α → β) : task.IsLimited (answer.map f) := by
  obtain ⟨category, rfl | rfl⟩ := hanswer
  · exact ⟨category, .inl rfl⟩
  · exact ⟨category, .inr rfl⟩

def withLimits (task : Task) (maxDepth maxExpansions : Nat) : Task :=
  { task with maxDepth := maxDepth, maxExpansions := maxExpansions }

@[simp] theorem withLimits_draw (task : Task) (maxDepth maxExpansions : Nat) :
    (task.withLimits maxDepth maxExpansions).draw = task.draw := rfl

section
variable {task : Task} {maxDepth maxExpansions : Nat}

/-- Segments that are emitted without meeting a limit are emitted alike under other limits,
when the level below is expanded alike. -/
theorem isLimited_or_emit_eq {depth : Nat}
    (hbelow : ∀ name referencedFrom path spent,
      task.IsLimited (task.expandAt name referencedFrom (depth + 1) path spent) ∨
        (task.withLimits maxDepth maxExpansions).expandAt name referencedFrom (depth + 1) path
          spent = task.expandAt name referencedFrom (depth + 1) path spent)
    (parent : String) (path : Draw.Path) (i k : Nat) (segments : Template) (spent : Nat) :
    task.IsLimited (task.emit parent depth path i k segments spent) ∨
      (task.withLimits maxDepth maxExpansions).emit parent depth path i k segments spent =
        task.emit parent depth path i k segments spent := by
  induction segments generalizing k spent with
  | nil => exact .inr (emit_nil.trans emit_nil.symm)
  | cons segment rest ih =>
      cases segment with
      | literal text =>
          rw [emit_literal, emit_literal]
          rcases ih k spent with hlimited | hsame
          · exact .inl (hlimited.map _)
          · exact .inr (by rw [hsame])
      | placeholder name =>
          cases hname : task.bindings.get? name with
          | some bound =>
              have hname' : (task.withLimits maxDepth maxExpansions).bindings.get? name =
                  some bound := hname
              rw [emit_bound hname, emit_bound hname']
              rcases ih (k + 1) spent with hlimited | hsame
              · exact .inl (hlimited.map _)
              · exact .inr (by rw [hsame])
          | none =>
              have hname' : (task.withLimits maxDepth maxExpansions).bindings.get? name = none :=
                hname
              rw [emit_free hname, emit_free hname']
              rcases hbelow name (some parent) (path ++ #[i.toUInt32, k.toUInt32]) spent with
                hlimited | hsame
              · exact .inl (hlimited.bind _)
              · rw [hsame]
                cases task.expandAt name (some parent) (depth + 1)
                    (path ++ #[i.toUInt32, k.toUInt32]) spent with
                | error error => exact .inr rfl
                | ok answer =>
                    obtain ⟨piece, between⟩ := answer
                    simp only [Except.bind]
                    rcases ih (k + 1) between with hlimited | hsame
                    · exact .inl (hlimited.map _)
                    · exact .inr (by rw [hsame])

/-- An expansion that meets no limit is the same under limits that are as large or larger. -/
theorem isLimited_or_expandAt_eq (hdepth : task.maxDepth ≤ maxDepth)
    (hexpansions : task.maxExpansions ≤ maxExpansions) (name : String)
    (referencedFrom : Option String) (depth : Nat) (path : Draw.Path) (spent : Nat) :
    task.IsLimited (task.expandAt name referencedFrom depth path spent) ∨
      (task.withLimits maxDepth maxExpansions).expandAt name referencedFrom depth path spent =
        task.expandAt name referencedFrom depth path spent := by
  cases hfind : task.book.find? name with
  | none =>
      rw [expandAt_of_find?_eq_none hfind]
      exact .inr (expandAt_of_find?_eq_none hfind)
  | some category =>
      by_cases hdeep : task.maxDepth ≤ depth
      · exact .inl ⟨name, .inl (expandAt_of_maxDepth_le hfind hdeep)⟩
      · have hwithin : depth < task.maxDepth := Nat.lt_of_not_le hdeep
        by_cases hmany : task.maxExpansions ≤ spent
        · exact .inl ⟨name, .inr (expandAt_of_maxExpansions_le hfind hwithin hmany)⟩
        · have hroom : spent < task.maxExpansions := Nat.lt_of_not_le hmany
          have hsame : (task.withLimits maxDepth maxExpansions).expandAt name referencedFrom depth
              path spent = _ :=
            expandAt_eq_selected hfind (Nat.lt_of_lt_of_le hwithin hdepth)
              (Nat.lt_of_lt_of_le hroom hexpansions)
          rw [hsame, expandAt_eq_selected hfind hwithin hroom]
          simp only [withLimits_draw]
          cases category.selected (task.draw path) with
          | none => exact .inr rfl
          | some i =>
              have hbelow := fun name referencedFrom path spent =>
                isLimited_or_expandAt_eq hdepth hexpansions name referencedFrom (depth + 1) path
                  spent
              exact isLimited_or_emit_eq hbelow name path i 0 _ (spent + 1)
termination_by task.maxDepth - depth

theorem isLimited_or_expand_eq (hdepth : task.maxDepth ≤ maxDepth)
    (hexpansions : task.maxExpansions ≤ maxExpansions) (start : String) :
    task.IsLimited (task.expand start) ∨
      (task.withLimits maxDepth maxExpansions).expand start = task.expand start := by
  rw [expand_eq_expandRecursively, expand_eq_expandRecursively, expandRecursively,
    expandRecursively]
  rcases isLimited_or_expandAt_eq hdepth hexpansions start none 0 #[] 0 with hlimited | hsame
  · exact .inl (hlimited.map _)
  · exact .inr (by rw [hsame])

end

end Expansion.Task

namespace Book

/-- What is generated is the fault of a limit, or the same under limits that are as large or
larger. -/
theorem limited_or_generate_eq (book : Book) (config other : Config)
    (hdepth : config.maxDepth ≤ other.maxDepth)
    (hexpansions : config.maxExpansions ≤ other.maxExpansions) (start : String)
    (bindings : Bindings) (seed : Seed) (t : Binary64) :
    (∃ category,
      book.generate config start bindings seed t =
          .error (.depthExceeded category config.maxDepth) ∨
        book.generate config start bindings seed t =
          .error (.expansionLimit category config.maxExpansions)) ∨
      book.generate other start bindings seed t = book.generate config start bindings seed t :=
  Expansion.Task.isLimited_or_expand_eq hdepth hexpansions start

/-- A text that is generated under some limits is generated exactly when the limits are not
below two numbers, and below them the fault is that of a limit. Any other fault stays when
no limit is lowered. -/
theorem generate_eq_ok_iff_limits (book : Book) (start : String) (bindings : Bindings)
    (seed : Seed) (t : Binary64) :
    (∀ config text, book.generate config start bindings seed t = .ok text →
      ∃ depth expansions, ∀ other : Config,
        (book.generate other start bindings seed t = .ok text ↔
          depth ≤ other.maxDepth ∧ expansions ≤ other.maxExpansions) ∧
        (¬(depth ≤ other.maxDepth ∧ expansions ≤ other.maxExpansions) → ∃ category,
          book.generate other start bindings seed t =
              .error (.depthExceeded category other.maxDepth) ∨
            book.generate other start bindings seed t =
              .error (.expansionLimit category other.maxExpansions))) ∧
    ∀ config error, book.generate config start bindings seed t = .error error →
      ((∃ name referencedFrom, error = .unknownCategory name referencedFrom) ∨
        ∃ category, error = .noPositiveWeight category) →
      ∀ other : Config, config.maxDepth ≤ other.maxDepth →
        config.maxExpansions ≤ other.maxExpansions →
          book.generate other start bindings seed t = .error error := by
  constructor
  · intro config text hgenerate
    obtain ⟨tree, hdrawn, htext, -⟩ := generate_eq_ok_iff.1 hgenerate
    have hroom (other : Config) : book.generate other start bindings seed t = .ok text ↔
        tree.depth ≤ other.maxDepth ∧ tree.size ≤ other.maxExpansions := by
      constructor
      · intro hother
        obtain ⟨tree', hdrawn', -, hwithin⟩ := generate_eq_ok_iff.1 hother
        rw [hdrawn.unique hdrawn']
        exact hwithin
      · intro hwithin
        exact generate_eq_ok_iff.2 ⟨tree, hdrawn, htext, hwithin⟩
    refine ⟨tree.depth, tree.size, fun other => ⟨hroom other, fun hnarrow => ?_⟩⟩
    -- With more room the text is generated, so without a limited answer it would be here.
    let wide : Config :=
      ⟨max tree.depth other.maxDepth, max tree.size other.maxExpansions, other.start⟩
    have hwide : book.generate wide start bindings seed t = .ok text :=
      (hroom wide).2 ⟨Nat.le_max_left _ _, Nat.le_max_left _ _⟩
    rcases book.limited_or_generate_eq other wide (Nat.le_max_right _ _) (Nat.le_max_right _ _)
      start bindings seed t with hlimited | hsame
    · exact hlimited
    · exact (hnarrow ((hroom other).1 (hsame ▸ hwide))).elim
  · intro config error hgenerate hfault other hdepth hexpansions
    rcases book.limited_or_generate_eq config other hdepth hexpansions start bindings seed t with
      ⟨category, hlimited⟩ | hsame
    · rw [hgenerate] at hlimited
      rcases hfault with ⟨name, referencedFrom, rfl⟩ | ⟨name, rfl⟩ <;>
        rcases hlimited with hlimited | hlimited <;> cases hlimited
    · rw [hsame, hgenerate]

theorem generate_eq_ok_iff_limits_pair :
    ∃ book, Source.parse
        "root:\n- {{who}}, {{who}}\nwho:\n- Ann\n- 2x Ben\nlost:\n- {{nobody}}\n" = .ok book ∧
      book.generate ⟨2, 3, "root"⟩ "root" Bindings.empty ⟨"#7", 7⟩ .zero = .ok "Ben, Ann" ∧
      (∃ depth expansions, ∀ other : Config,
        (book.generate other "root" Bindings.empty ⟨"#7", 7⟩ .zero = .ok "Ben, Ann" ↔
          depth ≤ other.maxDepth ∧ expansions ≤ other.maxExpansions) ∧
        (¬(depth ≤ other.maxDepth ∧ expansions ≤ other.maxExpansions) → ∃ category,
          book.generate other "root" Bindings.empty ⟨"#7", 7⟩ .zero =
              .error (.depthExceeded category other.maxDepth) ∨
            book.generate other "root" Bindings.empty ⟨"#7", 7⟩ .zero =
              .error (.expansionLimit category other.maxExpansions))) ∧
      book.generate ⟨2, 1, "root"⟩ "lost" Bindings.empty ⟨"#7", 7⟩ .zero =
        .error (.unknownCategory "nobody" (some "lost")) ∧
      book.generate ⟨9, 1, "root"⟩ "lost" Bindings.empty ⟨"#7", 7⟩ .zero =
        .error (.unknownCategory "nobody" (some "lost")) := by
  let root : Category :=
    ⟨"root", [⟨.one, [.placeholder "who", .literal ", ", .placeholder "who"]⟩]⟩
  let who : Category := ⟨"who", [⟨.one, [.literal "Ann"]⟩, ⟨.two, [.literal "Ben"]⟩]⟩
  let lost : Category := ⟨"lost", [⟨.one, [.placeholder "nobody"]⟩]⟩
  obtain ⟨book, hparse, htest⟩ := Source.exists_parse_of_test
    "root:\n- {{who}}, {{who}}\nwho:\n- Ann\n- 2x Ben\nlost:\n- {{nobody}}\n"
    (fun book => decide (book.find? "root" = some root) && decide (book.find? "who" = some who) &&
      decide (book.find? "lost" = some lost) && decide (book.find? "nobody" = none))
    (by decide +kernel)
  simp only [Bool.and_eq_true, decide_eq_true_eq] at htest
  obtain ⟨⟨⟨hroot, hwho⟩, hlost⟩, hnobody⟩ := htest
  have hfirst : root.selected ((Draw.Source.ofTime 7 .zero).at #[]) = some ⟨0, by decide⟩ := by
    decide +kernel
  have hben : who.selected ((Draw.Source.ofTime 7 .zero).at #[0, 0]) = some ⟨1, by decide⟩ := by
    decide +kernel
  have hann : who.selected ((Draw.Source.ofTime 7 .zero).at #[0, 1]) = some ⟨0, by decide⟩ := by
    decide +kernel
  have hfree (name : String) : Bindings.empty.get? name = none := rfl
  have hgenerate : book.generate ⟨2, 3, "root"⟩ "root" Bindings.empty ⟨"#7", 7⟩ .zero =
      .ok "Ben, Ann" := by
    refine (Expansion.Task.expand_eq_expandRecursively _ _).trans ?_
    simp [Expansion.Task.expandRecursively, Expansion.Task.expandAt, Expansion.Task.emit, hroot,
      hwho, hfirst, hben, hann, root, who, hfree, Except.map]
  have hlostFirst : lost.selected ((Draw.Source.ofTime 7 .zero).at #[]) = some ⟨0, by decide⟩ := by
    decide +kernel
  have hunknown : book.generate ⟨2, 1, "root"⟩ "lost" Bindings.empty ⟨"#7", 7⟩ .zero =
      .error (.unknownCategory "nobody" (some "lost")) := by
    refine (Expansion.Task.expand_eq_expandRecursively _ _).trans ?_
    simp [Expansion.Task.expandRecursively, Expansion.Task.expandAt, Expansion.Task.emit, hlost,
      hlostFirst, hnobody, lost, hfree, Except.map]
  refine ⟨book, hparse, hgenerate, ?_, hunknown, ?_⟩
  · exact (book.generate_eq_ok_iff_limits "root" Bindings.empty ⟨"#7", 7⟩ .zero).1 _ _ hgenerate
  · exact (book.generate_eq_ok_iff_limits "lost" Bindings.empty ⟨"#7", 7⟩ .zero).2 _ _ hunknown
      (.inl ⟨_, _, rfl⟩) ⟨9, 1, "root"⟩ (by decide) (by decide)

end Book

end Phrasebook

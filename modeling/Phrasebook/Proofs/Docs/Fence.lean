import Mathlib.Data.List.TakeWhile
import Phrasebook.Docs.Fence

/-!
# Fences

Which lines open a fence and which close it, said of the parts of the line: the spaces before
the marks, the marks and what follows them.
-/

namespace Phrasebook

namespace Text

/-! ## Runs of a character -/

/-- A text starts with a run of a character, and the rest does not go on with it. -/
theorem length_takeWhile_eq_iff (c : Char) (cs : List Char) {n : Nat} {rest : List Char} :
    (cs.takeWhile (· == c)).length = n ∧ cs.drop n = rest ↔
      cs = List.replicate n c ++ rest ∧ rest.head? ≠ some c := by
  constructor
  · intro hrun
    obtain ⟨rfl, rfl⟩ := hrun
    have hparts := List.takeWhile_append_dropWhile (p := (· == c)) (l := cs)
    have hdrop : cs.drop (cs.takeWhile (· == c)).length = cs.dropWhile (· == c) := by
      calc cs.drop (cs.takeWhile (· == c)).length
          = (cs.takeWhile (· == c) ++ cs.dropWhile (· == c)).drop
              (cs.takeWhile (· == c)).length := by rw [hparts]
        _ = cs.dropWhile (· == c) := List.drop_left
    have hrun : cs.takeWhile (· == c) = List.replicate (cs.takeWhile (· == c)).length c :=
      List.eq_replicate_iff.2 ⟨rfl, fun d hd => by simpa using List.mem_takeWhile_imp hd⟩
    rw [hdrop, ← hrun, hparts]
    refine ⟨rfl, ?_⟩
    intro hhead
    have hnot := List.head?_dropWhile_not (· == c) cs
    rw [hhead] at hnot
    simp at hnot
  · intro hform
    obtain ⟨rfl, hhead⟩ := hform
    have hrest : rest.takeWhile (· == c) = [] := by
      cases rest with
      | nil => rfl
      | cons d rest =>
          refine List.takeWhile_cons_of_neg ?_
          simpa using fun heq => hhead (congrArg some heq)
    have hall : ∀ d ∈ List.replicate n c, (d == c) = true := fun d hd =>
      beq_iff_eq.2 (List.eq_of_mem_replicate hd)
    rw [List.takeWhile_append_of_pos hall, hrest, List.append_nil, List.length_replicate]
    exact ⟨rfl, List.drop_left' List.length_replicate⟩

end Text

namespace Docs

/-! ## Opening and closing lines -/

/-- A line opens a fence: up to three spaces, at least three backticks or tildes, and the info
string, in which there is no backtick after backticks. -/
structure Fence.Opens (fence : Fence) (info line : List Char) : Prop where
  mark : fence.mark = '\x60' ∨ fence.mark = '~'
  length : 3 ≤ fence.length
  indent : fence.indent ≤ 3
  form : ∃ rest, withoutEnd line =
      List.replicate fence.indent ' ' ++ (List.replicate fence.length fence.mark ++ rest) ∧
    rest.head? ≠ some fence.mark ∧ info = Text.trim rest
  unmarked : fence.mark = '\x60' → '\x60' ∉ info

/-- A line closes a fence: up to three spaces, at least as many marks, and nothing else but
blanks. -/
def Fence.Closes (fence : Fence) (line : List Char) : Prop :=
  ∃ spaces marks rest, withoutEnd line =
      List.replicate spaces ' ' ++ (List.replicate marks fence.mark ++ rest) ∧
    spaces ≤ 3 ∧ fence.length ≤ marks ∧ Text.isBlankText rest = true

/-- No mark of a fence is blank. -/
theorem Fence.Opens.isBlank_mark {fence : Fence} {info line : List Char}
    (hopens : fence.Opens info line) : Text.isBlank fence.mark = false ∧ fence.mark ≠ ' ' := by
  rcases hopens.mark with hmark | hmark <;> rw [hmark] <;> decide

theorem exists_marks_eq_cons {n : Nat} (hn : 0 < n) (mark : Char) (rest : List Char) :
    ∃ tail, List.replicate n mark ++ rest = mark :: tail := by
  obtain ⟨k, hk⟩ := Nat.exists_eq_add_of_lt hn
  rw [hk, Nat.zero_add, List.replicate_succ]
  exact ⟨_, List.cons_append⟩

/-- What makes a run of marks a fence. -/
theorem isProper_iff {mark : Char} {indent length : Nat} {info : List Char} :
    (deepestIndent < indent || (mark != '\x60' && mark != '~') || length < shortestFence ||
        (mark == '\x60' && info.contains '\x60')) = false ↔
      (mark = '\x60' ∨ mark = '~') ∧ 3 ≤ length ∧ indent ≤ 3 ∧
        (mark = '\x60' → '\x60' ∉ info) := by
  simp only [deepestIndent, shortestFence, Bool.or_eq_false_iff, Bool.and_eq_false_iff,
    decide_eq_false_iff_not, bne_eq_false_iff_eq, beq_eq_false_iff_ne, List.contains_eq_mem,
    ← imp_iff_not_or]
  constructor
  · intro hproper
    obtain ⟨⟨⟨hindent, hmark⟩, hlength⟩, hinfo⟩ := hproper
    exact ⟨hmark, Nat.not_lt.1 (of_decide_eq_false hlength),
      Nat.not_lt.1 (of_decide_eq_false hindent), hinfo⟩
  · intro hproper
    obtain ⟨hmark, hlength, hindent, hinfo⟩ := hproper
    exact ⟨⟨⟨decide_eq_false (Nat.not_lt.2 hindent), hmark⟩,
      decide_eq_false (Nat.not_lt.2 hlength)⟩, hinfo⟩

theorem openingFence?_eq_some_iff {line info : List Char} {fence : Fence} :
    openingFence? line = some (fence, info) ↔ fence.Opens info line := by
  unfold openingFence?
  dsimp only
  constructor
  · intro hopening
    split at hopening
    · cases hopening
    · next mark tail hrest =>
      rw [hrest] at hopening
      obtain ⟨hspaces, -⟩ := (Text.length_takeWhile_eq_iff ' ' (withoutEnd line)).1 ⟨rfl, hrest⟩
      obtain ⟨hmarks, hnext⟩ := (Text.length_takeWhile_eq_iff mark (mark :: tail)).1 ⟨rfl, rfl⟩
      split at hopening
      · cases hopening
      · next hproper =>
        obtain ⟨hmark, hlength, hindent, hinfo⟩ := isProper_iff.1 (Bool.eq_false_iff.2 hproper)
        cases hopening
        exact ⟨hmark, hlength, hindent, ⟨_, hmarks ▸ hspaces, hnext, rfl⟩, hinfo⟩
  · intro hopens
    obtain ⟨rest, hline, hrest, rfl⟩ := hopens.form
    obtain ⟨tail, hmarks⟩ :=
      exists_marks_eq_cons (Nat.zero_lt_of_lt hopens.length) fence.mark rest
    have hnext : (List.replicate fence.length fence.mark ++ rest).head? ≠ some ' ' := by
      rw [hmarks]
      exact fun heq => hopens.isBlank_mark.2 (Option.some.inj heq)
    obtain ⟨hindent, hbody⟩ := (Text.length_takeWhile_eq_iff ' ' _).2 ⟨hline, hnext⟩
    obtain ⟨hlength, hafter⟩ := (Text.length_takeWhile_eq_iff fence.mark _).2 ⟨rfl, hrest⟩
    rw [hmarks] at hbody hlength hafter
    have hproper := isProper_iff.2 ⟨hopens.mark, hopens.length, hopens.indent, hopens.unmarked⟩
    rw [hindent, hbody]
    dsimp only
    rw [hlength, hafter, hproper]
    rfl

theorem isClosedBy_iff {fence : Fence} {info opening line : List Char}
    (hopens : fence.Opens info opening) : fence.isClosedBy line = true ↔ fence.Closes line := by
  unfold Fence.isClosedBy
  simp only [Bool.and_eq_true, decide_eq_true_eq, and_assoc]
  constructor
  · intro hclosed
    obtain ⟨hspaces, hnext⟩ := (Text.length_takeWhile_eq_iff ' ' (withoutEnd line)).1 ⟨rfl, rfl⟩
    obtain ⟨hmarks, -⟩ := (Text.length_takeWhile_eq_iff fence.mark _).1 ⟨rfl, rfl⟩
    exact ⟨_, _, _, hmarks ▸ hspaces, hclosed⟩
  · intro hcloses
    obtain ⟨spaces, marks, rest, hline, hindent, hlength, hblank⟩ := hcloses
    have hpos : 0 < marks := by
      have hthree := hopens.length
      omega
    obtain ⟨tail, hmarks⟩ := exists_marks_eq_cons hpos fence.mark rest
    have hnext : (List.replicate marks fence.mark ++ rest).head? ≠ some ' ' := by
      rw [hmarks]
      exact fun heq => hopens.isBlank_mark.2 (Option.some.inj heq)
    have hend : rest.head? ≠ some fence.mark := by
      intro hhead
      have hblankMark := List.all_eq_true.1 hblank fence.mark (List.mem_of_mem_head? hhead)
      rw [hopens.isBlank_mark.1] at hblankMark
      cases hblankMark
    obtain ⟨hspaces, hbody⟩ := (Text.length_takeWhile_eq_iff ' ' _).2 ⟨hline, hnext⟩
    obtain ⟨hrun, hafter⟩ := (Text.length_takeWhile_eq_iff fence.mark _).2 ⟨rfl, hend⟩
    rw [hspaces, hbody, hrun, hafter]
    exact ⟨hindent, hlength, hblank⟩

end Docs

end Phrasebook

import Phrasebook.Proofs.Source.Grammar

/-!
# Quotes around items

Taking the quotes off a text finds what the grammar says that the text stands for, and
fails where the grammar has nothing to say.
-/

namespace Phrasebook.Source

theorem dropLast?_eq_some_iff {c : Char} {cs inner : List Char} :
    dropLast? c cs = some inner ↔ cs = inner ++ [c] := by
  unfold dropLast?
  split
  · next d rest hrev =>
    have hcs : cs = rest.reverse ++ [d] := by
      rw [← List.reverse_reverse cs, hrev, List.reverse_cons]
    subst hcs
    by_cases hd : d = c
    · subst hd
      simp [eq_comm]
    · simp only [beq_iff_eq, if_neg hd, reduceCtorEq, false_iff]
      intro heq
      exact hd (by simpa using congrArg List.getLast? heq)
  · next hrev =>
    have hcs : cs = [] := List.reverse_eq_nil_iff.1 hrev
    simp [hcs]

/-! ## Escapes -/

theorem unescapeFrom_of_escapes {cs out : List Char} (hescapes : Escapes cs out)
    (done : List Char) : unescapeFrom done cs = .ok (done.reverse ++ out) := by
  induction hescapes generalizing done with
  | nil => simp [unescapeFrom]
  | @char c cs out hc _ ih =>
      have hstep : unescapeFrom done (c :: cs) = unescapeFrom (c :: done) cs := by
        rw [unescapeFrom]
        all_goals
          intros
          contradiction
      rw [hstep, ih]
      simp
  | @escape e c cs out hec _ ih =>
      have hstep : unescapeFrom done ('\\' :: e :: cs) = unescapeFrom (c :: done) cs := by
        cases hec <;> rw [unescapeFrom]
      rw [hstep, ih]
      simp

theorem escapes_of_unescapeFrom {done cs out : List Char}
    (hread : unescapeFrom done cs = .ok out) :
    ∃ tail, Escapes cs tail ∧ out = done.reverse ++ tail := by
  fun_induction unescapeFrom done cs with
  | case1 done =>
      cases hread
      exact ⟨[], .nil, by simp⟩
  | case2 => cases hread
  | case3 done cs ih =>
      obtain ⟨tail, htail, rfl⟩ := ih hread
      exact ⟨_, .escape .newline htail, by simp⟩
  | case4 done cs ih =>
      obtain ⟨tail, htail, rfl⟩ := ih hread
      exact ⟨_, .escape .tab htail, by simp⟩
  | case5 done cs ih =>
      obtain ⟨tail, htail, rfl⟩ := ih hread
      exact ⟨_, .escape .quote htail, by simp⟩
  | case6 done cs ih =>
      obtain ⟨tail, htail, rfl⟩ := ih hread
      exact ⟨_, .escape .backslash htail, by simp⟩
  | case7 => cases hread
  | case8 done c cs hnil hn ht hq hb hother ih =>
      have hc : c ≠ '\\' := by
        rintro rfl
        cases cs with
        | nil => exact hnil rfl rfl
        | cons e cs => exact hother e cs rfl rfl
      obtain ⟨tail, htail, rfl⟩ := ih hread
      exact ⟨_, .char hc htail, by simp⟩

/-! ## Doubled quotes -/

theorem undoubleFrom_of_doubles {cs out : List Char} (hdoubles : Doubles cs out)
    (done : List Char) : undoubleFrom done cs = done.reverse ++ out := by
  induction hdoubles generalizing done with
  | nil => simp [undoubleFrom]
  | @pair cs out _ ih =>
      rw [undoubleFrom, ih]
      simp
  | @char c cs out hc _ ih =>
      have hstep : undoubleFrom done (c :: cs) = undoubleFrom (c :: done) cs := by
        rw [undoubleFrom]
        rintro rest rfl rfl
        exact hc rfl rfl
      rw [hstep, ih]
      simp

theorem exists_doubles (done cs : List Char) :
    ∃ tail, Doubles cs tail ∧ undoubleFrom done cs = done.reverse ++ tail := by
  fun_induction undoubleFrom done cs with
  | case1 done => exact ⟨[], .nil, by simp⟩
  | case2 done cs ih =>
      obtain ⟨tail, htail, heq⟩ := ih
      exact ⟨_, .pair htail, by simp [heq]⟩
  | case3 done c cs hpair ih =>
      obtain ⟨tail, htail, heq⟩ := ih
      refine ⟨_, .char ?_ htail, by simp [heq]⟩
      rintro rfl hhead
      obtain ⟨rest, rfl⟩ := List.head?_eq_some_iff.1 hhead
      exact hpair rest rfl rfl

/-! ## Quoted texts -/

theorem unquote_of_escapes {inner out : List Char} (hescapes : Escapes inner out) :
    unquote ('"' :: (inner ++ ['"'])) = .ok ⟨out, true⟩ := by
  rw [unquote, dropLast?_eq_some_iff.2 rfl]
  simp only [unescapeFrom_of_escapes hescapes, List.reverse_nil, List.nil_append]

theorem unquote_of_doubles {inner out : List Char} (hdoubles : Doubles inner out) :
    unquote ('\'' :: (inner ++ ['\''])) = .ok ⟨out, true⟩ := by
  rw [unquote, dropLast?_eq_some_iff.2 rfl]
  simp only [undoubleFrom_of_doubles hdoubles, List.reverse_nil, List.nil_append]

theorem unquote_of_head?_ne {text : List Char} (hdouble : text.head? ≠ some '"')
    (hsingle : text.head? ≠ some '\'') : unquote text = .ok ⟨text, false⟩ := by
  rw [unquote]
  · rintro rest rfl
    exact hdouble rfl
  · rintro rest rfl
    exact hsingle rfl

theorem unquote_of_quotes {text out : List Char} (hquotes : Quotes text out) :
    ∃ quoted, unquote text = .ok ⟨out, quoted⟩ := by
  cases hquotes with
  | double hescapes => exact ⟨true, unquote_of_escapes hescapes⟩
  | single hdoubles => exact ⟨true, unquote_of_doubles hdoubles⟩
  | bare hdouble hsingle => exact ⟨false, unquote_of_head?_ne hdouble hsingle⟩

theorem quotes_of_unquote {text : List Char} {unquoted : Unquoted}
    (hread : unquote text = .ok unquoted) : Quotes text unquoted.text := by
  unfold unquote at hread
  split at hread
  · next rest =>
    cases hlast : dropLast? '"' rest with
    | none => simp [hlast] at hread
    | some inner =>
        cases hinner : unescapeFrom [] inner with
        | error fault => simp [hlast, hinner] at hread
        | ok out =>
            simp only [hlast, hinner, Except.ok.injEq] at hread
            subst hread
            obtain ⟨tail, htail, rfl⟩ := escapes_of_unescapeFrom hinner
            rw [dropLast?_eq_some_iff.1 hlast]
            exact .double htail
  · next rest =>
    cases hlast : dropLast? '\'' rest with
    | none => simp [hlast] at hread
    | some inner =>
        simp only [hlast, Except.ok.injEq] at hread
        subst hread
        obtain ⟨tail, htail, heq⟩ := exists_doubles [] inner
        rw [dropLast?_eq_some_iff.1 hlast, heq]
        exact .single htail
  · next hdouble hsingle =>
    cases hread
    refine .bare ?_ ?_
    · intro hhead
      obtain ⟨rest, rfl⟩ := List.head?_eq_some_iff.1 hhead
      exact hdouble rest rfl
    · intro hhead
      obtain ⟨rest, rfl⟩ := List.head?_eq_some_iff.1 hhead
      exact hsingle rest rfl

end Phrasebook.Source

import Phrasebook.Proofs.Source.Quoting

/-!
# Quoted strings

A quoted string ends at the first of its marks that is no part of an escape or of a doubled pair.
Only the first and the last character of a text are looked at for its quotes, so a text that goes
on after such a mark loses its outer marks too, when it ends in one of the same kind. There is no
other text that is taken for quoted and is not one quoted string.
-/

namespace Phrasebook.Source

/-! ## Quoted strings and stray marks -/

/-- The inside of a string in double quotes: each quote and each backslash in it is part of an
escape. -/
inductive IsEscaped : List Char → Prop
  | nil : IsEscaped []
  | char {c : Char} {cs : List Char} : c ≠ '"' → c ≠ '\\' → IsEscaped cs → IsEscaped (c :: cs)
  | escape {e c : Char} {cs : List Char} :
      EscapeOf e c → IsEscaped cs → IsEscaped ('\\' :: e :: cs)

/-- The inside of a string in single quotes: each quote in it belongs to a doubled pair. -/
inductive IsDoubled : List Char → Prop
  | nil : IsDoubled []
  | char {c : Char} {cs : List Char} : c ≠ '\'' → IsDoubled cs → IsDoubled (c :: cs)
  | pair {cs : List Char} : IsDoubled cs → IsDoubled ('\'' :: '\'' :: cs)

inductive IsQuotedString : List Char → Prop
  | double {inner : List Char} : IsEscaped inner → IsQuotedString ('"' :: (inner ++ ['"']))
  | single {inner : List Char} : IsDoubled inner → IsQuotedString ('\'' :: (inner ++ ['\'']))

/-- The text starts and ends in the same mark, and between the two there is one more that ends
what is quoted: no escape and no doubled pair takes it in. -/
inductive HasStrayMark : List Char → Prop
  | double {inside more out : List Char} :
      IsEscaped inside → Escapes more out →
      HasStrayMark ('"' :: ((inside ++ '"' :: more) ++ ['"']))
  | single {inside more : List Char} :
      IsDoubled inside → more.head? ≠ some '\'' →
      HasStrayMark ('\'' :: ((inside ++ '\'' :: more) ++ ['\'']))

/-! ## The inside of double quotes -/

theorem IsEscaped.exists_escapes {inner : List Char} (hinner : IsEscaped inner)
    {more out : List Char} (hmore : Escapes more out) : ∃ out, Escapes (inner ++ more) out := by
  induction hinner with
  | nil => exact ⟨out, hmore⟩
  | char _ hbackslash _ ih =>
      obtain ⟨out, hout⟩ := ih
      exact ⟨_, .char hbackslash hout⟩
  | escape hescape _ ih =>
      obtain ⟨out, hout⟩ := ih
      exact ⟨_, .escape hescape hout⟩

/-- What is read within double quotes is escaped throughout, or there is a first quote that is
not. -/
theorem Escapes.isEscaped_or {inner out : List Char} (hescapes : Escapes inner out) :
    IsEscaped inner ∨ ∃ inside more out, inner = inside ++ '"' :: more ∧ IsEscaped inside ∧
      Escapes more out := by
  induction hescapes with
  | nil => exact .inl .nil
  | @char c cs out hbackslash hrest ih =>
      by_cases hquote : c = '"'
      · subst hquote
        exact .inr ⟨[], cs, out, rfl, .nil, hrest⟩
      · rcases ih with hescaped | ⟨inside, more, out, rfl, hinside, hmore⟩
        · exact .inl (.char hquote hbackslash hescaped)
        · exact .inr ⟨c :: inside, more, out, rfl, .char hquote hbackslash hinside, hmore⟩
  | @escape e c cs out hescape _ ih =>
      rcases ih with hescaped | ⟨inside, more, out, rfl, hinside, hmore⟩
      · exact .inl (.escape hescape hescaped)
      · exact .inr ⟨'\\' :: e :: inside, more, out, rfl, .escape hescape hinside, hmore⟩

theorem IsEscaped.of_cons {c : Char} {cs : List Char} (hescaped : IsEscaped (c :: cs))
    (hc : c ≠ '\\') : c ≠ '"' ∧ IsEscaped cs := by
  cases hescaped with
  | char hquote _ hrest => exact ⟨hquote, hrest⟩
  | escape => exact absurd rfl hc

theorem IsEscaped.not_isEscaped_append {inside : List Char} (hinside : IsEscaped inside)
    (more : List Char) : ¬IsEscaped (inside ++ '"' :: more) := by
  induction hinside with
  | nil => exact fun hescaped => (hescaped.of_cons (by decide)).1 rfl
  | char _ hbackslash _ ih => exact fun hescaped => ih (hescaped.of_cons hbackslash).2
  | escape _ _ ih =>
      intro hescaped
      cases hescaped with
      | char _ hbackslash => exact hbackslash rfl
      | escape _ hrest => exact ih hrest

/-! ## The inside of single quotes -/

/-- The quotes within single quotes come in pairs, or there is a first one that is in none. -/
theorem Doubles.isDoubled_or {inner out : List Char} (hdoubles : Doubles inner out) :
    IsDoubled inner ∨ ∃ inside more, inner = inside ++ '\'' :: more ∧ IsDoubled inside ∧
      more.head? ≠ some '\'' := by
  induction hdoubles with
  | nil => exact .inl .nil
  | @pair cs out _ ih =>
      rcases ih with hdoubled | ⟨inside, more, rfl, hinside, hmore⟩
      · exact .inl (.pair hdoubled)
      · exact .inr ⟨'\'' :: '\'' :: inside, more, rfl, .pair hinside, hmore⟩
  | @char c cs out hlone _ ih =>
      by_cases hquote : c = '\''
      · subst hquote
        exact .inr ⟨[], cs, rfl, .nil, hlone rfl⟩
      · rcases ih with hdoubled | ⟨inside, more, rfl, hinside, hmore⟩
        · exact .inl (.char hquote hdoubled)
        · exact .inr ⟨c :: inside, more, rfl, .char hquote hinside, hmore⟩

theorem IsDoubled.of_cons {c : Char} {cs : List Char} (hdoubled : IsDoubled (c :: cs))
    (hc : c ≠ '\'') : IsDoubled cs := by
  cases hdoubled with
  | char _ hrest => exact hrest
  | pair => exact absurd rfl hc

theorem IsDoubled.not_isDoubled_append {inside more : List Char} (hinside : IsDoubled inside)
    (hmore : more.head? ≠ some '\'') : ¬IsDoubled (inside ++ '\'' :: more) := by
  induction hinside with
  | nil =>
      intro hdoubled
      cases hdoubled with
      | char hquote => exact hquote rfl
      | pair => exact hmore rfl
  | char hquote _ ih => exact fun hdoubled => ih (hdoubled.of_cons hquote)
  | pair _ ih =>
      intro hdoubled
      cases hdoubled with
      | char hquote => exact hquote rfl
      | pair hrest => exact ih hrest

/-! ## Whole texts -/

theorem isQuotedString_double_iff {inner : List Char} :
    IsQuotedString ('"' :: (inner ++ ['"'])) ↔ IsEscaped inner := by
  refine ⟨fun hquoted => ?_, .double⟩
  generalize htext : '"' :: (inner ++ ['"']) = text at hquoted
  cases hquoted with
  | double hinner =>
      obtain rfl := List.append_cancel_right (List.cons.inj htext).2
      exact hinner
  | single => cases htext

theorem isQuotedString_single_iff {inner : List Char} :
    IsQuotedString ('\'' :: (inner ++ ['\''])) ↔ IsDoubled inner := by
  refine ⟨fun hquoted => ?_, .single⟩
  generalize htext : '\'' :: (inner ++ ['\'']) = text at hquoted
  cases hquoted with
  | double => cases htext
  | single hinner =>
      obtain rfl := List.append_cancel_right (List.cons.inj htext).2
      exact hinner

theorem HasStrayMark.not_isQuotedString {text : List Char} (hstray : HasStrayMark text) :
    ¬IsQuotedString text := by
  cases hstray with
  | double hinside => exact mt isQuotedString_double_iff.1 (hinside.not_isEscaped_append _)
  | single hinside hmore =>
      exact mt isQuotedString_single_iff.1 (hinside.not_isDoubled_append hmore)

theorem IsQuotedString.exists_unquote {text : List Char} (hquoted : IsQuotedString text) :
    ∃ out, unquote text = .ok ⟨out, true⟩ := by
  cases hquoted with
  | @double inner hinner =>
      obtain ⟨out, hescapes⟩ := hinner.exists_escapes .nil
      rw [List.append_nil] at hescapes
      exact ⟨out, unquote_of_escapes hescapes⟩
  | @single inner =>
      obtain ⟨out, hdoubles, -⟩ := exists_doubles [] inner
      exact ⟨out, unquote_of_doubles hdoubles⟩

theorem HasStrayMark.exists_unquote {text : List Char} (hstray : HasStrayMark text) :
    ∃ out, unquote text = .ok ⟨out, true⟩ := by
  cases hstray with
  | double hinside hmore =>
      have hquote : ('"' : Char) ≠ '\\' := by decide
      obtain ⟨out, hescapes⟩ := hinside.exists_escapes (.char hquote hmore)
      exact ⟨out, unquote_of_escapes hescapes⟩
  | @single inside more =>
      obtain ⟨out, hdoubles, -⟩ := exists_doubles [] (inside ++ '\'' :: more)
      exact ⟨out, unquote_of_doubles hdoubles⟩

theorem isQuotedString_or_of_unquote {text out : List Char}
    (hread : unquote text = .ok ⟨out, true⟩) : IsQuotedString text ∨ HasStrayMark text := by
  cases quotes_of_unquote hread with
  | double hescapes =>
      rcases hescapes.isEscaped_or with hinner | ⟨inside, more, out, rfl, hinside, hmore⟩
      · exact .inl (.double hinner)
      · exact .inr (.double hinside hmore)
  | single hdoubles =>
      rcases hdoubles.isDoubled_or with hinner | ⟨inside, more, rfl, hinside, hmore⟩
      · exact .inl (.single hinner)
      · exact .inr (.single hinside hmore)
  | bare hdouble hsingle => cases hread.symm.trans (unquote_of_head?_ne hdouble hsingle)

/-- A text is taken for quoted exactly when it is one quoted string or a mark strays between its
outer ones; so it is one quoted string exactly when no mark strays there. What is read is what
stands between the outer marks, in either case. -/
theorem unquote_quoted_iff (text : List Char) :
    ((∃ out, unquote text = .ok ⟨out, true⟩) ↔ IsQuotedString text ∨ HasStrayMark text) ∧
    ∀ out, unquote text = .ok ⟨out, true⟩ →
      (IsQuotedString text ↔ ¬HasStrayMark text) ∧ Quotes text out := by
  refine ⟨⟨?_, ?_⟩, fun out hread => ⟨⟨?_, ?_⟩, quotes_of_unquote hread⟩⟩
  · rintro ⟨out, hread⟩
    exact isQuotedString_or_of_unquote hread
  · rintro (hquoted | hstray)
    · exact hquoted.exists_unquote
    · exact hstray.exists_unquote
  · exact fun hquoted hstray => hstray.not_isQuotedString hquoted
  · exact (isQuotedString_or_of_unquote hread).resolve_right

/-- A quote is what both texts are read as: one escapes it, in the other it strays. -/
theorem unquote_quoted_iff_quote :
    (unquote "\"\\\"\"".toList = .ok ⟨['"'], true⟩ ∧ ¬HasStrayMark "\"\\\"\"".toList) ∧
    unquote "\"\"\"".toList = .ok ⟨['"'], true⟩ ∧ ¬IsQuotedString "\"\"\"".toList := by
  have hescaped : unquote "\"\\\"\"".toList = .ok ⟨['"'], true⟩ := rfl
  have hstray : unquote "\"\"\"".toList = .ok ⟨['"'], true⟩ := rfl
  obtain ⟨hone, -⟩ := (unquote_quoted_iff _).2 _ hescaped
  obtain ⟨hother, -⟩ := (unquote_quoted_iff _).2 _ hstray
  refine ⟨⟨hescaped, hone.1 ?_⟩, hstray, fun hquoted => hother.1 hquoted ?_⟩
  · exact @IsQuotedString.double ['\\', '"'] (.escape .quote .nil)
  · exact @HasStrayMark.double [] [] [] .nil .nil

/-- The marks at the ends belong to two quoted pieces, and the item is read without them. -/
theorem exists_unquote_not_isQuotedString :
    (unquote "\"a\" and \"b\"".toList = .ok ⟨"a\" and \"b".toList, true⟩ ∧
      ¬IsQuotedString "\"a\" and \"b\"".toList ∧
      Item.alternative "root" ⟨2, 3, ["\"a\" and \"b\"".toList]⟩ =
        .ok ⟨.one, [.literal "a\" and \"b"]⟩) ∧
    unquote "'a' or 'b'".toList = .ok ⟨"a' or 'b".toList, true⟩ ∧
      ¬IsQuotedString "'a' or 'b'".toList ∧
      Item.alternative "root" ⟨2, 3, ["'a' or 'b'".toList]⟩ =
        .ok ⟨.one, [.literal "a' or 'b"]⟩ := by
  have hdouble : ¬IsQuotedString ('"' :: ((['a'] ++ '"' :: " and \"b".toList) ++ ['"'])) := by
    rw [isQuotedString_double_iff]
    exact (IsEscaped.char (by decide) (by decide) .nil).not_isEscaped_append _
  have hsingle : ¬IsQuotedString ('\'' :: ((['a'] ++ '\'' :: " or 'b".toList) ++ ['\''])) := by
    rw [isQuotedString_single_iff]
    exact (IsDoubled.char (by decide) .nil).not_isDoubled_append (by decide)
  exact ⟨⟨rfl, hdouble, by decide +kernel⟩, rfl, hsingle, by decide +kernel⟩

end Phrasebook.Source

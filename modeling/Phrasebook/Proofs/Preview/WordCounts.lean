import Mathlib.Data.List.Basic
import Phrasebook.Preview.Statistics
import Phrasebook.Proofs.Ascending
import Phrasebook.Proofs.Text.Bytes
import Phrasebook.Proofs.Text.Words

/-!
# Words counted

A word occurs as often as tokens come to it in the texts: pieces between blank characters, with
only letters and digits at their ends, in lower case and long enough. The counts are taken word
after word; what one step keeps is that they are those of the words seen so far.
-/

namespace Phrasebook.Preview

/-! ## Occurrences -/

def tokens (texts : List String) : List (List Char) :=
  texts.flatMap fun text => (text.toList.splitOnP Text.isBlank).filter (!·.isEmpty)

/-- A token is an occurrence of the word that is left of it without what is neither letter nor
digit at its ends, in lower case, if that is long enough. -/
structure IsOccurrence (token : List Char) (word : String) : Prop where
  core : ∃ core, Text.IsCore (!Text.isAlphanumeric ·) token core ∧
    word = String.ofList (Text.lowerCase core)
  long : 3 < (Text.bytes word).length

theorem isOccurrence_iff {token : List Char} {word : String} :
    IsOccurrence token word ↔ countedForm token = word ∧ shortestCounted < word.utf8ByteSize := by
  constructor
  · rintro ⟨⟨core, hcore, rfl⟩, hlong⟩
    rw [countedForm, Text.isCore_iff.1 hcore]
    exact ⟨rfl, hlong⟩
  · rintro ⟨rfl, hlong⟩
    exact ⟨⟨_, Text.isCore_iff.2 rfl, rfl⟩, hlong⟩

instance (token : List Char) (word : String) : Decidable (IsOccurrence token word) :=
  decidable_of_iff _ isOccurrence_iff.symm

def occurrences (texts : List String) (word : String) : Nat :=
  (tokens texts).countP (IsOccurrence · word)

theorem flatMap_countedWords (texts : List String) :
    texts.flatMap countedWords =
      ((tokens texts).map countedForm).filter (shortestCounted < ·.utf8ByteSize) := by
  rw [tokens, List.map_flatMap, List.filter_flatMap]
  refine congrArg (texts.flatMap ·) (funext fun text => ?_)
  rw [countedWords, Text.words_eq_filter_splitOnP]

theorem count_flatMap_countedWords (texts : List String) (word : String) :
    (texts.flatMap countedWords).count word = occurrences texts word := by
  rw [flatMap_countedWords, List.count_eq_countP, List.countP_filter, List.countP_map, occurrences]
  refine List.countP_congr fun token _ => ?_
  simp only [Function.comp_apply, Bool.and_eq_true, beq_iff_eq, decide_eq_true_eq,
    isOccurrence_iff]
  refine and_congr_right ?_
  rintro rfl
  rfl

/-! ## Tables of counts -/

def countIn (counts : List WordCount) (word : String) : Nat :=
  ((counts.find? (·.word == word)).map (·.count)).getD 0

structure IsTable (seen : List String) (counts : List WordCount) : Prop where
  ascending : Ascending WordCount.word counts
  positive : ∀ entry ∈ counts, 0 < entry.count
  countIn : ∀ word, countIn counts word = seen.count word

section
variable {seen : List String} {counts : List WordCount}

/-- One more word is counted. -/
theorem IsTable.countWord (htable : IsTable seen counts) (word : String) :
    IsTable (seen ++ [word]) (countWord counts word) where
  ascending := Ascending.ascending_insert _ htable.ascending
  positive entry hentry := by
    rcases Ascending.mem_of_mem_insert hentry with rfl | hentry
    · exact Nat.succ_pos _
    · exact htable.positive entry hentry
  countIn other := by
    rw [List.count_append, ← htable.countIn other, Preview.countIn, Preview.countWord]
    by_cases hother : word = other
    · subst hother
      rw [List.count_singleton_self]
      exact congrArg (fun found => (found.map WordCount.count).getD 0)
        (Ascending.find?_insert_self WordCount.word ⟨word, _⟩ counts)
    · have hkey : WordCount.word ⟨word, Preview.countIn counts word + 1⟩ ≠ other := hother
      rw [List.count_singleton, if_neg (by simpa using hother)]
      exact congrArg (fun found => (found.map WordCount.count).getD 0)
        (Ascending.find?_insert_of_ne hkey counts)

theorem IsTable.foldl_countWord (htable : IsTable seen counts) (words : List String) :
    IsTable (seen ++ words) (words.foldl Preview.countWord counts) := by
  induction words generalizing seen counts with
  | nil => rwa [List.append_nil]
  | cons word words ih =>
      rw [List.append_cons]
      exact ih (htable.countWord word)

theorem IsTable.mem_iff (htable : IsTable seen counts) {entry : WordCount} :
    entry ∈ counts ↔ 0 < entry.count ∧ entry.count = seen.count entry.word := by
  rw [← htable.countIn, Preview.countIn]
  constructor
  · intro hentry
    rw [htable.ascending.find?_of_mem hentry]
    exact ⟨htable.positive entry hentry, rfl⟩
  · rintro ⟨hpos, hcount⟩
    cases hfind : counts.find? (·.word == entry.word) with
    | none =>
        rw [hfind] at hcount
        exact absurd hcount hpos.ne'
    | some found =>
        rw [hfind] at hcount
        obtain ⟨word, count⟩ := entry
        obtain rfl : found.word = word := by simpa using List.find?_some hfind
        obtain rfl : count = found.count := hcount
        exact List.mem_of_find?_eq_some hfind

end

theorem isTable_wordCounts (texts : List String) :
    IsTable (texts.flatMap countedWords) (wordCounts texts) := by
  have hempty : IsTable [] [] := ⟨.nil, by simp, fun word => rfl⟩
  exact hempty.foldl_countWord _

/-- The entries are the words that occur, each with how often it does. -/
theorem mem_wordCounts_iff {texts : List String} {entry : WordCount} :
    entry ∈ wordCounts texts ↔ 0 < entry.count ∧ entry.count = occurrences texts entry.word := by
  rw [(isTable_wordCounts texts).mem_iff, count_flatMap_countedWords]

end Phrasebook.Preview

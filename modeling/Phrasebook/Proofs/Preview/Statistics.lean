import Mathlib.Data.Finset.Card
import Mathlib.Data.Prod.Lex
import Phrasebook.Preview.Shell
import Phrasebook.Proofs.Preview.WordCounts
import Phrasebook.Proofs.Session.Variants

/-!
# Statistics of variants

The statistics count the different outputs and list the words that occur most. No two words have
the same place in that list, so the order in which a table lists the counts is not seen in it, and
what stands in it outranks what does not.
-/

namespace Phrasebook.Preview

/-! ## Different outputs -/

theorem nodup_eraseDups : ∀ texts : List String, texts.eraseDups.Nodup
  | [] => by simp
  | text :: texts => by
      rw [List.eraseDups_cons, List.nodup_cons]
      exact ⟨by simp, nodup_eraseDups _⟩
termination_by texts => texts.length
decreasing_by exact Nat.lt_succ_of_le (List.length_filter_le _ _)

theorem length_eraseDups (texts : List String) : texts.eraseDups.length = texts.toFinset.card := by
  rw [← List.toFinset_card_of_nodup (nodup_eraseDups texts)]
  exact congrArg Finset.card (by ext text; simp)

/-! ## Places -/

namespace WordCount

/-- A word that occurs more often stands before another, and of those that occur equally often
the one whose bytes come first. -/
def Outranks (entry other : WordCount) : Prop :=
  other.count < entry.count ∨
    entry.count = other.count ∧ Text.bytes entry.word < Text.bytes other.word

def place (entry : WordCount) : ℕᵒᵈ ×ₗ String :=
  toLex (OrderDual.toDual entry.count, entry.word)

theorem outranks_iff {entry other : WordCount} :
    entry.Outranks other ↔ entry.place < other.place := by
  rw [place, place, Prod.Lex.toLex_lt_toLex, Outranks, ← Text.lt_iff_bytes_lt]
  simp

theorem precedes_iff {entry other : WordCount} :
    precedes entry other = true ↔ entry.place ≤ other.place := by
  rw [place, place, Prod.Lex.toLex_le_toLex, precedes]
  simp

end WordCount

/-! ## Rankings -/

/-- All the words that occur in some texts, each with how often it does, in the order in which
they are listed. -/
structure IsRanking (texts : List String) (ranking : List WordCount) : Prop where
  mem_iff : ∀ entry, entry ∈ ranking ↔
    0 < entry.count ∧ entry.count = occurrences texts entry.word
  descending : ranking.Pairwise WordCount.Outranks

section
variable {texts : List String} {ranking counts : List WordCount}

theorem IsRanking.unique {other : List WordCount} (hranking : IsRanking texts ranking)
    (hother : IsRanking texts other) : ranking = other :=
  eq_of_pairwise_place (hranking.descending.imp WordCount.outranks_iff.1)
    (hother.descending.imp WordCount.outranks_iff.1) fun entry =>
      (hranking.mem_iff entry).trans (hother.mem_iff entry).symm

theorem isRanking_of_perm (hperm : ranking.Perm (wordCounts texts))
    (hdescending : ranking.Pairwise WordCount.Outranks) : IsRanking texts ranking where
  mem_iff _ := hperm.mem_iff.trans mem_wordCounts_iff
  descending := hdescending

theorem nodup_place_wordCounts (texts : List String) :
    ((wordCounts texts).map WordCount.place).Nodup := by
  refine List.Nodup.of_map (fun place => (ofLex place).2) ?_
  rw [List.map_map]
  exact (isTable_wordCounts texts).ascending.nodup

/-- Whatever the order of a table, its words are ranked in the same way. -/
theorem isRanking_ranked (hcounts : counts.Perm (wordCounts texts)) :
    IsRanking texts (ranked counts) := by
  refine isRanking_of_perm ((List.mergeSort_perm _ _).trans hcounts) ?_
  have hplaces := ((hcounts.map WordCount.place).nodup_iff).2 (nodup_place_wordCounts texts)
  have hascending : (ranked counts).Pairwise fun a b => a.place < b.place :=
    pairwise_mergeSort_place (fun _ _ => WordCount.precedes_iff) hplaces
  exact hascending.imp WordCount.outranks_iff.2

/-- What a ranking lists first outranks the words that are left out. -/
theorem IsRanking.outranks_of_notMem_take (hranking : IsRanking texts ranking) {limit : Nat}
    {word : String} (hoccurs : 0 < occurrences texts word)
    (hword : word ∉ (ranking.take limit).map WordCount.word) :
    ∀ entry ∈ ranking.take limit, entry.Outranks ⟨word, occurrences texts word⟩ := by
  intro entry hentry
  have hmem : ⟨word, occurrences texts word⟩ ∈ ranking.take limit ++ ranking.drop limit := by
    rw [List.take_append_drop, hranking.mem_iff]
    exact ⟨hoccurs, rfl⟩
  have hdescending := hranking.descending
  rw [← List.take_append_drop limit ranking, List.pairwise_append] at hdescending
  rcases List.mem_append.1 hmem with hlisted | hleft
  · exact (hword (List.mem_map_of_mem hlisted)).elim
  · exact hdescending.2.2 entry hentry _ hleft

end

/-! ## The statistics -/

/-- The statistics of the variants of a session tell how many different texts there are, and list
the ten words that occur most, or all when there are not as many, each with how often it does. What
is left out is outranked by all that is listed. The session is kept, and the same is printed in
whatever order a table lists the words with their counts. -/
theorem execute_bulk {session : Session} {count : Nat} {variants : List Session.Variant}
    (hvariants : session.variants count = .ok variants) (path : String) (file : FileText) :
    let texts := variants.map (·.text)
    ∃ ranking, IsRanking texts ranking ∧
      (∀ word, 0 < occurrences texts word → word ∉ (ranking.take 10).map WordCount.word →
        ∀ entry ∈ ranking.take 10, entry.Outranks ⟨word, occurrences texts word⟩) ∧
      let words := (ranking.take 10).map fun entry =>
        "  " ++ entry.word ++ ": " ++ toString entry.count ++ "\n"
      let samples := (variants.take 5).map fun variant =>
        "  " ++ padLeft 14 variant.seed.text ++ "  " ++ variant.text ++ "\n"
      let out := "\n=== Bulk Generation: " ++ toString count ++ " seeds ===\n\n" ++
        "Unique outputs: " ++ toString texts.toFinset.card ++ " / " ++ toString count ++ "\n" ++
        "Average length: " ++ Decimal.fixed 0 (averageLength texts) ++ " chars\n" ++
        "\nTop 10 words:\n" ++ String.join words ++ "\nSamples:\n" ++ String.join samples ++ "\n"
      execute session path file (.bulk (some count)) = ⟨out, some session⟩ ∧
        ∀ counts, counts.Perm (wordCounts texts) → statisticsOf counts variants = out := by
  intro texts
  have hranking := isRanking_ranked (List.Perm.refl (wordCounts texts))
  refine ⟨_, hranking, fun word => hranking.outranks_of_notMem_take, ?_⟩
  intro words samples out
  have hout (counts) (hcounts : counts.Perm (wordCounts texts)) :
      statisticsOf counts variants = out := by
    unfold statisticsOf
    dsimp only
    rw [(isRanking_ranked hcounts).unique hranking, length_eraseDups,
      Session.length_of_variants_eq_ok hvariants]
    rfl
  have hexecute : execute session path file (.bulk (some count)) =
      ⟨statisticsOf (wordCounts texts) variants, some session⟩ := by
    unfold execute
    dsimp only
    rw [hvariants]
    rfl
  refine ⟨?_, hout⟩
  rw [hexecute, hout _ (List.Perm.refl _)]

/-- Words that are counted in either letter case and without the marks around them, two of them
equally often, and one that is too short. -/
theorem execute_bulk_rain :
    ∃ session variants, Session.build none none (.ofText "acorn7")
        (some "root:\n- Rain, (rain) on -- Wind, falls; Falls!\n") = .ok session ∧
      session.variants 2 = .ok variants ∧
      execute session "sketch" (.error .missing) (.bulk (some 2)) =
        ⟨"\n=== Bulk Generation: 2 seeds ===\n\nUnique outputs: 1 / 2\n" ++
          "Average length: 38 chars\n\nTop 10 words:\n  falls: 4\n  rain: 4\n  wind: 2\n" ++
          "\nSamples:\n" ++ "          acorn7  Rain, (rain) on -- Wind, falls; Falls!\n" ++
          "          amber7  Rain, (rain) on -- Wind, falls; Falls!\n\n", some session⟩ := by
  let text := "Rain, (rain) on -- Wind, falls; Falls!"
  let source := "root:\n- Rain, (rain) on -- Wind, falls; Falls!\n"
  let root : Category := ⟨"root", [⟨.one, [.literal text]⟩]⟩
  obtain ⟨book, hparse, htest⟩ := Source.exists_parse_of_test source
    (fun book => decide (book.find? "root" = some root)) (by decide +kernel)
  have hroot : book.find? "root" = some root := of_decide_eq_true htest
  have hgenerate : ∀ seed, book.generateDefault .default seed .zero = .ok text := fun seed =>
    Book.generate_of_singleton hroot (by decide) (by decide) (by decide) _ seed .zero
  let session : Session :=
    { (Session.start .default (.ofText "acorn7")).withBook source book with output := text }
  have hbuild : Session.build none none (.ofText "acorn7") (some source) = .ok session :=
    Session.build_of_ok rfl hparse (hgenerate _)
  let variants : List Session.Variant :=
    [⟨.ofText "acorn7", text⟩, ⟨(Seed.ofText "acorn7").next, text⟩]
  have hfrom : Session.variantsFrom book .default [] 2 (.ofText "acorn7") = .ok variants := by
    simp [Session.variantsFrom, hgenerate, variants]
  have hvariants := (@Session.variants_eq_ok_iff session book rfl 2 _).2 hfrom
  have hcounts : wordCounts [text, text] = [⟨"falls", 4⟩, ⟨"rain", 4⟩, ⟨"wind", 2⟩] := by
    decide +kernel
  have hfalls : Text.bytes "falls" < Text.bytes "rain" := Text.lt_iff_bytes_lt.1 (by decide)
  have hranked : IsRanking [text, text] [⟨"falls", 4⟩, ⟨"rain", 4⟩, ⟨"wind", 2⟩] :=
    isRanking_of_perm (hcounts ▸ .refl _) (by simp [WordCount.Outranks, hfalls])
  obtain ⟨ranking, hranking, -, hexecute, -⟩ :=
    execute_bulk hvariants "sketch" (.error .missing)
  obtain rfl := hranking.unique hranked
  refine ⟨session, variants, hbuild, hvariants, hexecute.trans ?_⟩
  exact congrArg (Response.mk · (some session)) (by decide +kernel)

end Phrasebook.Preview

import Phrasebook.Proofs.Lint.Chains
import Phrasebook.Proofs.Source.Contents

/-!
# Searches served in turn

A search may take the names that wait first in, first out, pass over those it has met, and let only
names wait that it has not. A name waits several times all the same, as often as it is referred to
before its turn comes. Each reference of a category lets a name wait once at most, which bounds the
turns, and at the end the names met are those that are reachable.
-/

namespace Phrasebook

def Book.referencesOf (book : Book) (name : String) : List String :=
  (book.find? name).elim [] Category.references

theorem Book.refersTo_iff_mem_referencesOf {book : Book} {name reference : String} :
    book.RefersTo name reference ↔ reference ∈ book.referencesOf name := by
  rw [refersTo_iff, referencesOf]
  cases book.find? name <;> simp

namespace Lint

structure Search where
  queue : List String
  seen : List String
deriving DecidableEq

namespace Search

def ofStart (start : String) : Search := ⟨[start], []⟩

/-- Serves the first name that waits. -/
def turn (book : Book) : Search → Search
  | ⟨[], seen⟩ => ⟨[], seen⟩
  | ⟨name :: queue, seen⟩ =>
    if name ∈ seen then ⟨queue, seen⟩
    else
      let seen := addName name seen
      ⟨queue ++ (book.referencesOf name).filter (· ∉ seen), seen⟩

section
variable {book : Book} {name : String} {queue seen : List String}

theorem turn_nil : turn book ⟨[], seen⟩ = ⟨[], seen⟩ := rfl

theorem turn_of_mem (hname : name ∈ seen) : turn book ⟨name :: queue, seen⟩ = ⟨queue, seen⟩ :=
  if_pos hname

theorem turn_of_not_mem (hname : name ∉ seen) :
    turn book ⟨name :: queue, seen⟩ =
      ⟨queue ++ (book.referencesOf name).filter (· ∉ addName name seen), addName name seen⟩ :=
  if_neg hname

end

/-! ## The number of turns -/

/-- The references by which a category can still let names wait. -/
def openReferences (seen : List String) (category : Category) : List String :=
  if category.name ∈ seen then [] else category.references

def remaining (book : Book) (search : Search) : Nat :=
  search.queue.length + (book.categories.flatMap (openReferences search.seen)).length

theorem length_openReferences_addName_le (name : String) (seen : List String)
    (category : Category) :
    (openReferences (addName name seen) category).length ≤
      (openReferences seen category).length := by
  by_cases hname : category.name ∈ seen
  · simp [openReferences, mem_addName_iff, hname]
  · rw [openReferences, openReferences, if_neg hname]
    split
    · exact Nat.zero_le _
    · exact Nat.le_refl _

theorem length_flatMap_openReferences_addName_le (name : String) (seen : List String)
    (categories : List Category) :
    (categories.flatMap (openReferences (addName name seen))).length ≤
      (categories.flatMap (openReferences seen)).length := by
  induction categories with
  | nil => exact Nat.le_refl _
  | cons first categories ih =>
      simp only [List.flatMap_cons, List.length_append]
      exact Nat.add_le_add (length_openReferences_addName_le name seen first) ih

theorem length_flatMap_openReferences_add_le {category : Category} {seen : List String}
    (hname : category.name ∉ seen) {categories : List Category} (hmem : category ∈ categories) :
    (categories.flatMap (openReferences (addName category.name seen))).length +
        category.references.length ≤
      (categories.flatMap (openReferences seen)).length := by
  induction categories with
  | nil => cases hmem
  | cons first categories ih =>
      simp only [List.flatMap_cons, List.length_append]
      rcases List.mem_cons.1 hmem with rfl | hmem
      · have hrest := length_flatMap_openReferences_addName_le category.name seen categories
        have hmet : openReferences (addName category.name seen) category = [] :=
          if_pos (mem_addName_iff.2 (.inl rfl))
        have hopen : openReferences seen category = category.references := if_neg hname
        rw [hmet, hopen, List.length_nil]
        omega
      · have hfirst := length_openReferences_addName_le category.name seen first
        have hrest := ih hmem
        omega

/-- A name that is met uses up the references of its category. -/
theorem length_openReferences_add_le (book : Book) {name : String} {seen : List String}
    (hname : name ∉ seen) :
    (book.categories.flatMap (openReferences (addName name seen))).length +
        (book.referencesOf name).length ≤
      (book.categories.flatMap (openReferences seen)).length := by
  cases hfind : book.find? name with
  | none =>
      rw [Book.referencesOf, hfind]
      exact length_flatMap_openReferences_addName_le name seen book.categories
  | some category =>
      obtain rfl := Book.name_of_find? hfind
      rw [Book.referencesOf, hfind]
      exact length_flatMap_openReferences_add_le hname (Book.mem_of_find? hfind)

/-- A turn leaves less to serve. -/
theorem remaining_turn_lt (book : Book) {search : Search} (hqueue : search.queue ≠ []) :
    remaining book (turn book search) < remaining book search := by
  obtain ⟨queue, seen⟩ := search
  cases queue with
  | nil => exact (hqueue rfl).elim
  | cons name queue =>
      by_cases hname : name ∈ seen
      · rw [turn_of_mem hname]
        simp only [remaining, List.length_cons]
        omega
      · have hspent := length_openReferences_add_le book hname
        have hwaiting :=
          (book.referencesOf name).length_filter_le fun other => other ∉ addName name seen
        rw [turn_of_not_mem hname]
        simp only [remaining, List.length_cons, List.length_append]
        omega

theorem queue_iterate_turn {book : Book} {search : Search} {n : Nat}
    (hn : remaining book search ≤ n) : ((turn book)^[n] search).queue = [] := by
  induction n generalizing search with
  | zero =>
      have hempty : search.queue.length = 0 := by
        unfold remaining at hn
        omega
      exact List.length_eq_zero_iff.1 hempty
  | succ n ih =>
      rw [Function.iterate_succ_apply]
      by_cases hqueue : search.queue = []
      · obtain ⟨queue, seen⟩ := search
        obtain rfl : queue = [] := hqueue
        rw [turn_nil, Function.iterate_fixed turn_nil]
      · have hless := remaining_turn_lt book hqueue
        exact ih (by omega)

/-! ## The names met -/

def Has (search : Search) (name : String) : Prop :=
  name ∈ search.queue ∨ name ∈ search.seen

/-- What holds of a search from a start whenever it goes on. -/
structure IsServed (book : Book) (start : String) (search : Search) : Prop where
  ascending : Ascending id search.seen
  started : search.Has start
  chained : ∀ name, search.Has name → book.LeadsTo start name
  followed : ∀ name ∈ search.seen, ∀ reference, book.RefersTo name reference →
    search.Has reference

theorem isServed_ofStart (book : Book) (start : String) :
    IsServed book start (ofStart start) where
  ascending := List.Pairwise.nil
  started := .inl List.mem_cons_self
  chained name hname := by
    obtain rfl : name = start := by simpa [Has, ofStart] using hname
    exact Relation.ReflTransGen.refl
  followed name hname := by cases hname

section
variable {book : Book} {start name : String} {queue seen : List String}

/-- A turn loses no name, and adds those that the name it meets refers to. -/
theorem has_turn_iff {other : String} :
    (turn book ⟨name :: queue, seen⟩).Has other ↔
      Has ⟨name :: queue, seen⟩ other ∨ name ∉ seen ∧ other ∈ book.referencesOf name := by
  by_cases hname : name ∈ seen
  · have hsame : other = name → other ∈ seen := fun heq => heq ▸ hname
    rw [turn_of_mem hname]
    simp only [Has, List.mem_cons]
    tauto
  · rw [turn_of_not_mem hname]
    simp only [Has, List.mem_append, List.mem_filter, decide_eq_true_eq, mem_addName_iff,
      List.mem_cons]
    tauto

theorem mem_seen_turn {other : String} (hother : other ∈ (turn book ⟨name :: queue, seen⟩).seen) :
    other ∈ seen ∨ other = name ∧ name ∉ seen := by
  by_cases hname : name ∈ seen
  · rw [turn_of_mem hname] at hother
    exact .inl hother
  · rw [turn_of_not_mem hname] at hother
    exact (mem_addName_iff.1 hother).symm.imp_right fun hsame => ⟨hsame, hname⟩

theorem ascending_seen_turn (hseen : Ascending id seen) :
    Ascending id (turn book ⟨name :: queue, seen⟩).seen := by
  by_cases hname : name ∈ seen
  · rwa [turn_of_mem hname]
  · rw [turn_of_not_mem hname]
    exact ascending_addName hseen name

theorem IsServed.turn {search : Search} (hserved : IsServed book start search) :
    IsServed book start (search.turn book) := by
  obtain ⟨queue, seen⟩ := search
  cases queue with
  | nil => exact hserved
  | cons name queue =>
      refine ⟨ascending_seen_turn hserved.ascending, has_turn_iff.2 (.inl hserved.started),
        fun other hother => ?_, fun other hother reference hrefers => has_turn_iff.2 ?_⟩
      · rcases has_turn_iff.1 hother with hother | ⟨-, hreference⟩
        · exact hserved.chained other hother
        · have hname : book.LeadsTo start name := hserved.chained name (.inl List.mem_cons_self)
          exact hname.tail (Book.refersTo_iff_mem_referencesOf.2 hreference)
      · rcases mem_seen_turn hother with hseen | ⟨rfl, hname⟩
        · exact .inl (hserved.followed other hseen reference hrefers)
        · exact .inr ⟨hname, Book.refersTo_iff_mem_referencesOf.1 hrefers⟩

theorem IsServed.iterate {search : Search} (hserved : IsServed book start search) (n : Nat) :
    IsServed book start ((Search.turn book)^[n] search) := by
  induction n generalizing search with
  | zero => exact hserved
  | succ n ih => exact ih hserved.turn

/-- Where nothing waits, the names met are those that a chain leads to. -/
theorem IsServed.seen_eq (hserved : IsServed book start ⟨[], seen⟩) :
    seen = reachableFrom book start := by
  refine hserved.ascending.eq_of_mem_iff (ascending_reachableFrom book start) fun name => ?_
  rw [mem_reachableFrom_iff]
  refine ⟨fun hname => hserved.chained name (.inr hname), fun hchain => ?_⟩
  induction hchain with
  | refl => simpa [Has] using hserved.started
  | tail _ hrefers ih => simpa [Has] using hserved.followed _ ih _ hrefers

/-- A search served in turn ends with the names that are reachable, after one turn for its start
and one for each reference of the book at most. -/
theorem iterate_turn_ofStart {n : Nat}
    (hn : 1 + (book.categories.flatMap Category.references).length ≤ n) :
    (Search.turn book)^[n] (ofStart start) = ⟨[], reachableFrom book start⟩ := by
  have hopen : openReferences [] = Category.references := by
    funext category
    exact if_neg List.not_mem_nil
  have hqueue : ((Search.turn book)^[n] (ofStart start)).queue = [] := by
    refine queue_iterate_turn ?_
    rwa [remaining, ofStart, hopen]
  have hserved := (isServed_ofStart book start).iterate n
  generalize (Search.turn book)^[n] (ofStart start) = last at hqueue hserved ⊢
  obtain ⟨queue, seen⟩ := last
  obtain rfl : queue = [] := hqueue
  rw [hserved.seen_eq]

end

end Search

/-- What is reached from a start is the closure of it under reference: a search served in turn ends
with it, in ascending order it holds just the names that a chain leads to, the start and those that
no category has among them, and a check from a start that is defined warns just of the categories
outside of it, once each and in ascending order. -/
theorem reachableFrom_closure (book : Book) (start : String) :
    (∀ n, 1 + (book.categories.flatMap Category.references).length ≤ n →
      (Search.turn book)^[n] (.ofStart start) = ⟨[], reachableFrom book start⟩) ∧
    (reachableFrom book start).Pairwise (· < ·) ∧
    (∀ name, name ∈ reachableFrom book start ↔ book.LeadsTo start name) ∧
    start ∈ reachableFrom book start ∧
    (∀ name ∈ reachableFrom book start, ∀ reference, book.RefersTo name reference →
      book.contains reference = false → reference ∈ reachableFrom book start) ∧
    ∀ minAlternatives, book.contains start = true →
      ∃ (others : List Warning) (names : List String),
        (check book ⟨start, minAlternatives⟩).warnings =
          others ++ names.map (.unreachable · start) ∧
        (∀ warning ∈ others, ∀ category other, warning ≠ .unreachable category other) ∧
        names.Pairwise (· < ·) ∧
        ∀ name, name ∈ names ↔ book.contains name = true ∧ ¬book.LeadsTo start name := by
  refine ⟨fun n => Search.iterate_turn_ofStart, ascending_reachableFrom book start,
    fun name => mem_reachableFrom_iff book start, mem_reachableFrom_start book start,
    fun name hname reference hrefers _ => ?_,
    fun minAlternatives => exists_warnings_eq ⟨start, minAlternatives⟩⟩
  rw [mem_reachableFrom_iff] at hname ⊢
  exact hname.tail hrefers

/-- A category that refers to itself and twice to another, which refers back and, where no draw
leads, to a name without a category; a third one is not reached. -/
theorem reachableFrom_closure_cycle :
    ∃ book, Source.parse
        "root:\n- {{root}} {{a}} {{a}}\na:\n- {{root}}\n- 0x {{gone}}\nfar:\n- {{a}}\n" =
          .ok book ∧
      reachableFrom book "root" = ["a", "gone", "root"] ∧
      .unreachable "far" "root" ∈ (check book ⟨"root", 0⟩).warnings := by
  obtain ⟨book, hparse, htest⟩ := Source.exists_parse_of_test
    "root:\n- {{root}} {{a}} {{a}}\na:\n- {{root}}\n- 0x {{gone}}\nfar:\n- {{a}}\n"
    (fun book => (book.categories.flatMap Category.references).length ≤ 6 &&
      (Search.turn book)^[7] (.ofStart "root") = ⟨[], ["a", "gone", "root"]⟩ &&
      book.contains "root" && book.contains "far") (by decide +kernel)
  simp only [Bool.and_eq_true, decide_eq_true_eq] at htest
  obtain ⟨⟨⟨hcount, hsearch⟩, hstart⟩, hfar⟩ := htest
  obtain ⟨hturns, -, hchains, -, -, hwarnings⟩ := reachableFrom_closure book "root"
  have hreached : reachableFrom book "root" = ["a", "gone", "root"] :=
    congrArg Search.seen ((hturns 7 (by omega)).symm.trans hsearch)
  refine ⟨book, hparse, hreached, ?_⟩
  obtain ⟨others, names, hwarnings, -, -, hnames⟩ := hwarnings 0 hstart
  have hunreached : "far" ∈ names := by
    rw [hnames, ← hchains, hreached]
    exact ⟨hfar, by decide⟩
  rw [hwarnings]
  exact List.mem_append_right _ (List.mem_map_of_mem hunreached)

end Lint

end Phrasebook

import Mathlib.Data.List.Lex
import Phrasebook.Proofs.Draw.SiteKey
import Phrasebook.Proofs.Expansion.Sites
import Phrasebook.Proofs.Lint.Safety

/-!
# Sites in order

A run reads its derivation from left to right, so each site it comes to is further on in the
order of the paths than all before it. So no two of its sites have the same path, and none
is drawn at from the bytes of another.
-/

namespace Phrasebook

/-- Whether a word can count the placeholders of each alternative. -/
def Book.IsCountable (book : Book) : Prop :=
  ∀ category ∈ book.categories, ∀ alternative ∈ category.alternatives,
    alternative.template.placeholders.length < UInt32.size

/-! ## Paths in order -/

namespace Draw.Path

variable {path : Path} {i j k l m : UInt32}

/-- A path comes before all that is below it. -/
theorem lt_push_push : path < (path.push i).push k := by
  show path.toList < ((path.push i).push k).toList
  have hbelow : path.toList ++ [] < path.toList ++ [i, k] := List.Lex.append_left _ .nil path.toList
  simpa using hbelow

theorem push_push_lt (hkl : k < l) : (path.push i).push k < (path.push i).push l := by
  show ((path.push i).push k).toList < ((path.push i).push l).toList
  simp only [Array.toList_push, List.append_assoc]
  exact List.Lex.append_left _ (.cons (.rel hkl)) path.toList

/-- What is below a placeholder comes before the placeholders after that one. -/
theorem push_push_push_push_lt (hkl : k < l) :
    (((path.push i).push k).push j).push m < (path.push i).push l := by
  show ((((path.push i).push k).push j).push m).toList < ((path.push i).push l).toList
  simp only [Array.toList_push, List.append_assoc]
  exact List.Lex.append_left _ (.cons (.rel hkl)) path.toList

end Draw.Path

namespace Expansion

def Site.IsBefore (site other : Site) : Prop := site.path < other.path

instance : Trans Site.IsBefore Site.IsBefore Site.IsBefore := ⟨Array.lt_trans⟩

theorem Site.IsBefore.path_ne {site other : Site} (hbefore : site.IsBefore other) :
    site.path ≠ other.path := by
  intro hsame
  rw [IsBefore, hsame] at hbefore
  exact Array.lt_irrefl _ hbefore

/-- Whether the frames of a stack lie along a path: each but the outermost was entered from the
one below it, at a placeholder that this one has passed by now, and goes back to its path. -/
inductive IsAlong : List Frame → Draw.Path → Prop
  | outside {path : Draw.Path} : IsAlong [] path
  | root {frame : Frame} {path : Draw.Path} : IsAlong [frame] path
  | entered {frame parent : Frame} {frames : List Frame} {path : Draw.Path} {k : UInt32}
      (hparent : IsAlong (parent :: frames) path) (hpassed : k < parent.passed)
      (hreturn : frame.parentLength = path.size) :
      IsAlong (frame :: parent :: frames) ((path.push parent.selection).push k)

def Frame.IsCountable (frame : Frame) : Prop :=
  frame.passed.toNat + frame.rest.placeholders.length < UInt32.size

/-- What holds of a state that is reached after a site: all sites to come are after it. -/
structure IsAfter (site : Site) (state : State) : Prop where
  along : IsAlong state.stack state.path
  countable : ∀ frame ∈ state.stack, frame.IsCountable
  before : ∀ frame ∈ state.stack.head?,
    site.path < (state.path.push frame.selection).push frame.passed

theorem Frame.IsCountable.literal {parent text : String} {rest : Template} {i k : UInt32} {n : Nat}
    (hframe : IsCountable ⟨parent, .literal text :: rest, i, k, n⟩) :
    IsCountable ⟨parent, rest, i, k, n⟩ := hframe

theorem Frame.IsCountable.pass {parent name : String} {rest : Template} {i k : UInt32} {n : Nat}
    (hframe : IsCountable ⟨parent, .placeholder name :: rest, i, k, n⟩) :
    k < k + 1 ∧ IsCountable ⟨parent, rest, i, k + 1, n⟩ := by
  have hcount : k.toNat + (rest.placeholders.length + 1) < 4294967296 := hframe
  have hone : (1 : UInt32).toNat = 1 := rfl
  have hnext : (k + 1).toNat = k.toNat + 1 := by
    rw [UInt32.toNat_add, hone]
    exact Nat.mod_eq_of_lt (by omega)
  constructor
  · rw [UInt32.lt_iff_toNat_lt, hnext]
    exact Nat.lt_succ_self _
  · show (k + 1).toNat + rest.placeholders.length < 4294967296
    omega

/-- How far the innermost frame has come makes no difference to where it was entered. -/
theorem IsAlong.head {frame : Frame} {frames : List Frame} {path : Draw.Path}
    (halong : IsAlong (frame :: frames) path) {other : Frame}
    (hreturn : other.parentLength = frame.parentLength) : IsAlong (other :: frames) path := by
  cases halong with
  | root => exact .root
  | entered hparent hpassed hlength => exact .entered hparent hpassed (hreturn.trans hlength)

theorem isAfter_of_enter {task : Task} (hcountable : task.book.IsCountable) {name : String}
    {referencedFrom : Option String} {n : Nat} {state next : State}
    (henter : task.enter name referencedFrom n state = .ok next)
    (halong : ∀ frame : Frame, frame.parentLength = n → IsAlong (frame :: state.stack) state.path)
    (hstack : ∀ frame ∈ state.stack, frame.IsCountable) : IsAfter ⟨name, state.path⟩ next := by
  obtain ⟨category, i, hfind, -, -, -, rfl⟩ := Task.enter_eq_ok_iff.1 henter
  refine ⟨halong _ rfl, ?_, ?_⟩
  · intro frame hframe
    rcases List.mem_cons.1 hframe with rfl | hframe
    · have hcount := hcountable category (Book.mem_of_find? hfind) _ (List.get_mem _ i)
      simpa [Frame.IsCountable] using hcount
    · exact hstack frame hframe
  · intro frame hframe
    cases hframe
    exact Draw.Path.lt_push_push

theorem IsAlong.exists_parent {frame parent : Frame} {frames : List Frame} {path : Draw.Path}
    (halong : IsAlong (frame :: parent :: frames) path) :
    ∃ above k, path = (above.push parent.selection).push k ∧ k < parent.passed ∧
      path.shrink frame.parentLength = above ∧ IsAlong (parent :: frames) above := by
  cases halong with
  | @entered _ _ _ above k hparent hpassed hreturn =>
      refine ⟨above, k, rfl, hpassed, ?_, hparent⟩
      rw [hreturn]
      simp

section
variable {site : Site} {frame : Frame} {frames : List Frame} {path : Draw.Path} {spent : Nat}
  {text : String}

/-- The frame below has passed the placeholder at which the innermost one was entered. -/
theorem IsAfter.leave (hafter : IsAfter site ⟨frame :: frames, path, spent, text⟩) :
    IsAfter site ⟨frames, path.shrink frame.parentLength, spent, text⟩ := by
  obtain ⟨halong, hstack, hbefore⟩ := hafter
  have hbelow : ∀ other ∈ frames, other.IsCountable := fun other hother =>
    hstack other (List.mem_cons_of_mem _ hother)
  cases frames with
  | nil => exact ⟨.outside, hbelow, by simp⟩
  | cons parent frames =>
      obtain ⟨above, k, rfl, hpassed, hback, hparent⟩ := halong.exists_parent
      rw [hback]
      refine ⟨hparent, hbelow, ?_⟩
      intro other hother
      obtain rfl : parent = other := Option.some.inj hother
      exact Array.lt_trans (hbefore frame rfl) (Draw.Path.push_push_push_push_lt hpassed)

theorem IsAfter.replace (hafter : IsAfter site ⟨frame :: frames, path, spent, text⟩)
    {other : Frame} (hother : other.IsCountable) (hselection : other.selection = frame.selection)
    (hreturn : other.parentLength = frame.parentLength)
    (hpassed : frame.passed = other.passed ∨ frame.passed < other.passed) (spent : Nat)
    (text : String) : IsAfter site ⟨other :: frames, path, spent, text⟩ := by
  obtain ⟨halong, hstack, hbefore⟩ := hafter
  refine ⟨halong.head hreturn, ?_, ?_⟩
  · intro inner hinner
    rcases List.mem_cons.1 hinner with rfl | hinner
    · exact hother
    · exact hstack inner (List.mem_cons_of_mem _ hinner)
  · intro inner hinner
    obtain rfl : other = inner := Option.some.inj hinner
    have hlast := hbefore frame rfl
    rw [hselection]
    rcases hpassed with hsame | hlt
    · rwa [← hsame]
    · exact Array.lt_trans hlast (Draw.Path.push_push_lt hlt)

end

/-- What was come to before a site is before it, and all that is to come is after it. -/
theorem IsAfter.step {task : Task} (hcountable : task.book.IsCountable) {site : Site}
    {state next : State} (hafter : IsAfter site state) (hstep : task.step state = .running next) :
    IsAfter ((task.site? state).getD site) next := by
  cases Task.step_eq_running_iff.1 hstep with
  | leave => exact hafter.leave
  | literal =>
      have hframe := (hafter.countable _ List.mem_cons_self).literal
      exact hafter.replace hframe rfl rfl (.inl rfl) _ _
  | @bound parent name piece rest i k n frames path spent text hbound =>
      obtain ⟨hpassed, hpass⟩ := (hafter.countable _ List.mem_cons_self).pass
      rw [Task.site?_bound hbound]
      exact hafter.replace hpass rfl rfl (.inr hpassed) _ _
  | @enter parent name rest i k n frames path spent text next hfree henter =>
      obtain ⟨hpassed, hpass⟩ := (hafter.countable _ List.mem_cons_self).pass
      rw [Task.site?_free hfree]
      apply isAfter_of_enter hcountable henter
      · intro frame hreturn
        have hparent : IsAlong (⟨parent, rest, i, k + 1, n⟩ :: frames) path :=
          hafter.along.head rfl
        exact .entered hparent hpassed hreturn
      · intro frame hframe
        rcases List.mem_cons.1 hframe with rfl | hframe
        · exact hpass
        · exact hafter.countable frame (List.mem_cons_of_mem _ hframe)

theorem IsAfter.isBefore {task : Task} {site next : Site} {state : State}
    (hafter : IsAfter site state) (hsite : task.site? state = some next) : site.IsBefore next := by
  obtain ⟨_, _, _, _, _, _, _, _, _, rfl, _, hpath⟩ := Task.site?_eq_some_iff.1 hsite
  rw [Site.IsBefore, hpath]
  exact hafter.before _ rfl

theorem IsAfter.isChain_sitesFrom {task : Task} (hcountable : task.book.IsCountable)
    {state : State} : ∀ {site : Site}, IsAfter site state →
      (site :: task.sitesFrom state).IsChain Site.IsBefore := by
  induction state using Task.run_induction task with
  | step state ih =>
      intro site hafter
      -- What is known of the sites so far is known of the last of them.
      have hhere : ∀ later : List Site,
          (((task.site? state).getD site) :: later).IsChain Site.IsBefore →
          (site :: ((task.site? state).toList ++ later)).IsChain Site.IsBefore := by
        intro later hlater
        cases hsite : task.site? state with
        | none => simpa [hsite] using hlater
        | some next =>
            rw [hsite] at hlater
            exact .cons_cons (hafter.isBefore hsite) hlater
      by_cases hrunning : ∃ next, task.step state = .running next
      · obtain ⟨next, hstep⟩ := hrunning
        rw [Task.sitesFrom_of_running hstep]
        exact hhere _ (ih next hstep (hafter.step hcountable hstep))
      · rw [Task.sitesFrom_of_not_running fun next hstep => hrunning ⟨next, hstep⟩]
        simpa using hhere [] (.singleton _)

/-- Each site of an expansion comes before all that are come to after it. -/
theorem Task.pairwise_sites {task : Task} (hcountable : task.book.IsCountable) (start : String) :
    (task.sites start).Pairwise Site.IsBefore := by
  rw [← List.isChain_iff_pairwise]
  cases henter : task.enter start none 0 initial with
  | error error =>
      rw [sites, henter]
      exact .singleton _
  | ok state =>
      rw [sites_of_enter henter]
      apply IsAfter.isChain_sitesFrom hcountable
      have hinitial : ∀ frame : Frame, frame.parentLength = 0 →
          IsAlong (frame :: initial.stack) initial.path := fun _ _ => .root
      exact isAfter_of_enter hcountable henter hinitial (by simp [initial])

end Expansion

namespace Book

variable {book : Book}

/-- No two sites of a generation share a path, nor the bytes that are hashed for a draw, and
what is drawn anywhere else has no part in the text. Over all seeds and paths these bytes give
back the state of the seed and the path. -/
theorem nodup_siteKeys (hcountable : book.IsCountable) (config : Config) (start : String)
    (bindings : Bindings) (seed : Seed) (t : Binary64) :
    let task := book.task config bindings seed t
    ((task.sites start).map (·.path)).Nodup ∧
      ((task.sites start).map fun site => Draw.siteKey seed.state site.path).Nodup ∧
      (∀ draw, (∀ site ∈ task.sites start, draw site.path = task.draw site.path) →
        (task.withDraw draw).expand start = book.generate config start bindings seed t) ∧
      Function.Injective2 Draw.siteKey := by
  intro task
  have hnodup : ((task.sites start).map (·.path)).Nodup := by
    rw [List.Nodup, List.pairwise_map]
    exact (Expansion.Task.pairwise_sites hcountable start).imp Expansion.Site.IsBefore.path_ne
  have hkeys := hnodup.map (Draw.siteKey_injective.right seed.state)
  rw [List.map_map] at hkeys
  refine ⟨hnodup, hkeys, ?_, Draw.siteKey_injective⟩
  intro draw hdraw
  rw [generate_eq_expand]
  exact Expansion.Task.expand_withDraw hdraw

theorem nodup_siteKeys_twins :
    ∃ book, Source.parse "a:\n- {{b}}, {{b}}\nb:\n- x\n" = .ok book ∧ book.IsCountable ∧
      let task := book.task Config.default Bindings.empty ⟨"#7", 7⟩ .zero
      let paths : List Draw.Path := [#[], #[0, 0], #[0, 1]]
      (task.sites "a").map (·.path) = paths ∧ paths.Nodup ∧
        (paths.map (Draw.siteKey 7)).Nodup ∧
        (task.withDraw fun path => if path.size = 4 then .one else task.draw path).expand "a" =
          book.generate Config.default "a" Bindings.empty ⟨"#7", 7⟩ .zero := by
  let a : Category := ⟨"a", [⟨.one, [.placeholder "b", .literal ", ", .placeholder "b"]⟩]⟩
  let b : Category := ⟨"b", [⟨.one, [.literal "x"]⟩]⟩
  obtain ⟨book, hparse, htest⟩ := Source.exists_parse_of_test
    "a:\n- {{b}}, {{b}}\nb:\n- x\n"
    (fun book => decide (book.categories = [a, b])) (by decide +kernel)
  have hbook : book.categories = [a, b] := of_decide_eq_true htest
  have hcountable : book.IsCountable := by
    rw [IsCountable, hbook]
    decide +kernel
  have ha : book.find? "a" = some a := by
    rw [find?, hbook]
    decide +kernel
  have hb : book.find? "b" = some b := by
    rw [find?, hbook]
    decide +kernel
  let task := book.task Config.default Bindings.empty ⟨"#7", 7⟩ .zero
  have hroot : task.enter "a" none 0 Expansion.Task.initial =
      .ok ⟨[⟨"a", [.placeholder "b", .literal ", ", .placeholder "b"], 0, 0, 0⟩], #[], 1, ""⟩ :=
    Expansion.Task.enter_eq_ok_iff.2 ⟨a, 0, ha, (by decide : 0 < Config.default.maxDepth),
      (by decide : 0 < Config.default.maxExpansions),
      Category.selected_singleton rfl "a" _, rfl⟩
  have htwin : ∀ frame n path spent text, spent < Config.default.maxExpansions →
      task.enter "b" (some "a") n ⟨[frame], path, spent, text⟩ =
        .ok ⟨[⟨"b", [.literal "x"], 0, 0, n⟩, frame], path, spent + 1, text⟩ := by
    intro frame n path spent text hspent
    exact Expansion.Task.enter_eq_ok_iff.2 ⟨b, 0, hb, (by decide : 1 < Config.default.maxDepth),
      hspent, Category.selected_singleton rfl "b" _, rfl⟩
  have hsites : task.sites "a" = [⟨"a", #[]⟩, ⟨"b", #[0, 0]⟩, ⟨"b", #[0, 1]⟩] := by
    rw [Expansion.Task.sites_of_enter hroot,
      Expansion.Task.sitesFrom_placeholder rfl (htwin _ _ _ _ _ (by decide)),
      Expansion.Task.sitesFrom_literal, Expansion.Task.sitesFrom_leave,
      Expansion.Task.sitesFrom_literal,
      Expansion.Task.sitesFrom_placeholder rfl (htwin _ _ _ _ _ (by decide)),
      Expansion.Task.sitesFrom_literal, Expansion.Task.sitesFrom_leave,
      Expansion.Task.sitesFrom_leave, Expansion.Task.sitesFrom_nil]
    rfl
  obtain ⟨hnodup, hkeys, hdraw, -⟩ :=
    nodup_siteKeys hcountable Config.default "a" Bindings.empty ⟨"#7", 7⟩ .zero
  rw [hsites] at hnodup hkeys hdraw
  refine ⟨book, hparse, hcountable, congrArg (List.map _) hsites, hnodup, hkeys, hdraw _ ?_⟩
  intro site hsite
  have hshort : ∀ site ∈ [(⟨"a", #[]⟩ : Expansion.Site), ⟨"b", #[0, 0]⟩, ⟨"b", #[0, 1]⟩],
      site.path.size ≠ 4 := by
    decide
  exact if_neg (hshort site hsite)

end Book

end Phrasebook

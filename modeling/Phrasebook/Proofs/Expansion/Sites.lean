import Phrasebook.Proofs.Expansion.Steps

/-!
# Sites of an expansion

A run comes to a site whenever it is to expand a category, first of all at its start. It draws
at the path of the site, unless the category is unknown or a limit is met there, and it draws
nowhere else.
-/

namespace Phrasebook.Expansion

structure Site where
  name : String
  path : Draw.Path
deriving DecidableEq

namespace Task

/-- The site at which the next step comes to expand a category, none when it expands nothing. -/
def site? (task : Task) : State → Option Site
  | ⟨⟨_, .placeholder name :: _, i, k, _⟩ :: _, path, _, _⟩ =>
    match task.bindings.get? name with
    | some _ => none
    | none => some ⟨name, (path.push i).push k⟩
  | _ => none

def sitesFrom (task : Task) (state : State) : List Site :=
  (task.site? state).toList ++
    match h : task.step state with
    | .running next =>
      have _decreases := step_decreases h
      task.sitesFrom next
    | _ => []
termination_by (task.maxExpansions - state.expansions, state.unread)
decreasing_by
  simp only [Prod.lex_def]
  exact _decreases

def sites (task : Task) (start : String) : List Site :=
  ⟨start, #[]⟩ ::
    match task.enter start none 0 initial with
    | .error _ => []
    | .ok state => task.sitesFrom state

/-- What holds of a state as soon as it holds of the next one holds of all. -/
theorem run_induction (task : Task) {motive : State → Prop}
    (step : ∀ state, (∀ next, task.step state = .running next → motive next) → motive state)
    (state : State) : motive state :=
  step state fun next _hstep => run_induction task step next
termination_by (task.maxExpansions - state.expansions, state.unread)
decreasing_by
  simp only [Prod.lex_def]
  exact step_decreases _hstep

theorem sitesFrom_of_running {task : Task} {state next : State}
    (hstep : task.step state = .running next) :
    task.sitesFrom state = (task.site? state).toList ++ task.sitesFrom next := by
  rw [sitesFrom]
  split
  · next hother =>
    rw [hstep] at hother
    cases hother
    rfl
  · next hnot => exact (hnot next hstep).elim

theorem sitesFrom_of_not_running {task : Task} {state : State}
    (hstep : ∀ next, task.step state ≠ .running next) :
    task.sitesFrom state = (task.site? state).toList := by
  rw [sitesFrom]
  split
  · next hrunning => exact (hstep _ hrunning).elim
  · exact List.append_nil _

theorem mem_sitesFrom {task : Task} {state : State} {site : Site}
    (hsite : task.site? state = some site) : site ∈ task.sitesFrom state := by
  rw [sitesFrom]
  exact List.mem_append_left _ (Option.mem_toList.2 hsite)

theorem sitesFrom_nil (task : Task) (path : Draw.Path) (spent : Nat) (text : String) :
    task.sitesFrom ⟨[], path, spent, text⟩ = [] := by
  rw [sitesFrom]
  rfl

section
variable {task : Task} {parent name : String} {rest : Template} {i k : UInt32} {n : Nat}
  {frames : List Frame} {path : Draw.Path} {spent : Nat} {text : String}

theorem site?_bound {piece : String} (hbound : task.bindings.get? name = some piece) :
    task.site? ⟨⟨parent, .placeholder name :: rest, i, k, n⟩ :: frames, path, spent, text⟩ =
      none := by
  simp only [site?, hbound]

theorem site?_free (hfree : task.bindings.get? name = none) :
    task.site? ⟨⟨parent, .placeholder name :: rest, i, k, n⟩ :: frames, path, spent, text⟩ =
      some ⟨name, (path.push i).push k⟩ := by
  simp only [site?, hfree]

theorem sitesFrom_leave :
    task.sitesFrom ⟨⟨parent, [], i, k, n⟩ :: frames, path, spent, text⟩ =
      task.sitesFrom ⟨frames, path.shrink n, spent, text⟩ :=
  sitesFrom_of_running rfl

theorem sitesFrom_literal {piece : String} :
    task.sitesFrom ⟨⟨parent, .literal piece :: rest, i, k, n⟩ :: frames, path, spent, text⟩ =
      task.sitesFrom ⟨⟨parent, rest, i, k, n⟩ :: frames, path, spent, text ++ piece⟩ :=
  sitesFrom_of_running rfl

theorem sitesFrom_placeholder {next : State} (hfree : task.bindings.get? name = none)
    (henter : task.enter name (some parent) path.size
      ⟨⟨parent, rest, i, k + 1, n⟩ :: frames, (path.push i).push k, spent, text⟩ = .ok next) :
    task.sitesFrom ⟨⟨parent, .placeholder name :: rest, i, k, n⟩ :: frames, path, spent, text⟩ =
      ⟨name, (path.push i).push k⟩ :: task.sitesFrom next := by
  rw [sitesFrom_of_running (step_eq_running_iff.2 (.enter hfree henter)), site?_free hfree]
  rfl

end

theorem sites_of_enter {task : Task} {start : String} {state : State}
    (henter : task.enter start none 0 initial = .ok state) :
    task.sites start = ⟨start, #[]⟩ :: task.sitesFrom state := by
  rw [sites, henter]

theorem site?_eq_some_iff {task : Task} {state : State} {site : Site} :
    task.site? state = some site ↔
      ∃ parent rest i k n frames path spent text,
        state = ⟨⟨parent, .placeholder site.name :: rest, i, k, n⟩ :: frames, path, spent, text⟩ ∧
          task.bindings.get? site.name = none ∧ site.path = (path.push i).push k := by
  obtain ⟨stack, path, spent, text⟩ := state
  obtain ⟨name, sitePath⟩ := site
  constructor
  · intro hsite
    unfold site? at hsite
    split at hsite
    · next hstate =>
      split at hsite
      · cases hsite
      · next hfree =>
        cases hsite
        exact ⟨_, _, _, _, _, _, _, _, _, hstate, hfree, rfl⟩
    · cases hsite
  · intro hstate
    obtain ⟨_, _, _, _, _, _, _, _, _, hstate, hfree, hpath⟩ := hstate
    dsimp only at hstate hfree hpath
    rw [hstate, hpath]
    simp only [site?, hfree]

theorem expand_eq_bind_initial (task : Task) (start : String) :
    task.expand start = (task.enter start none 0 initial).bind task.run :=
  task.expand_eq start

/-- Every head of the loop goes on to what the whole expansion answers. -/
theorem IsHead.expand_eq_run {task : Task} {start : String} {iterations : Nat} {state : State}
    (hhead : task.IsHead start iterations state) : task.expand start = task.run state := by
  induction hhead with
  | first henter =>
      rw [expand_eq_bind_initial, henter]
      rfl
  | next _ hstep ih =>
      rw [ih, run_eq, hstep]

theorem IsHead.exists_of_mem_sitesFrom {task : Task} {start : String} {site : Site}
    {state : State} : ∀ {iterations : Nat}, task.IsHead start iterations state →
      site ∈ task.sitesFrom state →
        ∃ iterations head, task.IsHead start iterations head ∧ task.site? head = some site := by
  induction state using run_induction task with
  | step state ih =>
      intro iterations hhead hmem
      by_cases hrunning : ∃ next, task.step state = .running next
      · obtain ⟨next, hstep⟩ := hrunning
        rw [sitesFrom_of_running hstep] at hmem
        rcases List.mem_append.1 hmem with hhere | hlater
        · exact ⟨iterations, state, hhead, Option.mem_toList.1 hhere⟩
        · exact ih next hstep (hhead.next hstep) hlater
      · rw [sitesFrom_of_not_running fun next hstep => hrunning ⟨next, hstep⟩] at hmem
        exact ⟨iterations, state, hhead, Option.mem_toList.1 hmem⟩

/-- Every site but the start is come to from a head of the loop. -/
theorem exists_isHead_of_mem_sites {task : Task} {start : String} {site : Site}
    (hmem : site ∈ task.sites start) :
    site = ⟨start, #[]⟩ ∨
      ∃ iterations head, task.IsHead start iterations head ∧ task.site? head = some site := by
  rcases List.mem_cons.1 hmem with hroot | hlater
  · exact .inl hroot
  · cases henter : task.enter start none 0 initial with
    | error error =>
        rw [henter] at hlater
        cases hlater
    | ok state =>
        rw [henter] at hlater
        exact .inr (IsHead.exists_of_mem_sitesFrom (.first henter) hlater)

/-- What fails at a site fails the whole expansion, with the same error. -/
theorem exists_error_of_mem_sites {task : Task} {start : String} {site : Site}
    (hmem : site ∈ task.sites start) :
    ∃ referencedFrom depth spent, ∀ error,
      task.expandAt site.name referencedFrom depth site.path spent = .error error →
        task.expand start = .error error := by
  rcases exists_isHead_of_mem_sites hmem with rfl | ⟨_, head, hhead, hsite⟩
  · refine ⟨none, 0, 0, fun error hfails => ?_⟩
    rw [expand_eq_expandRecursively, expandRecursively, hfails]
    rfl
  · obtain ⟨parent, rest, i, k, n, frames, path, spent, text, rfl, hfree, hpath⟩ :=
      site?_eq_some_iff.1 hsite
    refine ⟨some parent, frames.length + 1, spent, fun error hfails => ?_⟩
    rw [hhead.expand_eq_run, run_placeholder hfree, task.entersAt _ _ _ _ _ _ _ _ rfl, ← hpath]
    show (task.expandAt site.name (some parent) (frames.length + 1) site.path spent).bind _ = _
    rw [hfails]
    rfl

/-! ## Draws are made at sites only -/

def withDraw (task : Task) (draw : Draw.Path → Binary64) : Task := { task with draw := draw }

section
variable {task : Task} {draw : Draw.Path → Binary64}

theorem enter_withDraw (state : State) (hdraw : draw state.path = task.draw state.path)
    (name : String) (referencedFrom : Option String) (n : Nat) :
    (task.withDraw draw).enter name referencedFrom n state =
      task.enter name referencedFrom n state := by
  unfold enter
  simp only [withDraw, hdraw]

theorem step_withDraw {state : State}
    (hdraw : ∀ site, task.site? state = some site → draw site.path = task.draw site.path) :
    (task.withDraw draw).step state = task.step state := by
  obtain ⟨stack, path, spent, text⟩ := state
  cases stack with
  | nil => rfl
  | cons frame frames =>
      obtain ⟨parent, segments, i, k, n⟩ := frame
      cases segments with
      | nil => rfl
      | cons segment rest =>
          cases segment with
          | literal piece => rfl
          | placeholder name =>
              have hbindings : (task.withDraw draw).bindings = task.bindings := rfl
              simp only [step, hbindings]
              cases hname : task.bindings.get? name with
              | some bound => rfl
              | none =>
                  have hhere : draw ((path.push i).push k) = task.draw ((path.push i).push k) :=
                    hdraw ⟨name, (path.push i).push k⟩ (site?_free hname)
                  simp only [enter_withDraw ⟨_, (path.push i).push k, _, _⟩ hhere]

theorem run_withDraw {state : State}
    (hdraw : ∀ site ∈ task.sitesFrom state, draw site.path = task.draw site.path) :
    (task.withDraw draw).run state = task.run state := by
  induction state using run_induction task with
  | step state ih =>
      have hhere : ∀ site, task.site? state = some site → draw site.path = task.draw site.path := by
        intro site hsite
        exact hdraw site (mem_sitesFrom hsite)
      rw [run_eq, run_eq, step_withDraw hhere]
      cases hstep : task.step state with
      | finished text => rfl
      | failed error => rfl
      | running next =>
          apply ih next hstep
          intro site hsite
          apply hdraw
          rw [sitesFrom_of_running hstep]
          exact List.mem_append_right _ hsite

/-- Draws that agree at the sites of an expansion make the same of it. -/
theorem expand_withDraw {start : String}
    (hdraw : ∀ site ∈ task.sites start, draw site.path = task.draw site.path) :
    (task.withDraw draw).expand start = task.expand start := by
  have hroot : draw initial.path = task.draw initial.path := hdraw _ List.mem_cons_self
  rw [expand_eq_bind_initial, expand_eq_bind_initial, enter_withDraw initial hroot]
  cases henter : task.enter start none 0 initial with
  | error error => simp only [Except.bind]
  | ok state =>
      apply run_withDraw
      intro site hsite
      apply hdraw
      rw [sites_of_enter henter]
      exact List.mem_cons_of_mem _ hsite

end

end Task

end Phrasebook.Expansion

import Mathlib.Data.List.TakeWhile
import Phrasebook.Proofs.Source.Grammar

/-!
# Lines of settings

A line is taken in when it writes a setting that was not given before, and the setting
is then added to those given.
-/

namespace Phrasebook.Source

/-! ## Values -/

theorem unquoteWith?_eq_some_iff {q : Char} {value inner : List Char} :
    unquoteWith? q value = some inner ↔ value = q :: (inner ++ [q]) := by
  cases value with
  | nil => simp [unquoteWith?]
  | cons c rest =>
      simp only [unquoteWith?, Bool.and_eq_true, beq_iff_eq, Option.ite_none_right_eq_some,
        Option.some.injEq, List.cons.injEq]
      constructor
      · rintro ⟨⟨rfl, hlast⟩, rfl⟩
        obtain ⟨inner, rfl⟩ := List.getLast?_eq_some_iff.1 hlast
        simp
      · rintro ⟨rfl, rfl⟩
        simp

theorem unwraps_unquoteSetting (value : List Char) : Unwraps value (unquoteSetting value) := by
  unfold unquoteSetting
  cases hdouble : unquoteWith? '"' value with
  | some inner =>
      rw [unquoteWith?_eq_some_iff.1 hdouble]
      exact .quoted (.inl rfl)
  | none =>
      cases hsingle : unquoteWith? '\'' value with
      | some inner =>
          rw [unquoteWith?_eq_some_iff.1 hsingle]
          exact .quoted (.inr rfl)
      | none =>
          refine .bare fun q inner hq heq => ?_
          rcases hq with rfl | rfl
          · rw [unquoteWith?_eq_some_iff.2 heq] at hdouble
            cases hdouble
          · rw [unquoteWith?_eq_some_iff.2 heq] at hsingle
            cases hsingle

/-- There is one way to take the quotes off a value. -/
theorem eq_of_unwraps {value inner inner' : List Char} (h : Unwraps value inner)
    (h' : Unwraps value inner') : inner = inner' := by
  cases h with
  | @quoted q inner hq =>
      generalize hvalue : q :: (inner ++ [q]) = value at h'
      cases h' with
      | @quoted q' inner' hq' =>
          simp only [List.cons.injEq] at hvalue
          obtain ⟨rfl, hinner⟩ := hvalue
          exact List.append_cancel_right hinner
      | bare hfree => exact (hfree q inner hq hvalue.symm).elim
  | bare hfree =>
      cases h' with
      | quoted hq' => exact (hfree _ _ hq' rfl).elim
      | bare => rfl

theorem unwraps_iff {value inner : List Char} :
    Unwraps value inner ↔ unquoteSetting value = inner := by
  constructor
  · exact fun h => eq_of_unwraps (unwraps_unquoteSetting value) h
  · rintro rfl
    exact unwraps_unquoteSetting value

theorem ofName?_eq_some_iff {name : String} {animation : Animation} :
    Animation.ofName? name = some animation ↔ name = animation.name := by
  unfold Animation.ofName?
  constructor
  · intro h
    split at h
    · next heq => cases h; exact heq
    · split at h
      · next heq => cases h; exact heq
      · cases h
  · rintro rfl
    cases animation <;> rfl

/-! ## Adding settings -/

namespace Settings

def add (settings : Settings) : Setting → Settings
  | .duration seconds => { settings with duration := some seconds }
  | .animation animation => { settings with animation := some animation }

def get? (settings : Settings) (key : String) : Option Setting :=
  if key = "duration" then settings.duration.map .duration
  else if key = "animation" then settings.animation.map .animation
  else none

theorem get?_empty (key : String) : empty.get? key = none := by
  simp [get?, empty]

theorem get?_add_self (settings : Settings) (setting : Setting) :
    (settings.add setting).get? setting.key = some setting := by
  cases setting <;> rfl

theorem get?_add_of_ne (settings : Settings) {setting : Setting} {key : String}
    (hne : setting.key ≠ key) : (settings.add setting).get? key = settings.get? key := by
  cases setting with
  | duration seconds =>
      have hkey : key ≠ "duration" := hne.symm
      simp [get?, hkey, add]
  | animation animation =>
      have hkey : key ≠ "animation" := hne.symm
      simp [get?, hkey, add]

theorem get?_foldl_of_not_mem {settings : List Setting} {key : String}
    (hkey : key ∉ settings.map Setting.key) (given : Settings) :
    (settings.foldl add given).get? key = given.get? key := by
  induction settings generalizing given with
  | nil => rfl
  | cons first settings ih =>
      obtain ⟨hne, hrest⟩ : key ≠ first.key ∧ key ∉ settings.map Setting.key := by
        simpa using hkey
      rw [List.foldl_cons, ih hrest, get?_add_of_ne given hne.symm]

theorem get?_foldl_of_mem {settings : List Setting} {setting : Setting}
    (hnodup : (settings.map Setting.key).Nodup) (hmem : setting ∈ settings) (given : Settings) :
    (settings.foldl add given).get? setting.key = some setting := by
  induction settings generalizing given with
  | nil => cases hmem
  | cons first settings ih =>
      obtain ⟨hfirst, hrest⟩ := List.nodup_cons.1 (List.map_cons ▸ hnodup)
      rw [List.foldl_cons]
      rcases List.mem_cons.1 hmem with rfl | hmem
      · rw [get?_foldl_of_not_mem hfirst, get?_add_self]
      · exact ih hrest hmem _

end Settings

/-- A text is parted at its first colon. -/
theorem takeWhile_colon {key value : List Char} (hkey : ':' ∉ key) :
    (key ++ ':' :: value).takeWhile (· != ':') = key ∧
      (key ++ ':' :: value).dropWhile (· != ':') = ':' :: value := by
  have hpos : ∀ c ∈ key, (c != ':') = true := by
    intro c hc
    simp only [bne_iff_ne, ne_eq]
    rintro rfl
    exact hkey hc
  rw [List.takeWhile_append_of_pos hpos, List.dropWhile_append_of_pos hpos]
  simp

theorem read_of_writesSetting {settings : Settings} {text : List Char} {setting : Setting}
    (hwritten : WritesSetting text setting) (hfresh : settings.get? setting.key = none) :
    settings.read text = .ok (settings.add setting) := by
  obtain ⟨key, value, inner, rfl, hcolon, hkey, hunwraps, hgives⟩ := hwritten
  obtain ⟨htake, hdrop⟩ := takeWhile_colon hcolon
  unfold Settings.read
  rw [htake, hdrop]
  dsimp only
  rw [hkey, String.ofList_toList, unwraps_iff.1 hunwraps]
  cases hgives with
  | @duration _ seconds hread hduration =>
      have hread' : readDuration? inner = some seconds := by
        simp [readDuration?, hread, hduration]
      have hnone : settings.duration = none := by
        simpa [Settings.get?, Setting.key] using hfresh
      simp [Setting.key, hnone, hread', Settings.add]
  | @animation animation =>
      have hnone : settings.animation = none := by
        simpa [Settings.get?, Setting.key] using hfresh
      simp [Setting.key, hnone, ofName?_eq_some_iff.2 rfl, Settings.add]

/-- The first colon parts a key from a value, so a value that gives the setting of the key
makes the text write it. -/
theorem writesSetting_of_gives {text rest : List Char} {c : Char} {setting : Setting}
    (hdrop : text.dropWhile (· != ':') = c :: rest)
    (hkey : String.ofList (Text.trim (text.takeWhile (· != ':'))) = setting.key)
    (hgives : Gives (unquoteSetting (Text.trim rest)) setting) : WritesSetting text setting := by
  obtain rfl : c = ':' := by
    have hhead := List.head?_dropWhile_not (· != ':') text
    rw [hdrop] at hhead
    simpa using hhead
  have htext : text = text.takeWhile (· != ':') ++ ':' :: rest := by
    rw [← hdrop]
    exact List.takeWhile_append_dropWhile.symm
  have hfree : ':' ∉ text.takeWhile (· != ':') := by
    intro hmem
    simpa using List.mem_takeWhile_imp hmem
  refine ⟨_, rest, _, htext, hfree, ?_, unwraps_unquoteSetting (Text.trim rest), hgives⟩
  rw [← hkey, String.toList_ofList]

theorem writesSetting_of_read {settings given : Settings} {text : List Char}
    (hread : settings.read text = .ok given) :
    ∃ setting, WritesSetting text setting ∧ settings.get? setting.key = none ∧
      given = settings.add setting := by
  unfold Settings.read at hread
  split at hread
  · cases hread
  · next c rest hdrop =>
    dsimp only at hread
    split at hread
    · next hkey =>
      split at hread
      · cases hread
      · next hgiven =>
        split at hread
        · cases hread
        · next seconds hduration =>
          cases hread
          obtain ⟨hnumber, hpositive⟩ := Option.filter_eq_some_iff.1 hduration
          exact ⟨.duration seconds, writesSetting_of_gives hdrop hkey (.duration hnumber hpositive),
            by simpa [Settings.get?, Setting.key] using hgiven, rfl⟩
    · split at hread
      · next hkey =>
        split at hread
        · cases hread
        · next hgiven =>
          split at hread
          · cases hread
          · next animation hname =>
            cases hread
            have hvalue := congrArg String.toList (ofName?_eq_some_iff.1 hname)
            rw [String.toList_ofList] at hvalue
            exact ⟨.animation animation, writesSetting_of_gives hdrop hkey (hvalue ▸ .animation),
              by simpa [Settings.get?, Setting.key] using hgiven, rfl⟩
      · cases hread

/-! ## Preambles -/

theorem preamble_eq (settings : Settings) :
    (∀ seconds, settings.get? "duration" = some (.duration seconds) →
      settings.preamble.duration = seconds) ∧
    (∀ animation, settings.get? "animation" = some (.animation animation) →
      settings.preamble.animation = animation) ∧
    (settings.get? "duration" = none → settings.preamble.duration = Preamble.default.duration) ∧
    (settings.get? "animation" = none →
      settings.preamble.animation = Preamble.default.animation) := by
  obtain ⟨duration, animation⟩ := settings
  cases duration <;> cases animation <;> simp [Settings.get?, Settings.preamble]

theorem isPreambleOf_foldl {settings : List Setting}
    (hnodup : (settings.map Setting.key).Nodup) :
    IsPreambleOf settings (settings.foldl Settings.add Settings.empty).preamble := by
  obtain ⟨hduration, hanimation, hnoDuration, hnoAnimation⟩ :=
    preamble_eq (settings.foldl Settings.add Settings.empty)
  have hmissing {key : String} (hkey : ∀ setting ∈ settings, setting.key ≠ key) :
      (settings.foldl Settings.add Settings.empty).get? key = none := by
    rw [Settings.get?_foldl_of_not_mem, Settings.get?_empty]
    simpa using hkey
  refine ⟨?_, ?_, ?_, ?_⟩
  · exact fun seconds hmem => hduration seconds (Settings.get?_foldl_of_mem hnodup hmem _)
  · exact fun animation hmem => hanimation animation (Settings.get?_foldl_of_mem hnodup hmem _)
  · intro hfree
    refine hnoDuration (hmissing fun setting hmem => ?_)
    cases setting with
    | duration seconds => exact (hfree seconds hmem).elim
    | animation animation => simp [Setting.key]
  · intro hfree
    refine hnoAnimation (hmissing fun setting hmem => ?_)
    cases setting with
    | duration seconds => simp [Setting.key]
    | animation animation => exact (hfree animation hmem).elim

/-- Settings have one preamble. -/
theorem IsPreambleOf.unique {settings : List Setting} {preamble preamble' : Preamble}
    (h : IsPreambleOf settings preamble) (h' : IsPreambleOf settings preamble') :
    preamble = preamble' := by
  have hduration : preamble.duration = preamble'.duration := by
    by_cases hgiven : ∃ seconds, .duration seconds ∈ settings
    · obtain ⟨seconds, hmem⟩ := hgiven
      rw [h.duration seconds hmem, h'.duration seconds hmem]
    · have hfree : ∀ seconds, .duration seconds ∉ settings := not_exists.1 hgiven
      rw [h.defaultDuration hfree, h'.defaultDuration hfree]
  have hanimation : preamble.animation = preamble'.animation := by
    by_cases hgiven : ∃ animation, .animation animation ∈ settings
    · obtain ⟨animation, hmem⟩ := hgiven
      rw [h.animation animation hmem, h'.animation animation hmem]
    · have hfree : ∀ animation, .animation animation ∉ settings := not_exists.1 hgiven
      rw [h.defaultAnimation hfree, h'.defaultAnimation hfree]
  cases preamble
  cases preamble'
  cases hduration
  cases hanimation
  rfl

theorem isPreambleOf_iff {settings : List Setting} {preamble : Preamble}
    (hnodup : (settings.map Setting.key).Nodup) :
    IsPreambleOf settings preamble ↔
      preamble = (settings.foldl Settings.add Settings.empty).preamble := by
  constructor
  · exact fun h => h.unique (isPreambleOf_foldl hnodup)
  · rintro rfl
    exact isPreambleOf_foldl hnodup

end Phrasebook.Source

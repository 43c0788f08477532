import Converge.Feature.Manager

/-!
# Which words a row of a feature may hold

A row drives the host only if its state is one of four words. Of the restart setting it is asked that one
of two words stands in it; so a text around such a word, a template for instance, is taken for the word.

* `FeatureState.IsWord`, `Row.Rendered`: the four words, and the rows that hold nothing else in the two
  fields;
* `Row.Embellished`: the rows whose restart setting is a text around a word;
* `Row.Faulty`: what is wrong with a row, in the words of the policy; `Feature.ofRow_cases`: a row
  describes a feature, or something is wrong with it;
* `Feature.ofRow_withBare`: an embellished row describes the feature that the bare word describes;
* **`planned_iff_rendered`**: there are plans for the rendered rows and for no other, unless a row is
  embellished. `template_planned` is one that is.
-/

namespace Converge

/-! ## 1. Words -/

namespace FeatureState

/-- One of the four words. -/
def IsWord (text : String) : Prop :=
  text ∈ ["enabled", "disabled", "always_enabled", "always_disabled"]

instance (text : String) : Decidable (IsWord text) := inferInstanceAs (Decidable (_ ∈ _))

theorem isWord_iff (text : String) : IsWord text ↔ ∃ s : FeatureState, ofWord? text = some s := by
  constructor
  · intro h
    simp only [IsWord, List.mem_cons, List.not_mem_nil, or_false] at h
    obtain rfl | rfl | rfl | rfl := h
    · exact ⟨.enabled, rfl⟩
    · exact ⟨.disabled, rfl⟩
    · exact ⟨.alwaysEnabled, rfl⟩
    · exact ⟨.alwaysDisabled, rfl⟩
  · rintro ⟨s, h⟩
    unfold ofWord? at h
    split at h
    · decide
    · decide
    · decide
    · decide
    · cases h

/-- **The state must be one of the words**, whatever stands around them. -/
theorem parse_cases (text : String) :
    (IsWord text ∧ ∃ s, parse text = .ok s) ∨
      (¬ IsWord text ∧ parse text = .error (.refused ("invalid feature state '" ++ text ++ "'"))) := by
  unfold parse
  rw [isWord_iff]
  cases ofWord? text with
  | some s => exact .inl ⟨⟨s, rfl⟩, s, rfl⟩
  | none => exact .inr ⟨nofun, rfl⟩

end FeatureState

open FeatureState (IsWord)

namespace RestartPolicy

/-- The word that asks for a setting. -/
def bareWord : RestartPolicy → String
  | .always => "enabled"
  | .never => "disabled"

/-- The word for a setting stands somewhere in the text. -/
def StandsIn (r : RestartPolicy) (text : String) : Prop :=
  ∃ before after, text = before ++ r.bareWord ++ after

theorem occurs_iff_standsIn (r : RestartPolicy) (text : String) :
    Text.occurs r.bareWord text = true ↔ r.StandsIn text := Text.occurs_iff _ _

/-- **The restart setting need only hold a word**; the word `enabled` counts first. -/
theorem parse_eq (text : String) :
    (StandsIn .always text → parse text = .ok .always) ∧
      (¬ StandsIn .always text → StandsIn .never text → parse text = .ok .never) ∧
      (¬ StandsIn .always text → ¬ StandsIn .never text →
        parse text = .error (.refused ("invalid auto_restart '" ++ text ++ "'"))) := by
  have halways : Text.occurs "enabled" text = true ↔ StandsIn .always text :=
    occurs_iff_standsIn .always text
  have hnever : Text.occurs "disabled" text = true ↔ StandsIn .never text :=
    occurs_iff_standsIn .never text
  unfold parse
  rw [← halways, ← hnever]
  refine ⟨fun h => if_pos h, fun h h' => ?_, fun h h' => ?_⟩
  · rw [if_neg h, if_pos h']
  · rw [if_neg h, if_neg h']

/-- A word stands in the text. -/
def HoldsWord (text : String) : Prop := ∃ r : RestartPolicy, r.StandsIn text

/-- What is read out of a text that holds a word is read out of the bare word as well. -/
theorem parse_cases (text : String) :
    (HoldsWord text ∧ ∃ r : RestartPolicy, r.StandsIn text ∧ parse text = .ok r ∧
        parse r.bareWord = .ok r) ∨
      (¬ HoldsWord text ∧
        parse text = .error (.refused ("invalid auto_restart '" ++ text ++ "'"))) := by
  obtain ⟨halways, hnever, hnone⟩ := parse_eq text
  by_cases h : StandsIn .always text
  · exact .inl ⟨⟨_, h⟩, .always, h, halways h, rfl⟩
  · by_cases h' : StandsIn .never text
    · exact .inl ⟨⟨_, h'⟩, .never, h', hnever h h', rfl⟩
    · refine .inr ⟨?_, hnone h h'⟩
      rintro ⟨r, hr⟩
      cases r with
      | always => exact h hr
      | never => exact h' hr

theorem holdsWord_of_isWord {text : String} (h : IsWord text) : HoldsWord text := by
  simp only [IsWord, List.mem_cons, List.not_mem_nil, or_false] at h
  obtain rfl | rfl | rfl | rfl := h
  · exact ⟨.always, "", "", rfl⟩
  · exact ⟨.never, "", "", rfl⟩
  · exact ⟨.always, "always_", "", rfl⟩
  · exact ⟨.never, "always_", "", rfl⟩

end RestartPolicy

open RestartPolicy (HoldsWord)

/-! ## 2. Rows -/

namespace Row

/-- The row has a state, and it is one of the words. -/
def HasState (row : Row) : Prop := ∃ word, row.get? "state" = some word ∧ IsWord word

/-- **A rendered row**: its state is one of the words, and so is its restart setting if it has one. -/
structure Rendered (row : Row) : Prop where
  state : row.HasState
  restart : ∀ text, row.get? "auto_restart" = some text → IsWord text

/-- The state of the row is one of the words, and its restart setting is a text around a word. -/
structure Embellished (row : Row) : Prop where
  state : row.HasState
  restart : ∃ text, row.get? "auto_restart" = some text ∧ ¬ IsWord text ∧ HoldsWord text

/-- What is wrong with a row. The state is looked at first. -/
inductive Faulty (row : Row) : String → Prop where
  | noState (h : row.get? "state" = none) : Faulty row "missing field 'state'"
  | state {word : String} (h : row.get? "state" = some word) (hword : ¬ IsWord word) :
    Faulty row ("invalid feature state '" ++ word ++ "'")
  | restart {text : String} (hstate : row.HasState) (h : row.get? "auto_restart" = some text)
    (htext : ¬ HoldsWord text) : Faulty row ("invalid auto_restart '" ++ text ++ "'")

end Row

/-- The restart setting of the row can be read. -/
def Row.HoldsRestart (row : Row) : Prop :=
  ∀ text, row.get? "auto_restart" = some text → HoldsWord text

/-- The rows from which a feature can be read are the rendered and the embellished ones. -/
theorem Row.readable_iff (row : Row) :
    row.HasState ∧ row.HoldsRestart ↔ row.Rendered ∨ row.Embellished := by
  constructor
  · rintro ⟨hstate, hrestart⟩
    by_cases h : ∃ text, row.get? "auto_restart" = some text ∧ ¬ IsWord text
    · obtain ⟨text, htext, hword⟩ := h
      exact .inr ⟨hstate, text, htext, hword, hrestart text htext⟩
    · refine .inl ⟨hstate, fun text htext => ?_⟩
      exact Decidable.byContradiction fun hword => h ⟨text, htext, hword⟩
  · rintro (h | h)
    · exact ⟨h.state, fun text htext => RestartPolicy.holdsWord_of_isWord (h.restart text htext)⟩
    · obtain ⟨text, htext, -, hholds⟩ := h.restart
      refine ⟨h.state, fun other hother => ?_⟩
      obtain rfl := Option.some.inj (htext.symm.trans hother)
      exact hholds

/-- A setting is read unless the text of the field holds no word. -/
theorem RestartPolicy.ofRow_cases (row : Row) :
    (row.HoldsRestart ∧ ∃ r, ofRow row = .ok r) ∨
      ∃ text, row.get? "auto_restart" = some text ∧ ¬ HoldsWord text ∧
        ofRow row = .error (.refused ("invalid auto_restart '" ++ text ++ "'")) := by
  unfold ofRow Row.HoldsRestart
  cases row.get? "auto_restart" with
  | none => exact .inl ⟨nofun, _, rfl⟩
  | some text =>
    obtain ⟨hholds, r, -, hr, -⟩ | ⟨hholds, hr⟩ := parse_cases text
    · refine .inl ⟨fun other hother => ?_, r, hr⟩
      rwa [← Option.some.inj hother]
    · exact .inr ⟨text, rfl, hholds, hr⟩

namespace Feature

/-- **Reading a row**: it can be read and describes a feature, or the answer is what is wrong with it. -/
theorem ofRow_cases (name : String) (row : Row) :
    (row.HasState ∧ row.HoldsRestart ∧ ∃ f, ofRow name row = .ok f) ∨
      (¬ (row.HasState ∧ row.HoldsRestart) ∧
        ∃ message, row.Faulty message ∧ ofRow name row = .error (.refused message)) := by
  unfold ofRow
  cases hstate : row.get? "state" with
  | none =>
    refine .inr ⟨?_, _, .noState hstate, rfl⟩
    rintro ⟨⟨word, hword, -⟩, -⟩
    rw [hstate] at hword
    cases hword
  | some word =>
    dsimp only
    obtain ⟨hword, s, hparse⟩ | ⟨hword, hparse⟩ := FeatureState.parse_cases word
    · have hhas : row.HasState := ⟨word, hstate, hword⟩
      rw [hparse]
      dsimp only
      obtain ⟨hholds, r, hr⟩ | ⟨text, htext, hholds, hr⟩ := RestartPolicy.ofRow_cases row
      · rw [hr]
        exact .inl ⟨hhas, hholds, _, rfl⟩
      · rw [hr]
        exact .inr ⟨fun h => hholds (h.2 text htext), _, .restart hhas htext hholds, rfl⟩
    · rw [hparse]
      refine .inr ⟨?_, _, .state hstate hword, rfl⟩
      rintro ⟨⟨other, hother, hisWord⟩, -⟩
      obtain rfl := Option.some.inj (hstate.symm.trans hother)
      exact hword hisWord

end Feature

/-! ## 3. Embellished rows -/

/-- The row with a bare word for its restart setting. -/
def Row.withBare (row : Row) (r : RestartPolicy) : Row := row.insert "auto_restart" r.bareWord

theorem Row.get?_withBare (row : Row) (r : RestartPolicy) (field : String) :
    (row.withBare r).get? field =
      if field = "auto_restart" then some r.bareWord else row.get? field :=
  SortedMap.get?_insert row "auto_restart" field r.bareWord

theorem Row.rendered_withBare {row : Row} (h : row.HasState) (r : RestartPolicy) :
    (row.withBare r).Rendered := by
  obtain ⟨word, hstate, hword⟩ := h
  refine ⟨⟨word, ?_, hword⟩, fun text htext => ?_⟩
  · rwa [row.get?_withBare, if_neg (by decide)]
  · rw [row.get?_withBare, if_pos rfl] at htext
    rw [← Option.some.inj htext]
    cases r <;> decide

/-- **The text around the word counts for nothing**: the row describes the feature that it would
    describe with the bare word. -/
theorem Feature.ofRow_withBare (name : String) {row : Row} {text : String} {r : RestartPolicy}
    (htext : row.get? "auto_restart" = some text) (hread : RestartPolicy.parse text = .ok r)
    (hbare : RestartPolicy.parse r.bareWord = .ok r) :
    ofRow name (row.withBare r) = ofRow name row := by
  have hother : ∀ {field}, field ≠ "auto_restart" → (row.withBare r).get? field = row.get? field :=
    fun h => (row.get?_withBare r _).trans (if_neg h)
  have hrestart : RestartPolicy.ofRow (row.withBare r) = RestartPolicy.ofRow row := by
    unfold RestartPolicy.ofRow
    rw [row.get?_withBare, if_pos rfl, htext]
    exact hbare.trans hread.symm
  have hscope : FeatureScope.ofRow (row.withBare r) = FeatureScope.ofRow row := by
    unfold FeatureScope.ofRow Row.getBool?
    rw [hother (by decide), hother (by decide)]
  unfold ofRow
  rw [hother (by decide), hrestart, hscope]

/-! ## 4. Plans -/

section Plans

variable (m : FeatureManager) (name : String) (old : Row) {new : Row}

theorem isEmpty_eq_false_of_get? {row : Row} {field value : String}
    (h : row.get? field = some value) : row.isEmpty = false := by
  rw [Bool.eq_false_iff]
  intro hempty
  rw [(SortedMap.isEmpty_iff row).mp hempty] at h
  cases h

theorem plan_of_full (hnew : new.isEmpty = false) : m.plan name old new =
    (Feature.ofRow name new).map fun f => m.planFeature f old := by
  unfold FeatureManager.plan
  rw [if_neg (Bool.eq_false_iff.mp hnew)]
  cases Feature.ofRow name new <;> rfl

/-- **There is a plan for an embellished row**, that of the row with the bare word. -/
theorem plan_embellished (h : new.Embellished) : ∃ text r actions,
    new.get? "auto_restart" = some text ∧ (r = .always ↔ RestartPolicy.always.StandsIn text) ∧
    (new.withBare r).Rendered ∧ m.plan name old (new.withBare r) = .ok actions ∧
    m.plan name old new = .ok actions := by
  obtain ⟨word, hword, -⟩ := h.state
  obtain ⟨text, htext, -, hholds⟩ := h.restart
  obtain ⟨-, -, f, hf⟩ | ⟨hunread, -⟩ := Feature.ofRow_cases name new
  · obtain ⟨-, r, hstands, hread, hbare⟩ | ⟨hnone, -⟩ := RestartPolicy.parse_cases text
    · have halways : r = .always ↔ RestartPolicy.always.StandsIn text := by
        refine ⟨fun h => h ▸ hstands, ?_⟩
        intro h
        exact Except.ok.inj (hread.symm.trans ((RestartPolicy.parse_eq text).1 h))
      have hsetting : (new.withBare r).get? "auto_restart" = some r.bareWord :=
        (new.get?_withBare r _).trans (if_pos rfl)
      refine ⟨text, r, m.planFeature f old, htext, halways, Row.rendered_withBare h.state r, ?_, ?_⟩
      · rw [plan_of_full m name old (isEmpty_eq_false_of_get? hsetting),
          Feature.ofRow_withBare name htext hread hbare, hf]
        rfl
      · rw [plan_of_full m name old (isEmpty_eq_false_of_get? hword), hf]
        rfl
    · exact absurd hholds hnone
  · exact absurd (new.readable_iff.mpr (.inr h)) hunread

/-- **Which rows drive the host**, of those that are not empty, from any old row. If a row is not
    embellished, there is a plan for it exactly if it is rendered, and else a refusal that says what is
    wrong with it. For an embellished row there is the plan for the row with the bare word: with
    `enabled` if this word stands in the text, and else with `disabled`. -/
theorem planned_iff_rendered (hnew : new.isEmpty = false) :
    (¬ new.Embellished → (new.Rendered → ∃ actions, m.plan name old new = .ok actions) ∧
      (¬ new.Rendered → ∃ message, new.Faulty message ∧
        m.plan name old new = .error (.refused message))) ∧
    (new.Embellished → ∃ text r actions, new.get? "auto_restart" = some text ∧
      (r = .always ↔ RestartPolicy.always.StandsIn text) ∧ (new.withBare r).Rendered ∧
      m.plan name old (new.withBare r) = .ok actions ∧ m.plan name old new = .ok actions) := by
  refine ⟨?_, plan_embellished m name old⟩
  intro hplain
  have hrendered : new.HasState ∧ new.HoldsRestart ↔ new.Rendered :=
    new.readable_iff.trans (or_iff_left hplain)
  rw [plan_of_full m name old hnew, ← hrendered]
  obtain ⟨hstate, hrestart, f, hf⟩ | ⟨hunread, message, hfaulty, hrefused⟩ :=
    Feature.ofRow_cases name new
  · rw [hf]
    exact ⟨fun _ => ⟨_, rfl⟩, fun hnot => absurd ⟨hstate, hrestart⟩ hnot⟩
  · rw [hrefused]
    exact ⟨fun h => absurd h hunread, fun _ => ⟨message, hfaulty, rfl⟩⟩

end Plans

/-- A template around a word, as it stands before it is filled in. -/
def templateText : String := "\x7b% if not DEVICE_RUNTIME_METADATA %\x7denabled\x7b% endif %\x7d"

/-- A row whose state is such a text. -/
def templateState : Row := .ofList [("state", templateText)]

/-- A row whose restart setting is such a text. -/
def templateRestart : Row := .ofList [("auto_restart", templateText), ("state", "enabled")]

theorem not_isWord_template : ¬ IsWord templateText := by decide

/-- **A template for the state** is refused. -/
theorem planned_iff_rendered_template :
    templateState.isEmpty = false ∧ ¬ templateState.Rendered ∧
    ∃ message, templateState.Faulty message ∧
      ({} : FeatureManager).plan "ntp" .empty templateState = .error (.refused message) := by
  have hfull : templateState.isEmpty = false := by decide +kernel
  have hstateless : ¬ templateState.HasState := by
    rintro ⟨word, hword, hisWord⟩
    have htemplate : templateState.get? "state" = some templateText := by decide +kernel
    rw [htemplate] at hword
    exact not_isWord_template (Option.some.inj hword ▸ hisWord)
  have hunrendered : ¬ templateState.Rendered := fun h => hstateless h.state
  exact ⟨hfull, hunrendered, ((planned_iff_rendered {} "ntp" .empty hfull).1
    fun h => hstateless h.state).2 hunrendered⟩

/-- **A template for the restart setting** is taken for the word in it: the unit comes back by itself,
    whatever the template would have said. -/
theorem template_planned :
    templateRestart.isEmpty = false ∧
    templateRestart.get? "auto_restart" = some templateText ∧ ¬ IsWord templateText ∧
    ({} : FeatureManager).plan "ntp" .empty templateRestart =
      .ok [.writeFile "/etc/systemd/system/ntp.service.d/auto_restart.conf"
          RestartPolicy.always.dropIn, .managerReload, .service "ntp.service" .unmask,
        .service "ntp.service" .enable, .service "ntp.service" .start] :=
  ⟨by decide +kernel, by decide +kernel, not_isWord_template, rfl⟩

end Converge

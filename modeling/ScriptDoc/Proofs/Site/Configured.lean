import ScriptDoc.Proofs.Site.History

/-!
# Configured — the options that a session works with

Neither a start nor a page changes the options of a site. So a session works with those that it was
given last, whatever has happened since.

- `Site.config_start`, `Site.config_page` : what keeps the options
- `Session.optionsAfter`                  : the options given last, after one more step
- `Session.HasOptions`                    : a session that works with them
- `Session.hasOptions_step`, `Session.hasOptions_run` : every session does
-/

namespace ScriptDoc

namespace Site

variable (site : Site) (tree : FileTree)

theorem config_start (file : ConfigFile) : (site.start tree file).site.config = site.config := by
  cases hroot : newRoot? site.config tree file with
  | none =>
      rw [site_start_of_no_root hroot]
  | some root =>
      rw [start_of_newRoot hroot]
      exact (settings_warm (site.movedTo root) tree).1

theorem config_answer (metadata : Metadata) (options : Keyed String) :
    (site.answer tree metadata options).site.config = site.config := by
  cases hfile : (fileOf options).isEmpty with
  | true =>
      rw [answer_of_no_file hfile]
  | false =>
      rw [answer_of_file hfile]
      exact (settings_entitiesOf site tree _).1

theorem config_page (metadata : Metadata) (markdown : String) :
    (site.page tree metadata markdown).site.config = site.config :=
  @segments_keep _ _ (fun next site => next.config = site.config) (fun _ => rfl)
    (fun hnext hsite => hnext.trans hsite)
    (fun site metadata options => config_answer site tree metadata options)
    site metadata (Segment.ofPage markdown.toList).1

end Site

namespace Session

/-- The options that were given last, after one more step. -/
def optionsAfter (given : Option (Keyed Value)) : Step → Option (Keyed Value)
  | .configure options => some options
  | _ => given

/-- The options that were given last in a run, if any were. -/
def givenOptions (steps : List Step) : Option (Keyed Value) :=
  steps.foldl optionsAfter none

/-- The session works with the options that it was given, or with none yet. -/
def HasOptions (session : Session) : Option (Keyed Value) → Prop
  | none => session.isConfigured = false
  | some options => session.isConfigured = true ∧ session.site.config = (Config.load options).1

variable {session next : Session} {given : Option (Keyed Value)}

theorem HasOptions.of_same (h : session.HasOptions given)
    (hconfigured : next.isConfigured = session.isConfigured)
    (hconfig : next.site.config = session.site.config) : next.HasOptions given := by
  cases given with
  | none => exact hconfigured.trans h
  | some options => exact ⟨hconfigured.trans h.1, hconfig.trans h.2⟩

theorem config_start (session : Session) (file : Site.ConfigFile) :
    (session.start file).site.config = session.site.config := by
  unfold start
  split
  · exact Site.config_start session.site session.tree file
  · rfl

theorem config_page (session : Session) (metadata : Metadata) (markdown : String) :
    (session.page metadata markdown).site.config = session.site.config := by
  unfold page
  split
  · exact Site.config_page session.site session.tree metadata markdown
  · rw [Site.site_pageUnconfigured]

/-- One step gives options or leaves them. -/
theorem hasOptions_step (h : session.HasOptions given) (step : Step) :
    (session.step step).1.HasOptions (optionsAfter given step) := by
  cases step with
  | configure options =>
      exact ⟨rfl, rfl⟩
  | start file =>
      exact h.of_same rfl (config_start session file)
  | page name more markdown =>
      exact h.of_same rfl (config_page session _ markdown)
  | _ =>
      exact h.of_same rfl rfl

theorem hasOptions_run (h : session.HasOptions given) (steps : List Step) :
    (session.run steps).1.HasOptions (steps.foldl optionsAfter given) := by
  induction steps generalizing session given with
  | nil =>
      exact h
  | cons step steps ih =>
      exact ih (hasOptions_step h step)

end Session
end ScriptDoc

import DemoPages.Cli
import DemoPages.Proofs.Layers

/-!
# Which bad configurations are reported

A bad value in the configuration is reported in words, and the command ends with a failure. But
loading is not prepared for every configuration: `Settings.Unforeseen` lists those at which it fails
in a way that no command reports, whatever the environment and the overrides are. `Cli.refusals`
says that these are all, and what a command does in either case.
-/

namespace DemoPages

namespace Settings

/-- A configuration that loading is not prepared for. -/
inductive Unforeseen (reader : Reader) (d : Disk) : Prop where
  /-- It is a directory. -/
  | directory (h : d.isDirectory configFile = true)
  /-- Its reader is not prepared for it. -/
  | reader {message : String} (h : config reader d = .error (.document (.unprepared message)))
  /-- It is no mapping, and not nothing either. -/
  | noMapping {document : Document} (h : config reader d = .ok document)
    (other : document.entries? = none)
  /-- One of its keys is no string. -/
  | badKey {document : Document} {entries : List (Key × Given)} {value : Given}
    (h : config reader d = .ok document) (mapping : document.entries? = some entries)
    (entry : (.other, value) ∈ entries)

variable {reader : Reader} {d : Disk} {environment : List (String × Given)}
  {overrides : List (String × Option Given)} {f : Fault}

/-- The configuration cannot be read from the disk if and only if it is a directory. -/
theorem config_disk :
    (∃ g, config reader d = .error (.disk g)) ↔ d.isDirectory configFile = true := by
  unfold config Disk.isDirectory Disk.find? Disk.readBytes
  cases hlocate : d.locate configFile with
  | error cause => simp
  | ok place =>
    cases hlook : d.look? place with
    | none => simp [hlook]
    | some entry =>
      cases entry with
      | directory => simp [hlook]
      | file bytes =>
        simp only [hlook, Option.isNone_some, Bool.false_eq_true, if_false, iff_false]
        rintro ⟨g, h⟩
        split at h
        · cases h
        · rename_i text _
          cases hread : reader text <;> rw [hread] at h <;> cases h

/-- What goes wrong while the configuration is read is a fault of the disk, of the text or of the
reader. -/
theorem config_error (h : config reader d = .error f) :
    (∃ g, f = .disk g) ∨ (∃ g, f = .undecodable g) ∨ ∃ g, f = .document g := by
  unfold config at h
  split at h
  · cases h
  · split at h
    · cases h
      exact Or.inl ⟨_, rfl⟩
    · split at h
      · cases h
        exact Or.inr (Or.inl ⟨_, rfl⟩)
      · rename_i text _
        cases hread : reader text <;> rw [hread] at h <;> cases h
        exact Or.inr (Or.inr ⟨_, rfl⟩)

/-- A document for which there are no settings, and which is not reported either, is no mapping or
has a key that is no string. -/
theorem ofDocument_unreported {document : Document} :
    (∃ f, ofDocument environment overrides document = .error f ∧ f.isReported = false) ↔
      document.entries? = none ∨
        ∃ entries, document.entries? = some entries ∧ ∃ e ∈ entries, e.1 = .other := by
  cases hentries : document.entries? with
  | none =>
    simp only [ofDocument, hentries]
    refine iff_of_true ⟨_, rfl, ?_⟩ (Or.inl trivial)
    split <;> rfl
  | some entries =>
    simp only [reduceCtorEq, false_or, Option.some.injEq, exists_eq_left']
    cases htexts : texts? entries with
    | none =>
      exact iff_of_true ⟨.badKey, by simp only [ofDocument, hentries, htexts], rfl⟩
        (texts?_eq_none.1 htexts)
    | some texts =>
      refine iff_of_false ?_ fun hkey => ?_
      · rintro ⟨f, h, unreported⟩
        rw [ofDocument_mapping hentries htexts] at h
        cases hvalues : ofValues (given environment overrides entries) <;> rw [hvalues] at h <;>
          cases h
        cases unreported
      · rw [texts?_eq_none.2 hkey] at htexts
        cases htexts

/-- Loading fails in a way that is not reported if and only if the configuration is unforeseen. -/
theorem load_unreported (environment : List (String × Given))
    (overrides : List (String × Option Given)) :
    (∃ f, load reader d environment overrides = .error f ∧ f.isReported = false) ↔
      Unforeseen reader d := by
  unfold load
  cases hconfig : config reader d with
  | error f =>
    constructor
    · rintro ⟨f, heq, unreported⟩
      cases heq
      rcases config_error hconfig with ⟨g, rfl⟩ | ⟨g, rfl⟩ | ⟨g, rfl⟩
      · exact .directory (config_disk.1 ⟨g, hconfig⟩)
      · cases unreported
      · cases g with
        | malformed details => cases unreported
        | badValue message => cases unreported
        | unprepared message => exact .reader hconfig
    · intro h
      refine ⟨f, rfl, ?_⟩
      cases h with
      | directory h =>
        obtain ⟨g, hg⟩ := config_disk.2 h
        cases hconfig.symm.trans hg
        rfl
      | reader h =>
        cases hconfig.symm.trans h
        rfl
      | noMapping h other => cases hconfig.symm.trans h
      | badKey h mapping entry => cases hconfig.symm.trans h
  | ok document =>
    refine ofDocument_unreported.trans ⟨?_, fun h => ?_⟩
    · rintro (other | ⟨entries, mapping, ⟨key, value⟩, hentry, rfl⟩)
      · exact .noMapping hconfig other
      · exact .badKey hconfig mapping hentry
    · cases h with
      | directory h =>
        obtain ⟨g, hg⟩ := config_disk.2 h
        cases hconfig.symm.trans hg
      | reader h => cases hconfig.symm.trans h
      | noMapping h other =>
        cases hconfig.symm.trans h
        exact Or.inl other
      | badKey h mapping entry =>
        cases hconfig.symm.trans h
        exact Or.inr ⟨_, mapping, _, entry, rfl⟩

end Settings

namespace Cli

open Settings

variable {tools : Tools} {d : Disk} {s : Settings} {path : String}

/-- Once there are settings, no fault of theirs escapes. -/
theorem escaped_transform (f : Settings.Fault) :
    (transform tools s path d).1.escaped ≠ some (.settings f) := by
  unfold transform
  simp only
  split <;> simp [Outcome.failing, Outcome.escaping, Outcome.printing]

theorem escaped_inspect (f : Settings.Fault) :
    (inspect tools s path d).escaped ≠ some (.settings f) := by
  unfold inspect
  split
  · split <;> simp [Outcome.failing, Outcome.printing]
  · simp [Outcome.failing]

/-- **Loading reports all faults of a configuration, unless the configuration is unforeseen.**
Otherwise there are settings, or there is a fault that is reported: a command prints it behind
`Error:`, exits with status 1 and does nothing else. For an unforeseen configuration, every command
fails with a fault that escapes. The environment and the overrides make no difference, and this
holds of any reader of configurations, whose faults say themselves whether it was prepared for the
text. -/
theorem refusals (tools : Tools) (d : Disk) (environment : List (String × Given)) :
    let reader := tools.configuration
    (∀ overrides, (∃ s, load reader d environment overrides = .ok s) ∨
        (∃ f, load reader d environment overrides = .error f ∧ f.isReported = true) ↔
      ¬ Unforeseen reader d) ∧
    ∀ words c, Request.ofArguments words = .command c →
      (∀ f, load reader d environment c.overrides = .error f → f.isReported = true →
        run tools environment words d =
          ({ status := 1, err := "Error: " ++ f.message ++ "\n" }, d)) ∧
      (Unforeseen reader d → ∃ f, f.isReported = false ∧
        run tools environment words d = ({ status := 1, escaped := some (.settings f) }, d)) ∧
      (¬ Unforeseen reader d →
        ∀ f, (run tools environment words d).1.escaped ≠ some (.settings f)) := by
  intro reader
  refine ⟨fun overrides => ?_, fun words c command =>
    ⟨fun f h reported => ?_, fun h => ?_, fun h f => ?_⟩⟩
  · rw [← load_unreported environment overrides]
    cases load reader d environment overrides with
    | ok s => simp
    | error f => simp
  · simp only [run, command,
      show load tools.configuration d environment c.overrides = .error f from h, reported, if_true]
    simp [Outcome.failing]
  · obtain ⟨f, hload, unreported⟩ := (load_unreported environment c.overrides).2 h
    refine ⟨f, unreported, ?_⟩
    simp [run, command,
      show load tools.configuration d environment c.overrides = .error f from hload, unreported,
      Outcome.escaping]
  · unfold run
    simp only [command]
    cases hload : load tools.configuration d environment c.overrides with
    | error g =>
      have reported : g.isReported = true := by
        by_contra hnot
        exact h ((load_unreported environment c.overrides).1 ⟨g, hload, by simpa using hnot⟩)
      simp [reported, Outcome.failing]
    | ok s =>
      cases c.verb with
      | transform => exact escaped_transform f
      | inspect => exact escaped_inspect f

/-- A bracket that is not closed is reported. -/
theorem refusals_bracket :
    let d : Disk := ⟨[], ⟨[(["config.yaml"], .file (Text.Percent.utf8 "root: [a\n".toList))]⟩⟩
    run .own [] ["inspect", "x.md"] d =
      ({ status := 1, err := "Error: Invalid config.yaml: the text is malformed\n" }, d) := by
  intro d
  have command : Request.ofArguments ["inspect", "x.md"] = .command ⟨.inspect, "x.md", []⟩ := by
    decide +kernel
  exact ((refusals .own d []).2 _ _ command).1 (.document (.malformed "the text is malformed"))
    (by decide +kernel) rfl

/-- A list is a configuration that is not reported. -/
theorem list_not_reported :
    let d : Disk := ⟨[], ⟨[(["config.yaml"], .file (Text.Percent.utf8 "- a\n".toList))]⟩⟩
    load Document.ofText d [] [] = .error .noMapping ∧ Fault.noMapping.isReported = false ∧
      run .own [] ["inspect", "x.md"] d =
        ({ status := 1, escaped := some (.settings .noTarget) }, d) := by
  intro d
  have command : Request.ofArguments ["inspect", "x.md"] = .command ⟨.inspect, "x.md", []⟩ := by
    decide +kernel
  have hload : load Tools.own.configuration d [] (Command.overrides ⟨.inspect, "x.md", []⟩) =
      .error .noTarget := by
    decide +kernel
  refine ⟨by decide +kernel, rfl, ?_⟩
  simp only [run, command, hload]
  rfl

end Cli

end DemoPages

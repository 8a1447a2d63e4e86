import DentryWatch.Proofs.Disk.Entries
import DentryWatch.Proofs.Settings.Fields
import DentryWatch.Settings.Document

/-!
# Layers of settings

The settings of the user and those of the project are each read from a file, and
a file that is missing stands for the defaults. Which of the two a field comes
from is known for every pair of files that can be read.
-/

namespace DentryWatch.Settings

/-- The settings a file gives, the defaults if there is none. -/
def layerAt (disk : Disk) : Option Path → Except LoadError Settings
  | none => .ok {}
  | some path => (ofFile? disk path).map (·.getD {})

/-- Loading reads the layer below, then the layer above, and lays one over the other. -/
theorem load_eq (disk : Disk) (global : Option Path) (project : Path) :
    load disk global project = (do
      let lower ← layerAt disk global
      let upper ← layerAt disk (some project)
      .ok (lower.layer upper)) := by
  unfold load
  dsimp only [layerAt]
  cases ofFile? disk project with
  | error cause => cases global <;> rfl
  | ok found =>
      cases found with
      | none =>
          -- without a file of the project the layer above is the default
          cases global with
          | none => exact congrArg Except.ok (layer_default {}).symm
          | some path =>
              dsimp only
              cases (ofFile? disk path).map (·.getD {}) with
              | error cause => rfl
              | ok lower => exact congrArg Except.ok lower.layer_default.symm
      | some upper => cases global <;> rfl

/-- A file with a document gives the settings of the document. -/
theorem layerAt_file {disk : Disk} {directory : Path} {top : Location} {name : String}
    {inode : Nat} (text : String) {settings : Settings} (h : disk.Leads directory top)
    (hname : FileName.Proper (Path.ofText name))
    (hcheck : (directory.child name).check = .ok ())
    (hfile : disk.find? (top ++ [Path.ofText name]) = some (.file inode))
    (htext : Utf8.decode? (disk.content inode) = some text)
    (hsettings : ofText? text = some settings) :
    layerAt disk (some (directory.child name)) = .ok settings := by
  have hexists : disk.pathExists (directory.child name) = true := by
    rw [Disk.pathExists, h.stat_file hname hcheck hfile]
    rfl
  have hread : disk.readText (directory.child name) = .ok text := by
    rw [Disk.readText, h.readBytes_file hname hcheck hfile]
    simp only [htext]
  rw [layerAt, ofFile?, hexists, hread]
  simp only [hsettings, Bool.not_true, Bool.false_eq_true, if_false]
  rfl

/--
From two layers that can be read the settings are loaded. The fields of the probe and of
the trace are laid one by one. Every other field is, too, unless it is clobbered: then it
is reset to the default it has in the upper layer.
-/
theorem load_lays_unless_clobbered {disk : Disk} {global : Option Path} {project : Path}
    {lower upper : Settings} (hlower : layerAt disk global = .ok lower)
    (hupper : layerAt disk (some project) = .ok upper) :
    ∃ loaded, load disk global project = .ok loaded ∧
      (∀ field : SettingsField, field.part.whole = false → field.Laid lower upper loaded) ∧
      ∀ field : SettingsField, (field.Laid lower upper loaded ↔ ¬ field.Clobbered lower upper) ∧
        (field.Clobbered lower upper →
          field.get loaded = field.get upper ∧ field.isDefault loaded = true) := by
  refine ⟨lower.layer upper, ?_, ?_, ?_⟩
  · rw [load_eq, hlower, hupper]
    rfl
  · intro field hpart
    refine SettingsField.laid_layer_iff.2 fun hclobbered => ?_
    rw [hclobbered.whole] at hpart
    cases hpart
  · intro field
    refine ⟨SettingsField.laid_layer_iff, fun hclobbered => ?_⟩
    have hvalue := hclobbered.get_layer
    refine ⟨hvalue, ?_⟩
    rw [SettingsField.isDefault, hvalue]
    exact hclobbered.default

/-! ## Two files that set different fields of one section -/

def userText : String := "[monitor]\npoll_interval_secs = 7\n"

def projectText : String := "[monitor]\nlisten = \"127.0.0.1:9\"\n"

def twoLayers : Disk where
  nodes := [([], .directory 2), ([Path.ofText "user.toml"], .file 3),
    ([Path.ofText "project.toml"], .file 4)]
  contents := [(3, Utf8.encode userText),
    (4, Utf8.encode projectText)]
  nextInode := 5

theorem leads_twoLayers : twoLayers.Leads (Path.ofText "/") [] :=
  Disk.leads_root (by decide) ⟨2, rfl⟩

theorem layerAt_twoLayers :
    layerAt twoLayers (some (Path.ofText "/user.toml")) =
        .ok { monitor := { pollSeconds := 7 } } ∧
      layerAt twoLayers (some (Path.ofText "/project.toml")) =
        .ok { monitor := { listen := "127.0.0.1:9" } } := by
  have hproper : FileName.Proper (Path.ofText "user.toml") ∧
      FileName.Proper (Path.ofText "project.toml") :=
    ⟨⟨by decide, by decide, by decide, by decide, by decide⟩,
      ⟨by decide, by decide, by decide, by decide, by decide⟩⟩
  have hchild : (Path.ofText "/").child "user.toml" = Path.ofText "/user.toml" ∧
      (Path.ofText "/").child "project.toml" = Path.ofText "/project.toml" := by decide
  rw [← hchild.1, ← hchild.2]
  exact ⟨layerAt_file userText leads_twoLayers hproper.1 (by decide) rfl (by decide +kernel)
      (by decide +kernel),
    layerAt_file projectText leads_twoLayers hproper.2 (by decide) rfl (by decide +kernel)
      (by decide +kernel)⟩

/-- A project that sets the address of the monitor resets its poll interval. -/
theorem load_lays_unless_clobbered_two :
    layerAt twoLayers (some (Path.ofText "/user.toml")) =
        .ok { monitor := { pollSeconds := 7 } } ∧
      layerAt twoLayers (some (Path.ofText "/project.toml")) =
        .ok { monitor := { listen := "127.0.0.1:9" } } ∧
      ∃ loaded, load twoLayers (some (Path.ofText "/user.toml")) (Path.ofText "/project.toml") =
          .ok loaded ∧
        SettingsField.listen.Laid { monitor := { pollSeconds := 7 } }
          { monitor := { listen := "127.0.0.1:9" } } loaded ∧
        SettingsField.pollSeconds.get loaded = 5 := by
  obtain ⟨hlower, hupper⟩ := layerAt_twoLayers
  obtain ⟨loaded, hload, -, hfields⟩ := load_lays_unless_clobbered hlower hupper
  refine ⟨hlower, hupper, loaded, hload, ?_, ?_⟩
  · refine (hfields .listen).1.2 fun hclobbered => ?_
    have hdefault := hclobbered.default
    revert hdefault
    decide
  · have hclobbered : SettingsField.pollSeconds.Clobbered { monitor := { pollSeconds := 7 } }
        { monitor := { listen := "127.0.0.1:9" } } :=
      ⟨by decide, by decide, ⟨.listen, by decide, by decide⟩, by decide⟩
    exact ((hfields .pollSeconds).2 hclobbered).1

/-- Laying settings over others is not field by field. -/
theorem load_clobbers :
    ¬ ∀ (disk : Disk) (global : Option Path) (project : Path) (lower upper loaded : Settings),
      layerAt disk global = .ok lower → layerAt disk (some project) = .ok upper →
      load disk global project = .ok loaded →
      ∀ field : SettingsField, field.Laid lower upper loaded := by
  intro hlaid
  obtain ⟨hlower, hupper⟩ := layerAt_twoLayers
  have hload : load twoLayers (some (Path.ofText "/user.toml")) (Path.ofText "/project.toml") =
      .ok { monitor := { listen := "127.0.0.1:9" } } := by
    rw [load_eq, hlower, hupper]
    decide
  have hpoll := hlaid _ _ _ _ _ _ hlower hupper hload .pollSeconds
  revert hpoll
  unfold SettingsField.Laid
  decide

end DentryWatch.Settings

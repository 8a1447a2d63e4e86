import DentryWatch.Settings.Basic

/-!
# Settings field by field

The settings have eighteen fields in five sections. Of two sections the fields
are laid over others one by one; of the other three all fields come from one
side, and which one is decided by all of them together.
-/

namespace DentryWatch

inductive SettingsPart where
  | probe | trace | report | generator | monitor
deriving DecidableEq, Repr

inductive SettingsField where
  | tableCapacity | ringBytes | tracing
  | dir | maxSizeMb | maxFiles | patterns | flushMillis
  | procRoot | cgroupRoot
  | rate | perDir | mode | max
  | listen | pollSeconds | resolveSeconds | rescanSeconds
deriving DecidableEq, Repr

namespace SettingsField

def part : SettingsField → SettingsPart
  | tableCapacity | ringBytes | tracing => .probe
  | dir | maxSizeMb | maxFiles | patterns | flushMillis => .trace
  | procRoot | cgroupRoot => .report
  | rate | perDir | mode | max => .generator
  | listen | pollSeconds | resolveSeconds | rescanSeconds => .monitor

abbrev Value : SettingsField → Type
  | tracing => Bool
  | dir | procRoot | cgroupRoot => Path
  | patterns => List String
  | mode | listen => String
  | tableCapacity | ringBytes | maxSizeMb | maxFiles | flushMillis | rate | perDir | max
  | pollSeconds | resolveSeconds | rescanSeconds => UInt64

def get : (field : SettingsField) → Settings → field.Value
  | tableCapacity, settings => settings.probe.tableCapacity
  | ringBytes, settings => settings.probe.ringBytes
  | tracing, settings => settings.probe.tracing
  | dir, settings => settings.trace.dir
  | maxSizeMb, settings => settings.trace.maxSizeMb
  | maxFiles, settings => settings.trace.maxFiles
  | patterns, settings => settings.trace.patterns
  | flushMillis, settings => settings.trace.flushMillis
  | procRoot, settings => settings.report.procRoot
  | cgroupRoot, settings => settings.report.cgroupRoot
  | rate, settings => settings.generator.rate
  | perDir, settings => settings.generator.perDir
  | mode, settings => settings.generator.mode
  | max, settings => settings.generator.max
  | listen, settings => settings.monitor.listen
  | pollSeconds, settings => settings.monitor.pollSeconds
  | resolveSeconds, settings => settings.monitor.resolveSeconds
  | rescanSeconds, settings => settings.monitor.rescanSeconds

/-- Whether two values of a field agree, paths compared by their parts. -/
def same : (field : SettingsField) → field.Value → field.Value → Bool
  | dir | procRoot | cgroupRoot => Path.same
  | tracing => fun (a b : Bool) => a == b
  | patterns => fun (a b : List String) => a == b
  | mode | listen => fun (a b : String) => a == b
  | tableCapacity | ringBytes | maxSizeMb | maxFiles | flushMillis | rate | perDir | max
  | pollSeconds | resolveSeconds | rescanSeconds => fun (a b : UInt64) => a == b

def isDefault (field : SettingsField) (settings : Settings) : Bool :=
  field.same (field.get settings) (field.get {})

theorem same_refl (field : SettingsField) (value : field.Value) :
    field.same value value = true := by
  cases field <;> simp [same, Path.same]

theorem isDefault_default (field : SettingsField) : field.isDefault {} = true :=
  field.same_refl _

/-- Settings are known by their fields. -/
theorem ext_get {settings other : Settings}
    (h : ∀ field : SettingsField, field.get settings = field.get other) : settings = other := by
  obtain ⟨probe, trace, report, generator, monitor⟩ := settings
  obtain ⟨probe', trace', report', generator', monitor'⟩ := other
  have hprobe : probe = probe' := by
    cases probe
    cases probe'
    exact (ProbeSettings.mk.injEq ..).mpr ⟨h .tableCapacity, h .ringBytes, h .tracing⟩
  have htrace : trace = trace' := by
    cases trace
    cases trace'
    exact (TraceSettings.mk.injEq ..).mpr
      ⟨h .dir, h .maxSizeMb, h .maxFiles, h .patterns, h .flushMillis⟩
  have hreport : report = report' := by
    cases report
    cases report'
    exact (ReportSettings.mk.injEq ..).mpr ⟨h .procRoot, h .cgroupRoot⟩
  have hgenerator : generator = generator' := by
    cases generator
    cases generator'
    exact (GeneratorSettings.mk.injEq ..).mpr ⟨h .rate, h .perDir, h .mode, h .max⟩
  have hmonitor : monitor = monitor' := by
    cases monitor
    cases monitor'
    exact (MonitorSettings.mk.injEq ..).mpr
      ⟨h .listen, h .pollSeconds, h .resolveSeconds, h .rescanSeconds⟩
  rw [hprobe, htrace, hreport, hgenerator, hmonitor]

end SettingsField

namespace SettingsPart

def fields : SettingsPart → List SettingsField
  | probe => [.tableCapacity, .ringBytes, .tracing]
  | trace => [.dir, .maxSizeMb, .maxFiles, .patterns, .flushMillis]
  | report => [.procRoot, .cgroupRoot]
  | generator => [.rate, .perDir, .mode, .max]
  | monitor => [.listen, .pollSeconds, .resolveSeconds, .rescanSeconds]

/-- Whether the fields of a section are laid over others together. -/
def whole : SettingsPart → Bool
  | probe | trace => false
  | report | generator | monitor => true

theorem mem_fields (part : SettingsPart) (field : SettingsField) :
    field ∈ part.fields ↔ field.part = part := by
  cases field <;> cases part <;> decide

def isDefault (part : SettingsPart) (settings : Settings) : Bool :=
  part.fields.all fun field => field.isDefault settings

theorem isDefault_eq_false {part : SettingsPart} {settings : Settings} :
    part.isDefault settings = false ↔
      ∃ field : SettingsField, field.part = part ∧ field.isDefault settings = false := by
  simp only [isDefault, List.all_eq_false, mem_fields, Bool.not_eq_true]

theorem isDefault_report (settings : Settings) :
    settings.report.same {} = SettingsPart.report.isDefault settings := by
  simp [isDefault, fields, SettingsField.isDefault, SettingsField.same, SettingsField.get,
    ReportSettings.same]

theorem isDefault_generator (settings : Settings) :
    (settings.generator == {}) = SettingsPart.generator.isDefault settings := by
  obtain ⟨_, _, _, ⟨rate, perDir, mode, max⟩, _⟩ := settings
  rw [Bool.eq_iff_iff, beq_iff_eq, GeneratorSettings.mk.injEq]
  simp [isDefault, fields, SettingsField.isDefault, SettingsField.same, SettingsField.get]

theorem isDefault_monitor (settings : Settings) :
    (settings.monitor == {}) = SettingsPart.monitor.isDefault settings := by
  obtain ⟨_, _, _, _, ⟨listen, poll, resolve, rescan⟩⟩ := settings
  rw [Bool.eq_iff_iff, beq_iff_eq, MonitorSettings.mk.injEq]
  simp [isDefault, fields, SettingsField.isDefault, SettingsField.same, SettingsField.get]

end SettingsPart

namespace SettingsField

variable {field : SettingsField} {lower upper loaded : Settings}

/-- Whether the upper settings leave a field to those below. -/
def yields (field : SettingsField) (upper : Settings) : Bool :=
  if field.part.whole then field.part.isDefault upper else field.isDefault upper

theorem yields_of_part (h : field.part.isDefault upper = true) : field.yields upper = true := by
  have hfield : field.isDefault upper = true :=
    List.all_eq_true.1 h field ((field.part.mem_fields field).2 rfl)
  simp [yields, h, hfield]

/-- Each field comes from the upper settings unless they yield it. -/
theorem get_layer (field : SettingsField) (lower upper : Settings) :
    field.get (lower.layer upper) =
      if field.yields upper then field.get lower else field.get upper := by
  have hreport : ReportSettings.same upper.report ({} : Settings).report =
      SettingsPart.report.isDefault upper := SettingsPart.isDefault_report upper
  have hgenerator : (upper.generator == ({} : Settings).generator) =
      SettingsPart.generator.isDefault upper := SettingsPart.isDefault_generator upper
  have hmonitor : (upper.monitor == ({} : Settings).monitor) =
      SettingsPart.monitor.isDefault upper := SettingsPart.isDefault_monitor upper
  cases field
  case tableCapacity | ringBytes | tracing | dir | maxSizeMb | maxFiles | patterns
      | flushMillis => rfl
  all_goals
    simp only [get, yields, part, SettingsPart.whole, if_true, Settings.layer, Settings.overlay,
      hreport, hgenerator, hmonitor]
    split <;> rfl

/-- A field has the upper value where that is not the default, else the lower one. -/
def Laid (field : SettingsField) (lower upper loaded : Settings) : Prop :=
  field.same (field.get loaded)
    (if field.isDefault upper then field.get lower else field.get upper) = true

/--
The upper settings clobber a field they leave at its default: it goes with another
field of its section, which they set, and the value below is lost.
-/
structure Clobbered (field : SettingsField) (lower upper : Settings) : Prop where
  whole : field.part.whole = true
  default : field.isDefault upper = true
  sibling : ∃ other : SettingsField, other.part = field.part ∧ other.isDefault upper = false
  differs : field.same (field.get upper) (field.get lower) = false

theorem Clobbered.get_layer (h : field.Clobbered lower upper) :
    field.get (lower.layer upper) = field.get upper := by
  have hpart : field.part.isDefault upper = false := SettingsPart.isDefault_eq_false.2 h.sibling
  rw [field.get_layer lower upper, yields, if_pos h.whole, hpart]
  rfl

theorem laid_layer_iff : field.Laid lower upper (lower.layer upper) ↔
    ¬ field.Clobbered lower upper := by
  by_cases hclobbered : field.Clobbered lower upper
  · have hvalue := hclobbered.get_layer
    simp [Laid, hvalue, hclobbered, hclobbered.default, hclobbered.differs]
  · refine iff_of_true ?_ hclobbered
    rw [Laid, field.get_layer lower upper]
    cases hdefault : field.isDefault upper with
    | false =>
        have hyields : field.yields upper = false := by
          have hpart : field.part.isDefault upper = false :=
            SettingsPart.isDefault_eq_false.2 ⟨field, rfl, hdefault⟩
          simp [yields, hpart, hdefault]
        simp [hyields, same_refl]
    | true =>
        cases hyields : field.yields upper with
        | true => simp [same_refl]
        | false =>
            -- a default field that is not left to the lower settings goes with its section
            have hwhole : field.part.whole = true := by
              cases hwhole : field.part.whole with
              | true => rfl
              | false => simp [yields, hwhole, hdefault] at hyields
            rw [yields, if_pos hwhole] at hyields
            cases hsame : field.same (field.get upper) (field.get lower) with
            | true => simpa using hsame
            | false =>
                exact absurd ⟨hwhole, hdefault, SettingsPart.isDefault_eq_false.1 hyields, hsame⟩
                  hclobbered

end SettingsField

/-- Default settings change nothing of those they are laid over. -/
theorem Settings.layer_default (settings : Settings) : settings.layer {} = settings := by
  apply SettingsField.ext_get
  intro field
  have hpart : field.part.isDefault {} = true :=
    List.all_eq_true.2 fun other _ => other.isDefault_default
  rw [field.get_layer, SettingsField.yields_of_part hpart]
  rfl

end DentryWatch

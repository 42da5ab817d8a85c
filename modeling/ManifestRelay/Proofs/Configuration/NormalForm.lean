import Mathlib.Data.List.Forall2
import ManifestRelay.Configuration.Settings
import ManifestRelay.Proofs.Configuration.Reading
import ManifestRelay.Proofs.Text.Reading

/-!
# Configurations in normal form

A configuration that is accepted says what its document says: the projects in the order of the file,
each with its own settings or the defaults, and the sections that the file has.  A document is
accepted if it has the shape of the schema, its projects have ids and its level is known.  One kind
of file is accepted without a look at its document.  If every line is blank, a comment or a marker,
the file is taken for an empty one, but lines are cut at line feeds only, where a document has more
kinds of line breaks; a comment may so hide all settings.
-/

namespace ManifestRelay.Configuration

open Outcome
open Yaml (Value)

/-! ### The shape of documents -/

def IsPath : Value → Prop := IsRecordOf [("glob", IsText)]

def IsProject : Value → Prop :=
  IsRecordOf [("id", IsText), ("default_namespace", IsText), ("paths", IsSequenceOf IsPath)]

def IsGitops : Value → Prop := IsRecordOf [("manifest_projects", IsSequenceOf IsProject)]

def IsLogging : Value → Prop := IsRecordOf [("level", IsText)]

def IsObservability : Value → Prop := IsRecordOf [("logging", IsOptional IsLogging)]

/-- A document of the schema. -/
def IsDocument : Value → Prop :=
  IsRecordOf [("gitops", IsOptional IsGitops), ("observability", IsOptional IsObservability)]

def projectsOf (document : Value) : List Value :=
  ((document.field "gitops").field "manifest_projects").items

def pathsOf (project : Value) : List Value := (project.field "paths").items

def loggingOf (document : Value) : Value := (document.field "observability").field "logging"

/-! ### What the readers of the file make of it -/

namespace PathEntry

def view (value : Value) : PathEntry := ⟨(value.field "glob").text⟩

theorem reads : PathEntry.read.Reads IsPath view :=
  Reader.reads_single "PathFile" "glob" Reader.reads_string PathEntry.mk rfl

end PathEntry

namespace ProjectEntry

def fields : List (Field ProjectEntry) :=
  [.of "id" Reader.reads_string fun id entry => { entry with id },
    .of "default_namespace" Reader.reads_string
      fun namespaceName entry => { entry with namespaceName },
    .of "paths" (Reader.reads_sequence PathEntry.reads) fun paths entry => { entry with paths }]

def view (value : Value) : ProjectEntry :=
  ⟨(value.field "id").text, (value.field "default_namespace").text,
    (pathsOf value).map PathEntry.view⟩

theorem reads : ProjectEntry.read.Reads IsProject view := by
  have distinct : (fields.map Field.name).Nodup := by decide
  refine Reader.reads_record distinct fun value entry h => ?_
  obtain ⟨id, namespaceName, paths⟩ := entry
  obtain rfl : id = (value.field "id").text :=
    Reader.get_of_record distinct ProjectEntry.id Value.text fields[0] (by simp [fields])
      (fun _ _ => rfl) (by simp [fields, Field.of, Slot.of]) rfl h
  obtain rfl : namespaceName = (value.field "default_namespace").text :=
    Reader.get_of_record distinct ProjectEntry.namespaceName Value.text fields[1]
      (by simp [fields]) (fun _ _ => rfl) (by simp [fields, Field.of, Slot.of]) rfl h
  obtain rfl : paths = (pathsOf value).map PathEntry.view :=
    Reader.get_of_record distinct ProjectEntry.paths (fun paths => paths.items.map PathEntry.view)
      fields[2] (by simp [fields]) (fun _ _ => rfl) (by simp [fields, Field.of, Slot.of]) rfl h
  rfl

end ProjectEntry

namespace GitopsSection

def view (value : Value) : GitopsSection :=
  ⟨(value.field "manifest_projects").items.map ProjectEntry.view⟩

theorem reads : GitopsSection.read.Reads IsGitops view :=
  Reader.reads_single "GitopsFile" "manifest_projects" (Reader.reads_sequence ProjectEntry.reads)
    GitopsSection.mk rfl

end GitopsSection

namespace LoggingSection

def view (value : Value) : LoggingSection := ⟨(value.field "level").text⟩

theorem reads : LoggingSection.read.Reads IsLogging view :=
  Reader.reads_single "LoggingFile" "level" Reader.reads_string LoggingSection.mk rfl

end LoggingSection

namespace ObservabilitySection

def view (value : Value) : ObservabilitySection :=
  ⟨(value.field "logging").present?.map LoggingSection.view⟩

theorem reads : ObservabilitySection.read.Reads IsObservability view :=
  Reader.reads_single "ObservabilityFile" "logging" (Reader.reads_optional LoggingSection.reads)
    ObservabilitySection.mk rfl

end ObservabilitySection

namespace File

def fields : List (Field File) :=
  [.of "gitops" (Reader.reads_optional GitopsSection.reads)
      fun gitops file => { file with gitops },
    .of "observability" (Reader.reads_optional ObservabilitySection.reads)
      fun observability file => { file with observability }]

def view (value : Value) : File :=
  ⟨(value.field "gitops").present?.map GitopsSection.view,
    (value.field "observability").present?.map ObservabilitySection.view⟩

theorem reads : File.read.Reads IsDocument view := by
  have distinct : (fields.map Field.name).Nodup := by decide
  refine Reader.reads_record distinct fun value file h => ?_
  obtain ⟨gitops, observability⟩ := file
  obtain rfl : gitops = (value.field "gitops").present?.map GitopsSection.view :=
    Reader.get_of_record distinct File.gitops
      (fun gitops => gitops.present?.map GitopsSection.view) fields[0] (by simp [fields])
      (fun _ _ => rfl) (by simp [fields, Field.of, Slot.of]) rfl h
  obtain rfl : observability =
      (value.field "observability").present?.map ObservabilitySection.view :=
    Reader.get_of_record distinct File.observability
      (fun observability => observability.present?.map ObservabilitySection.view) fields[1]
      (by simp [fields]) (fun _ _ => rfl) (by simp [fields, Field.of, Slot.of]) rfl h
  rfl

/-- A null document has no sections, whether it is tagged or not. -/
theorem ofValue_eq_ok_iff {value : Value} {file : File} :
    ofValue value = .ok file ↔ IsDocument value ∧ file = view value := by
  rw [← reads value file, ofValue]
  split
  · next hnull => simp [read, Reader.record, hnull]
  · rfl

theorem check_eq_ok_iff {file : File} : file.check = .ok () ↔
    (∀ project ∈ (file.gitops.map (·.projects)).getD [], project.id ≠ "") ∧
      ∀ logging ∈ file.observability.bind (·.logging),
        logging.level = "" ∨ logging.level ∈ logLevels := by
  rw [check]
  cases hindex : ((file.gitops.map (·.projects)).getD []).findIdx? (·.id = "") with
  | some index =>
      obtain ⟨hlength, hid, -⟩ := List.findIdx?_eq_some_iff_getElem.1 hindex
      refine iff_of_false nofun fun h => ?_
      exact h.1 _ (List.getElem_mem hlength) (of_decide_eq_true hid)
  | none =>
      have hnamed : ∀ project ∈ (file.gitops.map (·.projects)).getD [], project.id ≠ "" :=
        fun project hmem => of_decide_eq_false (List.findIdx?_eq_none_iff.1 hindex project hmem)
      rw [and_iff_right hnamed]
      cases file.observability.bind (·.logging) with
      | none => exact iff_of_true rfl nofun
      | some logging =>
          simp only [Option.mem_some_iff, forall_eq']
          split
          · next hlevel => exact iff_of_false nofun (not_or.2 hlevel)
          · next hlevel => exact iff_of_true rfl (not_not.1 fun h => hlevel (not_or.1 h))

end File

/-! ### Accepted documents -/

def HasKeysIn (names : List String) (value : Value) : Prop :=
  ∀ entry ∈ value.entries, ∃ name ∈ names, entry.1.text? = some name.toList

/-- No mapping of a document has a key outside of the schema. -/
structure KnowsKeys (document : Value) : Prop where
  top : HasKeysIn ["gitops", "observability"] document
  gitops : HasKeysIn ["manifest_projects"] (document.field "gitops")
  projects : ∀ project ∈ projectsOf document,
    HasKeysIn ["id", "default_namespace", "paths"] project
  paths : ∀ project ∈ projectsOf document, ∀ path ∈ pathsOf project, HasKeysIn ["glob"] path
  observability : HasKeysIn ["logging"] (document.field "observability")
  logging : HasKeysIn ["level"] (loggingOf document)

/-- A project says what is said of it in the file, or what is said by default. -/
structure IsProjectOf (value : Value) (project : ManifestProject) : Prop where
  id : project.id = (value.field "id").text
  named : project.id ≠ ""
  namespaceName : (value.field "default_namespace").text ≠ "" →
    project.namespaceName = (value.field "default_namespace").text
  defaultNamespace : (value.field "default_namespace").text = "" →
    project.namespaceName = "default"
  globs : pathsOf value ≠ [] →
    project.globs = (pathsOf value).map fun path => (path.field "glob").text
  defaultGlob : pathsOf value = [] → project.globs = ["**/*.{yaml,yml,json}"]

def levels : List String := ["", "debug", "info", "warn", "error"]

/-- A configuration says what a document of the schema says, and nothing else. -/
structure IsNormalFormOf (document : Value) (configuration : AgentConfiguration) : Prop where
  knowsKeys : KnowsKeys document
  gitops : ∃ gitops, configuration.gitops = some gitops ∧
    List.Forall₂ IsProjectOf (projectsOf document) gitops.projects
  observability : configuration.observability.isSome ↔ document.field "observability" ≠ .null
  logging : (configuration.observability.bind (·.logging)).isSome ↔ loggingOf document ≠ .null
  level : ∀ logging ∈ configuration.observability.bind (·.logging),
    logging.level = ((loggingOf document).field "level").text ∧ logging.level ∈ levels

structure IsAccepted (document : Value) : Prop where
  shape : IsDocument document
  named : ∀ project ∈ projectsOf document, (project.field "id").text ≠ ""
  level : ((loggingOf document).field "level").text ∈ levels

/-! ### A document has one normal form -/

theorem IsProjectOf.unique {value : Value} {project other : ManifestProject}
    (h : IsProjectOf value project) (hother : IsProjectOf value other) : project = other := by
  have hnamespace : project.namespaceName = other.namespaceName := by
    by_cases hsaid : (value.field "default_namespace").text = ""
    · rw [h.defaultNamespace hsaid, hother.defaultNamespace hsaid]
    · rw [h.namespaceName hsaid, hother.namespaceName hsaid]
  have hglobs : project.globs = other.globs := by
    by_cases hsaid : pathsOf value = []
    · rw [h.defaultGlob hsaid, hother.defaultGlob hsaid]
    · rw [h.globs hsaid, hother.globs hsaid]
  cases project
  cases other
  rw [ManifestProject.mk.injEq]
  exact ⟨h.id.trans hother.id.symm, hnamespace, hglobs⟩

theorem observability_eq {one other : Option Observability}
    (present : one.isSome = other.isSome)
    (logging : (one.bind (·.logging)).isSome = (other.bind (·.logging)).isSome)
    (level : ∀ logging ∈ one.bind (·.logging), ∀ logging' ∈ other.bind (·.logging),
      logging.level = logging'.level) : one = other := by
  rcases one with _ | ⟨_ | ⟨⟨level⟩⟩⟩ <;> rcases other with _ | ⟨_ | ⟨⟨level'⟩⟩⟩ <;> simp_all

theorem IsNormalFormOf.unique {document : Value} {configuration other : AgentConfiguration}
    (h : IsNormalFormOf document configuration) (hother : IsNormalFormOf document other) :
    configuration = other := by
  obtain ⟨⟨projects⟩, hgitops, hprojects⟩ := h.gitops
  obtain ⟨⟨projects'⟩, hgitops', hprojects'⟩ := hother.gitops
  have hunique : Relator.RightUnique IsProjectOf := fun _ _ _ h h' => h.unique h'
  have hgitops : configuration.gitops = other.gitops := by
    rw [hgitops, hgitops', Option.some_inj, Gitops.mk.injEq]
    exact hunique.forall₂ hprojects hprojects'
  have hobservability : configuration.observability = other.observability := by
    refine observability_eq (Bool.eq_iff_iff.2 (h.observability.trans hother.observability.symm))
      (Bool.eq_iff_iff.2 (h.logging.trans hother.logging.symm)) ?_
    intro logging hmem logging' hmem'
    exact (h.level logging hmem).1.trans (hother.level logging' hmem').1.symm
  cases configuration
  cases other
  rw [AgentConfiguration.mk.injEq]
  exact ⟨hgitops, hobservability⟩

/-! ### Accepted documents say what they say -/

theorem HasKeysIn.of_untagged_null {names : List String} {value : Value}
    (h : value.untagged = .null) : HasKeysIn names value := by
  rw [HasKeysIn, Value.entries, h]
  exact List.forall_mem_nil _

namespace IsRecordOf

variable {fields : List (String × (Value → Prop))} {value : Value} (h : IsRecordOf fields value)

include h

theorem hasKeysIn : HasKeysIn (fields.map Prod.fst) value := by
  rcases h with h | ⟨content, huntagged, h⟩
  · exact .of_untagged_null h
  · rw [HasKeysIn, Value.entries, huntagged]
    intro entry hentry
    obtain ⟨field, hfield, hname, -⟩ := h.known entry hentry
    exact ⟨field.1, List.mem_map_of_mem hfield, hname⟩

/-- What stands beside a name is what the field of that name takes, if it takes null. -/
theorem field {name : String} {takes : Value → Prop} (distinct : (fields.map Prod.fst).Nodup)
    (hmem : (name, takes) ∈ fields) (unset : takes .null) : takes (value.field name) := by
  rw [Value.field]
  cases hfound : value.entries.find? (Value.isNamed name) with
  | none => exact unset
  | some entry =>
      have hentry := List.mem_of_find?_eq_some hfound
      have hnamed := Value.isNamed_iff.1 (List.find?_some hfound)
      rcases h with h | ⟨content, huntagged, h⟩
      · rw [Value.entries, h] at hentry
        exact absurd hentry List.not_mem_nil
      · rw [Value.entries, huntagged] at hentry
        obtain ⟨field, hfield, hname, htakes⟩ := h.known entry hentry
        rw [hname, Option.some_inj, String.toList_inj] at hnamed
        obtain rfl := List.inj_on_of_nodup_map distinct hfield hmem hnamed
        exact htakes

end IsRecordOf

theorem isRecordOf_null (fields : List (String × (Value → Prop))) : IsRecordOf fields .null :=
  .inl rfl

theorem IsOptional.isRecordOf {fields : List (String × (Value → Prop))} {value : Value}
    (h : IsOptional (IsRecordOf fields) value) : IsRecordOf fields value := by
  rcases h with rfl | h
  · exact isRecordOf_null fields
  · exact h

theorem IsSequenceOf.items {takes : Value → Prop} {value : Value} (h : IsSequenceOf takes value) :
    ∀ item ∈ value.items, takes item := by
  rw [Value.items]
  rcases h with h | ⟨items, huntagged, h⟩
  · rw [h]
    exact List.forall_mem_nil _
  · rw [huntagged]
    exact h

section Documents

variable {document : Value}

theorem KnowsKeys.of_isDocument (h : IsDocument document) : KnowsKeys document := by
  have hgitops : IsGitops (document.field "gitops") :=
    (IsRecordOf.field h (by decide) List.mem_cons_self (.inl rfl)).isRecordOf
  have hobservability : IsObservability (document.field "observability") :=
    (IsRecordOf.field h (by decide) (List.mem_cons_of_mem _ List.mem_cons_self)
      (.inl rfl)).isRecordOf
  have hlogging : IsLogging (loggingOf document) :=
    (IsRecordOf.field hobservability (by decide) List.mem_cons_self (.inl rfl)).isRecordOf
  have hprojects : ∀ project ∈ projectsOf document, IsProject project :=
    (IsRecordOf.field hgitops (by decide) List.mem_cons_self (.inl rfl)).items
  have hpaths : ∀ project ∈ projectsOf document, ∀ path ∈ pathsOf project, IsPath path := by
    intro project hproject
    refine IsSequenceOf.items (IsRecordOf.field (hprojects project hproject) (by decide) ?_
      (.inl rfl))
    exact List.mem_cons_of_mem _ (List.mem_cons_of_mem _ List.mem_cons_self)
  exact {
    top := IsRecordOf.hasKeysIn h
    gitops := IsRecordOf.hasKeysIn hgitops
    projects project hproject := IsRecordOf.hasKeysIn (hprojects project hproject)
    paths project hproject path hpath := IsRecordOf.hasKeysIn (hpaths project hproject path hpath)
    observability := IsRecordOf.hasKeysIn hobservability
    logging := IsRecordOf.hasKeysIn hlogging }

theorem projects_view : ((File.view document).gitops.map (·.projects)).getD [] =
    (projectsOf document).map ProjectEntry.view := by
  rw [File.view, projectsOf]
  cases document.field "gitops" <;> rfl

theorem logging_view : (File.view document).observability.bind (·.logging) =
    (loggingOf document).present?.map LoggingSection.view := by
  rw [File.view, loggingOf]
  cases document.field "observability" <;> rfl

theorem check_view_eq_ok_iff : (File.view document).check = .ok () ↔
    (∀ project ∈ projectsOf document, (project.field "id").text ≠ "") ∧
      ((loggingOf document).field "level").text ∈ levels := by
  rw [File.check_eq_ok_iff, projects_view, logging_view, List.forall_mem_map, levels,
    List.mem_cons]
  refine and_congr_right fun _ => ?_
  by_cases hnull : loggingOf document = .null
  · rw [hnull]
    exact iff_of_true nofun (.inl rfl)
  · rw [Value.present?_of_ne_null hnull, Option.map_some]
    exact ⟨fun h => h _ rfl, fun h logging hlogging => Option.some_inj.1 hlogging ▸ h⟩

theorem isProjectOf_ofEntry {value : Value} (named : (value.field "id").text ≠ "") :
    IsProjectOf value (.ofEntry (ProjectEntry.view value)) where
  id := rfl
  named := named
  namespaceName h := if_neg h
  defaultNamespace h := if_pos h
  globs h := by
    have hpaths : (ProjectEntry.view value).paths ≠ [] := mt List.map_eq_nil_iff.1 h
    rw [ManifestProject.ofEntry]
    dsimp only
    rw [if_neg hpaths, ProjectEntry.view, List.map_map]
    rfl
  defaultGlob h := by
    rw [ManifestProject.ofEntry, ProjectEntry.view, h]
    rfl

theorem logging_ofFile {file : File} :
    (AgentConfiguration.ofFile file).observability.bind (·.logging) =
      (file.observability.bind (·.logging)).map fun logging => ⟨logging.level⟩ := by
  rw [AgentConfiguration.ofFile]
  cases file.observability <;> rfl

theorem IsAccepted.isNormalFormOf (h : IsAccepted document) :
    IsNormalFormOf document (.ofFile (File.view document)) := by
  have hlogging : (AgentConfiguration.ofFile (File.view document)).observability.bind (·.logging) =
      (loggingOf document).present?.map fun logging => ⟨(logging.field "level").text⟩ := by
    rw [logging_ofFile, logging_view, Option.map_map]
    rfl
  refine ⟨.of_isDocument h.shape, ⟨_, rfl, ?_⟩, ?_, ?_, ?_⟩
  · dsimp only
    rw [projects_view, List.map_map, List.forall₂_map_right_iff, List.forall₂_same]
    exact fun project hproject => isProjectOf_ofEntry (h.named project hproject)
  · rw [← Value.isSome_present?_iff, AgentConfiguration.ofFile, File.view, Option.isSome_map,
      Option.isSome_map]
  · rw [hlogging, Option.isSome_map, Value.isSome_present?_iff]
  · intro logging hmem
    have hpresent : loggingOf document ≠ .null := by
      rintro hnull
      rw [hlogging, hnull] at hmem
      cases hmem
    rw [hlogging, Value.present?_of_ne_null hpresent, Option.map_some, Option.mem_some] at hmem
    subst hmem
    exact ⟨rfl, h.level⟩

end Documents

/-! ### Files without settings -/

def withoutSettings : AgentConfiguration := ⟨some ⟨[]⟩, none⟩

structure SaysNothing (document : Value) : Prop where
  knowsKeys : KnowsKeys document
  projects : projectsOf document = []
  observability : document.field "observability" = .null

theorem isNormalFormOf_withoutSettings_iff {document : Value} :
    IsNormalFormOf document withoutSettings ↔ SaysNothing document := by
  constructor
  · intro h
    refine ⟨h.knowsKeys, ?_, ?_⟩
    · obtain ⟨gitops, hgitops, hprojects⟩ := h.gitops
      cases hgitops
      exact List.forall₂_nil_right_iff.1 hprojects
    · exact not_not.1 fun hpresent => absurd (h.observability.2 hpresent) (by decide)
  · intro h
    refine ⟨h.knowsKeys, ⟨_, rfl, ?_⟩, ?_, ?_, nofun⟩
    · rw [h.projects]
      exact .nil
    · exact iff_of_false (by decide) (not_not.2 h.observability)
    · rw [loggingOf, h.observability]
      exact iff_of_false (by decide) (not_not.2 rfl)

/-! ### What is read from bytes -/

namespace AgentConfiguration

section Parsing

variable {bytes : List UInt8} {text : List Char} {configuration : AgentConfiguration}

theorem parse_eq_ok_iff : parse bytes = .ok configuration ↔
    ∃ text file, Text.Utf8.decode bytes = .ok text ∧ fileOfText text = .ok file ∧
      file.check = .ok () ∧ configuration = ofFile file := by
  simp only [parse, bind_eq_ok, mapError_eq_ok]
  constructor
  · rintro ⟨text, htext, file, hfile, ⟨⟩, hcheck, h⟩
    cases h
    exact ⟨text, file, htext, hfile, hcheck, rfl⟩
  · rintro ⟨text, file, htext, hfile, hcheck, rfl⟩
    exact ⟨text, htext, file, hfile, (), hcheck, rfl⟩

theorem parse_of_isIdle (hdecode : Text.Utf8.decode bytes = .ok text) (idle : isIdle text = true) :
    parse bytes = .ok withoutSettings :=
  parse_eq_ok_iff.2 ⟨text, .empty, hdecode, if_pos idle, rfl, rfl⟩

theorem fileOfText_eq_ok_iff {file : File} (speaks : isIdle text = false) :
    fileOfText text = .ok file ↔ ∃ document, Value.ofText? text = some document ∧
      IsDocument document ∧ file = File.view document := by
  rw [fileOfText, if_neg (Bool.eq_false_iff.1 speaks)]
  cases Value.ofText? text with
  | none => exact iff_of_false nofun nofun
  | some document =>
      dsimp only
      rw [mapError_eq_ok, File.ofValue_eq_ok_iff]
      simp only [Option.some_inj, exists_eq_left']

theorem parse_eq_ok_iff_of_speaks (hdecode : Text.Utf8.decode bytes = .ok text)
    (speaks : isIdle text = false) : parse bytes = .ok configuration ↔
      ∃ document, Value.ofText? text = some document ∧ IsAccepted document ∧
        configuration = ofFile (File.view document) := by
  rw [parse_eq_ok_iff]
  constructor
  · rintro ⟨other, file, hother, hfile, hcheck, rfl⟩
    cases hother.symm.trans hdecode
    obtain ⟨document, hdocument, hshape, rfl⟩ := (fileOfText_eq_ok_iff speaks).1 hfile
    obtain ⟨hnamed, hlevel⟩ := check_view_eq_ok_iff.1 hcheck
    exact ⟨document, hdocument, ⟨hshape, hnamed, hlevel⟩, rfl⟩
  · rintro ⟨document, hdocument, ⟨hshape, hnamed, hlevel⟩, rfl⟩
    exact ⟨text, File.view document, hdecode,
      (fileOfText_eq_ok_iff speaks).2 ⟨document, hdocument, hshape, rfl⟩,
      check_view_eq_ok_iff.2 ⟨hnamed, hlevel⟩, rfl⟩

theorem exists_parse_eq_ok_iff : (∃ configuration, parse bytes = .ok configuration) ↔
    ∃ text, Text.Utf8.decode bytes = .ok text ∧
      (isIdle text = true ∨ ∃ document, Value.ofText? text = some document ∧
        IsAccepted document) := by
  constructor
  · rintro ⟨configuration, hparse⟩
    obtain ⟨text, -, hdecode, -⟩ := parse_eq_ok_iff.1 hparse
    refine ⟨text, hdecode, or_iff_not_imp_left.2 fun hidle => ?_⟩
    obtain ⟨document, hdocument, haccepted, -⟩ :=
      (parse_eq_ok_iff_of_speaks hdecode (Bool.eq_false_iff.2 hidle)).1 hparse
    exact ⟨document, hdocument, haccepted⟩
  · rintro ⟨text, hdecode, h⟩
    by_cases hidle : isIdle text = true
    · exact ⟨_, parse_of_isIdle hdecode hidle⟩
    · obtain ⟨document, hdocument, haccepted⟩ := h.resolve_left hidle
      exact ⟨_, (parse_eq_ok_iff_of_speaks hdecode (Bool.eq_false_iff.2 hidle)).2
        ⟨document, hdocument, haccepted, rfl⟩⟩

/-- A file is read as its document says, if a look at it shows that it says something. -/
theorem isNormalFormOf_of_parse {document : Value}
    (hdecode : Text.Utf8.decode bytes = .ok text)
    (hdocument : Value.ofText? text = some document) (hparse : parse bytes = .ok configuration)
    (honest : isIdle text = true → SaysNothing document) :
    IsNormalFormOf document configuration := by
  by_cases hidle : isIdle text = true
  · cases hparse.symm.trans (parse_of_isIdle hdecode hidle)
    exact isNormalFormOf_withoutSettings_iff.2 (honest hidle)
  · obtain ⟨other, hother, haccepted, rfl⟩ :=
      (parse_eq_ok_iff_of_speaks hdecode (Bool.eq_false_iff.2 hidle)).1 hparse
    cases hother.symm.trans hdocument
    exact haccepted.isNormalFormOf

end Parsing

end AgentConfiguration

/-- A file whose lines all look idle, although its document has settings or unknown keys. -/
def HidesSettings (bytes : List UInt8) : Prop :=
  ∃ text document, Text.Utf8.decode bytes = .ok text ∧ isIdle text = true ∧
    Value.ofText? text = some document ∧ ¬ SaysNothing document

/-- A configuration is the normal form of its document, but for files that hide their settings,
which never give one.  Whether a file gives a configuration is told from its lines and the shape
of its document. -/
theorem parse_normalizes_iff (bytes : List UInt8) :
    ((∀ text document configuration, Text.Utf8.decode bytes = .ok text →
        Value.ofText? text = some document →
        AgentConfiguration.parse bytes = .ok configuration →
        IsNormalFormOf document configuration) ↔ ¬ HidesSettings bytes) ∧
      (∀ text, Text.Utf8.decode bytes = .ok text → isIdle text = true →
        AgentConfiguration.parse bytes = .ok withoutSettings) ∧
      ((∃ configuration, AgentConfiguration.parse bytes = .ok configuration) ↔
        ∃ text, Text.Utf8.decode bytes = .ok text ∧
          (isIdle text = true ∨ ∃ document, Value.ofText? text = some document ∧
            IsAccepted document)) := by
  refine ⟨⟨?_, ?_⟩, fun text => AgentConfiguration.parse_of_isIdle,
    AgentConfiguration.exists_parse_eq_ok_iff⟩
  · rintro h ⟨text, document, hdecode, idle, hdocument, hsays⟩
    exact hsays (isNormalFormOf_withoutSettings_iff.1
      (h text document _ hdecode hdocument (AgentConfiguration.parse_of_isIdle hdecode idle)))
  · intro h text document configuration hdecode hdocument hparse
    refine AgentConfiguration.isNormalFormOf_of_parse hdecode hdocument hparse fun idle => ?_
    exact Classical.byContradiction fun hsays => h ⟨text, document, hdecode, idle, hdocument, hsays⟩

/-- A project behind a comment, all in one line if lines are cut at line feeds. -/
def commentedProject : List Char :=
  "# c\rgitops:\r  manifest_projects:\r  - id: g/m\r".toList

/-- A comment that ends in a carriage return hides the project behind it. -/
theorem comment_hides_project :
    ∃ document, Value.ofText? commentedProject = some document ∧
      (projectsOf document).map (fun project => (project.field "id").text) = ["g/m"] ∧
      AgentConfiguration.parse (Text.Utf8.encode commentedProject) = .ok withoutSettings ∧
      ¬ IsNormalFormOf document withoutSettings := by
  have hids : (Value.ofText? commentedProject).map (fun document =>
      (projectsOf document).map fun project => (project.field "id").text) = some ["g/m"] := by
    decide +kernel
  obtain ⟨document, hdocument, hid⟩ := Option.map_eq_some_iff.1 hids
  refine ⟨document, hdocument, hid, ?_, fun h => ?_⟩
  · refine AgentConfiguration.parse_of_isIdle (Text.Utf8.decodeFrom_encode 0 [] _) ?_
    decide +kernel
  · rw [(isNormalFormOf_withoutSettings_iff.1 h).projects] at hid
    cases hid

end ManifestRelay.Configuration

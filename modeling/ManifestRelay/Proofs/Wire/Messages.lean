import ManifestRelay.Proofs.Text.Reading
import ManifestRelay.Proofs.Wire.Fields

/-!
# Messages are read back

Fields that are left out are what reading starts from, and every field that is written is read
into its place, so that every message is read back: texts, optional messages and lists of
messages alike, on all levels.  Messages are read back whose length can be written, as that of every
sequence of bytes in memory.
-/

namespace ManifestRelay.Wire

open Turn
open ManifestRelay.Configuration

/-! ## Texts -/

theorem textOf?_textBytes (text : String) : textOf? (.bytes (textBytes text)) = some text := by
  rw [textOf?, textBytes, Text.Utf8.decode?_encode, Option.map_some, String.ofList_toList]

theorem eq_empty_of_textBytes_eq_nil {text : String} (h : textBytes text = []) : text = "" := by
  have hread := textOf?_textBytes text
  rw [h] at hread
  exact (Option.some.inj hread).symm

/-! ## Fields that are read into their places -/

/-- Fields that turn what is known of a message into something else. -/
structure Reads {α : Type} (step : α → Field → Option α) (fields : List (Nat × List UInt8))
    (first last : α) : Prop where
  numbers : ∀ entry ∈ fields, IsNumber entry.1
  folds : (fields.map field).foldlM step first = some last

namespace Reads

variable {α β : Type} {step : α → Field → Option α}

theorem merge {fields : List (Nat × List UInt8)} {first last : α}
    (reads : Reads step fields first last) (level : Nat) (fits : IsWritable (writeFields fields)) :
    mergeFields step level first (writeFields fields) = some last :=
  (mergeFields_writeFields step level first reads.numbers fits).trans reads.folds

theorem append {fields others : List (Nat × List UInt8)} {first middle last : α}
    (before : Reads step fields first middle) (after : Reads step others middle last) :
    Reads step (fields ++ others) first last where
  numbers entry h := (List.mem_append.1 h).elim (before.numbers entry) (after.numbers entry)
  folds := by
    rw [List.map_append, List.foldlM_append, before.folds]
    exact after.folds

variable {number : Nat}

theorem nil (first : α) : Reads step [] first first where
  numbers := nofun
  folds := rfl

theorem single (isNumber : IsNumber number) {data : List UInt8} {first last : α}
    (reads : step first ⟨number, .bytes data⟩ = some last) :
    Reads step [(number, data)] first last where
  numbers entry h := by
    rw [List.mem_singleton.1 h]
    exact isNumber
  folds := by
    rw [List.map_singleton, List.foldlM_cons, field, reads]
    rfl

theorem bytes (step : α → Field → Option α) (isNumber : IsNumber number) (put : List UInt8 → α)
    (reads : ∀ data, step (put []) ⟨number, .bytes data⟩ = some (put data)) (data : List UInt8) :
    Reads step (unlessEmpty number data) (put []) (put data) := by
  by_cases hempty : data = []
  · rw [unlessEmpty, if_pos hempty, hempty]
    exact .nil _
  · rw [unlessEmpty, if_neg hempty]
    exact .single isNumber (reads data)

theorem text (step : α → Field → Option α) (isNumber : IsNumber number) (put : String → α)
    (reads : ∀ text, step (put "") ⟨number, .bytes (textBytes text)⟩ = some (put text))
    (text : String) : Reads step (unlessEmpty number (textBytes text)) (put "") (put text) := by
  by_cases hempty : textBytes text = []
  · rw [unlessEmpty, if_pos hempty, eq_empty_of_textBytes_eq_nil hempty]
    exact .nil _
  · rw [unlessEmpty, if_neg hempty]
    exact .single isNumber (reads text)

theorem optional (step : α → Field → Option α) (isNumber : IsNumber number)
    (write : β → List UInt8) (put : Option β → α) (value : Option β) (reads : ∀ present ∈ value,
      step (put none) ⟨number, .bytes (write present)⟩ = some (put (some present))) :
    Reads step (value.toList.map fun present => (number, write present)) (put none)
      (put value) := by
  cases value with
  | none => exact .nil _
  | some present => exact .single isNumber (reads present rfl)

theorem repeated (step : α → Field → Option α) (isNumber : IsNumber number)
    (write : β → List UInt8) (put : List β → α) (values : List β)
    (reads : ∀ before, ∀ value ∈ values,
      step (put before) ⟨number, .bytes (write value)⟩ = some (put (before ++ [value]))) :
    Reads step (values.map fun value => (number, write value)) (put []) (put values) := by
  suffices h : ∀ before, Reads step (values.map fun value => (number, write value)) (put before)
      (put (before ++ values)) from h []
  induction values with
  | nil =>
      intro before
      rw [List.append_nil]
      exact .nil _
  | cons value rest ih =>
      intro before
      have hfirst := Reads.single isNumber (reads before value List.mem_cons_self)
      have hrest := ih (fun before other h => reads before other (List.mem_cons_of_mem _ h))
        (before ++ [value])
      rw [List.append_assoc] at hrest
      exact hfirst.append hrest

end Reads

theorem isNumber_one : IsNumber 1 := ⟨by decide, by decide⟩

theorem isNumber_two : IsNumber 2 := ⟨by decide, by decide⟩

theorem isNumber_three : IsNumber 3 := ⟨by decide, by decide⟩

/-! ## Requests -/

theorem mergeInner_encodeText (level : Nat) {text : String} (fits : IsWritable (encodeText text)) :
    mergeInner textStep level "" (.bytes (encodeText text)) = some text :=
  (Reads.text textStep isNumber_one (fun text => text) textOf?_textBytes text).merge level fits

theorem ConfigurationRequest.decode?_encode {r : ConfigurationRequest}
    (fits : IsWritable r.encode) : decode? r.encode = some r := by
  have hcommit := Reads.text step isNumber_one (fun commit => ⟨commit⟩)
    (fun text => by rw [step, textOf?_textBytes]; rfl) r.commit
  exact hcommit.merge 0 fits

theorem ObjectsRequest.decode?_encode {r : ObjectsRequest} (fits : IsWritable r.encode) :
    decode? r.encode = some r := by
  have hproject := Reads.text step isNumber_one (fun projectId => ⟨projectId, "", []⟩)
    (fun text => by rw [step, textOf?_textBytes]; rfl) r.projectId
  have hcommit := Reads.text step isNumber_two (fun commit => ⟨r.projectId, commit, []⟩)
    (fun text => by rw [step, textOf?_textBytes]; rfl) r.commit
  have hglobs := Reads.repeated step isNumber_three encodeText
    (fun globs => ⟨r.projectId, r.commit, globs⟩) r.globs fun before glob hglob => by
      have hfits := fits.of_mem (List.mem_append_right _ (List.mem_map_of_mem hglob))
      rw [step, mergeInner_encodeText 1 hfits]
      rfl
  exact ((hproject.append hcommit).append hglobs).merge 0 fits

/-! ## Frames -/

namespace Frame

theorem mergeInner_encodeObject {source : String} {data : List UInt8}
    (fits : IsWritable (encodeObject source data)) :
    mergeInner objectStep 1 ("", []) (.bytes (encodeObject source data)) = some (source, data) := by
  have hsource := Reads.text objectStep isNumber_one (fun source => (source, []))
    (fun text => by rw [objectStep, textOf?_textBytes]; rfl) source
  have hdata := Reads.bytes objectStep isNumber_two (fun data => (source, data))
    (fun _ => rfl) data
  exact (hsource.append hdata).merge 1 fits

theorem decode?_encode {frame : Frame} (fits : IsWritable (encode frame)) :
    decode? (encode frame) = some (some frame) := by
  have hone : ∀ {number : Nat} {data : List UInt8}, IsNumber number →
      encode frame = writeFields [(number, data)] →
      (IsWritable data → step none ⟨number, .bytes data⟩ = some (some frame)) →
      decode? (encode frame) = some (some frame) := by
    intro number data isNumber hencode hstep
    rw [hencode] at fits ⊢
    exact (Reads.single isNumber (hstep (fits.of_mem (List.mem_singleton.2 rfl)))).merge 0 fits
  cases frame with
  | headers commit =>
      refine hone isNumber_one (List.append_nil _).symm fun hfits => ?_
      simp [step, mergeInner_encodeText 1 hfits]
  | object source data =>
      refine hone isNumber_two (List.append_nil _).symm fun hfits => ?_
      simp [step, mergeInner_encodeObject hfits]
  | trailers =>
      refine hone isNumber_three (List.append_nil _).symm fun hfits => ?_
      have hempty : mergeInner (fun _ _ => some ()) 1 () (.bytes []) = some () :=
        (Reads.nil ()).merge 1 hfits
      simp [step, hempty]

end Frame

/-! ## Configurations -/

namespace Settings

theorem mergeInner_encodeProject {p : ManifestProject} (fits : IsWritable (encodeProject p)) :
    mergeInner projectStep 3 ⟨"", "", []⟩ (.bytes (encodeProject p)) = some p := by
  have hid := Reads.text projectStep isNumber_one (fun id => ⟨id, "", []⟩)
    (fun text => by rw [projectStep, textOf?_textBytes]; rfl) p.id
  have hnamespace := Reads.text projectStep isNumber_two
    (fun namespaceName => ⟨p.id, namespaceName, []⟩)
    (fun text => by rw [projectStep, textOf?_textBytes]; rfl) p.namespaceName
  have hglobs := Reads.repeated projectStep isNumber_three encodeText
    (fun globs => ⟨p.id, p.namespaceName, globs⟩) p.globs fun before glob hglob => by
      have hfits := fits.of_mem (List.mem_append_right _ (List.mem_map_of_mem hglob))
      rw [projectStep, mergeInner_encodeText 4 hfits]
      rfl
  exact ((hid.append hnamespace).append hglobs).merge 3 fits

theorem mergeInner_encodeGitops {g : Gitops} (fits : IsWritable (encodeGitops g)) :
    mergeInner gitopsStep 2 ⟨[]⟩ (.bytes (encodeGitops g)) = some g := by
  have hprojects := Reads.repeated gitopsStep isNumber_one encodeProject
    Gitops.mk g.projects fun before project hproject => by
      rw [gitopsStep, mergeInner_encodeProject (fits.of_mem (List.mem_map_of_mem hproject))]
      rfl
  exact hprojects.merge 2 fits

theorem mergeInner_encodeObservability {o : Observability}
    (fits : IsWritable (encodeObservability o)) :
    mergeInner observabilityStep 2 ⟨none⟩ (.bytes (encodeObservability o)) = some o := by
  have hlogging := Reads.optional observabilityStep isNumber_one
    (fun logging => encodeText logging.level) Observability.mk o.logging
    fun logging hlogging => by
      have hfits := fits.of_mem (List.mem_map_of_mem (Option.mem_toList.2 hlogging))
      simp [observabilityStep, mergeInner_encodeText 3 hfits]
  exact hlogging.merge 2 fits

theorem mergeInner_encode {c : AgentConfiguration} (fits : IsWritable (encode c)) :
    mergeInner step 1 ⟨none, none⟩ (.bytes (encode c)) = some c := by
  have hgitops := Reads.optional step isNumber_one encodeGitops
    (fun gitops => ⟨gitops, none⟩) c.gitops fun gitops hgitops => by
      have hfits := fits.of_mem
        (List.mem_append_left _ (List.mem_map_of_mem (Option.mem_toList.2 hgitops)))
      simp [step, mergeInner_encodeGitops hfits]
  have hobservability := Reads.optional step isNumber_two encodeObservability
    (fun observability => ⟨c.gitops, observability⟩) c.observability
    fun observability hobservability => by
      have hfits := fits.of_mem
        (List.mem_append_right _ (List.mem_map_of_mem (Option.mem_toList.2 hobservability)))
      simp [step, mergeInner_encodeObservability hfits]
  exact (hgitops.append hobservability).merge 1 fits

end Settings

theorem ConfigurationResponse.decode?_encode {r : ConfigurationResponse}
    (fits : IsWritable r.encode) : decode? r.encode = some r := by
  have hconfiguration := Reads.optional step isNumber_one Settings.encode
    (fun configuration => ⟨configuration, ""⟩) r.configuration
    fun configuration hconfiguration => by
      have hfits := fits.of_mem
        (List.mem_append_left _ (List.mem_map_of_mem (Option.mem_toList.2 hconfiguration)))
      simp [step, Settings.mergeInner_encode hfits]
  have hcommit := Reads.text step isNumber_two (fun commit => ⟨r.configuration, commit⟩)
    (fun text => by rw [step, textOf?_textBytes]; rfl) r.commit
  exact (hconfiguration.append hcommit).merge 0 fits

/-- Messages survive the wire.  Every frame, request and configuration is read back as it
was, whatever its texts, bytes and lists, and whether parts of it are absent or empty. -/
theorem messages_read_back :
    (∀ frame : Turn.Frame, IsWritable (Frame.encode frame) →
      (Frame.decode? (Frame.encode frame)).map Frame.expect = some (.ok frame)) ∧
    (∀ r : ObjectsRequest, IsWritable r.encode → ObjectsRequest.decode? r.encode = some r) ∧
    (∀ r : ConfigurationRequest, IsWritable r.encode →
      ConfigurationRequest.decode? r.encode = some r) ∧
    (∀ r : ConfigurationResponse, IsWritable r.encode →
      ConfigurationResponse.decode? r.encode = some r) := by
  refine ⟨fun frame fits => ?_, fun _ => ObjectsRequest.decode?_encode,
    fun _ => ConfigurationRequest.decode?_encode, fun _ => ConfigurationResponse.decode?_encode⟩
  rw [Frame.decode?_encode fits]
  rfl

theorem messages_read_back_sample :
    (Frame.decode? (Frame.encode (.object "a.yaml" []))).map Frame.expect =
      some (.ok (.object "a.yaml" [])) ∧
    ObjectsRequest.decode? (ObjectsRequest.encode ⟨"group/app", "", ["**/*.yaml", ""]⟩) =
      some ⟨"group/app", "", ["**/*.yaml", ""]⟩ ∧
    ConfigurationRequest.decode? (ConfigurationRequest.encode ⟨""⟩) = some ⟨""⟩ ∧
    ConfigurationResponse.decode?
        (ConfigurationResponse.encode ⟨some ⟨some ⟨[⟨"1", "ü", []⟩]⟩, some ⟨none⟩⟩, "c1"⟩) =
      some ⟨some ⟨some ⟨[⟨"1", "ü", []⟩]⟩, some ⟨none⟩⟩, "c1"⟩ := by
  obtain ⟨hframes, hobjects, hconfigurations, hresponses⟩ := messages_read_back
  exact ⟨hframes _ (by decide +kernel), hobjects _ (by decide +kernel),
    hconfigurations _ (by decide +kernel), hresponses _ (by decide +kernel)⟩

end ManifestRelay.Wire

import Mathlib.Data.List.Nodup
import ManifestRelay.Configuration.File
import ManifestRelay.Proofs.Outcome

/-!
# What readers make of values

A reader is described by the values that it takes and by what it makes of them.  A record is read
from a mapping each of whose keys names a field, no two of them the same; every field then holds
what stands beside its name, and what null says if nothing does.
-/

namespace ManifestRelay

open Outcome

/-! ### Parts of values -/

namespace Yaml.Value

def text? (value : Value) : Option (List Char) :=
  match value.untagged with
  | .string text => some text
  | _ => none

/-- The text of a value; what is no text says nothing. -/
def text (value : Value) : String := String.ofList (value.text?.getD [])

def items (value : Value) : List Value :=
  match value.untagged with
  | .sequence items => items
  | _ => []

def entries (value : Value) : List (Value × Value) :=
  match value.untagged with
  | .mapping entries => entries
  | _ => []

def isNamed (name : String) (entry : Value × Value) : Bool := entry.1.text? = some name.toList

/-- What stands beside a name in a mapping, and null if nothing does. -/
def field (value : Value) (name : String) : Value :=
  ((value.entries.find? (isNamed name)).map Prod.snd).getD .null

def present? : Value → Option Value
  | .null => none
  | value => some value

theorem present?_of_ne_null {value : Value} (h : value ≠ .null) : value.present? = some value := by
  cases value <;> first | exact absurd rfl h | rfl

theorem isSome_present?_iff {value : Value} : value.present?.isSome ↔ value ≠ .null := by
  cases value <;> simp [present?]

theorem isNamed_iff {name : String} {entry : Value × Value} :
    isNamed name entry = true ↔ entry.1.text? = some name.toList := decide_eq_true_iff

end Yaml.Value

namespace Configuration

open Yaml (Value)
open Yaml.Value (isNamed isNamed_iff)

/-! ### What readers take -/

def IsText (value : Value) : Prop := ∃ text, value.untagged = .string text

def IsSequenceOf (takes : Value → Prop) (value : Value) : Prop :=
  value.untagged = .null ∨ ∃ items, value.untagged = .sequence items ∧ ∀ item ∈ items, takes item

def IsOptional (takes : Value → Prop) (value : Value) : Prop := value = .null ∨ takes value

/-- Entries whose keys are names of fields, none twice and none that was seen before, and beside
each of them what the field takes. -/
structure AreFields (fields : List (String × (Value → Prop))) (seen : List String)
    (content : List (Value × Value)) : Prop where
  known : ∀ entry ∈ content, ∃ field ∈ fields,
    entry.1.text? = some field.1.toList ∧ field.2 entry.2
  distinct : (content.map fun entry => entry.1.text?).Nodup
  unseen : ∀ entry ∈ content, ∀ name ∈ seen, entry.1.text? ≠ some name.toList

def IsRecordOf (fields : List (String × (Value → Prop))) (value : Value) : Prop :=
  value.untagged = .null ∨
    ∃ content, value.untagged = .mapping content ∧ AreFields fields [] content

namespace Reader

/-- A reader takes these values and makes this of them. -/
def Reads {α : Type} (read : Reader α) (takes : Value → Prop) (view : Value → α) : Prop :=
  ∀ value a, read value = .ok a ↔ takes value ∧ a = view value

theorem stringAs_eq_ok_iff {expected : String} {value : Value} {text : List Char} :
    stringAs expected value = .ok text ↔ value.text? = some text := by
  rw [stringAs, Value.text?]
  cases value.untagged <;> simp

theorem isText_iff {value : Value} : IsText value ↔ ∃ text, value.text? = some text := by
  rw [IsText, Value.text?]
  cases value.untagged <;> simp

theorem reads_string : string.Reads IsText Value.text := by
  intro value text
  rw [string, map_eq_ok, isText_iff, Value.text]
  constructor
  · rintro ⟨chars, h, rfl⟩
    have htext := stringAs_eq_ok_iff.1 h
    exact ⟨⟨chars, htext⟩, by rw [htext, Option.getD_some]⟩
  · rintro ⟨⟨chars, htext⟩, rfl⟩
    exact ⟨chars, stringAs_eq_ok_iff.2 htext, by rw [htext, Option.getD_some]⟩

section Parts

variable {α : Type} {read : Reader α} {takes : Value → Prop} {view : Value → α}
  (reads : read.Reads takes view)

include reads

theorem mapM_eq_ok_iff {items : List Value} {as : List α} :
    items.mapM read = .ok as ↔ (∀ item ∈ items, takes item) ∧ as = items.map view := by
  induction items generalizing as with
  | nil =>
      rw [List.mapM_nil]
      constructor
      · intro h
        cases h
        exact ⟨List.forall_mem_nil _, rfl⟩
      · rintro ⟨-, rfl⟩
        rfl
  | cons item rest ih =>
      rw [List.mapM_cons, bind_eq_ok, List.forall_mem_cons, List.map_cons]
      constructor
      · rintro ⟨a, ha, h⟩
        obtain ⟨more, hmore, heq⟩ := bind_eq_ok.1 h
        cases heq
        obtain ⟨hitem, rfl⟩ := (reads item a).1 ha
        obtain ⟨hrest, rfl⟩ := ih.1 hmore
        exact ⟨⟨hitem, hrest⟩, rfl⟩
      · rintro ⟨⟨hitem, hrest⟩, rfl⟩
        refine ⟨view item, (reads item _).2 ⟨hitem, rfl⟩, ?_⟩
        rw [ih.2 ⟨hrest, rfl⟩]
        rfl

theorem reads_sequence :
    (sequence read).Reads (IsSequenceOf takes) fun value => value.items.map view := by
  intro value as
  simp only [sequence, IsSequenceOf, Value.items]
  cases value.untagged with
  | sequence items => simp [mapM_eq_ok_iff reads]
  | null => simp [eq_comm]
  | _ => simp

theorem reads_optional :
    (optional read).Reads (IsOptional takes) fun value => value.present?.map view := by
  intro value a
  by_cases hnull : value = .null
  · subst hnull
    simp [optional, IsOptional, Value.present?, eq_comm]
  · have hoptional : optional read value = (read value).map some := by
      rw [optional]
      exact hnull
    dsimp only
    rw [hoptional, map_eq_ok, IsOptional, or_iff_right hnull, Value.present?_of_ne_null hnull]
    constructor
    · rintro ⟨b, hb, rfl⟩
      obtain ⟨htakes, rfl⟩ := (reads value b).1 hb
      exact ⟨htakes, rfl⟩
    · rintro ⟨htakes, rfl⟩
      exact ⟨view value, (reads value _).2 ⟨htakes, rfl⟩, rfl⟩

end Parts

end Reader

/-! ### Fields of records -/

/-- A field of a record with what it takes and how it changes the record. -/
structure Field (σ : Type) where
  slot : Slot σ
  takes : Value → Prop
  store : Value → σ → σ
  update_eq_ok_iff : ∀ value record result, slot.update value record = .ok result ↔
    takes value ∧ result = store value record

namespace Field

variable {σ : Type}

abbrev name (field : Field σ) : String := field.slot.name

def of {α : Type} (name : String) {read : Reader α} {takes : Value → Prop} {view : Value → α}
    (reads : read.Reads takes view) (set : α → σ → σ) : Field σ where
  slot := .of name read set
  takes := takes
  store value := set (view value)
  update_eq_ok_iff value record result := by
    rw [Slot.of, map_eq_ok]
    constructor
    · rintro ⟨a, ha, rfl⟩
      obtain ⟨htakes, rfl⟩ := (reads value a).1 ha
      exact ⟨htakes, rfl⟩
    · rintro ⟨htakes, rfl⟩
      exact ⟨view value, (reads value _).2 ⟨htakes, rfl⟩, rfl⟩

def shapes (fields : List (Field σ)) : List (String × (Value → Prop)) :=
  fields.map fun field => (field.name, field.takes)

end Field

namespace Reader

variable {σ : Type} {fields : List (Field σ)}

theorem find?_slot {name : List Char} {slot : Slot σ}
    (h : (fields.map Field.slot).find? (·.name.toList = name) = some slot) :
    ∃ field ∈ fields, field.slot = slot ∧ field.name.toList = name := by
  obtain ⟨field, hmem, rfl⟩ := List.mem_map.1 (List.mem_of_find?_eq_some h)
  exact ⟨field, hmem, rfl, by simpa using List.find?_some h⟩

theorem find?_slot_of_mem (distinct : (fields.map Field.name).Nodup) {field : Field σ}
    (h : field ∈ fields) :
    (fields.map Field.slot).find? (·.name.toList = field.name.toList) = some field.slot := by
  cases hfound : (fields.map Field.slot).find? (·.name.toList = field.name.toList) with
  | none =>
      have hother := List.find?_eq_none.1 hfound field.slot (List.mem_map_of_mem h)
      exact absurd (decide_eq_true rfl) hother
  | some slot =>
      obtain ⟨other, hmem, rfl, hname⟩ := find?_slot hfound
      rw [List.inj_on_of_nodup_map distinct hmem h (String.toList_inj.1 hname)]

section Entries

variable (distinct : (fields.map Field.name).Nodup) {seen : List String}
  {content : List (Value × Value)} {record result : σ}

include distinct

theorem entries_cons_eq_ok_iff {key value : Value} :
    entries (fields.map Field.slot) seen ((key, value) :: content) record = .ok result ↔
      ∃ field ∈ fields, key.text? = some field.name.toList ∧ field.name ∉ seen ∧
        field.takes value ∧ entries (fields.map Field.slot) (field.name :: seen) content
          (field.store value record) = .ok result := by
  rw [entries, bind_eq_ok]
  constructor
  · rintro ⟨name, hname, h⟩
    cases hslot : (fields.map Field.slot).find? (·.name.toList = name) with
    | none =>
        rw [hslot] at h
        cases h
    | some slot =>
        obtain ⟨field, hmem, rfl, rfl⟩ := find?_slot hslot
        rw [hslot] at h
        dsimp only at h
        split at h
        · cases h
        · next hseen =>
            obtain ⟨next, hnext, hrest⟩ := bind_eq_ok.1 h
            obtain ⟨htakes, rfl⟩ := (field.update_eq_ok_iff _ _ _).1 hnext
            exact ⟨field, hmem, stringAs_eq_ok_iff.1 hname, hseen, htakes, hrest⟩
  · rintro ⟨field, hmem, hname, hseen, htakes, hrest⟩
    refine ⟨field.name.toList, stringAs_eq_ok_iff.2 hname, ?_⟩
    rw [find?_slot_of_mem distinct hmem]
    dsimp only
    rw [if_neg hseen, (field.update_eq_ok_iff _ _ _).2 ⟨htakes, rfl⟩]
    exact hrest

/-- Entries are read if they are fields, and nothing else is. -/
theorem exists_entries_eq_ok_iff :
    (∃ result, entries (fields.map Field.slot) seen content record = .ok result) ↔
      AreFields (Field.shapes fields) seen content := by
  induction content generalizing seen record with
  | nil =>
      refine iff_of_true ⟨record, by rw [entries]⟩ ?_
      exact ⟨List.forall_mem_nil _, List.nodup_nil, List.forall_mem_nil _⟩
  | cons entry rest ih =>
      obtain ⟨key, value⟩ := entry
      simp only [entries_cons_eq_ok_iff distinct]
      constructor
      · rintro ⟨result, field, hmem, hname, hseen, htakes, hrest⟩
        obtain ⟨known, distinct, unseen⟩ := ih.1 ⟨result, hrest⟩
        obtain ⟨hfresh, hunseen⟩ := List.forall_mem_cons.1 fun name hname entry hentry =>
          unseen entry hentry name hname
        refine ⟨List.forall_mem_cons.2 ⟨?_, known⟩, List.nodup_cons.2 ⟨?_, distinct⟩,
          List.forall_mem_cons.2 ⟨?_, ?_⟩⟩
        · exact ⟨(field.name, field.takes), List.mem_map_of_mem hmem, hname, htakes⟩
        · intro hagain
          obtain ⟨entry, hentry, hsame⟩ := List.mem_map.1 hagain
          exact hfresh entry hentry (hsame.trans hname)
        · intro name hmem hsame
          rw [hname, Option.some_inj, String.toList_inj] at hsame
          exact hseen (hsame ▸ hmem)
        · exact fun entry hentry name hname => hunseen name hname entry hentry
      · rintro ⟨known, distinct, unseen⟩
        obtain ⟨⟨shape, hshape, hname, htakes⟩, hknown⟩ := List.forall_mem_cons.1 known
        obtain ⟨field, hmem, rfl⟩ := List.mem_map.1 hshape
        obtain ⟨hagain, hdistinct⟩ := List.nodup_cons.1 distinct
        obtain ⟨hfirst, hunseen⟩ := List.forall_mem_cons.1 unseen
        have hrest : AreFields (Field.shapes fields) (field.name :: seen) rest := by
          refine ⟨hknown, hdistinct, fun entry hentry name hmem => ?_⟩
          rcases List.mem_cons.1 hmem with rfl | hmem
          · intro hsame
            exact hagain (List.mem_map.2 ⟨entry, hentry, hsame.trans hname.symm⟩)
          · exact hunseen entry hentry name hmem
        obtain ⟨result, hresult⟩ := ih.2 hrest
        exact ⟨result, field, hmem, hname, fun hmem => hfirst _ hmem hname, htakes, hresult⟩

section Parts

variable {β : Type} {get : σ → β} {view : Value → β} {field : Field σ} (hfield : field ∈ fields)
  (own : ∀ value record, get (field.store value record) = view value)
  (others : ∀ other ∈ fields, other.name ≠ field.name → ∀ value record,
    get (other.store value record) = get record)

include hfield own others

/-- A part of a record that is kept by all fields but one is what that field reads. -/
theorem get_of_entries (h : entries (fields.map Field.slot) seen content record = .ok result) :
    get result = ((content.find? (isNamed field.name)).map fun entry => view entry.2).getD
      (get record) := by
  induction content generalizing seen record with
  | nil =>
      rw [entries] at h
      cases h
      rfl
  | cons entry rest ih =>
      obtain ⟨key, value⟩ := entry
      obtain ⟨first, hmem, hname, hseen, htakes, hrest⟩ := (entries_cons_eq_ok_iff distinct).1 h
      rw [ih hrest]
      by_cases hsame : first.name = field.name
      · obtain rfl := List.inj_on_of_nodup_map distinct hmem hfield hsame
        -- the field is not named again
        have hunseen := ((exists_entries_eq_ok_iff distinct).1 ⟨result, hrest⟩).unseen
        have hnone : rest.find? (isNamed first.name) = none := by
          refine List.find?_eq_none.2 fun entry hentry hnamed => ?_
          exact hunseen entry hentry _ List.mem_cons_self (isNamed_iff.1 hnamed)
        rw [hnone, List.find?_cons_of_pos (isNamed_iff.2 hname)]
        exact own value record
      · have hother : isNamed field.name (key, value) = false := by
          rw [Bool.eq_false_iff, Ne, isNamed_iff, hname, Option.some_inj, String.toList_inj]
          exact hsame
        rw [List.find?_cons_of_neg (Bool.eq_false_iff.1 hother), others first hmem hsame]

end Parts

end Entries

section Records

variable (distinct : (fields.map Field.name).Nodup) {called : String} {initial : σ} {value : Value}

include distinct

theorem exists_record_eq_ok_iff :
    (∃ result, record called (fields.map Field.slot) initial value = .ok result) ↔
      IsRecordOf (Field.shapes fields) value := by
  rw [IsRecordOf]
  simp only [record]
  cases value.untagged with
  | mapping content => simp [exists_entries_eq_ok_iff distinct]
  | _ => simp

theorem get_of_record {β : Type} (get : σ → β) (view : Value → β) (field : Field σ)
    (hfield : field ∈ fields) (own : ∀ value record, get (field.store value record) = view value)
    (others : ∀ other ∈ fields, other.name ≠ field.name → ∀ value record,
      get (other.store value record) = get record)
    (unset : get initial = view .null) {result : σ}
    (h : record called (fields.map Field.slot) initial value = .ok result) :
    get result = view (value.field field.name) := by
  rw [Value.field, Value.entries]
  simp only [record] at h
  cases huntagged : value.untagged with
  | mapping content =>
      rw [huntagged] at h
      rw [get_of_entries distinct hfield own others h, unset]
      cases content.find? (isNamed field.name) <;> rfl
  | null =>
      rw [huntagged] at h
      cases h
      exact unset
  | _ =>
      rw [huntagged] at h
      cases h

/-- What a reader of records takes, once it is known what it makes of a value. -/
theorem reads_record {view : Value → σ} (eq_view : ∀ value result,
      record called (fields.map Field.slot) initial value = .ok result → result = view value) :
    (record called (fields.map Field.slot) initial).Reads (IsRecordOf (Field.shapes fields))
      view := by
  intro value result
  constructor
  · intro h
    exact ⟨(exists_record_eq_ok_iff distinct).1 ⟨result, h⟩, eq_view value result h⟩
  · rintro ⟨htakes, rfl⟩
    obtain ⟨other, hother⟩ := (exists_record_eq_ok_iff distinct).2 htakes
    rw [← eq_view value other hother]
    exact hother

end Records

theorem reads_single {α : Type} (called name : String) {read : Reader α} {takes : Value → Prop}
    {view : Value → α} (reads : read.Reads takes view) (make : α → σ) {initial : σ}
    (unset : initial = make (view .null)) :
    (record called [.of name read fun a _ => make a] initial).Reads (IsRecordOf [(name, takes)])
      fun value => make (view (value.field name)) := by
  let field : Field σ := .of name reads fun a _ => make a
  have distinct : ([field].map Field.name).Nodup := List.nodup_singleton _
  refine reads_record distinct fun value result h => ?_
  refine get_of_record distinct id (fun value => make (view value)) field
    (List.mem_singleton.2 rfl) (fun _ _ => rfl) ?_ unset h
  intro other hother hname
  exact absurd (congrArg Field.name (List.mem_singleton.1 hother)) hname

end Reader

end Configuration

end ManifestRelay

import HomeServer.Services.Presets
import Mathlib.Data.List.Forall2

/-! Which documents `load_presets` accepts. The loop is stated again over untyped values, as the
source has it, where a membership test could raise: it is the typed one and never does. -/
namespace HomeServer.Services.Presets
open HomeServer.Db HomeServer.Ble

namespace Raising

inductive Raised
  | presetError (e : PresetError)
  | typeError

def equalsString (x : Json) (s : String) : Bool :=
  match x with
  | .string t => t = s
  | _ => false

/-- `x in xs` for a tuple or a list of strings compares only. -/
def inSequence (x : Json) (xs : List String) : Bool := xs.any (equalsString x)

/-- `x in s` for a set of strings hashes `x` first: lists and dicts are unhashable. -/
def inSet (x : Json) (s : List String) : Except Raised Bool :=
  match x with
  | .array _ | .object _ => .error .typeError
  | _ => .ok (s.any (equalsString x))

def isString : Json → Bool
  | .string _ => true
  | _ => false

/-- `not x`: the values that count as false. -/
def isFalsy : Json → Bool
  | .null => true
  | .bool b => !b
  | .number x => x = .negZero ∨ x = .finite 0
  | .string s => s = ""
  | .array items => items.isEmpty
  | .object fields => fields.isEmpty

def isNull : Json → Bool
  | .null => true
  | _ => false

/-- The fields of the dataclass, which are strings where the checks passed. -/
def text : Json → String
  | .string s => s
  | _ => ""

def typeOf (x : Json) : ChannelType := if equalsString x "controller" then .controller else .display

def unitOf : Json → Option String
  | .string s => some s
  | _ => none

def raising (e : PresetError) : Except Raised Loading := .error (.presetError e)

def loadEntry (i : ℕ) (s : Loading) (entry : Json) : Except Raised Loading := do
  match entry with
  | .object fields =>
    let label := Json.field fields "label"
    let charUuid := Json.field fields "char_uuid"
    let ctype := Json.field fields "type"
    let dataFormat := Json.field fields "data_format"
    let unit := Json.field fields "unit"
    if !isString label || isFalsy label then raising (.label i)
    else if !isString charUuid || isFalsy charUuid then raising (.charUuid i)
    else if !inSequence ctype ["controller", "display"] then raising (.type i ctype)
    else if !inSequence dataFormat Parser.supportedFormats then
      raising (.dataFormat i dataFormat)
    else if !isNull unit && !isString unit then raising (.unit i)
    else if ← inSet label s.seenLabels then raising (.duplicateLabel i (text label))
    else if ← inSet charUuid s.seenUuids then raising (.duplicateCharUuid i (text charUuid))
    else .ok {
      presets := s.presets ++ [{
        label := text label, charUuid := text charUuid, type := typeOf ctype
        dataFormat := text dataFormat, unit := unitOf unit }]
      seenLabels := text label :: s.seenLabels
      seenUuids := text charUuid :: s.seenUuids }
  | _ => raising (.notAnObject i)

def loadEntries : ℕ → Loading → List Json → Except Raised Loading
  | _, s, [] => .ok s
  | i, s, entry :: entries => do
    let s' ← loadEntry i s entry
    loadEntries (i + 1) s' entries

/-- `load_presets` of a file that parses to `data`. -/
def loadPresets (data : Json) : Except Raised (List ChannelPreset) := do
  match data with
  | .array entries => do
    let s ← loadEntries 0 {} entries
    return s.presets
  | _ => .error (.presetError .notAnArray)

section Typed
variable {i : ℕ} {x : Json}

theorem nonEmptyString_eq (e : PresetError) (x : Json) : nonEmptyString e x =
    if !isString x || isFalsy x then .error e else .ok (text x) := by
  cases x with
  | string s => by_cases hs : s = "" <;> simp [nonEmptyString, isString, isFalsy, text, hs]
  | null | bool | number | array | object => rfl

theorem any_equalsString (s : String) (xs : List String) :
    xs.any (equalsString (.string s)) = decide (s ∈ xs) := by
  rw [Bool.eq_iff_iff]
  simp [equalsString]

theorem inSequence_of_not_isString (hx : isString x = false) (xs : List String) :
    inSequence x xs = false := by
  cases x with
  | string s => cases hx
  | null | bool | number | array | object => simp [inSequence, equalsString]

theorem supportedFormat_eq (i : ℕ) (x : Json) : supportedFormat i x =
    if !inSequence x Parser.supportedFormats then .error (.dataFormat i x) else .ok (text x) := by
  cases x with
  | string s =>
    unfold supportedFormat inSequence
    rw [any_equalsString]
    by_cases hs : s ∈ Parser.supportedFormats <;> simp [hs, text]
  | null | bool | number | array | object =>
    rw [inSequence_of_not_isString rfl]
    rfl

theorem channelType_eq (i : ℕ) (x : Json) : channelType i x =
    if !inSequence x ["controller", "display"] then .error (.type i x) else .ok (typeOf x) := by
  cases x with
  | string s =>
    unfold inSequence typeOf
    rw [any_equalsString]
    unfold channelType equalsString
    split
    · rename_i heq
      cases heq
      rfl
    · rename_i heq
      cases heq
      rfl
    · rename_i hcontroller hdisplay
      have hc : s ≠ "controller" := fun heq => hcontroller (heq ▸ rfl)
      have hd : s ≠ "display" := fun heq => hdisplay (heq ▸ rfl)
      simp [hc, hd]
  | null | bool | number | array | object =>
    rw [inSequence_of_not_isString rfl]
    rfl

theorem stringOrNull_eq (e : PresetError) (x : Json) : stringOrNull e x =
    if !isNull x && !isString x then .error e else .ok (unitOf x) := by
  cases x <;> rfl

theorem inSet_of_isString (hx : isString x = true) (xs : List String) :
    inSet x xs = .ok (decide (text x ∈ xs)) := by
  cases x with
  | string s =>
    unfold inSet
    rw [any_equalsString]
    rfl
  | null | bool | number | array | object => cases hx

theorem check_eq {α : Type} {c : Prop} [Decidable c] {e : PresetError} {x : α}
    {a : Except Raised Loading} {f : α → Except PresetError Loading}
    (h : ¬c → a = (f x).mapError .presetError) :
    (if c then raising e else a) =
      ((if c then .error e else .ok x : Except PresetError α) >>= f).mapError .presetError := by
  split_ifs with hc
  · rfl
  · exact h hc

theorem member_eq {c : Prop} [Decidable c] {e : PresetError} {a : Except Raised Loading}
    {b : Except PresetError Loading} (h : ¬c → a = b.mapError .presetError) :
    (if decide c = true then raising e else a) =
      (if c then .error e else b).mapError .presetError := by
  by_cases hc : c
  · rw [if_pos (decide_eq_true hc), if_pos hc]
    rfl
  · rw [if_neg (by simpa using hc), if_neg hc]
    exact h hc

/-- Only strings reach the sets, so the loop raises what the typed one returns. -/
theorem loadEntry_eq (i : ℕ) (s : Loading) (entry : Json) :
    loadEntry i s entry = (Presets.loadEntry i s entry).mapError .presetError := by
  cases entry with
  | object fields =>
    unfold loadEntry Presets.loadEntry
    dsimp only
    rw [nonEmptyString_eq, nonEmptyString_eq, channelType_eq, supportedFormat_eq, stringOrNull_eq]
    generalize Json.field fields "label" = label
    generalize Json.field fields "char_uuid" = charUuid
    apply check_eq
    intro hlabel
    apply check_eq
    intro huuid
    have hlabel : isString label = true := by
      cases hs : isString label <;> simp_all
    have huuid : isString charUuid = true := by
      cases hs : isString charUuid <;> simp_all
    rw [inSet_of_isString hlabel, inSet_of_isString huuid]
    apply check_eq
    intro _
    apply check_eq
    intro _
    apply check_eq
    intro _
    apply member_eq
    intro _
    apply member_eq
    intro _
    rfl
  | null | bool | number | string | array => rfl

theorem loadEntries_eq (i : ℕ) (s : Loading) (entries : List Json) :
    loadEntries i s entries = (Presets.loadEntries i s entries).mapError .presetError := by
  induction entries generalizing i s with
  | nil => rfl
  | cons entry entries ih =>
    unfold loadEntries Presets.loadEntries
    rw [loadEntry_eq]
    cases Presets.loadEntry i s entry with
    | error e => rfl
    | ok s' => exact ih (i + 1) s'

theorem loadPresets_eq (data : Json) :
    loadPresets data = (Presets.loadPresets (.ok data)).mapError .presetError := by
  cases data with
  | array entries =>
    unfold loadPresets
    dsimp only
    rw [loadEntries_eq]
    change _ = Except.mapError _ (Presets.loadEntries 0 {} entries >>= fun s => .ok s.presets)
    cases Presets.loadEntries 0 {} entries <;> rfl
  | null | bool | number | string | object => rfl

end Typed
end Raising

def typeName : ChannelType → String
  | .controller => "controller"
  | .display => "display"

/-- The entry has exactly the fields of the preset. An absent unit reads as null. -/
structure ValidFields (fields : List (String × Json)) (p : ChannelPreset) : Prop where
  label : Json.field fields "label" = .string p.label
  charUuid : Json.field fields "char_uuid" = .string p.charUuid
  type : Json.field fields "type" = .string (typeName p.type)
  dataFormat : Json.field fields "data_format" = .string p.dataFormat
  unit : Json.field fields "unit" = (p.unit.map Json.string).getD .null
  valid : Valid p

def ValidEntry (entry : Json) (p : ChannelPreset) : Prop :=
  ∃ fields, entry = .object fields ∧ ValidFields fields p

/-- An array of valid entries, the presets in order, without a label or a char_uuid twice. -/
def Catalogue (data : Json) (presets : List ChannelPreset) : Prop :=
  ∃ entries, data = .array entries ∧ List.Forall₂ ValidEntry entries presets ∧
    (presets.map ChannelPreset.label).Nodup ∧ (presets.map ChannelPreset.charUuid).Nodup

section Acceptance
variable {i : ℕ} {s s' : Loading} {entry : Json} {entries : List Json}

theorem nonEmptyString_iff {e : PresetError} {x : Json} {v : String} :
    nonEmptyString e x = .ok v ↔ x = .string v ∧ v ≠ "" := by
  cases x with
  | string s =>
    by_cases hs : s = ""
    · simp only [nonEmptyString, hs, if_true, Json.string.injEq]
      exact ⟨fun h => (nomatch h), fun h => absurd h.1.symm h.2⟩
    · simp only [nonEmptyString, hs, if_false, Except.ok.injEq, Json.string.injEq]
      exact ⟨fun h => ⟨h, h ▸ hs⟩, fun h => h.1⟩
  | null | bool | number | array | object => simp [nonEmptyString]

theorem channelType_iff {x : Json} {t : ChannelType} :
    channelType i x = .ok t ↔ x = .string (typeName t) := by
  constructor
  · intro h
    unfold channelType at h
    split at h <;> cases h <;> rfl
  · rintro rfl
    cases t <;> rfl

theorem supportedFormat_iff {x : Json} {v : String} :
    supportedFormat i x = .ok v ↔ x = .string v ∧ v ∈ Parser.supportedFormats := by
  cases x with
  | string s =>
    by_cases hs : s ∈ Parser.supportedFormats
    · simp only [supportedFormat, hs, if_true, Except.ok.injEq, Json.string.injEq]
      exact ⟨fun h => ⟨h, h ▸ hs⟩, fun h => h.1⟩
    · simp only [supportedFormat, hs, if_false, Json.string.injEq]
      exact ⟨fun h => (nomatch h), fun h => absurd (h.1 ▸ h.2) hs⟩
  | null | bool | number | array | object => simp [supportedFormat]

theorem stringOrNull_iff {e : PresetError} {x : Json} {u : Option String} :
    stringOrNull e x = .ok u ↔ x = (u.map Json.string).getD .null := by
  cases x <;> cases u <;> simp [stringOrNull, eq_comm]

theorem bind_eq_ok {ε α β : Type} {m : Except ε α} {f : α → Except ε β} {b : β} :
    (m >>= f) = .ok b ↔ ∃ a, m = .ok a ∧ f a = .ok b := by
  cases m with
  | error e => exact ⟨fun h => (nomatch h), fun ⟨_, h, _⟩ => nomatch h⟩
  | ok a => exact ⟨fun h => ⟨a, rfl, h⟩, fun ⟨_, h, hf⟩ => Except.ok.inj h ▸ hf⟩

def Loading.add (s : Loading) (p : ChannelPreset) : Loading where
  presets := s.presets ++ [p]
  seenLabels := p.label :: s.seenLabels
  seenUuids := p.charUuid :: s.seenUuids

/-- One entry: its fields, and a label and a char_uuid that no entry before it has. -/
theorem loadEntry_iff : loadEntry i s entry = .ok s' ↔
    ∃ p, ValidEntry entry p ∧ p.label ∉ s.seenLabels ∧ p.charUuid ∉ s.seenUuids ∧
      s' = s.add p := by
  cases entry with
  | object fields =>
    unfold loadEntry
    simp only [bind_eq_ok, nonEmptyString_iff, channelType_iff, supportedFormat_iff,
      stringOrNull_iff]
    constructor
    · rintro ⟨label, ⟨hlabel, hne⟩, charUuid, ⟨huuid, hne'⟩, type, htype, dataFormat,
        ⟨hformat, hmem⟩, unit, hunit, h⟩
      split_ifs at h with hseen hseen'
      obtain rfl := Except.ok.inj h
      exact ⟨⟨label, charUuid, type, dataFormat, unit⟩,
        ⟨fields, rfl, hlabel, huuid, htype, hformat, hunit, hne, hne', hmem⟩, hseen, hseen', rfl⟩
    · rintro ⟨p, ⟨fields', heq, hp⟩, hseen, hseen', rfl⟩
      obtain rfl := Json.object.inj heq
      refine ⟨p.label, ⟨hp.label, hp.valid.label⟩, p.charUuid, ⟨hp.charUuid, hp.valid.charUuid⟩,
        p.type, hp.type, p.dataFormat, ⟨hp.dataFormat, hp.valid.dataFormat⟩, p.unit, hp.unit, ?_⟩
      rw [if_neg hseen, if_neg hseen']
      rfl
  | null | bool | number | string | array =>
    constructor
    · intro h
      cases h
    · rintro ⟨p, ⟨fields, heq, -⟩, -⟩
      cases heq

/-- Labels and char_uuids that are new to the sets and to each other. -/
structure Fresh (s : Loading) (ps : List ChannelPreset) : Prop where
  labels : (∀ p ∈ ps, p.label ∉ s.seenLabels) ∧ (ps.map ChannelPreset.label).Nodup
  uuids : (∀ p ∈ ps, p.charUuid ∉ s.seenUuids) ∧ (ps.map ChannelPreset.charUuid).Nodup

theorem fresh_cons {p : ChannelPreset} {ps : List ChannelPreset} :
    Fresh s (p :: ps) ↔ p.label ∉ s.seenLabels ∧ p.charUuid ∉ s.seenUuids ∧ Fresh (s.add p) ps := by
  constructor
  · rintro ⟨⟨hlabels, hdistinct⟩, ⟨huuids, hdistinct'⟩⟩
    obtain ⟨hlabel, hlabels⟩ := List.forall_mem_cons.mp hlabels
    obtain ⟨huuid, huuids⟩ := List.forall_mem_cons.mp huuids
    obtain ⟨hnew, hdistinct⟩ := List.nodup_cons.mp hdistinct
    obtain ⟨hnew', hdistinct'⟩ := List.nodup_cons.mp hdistinct'
    refine ⟨hlabel, huuid, ⟨fun q hq => ?_, hdistinct⟩, fun q hq => ?_, hdistinct'⟩
    · exact List.not_mem_cons_of_ne_of_not_mem
        (fun heq => hnew (heq ▸ List.mem_map_of_mem hq)) (hlabels q hq)
    · exact List.not_mem_cons_of_ne_of_not_mem
        (fun heq => hnew' (heq ▸ List.mem_map_of_mem hq)) (huuids q hq)
  · rintro ⟨hlabel, huuid, ⟨hlabels, hdistinct⟩, ⟨huuids, hdistinct'⟩⟩
    constructor
    · refine ⟨List.forall_mem_cons.mpr ⟨hlabel, fun q hq hmem => ?_⟩,
        List.nodup_cons.mpr ⟨fun hmem => ?_, hdistinct⟩⟩
      · exact hlabels q hq (.tail _ hmem)
      · obtain ⟨q, hq, heq⟩ := List.mem_map.mp hmem
        exact hlabels q hq (heq ▸ .head _)
    · refine ⟨List.forall_mem_cons.mpr ⟨huuid, fun q hq hmem => ?_⟩,
        List.nodup_cons.mpr ⟨fun hmem => ?_, hdistinct'⟩⟩
      · exact huuids q hq (.tail _ hmem)
      · obtain ⟨q, hq, heq⟩ := List.mem_map.mp hmem
        exact huuids q hq (heq ▸ .head _)

theorem loadEntries_iff : loadEntries i s entries = .ok s' ↔
    ∃ ps, List.Forall₂ ValidEntry entries ps ∧ Fresh s ps ∧ s' = ps.foldl Loading.add s := by
  induction entries generalizing i s with
  | nil =>
    constructor
    · intro h
      exact ⟨[], .nil, ⟨by simp, by simp⟩, (Except.ok.inj h).symm⟩
    · rintro ⟨ps, hps, -, rfl⟩
      cases hps
      rfl
  | cons entry entries ih =>
    unfold loadEntries
    rw [bind_eq_ok]
    constructor
    · rintro ⟨s₁, hentry, hrest⟩
      obtain ⟨p, hp, hlabel, huuid, rfl⟩ := loadEntry_iff.mp hentry
      obtain ⟨ps, hps, hfresh, rfl⟩ := ih.mp hrest
      exact ⟨p :: ps, .cons hp hps, fresh_cons.mpr ⟨hlabel, huuid, hfresh⟩, rfl⟩
    · rintro ⟨ps, hps, hfresh, rfl⟩
      cases hps with
      | cons hp hps =>
        obtain ⟨hlabel, huuid, hfresh⟩ := fresh_cons.mp hfresh
        exact ⟨_, loadEntry_iff.mpr ⟨_, hp, hlabel, huuid, rfl⟩,
          ih.mpr ⟨_, hps, hfresh, rfl⟩⟩

theorem presets_foldl_add (s : Loading) (ps : List ChannelPreset) :
    (ps.foldl Loading.add s).presets = s.presets ++ ps := by
  induction ps generalizing s with
  | nil => simp
  | cons p ps ih =>
    rw [List.foldl_cons, ih]
    simp [Loading.add]

theorem loadPresets_iff {data : Json} {presets : List ChannelPreset} :
    loadPresets (.ok data) = .ok presets ↔ Catalogue data presets := by
  cases data with
  | array entries =>
    change (loadEntries 0 {} entries >>= fun s => .ok s.presets) = _ ↔ _
    rw [bind_eq_ok]
    unfold Catalogue
    constructor
    · rintro ⟨s, hentries, hs⟩
      obtain ⟨ps, hps, hfresh, rfl⟩ := loadEntries_iff.mp hentries
      have hpresets : ps = presets := by
        rw [← Except.ok.inj hs, presets_foldl_add]
        rfl
      exact ⟨entries, rfl, hpresets ▸ hps, hpresets ▸ hfresh.labels.2, hpresets ▸ hfresh.uuids.2⟩
    · rintro ⟨entries', heq, hps, hlabels, huuids⟩
      obtain rfl := Json.array.inj heq
      refine ⟨_, loadEntries_iff.mpr ⟨presets, hps, ⟨⟨by simp, hlabels⟩, by simp, huuids⟩, rfl⟩, ?_⟩
      rw [presets_foldl_add]
      rfl
  | null | bool | number | string | object =>
    constructor
    · intro h
      cases h
    · rintro ⟨entries, heq, -⟩
      cases heq

/-- A document is accepted exactly when it is a catalogue, with the presets of the catalogue, and
every other raises a `PresetError`. -/
theorem loadPresets_accepts_catalogues (data : Json) :
    (∀ presets, Raising.loadPresets data = .ok presets ↔ Catalogue data presets) ∧
    ((∀ presets, ¬Catalogue data presets) →
      ∃ e, Raising.loadPresets data = .error (.presetError e)) := by
  rw [Raising.loadPresets_eq]
  cases hload : loadPresets (.ok data) with
  | error e =>
    constructor
    · intro presets
      rw [← loadPresets_iff, hload]
      simp [Except.mapError]
    · intro _
      exact ⟨e, rfl⟩
  | ok presets' =>
    constructor
    · intro presets
      rw [← loadPresets_iff, hload]
      simp [Except.mapError]
    · intro hnone
      exact absurd (loadPresets_iff.mp hload) (hnone presets')

example : Raising.loadPresets (.array [.object [("label", .array [])]]) =
    .error (.presetError (.label 0)) := rfl

end Acceptance
end HomeServer.Services.Presets

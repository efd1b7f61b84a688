import HomeServer.Services.Reconnect
import HomeServer.Services.Requests

/-! The catalogue of channel presets: its validation, and which presets a device is offered. -/
namespace HomeServer.Services
open HomeServer.Db HomeServer.Ble HomeServer.Lib

/-- A value that `json.loads` returns; of equal keys of an object the last one counts. -/
inductive Json
  | null
  | bool (b : Bool)
  | number (x : PyFloat)
  | string (s : String)
  | array (items : List Json)
  | object (fields : List (String × Json))

/-- `entry.get(key)`, where a missing key reads as null. -/
def Json.field (fields : List (String × Json)) (key : String) : Json :=
  ((fields.reverse.find? fun f => f.1 = key).map Prod.snd).getD .null

/-- The messages of `PresetError`: `i` is the entry that is at fault. -/
inductive PresetError
  | cannotRead
  | invalidJson
  | notAnArray
  | notAnObject (i : ℕ)
  | label (i : ℕ)
  | charUuid (i : ℕ)
  | type (i : ℕ) (got : Json)
  | dataFormat (i : ℕ) (got : Json)
  | unit (i : ℕ)
  | duplicateLabel (i : ℕ) (label : String)
  | duplicateCharUuid (i : ℕ) (charUuid : Uuid)

namespace Presets

def nonEmptyString (e : PresetError) : Json → Except PresetError String
  | .string s => if s = "" then .error e else .ok s
  | _ => .error e

def channelType (i : ℕ) : Json → Except PresetError ChannelType
  | .string "controller" => .ok .controller
  | .string "display" => .ok .display
  | ctype => .error (.type i ctype)

def supportedFormat (i : ℕ) : Json → Except PresetError String
  | .string s => if s ∈ Parser.supportedFormats then .ok s else .error (.dataFormat i (.string s))
  | dataFormat => .error (.dataFormat i dataFormat)

def stringOrNull (e : PresetError) : Json → Except PresetError (Option String)
  | .null => .ok none
  | .string s => .ok (some s)
  | _ => .error e

/-- What the loop over the entries has gathered. -/
structure Loading where
  presets : List ChannelPreset := []
  seenLabels : List String := []
  seenUuids : List Uuid := []

def loadEntry (i : ℕ) (s : Loading) : Json → Except PresetError Loading
  | .object fields => do
    let label ← nonEmptyString (.label i) (Json.field fields "label")
    let charUuid ← nonEmptyString (.charUuid i) (Json.field fields "char_uuid")
    let type ← channelType i (Json.field fields "type")
    let dataFormat ← supportedFormat i (Json.field fields "data_format")
    let unit ← stringOrNull (.unit i) (Json.field fields "unit")
    if label ∈ s.seenLabels then .error (.duplicateLabel i label)
    else if charUuid ∈ s.seenUuids then .error (.duplicateCharUuid i charUuid)
    else .ok {
      presets := s.presets ++ [{ label, charUuid, type, dataFormat, unit }]
      seenLabels := label :: s.seenLabels
      seenUuids := charUuid :: s.seenUuids }
  | _ => .error (.notAnObject i)

def loadEntries : ℕ → Loading → List Json → Except PresetError Loading
  | _, s, [] => .ok s
  | i, s, entry :: entries => do
    let s' ← loadEntry i s entry
    loadEntries (i + 1) s' entries

/-- `file` is what reading and parsing the file gives. -/
def loadPresets (file : Except PresetError Json) : Except PresetError (List ChannelPreset) := do
  match ← file with
  | .array entries => do
    let s ← loadEntries 0 {} entries
    return s.presets
  | _ => .error .notAnArray

/-- A preset that the loop lets through. -/
structure Valid (p : ChannelPreset) : Prop where
  label : p.label ≠ ""
  charUuid : p.charUuid ≠ ""
  dataFormat : p.dataFormat ∈ Parser.supportedFormats

/-- The sets of the loop hold what the presets have, each once. -/
structure Loaded (s : Loading) : Prop where
  valid : ∀ p ∈ s.presets, Valid p
  labels : ∀ label, label ∈ s.seenLabels ↔ ∃ p ∈ s.presets, p.label = label
  uuids : ∀ charUuid, charUuid ∈ s.seenUuids ↔ ∃ p ∈ s.presets, p.charUuid = charUuid
  distinctLabels : (s.presets.map ChannelPreset.label).Nodup
  distinctUuids : (s.presets.map ChannelPreset.charUuid).Nodup

section Loop
variable {i : ℕ} {s s' : Loading} {entry : Json} {entries : List Json}

theorem nonEmptyString_ok {e : PresetError} {x : Json} {v : String}
    (h : nonEmptyString e x = .ok v) : v ≠ "" := by
  unfold nonEmptyString at h
  split at h
  · split at h
    · cases h
    · rename_i hne
      cases h
      exact hne
  · cases h

theorem supportedFormat_ok {x : Json} {v : String} (h : supportedFormat i x = .ok v) :
    v ∈ Parser.supportedFormats := by
  unfold supportedFormat at h
  split at h
  · split at h
    · rename_i hmem
      cases h
      exact hmem
    · cases h
  · cases h

private theorem bind_ok {ε α β : Type} {m : Except ε α} {f : α → Except ε β} {b : β}
    (h : (m >>= f) = .ok b) : ∃ a, m = .ok a ∧ f a = .ok b := by
  cases m with
  | error e => cases h
  | ok a => exact ⟨a, rfl, h⟩

/-- An entry that is accepted adds one preset, with a label and a char_uuid of its own. -/
theorem loadEntry_ok (h : Presets.loadEntry i s entry = .ok s') :
    ∃ p, Valid p ∧ p.label ∉ s.seenLabels ∧ p.charUuid ∉ s.seenUuids ∧
      s' = ⟨s.presets ++ [p], p.label :: s.seenLabels, p.charUuid :: s.seenUuids⟩ := by
  cases entry with
  | object fields =>
    unfold loadEntry at h
    obtain ⟨label, hlabel, h⟩ := bind_ok h
    obtain ⟨charUuid, huuid, h⟩ := bind_ok h
    obtain ⟨type, -, h⟩ := bind_ok h
    obtain ⟨dataFormat, hformat, h⟩ := bind_ok h
    obtain ⟨unit, -, h⟩ := bind_ok h
    split_ifs at h with hseen hseen'
    cases h
    exact ⟨⟨label, charUuid, type, dataFormat, unit⟩,
      ⟨nonEmptyString_ok hlabel, nonEmptyString_ok huuid, supportedFormat_ok hformat⟩,
      hseen, hseen', rfl⟩
  | null | bool | number | string | array => cases h

theorem Loaded.loadEntry (hs : Loaded s) (h : Presets.loadEntry i s entry = .ok s') :
    Loaded s' := by
  obtain ⟨p, hvalid, hlabel, huuid, rfl⟩ := loadEntry_ok h
  have hnewLabel : ∀ q ∈ s.presets, q.label ≠ p.label := fun q hq heq =>
    hlabel ((hs.labels p.label).mpr ⟨q, hq, heq⟩)
  have hnewUuid : ∀ q ∈ s.presets, q.charUuid ≠ p.charUuid := fun q hq heq =>
    huuid ((hs.uuids p.charUuid).mpr ⟨q, hq, heq⟩)
  constructor
  · intro q hq
    rcases List.mem_append.mp hq with hq | hq
    · exact hs.valid q hq
    · rw [List.mem_singleton.mp hq]
      exact hvalid
  · intro label
    simp only [List.mem_cons, hs.labels, List.mem_append]
    grind
  · intro charUuid
    simp only [List.mem_cons, hs.uuids, List.mem_append]
    grind
  · simpa [List.nodup_append] using ⟨hs.distinctLabels, hnewLabel⟩
  · simpa [List.nodup_append] using ⟨hs.distinctUuids, hnewUuid⟩

theorem Loaded.loadEntries (hs : Loaded s) (h : loadEntries i s entries = .ok s') : Loaded s' := by
  induction entries generalizing i s with
  | nil =>
    cases h
    exact hs
  | cons entry entries ih =>
    obtain ⟨s₁, hentry, hrest⟩ := bind_ok h
    exact ih (hs.loadEntry hentry) hrest

end Loop
end Presets

namespace ChannelService
open Presets
variable {β : Type} {E : Env β} {w : World β}

end ChannelService
end HomeServer.Services

import HomeServer.Db.Statements
import HomeServer.Lib.Grouping
import HomeServer.Services.Units

/-! The merged view of all devices against the pages of the single devices: what is shown, under
which name, and as what. -/
namespace HomeServer.Web.Analytics
open HomeServer.Db HomeServer.Lib HomeServer.Lib.Grouping HomeServer.Lib.Overwrites
open HomeServer.Services.Units

structure DeviceEntry where
  channelId : ℕ
  deviceName : String
  deriving DecidableEq

structure ChannelGroup where
  name : String
  unit : Option String
  devices : List DeviceEntry := []
  deriving DecidableEq

def deviceNames (db : Database) : Dict ℕ String :=
  writeAll ∅ (db.devices.map fun d => (d.id, d.displayName))

def entryOf (names : Dict ℕ String) (ch : Channel) : DeviceEntry where
  channelId := ch.id
  deviceName := (names.lookup ch.deviceId).getD ("Device " ++ toString ch.deviceId)

/-- The body of the loop over the channels; `groups` is a dict in the order of its keys. -/
def addChannel (names : Dict ℕ String) (groups : List (Uuid × ChannelGroup)) (ch : Channel) :
    List (Uuid × ChannelGroup) :=
  if ch.type ≠ .display then groups
  else
    let groups := if ch.charUuid ∈ groups.map Prod.fst then groups
      else groups ++ [(ch.charUuid, { name := ch.name, unit := ch.unit })]
    groups.map fun g =>
      if g.1 = ch.charUuid then (g.1, { g.2 with devices := g.2.devices ++ [entryOf names ch] })
      else g

structure Merged where
  numericGroups : List ChannelGroup
  flagGroups : List ChannelGroup

def merged (db : Database) : Merged :=
  let groups := (db.channels.foldl (addChannel (deviceNames db)) []).map Prod.snd
  { numericGroups := groups.filter fun g => g.unit ≠ some "0/1"
    flagGroups := groups.filter fun g => g.unit = some "0/1" }

/-- What `channel_widget` puts on a page, with the data of its elements. -/
inductive Widget
  | flag (channelId : ℕ) (name : String)
  | enum (channelId : ℕ) (enumLabels : EnumMap)
  | chart (channelId : ℕ) (unit : String) (canvasHeight : ℕ) (showStats : Bool)
  | switch (channelId : ℕ) (on : Bool)
  | form (channelId : ℕ)

def channelWidget (channel : Channel) (controlStates : ℕ → Option Bool) (canvasHeight : ℕ)
    (showStats : Bool) : Widget :=
  if channel.type = .display ∧ channel.unit = some "0/1" then .flag channel.id channel.name
  else if channel.type = .display then
    match parseEnumUnit channel.unit with
    | some enumLabels => .enum channel.id enumLabels
    | none => .chart channel.id (channel.unit.getD "") canvasHeight showStats
  else if channel.type = .controller ∧ channel.unit = some "0/1" then
    .switch channel.id ((controlStates channel.id).getD false)
  else .form channel.id

def Widget.isFlag : Widget → Bool
  | .flag _ _ => true
  | _ => false

/-- The page of a device shows as flags the display channels whose own unit says so. -/
theorem isFlag_channelWidget (channel : Channel) (controlStates : ℕ → Option Bool)
    (canvasHeight : ℕ) (showStats : Bool) :
    (channelWidget channel controlStates canvasHeight showStats).isFlag = true ↔
      channel.type = .display ∧ channel.unit = some "0/1" := by
  unfold channelWidget
  split_ifs with hflag hdisplay hswitch
  · simp [Widget.isFlag, hflag]
  · cases parseEnumUnit channel.unit <;> simp_all [Widget.isFlag]
  · simp [Widget.isFlag, hdisplay]
  · simp [Widget.isFlag, hdisplay]

def displays (db : Database) : List Channel := db.channels.filter fun c => c.type = .display

def groupOf (names : Dict ℕ String) : List Channel → ChannelGroup
  | [] => { name := "", unit := none }
  | ch :: chs => { name := ch.name, unit := ch.unit, devices := (ch :: chs).map (entryOf names) }

section Loop
variable {names : Dict ℕ String}

theorem groupOf_append {chs : List Channel} (h : chs ≠ []) (ch : Channel) :
    groupOf names (chs ++ [ch]) =
      { groupOf names chs with devices := (groupOf names chs).devices ++ [entryOf names ch] } := by
  obtain ⟨first, rest, rfl⟩ := List.exists_cons_of_ne_nil h
  simp [groupOf]

/-- One turn of the loop collects a display channel and passes over a controller. -/
theorem addChannel_eq {groups : List (Uuid × List Channel)} (h : ∀ g ∈ groups, g.2 ≠ [])
    (ch : Channel) :
    addChannel names (groups.map fun g => (g.1, groupOf names g.2)) ch =
      (if ch.type = .display then insertRow Channel.charUuid groups ch else groups).map
        fun g => (g.1, groupOf names g.2) := by
  have hkeys : (groups.map fun g => (g.1, groupOf names g.2)).map Prod.fst =
      groups.map Prod.fst := by
    rw [List.map_map]
    rfl
  unfold addChannel insertRow
  by_cases htype : ch.type = .display
  · rw [if_neg (not_not.mpr htype), if_pos htype, hkeys]
    dsimp only
    by_cases hmem : ch.charUuid ∈ groups.map Prod.fst
    · rw [if_pos hmem, if_pos hmem, List.map_map, List.map_map]
      apply List.map_congr_left
      intro g hg
      by_cases hkey : g.1 = ch.charUuid
      · simp [hkey, groupOf_append (h g hg)]
      · simp [hkey]
    · have hothers : ∀ g ∈ groups, g.1 ≠ ch.charUuid := fun g hg heq =>
        hmem (heq ▸ List.mem_map_of_mem hg)
      rw [if_neg hmem, if_neg hmem, List.map_append, List.map_append, List.map_map]
      congr 1
      · apply List.map_congr_left
        intro g hg
        simp [hothers g hg]
      · simp [groupOf]
  · rw [if_pos htype, if_neg htype]

/-- The loop collects the display channels by characteristic. -/
theorem foldl_addChannel (chs : List Channel) :
    chs.foldl (addChannel names) [] =
      (collect Channel.charUuid (chs.filter fun c => c.type = .display)).map
        fun g => (g.1, groupOf names g.2) := by
  induction chs using List.reverseRecOn with
  | nil => rfl
  | append_singleton chs ch ih =>
    have hne : ∀ g ∈ collect Channel.charUuid (chs.filter fun c => c.type = .display), g.2 ≠ [] :=
      fun g hg => collect_ne_nil hg
    rw [List.foldl_concat, ih, addChannel_eq hne, List.filter_append, List.filter_singleton]
    by_cases htype : ch.type = .display
    · simp [htype, collect_concat]
    · simp [htype]

end Loop

def Merged.entries (m : Merged) : List DeviceEntry :=
  (m.numericGroups ++ m.flagGroups).flatMap ChannelGroup.devices

/-- The groups have an entry for each display channel, one only and with the name that its device
is displayed by, and no others. -/
structure Complete (db : Database) : Prop where
  shown : ((merged db).entries.map DeviceEntry.channelId).Perm ((displays db).map Channel.id)
  once : ((merged db).entries.map DeviceEntry.channelId).Nodup
  named : ∀ e ∈ (merged db).entries, ∃ c ∈ displays db, ∃ d ∈ db.devices,
    d.id = c.deviceId ∧ e = { channelId := c.id, deviceName := d.displayName }

/-- A display channel is in a flag group exactly if the pages show it as a flag. -/
def FiledByUnit (db : Database) : Prop :=
  ∀ c ∈ displays db, ∀ controlStates canvasHeight showStats,
    (∃ g ∈ (merged db).flagGroups, ∃ e ∈ g.devices, e.channelId = c.id) ↔
      (channelWidget c controlStates canvasHeight showStats).isFlag = true

section Main
variable {db : Database} {names : Dict ℕ String} {c : Channel}

theorem mem_displays : c ∈ displays db ↔ c ∈ db.channels ∧ c.type = .display := by
  simp [displays]

theorem devices_groupOf (chs : List Channel) :
    (groupOf names chs).devices = chs.map (entryOf names) := by
  cases chs <;> rfl

theorem unit_groupOf (names : Dict ℕ String) {chs : List Channel} (h : chs ≠ []) :
    ∃ first ∈ chs, (groupOf names chs).unit = first.unit := by
  obtain ⟨first, rest, rfl⟩ := List.exists_cons_of_ne_nil h
  exact ⟨first, .head _, rfl⟩

def allGroups (db : Database) : List ChannelGroup :=
  (collect Channel.charUuid (displays db)).map fun g => groupOf (deviceNames db) g.2

theorem merged_eq (db : Database) : merged db =
    { numericGroups := (allGroups db).filter fun g => g.unit ≠ some "0/1"
      flagGroups := (allGroups db).filter fun g => g.unit = some "0/1" } := by
  have hgroups : (db.channels.foldl (addChannel (deviceNames db)) []).map Prod.snd =
      allGroups db := by
    rw [foldl_addChannel, List.map_map]
    rfl
  unfold merged
  rw [hgroups]

theorem entries_perm (db : Database) :
    (merged db).entries.Perm ((displays db).map (entryOf (deviceNames db))) := by
  have hparts : ((merged db).numericGroups ++ (merged db).flagGroups).Perm (allGroups db) := by
    have hsplit := List.filter_append_perm (fun g => decide (g.unit = some "0/1")) (allGroups db)
    simp only [← decide_not] at hsplit
    rw [merged_eq]
    exact List.perm_append_comm.trans hsplit
  have hall : (allGroups db).flatMap ChannelGroup.devices =
      ((collect Channel.charUuid (displays db)).flatMap Prod.snd).map
        (entryOf (deviceNames db)) := by
    rw [allGroups, List.flatMap_map, List.map_flatMap]
    exact List.flatMap_congr fun g _ => devices_groupOf g.2
  have hentries := hparts.flatMap_right ChannelGroup.devices
  rw [hall] at hentries
  exact hentries.trans (flatMap_collect_perm.map _)

theorem lookup_deviceNames (h : db.Valid) {d : Device} (hd : d ∈ db.devices) :
    (deviceNames db).lookup d.id = some d.displayName := by
  set rows := (db.devices.map fun d => (d.id, d.displayName)).filter fun e => e.1 = d.id with hrows
  have hmem : (d.id, d.displayName) ∈ rows := by
    rw [hrows, List.mem_filter]
    exact ⟨List.mem_map_of_mem hd, decide_eq_true rfl⟩
  have hlast : rows.getLast? = some (d.id, d.displayName) := by
    have hne := List.ne_nil_of_mem hmem
    rw [List.getLast?_eq_some_getLast hne]
    obtain ⟨hin, hid⟩ := List.mem_filter.mp (List.getLast_mem hne)
    obtain ⟨d', hd', heq⟩ := List.mem_map.mp hin
    rw [← heq] at hid ⊢
    rw [h.eq_of_id hd' hd (of_decide_eq_true hid)]
  rw [deviceNames, lookup_writeAll, last, ← hrows, hlast]
  rfl

theorem entryOf_eq (h : db.Valid) (hc : c ∈ db.channels) :
    ∃ d ∈ db.devices, d.id = c.deviceId ∧
      entryOf (deviceNames db) c = { channelId := c.id, deviceName := d.displayName } := by
  obtain ⟨d, hd, hid⟩ := h.channelDevice c hc
  refine ⟨d, hd, hid, ?_⟩
  rw [entryOf, ← hid, lookup_deviceNames h hd, Option.getD_some]

theorem complete (h : db.Valid) : Complete db := by
  have hperm := entries_perm db
  have hids := hperm.map DeviceEntry.channelId
  rw [List.map_map] at hids
  have hnodup : ((displays db).map Channel.id).Nodup :=
    h.channelIds.sublist (List.filter_sublist.map _)
  refine ⟨hids, hids.nodup_iff.mpr hnodup, fun e he => ?_⟩
  obtain ⟨c, hc, rfl⟩ := List.mem_map.mp (hperm.mem_iff.mp he)
  obtain ⟨d, hd, hid, hentry⟩ := entryOf_eq h (mem_displays.mp hc).1
  exact ⟨c, hc, d, hd, hid, hentry⟩

/-- A display channel is in a flag group if the first channel of its characteristic is a flag. -/
theorem mem_flagGroups_iff (h : db.Valid) (hc : c ∈ displays db) :
    (∃ g ∈ (merged db).flagGroups, ∃ e ∈ g.devices, e.channelId = c.id) ↔
      (groupOf (deviceNames db) (group Channel.charUuid (displays db) c.charUuid)).unit =
        some "0/1" := by
  rw [merged_eq]
  constructor
  · intro hshown
    obtain ⟨g, hg, e, he, hid⟩ := hshown
    obtain ⟨hg, hunit⟩ := List.mem_filter.mp hg
    obtain ⟨⟨uuid, members⟩, hmem, rfl⟩ := List.mem_map.mp hg
    rw [devices_groupOf] at he
    obtain ⟨c', hc', rfl⟩ := List.mem_map.mp he
    have hmembers := eq_group_of_mem_collect hmem
    dsimp only at hc' hunit
    rw [hmembers] at hc' hunit
    obtain ⟨hc', huuid⟩ := mem_group.mp hc'
    have hsame : c' = c := List.inj_on_of_nodup_map h.channelIds (mem_displays.mp hc').1
      (mem_displays.mp hc).1 hid
    rw [hsame] at huuid
    rw [huuid]
    exact of_decide_eq_true hunit
  · intro hunit
    have hkey : c.charUuid ∈ (collect Channel.charUuid (displays db)).map Prod.fst :=
      mem_keys_collect.mpr ⟨c, hc, rfl⟩
    obtain ⟨⟨uuid, members⟩, hmem, huuid⟩ := List.mem_map.mp hkey
    have hmembers := eq_group_of_mem_collect hmem
    have hc' : c ∈ members := by
      rw [hmembers]
      exact mem_group.mpr ⟨hc, huuid.symm⟩
    rw [← huuid, ← hmembers] at hunit
    refine ⟨groupOf (deviceNames db) members, ?_, entryOf (deviceNames db) c, ?_, rfl⟩
    · exact List.mem_filter.mpr ⟨List.mem_map_of_mem hmem, decide_eq_true hunit⟩
    · rw [devices_groupOf]
      exact List.mem_map_of_mem hc'

/-- Channels of one characteristic are all flags or none. -/
def UnitsAgree (db : Database) : Prop :=
  ∀ c ∈ displays db, ∀ c' ∈ displays db, c.charUuid = c'.charUuid →
    c.unit = some "0/1" → c'.unit = some "0/1"

theorem isFlag_display (hc : c ∈ displays db) (controlStates : ℕ → Option Bool)
    (canvasHeight : ℕ) (showStats : Bool) :
    (channelWidget c controlStates canvasHeight showStats).isFlag = true ↔
      c.unit = some "0/1" := by
  rw [isFlag_channelWidget]
  exact and_iff_right (mem_displays.mp hc).2

theorem filedByUnit_iff (h : db.Valid) : FiledByUnit db ↔ UnitsAgree db := by
  constructor
  · intro hfiled c hc c' hc' huuid hunit
    have hpage := (isFlag_display hc (fun _ => none) 0 false).mpr hunit
    have hshown := (hfiled c hc (fun _ => none) 0 false).mpr hpage
    have hgroup := (mem_flagGroups_iff h hc).mp hshown
    rw [huuid] at hgroup
    have hshown' := (mem_flagGroups_iff h hc').mpr hgroup
    have hpage' := (hfiled c' hc' (fun _ => none) 0 false).mp hshown'
    exact (isFlag_display hc' _ _ _).mp hpage'
  · intro hagree c hc controlStates canvasHeight showStats
    have hne := List.ne_nil_of_mem (mem_group.mpr ⟨hc, (rfl : c.charUuid = c.charUuid)⟩)
    obtain ⟨first, hmem, hunit⟩ := unit_groupOf (deviceNames db) hne
    obtain ⟨hfirst, huuid⟩ := mem_group.mp hmem
    rw [mem_flagGroups_iff h hc, hunit, isFlag_display hc]
    exact ⟨hagree first hfirst c hc huuid, hagree c hc first hfirst huuid.symm⟩

/-- **The merged view is faithful** exactly to the tables where the display channels of one
characteristic are all flags or none; it is complete at any rate. -/
theorem merged_faithful_iff (h : tables.Reachable db) :
    (Complete db ∧ FiledByUnit db) ↔ UnitsAgree db := by
  have hvalid := tables_valid h
  rw [filedByUnit_iff hvalid]
  exact and_iff_right (complete hvalid)

end Main

/-- Two devices, the second one labelled, each with a display channel of characteristic 2a6e. -/
def twoDevices (unit unit' : String) : List Statement :=
  [.createDevice "AA:BB:CC:DD:EE:01" "Porch" 1 .publicAddr,
    .createDevice "AA:BB:CC:DD:EE:02" "Cellar" 1 .publicAddr,
    .setLabel 2 (some "Boiler room"),
    .createChannel 1 "Heat" .display "2a6e" "uint8" (some unit),
    .createChannel 2 "Heat" .display "2a6e" "uint8" (some unit')]

def porch : Device where
  id := 1
  address := "AA:BB:CC:DD:EE:01"
  addrType := .publicAddr
  name := "Porch"
  ownerUserId := 1

def cellar : Device where
  id := 2
  address := "AA:BB:CC:DD:EE:02"
  addrType := .publicAddr
  name := "Cellar"
  label := some "Boiler room"
  ownerUserId := 1

def heat (id deviceId : ℕ) (unit : String) : Channel where
  id := id
  deviceId := deviceId
  name := "Heat"
  type := .display
  charUuid := "2a6e"
  dataFormat := "uint8"
  unit := some unit

def heated (unit unit' : String) : Database where
  devices := [porch, cellar]
  channels := [heat 1 1 unit, heat 2 2 unit']
  nextDevice := 3
  nextChannel := 3

theorem heated_reachable (unit unit' : String) : tables.Reachable (heated unit unit') := by
  have hreplay : tables.replay (fun _ _ => true) {} (twoDevices unit unit') =
      some (heated unit unit') := rfl
  exact (System.replay_run (.init rfl) hreplay).reachable

/-- Two thermometers are in one group, under the names of their devices. -/
theorem merged_faithful_iff_thermometers :
    (Complete (heated "°C" "°C") ∧ FiledByUnit (heated "°C" "°C")) ∧
      (merged (heated "°C" "°C")).numericGroups.map ChannelGroup.devices =
        [[⟨1, "Porch"⟩, ⟨2, "Boiler room"⟩]] := by
  have hagree : UnitsAgree (heated "°C" "°C") := by
    intro c hc c' _ _ hunit
    have hchannels : ∀ c ∈ displays (heated "°C" "°C"), c.unit = some "°C" := by decide +kernel
    rw [hchannels c hc] at hunit
    exact absurd hunit (by decide)
  exact ⟨(merged_faithful_iff (heated_reachable _ _)).mpr hagree, by decide +kernel⟩

/-- A flag that shares its characteristic with an older thermometer is drawn as a chart. -/
theorem flag_misfiled :
    ¬∀ db, tables.Reachable db → Complete db ∧ FiledByUnit db := by
  intro hall
  have hfiled := (hall _ (heated_reachable "°C" "0/1")).2
  have hdisplay : heat 2 2 "0/1" ∈ displays (heated "°C" "0/1") := by decide +kernel
  have hnone : (merged (heated "°C" "0/1")).flagGroups = [] := by decide +kernel
  obtain ⟨g, hg, -⟩ := (hfiled _ hdisplay (fun _ => none) 0 false).mpr rfl
  rw [hnone] at hg
  cases hg

end HomeServer.Web.Analytics

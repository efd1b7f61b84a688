import HomeServer.Core.PyText
import HomeServer.Services.Addresses
import HomeServer.Services.DemoLinks

/-! From a scan to the table: the page of a scan, and the forms on it that add what was found. -/
namespace HomeServer.Services
open HomeServer.Db HomeServer.Ble HomeServer.Lib

/-- It has a name with the prefix, and no row has its address, ignoring case. -/
def offered (scanNamePrefix : String) (registered : List Device) (d : DiscoveredDevice) : Bool :=
  d.name.any (fun name => scanNamePrefix.toList.isPrefixOf name.toList) &&
    !(registered.map fun row => lower row.address).contains (lower d.address)

namespace DeviceService
variable {β : Type} (E : Env β)

def scan (scanNamePrefix : String) (durationS : ℚ) : Runtime β (List DiscoveredDevice) := do
  let found ← call (E.ble.startScan durationS)
  let registered ← query E Database.devices
  return found.filter (offered scanNamePrefix registered)

end DeviceService

/-- What is posted to the list of the devices. -/
structure AddDeviceForm where
  address : Address
  name : String
  addrType : String

/-- `_scan_results.html`. -/
structure ScanPage where
  found : List DiscoveredDevice
  scanError : Bool

/-- `list.html`, with the message that was flashed, or the redirect to it. -/
inductive DevicesReply
  | page (flashed : Option String) (statuses : List (Device × Bool))
  | redirect

namespace Web

def addrTypeText : AddrType → String
  | .publicAddr => "public"
  | .randomAddr => "random"

def explicitAddrType (addrType : String) : Option AddrType :=
  if addrType = "public" then some .publicAddr
  else if addrType = "random" then some .randomAddr
  else none

/-- `d.name or d.address`. -/
def proposedName (d : DiscoveredDevice) : String :=
  match d.name with
  | none | some "" => d.address
  | some name => name

def formOf (d : DiscoveredDevice) : AddDeviceForm :=
  ⟨d.address, proposedName d, addrTypeText d.addrType⟩

variable {β : Type} (E : Env β)

/-- Inside of `scan_window`; the monitor that it stops is another thread. -/
def scan (scanNamePrefix : String) (durationS : ℚ) : Runtime β ScanPage :=
  tryCatch
    (do
      BleRuntime.disconnectAll E
      return ⟨← DeviceService.scan E scanNamePrefix durationS, false⟩)
    fun _ => pure ⟨[], true⟩

def listPage (flashed : Option String) : Runtime β DevicesReply := do
  let items ← query E Database.devices
  let statuses ← items.mapM fun d => return (d, ← isConnected E d.address)
  return .page flashed statuses

def postDevice (ownerUserId : ℕ) (form : AddDeviceForm) : Runtime β DevicesReply := do
  if filled form.address && filled form.name then
    let refused ← tryCatch
      (do
        let _ ← DeviceService.addDevice E ownerUserId form.address form.name
          (explicitAddrType form.addrType)
        return none)
      fun e => match e with
        | .invalidAddress _ => pure (some "Invalid BLE address")
        | .duplicateAddress _ => pure (some "Address already exists")
        | e => throw e
    match refused with
    | none => pure .redirect
    | some message => listPage E (some message)
  else listPage E none

/-- A scan, the forms that are chosen on its page, and another scan. -/
def scanAddScan (scanNamePrefix : String) (durationS : ℚ)
    (choose : List DiscoveredDevice → List (ℕ × DiscoveredDevice)) :
    Runtime β (ScanPage × List DevicesReply × ScanPage) := do
  let page ← scan E scanNamePrefix durationS
  let replies ← (choose page.found).mapM fun c => postDevice E c.1 (formOf c.2)
  let again ← scan E scanNamePrefix durationS
  return (page, replies, again)

end Web

section Proofs
variable {β : Type} {E : Env β} {w : World β}

def registration (d : Device) : Address × AddrType × String × ℕ :=
  (d.address, d.addrType, d.name, d.ownerUserId)

/-- Devices on a page, no two of one address, whose forms can be posted as they are. -/
structure Choosable (page : List DiscoveredDevice) (chosen : List (ℕ × DiscoveredDevice)) :
    Prop where
  shown : ∀ c ∈ chosen, c.2 ∈ page
  distinct : (chosen.map fun c => c.2.address).Nodup
  formed : ∀ c ∈ chosen, matchesMac c.2.address = true
  named : ∀ c ∈ chosen, Web.filled (Web.proposedName c.2) = true

def newRow (c : ℕ × DiscoveredDevice) : Address × AddrType × String × ℕ :=
  (c.2.address, c.2.addrType, Web.proposedName c.2, c.1)

theorem offered_iff {scanNamePrefix : String} {registered : List Device} {d : DiscoveredDevice} :
    offered scanNamePrefix registered d = true ↔
      (∃ name, d.name = some name ∧ scanNamePrefix.toList <+: name.toList) ∧
        ∀ row ∈ registered, lower row.address ≠ lower d.address := by
  unfold offered
  simp [Option.any_eq_true, List.isPrefixOf_iff_prefix]

/-- New rows hide what has their address, ignoring case, and nothing else. -/
theorem offered_append {registered registered' : List Device} {chosen : List (ℕ × DiscoveredDevice)}
    (h : registered'.map registration = registered.map registration ++ chosen.map newRow)
    (scanNamePrefix : String) (d : DiscoveredDevice) :
    offered scanNamePrefix registered' d =
      ((chosen.all fun c => lower c.2.address ≠ lower d.address) &&
        offered scanNamePrefix registered d) := by
  have hlower : registered'.map (fun row => lower row.address) =
      (registered.map fun row => lower row.address) ++ chosen.map fun c => lower c.2.address := by
    simpa [registration, newRow, Function.comp_def] using
      congrArg (List.map fun r : Address × AddrType × String × ℕ => lower r.1) h
  have hall : (∀ row ∈ registered', lower row.address ≠ lower d.address) ↔
      (∀ c ∈ chosen, lower c.2.address ≠ lower d.address) ∧
        ∀ row ∈ registered, lower row.address ≠ lower d.address := by
    have hmem : ∀ rows : List Device, (∀ row ∈ rows, lower row.address ≠ lower d.address) ↔
        lower d.address ∉ rows.map fun row => lower row.address := by
      intro rows
      rw [List.mem_map, not_exists]
      exact forall_congr' fun row => not_and.symm
    rw [hmem, hmem, hlower, List.mem_append, not_or, and_comm]
    refine and_congr_left fun _ => ?_
    rw [List.mem_map, not_exists]
    exact forall_congr' fun c => not_and
  rw [Bool.eq_iff_iff, Bool.and_eq_true, List.all_eq_true, offered_iff, offered_iff, hall]
  simp only [decide_eq_true_eq]
  exact and_left_comm

theorem explicitAddrType_text (t : AddrType) :
    Web.explicitAddrType (Web.addrTypeText t) = some t := by
  cases t <;> rfl

theorem filled_of_matches {address : Address} (h : matchesMac address = true) :
    Web.filled address = true := by
  obtain ⟨octets, hlen, hhex, heq⟩ := octets_joined h
  cases octets with
  | nil => cases hlen
  | cons o octets =>
    have hmem : o.1 ∈ address.toList := by
      have hjoined : o.1 ∈ joined (o :: octets) := by
        cases octets with
        | nil => exact .head _
        | cons o' octets =>
          rw [joined_cons]
          exact .head _
      rcases heq with heq | heq <;> rw [heq]
      · exact hjoined
      · exact List.mem_append_left _ hjoined
    have hspace : ¬PyText.isSpace o.1 = true := by
      have hall : hexChars.all (fun c => !PyText.isSpace c) = true := by decide
      have hhex' := List.all_eq_true.mp hall o.1 (mem_hexChars (hhex o (.head _)).1)
      simpa using hhex'
    have hkept := (Trimming.mem_trim hspace).mpr hmem
    unfold Web.filled
    rw [PyText.strip_eq]
    exact decide_eq_true (List.ne_nil_of_mem hkept)

/-- Dropping the links does not touch the tables. -/
theorem disconnectAll_db (E : Env β) (w : World β) :
    (BleRuntime.disconnectAll E).After (fun _ w' => w'.db = w.db) w := by
  have hquery : ∀ {α : Type} (f : Database → α),
      Action.Preserves (fun w' => w'.db = w.db) (query E f) := by
    intro α f w' hw'
    exact after_query_any E f (fun _ _ => hw') fun _ _ => hw'
  unfold BleRuntime.disconnectAll
  refine Action.Preserves.bind (hquery _) (fun _ => (hquery _).bind fun deviceList => ?_) w rfl
  refine Action.Preserves.forM fun device _ w' hw' => ?_
  rw [Action.after_bind, after_isConnected, Action.then_ok, Action.after_ite]
  split
  · rw [after_call]
    exact hw'
  · exact hw'

namespace ScanPage
variable {page : ScanPage} {found : List DiscoveredDevice}

/-- The page of a scan that failed, or of one that found these. -/
def Shows (page : ScanPage) (found : List DiscoveredDevice) : Prop :=
  page.scanError = true ∧ page.found = [] ∨ page.scanError = false ∧ page.found = found

theorem Shows.found_eq (h : page.Shows found)
    (hok : page.scanError = false) : page.found = found := by
  rcases h with ⟨herr, -⟩ | ⟨-, hfound⟩
  · rw [hok] at herr
    cases herr
  · exact hfound

theorem Shows.found_nil (h : page.Shows found)
    (herr : page.scanError = true) : page.found = [] := by
  rcases h with ⟨-, hnone⟩ | ⟨hok, -⟩
  · exact hnone
  · rw [herr] at hok
    cases hok

theorem Shows.sublist (h : page.Shows found) :
    page.found.Sublist found := by
  rcases h with ⟨-, hnone⟩ | ⟨-, hfound⟩
  · rw [hnone]
    exact List.nil_sublist found
  · rw [hfound]

end ScanPage

namespace Web
variable {scanNamePrefix : String} {durationS : ℚ} {found : List DiscoveredDevice}

/-- A scan that ends well offers what is found and not registered. -/
theorem scan_spec (hE : E.Quiet) (hair : ∀ b, (E.ble.startScan durationS b).1 = .ok found) :
    (scan E scanNamePrefix durationS).After
      (fun r w' => w'.db = w.db ∧ ∃ page, r = .ok page ∧
        page.Shows (found.filter (offered scanNamePrefix w.db.devices))) w := by
  unfold scan
  rw [Action.after_tryCatch, Action.after_bind]
  apply (disconnectAll_db E w).mono
  intro r w₁ hdb
  cases r with
  | error e => exact ⟨hdb, _, rfl, Or.inl ⟨rfl, rfl⟩⟩
  | ok u =>
    rw [Action.then_ok, Action.after_bind]
    unfold DeviceService.scan
    rw [Action.after_bind, after_call, hair, Action.then_ok, Action.after_bind]
    refine after_query hE _ fun b => ?_
    exact ⟨hdb, _, rfl, Or.inr ⟨rfl, by rw [← hdb]⟩⟩

theorem exists_created {db db' : Database} (hv : db.Valid) {address : Address} {name : String}
    {ownerUserId i : ℕ} {addrType : AddrType}
    (hcreate : Devices.create db address name ownerUserId addrType = .ok (i, db')) :
    ∃ d, Devices.getById db' i = some d := by
  obtain ⟨-, rfl, rfl⟩ := Devices.create_ok hcreate
  have hold : db.devices.find? (fun row => row.id = db.nextDevice) = none := by
    rw [List.find?_eq_none]
    intro row hrow
    simpa using (hv.deviceFresh row hrow).ne
  unfold Devices.getById
  dsimp only
  rw [List.find?_append, hold]
  simp

/-- The form of an address that no row has adds the row. -/
theorem postDevice_spec (hE : E.Quiet) (hv : w.db.Valid) (ownerUserId : ℕ) {d : DiscoveredDevice}
    (hmac : matchesMac d.address = true) (hname : filled (proposedName d) = true)
    (hnew : ∀ row ∈ w.db.devices, row.address ≠ d.address) :
    (postDevice E ownerUserId (formOf d)).After
      (fun r w' => r = .ok .redirect ∧ w'.db.Valid ∧
        w'.db.devices.map registration =
          w.db.devices.map registration ++ [newRow (ownerUserId, d)]) w := by
  have hvalid : (filled (formOf d).address && filled (formOf d).name) = true := by
    rw [Bool.and_eq_true]
    exact ⟨filled_of_matches hmac, hname⟩
  have hfree : (w.db.devices.any fun row => row.address = d.address) = false := by
    simpa using hnew
  unfold postDevice
  rw [if_pos hvalid, Action.after_bind, Action.after_tryCatch, Action.after_bind]
  unfold DeviceService.addDevice formOf
  dsimp only
  rw [if_pos hmac, explicitAddrType_text]
  unfold DeviceService.resolveAddrType
  dsimp only
  rw [Action.after_bind]
  refine after_execute hE _ fun b => ?_
  have hcreate : Devices.create w.db d.address (proposedName d) ownerUserId d.addrType = _ :=
    if_neg (by simp [hfree])
  have hv' := hv.deviceCreate hcreate
  rw [hcreate]
  dsimp only at hv' ⊢
  rw [Action.then_ok, Action.after_bind, after_ignoringErrors, after_call, Action.then_ok,
    Action.after_bind]
  refine after_query hE _ fun b' => ?_
  obtain ⟨row, hrow⟩ := exists_created hv hcreate
  rw [Action.then_ok, hrow]
  exact ⟨rfl, hv', List.map_append⟩

/-- The forms of different addresses, none of them in the table, all add their rows. -/
theorem postAll_spec (hE : E.Quiet) {chosen : List (ℕ × DiscoveredDevice)}
    (hmac : ∀ c ∈ chosen, matchesMac c.2.address = true)
    (hname : ∀ c ∈ chosen, filled (proposedName c.2) = true)
    (hnodup : (chosen.map fun c => c.2.address).Nodup) (w : World β) (hv : w.db.Valid)
    (hnew : ∀ c ∈ chosen, ∀ row ∈ w.db.devices, row.address ≠ c.2.address) :
    (chosen.mapM fun c => postDevice E c.1 (formOf c.2)).After
      (fun r w' => r = .ok (chosen.map fun _ => .redirect) ∧
        w'.db.devices.map registration =
          w.db.devices.map registration ++ chosen.map newRow) w := by
  induction chosen generalizing w with
  | nil => exact ⟨rfl, (List.append_nil _).symm⟩
  | cons c chosen ih =>
    rw [List.map_cons, List.nodup_cons] at hnodup
    rw [List.mapM_cons, Action.after_bind]
    apply (postDevice_spec hE hv c.1 (hmac c (.head _)) (hname c (.head _))
      (hnew c (.head _))).mono
    rintro r w₁ ⟨rfl, hv₁, hrows⟩
    have hnew₁ : ∀ c' ∈ chosen, ∀ row ∈ w₁.db.devices, row.address ≠ c'.2.address := by
      intro c' hc' row hrow
      have hmem : registration row ∈ w.db.devices.map registration ++ [newRow c] := by
        rw [← hrows]
        exact List.mem_map_of_mem hrow
      rcases List.mem_append.mp hmem with hmem | hmem
      · obtain ⟨old, hold, heq⟩ := List.mem_map.mp hmem
        have haddr : old.address = row.address := congrArg Prod.fst heq
        rw [← haddr]
        exact hnew c' (.tail _ hc') old hold
      · have haddr : row.address = c.2.address := congrArg Prod.fst (List.mem_singleton.mp hmem)
        rw [haddr]
        intro hsame
        exact hnodup.1 (List.mem_map.mpr ⟨c', hc', hsame.symm⟩)
    rw [Action.then_ok, Action.after_bind]
    apply (ih (fun c' hc' => hmac c' (.tail _ hc')) (fun c' hc' => hname c' (.tail _ hc'))
      hnodup.2 w₁ hv₁ hnew₁).mono
    rintro r w₂ ⟨rfl, hrows₂⟩
    rw [Action.then_ok, Action.after_pure]
    refine ⟨rfl, ?_⟩
    rw [hrows₂, hrows, List.append_assoc]
    rfl

/-- **What a scan offers can be added.** Of the devices on the page of a scan any may be chosen, in
any order, but for two of one address. Each form is accepted, whatever the backend answers to the
connect of it, and adds what the scan found; and a further scan of the same peripherals offers what
the first one did but for those that were chosen, ignoring case. -/
theorem scan_add_scan (hE : E.Quiet) (hv : w.db.Valid)
    (hair : ∀ b, (E.ble.startScan durationS b).1 = .ok found)
    {choose : List DiscoveredDevice → List (ℕ × DiscoveredDevice)}
    (hchoose : ∀ page, page.Sublist found → Choosable page (choose page)) :
    (scanAddScan E scanNamePrefix durationS choose).After
      (fun r w' => ∃ page again, r = .ok (page, (choose page.found).map fun _ => .redirect, again) ∧
        w'.db.devices.map registration =
          w.db.devices.map registration ++ (choose page.found).map newRow ∧
        (page.scanError = false →
          page.found = found.filter (offered scanNamePrefix w.db.devices)) ∧
        (page.scanError = false → again.scanError = false →
          again.found = page.found.filter fun d =>
            (choose page.found).all fun c => lower c.2.address ≠ lower d.address) ∧
        (page.scanError = true → page.found = []) ∧
        (again.scanError = true → again.found = [])) w := by
  unfold scanAddScan
  rw [Action.after_bind]
  apply (scan_spec hE hair).mono
  rintro r w₁ ⟨hdb₁, page, rfl, hpage⟩
  have hchosen : Choosable page.found (choose page.found) :=
    hchoose _ (hpage.sublist.trans List.filter_sublist)
  have hnew : ∀ c ∈ choose page.found, ∀ row ∈ w₁.db.devices, row.address ≠ c.2.address := by
    intro c hc row hrow hsame
    have hmem := hpage.sublist.subset (hchosen.shown c hc)
    rw [hdb₁] at hrow
    have hfree := (offered_iff.mp (List.of_mem_filter hmem)).2 row hrow
    exact hfree (by rw [hsame])
  rw [Action.then_ok, Action.after_bind]
  apply (postAll_spec hE hchosen.formed hchosen.named hchosen.distinct w₁ (hdb₁ ▸ hv) hnew).mono
  rintro r w₂ ⟨rfl, hrows⟩
  rw [Action.then_ok, Action.after_bind]
  apply (scan_spec hE hair).mono
  rintro r w₃ ⟨hdb₃, again, rfl, hagain⟩
  rw [Action.then_ok, Action.after_pure]
  rw [hdb₁] at hrows
  refine ⟨page, again, rfl, by rw [hdb₃, hrows], fun hok => ?_, fun hok hok' => ?_, ?_, ?_⟩
  · exact hpage.found_eq hok
  · have hafter : offered scanNamePrefix w₂.db.devices = fun d =>
        ((choose page.found).all fun c => lower c.2.address ≠ lower d.address) &&
          offered scanNamePrefix w.db.devices d :=
      funext (offered_append hrows scanNamePrefix)
    rw [hagain.found_eq hok', hafter, ← List.filter_filter, ← hpage.found_eq hok]
  · exact hpage.found_nil
  · exact hagain.found_nil

end Web
end Proofs

def demoFound : List DiscoveredDevice :=
  [⟨"C0:FF:EE:00:00:01", some "HOME-Demo Sensor", -55, .publicAddr⟩,
    ⟨"C0:FF:EE:00:00:02", some "HOME-Demo Lamp", -61, .publicAddr⟩]

def demoAir : Env MockBLEManager :=
  { mockEnv 0 with
    ble := { MockBLEManager.manager with startScan := fun _ m => (.ok demoFound, m) } }

def demoWorld : World MockBLEManager where
  db := {}
  outside := { failConnectFor := {"C0:FF:EE:00:00:02"} }

theorem scan_add_scan_demo :
    (Web.scanAddScan demoAir "HOME-" 5 fun page => page.map fun d => (1, d)).After
      (fun r w' => ∃ page again,
        r = .ok (page, (page.found.map fun d => (1, d)).map fun _ => .redirect, again) ∧
        w'.db.devices.map registration =
          (page.found.map fun d => (1, d)).map newRow ∧
        (page.scanError = false → page.found = demoFound.filter (offered "HOME-" [])) ∧
        (page.scanError = false → again.scanError = false →
          again.found = page.found.filter fun d =>
            (page.found.map fun d => (1, d)).all fun c => lower c.2.address ≠ lower d.address) ∧
        (page.scanError = true → page.found = []) ∧
        (again.scanError = true → again.found = [])) demoWorld := by
  refine Web.scan_add_scan (E := demoAir) ⟨fun _ _ m => ⟨m, rfl⟩, fun m => ⟨m, rfl⟩⟩ .empty
    (fun _ => rfl) fun page hpage => ?_
  have hnodup : (demoFound.map fun d => d.address).Nodup := by decide
  have hall : ∀ d ∈ demoFound, matchesMac d.address = true ∧
      Web.filled (Web.proposedName d) = true := by decide
  have hmem : ∀ c ∈ page.map fun d => (1, d), c.2 ∈ page := by
    intro c hc
    obtain ⟨d, hd, rfl⟩ := List.mem_map.mp hc
    exact hd
  refine ⟨hmem, ?_, fun c hc => (hall _ (hpage.subset (hmem c hc))).1,
    fun c hc => (hall _ (hpage.subset (hmem c hc))).2⟩
  rw [List.map_map]
  exact hnodup.sublist (hpage.map _)

end HomeServer.Services

import HomeServer.Db.History
import HomeServer.Lib.Pool
import HomeServer.Services.Throttle

/-! Notifications run `handle_notify` in threads of their own, for callbacks that outlive the rows
they were created for, while channels and devices are created and deleted. What they store belongs
to the row of the callback. -/
namespace HomeServer.Services
open HomeServer.Db HomeServer.Ble HomeServer.Lib

/-- The notify closure of `subscribe_channel`, with the row whose id it has captured. -/
structure Closure where
  channel : Channel
  deriving DecidableEq

/-- A reading that a notification has stored, with the closure and the payload it came from. -/
structure Persisted where
  closure : Closure
  rawBytes : Bytes
  reading : Reading

/-- Where a call of `handle_notify` is. -/
inductive NotifyPc
  | lookup (closure : Closure) (rawBytes : Bytes)
  | push (closure : Closure) (rawBytes : Bytes) (value : PyFloat)
  | limit (closure : Closure) (rawBytes : Bytes) (value : PyFloat)
  | insert (closure : Closure) (rawBytes : Bytes) (value : PyFloat)
  | finished (raised : Option Err)
  deriving DecidableEq

/-- A step returns, having read a clock if it has one to read, or raises. -/
inductive NotifyEnding (τ : Type)
  | returns (clock : τ) (time : Timestamp)
  | raises (e : Err)

/-- `rows` are the channels that anybody has read so far, `closures` those subscribed. -/
structure NotifyWorld (τ : Type) where
  db : Database
  limiter : RateLimiter τ
  rows : List Channel := []
  closures : List Closure := []
  pushed : List Push := []
  persisted : List Persisted := []

variable {τ : Type}

namespace NotifyPc

/-- `handle_notify` with the id of the closure. What `on_reading` raises is only logged. -/
def advance [Sub τ] [LE τ] [DecidableLE τ] (s : NotifyWorld τ) :
    NotifyPc → NotifyEnding τ → Option (NotifyWorld τ × NotifyPc)
  | .lookup closure rawBytes, .returns _ _ =>
    match Channels.getById s.db closure.channel.id with
    | none => some (s, .finished (some (.channelNotFound closure.channel.id)))
    | some channel =>
      match Parser.decode rawBytes channel.dataFormat with
      | .error e => some (s, .finished (some e))
      | .ok value => some (s, .push closure rawBytes value)
  | .push closure rawBytes value, .returns _ time =>
    some ({ s with pushed := s.pushed ++ [⟨closure.channel.id, value, time⟩] },
      .limit closure rawBytes value)
  | .push closure rawBytes value, .raises _ => some (s, .limit closure rawBytes value)
  | .limit closure rawBytes value, .returns clock _ =>
    let (emit, limiter) := s.limiter.shouldEmit (toString closure.channel.id) clock
    some ({ s with limiter }, if emit then .insert closure rawBytes value else .finished none)
  | .insert closure rawBytes value, .returns _ time =>
    match Readings.insert s.db closure.channel.id value time with
    | .error e => some (s, .finished (some e))
    | .ok db =>
      let reading := ⟨s.db.nextReading, closure.channel.id, value, time⟩
      some ({ s with db, persisted := s.persisted ++ [⟨closure, rawBytes, reading⟩] },
        .finished none)
  | .lookup .., .raises e | .insert .., .raises e => some (s, .finished (some e))
  | _, _ => none

def call : NotifyPc → Option (Closure × Bytes × Option PyFloat)
  | .lookup closure rawBytes => some (closure, rawBytes, none)
  | .push closure rawBytes value | .limit closure rawBytes value
  | .insert closure rawBytes value => some (closure, rawBytes, some value)
  | .finished _ => none

section Alone
variable [Sub τ] [LE τ] [DecidableLE τ]

/-- A call in between whose steps nothing happens. -/
def finish (s : NotifyWorld τ) (pc : NotifyPc) : List (NotifyEnding τ) → NotifyWorld τ × NotifyPc
  | [] => (s, pc)
  | ending :: endings =>
    match pc.advance s ending with
    | some (s', pc') => pc'.finish s' endings
    | none => (s, pc)

theorem finish_cons {s s' : NotifyWorld τ} {pc pc' : NotifyPc} {ending : NotifyEnding τ}
    {endings : List (NotifyEnding τ)} (h : pc.advance s ending = some (s', pc')) :
    pc.finish s (ending :: endings) = pc'.finish s' endings := by
  rw [finish, h]

/-- The endings of the steps of a call: the callback raises or not, the others return. -/
def endings (n : Notification τ) : List (NotifyEnding τ) :=
  [.returns n.clock n.timestamp,
    match n.raised with
    | some e => .raises e
    | none => .returns n.clock n.timestamp,
    .returns n.clock n.timestamp, .returns n.clock n.recordedAt]

/-- A call that is left alone does what `handle_notify` does in one piece. -/
theorem finish_handleNotify (n : Notification τ) {c : Closure} (hid : c.channel.id = n.channelId)
    (s : NotifyWorld τ) (written : List (Address × Uuid × Bytes)) :
    let out := finish s (.lookup c n.rawBytes) (endings n)
    (ChannelService.handleNotify n).After
      (fun r w' => (out.2 = .finished none ∧ (∃ v, r = .ok v) ∨
          ∃ e, out.2 = .finished (some e) ∧ r = .error e) ∧
        out.1.db = w'.db ∧ out.1.limiter = w'.limiter)
      ⟨s.db, s.limiter, s.pushed, written⟩ := by
  intro out
  cases hget : Channels.getById s.db n.channelId with
  | none =>
    have hout : out = (s, .finished (some (.channelNotFound n.channelId))) := by
      simp [out, endings, finish, advance, hid, hget]
    unfold ChannelService.handleNotify
    rw [Action.after_bind, Action.after_get, Action.then_ok, hout]
    dsimp only
    rw [hget]
    exact ⟨Or.inr ⟨_, rfl, rfl⟩, rfl, rfl⟩
  | some channel =>
    cases hdecode : Parser.decode n.rawBytes channel.dataFormat with
    | error e =>
      have hout : out = (s, .finished (some e)) := by
        simp [out, endings, finish, advance, hid, hget, hdecode]
      unfold ChannelService.handleNotify
      rw [Action.after_bind, Action.after_get, Action.then_ok, hout]
      dsimp only
      rw [hget]
      dsimp only
      rw [hdecode]
      exact ⟨Or.inr ⟨_, rfl, rfl⟩, rfl, rfl⟩
    | ok value =>
      -- whether the callback raises is seen of what was pushed only
      obtain ⟨pushed, hout⟩ : ∃ pushed, out = finish { s with pushed } (.limit c n.rawBytes value)
          [.returns n.clock n.timestamp, .returns n.clock n.recordedAt] := by
        cases hraised : n.raised with
        | none => exact ⟨s.pushed ++ [⟨c.channel.id, value, n.timestamp⟩], by
            simp [out, endings, finish, advance, hid, hget, hdecode, hraised]⟩
        | some e => exact ⟨s.pushed, by
            simp [out, endings, finish, advance, hid, hget, hdecode, hraised]⟩
      apply ChannelService.handleNotify_delivered hget hdecode
      let limiter := (s.limiter.shouldEmit (toString n.channelId) n.clock).2
      rw [hout]
      dsimp only
      split
      · rename_i hemit
        rw [ChannelService.after_store]
        dsimp only
        have hlimit : advance { s with pushed } (.limit c n.rawBytes value)
            (.returns n.clock n.timestamp) =
              some ({ s with pushed, limiter }, .insert c n.rawBytes value) := by
          simp only [advance, hid, if_pos hemit, limiter]
        rw [finish_cons hlimit]
        cases hinsert : Readings.insert s.db n.channelId value n.recordedAt with
        | error e => simp [finish, advance, hid, hinsert, limiter]
        | ok db => simp [finish, advance, hid, hinsert, limiter]
      · rename_i hemit
        have hlimit : advance { s with pushed } (.limit c n.rawBytes value)
            (.returns n.clock n.timestamp) = some ({ s with pushed, limiter }, .finished none) := by
          simp only [advance, hid, if_neg hemit, limiter]
        rw [finish_cons hlimit]
        simp [finish, advance, limiter]

end Alone
end NotifyPc

/-- `subscribe` creates a closure for a channel that was read at any time before, and `notify`
calls one that was created at any time before. -/
inductive NotifyEvent (τ : Type)
  | createDevice (ownerUserId : ℕ) (address : Address) (name : String) (addrType : AddrType)
  | deleteDevice (deviceId : ℕ)
  | createChannel (deviceId : ℕ) (name : String) (type : ChannelType) (charUuid : Uuid)
      (dataFormat : String) (unit : Option String)
  | deleteChannel (channelId : ℕ)
  | read (channelId : ℕ)
  | subscribe (row : ℕ)
  | notify (closure : ℕ) (rawBytes : Bytes)
  | thread (i : ℕ) (ending : NotifyEnding τ)

abbrev NotifyThreads (τ : Type) := Pool (NotifyWorld τ) NotifyPc

def NotifyThreads.withDb (p : NotifyThreads τ) (db : Database) : NotifyThreads τ :=
  { p with shared := { p.shared with db } }

/-- A server starts over the tables it left; nobody is subscribed. -/
def notifyThreads [Sub τ] [LE τ] [DecidableLE τ] (start : Database) :
    System (NotifyThreads τ) (NotifyEvent τ) where
  init p := start.Valid ∧ ∃ limiter, p = ⟨{ db := start, limiter }, []⟩
  step p
    | .createDevice ownerUserId address name addrType =>
      match Devices.create p.shared.db address name ownerUserId addrType with
      | .ok (_, db) => some (p.withDb db)
      | .error _ => none
    | .deleteDevice deviceId =>
      match Devices.delete p.shared.db deviceId with
      | .ok db => some (p.withDb db)
      | .error _ => none
    | .createChannel deviceId name type charUuid dataFormat unit =>
      match Channels.create p.shared.db deviceId name type charUuid dataFormat unit with
      | .ok (_, db) => some (p.withDb db)
      | .error _ => none
    | .deleteChannel channelId =>
      match Channels.delete p.shared.db channelId with
      | .ok db => some (p.withDb db)
      | .error _ => none
    | .read channelId => (Channels.getById p.shared.db channelId).map fun channel =>
      { p with shared := { p.shared with rows := p.shared.rows ++ [channel] } }
    | .subscribe row => (p.shared.rows[row]?).map fun channel =>
      { p with shared := { p.shared with closures := p.shared.closures ++ [⟨channel⟩] } }
    | .notify closure rawBytes => (p.shared.closures[closure]?).map fun closure =>
      p.spawn (.lookup closure rawBytes)
    | .thread i ending => p.step NotifyPc.advance i ending

def DecodedBy (channel : Channel) (rawBytes : Bytes) (value : PyFloat) : Prop :=
  Parser.decode rawBytes channel.dataFormat = .ok value

/-- A call of a closure whose row was read. -/
structure Serves (db : Database) (pc : NotifyPc) : Prop where
  known : ∀ x, pc.call = some x → KnownChannel db x.1.channel
  decoded : ∀ x, pc.call = some x → ∀ value ∈ x.2.2, DecodedBy x.1.channel x.2.1 value

/-- A stored reading has the id and the value of its closure and payload. -/
structure Attributed (db : Database) (x : Persisted) : Prop where
  known : KnownChannel db x.closure.channel
  channelId : x.reading.channelId = x.closure.channel.id
  value : DecodedBy x.closure.channel x.rawBytes x.reading.value

structure ClosuresKept (start : Database) (s : NotifyWorld τ) (pcs : List NotifyPc) : Prop where
  valid : s.db.Valid
  rows : ∀ c ∈ s.rows, KnownChannel s.db c
  closures : ∀ c ∈ s.closures, KnownChannel s.db c.channel
  serves : ∀ pc ∈ pcs, Serves s.db pc
  persisted : ∀ x ∈ s.persisted, Attributed s.db x
  readings : ∀ r ∈ s.db.readings, r ∈ start.readings ∨ ∃ x ∈ s.persisted, x.reading = r

section Steps
variable {start db db' : Database} {s s' : NotifyWorld τ} {pc pc' : NotifyPc}
  {pcs rest : List NotifyPc} {c : Closure} {raw : Bytes} {v : PyFloat}

theorem Serves.later (h : Serves db pc) (hl : db.Later db') : Serves db' pc :=
  ⟨fun x hx => hl.knownChannel (h.known x hx), h.decoded⟩

theorem Serves.finished (raised : Option Err) : Serves db (.finished raised) :=
  ⟨fun _ hx => (nomatch hx), fun _ hx => nomatch hx⟩

theorem Serves.of_call (hcall : pc.call = some (c, raw, some v))
    (hknown : KnownChannel db c.channel) (hv : DecodedBy c.channel raw v) : Serves db pc := by
  constructor
  · intro x hx
    obtain rfl := Option.some.inj (hcall.symm.trans hx)
    exact hknown
  · intro x hx value hvalue
    obtain rfl := Option.some.inj (hcall.symm.trans hx)
    obtain rfl := Option.some.inj hvalue
    exact hv

theorem Attributed.later {x : Persisted} (h : Attributed db x) (hl : db.Later db') :
    Attributed db' x :=
  ⟨hl.knownChannel h.known, h.channelId, h.value⟩

theorem Serves.lookup (h : Serves db (.lookup c raw)) {channel : Channel}
    (hget : Channels.getById db c.channel.id = some channel) : channel = c.channel := by
  obtain ⟨hmem, hid⟩ := Channels.mem_of_getById hget
  exact (h.known _ rfl).row channel hmem hid

namespace ClosuresKept

theorem restarted (h : db.Valid) (limiter : RateLimiter τ) :
    ClosuresKept db { db, limiter } [] where
  valid := h
  rows := by simp
  closures := by simp
  serves := by simp
  persisted := by simp
  readings := fun _ hr => Or.inl hr

theorem perm (h : ClosuresKept start s pcs) {l : List NotifyPc} (hp : pcs.Perm l) :
    ClosuresKept start s l :=
  { h with serves := fun pc hpc => h.serves pc (hp.mem_iff.mpr hpc) }

theorem enter (h : ClosuresKept start s pcs) (hpc : Serves s.db pc) :
    ClosuresKept start s (pc :: pcs) :=
  { h with serves := List.forall_mem_cons.mpr ⟨hpc, h.serves⟩ }

theorem leave (h : ClosuresKept start s (pc :: rest)) : ClosuresKept start s rest :=
  { h with serves := (List.forall_mem_cons.mp h.serves).2 }

theorem withDb (h : ClosuresKept start s pcs) (hv : db.Valid) (hl : s.db.Later db)
    (hr : ∀ r ∈ db.readings, r ∈ s.db.readings) : ClosuresKept start { s with db } pcs := by
  constructor
  · exact hv
  · exact fun c hc => hl.knownChannel (h.rows c hc)
  · exact fun c hc => hl.knownChannel (h.closures c hc)
  · exact fun pc hpc => (h.serves pc hpc).later hl
  · exact fun x hx => (h.persisted x hx).later hl
  · exact fun r hrow => h.readings r (hr r hrow)

/-- A reading is stored for the row of its closure. -/
theorem insert (h : ClosuresKept start s pcs) (hknown : KnownChannel s.db c.channel)
    (hv : DecodedBy c.channel raw v) {time : Timestamp}
    (hinsert : Readings.insert s.db c.channel.id v time = .ok db) :
    ClosuresKept start { s with
      db
      persisted := s.persisted ++ [⟨c, raw, ⟨s.db.nextReading, c.channel.id, v, time⟩⟩] } pcs := by
  have hl := Database.Later.readingInsert hinsert
  have hvalid := h.valid.readingInsert hinsert
  obtain ⟨-, rfl⟩ := Readings.insert_ok hinsert
  constructor
  · exact hvalid
  · exact fun c hc => hl.knownChannel (h.rows c hc)
  · exact fun c hc => hl.knownChannel (h.closures c hc)
  · exact fun pc hpc => (h.serves pc hpc).later hl
  · intro x hx
    rcases List.mem_append.mp hx with hx | hx
    · exact (h.persisted x hx).later hl
    · rw [List.mem_singleton.mp hx]
      exact ⟨hl.knownChannel hknown, rfl, hv⟩
  · intro r hr
    rcases List.mem_append.mp hr with hr | hr
    · refine (h.readings r hr).imp_right fun ⟨x, hx, hxr⟩ => ?_
      exact ⟨x, List.mem_append_left _ hx, hxr⟩
    · rw [List.mem_singleton.mp hr]
      exact Or.inr ⟨_, List.mem_append_right _ (.head _), rfl⟩

variable [Sub τ] [LE τ] [DecidableLE τ]

theorem advance {ending : NotifyEnding τ} (h : ClosuresKept start s (pc :: rest))
    (ha : pc.advance s ending = some (s', pc')) : ClosuresKept start s' (pc' :: rest) := by
  have hself := h.serves pc (.head _)
  have hend : ∀ raised, ClosuresKept start s (.finished raised :: rest) := fun raised =>
    h.leave.enter (.finished raised)
  cases pc with
  | lookup c raw =>
    cases ending <;> simp only [NotifyPc.advance] at ha
    · split at ha
      · cases ha
        exact hend _
      · rename_i channel hget
        obtain rfl := hself.lookup hget
        split at ha
        · cases ha
          exact hend _
        · rename_i value hdecode
          cases ha
          exact h.leave.enter (.of_call rfl (hself.known _ rfl) hdecode)
    · cases ha
      exact hend _
  | push c raw v =>
    have hv := hself.decoded _ rfl v rfl
    have hnext : ClosuresKept start s (.limit c raw v :: rest) :=
      h.leave.enter (.of_call rfl (hself.known _ rfl) hv)
    cases ending <;> cases ha
    · exact { hnext with }
    · exact hnext
  | limit c raw v =>
    have hv := hself.decoded _ rfl v rfl
    cases ending <;> cases ha
    split
    · have hnext : ClosuresKept start s (.insert c raw v :: rest) :=
        h.leave.enter (.of_call rfl (hself.known _ rfl) hv)
      exact { hnext with }
    · exact { hend none with }
  | insert c raw v =>
    have hv := hself.decoded _ rfl v rfl
    cases ending <;> simp only [NotifyPc.advance] at ha
    · split at ha
      · cases ha
        exact hend _
      · rename_i db hinsert
        cases ha
        exact (hend none).insert (hself.known _ rfl) hv hinsert
    · cases ha
      exact hend _
  | finished raised => cases ending <;> cases ha

theorem step {p p' : NotifyThreads τ} (e : NotifyEvent τ)
    (h : ClosuresKept start p.shared p.threads) (hs : (notifyThreads start).step p e = some p') :
    ClosuresKept start p'.shared p'.threads := by
  cases e with
  | createDevice ownerUserId address name addrType =>
    simp only [notifyThreads] at hs
    split at hs
    · rename_i hc
      cases hs
      have hsame := (Devices.create_ok hc).2.2
      exact h.withDb (h.valid.deviceCreate hc) (.deviceCreate hc) (by simp [hsame])
    · cases hs
  | deleteDevice deviceId =>
    simp only [notifyThreads] at hs
    split at hs
    · rename_i hd
      cases hs
      have hsub := Devices.delete_ok hd
      refine h.withDb (h.valid.deviceDelete hd) (.deviceDelete hd) fun r hr => ?_
      rw [hsub] at hr
      exact List.mem_of_mem_filter hr
    · cases hs
  | createChannel deviceId name type charUuid dataFormat unit =>
    simp only [notifyThreads] at hs
    split at hs
    · rename_i hc
      cases hs
      have hsame := (Channels.create_ok hc).2.2.2
      exact h.withDb (h.valid.channelCreate hc) (.channelCreate hc) (by simp [hsame])
    · cases hs
  | deleteChannel channelId =>
    simp only [notifyThreads] at hs
    split at hs
    · rename_i hd
      cases hs
      have hsub := Channels.delete_ok hd
      refine h.withDb (h.valid.channelDelete hd) (.channelDelete hd) fun r hr => ?_
      rw [hsub] at hr
      exact List.mem_of_mem_filter hr
    · cases hs
  | read channelId =>
    obtain ⟨channel, hget, rfl⟩ := Option.map_eq_some_iff.mp hs
    have hknown := h.valid.knownChannel (Channels.mem_of_getById hget).1
    exact { h with rows := List.forall_mem_append.mpr ⟨h.rows, by simpa using hknown⟩ }
  | subscribe row =>
    obtain ⟨channel, hrow, rfl⟩ := Option.map_eq_some_iff.mp hs
    have hknown := h.rows _ (List.mem_of_getElem? hrow)
    exact { h with closures := List.forall_mem_append.mpr ⟨h.closures, by simpa using hknown⟩ }
  | notify closure rawBytes =>
    obtain ⟨c, hc, rfl⟩ := Option.map_eq_some_iff.mp hs
    have hknown := h.closures _ (List.mem_of_getElem? hc)
    have hcall : Serves p.shared.db (.lookup c rawBytes) := by
      constructor <;> intro x hx <;> cases hx
      · exact hknown
      · exact fun v hv => nomatch hv
    exact (h.enter hcall).perm (p.spawn_perm _).symm
  | thread i ending =>
    refine Pool.step_invariant (fun s l l' hp h => h.perm hp) ?_ h hs
    exact fun pc pc' s' rest _ _ h ha => h.advance ha

end ClosuresKept

variable [Sub τ] [LE τ] [DecidableLE τ] {p : NotifyThreads τ}

theorem NotifyThreads.closuresKept (h : (notifyThreads start).Reachable p) :
    ClosuresKept start p.shared p.threads := by
  let Kept (p : NotifyThreads τ) : Prop := ClosuresKept start p.shared p.threads
  refine System.Reachable.invariant (P := Kept) ?_ ?_ h
  · rintro p ⟨hv, limiter, rfl⟩
    exact .restarted hv limiter
  · exact fun p e p' hk hs => hk.step e hs

/-- A notification stores readings for the row its callback was created for, or none. -/
theorem never_misattributed (h : (notifyThreads start).Reachable p) :
    (∀ x ∈ p.shared.persisted,
      x.reading.channelId = x.closure.channel.id ∧
      Parser.decode x.rawBytes x.closure.channel.dataFormat = .ok x.reading.value ∧
      ∀ c ∈ p.shared.db.channels, c.id = x.reading.channelId → c = x.closure.channel) ∧
    ∀ r ∈ p.shared.db.readings, r ∈ start.readings ∨
      ∃ x ∈ p.shared.persisted, x.reading = r ∧ x.closure.channel ∈ p.shared.db.channels := by
  have hk := NotifyThreads.closuresKept h
  have hrow : ∀ x ∈ p.shared.persisted, ∀ c ∈ p.shared.db.channels,
      c.id = x.reading.channelId → c = x.closure.channel := by
    intro x hx c hc hid
    have ha := hk.persisted x hx
    exact ha.known.row c hc (hid.trans ha.channelId)
  constructor
  · intro x hx
    have ha := hk.persisted x hx
    exact ⟨ha.channelId, ha.value, hrow x hx⟩
  · intro r hr
    refine (hk.readings r hr).imp_right fun ⟨x, hx, hxr⟩ => ?_
    obtain ⟨c, hc, hid⟩ := hk.valid.readingChannel r hr
    subst hxr
    exact ⟨x, hx, rfl, hrow x hx c hc hid ▸ hc⟩

end Steps

def stored : List (NotifyEvent ℚ) :=
  [.createDevice 1 "aa:bb" "sensor" .publicAddr,
    .createChannel 1 "level" .display "2a6e" "uint8" none, .read 1, .subscribe 0,
    .notify 0 [200]] ++ List.replicate 4 (.thread 0 (.returns 10 100))

def recreated : List (NotifyEvent ℚ) :=
  [.notify 0 [201], .deleteDevice 1, .createDevice 1 "aa:bb" "sensor" .publicAddr,
    .createChannel 2 "level" .display "2a6e" "int8" none, .read 2, .subscribe 1, .notify 0 [202],
    .notify 1 [203], .thread 1 (.returns 20 110), .thread 2 (.returns 20 110)] ++
    List.replicate 4 (.thread 3 (.returns 20 110))

theorem never_misattributed_recreated : ∃ p : NotifyThreads ℚ,
    (p.shared.persisted.map fun x => (x.closure.channel.id, x.reading.value)) =
      [(1, .ofInt 200), (2, .ofInt (-53))] ∧
    p.shared.db.channels.map Channel.id = [2] ∧
    ∀ r ∈ p.shared.db.readings, ∃ x ∈ p.shared.persisted, x.reading = r ∧
      x.closure.channel ∈ p.shared.db.channels := by
  have hinit : (notifyThreads {}).init ⟨{ db := {}, limiter := ⟨(5 : ℚ), fun _ => none⟩ }, []⟩ :=
    ⟨.empty, _, rfl⟩
  obtain ⟨p, hrun, hp⟩ := System.exists_reachable_of_replay hinit (stored ++ recreated)
    (p := fun p => decide ((p.shared.persisted.map fun x => (x.closure.channel.id,
        x.reading.value)) = [(1, .ofInt 200), (2, .ofInt (-53))]) &&
      decide (p.shared.db.channels.map Channel.id = [2])) (by decide +kernel)
  simp only [Bool.and_eq_true, decide_eq_true_eq] at hp
  refine ⟨p, hp.1, hp.2, fun r hr => ?_⟩
  rcases (never_misattributed hrun).2 r hr with hold | hx
  · cases hold
  · exact hx

end HomeServer.Services

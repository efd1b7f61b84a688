import HomeServer.Lib.Rooms
import HomeServer.Services.Runtime
import HomeServer.Services.Throttle
import HomeServer.Web.Analytics

/-! The live feed: what the server sends to the pages that are open. -/
namespace HomeServer.Web.Live
open HomeServer.Db HomeServer.Lib HomeServer.Services
open Rooms (Since)
open ChannelService (decoded delivered pushOf)

/-- The id that the socket server gives to a connection. -/
abbrev Sid := String

def roomOf (channelId : String) : String := "channel:" ++ channelId

inductive Message
  | reading (push : Push)
  | deviceStatus (deviceId : ℕ) (status : Status)
  deriving DecidableEq

def Message.push? : Message → Option Push
  | .reading push => some push
  | .deviceStatus _ _ => none

/-- The events of the clients, with the `channel_id` of their data unless it is missing or `null`;
the calls of the BLE threads; and what the requests make of the tables. -/
inductive Event (τ : Type)
  | connect (sid : Sid) (authenticated : Bool)
  | disconnect (sid : Sid)
  | subscribeChannel (sid : Sid) (channelId : Option String)
  | unsubscribeChannel (sid : Sid) (channelId : Option String)
  | notify (n : Notification τ)
  | deviceStatus (deviceId : ℕ) (status : Status)
  | tables (db : Database)

def Event.sid? {τ : Type} : Event τ → Option Sid
  | .connect sid _ | .disconnect sid | .subscribeChannel sid _ | .unsubscribeChannel sid _ => some sid
  | .notify _ | .deviceStatus _ _ | .tables _ => none

structure Server (σ τ : Type) where
  service : ChannelWorld τ
  sockets : Rooms.State Sid Message σ

section Spec
variable {τ : Type}

def Subscribed (sid : Sid) (i : ℕ) : List (Event τ) → Prop :=
  Since (· = .subscribeChannel sid (some (toString i))) fun e =>
    e ≠ .unsubscribeChannel sid (some (toString i)) ∧ e ≠ .disconnect sid

def tablesAfter (db : Database) (es : List (Event τ)) : Database :=
  es.foldl (fun db e => match e with
    | .tables db' => db'
    | _ => db) db

def deliveredBy (db : Database) : Event τ → List Push
  | .notify n => (delivered db [n]).map pushOf
  | _ => []

def readings (db : Database) : List (Event τ) → List Push
  | [] => []
  | e :: es => deliveredBy db e ++ readings (tablesAfter db [e]) es

open Classical in
noncomputable def readingsFor (sid : Sid) (db : Database) (past : List (Event τ)) :
    List (Event τ) → List Push
  | [] => []
  | e :: es => (deliveredBy db e).filter (fun p => Subscribed sid p.channelId past) ++
      readingsFor sid (tablesAfter db [e]) (past ++ [e]) es

@[simp] theorem roomOf_inj {a b : String} : roomOf a = roomOf b ↔ a = b := by
  unfold roomOf
  exact String.append_right_inj _

theorem readingsFor_append (sid : Sid) (db : Database) (past es es' : List (Event τ)) :
    readingsFor sid db past (es ++ es') =
      readingsFor sid db past es ++ readingsFor sid (tablesAfter db es) (past ++ es) es' := by
  induction es generalizing db past with
  | nil =>
    rw [List.append_nil]
    rfl
  | cons e es ih =>
    rw [List.cons_append, readingsFor, readingsFor, ih, List.append_assoc, List.append_assoc]
    rfl

/-- While a client stays subscribed to a channel it is for all its readings. -/
theorem readingsFor_subscribed {sid : Sid} {i : ℕ} {past es : List (Event τ)}
    (h : Subscribed sid i past)
    (hes : ∀ e ∈ es, e ≠ .unsubscribeChannel sid (some (toString i)) ∧ e ≠ .disconnect sid)
    (db : Database) : (readingsFor sid db past es).filter (fun p => p.channelId = i) =
      (readings db es).filter fun p => p.channelId = i := by
  induction es generalizing db past with
  | nil => rfl
  | cons e es ih =>
    have hnext : Subscribed sid i (past ++ [e]) :=
      Rooms.since_concat.mpr (Or.inr ⟨h, hes e (.head _)⟩)
    rw [readingsFor, readings, List.filter_append, List.filter_append,
      ih hnext fun x hx => hes x (.tail _ hx), List.filter_filter]
    congr 1
    apply List.filter_congr
    intro p _
    by_cases hp : p.channelId = i
    · simp [hp, h]
    · simp [hp]

/-- Without a subscription there is nothing. -/
theorem readingsFor_not_subscribed {sid : Sid} {i : ℕ} {past es : List (Event τ)}
    (h : ¬Subscribed sid i past)
    (hes : .subscribeChannel sid (some (toString i)) ∉ es) (db : Database) :
    (readingsFor sid db past es).filter (fun p => p.channelId = i) = [] := by
  induction es generalizing db past with
  | nil => rfl
  | cons e es ih =>
    rw [List.mem_cons, not_or] at hes
    have hnext : ¬Subscribed sid i (past ++ [e]) := by
      intro hsub
      rcases Rooms.since_concat.mp hsub with rfl | ⟨hsub, -⟩
      · exact hes.1 rfl
      · exact h hsub
    rw [readingsFor, List.filter_append, ih hnext hes.2, List.append_nil, List.filter_filter,
      List.filter_eq_nil_iff]
    intro p _
    by_cases hp : p.channelId = i
    · simp [hp, h]
    · simp [hp]

theorem deliveredBy_congr {db db' : Database} (h : db'.channels = db.channels) (e : Event τ) :
    deliveredBy db' e = deliveredBy db e := by
  cases e with
  | notify n => rw [deliveredBy, deliveredBy, ChannelService.delivered_congr h]
  | connect | disconnect | subscribeChannel | unsubscribeChannel | deviceStatus | tables => rfl

end Spec

section Limiter
variable {σ τ : Type} [Sub τ] [LE τ] [DecidableLE τ]

def served (service : ChannelWorld τ) : Event τ → ChannelWorld τ
  | .notify n => ((ChannelService.handleNotify n).exec service).2
  | .tables db => { service with db }
  | _ => service

/-- `_emit_reading`, for each call of `on_reading` that the event makes. -/
def emitted (service : ChannelWorld τ) (e : Event τ) :
    List (Rooms.Event Sid String Message) :=
  ((served service e).pushed.drop service.pushed.length).map fun push =>
    .emit (roomOf (toString push.channelId)) (.reading push)

/-- What the handlers ask of the socket server. -/
def handled (service : ChannelWorld τ) : Event τ → List (Rooms.Event Sid String Message)
  | .connect sid authenticated => if authenticated then [.connect sid] else []
  | .disconnect sid => [.disconnect sid]
  | .subscribeChannel sid channelId => (channelId.map fun i => .join sid (roomOf i)).toList
  | .unsubscribeChannel sid channelId => (channelId.map fun i => .leave sid (roomOf i)).toList
  | .notify n => emitted service (.notify n)
  | .deviceStatus deviceId status => [.broadcast (.deviceStatus deviceId status)]
  | .tables _ => []

/-- An emit raises nothing: a client that is gone is in no room. -/
def enabled : Event τ → Bool
  | .notify n => n.raised.isNone
  | _ => true

def step (S : Rooms.Server Sid String σ) (s : Server σ τ) (e : Event τ) : Option (Server σ τ) :=
  if enabled e then
    ((Rooms.system S).replay (fun _ _ => true) s.sockets (handled s.service e)).map fun sockets =>
      { service := served s.service e, sockets }
  else none

def system (S : Rooms.Server Sid String σ) : System (Server σ τ) (Event τ) where
  init s := s.sockets = { rooms := S.empty, inbox := fun _ => [] }
  step := step S

section Steps
variable {service : ChannelWorld τ} {e : Event τ} {sid : Sid} {i : ℕ}
  {past : List (Rooms.Event Sid String Message)}

theorem emitted_eq (service : ChannelWorld τ) (n : Notification τ) :
    emitted service (.notify n) = ((delivered service.db [n]).map pushOf).map fun push =>
      .emit (roomOf (toString push.channelId)) (.reading push) := by
  have hpushed : (served service (.notify n)).pushed =
      service.pushed ++ (delivered service.db [n]).map pushOf :=
    (ChannelService.handleNotify_step n n.channelId service).pushed
  unfold emitted
  rw [hpushed, List.drop_left]

/-- The handlers move a client in and out of the room of a channel as its own events say. -/
theorem listening_handled {own : Sid → String} (service : ChannelWorld τ) (e : Event τ)
    (hown : e = .connect sid true → own sid ≠ roomOf (toString i)) :
    Rooms.Listening own sid (roomOf (toString i)) (past ++ handled service e) ↔
      e = .subscribeChannel sid (some (toString i)) ∨
        Rooms.Listening own sid (roomOf (toString i)) past ∧
          e ≠ .unsubscribeChannel sid (some (toString i)) ∧ e ≠ .disconnect sid := by
  have hother : ∀ es : List (Rooms.Event Sid String Message),
      (∀ x ∈ es, (∃ r m, x = .emit r m) ∨ ∃ m, x = .broadcast m) →
      (Rooms.Listening own sid (roomOf (toString i)) (past ++ es) ↔
        Rooms.Listening own sid (roomOf (toString i)) past) := by
    intro es hes
    apply Rooms.since_append
    intro x hx
    rcases hes x hx with ⟨r, m, rfl⟩ | ⟨m, rfl⟩ <;> simp
  cases e with
  | connect sid' authenticated =>
    cases authenticated with
    | false => simp [handled]
    | true =>
      have hnone : ¬((.connect sid' : Rooms.Event Sid String Message) =
          .join sid (roomOf (toString i)) ∨ (.connect sid' : Rooms.Event Sid String Message) =
            .connect sid ∧ roomOf (toString i) = own sid) := by
        rintro (hjoin | ⟨hsame, hroom⟩)
        · cases hjoin
        · cases hsame
          exact hown rfl hroom.symm
      unfold Rooms.Listening
      rw [handled, if_pos rfl, Rooms.since_concat, or_iff_right hnone]
      simp
  | disconnect sid' =>
    unfold Rooms.Listening
    rw [handled, Rooms.since_concat]
    simp
  | subscribeChannel sid' channelId =>
    cases channelId with
    | none => simp [handled]
    | some j =>
      unfold Rooms.Listening
      rw [handled, Option.map_some, Option.toList_some, Rooms.since_concat]
      simp
  | unsubscribeChannel sid' channelId =>
    cases channelId with
    | none => simp [handled]
    | some j =>
      unfold Rooms.Listening
      rw [handled, Option.map_some, Option.toList_some, Rooms.since_concat]
      simp
  | notify n =>
    rw [hother]
    · simp
    · intro x hx
      rw [handled, emitted_eq] at hx
      obtain ⟨push, -, rfl⟩ := List.mem_map.mp hx
      exact Or.inl ⟨_, _, rfl⟩
  | deviceStatus deviceId status =>
    rw [hother]
    · simp
    · intro x hx
      exact Or.inr ⟨_, List.mem_singleton.mp hx⟩
  | tables db => simp [handled]

open Classical in
/-- Of an event a client is sent the reading that it delivers, if it is in the room for it. -/
theorem heard_handled (own : Sid → String) (service : ChannelWorld τ) (e : Event τ) :
    (Rooms.heard own sid past (handled service e)).filterMap Message.push? =
      (deliveredBy service.db e).filter fun p =>
        Rooms.Listening own sid (roomOf (toString p.channelId)) past := by
  cases e with
  | connect sid' authenticated => cases authenticated <;> rfl
  | disconnect sid' => rfl
  | subscribeChannel sid' channelId => cases channelId <;> rfl
  | unsubscribeChannel sid' channelId => cases channelId <;> rfl
  | notify n =>
    rw [handled, emitted_eq, deliveredBy]
    cases hd : decoded service.db n with
    | none =>
      have hnone : delivered service.db [n] = [] := by simp [delivered, hd]
      rw [hnone]
      rfl
    | some v =>
      have hone : delivered service.db [n] = [(n, v)] := by simp [delivered, hd]
      rw [hone, List.map_singleton, List.map_singleton, Rooms.heard, Rooms.heard, Rooms.sent,
        List.append_nil]
      split_ifs with hin
      · rw [List.filter_eq_self.mpr]
        · rfl
        · intro p hp
          rw [List.mem_singleton.mp hp]
          exact decide_eq_true hin
      · rw [List.filter_eq_nil_iff.mpr]
        · rfl
        · intro p hp
          rw [List.mem_singleton.mp hp]
          exact mt of_decide_eq_true hin
  | deviceStatus deviceId status =>
    rw [handled, Rooms.heard, Rooms.heard, Rooms.sent, List.append_nil]
    split_ifs <;> rfl
  | tables db => rfl

theorem served_channels {db : Database} (h : service.db.channels = db.channels) (e : Event τ) :
    (served service e).db.channels = (tablesAfter db [e]).channels := by
  cases e with
  | notify n => exact (ChannelService.handleNotify_step n n.channelId service).channels.trans h
  | tables db' => rfl
  | connect | disconnect | subscribeChannel | unsubscribeChannel | deviceStatus => exact h

end Steps

/-- No room of a client of its own is the room of a channel. -/
def OwnRooms (own : Sid → String) (es : List (Event τ)) : Prop :=
  ∀ sid, .connect sid true ∈ es → ∀ i : ℕ, own sid ≠ roomOf (toString i)

/-- A client is in the room of a channel while it is subscribed. -/
structure Kept (S : Rooms.Server Sid String σ) (past : List (Event τ))
    (asked : List (Rooms.Event Sid String Message)) (s : Server σ τ) (db : Database) : Prop where
  rooms : Rooms.Kept S asked s.sockets
  listening : ∀ sid i,
    Rooms.Listening S.own sid (roomOf (toString i)) asked ↔ Subscribed sid i past
  channels : s.service.db.channels = db.channels

section Runs
variable {S : Rooms.Server Sid String σ} {s s' : Server σ τ} {past es : List (Event τ)}
  {asked : List (Rooms.Event Sid String Message)} {db : Database} {e : Event τ}

def received (s : Server σ τ) (sid : Sid) : List Push :=
  (s.sockets.inbox sid).filterMap Message.push?

open Classical in
theorem Kept.step (hS : S.Lawful) (h : Kept S past asked s db) (hown : OwnRooms S.own [e])
    (hstep : Live.step S s e = some s') :
    Kept S (past ++ [e]) (asked ++ handled s.service e) s' (tablesAfter db [e]) ∧
      ∀ sid, received s' sid = received s sid ++
        (deliveredBy db e).filter fun p => Subscribed sid p.channelId past := by
  unfold Live.step at hstep
  split_ifs at hstep
  obtain ⟨sockets, hrun, rfl⟩ := Option.map_eq_some_iff.mp hstep
  obtain ⟨hrooms, hinbox⟩ := h.rooms.replay hS hrun
  refine ⟨⟨hrooms, fun sid i => ?_, served_channels h.channels e⟩, fun sid => ?_⟩
  · have hapart : e = .connect sid true → S.own sid ≠ roomOf (toString i) := fun he =>
      hown sid (List.mem_singleton.mpr he.symm) i
    unfold Subscribed
    rw [listening_handled s.service e hapart, Rooms.since_concat, h.listening]
    rfl
  · unfold received
    rw [hinbox, List.filterMap_append, heard_handled, deliveredBy_congr h.channels]
    simp only [h.listening]

/-- What is sent over a run is what the subscriptions are for. -/
theorem Kept.received_replay (hS : S.Lawful) (h : Kept S past asked s db)
    (hown : OwnRooms S.own es) (hrun : (system S).replay (fun _ _ => true) s es = some s')
    (sid : Sid) : received s' sid = received s sid ++ readingsFor sid db past es := by
  induction es generalizing past asked s db with
  | nil =>
    cases Option.some.inj hrun
    exact (List.append_nil _).symm
  | cons e es ih =>
    obtain ⟨t, ht, hes⟩ := Option.bind_eq_some_iff.mp hrun
    have hfirst : OwnRooms S.own [e] := fun sid he =>
      hown sid (List.mem_singleton.mp he ▸ .head _)
    obtain ⟨hkept, hreceived⟩ := h.step hS hfirst ht
    rw [ih hkept (fun sid he => hown sid (.tail _ he)) hes, hreceived, readingsFor,
      List.append_assoc]

theorem Kept.init (hS : S.Lawful) (h0 : (system S).init s) : Kept S [] [] s s.service.db := by
  have hsockets : s.sockets = { rooms := S.empty, inbox := fun _ => [] } := h0
  refine ⟨?_, fun sid i => iff_of_false Rooms.not_since_nil Rooms.not_since_nil, rfl⟩
  rw [hsockets]
  exact .empty hS _

theorem received_init (h0 : (system S).init s) (sid : Sid) : received s sid = [] := by
  have hsockets : s.sockets = { rooms := S.empty, inbox := fun _ => [] } := h0
  unfold received
  rw [hsockets]
  rfl

/-- **Each page is sent the readings it subscribed to.** In every run, whatever the other clients,
the requests and the limiter do, the readings that a client is sent are those that were delivered
on a channel while it was subscribed to it: in order, each of them once, and no others. -/
theorem received_run (hS : S.Lawful) (h0 : (system S).init s) (hown : OwnRooms S.own es)
    (h : (system S).replay (fun _ _ => true) s es = some s') (sid : Sid) :
    received s' sid = readingsFor sid s.service.db [] es := by
  rw [(Kept.init hS h0).received_replay hS hown h, received_init h0, List.nil_append]

end Runs
end Limiter

def sidRooms : Rooms.Server Sid String (Rooms.Table Sid String) := Rooms.Table.server id

def flagServer : Server (Rooms.Table Sid String) ℤ where
  service := ChannelService.flagWorld
  sockets := { rooms := sidRooms.empty, inbox := fun _ => [] }

def flagEvents : List (Event ℤ) :=
  [.connect "a" true, .connect "b" false, .notify (ChannelService.flagNotify 1 1 0),
    .subscribeChannel "a" (some "1"), .notify (ChannelService.flagNotify 2 1 1),
    .notify (ChannelService.flagNotify 1 0 2), .disconnect "a",
    .notify (ChannelService.flagNotify 1 1 3)]

theorem ownRooms_sidRooms {es : List (Event ℤ)}
    (h : ∀ sid, .connect sid true ∈ es → sid.length < 8) : OwnRooms sidRooms.own es := by
  intro sid hsid i heq
  have hlength : sid.length = (roomOf (toString i)).length := congrArg String.length heq
  have hshort := h sid hsid
  unfold roomOf at hlength
  rw [String.length_append] at hlength
  have hprefix : "channel:".length = 8 := rfl
  omega

theorem received_run_flag : ∃ s',
    (system sidRooms).replay (fun _ _ => true) flagServer flagEvents = some s' ∧
      received s' "a" = readingsFor "a" ChannelService.flagDb [] flagEvents ∧
      received s' "a" = [⟨1, .finite 0, 2⟩] := by
  have hsome : (((system sidRooms).replay (fun _ _ => true) flagServer
      flagEvents).map fun s => received s "a") = some [⟨1, .finite 0, 2⟩] := by
    decide +kernel
  obtain ⟨s', hrun, hreceived⟩ := Option.map_eq_some_iff.mp hsome
  have h0 : (system sidRooms).init flagServer := rfl
  have hown : OwnRooms sidRooms.own flagEvents := by
    apply ownRooms_sidRooms
    intro sid hsid
    have ha : sid = "a" := by simpa [flagEvents] using hsid
    rw [ha]
    decide
  exact ⟨s', hrun, received_run (Rooms.Table.server_lawful id) h0 hown hrun "a", hreceived⟩

end HomeServer.Web.Live

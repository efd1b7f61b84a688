import HomeServer.Db.StoreRuns

/-! The tables beside the users that own their devices, and what all calls of the repositories find
in them. -/
namespace HomeServer.Db
open HomeServer.Lib

/-- The names of the users in the order of their ids, which count up from one: no user is ever
deleted. -/
structure Installation (σ : Type) where
  users : List String := []
  file : σ

inductive Call
  | createUser (username : String)
  | request (request : Request)

inductive Reply
  | user (userId : ℕ)
  | duplicateUsername (username : String)
  | answer (answer : Answer)

/-- `owner_user_id` references a row of `users`. -/
def ownerExists (users : List String) : Request → Bool
  | .write (.createDevice _ _ ownerUserId _) => 1 ≤ ownerUserId ∧ ownerUserId ≤ users.length
  | _ => true

def Answer.isError : Answer → Bool
  | .raised _ => true
  | _ => false

/-- A foreign key is checked at the end of its statement. -/
def Installation.respond {σ : Type} (C : Component σ Request Answer) (s : Installation σ) :
    Call → Reply × Installation σ
  | .createUser username =>
    if username ∈ s.users then (.duplicateUsername username, s)
    else (.user (s.users.length + 1), { s with users := s.users ++ [username] })
  | .request r =>
    let (answer, file) := C.respond s.file r
    if answer.isError || ownerExists s.users r then (.answer answer, { s with file })
    else (.answer (.raised .integrityError), s)

def installation {σ : Type} (C : Component σ Request Answer) :
    Component (Installation σ) Call Reply where
  init := { file := C.init }
  respond := Installation.respond C

def Call.recorded (i : ℕ) (points : List Point) : Call → List Point
  | .createUser _ => points
  | .request r => r.recorded i points

namespace Installation
variable {σ τ : Type} {C : Component σ Request Answer} {A : Component τ Request Answer}

theorem respond_createUser (C : Component σ Request Answer) (s : Installation σ)
    (username : String) : (installation C).respond s (.createUser username) =
      if username ∈ s.users then (.duplicateUsername username, s)
      else (.user (s.users.length + 1), { s with users := s.users ++ [username] }) := rfl

theorem respond_request (C : Component σ Request Answer) (s : Installation σ) (r : Request) :
    (installation C).respond s (.request r) =
      if (C.respond s.file r).1.isError || ownerExists s.users r then
        (.answer (C.respond s.file r).1, { s with file := (C.respond s.file r).2 })
      else (.answer (.raised .integrityError), s) := rfl

/-- Users and owners do not tell a refinement from what it refines. -/
theorem refines {view : σ → τ} {inv : σ → Prop} (h : C.Refines A view inv) :
    (installation C).Refines (installation A) (fun s => { s with file := view s.file })
      fun s => inv s.file where
  init := h.init
  init_view := congrArg (Installation.mk []) h.init_view
  respond s call hs := by
    cases call with
    | createUser username =>
      rw [respond_createUser, respond_createUser]
      split_ifs <;> exact ⟨hs, rfl⟩
    | request r =>
      obtain ⟨hinv, hrespond⟩ := h.respond s.file r hs
      rw [respond_request, respond_request, hrespond]
      split_ifs
      · exact ⟨hinv, rfl⟩
      · exact ⟨hs, rfl⟩

theorem recorded_orphan {users : List String} {request : Request}
    (h : ownerExists users request = false) (i : ℕ) (points : List Point) :
    request.recorded i points = points := by
  cases request with
  | read query => rfl
  | write statement =>
    cases statement with
    | createDevice address name ownerUserId addrType => rfl
    | deleteDevice | touchLastConnected | setLabel | createChannel | deleteChannel
    | insertReading | deleteOlderThan => cases h

/-- The file takes those of the calls that its foreign keys let through. -/
theorem after_file (C : Component σ Request Answer) (s : Installation σ) (calls : List Call) :
    ∃ requests, ((installation C).after s calls).file = C.after s.file requests ∧
      ∀ i points, requests.foldl (Request.recorded i) points =
        calls.foldl (Call.recorded i) points := by
  induction calls generalizing s with
  | nil => exact ⟨[], rfl, fun _ _ => rfl⟩
  | cons call calls ih =>
    cases call with
    | createUser username =>
      obtain ⟨requests, hafter, hrecorded⟩ :=
        ih ((installation C).respond s (.createUser username)).2
      refine ⟨requests, hafter.trans ?_, hrecorded⟩
      rw [respond_createUser]
      split_ifs <;> rfl
    | request r =>
      obtain ⟨requests, hafter, hrecorded⟩ := ih ((installation C).respond s (.request r)).2
      by_cases hpass : (C.respond s.file r).1.isError || ownerExists s.users r
      · refine ⟨r :: requests, hafter.trans ?_, fun i points => hrecorded i _⟩
        rw [respond_request, if_pos hpass]
        rfl
      · refine ⟨requests, hafter.trans ?_, fun i points => ?_⟩
        · rw [respond_request, if_neg hpass]
        · have horphan : ownerExists s.users r = false :=
            (Bool.or_eq_false_iff.mp (Bool.eq_false_iff.mpr hpass)).2
          rw [List.foldl_cons, Call.recorded, recorded_orphan horphan]
          exact hrecorded i points

/-- **The tables are the store.** Whatever is written and read, in any order, every answer is the
one of the store: what the queries find, in their order, and what is raised. -/
theorem answers_eq_store (calls : List Call) :
    (installation Database.component).answers (installation Database.component).init calls =
      (installation Store.component).answers (installation Store.component).init calls := by
  have hrefines := refines Database.refines
  obtain ⟨-, -, hanswers⟩ := hrefines.run hrefines.init calls
  rw [← hanswers, hrefines.init_view]

section History
variable {db : Database} {deviceId i : ℕ} {name : String} {type : ChannelType} {charUuid : Uuid}
  {dataFormat : String} {unit : Option String}

/-- **A history is what was recorded.** From the creation of a channel on, whatever is asked of the
tables: while the channel is there its history has the values that were recorded for it since and
not pruned, in the order of time, and once it is gone it is gone for good, with all its values. -/
theorem history_run (earlier later : List Call)
    (h : Channels.create ((installation Database.component).after
      (installation Database.component).init earlier).file deviceId name type charUuid dataFormat
        unit = .ok (i, db)) (users : List String) :
    let s := (installation Database.component).after { users, file := db } later
    (Channels.getById s.file i ≠ none → ∀ since til limit,
      (Readings.listByChannel s.file i since til limit).map Reading.point =
        Store.window (later.foldl (Call.recorded i) []) since til limit) ∧
    (Channels.getById s.file i = none → ∀ latest : List Call,
      let s' := (installation Database.component).after s latest
      Channels.getById s'.file i = none ∧
        ∀ since til limit, Readings.listByChannel s'.file i since til limit = []) := by
  intro s
  obtain ⟨first, hfirst, -⟩ := after_file Database.component _ earlier
  obtain ⟨middle, hmiddle, hrecorded⟩ :=
    after_file Database.component { users, file := db } later
  rw [hfirst] at h
  obtain ⟨hkept, hgone⟩ := Database.history_after first middle h
  have hfile : s.file = Database.component.after db middle := hmiddle
  rw [hfile, ← hrecorded]
  refine ⟨hkept, fun hnone latest => ?_⟩
  obtain ⟨last, hlast, -⟩ := after_file Database.component s latest
  dsimp only
  rw [hlast, hfile]
  exact hgone hnone last

end History

/-- Of a channel with a late value and a pruned one. -/
theorem history_run_porch :
    let earlier := [.request (.write (.createDevice "AA:BB:CC:DD:EE:01" "porch" 1 .publicAddr)),
      .createUser "alice",
      .request (.write (.createDevice "AA:BB:CC:DD:EE:01" "porch" 1 .publicAddr))]
    let later := [.request (.write (.insertReading 1 (.finite 20) 60)),
      .request (.write (.insertReading 1 .nan 61)),
      .request (.write (.insertReading 1 (.finite 21) 30)),
      .createUser "bob", .request (.read (.latestByChannel 1)),
      .request (.write (.insertReading 1 (.finite 22) 90)),
      .request (.write (.deleteOlderThan 1 40))]
    ∃ db, Channels.create ((installation Database.component).after
        (installation Database.component).init earlier).file 1 "temp" .display "2a6e" "int16_le"
          none = .ok (1, db) ∧
      ∀ since til limit, (Readings.listByChannel ((installation Database.component).after
        { users := ["alice"], file := db } later).file 1 since til limit).map Reading.point =
          Store.window [(.finite 20, 60), (.finite 22, 90)] since til limit := by
  intro earlier later
  have hcreate : Channels.create ((installation Database.component).after
      (installation Database.component).init earlier).file 1 "temp" .display "2a6e" "int16_le"
        none = .ok (1, _) := rfl
  have hrecorded : later.foldl (Call.recorded 1) [] = [(.finite 20, 60), (.finite 22, 90)] := by
    decide +kernel
  have hrun := history_run earlier later hcreate ["alice"]
  rw [hrecorded] at hrun
  refine ⟨_, hcreate, hrun.1 ?_⟩
  rw [Option.ne_none_iff_isSome]
  decide +kernel

end Installation
end HomeServer.Db

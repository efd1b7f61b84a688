import HomeServer.Lib.Transition
import HomeServer.Services.UserService
import HomeServer.Web.SafeNext

/-! Who is logged in: registering, logging in and out, over any framework that keeps the sessions. -/
namespace HomeServer.Web
open HomeServer.Lib HomeServer.Services
open UserService (Holds)

/-- A browser. -/
abbrev Client := ℕ

structure RegisterForm where
  username : String
  password : String

structure LoginForm where
  username : String
  password : String

/-- What the frameworks do: the session that a signed cookie holds, `fresh` without a cookie, with
the id of its user as `get_id` made it; what is left of it when `current_user` is looked up; what
`login_user` and `logout_user` make of it; and the location that `redirect` sends. -/
structure Framework where
  Session : Type
  fresh : Session
  userId : Session → Option ℕ
  loaded : Session → Session
  loginUser : ℕ → Session → Session
  logoutUser : Session → Session
  redirect : String → Except Err String

/-- Only `login_user` puts a user in a session. A session may lose its user when it is looked up. -/
structure Framework.Lawful (F : Framework) : Prop where
  fresh : F.userId F.fresh = none
  loaded (session : F.Session) :
    F.userId (F.loaded session) = F.userId session ∨ F.userId (F.loaded session) = none
  loginUser (userId : ℕ) (session : F.Session) :
    F.userId (F.loginUser userId session) = some userId
  logoutUser (session : F.Session) : F.userId (F.logoutUser session) = none

/-- `unauthorized` is what `login_required` answers to whoever is not logged in. -/
inductive AuthReply
  | page (flashed : Option String)
  | redirect (location : String)
  | unauthorized
  | raised (e : Err)
  deriving DecidableEq

/-- The sessions of all cookies that each browser ever got: they are signed, so that it can send
one of them again but make none. -/
structure Sessions (F : Framework) (B : Bcrypt) where
  accounts : Accounts B
  issued : Client → List F.Session := fun _ => []

def getUser {B : Bcrypt} (s : Accounts B) (userId : ℕ) : Option User :=
  s.users.find? fun u => u.id = userId

namespace Sessions
variable {F : Framework} {B : Bcrypt}

/-- `load_user` of the session. -/
def currentUser (accounts : Accounts B) (session : F.Session) : Option User :=
  (F.userId session).bind (getUser accounts)

/-- A handler answers, with the session that its response sets. -/
structure Response (F : Framework) (B : Bcrypt) where
  reply : AuthReply
  session : F.Session
  accounts : Accounts B

def redirect (F : Framework) (location : String) : AuthReply :=
  match F.redirect location with
  | .ok sent => .redirect sent
  | .error e => .raised e

/-- `valid` is what `validate_on_submit` says of the form. -/
def register (accounts : Accounts B) (session : F.Session) (valid : Bool) (form : RegisterForm) :
    Response F B :=
  if valid then
    match UserService.register accounts form.username form.password 12 with
    | (.error (.duplicateUsername _), accounts) =>
      ⟨.page (some "Username already taken"), F.loaded session, accounts⟩
    | (.error .tooShort, accounts) | (.error .tooLong, accounts) =>
      ⟨.page (some "Password too weak"), F.loaded session, accounts⟩
    | (.error (.bcrypt e), accounts) => ⟨.raised e, F.loaded session, accounts⟩
    | (.ok uid, accounts) =>
      match getUser accounts uid with
      | some user => ⟨redirect F indexUrl, F.loginUser user.id session, accounts⟩
      | none => ⟨.raised .assertionError, F.loaded session, accounts⟩
  else ⟨.page none, F.loaded session, accounts⟩

/-- `next` is the parameter of that name in the address. -/
def login (accounts : Accounts B) (session : F.Session) (valid : Bool) (form : LoginForm)
    (next : Option String) : Response F B :=
  if valid then
    match UserService.authenticate accounts form.username form.password with
    | .error e => ⟨.raised e, F.loaded session, accounts⟩
    | .ok none => ⟨.page (some "Invalid username or password"), F.loaded session, accounts⟩
    | .ok (some user) => ⟨redirect F (safeNext next), F.loginUser user.id session, accounts⟩
  else ⟨.page none, F.loaded session, accounts⟩

def logout (accounts : Accounts B) (session : F.Session) : Response F B :=
  match currentUser accounts session with
  | none => ⟨.unauthorized, F.loaded session, accounts⟩
  | some _ => ⟨redirect F "/auth/login", F.logoutUser (F.loaded session), accounts⟩

/-- A request comes with the `k`-th of the cookies that its browser got, or without one. -/
inductive Event
  | register (c : Client) (cookie : Option ℕ) (valid : Bool) (form : RegisterForm)
  | login (c : Client) (cookie : Option ℕ) (valid : Bool) (form : LoginForm)
    (next : Option String)
  | logout (c : Client) (cookie : Option ℕ)
  | seedAdmin (username password : String)

def session? (s : Sessions F B) (c : Client) : Option ℕ → Option F.Session
  | none => some F.fresh
  | some k => (s.issued c)[k]?

/-- Also a response to what raised sets the session. -/
def answered (s : Sessions F B) (c : Client) (response : Response F B) : Sessions F B where
  accounts := response.accounts
  issued := Function.update s.issued c (s.issued c ++ [response.session])

def step (s : Sessions F B) : Event → Option (Sessions F B)
  | .register c cookie valid form =>
    (s.session? c cookie).map fun session =>
      s.answered c (register s.accounts session valid form)
  | .login c cookie valid form next =>
    (s.session? c cookie).map fun session =>
      s.answered c (login s.accounts session valid form next)
  | .logout c cookie =>
    (s.session? c cookie).map fun session => s.answered c (logout s.accounts session)
  | .seedAdmin username password =>
    some { s with accounts := (UserService.seedAdmin s.accounts username password 12).2 }

def system (F : Framework) (B : Bcrypt) : System (Sessions F B) Event where
  init s := ∃ source, s = { accounts := { source } }
  step := step

def submitted (c : Client) (es : List Event) : List (String × String) :=
  es.filterMap fun
    | .register c' _ _ form => if c' = c then some (form.username, form.password) else none
    | .login c' _ _ form _ => if c' = c then some (form.username, form.password) else none
    | _ => none

def asked (es : List Event) : List (String × String) :=
  es.filterMap fun
    | .register _ _ _ form => some (form.username, form.password)
    | .seedAdmin username password => some (username, password)
    | _ => none

/-- `bcrypt` takes the one for the other. -/
def Fits (long : LongInput) (password registered : String) : Prop :=
  utf8 password = utf8 registered ∨
    long = .truncated ∧ (utf8 password).take maxPasswordBytes = utf8 registered

section Accounts
variable {s s' : Accounts B} {username password : String}

/-- The table is as it was, or has one new row of the next id. -/
def Grows (s s' : Accounts B) (username password : String) : Prop :=
  (s'.users = s.users ∧ s'.nextId = s.nextId) ∨
    ∃ u, s'.users = s.users ++ [u] ∧ u.id = s.nextId ∧ s'.nextId = s.nextId + 1 ∧
      Holds B u (username, password)

theorem hashPassword_nextId {cost : ℕ} {r : Except Err String}
    (h : UserService.hashPassword s password cost = (r, s')) : s'.nextId = s.nextId := by
  unfold UserService.hashPassword at h
  split at h <;> cases h <;> rfl

theorem register_grows {cost : ℕ} {r : Except UserError ℕ}
    (h : UserService.register s username password cost = (r, s')) :
    Grows s s' username password ∧ ∀ uid, r = .ok uid → ∃ u ∈ s'.users, u.id = uid ∧
      u.id = s.nextId ∧ Holds B u (username, password) := by
  unfold UserService.register at h
  split_ifs at h with hshort hlong
  · cases h
    exact ⟨Or.inl ⟨rfl, rfl⟩, nofun⟩
  · cases h
    exact ⟨Or.inl ⟨rfl, rfl⟩, nofun⟩
  · split at h
    · rename_i hhash
      cases h
      exact ⟨Or.inl ⟨(UserService.hashPassword_spec hhash).1, hashPassword_nextId hhash⟩, nofun⟩
    · rename_i passwordHash s₁ hhash
      obtain ⟨husers, hsalt⟩ := UserService.hashPassword_spec hhash
      have hnext := hashPassword_nextId hhash
      unfold Users.create at h
      split at h
      · cases h
        exact ⟨Or.inl ⟨husers, hnext⟩, nofun⟩
      · cases h
        have hholds : Holds B ⟨s₁.nextId, username, passwordHash⟩ (username, password) :=
          ⟨rfl, not_lt.mp hlong, hsalt passwordHash rfl⟩
        refine ⟨Or.inr ⟨_, by rw [← husers], hnext, by rw [← hnext], hholds⟩, fun uid huid => ?_⟩
        refine ⟨_, List.mem_append_right _ (.head _), ?_, hnext, hholds⟩
        exact Except.ok.inj huid

theorem seedAdmin_grows (s : Accounts B) (username password : String) (cost : ℕ) :
    Grows s (UserService.seedAdmin s username password cost).2 username password := by
  unfold UserService.seedAdmin
  split
  · exact Or.inl ⟨rfl, rfl⟩
  · cases hregister : UserService.register s username password cost with
    | mk r s' => cases r <;> exact (register_grows hregister).1

theorem fits_of_check {long : LongInput} (hB : B.Lawful long) {u : User} {registered : String}
    (h : Holds B u (u.username, registered))
    (hcheck : B.checkpw (utf8 password) u.passwordHash = .ok true) :
    Fits long password registered := by
  obtain ⟨-, hshort, salt, hhash⟩ := h
  dsimp only at hshort hhash
  by_cases hlength : (utf8 password).length ≤ maxPasswordBytes
  · rw [hB.check _ salt _ hshort hhash _ hlength] at hcheck
    exact Or.inl (of_decide_eq_true (Except.ok.inj hcheck))
  · rw [hB.checkLong _ salt _ hshort hhash _ (not_le.mp hlength)] at hcheck
    cases long with
    | truncated =>
      dsimp only at hcheck
      rw [hB.check _ salt _ hshort hhash _ (List.length_take_le _ _)] at hcheck
      exact Or.inr ⟨rfl, of_decide_eq_true (Except.ok.inj hcheck)⟩
    | refused => cases hcheck

end Accounts

section Runs
variable {long : LongInput} {s s' : Sessions F B} {es : List Event} {c : Client} {u : User}

/-- The client submitted the name of the account with a password that fits the one it was made
with. -/
def Known (B : Bcrypt) (long : LongInput) (es : List Event) (c : Client) (u : User) : Prop :=
  ∃ password registered, (u.username, password) ∈ submitted c es ∧
    (u.username, registered) ∈ asked es ∧ Holds B u (u.username, registered) ∧
    Fits long password registered

/-- The rows have ids of their own and the passwords that were asked for. -/
structure Rows (es : List Event) (accounts : Accounts B) : Prop where
  ids : (accounts.users.map User.id).Nodup
  fresh : ∀ u ∈ accounts.users, u.id < accounts.nextId
  asked : ∀ u ∈ accounts.users, ∃ registered, (u.username, registered) ∈ asked es ∧
    Holds B u (u.username, registered)

def Mine (long : LongInput) (es : List Event) (accounts : Accounts B) (c : Client)
    (session : F.Session) : Prop :=
  ∀ userId, F.userId session = some userId →
    ∃ u ∈ accounts.users, u.id = userId ∧ Known B long es c u

structure Kept (long : LongInput) (es : List Event) (s : Sessions F B) : Prop where
  rows : Rows es s.accounts
  cookies : ∀ c, ∀ session ∈ s.issued c, Mine long es s.accounts c session

theorem submitted_concat (e : Event) : submitted c es ⊆ submitted c (es ++ [e]) := by
  unfold submitted
  rw [List.filterMap_append]
  exact List.subset_append_left _ _

theorem asked_concat (e : Event) : asked es ⊆ asked (es ++ [e]) := by
  unfold asked
  rw [List.filterMap_append]
  exact List.subset_append_left _ _

theorem Known.concat (h : Known B long es c u) (e : Event) : Known B long (es ++ [e]) c u := by
  obtain ⟨password, registered, hsub, hasked, hrest⟩ := h
  exact ⟨password, registered, submitted_concat e hsub, asked_concat e hasked, hrest⟩

theorem Kept.concat (h : Kept long es s) (e : Event) : Kept long (es ++ [e]) s := by
  refine ⟨⟨h.rows.ids, h.rows.fresh, fun u hu => ?_⟩, fun c session hc userId huser => ?_⟩
  · obtain ⟨registered, hasked, hholds⟩ := h.rows.asked u hu
    exact ⟨registered, asked_concat e hasked, hholds⟩
  · obtain ⟨u, hu, hid, hknown⟩ := h.cookies c session hc userId huser
    exact ⟨u, hu, hid, hknown.concat e⟩

section Grown
variable {accounts accounts' : Accounts B} {username password : String}

theorem Grows.subset (h : Grows accounts accounts' username password) :
    accounts.users ⊆ accounts'.users := by
  rcases h with ⟨husers, -⟩ | ⟨row, husers, -⟩
  · rw [husers]
    exact List.Subset.refl _
  · rw [husers]
    exact List.subset_append_left _ _

theorem Mine.grow {session : F.Session} (h : Mine long es accounts c session)
    (hgrows : Grows accounts accounts' username password) :
    Mine long es accounts' c session := by
  intro userId huser
  obtain ⟨u, hu, hrest⟩ := h userId huser
  exact ⟨u, hgrows.subset hu, hrest⟩

theorem Rows.grow (h : Rows es accounts) (hgrows : Grows accounts accounts' username password)
    (hasked : (username, password) ∈ Sessions.asked es) : Rows es accounts' := by
  rcases hgrows with ⟨husers, hnext⟩ | ⟨row, husers, hid, hnext, hholds⟩
  · refine ⟨?_, ?_, ?_⟩ <;> rw [husers]
    · exact h.ids
    · rw [hnext]
      exact h.fresh
    · exact h.asked
  · have hnew : ∀ u ∈ accounts.users, u.id ≠ row.id := fun u hu => by
      rw [hid]
      exact (h.fresh u hu).ne
    refine ⟨?_, fun u hu => ?_, fun u hu => ?_⟩
    · rw [husers]
      simpa [List.nodup_append] using ⟨h.ids, hnew⟩
    · rw [husers] at hu
      rw [hnext]
      rcases List.mem_append.mp hu with hu | hu
      · exact Nat.lt_succ_of_lt (h.fresh u hu)
      · rw [List.mem_singleton.mp hu, hid]
        exact Nat.lt_succ_self _
    · rw [husers] at hu
      rcases List.mem_append.mp hu with hu | hu
      · exact h.asked u hu
      · rw [List.mem_singleton.mp hu]
        have hname : row.username = username := hholds.username
        subst hname
        exact ⟨password, hasked, hholds⟩

end Grown

/-- What a handler leaves: rows that were asked for, none of them gone, and a session of a user
that the client knows. -/
theorem Kept.answered (h : Kept long es s) {response : Response F B}
    (hrows : Rows es response.accounts)
    (hsubset : s.accounts.users ⊆ response.accounts.users)
    (hmine : Mine long es response.accounts c response.session) :
    Kept long es (s.answered c response) := by
  refine ⟨hrows, fun c' session hsession => ?_⟩
  unfold Sessions.answered at hsession ⊢
  dsimp only at hsession ⊢
  have hold : ∀ session ∈ s.issued c', Mine long es response.accounts c' session := by
    intro session hsession userId huser
    obtain ⟨u, hu, hrest⟩ := h.cookies c' session hsession userId huser
    exact ⟨u, hsubset hu, hrest⟩
  by_cases heq : c' = c
  · subst heq
    rw [Function.update_self] at hsession
    rcases List.mem_append.mp hsession with hsession | hsession
    · exact hold session hsession
    · rw [List.mem_singleton.mp hsession]
      exact hmine
  · rw [Function.update_of_ne heq] at hsession
    exact hold session hsession

theorem mem_of_getUser {accounts : Accounts B} {userId : ℕ} (h : getUser accounts userId = some u) :
    u ∈ accounts.users ∧ u.id = userId :=
  ⟨List.mem_of_find?_eq_some h, by simpa using List.find?_some h⟩

theorem Rows.eq_of_id {accounts : Accounts B} (h : Rows es accounts) {v : User}
    (hu : u ∈ accounts.users) (hv : v ∈ accounts.users) (hid : u.id = v.id) : u = v :=
  List.inj_on_of_nodup_map h.ids hu hv hid

theorem Kept.session (hF : F.Lawful) (h : Kept long es s) {cookie : Option ℕ}
    {session : F.Session} (hsession : s.session? c cookie = some session) :
    Mine long es s.accounts c session := by
  cases cookie with
  | none =>
    obtain rfl := Option.some.inj hsession
    intro userId huser
    rw [hF.fresh] at huser
    cases huser
  | some k => exact h.cookies c session (List.mem_of_getElem? hsession)

theorem Mine.loaded (hF : F.Lawful) {accounts : Accounts B} {session : F.Session}
    (h : Mine long es accounts c session) : Mine long es accounts c (F.loaded session) := by
  intro userId huser
  rcases hF.loaded session with hsame | hnone
  · exact h userId (hsame.symm.trans huser)
  · rw [hnone] at huser
    cases huser

theorem Mine.loginUser (hF : F.Lawful) {accounts : Accounts B} (hu : u ∈ accounts.users)
    (hknown : Known B long es c u) (session : F.Session) :
    Mine long es accounts c (F.loginUser u.id session) := by
  intro userId huser
  rw [hF.loginUser] at huser
  exact ⟨u, hu, Option.some.inj huser, hknown⟩

theorem submitted_login (c : Client) (es : List Event) (cookie : Option ℕ) (valid : Bool)
    (form : LoginForm) (next : Option String) :
    (form.username, form.password) ∈ submitted c (es ++ [.login c cookie valid form next]) := by
  simp [submitted]

theorem submitted_register (c : Client) (es : List Event) (cookie : Option ℕ) (valid : Bool)
    (form : RegisterForm) :
    (form.username, form.password) ∈ submitted c (es ++ [.register c cookie valid form]) ∧
      (form.username, form.password) ∈ asked (es ++ [.register c cookie valid form]) := by
  simp [submitted, asked]

theorem authenticate_some {accounts : Accounts B} {username password : String}
    (h : UserService.authenticate accounts username password = .ok (some u)) :
    u ∈ accounts.users ∧ u.username = username ∧
      B.checkpw (utf8 password) u.passwordHash = .ok true := by
  unfold UserService.authenticate at h
  cases hfind : Users.getByUsername accounts username with
  | none =>
    rw [hfind] at h
    cases h
  | some v =>
    rw [hfind] at h
    dsimp only at h
    have hv : v ∈ accounts.users := List.mem_of_find?_eq_some hfind
    have hname : v.username = username := by simpa using List.find?_some hfind
    cases hcheck : B.checkpw (utf8 password) v.passwordHash with
    | error e =>
      rw [hcheck] at h
      cases h
    | ok matched =>
      rw [hcheck] at h
      cases matched with
      | false => cases h
      | true =>
        cases h
        exact ⟨hv, hname, hcheck⟩

theorem Kept.register (hF : F.Lawful) (h : Kept long es s) {cookie : Option ℕ}
    {session : F.Session} (hsession : s.session? c cookie = some session) (valid : Bool)
    (form : RegisterForm) :
    Kept long (es ++ [.register c cookie valid form])
      (s.answered c (Sessions.register s.accounts session valid form)) := by
  obtain ⟨hsubmitted, hasked⟩ := submitted_register c es cookie valid form
  have h' := h.concat (.register c cookie valid form)
  have hloaded := (h'.session hF hsession).loaded hF
  unfold Sessions.register
  split_ifs
  · cases hregister : UserService.register s.accounts form.username form.password 12 with
    | mk r accounts =>
      obtain ⟨hgrows, hrow⟩ := register_grows hregister
      have hrows := h'.rows.grow hgrows hasked
      have hpage := hloaded.grow hgrows
      cases r with
      | error e => cases e <;> exact h'.answered hrows hgrows.subset hpage
      | ok uid =>
        dsimp only
        cases hget : getUser accounts uid with
        | none => exact h'.answered hrows hgrows.subset hpage
        | some user =>
          obtain ⟨huser, hid⟩ := mem_of_getUser hget
          obtain ⟨row, hmem, hrowid, -, hholds⟩ := hrow uid rfl
          obtain rfl : row = user := hrows.eq_of_id hmem huser (hrowid.trans hid.symm)
          have hname : row.username = form.username := hholds.username
          rw [← hname] at hsubmitted hasked hholds
          exact h'.answered hrows hgrows.subset
            (.loginUser hF huser ⟨_, _, hsubmitted, hasked, hholds, Or.inl rfl⟩ session)
  · exact h'.answered h'.rows (List.Subset.refl _) hloaded

theorem Kept.login (hF : F.Lawful) (hB : B.Lawful long) (h : Kept long es s) {cookie : Option ℕ}
    {session : F.Session} (hsession : s.session? c cookie = some session) (valid : Bool)
    (form : LoginForm) (next : Option String) :
    Kept long (es ++ [.login c cookie valid form next])
      (s.answered c (Sessions.login s.accounts session valid form next)) := by
  have hsubmitted := submitted_login c es cookie valid form next
  have h' := h.concat (.login c cookie valid form next)
  have hpage : ∀ reply, Kept long (es ++ [.login c cookie valid form next])
      (s.answered c ⟨reply, F.loaded session, s.accounts⟩) := fun _ =>
    h'.answered h'.rows (List.Subset.refl _) ((h'.session hF hsession).loaded hF)
  unfold Sessions.login
  split_ifs
  · cases hauth : UserService.authenticate s.accounts form.username form.password with
    | error e => exact hpage _
    | ok found =>
      cases found with
      | none => exact hpage _
      | some user =>
        obtain ⟨huser, hname, hcheck⟩ := authenticate_some hauth
        obtain ⟨registered, hasked, hholds⟩ := h'.rows.asked user huser
        rw [← hname] at hsubmitted
        exact h'.answered h'.rows (List.Subset.refl _) (.loginUser hF huser
          ⟨_, registered, hsubmitted, hasked, hholds, fits_of_check hB hholds hcheck⟩ session)
  · exact hpage _

theorem Kept.logout (hF : F.Lawful) (h : Kept long es s) {cookie : Option ℕ}
    {session : F.Session} (hsession : s.session? c cookie = some session) :
    Kept long es (s.answered c (Sessions.logout s.accounts session)) := by
  have hloaded := (h.session hF hsession).loaded hF
  unfold Sessions.logout
  cases currentUser s.accounts session with
  | none => exact h.answered h.rows (List.Subset.refl _) hloaded
  | some user =>
    apply h.answered h.rows (List.Subset.refl _)
    intro userId huser
    rw [hF.logoutUser] at huser
    cases huser

theorem Kept.step (hF : F.Lawful) (hB : B.Lawful long) (h : Kept long es s) {e : Event}
    (hstep : Sessions.step s e = some s') : Kept long (es ++ [e]) s' := by
  cases e with
  | register c cookie valid form =>
    obtain ⟨session, hsession, rfl⟩ := Option.map_eq_some_iff.mp hstep
    exact h.register hF hsession valid form
  | login c cookie valid form next =>
    obtain ⟨session, hsession, rfl⟩ := Option.map_eq_some_iff.mp hstep
    exact h.login hF hB hsession valid form next
  | logout c cookie =>
    obtain ⟨session, hsession, rfl⟩ := Option.map_eq_some_iff.mp hstep
    exact (h.concat _).logout hF hsession
  | seedAdmin username password =>
    cases hstep
    have hasked : (username, password) ∈ asked (es ++ [.seedAdmin username password]) := by
      simp [asked]
    have h' := h.concat (.seedAdmin username password)
    have hgrows := seedAdmin_grows s.accounts username password 12
    exact ⟨h'.rows.grow hgrows hasked, fun c session hc => (h'.cookies c session hc).grow hgrows⟩

/-- **Only who knows a password is logged in.** In every run of registrations, logins, logouts and
starts of the server by any number of clients, which may send any cookie again that they ever got,
a session with a user is one of an account, that of its id, and the client it was given to
submitted the name of this account with a password that `bcrypt` cannot tell from the one the
account was made with. -/
theorem session_knows_password (hF : F.Lawful) (hB : B.Lawful long) (h0 : (system F B).init s)
    (h : (system F B).replay (fun _ _ => true) s es = some s') {session : F.Session}
    (hsession : session ∈ s'.issued c) {userId : ℕ} (huser : F.userId session = some userId) :
    ∃ u, currentUser s'.accounts session = some u ∧ u.id = userId ∧ ∃ password registered,
      (u.username, password) ∈ submitted c es ∧ (u.username, registered) ∈ asked es ∧
        Holds B u (u.username, registered) ∧ Fits long password registered := by
  have hkept : Kept long es s' := by
    refine System.replay_induction (P := Kept long) ?_ (fun es t e t' ht _ hstep => ?_) h
    · obtain ⟨source, rfl⟩ := h0
      exact ⟨⟨List.nodup_nil, nofun, nofun⟩, nofun⟩
    · exact ht.step hF hB hstep
  obtain ⟨u, hu, hid, hknown⟩ := hkept.cookies c session hsession userId huser
  refine ⟨u, ?_, hid, hknown⟩
  unfold currentUser
  rw [huser, Option.bind_some]
  cases hget : getUser s'.accounts userId with
  | none =>
    have hnone := List.find?_eq_none.mp hget u hu
    exact absurd (decide_eq_true hid) hnone
  | some v =>
    obtain ⟨hv, hvid⟩ := mem_of_getUser hget
    rw [hkept.rows.eq_of_id hu hv (hid.trans hvid.symm)]

end Runs

/-- A session is the id of its user, and a header has no line breaks. -/
def plainFramework : Framework where
  Session := Option ℕ
  fresh := none
  userId := id
  loaded := id
  loginUser userId _ := some userId
  logoutUser _ := none
  redirect location :=
    if location.toList.any fun c => c = '\n' ∨ c = '\r' then .error .valueError
    else .ok location

theorem plainFramework_lawful : plainFramework.Lawful where
  fresh := rfl
  loaded _ := Or.inl rfl
  loginUser _ _ := rfl
  logoutUser _ := rfl

/-- Alice registers in one browser and, at the second attempt, logs in in another one. -/
def aliceLogsIn : List Event :=
  [.register 0 none true ⟨"alice", "password1"⟩, .login 1 none true ⟨"alice", "password2"⟩ none,
    .login 1 (some 0) true ⟨"alice", "password1"⟩ (some "/devices\n"), .logout 0 (some 0)]

theorem session_knows_password_alice : ∃ s' : Sessions plainFramework UserService.lockedBcrypt,
    (system plainFramework UserService.lockedBcrypt).replay (fun _ _ => true)
      { accounts := { source := () } } aliceLogsIn = some s' ∧
    s'.issued 1 = [none, some 1] ∧
    ∃ u, currentUser (F := plainFramework) s'.accounts (some 1) = some u ∧ u.id = 1 ∧
      ∃ password registered, (u.username, password) ∈ submitted 1 aliceLogsIn ∧
        (u.username, registered) ∈ asked aliceLogsIn ∧
        Holds UserService.lockedBcrypt u (u.username, registered) ∧
        Fits .refused password registered := by
  have hsome : ((system plainFramework UserService.lockedBcrypt).replay (fun _ _ => true)
      { accounts := { source := () } } aliceLogsIn).map
        (fun s => (s.issued 1 : List (Option ℕ))) = some [none, some 1] := by
    decide +kernel
  obtain ⟨s', hrun, hissued⟩ := Option.map_eq_some_iff.mp hsome
  have hmem : (some 1 : plainFramework.Session) ∈ s'.issued 1 := by
    rw [hissued]
    exact .tail _ (.head _)
  exact ⟨s', hrun, hissued, session_knows_password plainFramework_lawful
    UserService.lockedBcrypt_lawful ⟨(), rfl⟩ hrun hmem rfl⟩

end Sessions
end HomeServer.Web

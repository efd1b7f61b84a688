import HomeServer.Core.Errors
import HomeServer.Lib.Grouping
import Mathlib.Data.List.Nodup

/-! Accounts: the `users` table, registration and authentication, with `bcrypt` as a parameter. -/
namespace HomeServer.Services
open List (Forall₂)

structure User where
  id : ℕ
  username : String
  passwordHash : String
  deriving DecidableEq

inductive UserError
  | duplicateUsername (username : String)
  | tooShort
  | tooLong
  | bcrypt (e : Err)
  deriving DecidableEq

/-- `bcrypt`: a salt is drawn from a source of randomness, and a hash is its ASCII text. -/
structure Bcrypt where
  Salt : Type
  Source : Type
  gensalt : ℕ → Source → Except Err Salt × Source
  hashpw : Bytes → Salt → Except Err String
  checkpw : Bytes → String → Except Err Bool

/-- The rows of `users` in the order of their ids. -/
structure Accounts (B : Bcrypt) where
  users : List User := []
  nextId : ℕ := 1
  source : B.Source

def utf8 (s : String) : Bytes := s.toList.flatMap String.utf8EncodeChar

def minPasswordLen : ℕ := 8

def maxPasswordBytes : ℕ := 72

/-- What `bcrypt` makes of more than 72 bytes. -/
inductive LongInput
  | truncated
  | refused

/-- A check of at most 72 bytes compares them with those that were hashed. Of more, the first 72
are looked at before version 5, and a `ValueError` is raised from then on. -/
structure Bcrypt.Lawful (B : Bcrypt) (long : LongInput) : Prop where
  check : ∀ p salt hash, p.length ≤ maxPasswordBytes → B.hashpw p salt = .ok hash →
    ∀ q, q.length ≤ maxPasswordBytes → B.checkpw q hash = .ok (decide (q = p))
  checkLong : ∀ p salt hash, p.length ≤ maxPasswordBytes → B.hashpw p salt = .ok hash →
    ∀ q, maxPasswordBytes < q.length → B.checkpw q hash =
      match long with
      | .truncated => B.checkpw (q.take maxPasswordBytes) hash
      | .refused => .error .valueError

namespace Users
variable {B : Bcrypt}

def create (s : Accounts B) (username passwordHash : String) :
    Except UserError ℕ × Accounts B :=
  if s.users.any fun u => u.username = username then (.error (.duplicateUsername username), s)
  else
    let row := { id := s.nextId, username, passwordHash }
    (.ok s.nextId, { s with users := s.users ++ [row], nextId := s.nextId + 1 })

def getByUsername (s : Accounts B) (username : String) : Option User :=
  s.users.find? fun u => u.username = username

end Users

namespace UserService
variable {B : Bcrypt}

def hashPassword (s : Accounts B) (password : String) (cost : ℕ) :
    Except Err String × Accounts B :=
  match B.gensalt cost s.source with
  | (.error e, source) => (.error e, { s with source })
  | (.ok salt, source) => (B.hashpw (utf8 password) salt, { s with source })

def register (s : Accounts B) (username password : String) (cost : ℕ) :
    Except UserError ℕ × Accounts B :=
  if password.length < minPasswordLen then (.error .tooShort, s)
  else if maxPasswordBytes < (utf8 password).length then (.error .tooLong, s)
  else
    match hashPassword s password cost with
    | (.error e, s) => (.error (.bcrypt e), s)
    | (.ok passwordHash, s) => Users.create s username passwordHash

def seedAdmin (s : Accounts B) (username password : String) (cost : ℕ) :
    Except UserError Bool × Accounts B :=
  if (Users.getByUsername s username).isSome then (.ok false, s)
  else
    match register s username password cost with
    | (.error e, s) => (.error e, s)
    | (.ok _, s) => (.ok true, s)

def authenticate (s : Accounts B) (username password : String) : Except Err (Option User) :=
  match Users.getByUsername s username with
  | none => .ok none
  | some user => do
    if ← B.checkpw (utf8 password) user.passwordHash then return some user else return none

/-- A state that calls of `register` and `seed_admin` lead to, with the passwords of the users that
they created. -/
inductive Reached : Accounts B → List (String × String) → Prop
  | empty (source : B.Source) : Reached { source } []
  | register {s s' : Accounts B} {log : List (String × String)} {username password : String}
      {cost id : ℕ} : Reached s log → register s username password cost = (.ok id, s') →
      Reached s' (log ++ [(username, password)])
  | registerFails {s s' : Accounts B} {log : List (String × String)} {username password : String}
      {cost : ℕ} {e : UserError} : Reached s log →
      register s username password cost = (.error e, s') → Reached s' log
  | seedAdmin {s s' : Accounts B} {log : List (String × String)} {username password : String}
      {cost : ℕ} : Reached s log → seedAdmin s username password cost = (.ok true, s') →
      Reached s' (log ++ [(username, password)])
  | seedAdminSkips {s s' : Accounts B} {log : List (String × String)}
      {username password : String} {cost : ℕ} : Reached s log →
      seedAdmin s username password cost = (.ok false, s') → Reached s' log
  | seedAdminFails {s s' : Accounts B} {log : List (String × String)}
      {username password : String} {cost : ℕ} {e : UserError} : Reached s log →
      seedAdmin s username password cost = (.error e, s') → Reached s' log

section Runs
variable {s s' : Accounts B} {log : List (String × String)} {username password : String}
  {cost : ℕ}

/-- The row holds a hash of the password that is logged for its name. -/
structure Holds (B : Bcrypt) (u : User) (entry : String × String) : Prop where
  username : u.username = entry.1
  short : (utf8 entry.2).length ≤ maxPasswordBytes
  hash : ∃ salt, B.hashpw (utf8 entry.2) salt = .ok u.passwordHash

structure Kept (s : Accounts B) (log : List (String × String)) : Prop where
  rows : Forall₂ (Holds B) s.users log
  names : (log.map Prod.fst).Nodup

theorem create_ok {passwordHash : String} {id : ℕ}
    (h : Users.create s username passwordHash = (.ok id, s')) :
    (∀ u ∈ s.users, u.username ≠ username) ∧
      s'.users = s.users ++ [⟨s.nextId, username, passwordHash⟩] := by
  unfold Users.create at h
  split at h
  · cases h
  · rename_i hnew
    cases h
    exact ⟨by simpa using hnew, rfl⟩

theorem create_error {passwordHash : String} {e : UserError}
    (h : Users.create s username passwordHash = (.error e, s')) : s' = s := by
  unfold Users.create at h
  split at h <;> cases h
  rfl

theorem hashPassword_spec {r : Except Err String} (h : hashPassword s password cost = (r, s')) :
    s'.users = s.users ∧ ∀ hash, r = .ok hash → ∃ salt, B.hashpw (utf8 password) salt = .ok hash := by
  unfold hashPassword at h
  split at h
  · cases h
    exact ⟨rfl, fun hash hr => nomatch hr⟩
  · rename_i salt source _
    cases h
    exact ⟨rfl, fun hash hr => ⟨salt, hr⟩⟩

theorem register_ok {id : ℕ} (h : register s username password cost = (.ok id, s')) :
    (∀ u ∈ s.users, u.username ≠ username) ∧
      ∃ u, s'.users = s.users ++ [u] ∧ Holds B u (username, password) := by
  unfold register at h
  split_ifs at h with hshort hlong
  · cases h
  · cases h
  split at h
  · cases h
  · rename_i hash s₁ hhash
    obtain ⟨husers, hsalt⟩ := hashPassword_spec hhash
    obtain ⟨hnew, hrows⟩ := create_ok h
    rw [husers] at hnew hrows
    exact ⟨hnew, _, hrows, rfl, not_lt.mp hlong, hsalt hash rfl⟩

theorem register_error {e : UserError} (h : register s username password cost = (.error e, s')) :
    s'.users = s.users := by
  unfold register at h
  split_ifs at h with hshort hlong
  · cases h
    rfl
  · cases h
    rfl
  · split at h
    · rename_i hhash
      cases h
      exact (hashPassword_spec hhash).1
    · rename_i hhash
      rw [create_error h]
      exact (hashPassword_spec hhash).1

theorem Kept.unchanged (h : Kept s log) (husers : s'.users = s.users) : Kept s' log :=
  ⟨husers.symm ▸ h.rows, h.names⟩

theorem Kept.register {id : ℕ} (h : Kept s log)
    (hregister : UserService.register s username password cost = (.ok id, s')) :
    Kept s' (log ++ [(username, password)]) := by
  obtain ⟨hnew, u, husers, hu⟩ := register_ok hregister
  have hfresh : username ∉ log.map Prod.fst := by
    intro hmem
    obtain ⟨entry, hentry, hname⟩ := List.mem_map.mp hmem
    obtain ⟨v, hv, hholds⟩ := Lib.Grouping.exists_of_forall₂_right h.rows hentry
    exact hnew v hv (hholds.username.trans hname)
  constructor
  · rw [husers]
    exact List.rel_append h.rows (.cons hu .nil)
  · rw [List.map_append]
    exact h.names.append (List.nodup_singleton _) (by simpa using hfresh)

theorem Reached.kept (h : Reached s log) : Kept s log := by
  induction h with
  | empty source => exact ⟨.nil, List.nodup_nil⟩
  | register _ hregister ih => exact ih.register hregister
  | registerFails _ hregister ih => exact ih.unchanged (register_error hregister)
  | seedAdmin _ hseed ih =>
    unfold UserService.seedAdmin at hseed
    split at hseed
    · cases hseed
    · split at hseed
      · cases hseed
      · rename_i hregister
        cases hseed
        exact ih.register hregister
  | seedAdminSkips _ hseed ih =>
    unfold UserService.seedAdmin at hseed
    split at hseed
    · cases hseed
      exact ih
    · split at hseed <;> cases hseed
  | seedAdminFails _ hseed ih =>
    unfold UserService.seedAdmin at hseed
    split at hseed
    · cases hseed
    · split at hseed
      · rename_i hregister
        cases hseed
        exact ih.unchanged (register_error hregister)
      · cases hseed

theorem Kept.eq_of_name (h : Kept s log) {registered registered' : String}
    (hmem : (username, registered) ∈ log) (hmem' : (username, registered') ∈ log) :
    registered = registered' :=
  congrArg Prod.snd (List.inj_on_of_nodup_map h.names hmem hmem' rfl)

theorem Kept.getByUsername_none (h : Kept s log) (hnone : Users.getByUsername s username = none)
    (registered : String) : (username, registered) ∉ log := by
  intro hmem
  obtain ⟨u, hu, hholds⟩ := Lib.Grouping.exists_of_forall₂_right h.rows hmem
  exact List.find?_eq_none.mp hnone u hu (decide_eq_true hholds.username)

theorem Kept.getByUsername_some (h : Kept s log) {u : User}
    (hsome : Users.getByUsername s username = some u) :
    ∃ registered, (username, registered) ∈ log ∧ Holds B u (username, registered) := by
  have hmem := List.mem_of_find?_eq_some hsome
  have hname : u.username = username := by simpa using List.find?_some hsome
  obtain ⟨entry, hentry, hholds⟩ := Lib.Grouping.exists_of_forall₂ h.rows hmem
  obtain ⟨name, registered⟩ := entry
  obtain rfl : name = username := hholds.username.symm.trans hname
  exact ⟨registered, hentry, hholds⟩

def Accepts (s : Accounts B) (log : List (String × String)) (username password : String) : Prop :=
  ∃ r, authenticate s username password = .ok r ∧ ∀ user, r = some user ↔
    Users.getByUsername s username = some user ∧
      ∃ registered, (username, registered) ∈ log ∧ utf8 password = utf8 registered

/-- The submitted password is of a length that `register` admits, or `bcrypt` cuts it off and
what is left is another one. -/
def Distinguishable (long : LongInput) (log : List (String × String))
    (username password : String) : Prop :=
  ∀ registered, (username, registered) ∈ log → (utf8 password).length ≤ maxPasswordBytes ∨
    long = .truncated ∧ (utf8 password).take maxPasswordBytes ≠ utf8 registered

theorem authenticate_of_check {u : User} {matched : Bool}
    (hsome : Users.getByUsername s username = some u)
    (hcheck : B.checkpw (utf8 password) u.passwordHash = .ok matched) :
    authenticate s username password = .ok (if matched then some u else none) := by
  unfold authenticate
  rw [hsome]
  dsimp only
  rw [hcheck]
  cases matched <;> rfl

theorem accepts_iff_of_check (h : Kept s log) {u : User} {registered : String} {matched : Bool}
    (hsome : Users.getByUsername s username = some u) (hlog : (username, registered) ∈ log)
    (hcheck : B.checkpw (utf8 password) u.passwordHash = .ok matched) :
    Accepts s log username password ↔ (matched = true ↔ utf8 password = utf8 registered) := by
  have hregistered : (∃ registered', (username, registered') ∈ log ∧
      utf8 password = utf8 registered') ↔ utf8 password = utf8 registered := by
    constructor
    · rintro ⟨registered', hlog', heq⟩
      rwa [h.eq_of_name hlog hlog']
    · intro heq
      exact ⟨registered, hlog, heq⟩
  unfold Accepts
  rw [authenticate_of_check hsome hcheck, hregistered, hsome]
  constructor
  · rintro ⟨r, hr, hall⟩
    rw [← Except.ok.inj hr] at hall
    have hu := hall u
    cases matched <;> simpa using hu
  · intro hmatched
    refine ⟨_, rfl, fun user => ?_⟩
    cases matched with
    | true => simp [hmatched.mp rfl]
    | false =>
      have hne : utf8 password ≠ utf8 registered := fun heq => nomatch hmatched.mpr heq
      simp [hne]

/-- Authentication accepts exactly the registered password as long as the submitted one can be
told from it. -/
theorem authenticate_iff {long : LongInput} (hB : B.Lawful long) (h : Reached s log)
    (username password : String) :
    Accepts s log username password ↔ Distinguishable long log username password := by
  have hkept := h.kept
  cases hsome : Users.getByUsername s username with
  | none =>
    have hlog := hkept.getByUsername_none hsome
    apply iff_of_true
    · refine ⟨none, by unfold authenticate; rw [hsome], fun user => ?_⟩
      rw [hsome]
      simp
    · exact fun registered hmem => absurd hmem (hlog registered)
  | some u =>
    obtain ⟨registered, hlog, -, hshort, salt, hhash⟩ := hkept.getByUsername_some hsome
    have hother : Distinguishable long log username password ↔
        (utf8 password).length ≤ maxPasswordBytes ∨
          long = .truncated ∧ (utf8 password).take maxPasswordBytes ≠ utf8 registered := by
      constructor
      · exact fun hall => hall registered hlog
      · intro hone registered' hlog'
        rwa [← hkept.eq_of_name hlog hlog']
    rw [hother]
    by_cases hlength : (utf8 password).length ≤ maxPasswordBytes
    · have hcheck := hB.check _ salt _ hshort hhash _ hlength
      rw [accepts_iff_of_check hkept hsome hlog hcheck]
      simp [hlength]
    · have hne : utf8 password ≠ utf8 registered := fun heq => hlength (heq ▸ hshort)
      have hcheck := hB.checkLong _ salt _ hshort hhash _ (not_le.mp hlength)
      cases long with
      | truncated =>
        have htake : ((utf8 password).take maxPasswordBytes).length ≤ maxPasswordBytes :=
          List.length_take_le _ _
        dsimp only at hcheck
        rw [hB.check _ salt _ hshort hhash _ htake] at hcheck
        rw [accepts_iff_of_check hkept hsome hlog hcheck]
        simp [hlength, hne]
      | refused =>
        apply iff_of_false
        · rintro ⟨r, hr, -⟩
          unfold authenticate at hr
          rw [hsome] at hr
          dsimp only at hr
          rw [hcheck] at hr
          cases hr
        · simp [hlength]

end Runs

/-- The bytes as the text of a hash, for a `bcrypt` without salt that refuses long input. -/
def byteText (p : Bytes) : String := .ofList (p.map fun b => Char.ofNat b.toNat)

def lockedBcrypt : Bcrypt where
  Salt := Unit
  Source := Unit
  gensalt _ source := (.ok (), source)
  hashpw p _ := if p.length ≤ maxPasswordBytes then .ok (byteText p) else .error .valueError
  checkpw q hash :=
    if q.length ≤ maxPasswordBytes then .ok (decide (byteText q = hash)) else .error .valueError

theorem byteText_injective : Function.Injective byteText := by
  intro p q h
  have hchars := congrArg String.toList h
  unfold byteText at hchars
  rw [String.toList_ofList, String.toList_ofList] at hchars
  have hbyte : Function.Injective fun b : UInt8 => Char.ofNat b.toNat := by
    intro b c hbc
    have hvalid : ∀ b : UInt8, (Char.ofNat b.toNat).toNat = b.toNat := by
      intro b
      have hlt := b.toNat_lt
      have hchar : b.toNat.isValidChar := Or.inl (by omega)
      unfold Char.ofNat
      rw [dif_pos hchar]
      rfl
    have hnat := congrArg Char.toNat hbc
    dsimp only at hnat
    rw [hvalid, hvalid] at hnat
    exact UInt8.toNat_inj.mp hnat
  exact List.map_injective_iff.mpr hbyte hchars

theorem lockedBcrypt_lawful : lockedBcrypt.Lawful .refused := by
  constructor
  · intro p salt hash hp hhash q hq
    change (if p.length ≤ maxPasswordBytes then _ else _) = _ at hhash
    rw [if_pos hp] at hhash
    obtain rfl := Except.ok.inj hhash
    change (if q.length ≤ maxPasswordBytes then _ else _) = _
    rw [if_pos hq]
    exact congrArg Except.ok (decide_eq_decide.mpr byteText_injective.eq_iff)
  · intro p salt hash hp hhash q hq
    exact if_neg (not_le.mpr hq)

def aliceAccounts : Accounts lockedBcrypt where
  users := [⟨1, "alice", byteText (utf8 "password1")⟩]
  nextId := 2
  source := ()

theorem aliceAccounts_reached : Reached aliceAccounts [("alice", "password1")] := by
  have hregister : register { source := () } "alice" "password1" 12 = (.ok 1, aliceAccounts) := by
    unfold register
    rw [if_neg (by decide), if_neg (by decide +kernel)]
    rfl
  exact .register (.empty ()) hregister

theorem authenticate_iff_alice :
    Accepts aliceAccounts [("alice", "password1")] "alice" "passwórd1" :=
  (authenticate_iff lockedBcrypt_lawful aliceAccounts_reached "alice" "passwórd1").mpr
    fun _ _ => Or.inl (by decide +kernel)

/-- A password of 73 bytes is a `ValueError` for a user that exists. -/
theorem authenticate_raises : ¬∀ (B : Bcrypt) (long : LongInput), B.Lawful long →
    ∀ (s : Accounts B) log, Reached s log → ∀ username password,
      Accepts s log username password := by
  intro hall
  obtain ⟨r, hr, -⟩ := hall lockedBcrypt .refused lockedBcrypt_lawful aliceAccounts _
    aliceAccounts_reached "alice" (.ofList (List.replicate 73 'a'))
  have hraises : authenticate aliceAccounts "alice" (.ofList (List.replicate 73 'a')) =
      .error .valueError := by
    decide +kernel
  rw [hraises] at hr
  cases hr

end UserService
end HomeServer.Services

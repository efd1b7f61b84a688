import HomeServer.Ble.Codec
import HomeServer.Core.Doubles
import HomeServer.Lib.Tally
import HomeServer.Services.Runtime
import HomeServer.Services.Units
import Mathlib.Data.Finset.Sort

/-! The synthetic readings of the mock backend. Channels are subscribed by address and
characteristic, and counted by what they measure and by characteristic alone. -/
namespace HomeServer.Services.MockFeed
open HomeServer.Db HomeServer.Ble HomeServer.Ble.Parser HomeServer.Lib.Overwrites
open HomeServer.Lib.Tally HomeServer.Services.Units

abbrev Key := Address × Uuid

/-- What the closures of `make_feed` count in. -/
structure Ticks where
  analogN : ℕ := 0
  flagTicks : Dict Uuid ℕ := ∅
  enumTicks : Dict Uuid ℕ := ∅
  dbaTicks : Dict Uuid ℕ := ∅
  mgTicks : Dict Uuid ℕ := ∅

/-- `ticks.get(char_uuid, 0) + 1`. -/
def next (ticks : Dict Uuid ℕ) (charUuid : Uuid) : ℕ := (ticks.lookup charUuid).getD 0 + 1

def enumValue (enumMap : EnumMap) (count : ℕ) : Except Err PyFloat :=
  let nonzeroKeys := (enumMap.keys.filter (· ≠ 0)).sort (· ≤ ·)
  if nonzeroKeys ≠ [] ∧ count % 6 = 0 then
    PyFloat.float (nonzeroKeys.getD ((count / 6 - 1) % nonzeroKeys.length) 0)
  else .ok (.finite 0)

def flagValue (count : ℕ) : Except Err PyFloat :=
  .ok (if count % 20 = 0 then .finite 1 else .finite 0)

section Feed
variable (sin : PyFloat → PyFloat)

/-- `level + amplitude * math.sin(count / period)`. -/
def wave (level amplitude period : ℚ) (count : ℕ) : Except Err PyFloat :=
  (PyFloat.float count).map fun x =>
    (sin (x.scale (1 / period))).scale amplitude |>.shift level

def dbaValue (count : ℕ) : Except Err PyFloat :=
  (wave sin 40 8 10 count).map fun base => if count % 30 = 0 then base.shift 25 else base

def mgValue (count : ℕ) : Except Err PyFloat :=
  let phase := count % 40
  if 0 < phase ∧ phase ≤ 15 then wave sin 80 10 3 count else wave sin 5 3 7 count

def analogValue (analogN : ℕ) : Except Err PyFloat := wave sin 25 5 10 analogN

/-- A `ParseError` makes `None`, other exceptions pass. -/
def payload (channel : Channel) (value : Except Err PyFloat) : Except Err (Option Bytes) :=
  match value with
  | .error e => .error e
  | .ok value =>
    match encode value channel.dataFormat with
    | .ok data => .ok (some data)
    | .error (.shortData _ _ _) | .error (.cannotEncode _ _) => .ok none
    | .error e => .error e

def feed (subscribed : Key → Option Channel) (address : Address) (charUuid : Uuid) :
    Call Ticks (Option Bytes) := fun t =>
  match subscribed (address, charUuid) with
  | none => (.ok none, t)
  | some channel =>
    match parseEnumUnit channel.unit with
    | some enumMap =>
      let count := next t.enumTicks charUuid
      (payload channel (enumValue enumMap count),
        { t with enumTicks := t.enumTicks.insert charUuid count })
    | none =>
      if channel.unit = some "dBA" then
        let count := next t.dbaTicks charUuid
        (payload channel (dbaValue sin count),
          { t with dbaTicks := t.dbaTicks.insert charUuid count })
      else if channel.unit = some "mg" then
        let count := next t.mgTicks charUuid
        (payload channel (mgValue sin count),
          { t with mgTicks := t.mgTicks.insert charUuid count })
      else if channel.unit = some "0/1" then
        let count := next t.flagTicks charUuid
        (payload channel (flagValue count),
          { t with flagTicks := t.flagTicks.insert charUuid count })
      else
        (payload channel (analogValue sin (t.analogN + 1)), { t with analogN := t.analogN + 1 })

/-- The calls with what each is given. -/
def run (subscribed : Key → Option Channel) :
    List Key → Ticks → List (Key × Except Err (Option Bytes))
  | [], _ => []
  | key :: calls, t =>
    let (given, t) := feed sin subscribed key.1 key.2 t
    (key, given) :: run subscribed calls t

def payloads (subscribed : Key → Option Channel) (calls : List Key) (key : Key) :
    List (Except Err (Option Bytes)) :=
  ofCaller key (run sin subscribed calls {})

end Feed

/-! What a channel is counted by, and what it shows at a count. -/

inductive Counter
  | enum (charUuid : Uuid)
  | dba (charUuid : Uuid)
  | mg (charUuid : Uuid)
  | flag (charUuid : Uuid)
  | analog
  deriving DecidableEq

def counterOf (channel : Channel) (charUuid : Uuid) : Counter :=
  if (parseEnumUnit channel.unit).isSome then .enum charUuid
  else if channel.unit = some "dBA" then .dba charUuid
  else if channel.unit = some "mg" then .mg charUuid
  else if channel.unit = some "0/1" then .flag charUuid
  else .analog

def valueAt (sin : PyFloat → PyFloat) (channel : Channel) (count : ℕ) : Except Err PyFloat :=
  match parseEnumUnit channel.unit with
  | some enumMap => enumValue enumMap count
  | none =>
    if channel.unit = some "dBA" then dbaValue sin count
    else if channel.unit = some "mg" then mgValue sin count
    else if channel.unit = some "0/1" then flagValue count
    else analogValue sin count

def Ticks.shown (t : Ticks) : Counter → ℕ
  | .enum charUuid => (t.enumTicks.lookup charUuid).getD 0
  | .dba charUuid => (t.dbaTicks.lookup charUuid).getD 0
  | .mg charUuid => (t.mgTicks.lookup charUuid).getD 0
  | .flag charUuid => (t.flagTicks.lookup charUuid).getD 0
  | .analog => t.analogN

section Counting
variable {sin : PyFloat → PyFloat} {subscribed : Key → Option Channel} {key : Key}
  {channel : Channel}

theorem lookup_next (ticks : Dict Uuid ℕ) (charUuid charUuid' : Uuid) :
    ((ticks.insert charUuid (next ticks charUuid)).lookup charUuid').getD 0 =
      if charUuid' = charUuid then (ticks.lookup charUuid).getD 0 + 1
      else (ticks.lookup charUuid').getD 0 := by
  split_ifs with heq
  · rw [heq, Finmap.lookup_insert, Option.getD_some]
    rfl
  · rw [Finmap.lookup_insert_of_ne ticks heq]

/-- A call shows the channel at the next count of its counter, and leaves the others alone. -/
theorem feed_eq (sin : PyFloat → PyFloat) (h : subscribed key = some channel) (t : Ticks) :
    (feed sin subscribed key.1 key.2 t).1 =
        payload channel (valueAt sin channel (t.shown (counterOf channel key.2) + 1)) ∧
      (feed sin subscribed key.1 key.2 t).2.shown = bump t.shown (counterOf channel key.2) := by
  unfold feed counterOf valueAt
  rw [h]
  dsimp only
  cases henum : parseEnumUnit channel.unit with
  | some enumMap =>
    refine ⟨rfl, funext fun c => ?_⟩
    cases c <;> simp [Ticks.shown, bump, Function.update_apply, lookup_next]
  | none =>
    dsimp only
    rw [Option.isSome_none, if_neg Bool.false_ne_true]
    split_ifs <;> refine ⟨rfl, funext fun c => ?_⟩ <;>
      cases c <;> simp [Ticks.shown, bump, Function.update_apply, lookup_next]

def givenAt (sin : PyFloat → PyFloat) (subscribed : Key → Option Channel) (key : Key)
    (count : ℕ) : Except Err (Option Bytes) :=
  match subscribed key with
  | none => .ok none
  | some channel => payload channel (valueAt sin channel count)

def counterOfKey (subscribed : Key → Option Channel) (key : Key) : Option Counter :=
  (subscribed key).map fun channel => counterOf channel key.2

/-- A run counts like the abstract counters; what is not subscribed counts in one of its own. -/
theorem run_eq (calls : List Key) (t : Ticks) (n : Option Counter → ℕ)
    (h : ∀ c, t.shown c = n (some c)) :
    run sin subscribed calls t = (numbered (counterOfKey subscribed) n calls).map fun call =>
      (call.1, givenAt sin subscribed call.1 call.2) := by
  induction calls generalizing t n with
  | nil => rfl
  | cons key calls ih =>
    rw [run, numbered, List.map_cons]
    cases hkey : subscribed key with
    | none =>
      have hcounter : counterOfKey subscribed key = none := by
        rw [counterOfKey, hkey, Option.map_none]
      have hfeed : feed sin subscribed key.1 key.2 t = (.ok none, t) := by
        rw [feed, hkey]
      have hshown : ∀ c, t.shown c = bump n none (some c) := fun c => by
        rw [h, bump_of_ne n (Option.some_ne_none c)]
      rw [hfeed, hcounter]
      dsimp only
      rw [ih t _ hshown, givenAt, hkey]
    | some channel =>
      obtain ⟨hgiven, hticks⟩ := feed_eq sin hkey t
      have hcounter : counterOfKey subscribed key = some (counterOf channel key.2) := by
        rw [counterOfKey, hkey, Option.map_some]
      have hshown : ∀ c, (feed sin subscribed key.1 key.2 t).2.shown c =
          bump n (some (counterOf channel key.2)) (some c) := fun c => by
        rw [hticks]
        by_cases hc : c = counterOf channel key.2
        · rw [hc, bump_same, bump_same, h]
        · rw [bump_of_ne _ hc, bump_of_ne n (mt Option.some.inj hc), h]
      rw [hcounter]
      dsimp only
      rw [ih _ _ hshown, hgiven, h, givenAt, hkey]

theorem payloads_eq (calls : List Key) :
    payloads sin subscribed calls key =
      (ofCaller key (numbered (counterOfKey subscribed) (fun _ => 0) calls)).map
        (givenAt sin subscribed key) := by
  have hshown : ∀ c, ({} : Ticks).shown c = 0 := fun c => by
    cases c <;> rfl
  rw [payloads, run_eq calls {} (fun _ => 0) hshown, ofCaller_map]

end Counting
end HomeServer.Services.MockFeed

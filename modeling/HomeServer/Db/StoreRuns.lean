import HomeServer.Db.StoreRefinement

/-! The history of a channel from its creation on: proved of the store, and so of the tables. -/
namespace HomeServer.Db
open HomeServer.Lib

/-- What a request makes of the values of a channel that is there. -/
def Request.recorded (i : ℕ) (points : List Point) : Request → List Point
  | .write (.insertReading channelId value now) =>
    if channelId = i ∧ value ≠ .nan then points ++ [(value, now)] else points
  | .write (.deleteOlderThan channelId before) =>
    if channelId = i then Store.pruned points before else points
  | .write _ | .read _ => points

namespace Store
variable {s s' : Store} {i : ℕ}

@[simp] theorem window_nil (since til : Option Timestamp) (limit : Option ℕ) :
    window [] since til limit = [] := by
  cases limit with
  | none => rfl
  | some n => exact List.take_nil

/-- The id was given to a channel that was removed since. -/
structure Gone (s : Store) (i : ℕ) : Prop where
  given : i < s.nextChannel
  channel : s.channel i = none
  series : s.series i = []

/-- What a request does to one channel: it stays and keeps its values, but for those that are
recorded or pruned, or it is removed with them. -/
structure Moved (s s' : Store) (request : Request) (i : ℕ) : Prop where
  given : i < s'.nextChannel
  gone : s.channel i = none → s.series i = [] → s'.channel i = none ∧ s'.series i = []
  kept : s.channel i ≠ none → s'.channel i ≠ none →
    s'.channel i = s.channel i ∧ s'.series i = request.recorded i (s.series i)
  removed : s.channel i ≠ none → s'.channel i = none → s'.series i = []

theorem apply_moved (hi : i < s.nextChannel) {statement : Statement}
    (h : s.apply statement = .ok s') : Moved s s' (.write statement) i := by
  cases statement with
  | createDevice address name ownerUserId addrType =>
    simp only [apply] at h
    split_ifs at h
    cases h
    exact ⟨hi, fun hc hs => ⟨hc, hs⟩, fun _ _ => ⟨rfl, rfl⟩, fun hc hn => absurd hn hc⟩
  | deleteDevice deviceId =>
    simp only [apply] at h
    split_ifs at h
    cases h
    refine ⟨hi, fun hc hs => ?_, fun hc hn => ?_, fun hc hn => ?_⟩
    · simp [hc, hs]
    · have hother : ¬∃ c, s.channel i = some c ∧ c.deviceId = deviceId := by
        rintro ⟨c, hsome, hdevice⟩
        simp [hsome, hdevice] at hn
      refine ⟨?_, if_neg hother⟩
      obtain ⟨c, hsome⟩ := Option.ne_none_iff_exists'.mp hc
      have hdevice : c.deviceId ≠ deviceId := fun hdevice => hother ⟨c, hsome, hdevice⟩
      simp [hsome, hdevice]
    · obtain ⟨c, hsome⟩ := Option.ne_none_iff_exists'.mp hc
      have hdevice : c.deviceId = deviceId := by simpa [hsome] using hn
      exact if_pos ⟨c, hsome, hdevice⟩
  | touchLastConnected now deviceId =>
    cases h
    exact ⟨hi, fun hc hs => ⟨hc, hs⟩, fun _ _ => ⟨rfl, rfl⟩, fun hc hn => absurd hn hc⟩
  | setLabel deviceId label =>
    simp only [apply] at h
    split_ifs at h
    cases h
    exact ⟨hi, fun hc hs => ⟨hc, hs⟩, fun _ _ => ⟨rfl, rfl⟩, fun hc hn => absurd hn hc⟩
  | createChannel deviceId name type charUuid dataFormat unit =>
    simp only [apply] at h
    split_ifs at h
    cases h
    have hnew : Function.update s.channel s.nextChannel
        (some { id := s.nextChannel, deviceId, name, type, charUuid, dataFormat, unit }) i =
          s.channel i := Function.update_of_ne hi.ne _ _
    refine ⟨Nat.lt_succ_of_lt hi, fun hc hs => ⟨hnew.trans hc, hs⟩, fun _ _ => ⟨hnew, rfl⟩,
      fun hc hn => absurd (hnew.symm.trans hn) hc⟩
  | deleteChannel channelId =>
    simp only [apply] at h
    split_ifs at h
    cases h
    by_cases heq : i = channelId
    · subst heq
      refine ⟨hi, fun _ _ => ⟨Function.update_self .., Function.update_self ..⟩,
        fun _ hn => absurd (Function.update_self ..) hn, fun _ _ => Function.update_self ..⟩
    · refine ⟨hi, fun hc hs => ?_, fun _ _ => ?_, fun hc hn => ?_⟩
      · exact ⟨(Function.update_of_ne heq ..).trans hc, (Function.update_of_ne heq ..).trans hs⟩
      · exact ⟨Function.update_of_ne heq .., Function.update_of_ne heq ..⟩
      · exact absurd ((Function.update_of_ne heq ..).symm.trans hn) hc
  | insertReading channelId value now =>
    simp only [apply] at h
    split_ifs at h with hrefused
    cases h
    obtain ⟨hnan, hthere⟩ := not_or.mp hrefused
    by_cases heq : i = channelId
    · subst heq
      refine ⟨hi, fun hc _ => absurd hc hthere, fun _ _ => ?_, fun hc hn => absurd hn hc⟩
      rw [Request.recorded, if_pos ⟨rfl, hnan⟩]
      exact ⟨rfl, Function.update_self ..⟩
    · refine ⟨hi, fun hc hs => ⟨hc, (Function.update_of_ne heq ..).trans hs⟩, fun _ _ => ?_,
        fun hc hn => absurd hn hc⟩
      rw [Request.recorded, if_neg fun hboth => heq hboth.1.symm]
      exact ⟨rfl, Function.update_of_ne heq ..⟩
  | deleteOlderThan channelId before =>
    cases h
    by_cases heq : i = channelId
    · subst heq
      refine ⟨hi, fun hc hs => ⟨hc, ?_⟩, fun _ _ => ?_, fun hc hn => absurd hn hc⟩
      · refine (Function.update_self ..).trans ?_
        rw [hs]
        rfl
      · rw [Request.recorded, if_pos rfl]
        exact ⟨rfl, Function.update_self ..⟩
    · refine ⟨hi, fun hc hs => ⟨hc, (Function.update_of_ne heq ..).trans hs⟩, fun _ _ => ?_,
        fun hc hn => absurd hn hc⟩
      rw [Request.recorded, if_neg (Ne.symm heq)]
      exact ⟨rfl, Function.update_of_ne heq ..⟩

/-- A statement that raises records nothing for a channel that is there. -/
theorem recorded_of_error {statement : Statement} {e : Err} (h : s.apply statement = .error e)
    (hthere : s.channel i ≠ none) (points : List Point) :
    (Request.write statement).recorded i points = points := by
  cases statement with
  | insertReading channelId value now =>
    simp only [apply] at h
    split_ifs at h with hrefused
    apply if_neg
    rintro ⟨rfl, hvalue⟩
    exact hrefused.elim hvalue hthere
  | deleteOlderThan channelId before => cases h
  | createDevice | deleteDevice | touchLastConnected | setLabel | createChannel | deleteChannel =>
    rfl

theorem respond_moved (hi : i < s.nextChannel) (request : Request) :
    Moved s (component.respond s request).2 request i := by
  have hsame : (∀ points, s.channel i ≠ none → request.recorded i points = points) →
      Moved s s request i := fun h =>
    ⟨hi, fun hc hs => ⟨hc, hs⟩, fun hc _ => ⟨rfl, (h _ hc).symm⟩, fun hc hn => absurd hn hc⟩
  cases request with
  | read query => exact hsame fun _ _ => rfl
  | write statement =>
    simp only [component]
    cases hs : s.apply statement with
    | ok s' => exact apply_moved hi hs
    | error e => exact hsame fun points hthere => recorded_of_error hs hthere points

theorem Gone.after (h : Gone s i) (requests : List Request) :
    Gone (component.after s requests) i := by
  have hstep : ∀ s request, Gone s i → Gone (component.respond s request).2 i := by
    intro s request hgone
    have hmoved := respond_moved hgone.given request
    obtain ⟨hc, hs⟩ := hmoved.gone hgone.channel hgone.series
    exact ⟨hmoved.given, hc, hs⟩
  exact Component.invariant hstep h requests

theorem series_after (hi : i < s.nextChannel) (hthere : s.channel i ≠ none)
    (requests : List Request) :
    ((component.after s requests).channel i ≠ none →
      (component.after s requests).channel i = s.channel i ∧
        (component.after s requests).series i =
          requests.foldl (Request.recorded i) (s.series i)) ∧
    ((component.after s requests).channel i = none → Gone (component.after s requests) i) := by
  induction requests generalizing s with
  | nil => exact ⟨fun _ => ⟨rfl, rfl⟩, fun hn => absurd hn hthere⟩
  | cons request requests ih =>
    have hmoved := respond_moved hi request
    by_cases hc : (component.respond s request).2.channel i = none
    · have hgone : Gone (component.respond s request).2 i :=
        ⟨hmoved.given, hc, hmoved.removed hthere hc⟩
      have hlast := hgone.after requests
      exact ⟨fun hn => absurd hlast.channel hn, fun _ => hlast⟩
    · obtain ⟨hrow, hseries⟩ := hmoved.kept hthere hc
      rw [List.foldl_cons, ← hseries, ← hrow]
      exact ih hmoved.given hc

end Store
namespace Database
variable {db : Database} {deviceId i : ℕ} {name : String} {type : ChannelType} {charUuid : Uuid}
  {dataFormat : String} {unit : Option String}

theorem created_series (hv : db.Valid) {db' : Database}
    (h : Channels.create db deviceId name type charUuid dataFormat unit = .ok (i, db')) :
    i < db'.store.nextChannel ∧ db'.store.channel i ≠ none ∧ db'.store.series i = [] := by
  obtain ⟨channel, hchannel⟩ := Channels.exists_created h
  obtain ⟨-, -, rfl, rfl⟩ := Channels.create_ok h
  refine ⟨Nat.lt_succ_self _, ?_, ?_⟩
  · intro hnone
    exact Option.some_ne_none channel (hchannel.symm.trans hnone)
  · have hempty : Readings.ofChannel db db.nextChannel = [] := by
      apply List.filter_eq_nil_iff.mpr
      intro r hr hchannel
      obtain ⟨c, hc, hid⟩ := hv.readingChannel r hr
      have hlt := hv.channelFresh c hc
      have heq : r.channelId = db.nextChannel := of_decide_eq_true hchannel
      omega
    exact congrArg (List.map Reading.point) hempty

/-- From the creation of a channel on its history is what is recorded for it, and once it is gone
it is gone for good. -/
theorem history_after (earlier later : List Request)
    (h : Channels.create (component.after component.init earlier) deviceId name type charUuid
      dataFormat unit = .ok (i, db)) :
    (Channels.getById (component.after db later) i ≠ none → ∀ since til limit,
      (Readings.listByChannel (component.after db later) i since til limit).map Reading.point =
        Store.window (later.foldl (Request.recorded i) []) since til limit) ∧
    (Channels.getById (component.after db later) i = none → ∀ latest : List Request,
      Channels.getById (component.after (component.after db later) latest) i = none ∧
        ∀ since til limit, Readings.listByChannel
          (component.after (component.after db later) latest) i since til limit = []) := by
  obtain ⟨⟨hv, ho⟩, -, -⟩ := refines.run refines.init earlier
  obtain ⟨hgiven, hthere, hempty⟩ := created_series hv h
  have hstatement : (Statement.createChannel deviceId name type charUuid dataFormat unit).execute
      (component.after component.init earlier) = .ok db := by
    rw [Statement.execute, h]
    rfl
  have hinv : db.Valid ∧ db.InOrder := ⟨hv.execute hstatement, ho.execute hv hstatement⟩
  obtain ⟨hlater, hview, -⟩ := refines.run hinv later
  obtain ⟨hkept, hgone⟩ := Store.series_after hgiven hthere later
  rw [hview, hempty] at hkept
  rw [hview] at hgone
  constructor
  · intro hfound since til limit
    rw [← window_store hlater.2, (hkept hfound).2]
  · intro hnone latest
    have hstays := (hgone hnone).after latest
    obtain ⟨hlatest, hview', -⟩ := refines.run hlater latest
    rw [hview'] at hstays
    refine ⟨hstays.channel, fun since til limit => ?_⟩
    have hpoints := window_store hlatest.2 i since til limit
    rw [hstays.series] at hpoints
    rw [Store.window_nil] at hpoints
    exact List.map_eq_nil_iff.mp hpoints.symm

end Database
end HomeServer.Db

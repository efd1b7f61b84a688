import HomeServer.Lib.Greedy
import HomeServer.Services.ChannelService

/-! `handle_notify` against its purpose: every decodable notification is pushed, and each
channel stores the greedy subsequence of its own notifications. -/
namespace HomeServer.Services.ChannelService
open HomeServer.Db HomeServer.Ble HomeServer.Lib

variable {τ : Type}

def decoded (db : Database) (n : Notification τ) : Option PyFloat :=
  (Channels.getById db n.channelId).bind fun c => (Parser.decode n.rawBytes c.dataFormat).toOption

def delivered (db : Database) (ns : List (Notification τ)) : List (Notification τ × PyFloat) :=
  ns.filterMap fun n => (decoded db n).map fun v => (n, v)

def deliveredOn (db : Database) (i : ℕ) (ns : List (Notification τ)) :
    List (Notification τ × PyFloat) :=
  delivered db (ns.filter fun n => n.channelId = i)

def pushOf (p : Notification τ × PyFloat) : Push := ⟨p.1.channelId, p.2, p.1.timestamp⟩

def rowOf (p : Notification τ × PyFloat) : PyFloat × Timestamp := (p.2, p.1.recordedAt)

def rows (db : Database) (i : ℕ) : List (PyFloat × Timestamp) :=
  (Readings.ofChannel db i).map fun r => (r.value, r.recordedAt)

section Delivered
variable {db : Database} {n : Notification τ}

theorem decoded_congr {db' : Database} (h : db'.channels = db.channels) (n : Notification τ) :
    decoded db' n = decoded db n := by
  unfold decoded Channels.getById
  rw [h]

theorem delivered_congr {db' : Database} (h : db'.channels = db.channels)
    (ns : List (Notification τ)) : delivered db' ns = delivered db ns := by
  unfold delivered
  simp only [decoded_congr h]

theorem deliveredOn_cons_of_none (h : decoded db n = none) (i : ℕ)
    (ns : List (Notification τ)) : deliveredOn db i (n :: ns) = deliveredOn db i ns := by
  unfold deliveredOn delivered
  by_cases hi : n.channelId = i <;> simp [hi, h]

theorem deliveredOn_cons_of_ne {i : ℕ} (h : n.channelId ≠ i) (ns : List (Notification τ)) :
    deliveredOn db i (n :: ns) = deliveredOn db i ns := by
  simp [deliveredOn, h]

theorem deliveredOn_cons {v : PyFloat} (h : decoded db n = some v) (ns : List (Notification τ)) :
    deliveredOn db n.channelId (n :: ns) = (n, v) :: deliveredOn db n.channelId ns := by
  simp [deliveredOn, delivered, h]

theorem decoded_eq_some {c : Channel} {v : PyFloat} (hc : Channels.getById db n.channelId = some c)
    (hv : Parser.decode n.rawBytes c.dataFormat = .ok v) : decoded db n = some v := by
  unfold decoded
  rw [hc, Option.bind_some, hv]
  rfl

theorem exists_of_decoded {v : PyFloat} (h : decoded db n = some v) :
    ∃ c, Channels.getById db n.channelId = some c ∧
      Parser.decode n.rawBytes c.dataFormat = .ok v := by
  unfold decoded at h
  obtain ⟨c, hc, hv⟩ := Option.bind_eq_some_iff.mp h
  refine ⟨c, hc, ?_⟩
  cases hd : Parser.decode n.rawBytes c.dataFormat with
  | error e =>
    rw [hd] at hv
    cases hv
  | ok v' =>
    rw [hd] at hv
    rw [Option.some.inj hv]

def quiet (n : Notification τ) : Notification τ := { n with raised := none }

theorem delivered_quiet (ns : List (Notification τ)) :
    delivered db (ns.map quiet) = (delivered db ns).map fun p => (quiet p.1, p.2) := by
  unfold delivered
  rw [List.filterMap_map, List.map_filterMap]
  apply List.filterMap_congr
  intro n _
  change (decoded db n).map _ = ((decoded db n).map _).map _
  rw [Option.map_map]
  rfl

theorem delivered_filter (ns : List (Notification τ)) (i : ℕ) :
    ((delivered db ns).map pushOf).filter (fun p => p.channelId = i) =
      (deliveredOn db i ns).map pushOf := by
  unfold deliveredOn
  induction ns with
  | nil => rfl
  | cons n ns ih =>
    unfold delivered at ih ⊢
    by_cases hi : n.channelId = i <;> cases hd : decoded db n <;> simp_all [pushOf]

end Delivered

section Rows
variable {db db' : Database} {j : ℕ} {v : PyFloat} {t : Timestamp}

theorem rows_insert (h : Readings.insert db j v t = .ok db') (i : ℕ) :
    rows db' i = rows db i ++ if j = i then [(v, t)] else [] := by
  obtain ⟨-, rfl⟩ := Readings.insert_ok h
  unfold rows Readings.ofChannel
  simp only [List.filter_append, List.map_append]
  by_cases hji : j = i <;> simp [hji]

theorem channels_insert (h : Readings.insert db j v t = .ok db') :
    db'.channels = db.channels := by
  obtain ⟨-, rfl⟩ := Readings.insert_ok h
  rfl

theorem after_store (Q : Except Err Unit → ChannelWorld τ → Prop) (w : ChannelWorld τ) :
    (store j v t).After Q w ↔ match Readings.insert w.db j v t with
      | .ok db => Q (.ok ()) { w with db }
      | .error e => Q (.error e) w := by
  unfold store
  rw [Action.after_bind, Action.after_get, Action.then_ok]
  cases Readings.insert w.db j v t <;> rfl

end Rows

theorem toString_injective {i j : ℕ} (h : toString i = toString j) : i = j := by
  have hchars := congrArg (fun s => Nat.ofDigitChars 10 s.toList 0) h
  simpa using hchars

variable [Sub τ] [LE τ] [DecidableLE τ]

def kept (minIntervalS : τ) (last : Option τ) (ps : List (Notification τ × PyFloat)) :
    List (Notification τ × PyFloat) :=
  Greedy.keep (RateLimiter.elapsed minIntervalS) (fun p => p.1.clock) last ps

theorem kept_cons_of_far {minIntervalS : τ} {last : Option τ} {p : Notification τ × PyFloat}
    (h : last.all (fun t => RateLimiter.elapsed minIntervalS t p.1.clock) = true)
    (ps : List (Notification τ × PyFloat)) :
    kept minIntervalS last (p :: ps) = p :: kept minIntervalS (some p.1.clock) ps := by
  unfold kept
  apply Greedy.keep_cons_of_far
  exact h

theorem kept_cons_of_near {minIntervalS : τ} {last : Option τ} {p : Notification τ × PyFloat}
    (h : last.all (fun t => RateLimiter.elapsed minIntervalS t p.1.clock) = false)
    (ps : List (Notification τ × PyFloat)) :
    kept minIntervalS last (p :: ps) = kept minIntervalS last ps := by
  unfold kept
  apply Greedy.keep_cons_of_near
  exact h

def coming (w : ChannelWorld τ) (i : ℕ) (ns : List (Notification τ)) :
    List (PyFloat × Timestamp) :=
  (kept w.limiter.minIntervalS (w.limiter.lastEmit (toString i)) (deliveredOn w.db i ns)).map rowOf

/-- What one call does to the world, as seen from channel `i`. -/
structure NotifyStep (n : Notification τ) (i : ℕ) (w w' : ChannelWorld τ) : Prop where
  channels : w'.db.channels = w.db.channels
  interval : w'.limiter.minIntervalS = w.limiter.minIntervalS
  pushed : w'.pushed = w.pushed ++ (delivered w.db [n]).map pushOf
  stored : (n.channelId = i → decoded w.db n ≠ some .nan) → ∀ ns,
    rows w'.db i ++ coming w' i ns = rows w.db i ++ coming w i (n :: ns)

theorem coming_congr {w w' : ChannelWorld τ} (hc : w'.db.channels = w.db.channels)
    (hi : w'.limiter.minIntervalS = w.limiter.minIntervalS) (i : ℕ)
    (hl : w'.limiter.lastEmit (toString i) = w.limiter.lastEmit (toString i))
    (ns : List (Notification τ)) : coming w' i ns = coming w i ns := by
  unfold coming deliveredOn
  rw [hi, hl, delivered_congr hc]

/-- A call that delivers nothing raises and leaves everything as it was. -/
theorem handleNotify_undelivered {w : ChannelWorld τ} {n : Notification τ}
    (h : decoded w.db n = none) :
    (handleNotify n).After (fun r w' => (∃ e, r = .error e) ∧ w' = w) w := by
  unfold handleNotify
  rw [Action.after_bind, Action.after_get, Action.then_ok]
  cases hc : Channels.getById w.db n.channelId with
  | none => exact ⟨⟨_, rfl⟩, rfl⟩
  | some c =>
    dsimp only
    cases hv : Parser.decode n.rawBytes c.dataFormat with
    | error e => exact ⟨⟨_, rfl⟩, rfl⟩
    | ok v =>
      rw [decoded_eq_some hc hv] at h
      cases h

/-- A call that delivers `v`: the push, whether or not it raises, then the limited insert. -/
theorem handleNotify_delivered {w : ChannelWorld τ} {n : Notification τ} {c : Channel}
    {v : PyFloat} (hc : Channels.getById w.db n.channelId = some c)
    (hv : Parser.decode n.rawBytes c.dataFormat = .ok v)
    {Q : Except Err PyFloat → ChannelWorld τ → Prop}
    (h : let (emit, limiter) := w.limiter.shouldEmit (toString n.channelId) n.clock
      let w₁ := { w with pushed := w.pushed ++ [pushOf (n, v)], limiter }
      if emit then (store n.channelId v n.recordedAt).After (Action.Then (fun _ => Q (.ok v)) Q) w₁
      else Q (.ok v) w₁) : (handleNotify n).After Q w := by
  have hrest : (do
      (if ← shouldEmit (toString n.channelId) n.clock then store n.channelId v n.recordedAt
        else pure ())
      pure v : Action (ChannelWorld τ) Err PyFloat).After Q
        { w with pushed := w.pushed ++ [pushOf (n, v)] } := by
    unfold shouldEmit
    rw [Action.after_bind, Action.after_bind, Action.after_get, Action.then_ok]
    dsimp only at h ⊢
    rw [Action.after_bind, Action.after_modify, Action.then_ok, Action.after_pure, Action.then_ok,
      Action.after_bind, Action.after_ite]
    split
    · rename_i hemit
      rw [if_pos hemit] at h
      exact h
    · rename_i hemit
      rw [if_neg hemit] at h
      exact h
  unfold handleNotify
  rw [Action.after_bind, Action.after_get, Action.then_ok, hc]
  dsimp only
  rw [hv]
  dsimp only
  unfold onReading
  rw [Action.after_bind, Action.after_tryCatch, Action.after_bind, Action.after_modify,
    Action.then_ok]
  cases n.raised <;> exact hrest

theorem handleNotify_step (n : Notification τ) (i : ℕ) (w : ChannelWorld τ) :
    (handleNotify n).After (fun _ w' => NotifyStep n i w w') w := by
  cases hd : decoded w.db n with
  | none =>
    apply (handleNotify_undelivered hd).mono
    rintro r w' ⟨-, rfl⟩
    refine ⟨rfl, rfl, by simp [delivered, hd], fun _ ns => ?_⟩
    unfold coming
    rw [deliveredOn_cons_of_none hd]
  | some v =>
    obtain ⟨c, hc, hv⟩ := exists_of_decoded hd
    apply handleNotify_delivered hc hv
    dsimp only
    generalize hw₁ : ({ w with
      pushed := w.pushed ++ [pushOf (n, v)]
      limiter := (w.limiter.shouldEmit (toString n.channelId) n.clock).2 } : ChannelWorld τ) = w₁
    have hdb : w₁.db = w.db := by rw [← hw₁]
    have hl : w₁.limiter = (w.limiter.shouldEmit (toString n.channelId) n.clock).2 := by rw [← hw₁]
    have hpushed : w₁.pushed = w.pushed ++ (delivered w.db [n]).map pushOf := by
      rw [← hw₁]
      simp [delivered, hd]
    have hinterval : w₁.limiter.minIntervalS = w.limiter.minIntervalS := by
      rw [hl, RateLimiter.shouldEmit_minIntervalS]
    have hother : ∀ w' : ChannelWorld τ, w'.db.channels = w.db.channels →
        w'.limiter = w₁.limiter → n.channelId ≠ i →
        ∀ ns, coming w' i ns = coming w i (n :: ns) := by
      intro w' hch hl' hne ns
      have hkey : toString i ≠ toString n.channelId := fun h => hne (toString_injective h).symm
      rw [coming_congr hch (hl' ▸ hinterval) i
        (by rw [hl', hl, RateLimiter.shouldEmit_other _ hkey])]
      unfold coming
      rw [deliveredOn_cons_of_ne hne]
    split
    · rename_i hemit
      obtain ⟨hfar, hlast⟩ := RateLimiter.shouldEmit_true hemit
      rw [after_store, hdb]
      cases hins : Readings.insert w.db n.channelId v n.recordedAt with
      | error e =>
        refine ⟨by rw [hdb], hinterval, hpushed, fun hnan ns => ?_⟩
        by_cases hi : n.channelId = i
        · obtain ⟨db', hok⟩ := Readings.exists_insert hc (fun h => hnan hi (h ▸ hd)) n.recordedAt
          rw [hok] at hins
          cases hins
        · rw [hother w₁ (by rw [hdb]) rfl hi, hdb]
      | ok db' =>
        have hch := channels_insert hins
        refine ⟨hch, hinterval, hpushed, fun _ ns => ?_⟩
        by_cases hi : n.channelId = i
        · subst hi
          unfold coming
          dsimp only
          rw [rows_insert hins, if_pos rfl, deliveredOn_cons hd, kept_cons_of_far hfar, hinterval,
            hl, hlast, Function.update_self, List.map_cons, List.append_assoc]
          unfold deliveredOn
          rw [delivered_congr hch]
          rfl
        · rw [hother { w₁ with db := db' } hch rfl hi, rows_insert hins, if_neg hi,
            List.append_nil]
    · rename_i hemit
      obtain ⟨hnear, hlast⟩ := RateLimiter.shouldEmit_false (eq_false_of_ne_true hemit)
      refine ⟨by rw [hdb], hinterval, hpushed, fun _ ns => ?_⟩
      by_cases hi : n.channelId = i
      · subst hi
        unfold coming
        rw [deliveredOn_cons hd, kept_cons_of_near hnear, hl, hlast, hdb]
      · rw [hother w₁ (by rw [hdb]) rfl hi, hdb]

theorem handleAll_run (w : ChannelWorld τ) (ns : List (Notification τ)) (i : ℕ)
    (hnan : ∀ n ∈ ns, n.channelId = i → decoded w.db n ≠ some .nan) :
    (handleAll w ns).db.channels = w.db.channels ∧
      (handleAll w ns).pushed = w.pushed ++ (delivered w.db ns).map pushOf ∧
      rows (handleAll w ns).db i = rows w.db i ++ coming w i ns := by
  induction ns generalizing w with
  | nil => exact ⟨rfl, by simp [handleAll, delivered], by simp [handleAll, coming, deliveredOn,
      delivered, kept, Greedy.keep]⟩
  | cons n ns ih =>
    have hstep : NotifyStep n i w ((handleNotify n).exec w).2 := handleNotify_step n i w
    obtain ⟨hch, hpushed, hrows⟩ := ih _ fun m hm hi => by
      rw [decoded_congr hstep.channels]
      exact hnan m (.tail _ hm) hi
    rw [delivered_congr hstep.channels, hstep.pushed] at hpushed
    refine ⟨hch.trans hstep.channels, hpushed.trans ?_, hrows.trans (hstep.stored ?_ ns)⟩
    · rw [List.append_assoc, ← List.map_append]
      unfold delivered
      rw [← List.filterMap_append, List.singleton_append]
    · exact hnan n (.head _)

theorem kept_quiet (minIntervalS : τ) (db : Database) (ns : List (Notification τ)) :
    (kept minIntervalS none (delivered db (ns.map quiet))).map rowOf =
      (kept minIntervalS none (delivered db ns)).map rowOf := by
  unfold kept
  rw [delivered_quiet, Greedy.keep_map, List.map_map]
  rfl

/-- Whatever came on other channels and whatever the callbacks raised, equal notifications of
a channel are pushed and stored equally. -/
theorem kept_congr {ns ns' : List (Notification τ)} {i : ℕ}
    (h : (ns'.filter fun n => n.channelId = i).map quiet =
      (ns.filter fun n => n.channelId = i).map quiet) (minIntervalS : τ) (db : Database) :
    (kept minIntervalS none (deliveredOn db i ns')).map rowOf =
        (kept minIntervalS none (deliveredOn db i ns)).map rowOf ∧
      (deliveredOn db i ns').map pushOf = (deliveredOn db i ns).map pushOf := by
  unfold deliveredOn
  constructor
  · rw [← kept_quiet, h, kept_quiet]
  · have hpush : ∀ ms : List (Notification τ),
        (delivered db ms).map pushOf = (delivered db (ms.map quiet)).map pushOf := fun ms => by
      rw [delivered_quiet, List.map_map]
      rfl
    rw [hpush, h, ← hpush]

theorem handleNotify_unknown {w : ChannelWorld τ} {n : Notification τ}
    (h : Channels.getById w.db n.channelId = none) :
    (handleNotify n).exec w = (.error (.channelNotFound n.channelId), w) := by
  have hafter : (handleNotify n).After
      (fun r w' => (r, w') = (.error (.channelNotFound n.channelId), w)) w := by
    unfold handleNotify
    rw [Action.after_bind, Action.after_get, Action.then_ok, h]
    rfl
  exact hafter

theorem handleNotify_short {w : ChannelWorld τ} {n : Notification τ} {c : Channel}
    {spec : Parser.Format} (hc : Channels.getById w.db n.channelId = some c)
    (hspec : Parser.lookup c.dataFormat = some spec) (h : n.rawBytes.length < spec.size) :
    (handleNotify n).exec w = (.error (.shortData spec.size c.dataFormat n.rawBytes), w) := by
  have hdecode : Parser.decode n.rawBytes c.dataFormat =
      .error (.shortData spec.size c.dataFormat n.rawBytes) := by
    unfold Parser.decode
    rw [hspec]
    exact if_pos h
  have hafter : (handleNotify n).After
      (fun r w' => (r, w') = (.error (.shortData spec.size c.dataFormat n.rawBytes), w)) w := by
    unfold handleNotify
    rw [Action.after_bind, Action.after_get, Action.then_ok, hc]
    dsimp only
    rw [hdecode]
    rfl
  exact hafter

/-- Every run of calls on a fresh limiter pushes all that is delivered, in order, and stores
for each channel the greedy subsequence of its own notifications. -/
theorem handleNotify_throttles {w : ChannelWorld τ} (hfresh : w.limiter.lastEmit = fun _ => none)
    (ns : List (Notification τ))
    (hfinite : ∀ n ∈ ns, ∀ v, decoded w.db n = some v → v.isFinite = true) :
    (handleAll w ns).pushed = w.pushed ++ (delivered w.db ns).map pushOf ∧
      (∀ i, rows (handleAll w ns).db i = rows w.db i ++
        (kept w.limiter.minIntervalS none (deliveredOn w.db i ns)).map rowOf) ∧
      (∀ i ns', (∀ n ∈ ns', ∀ v, decoded w.db n = some v → v.isFinite = true) →
        (ns'.filter fun n => n.channelId = i).map quiet =
          (ns.filter fun n => n.channelId = i).map quiet →
        rows (handleAll w ns').db i = rows (handleAll w ns).db i ∧
          (handleAll w ns').pushed.filter (fun p => p.channelId = i) =
            (handleAll w ns).pushed.filter fun p => p.channelId = i) ∧
      ∀ (w' : ChannelWorld τ) (n : Notification τ),
        (Channels.getById w'.db n.channelId = none →
          (handleNotify n).exec w' = (.error (.channelNotFound n.channelId), w')) ∧
        ∀ c spec, Channels.getById w'.db n.channelId = some c →
          Parser.lookup c.dataFormat = some spec → n.rawBytes.length < spec.size →
          (handleNotify n).exec w' =
            (.error (.shortData spec.size c.dataFormat n.rawBytes), w') := by
  have hrun : ∀ ms : List (Notification τ),
      (∀ n ∈ ms, ∀ v, decoded w.db n = some v → v.isFinite = true) →
      (handleAll w ms).pushed = w.pushed ++ (delivered w.db ms).map pushOf ∧
        ∀ i, rows (handleAll w ms).db i = rows w.db i ++
          (kept w.limiter.minIntervalS none (deliveredOn w.db i ms)).map rowOf := by
    intro ms hms
    have hnan : ∀ i, ∀ n ∈ ms, n.channelId = i → decoded w.db n ≠ some .nan :=
      fun i n hn _ hd => nomatch hms n hn _ hd
    refine ⟨(handleAll_run w ms 0 (hnan 0)).2.1, fun i => ?_⟩
    have hrows := (handleAll_run w ms i (hnan i)).2.2
    unfold coming at hrows
    rw [hfresh] at hrows
    exact hrows
  obtain ⟨hpushed, hrows⟩ := hrun ns hfinite
  refine ⟨hpushed, hrows, fun i ns' hfinite' hsame => ?_, fun w' n =>
    ⟨handleNotify_unknown, fun c spec => handleNotify_short⟩⟩
  obtain ⟨hpushed', hrows'⟩ := hrun ns' hfinite'
  obtain ⟨hkept, hpush⟩ := kept_congr hsame w.limiter.minIntervalS w.db
  constructor
  · rw [hrows', hrows, hkept]
  · rw [hpushed', hpushed, List.filter_append, List.filter_append, delivered_filter,
      delivered_filter, hpush]

/-- A device with two 0/1 display channels. -/
def flagDb : Database where
  devices := [⟨1, "A4:C1:38:00:00:02", .publicAddr, "door", none, 1, none⟩]
  channels := [⟨1, 1, "open", .display, "2a56", "uint8", some "0/1"⟩,
    ⟨2, 1, "tamper", .display, "2a57", "uint8", some "0/1"⟩]
  nextDevice := 2
  nextChannel := 3

def flagWorld : ChannelWorld ℤ where
  db := flagDb
  limiter := { minIntervalS := 10 }

def flagNotify (channelId : ℕ) (value : UInt8) (clock : ℤ) : Notification ℤ where
  channelId
  rawBytes := [value]
  clock
  timestamp := clock
  recordedAt := clock

theorem handleNotify_throttles_flags :
    let w := handleAll flagWorld
      [flagNotify 1 1 0, flagNotify 2 1 4, flagNotify 1 0 9, flagNotify 1 1 10]
    w.pushed = [⟨1, .finite 1, 0⟩, ⟨2, .finite 1, 4⟩, ⟨1, .finite 0, 9⟩, ⟨1, .finite 1, 10⟩] ∧
      rows w.db 1 = [(.finite 1, 0), (.finite 1, 10)] ∧ rows w.db 2 = [(.finite 1, 4)] :=
  have h := handleNotify_throttles (w := flagWorld) rfl
    [flagNotify 1 1 0, flagNotify 2 1 4, flagNotify 1 0 9, flagNotify 1 1 10]
    (by
      intro n hn v hv
      obtain ⟨c, hc, hdecode⟩ := exists_of_decoded hv
      have hcode : ∀ c ∈ flagDb.channels, c.dataFormat = "uint8" := by decide
      rw [hcode c (Channels.mem_of_getById hc).1] at hdecode
      exact Parser.decode_isFinite rfl (by decide) hdecode)
  ⟨h.1.trans (by decide +kernel), (h.2.1 1).trans (by decide +kernel),
    (h.2.1 2).trans (by decide +kernel)⟩

end HomeServer.Services.ChannelService

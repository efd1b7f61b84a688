import HomeServer.Db.Latest
import HomeServer.Services.Throttle

/-! The stored state of a flag against the live one: the store follows the notifications that
the limiter accepts, the live feed follows all of them. -/
namespace HomeServer.Services.ChannelService
open HomeServer.Db HomeServer.Ble HomeServer.Lib

variable {τ : Type} [Sub τ] [LE τ] [DecidableLE τ]

/-- The tables after a call: as before, or with the one reading that it delivers. -/
theorem handleNotify_db (n : Notification τ) (w : ChannelWorld τ) :
    (handleNotify n).After (fun _ w' => w'.db = w.db ∨
      ∃ v, decoded w.db n = some v ∧
        Readings.insert w.db n.channelId v n.recordedAt = .ok w'.db) w := by
  cases hd : decoded w.db n with
  | none => exact (handleNotify_undelivered hd).mono fun _ _ h => Or.inl (by rw [h.2])
  | some v =>
    obtain ⟨c, hc, hv⟩ := exists_of_decoded hd
    apply handleNotify_delivered hc hv
    dsimp only
    split
    · rw [after_store]
      dsimp only
      cases hins : Readings.insert w.db n.channelId v n.recordedAt with
      | error e => exact Or.inl rfl
      | ok db' => exact Or.inr ⟨v, rfl, hins⟩
    · exact Or.inl rfl

/-- No reading of channel `i` is recorded after a notification that is still to come. -/
def NotAfter (db : Database) (i : ℕ) (ns : List (Notification τ)) : Prop :=
  ∀ r ∈ Readings.ofChannel db i, ∀ n ∈ ns, n.channelId = i → r.recordedAt ≤ n.recordedAt

def viewOf (r : Reading) : PyFloat × Timestamp := (r.value, r.recordedAt)

/-- The latest reading after a run is the last one that the run adds, if it adds any. -/
theorem latest_handleAll {w : ChannelWorld τ} (hv : w.db.Valid) (i : ℕ)
    {ns : List (Notification τ)} (hnan : ∀ n ∈ ns, n.channelId = i → decoded w.db n ≠ some .nan)
    (hnot : NotAfter w.db i ns)
    (hclock : ns.Pairwise fun m n => m.channelId = i → n.channelId = i →
      m.recordedAt ≤ n.recordedAt) :
    (Readings.latestByChannel (handleAll w ns).db i).map viewOf =
      (coming w i ns).getLast?.or ((Readings.latestByChannel w.db i).map viewOf) := by
  induction ns generalizing w with
  | nil => rfl
  | cons n ns ih =>
    obtain ⟨hfirst, hrest⟩ := List.pairwise_cons.mp hclock
    have hstep : NotifyStep n i w ((handleNotify n).exec w).2 := handleNotify_step n i w
    have hdb : ((handleNotify n).exec w).2.db = w.db ∨ _ := handleNotify_db n w
    change (Readings.latestByChannel (handleAll ((handleNotify n).exec w).2 ns).db i).map viewOf = _
    generalize ((handleNotify n).exec w).2 = w' at hstep hdb ⊢
    have hnan' : ∀ m ∈ ns, m.channelId = i → decoded w'.db m ≠ some .nan := fun m hm hi => by
      rw [decoded_congr hstep.channels]
      exact hnan m (.tail _ hm) hi
    have hstored := hstep.stored (hnan n (.head _)) ns
    rcases hdb with hsame | ⟨v, hd, hins⟩
    · rw [ih (hsame ▸ hv) hnan' (fun r hr m hm => hnot r (hsame ▸ hr) m (.tail _ hm)) hrest]
      rw [hsame] at hstored ⊢
      rw [List.append_cancel_left hstored]
    · have hv' := hv.readingInsert hins
      have hrow := Readings.ofChannel_insert hins i
      by_cases hi : n.channelId = i
      · subst hi
        rw [if_pos rfl] at hrow
        have hnot' : NotAfter w'.db n.channelId ns := by
          intro r hr m hm hmi
          rw [hrow] at hr
          rcases List.mem_append.mp hr with hr | hr
          · exact hnot r hr m (.tail _ hm) hmi
          · rw [List.mem_singleton.mp hr]
            exact hfirst m hm rfl hmi
        rw [ih hv' hnan' hnot' hrest,
          Readings.latestByChannel_insert hv hins fun r hr => hnot r hr n (.head _) rfl]
        rw [rows_insert hins, if_pos rfl, List.append_assoc, List.append_cancel_left_eq] at hstored
        rw [← hstored, List.singleton_append, List.getLast?_cons]
        cases (coming w' n.channelId ns).getLast? <;> rfl
      · rw [if_neg hi, List.append_nil] at hrow
        rw [ih hv' hnan' (fun r hr m hm => hnot r (hrow ▸ hr) m (.tail _ hm)) hrest,
          Readings.latestByChannel_insert_of_ne hins hi]
        rw [rows_insert hins, if_neg hi, List.append_nil] at hstored
        rw [List.append_cancel_left hstored]

/-- The threshold of the page and of `get_flag_state`. -/
def isOn (v : PyFloat) : Bool := v.atLeast flagOnThreshold

/-- Once the notifications stop, the stored flag is on exactly when the last accepted one was,
and the live flag shows the last one of all; they are one and the same if the last one comes
an interval after the one accepted before it. -/
theorem flag_state_kept {w : ChannelWorld τ} (hfresh : w.limiter.lastEmit = fun _ => none)
    (hv : w.db.Valid) {i : ℕ} {ns : List (Notification τ)}
    (hnan : ∀ n ∈ ns, n.channelId = i → decoded w.db n ≠ some .nan) (hnot : NotAfter w.db i ns)
    (hclock : ns.Pairwise fun m n => m.channelId = i → n.channelId = i →
      m.recordedAt ≤ n.recordedAt)
    {p : Notification τ × PyFloat} (hp : (deliveredOn w.db i ns).getLast? = some p) :
    ((handleAll w ns).pushed.filter fun p => p.channelId = i).getLast? = some (pushOf p) ∧
      ∃ q r, (kept w.limiter.minIntervalS none (deliveredOn w.db i ns)).getLast? = some q ∧
        (getFlagState (handleAll w ns).db i).1 = some r ∧ viewOf r = rowOf q ∧
        (isOn r.value = isOn p.2 ↔ isOn q.2 = isOn p.2) ∧
        ∀ ps, deliveredOn w.db i ns = ps ++ [p] →
          ((kept w.limiter.minIntervalS none ps).getLast?.all fun o =>
            RateLimiter.elapsed w.limiter.minIntervalS o.1.clock p.1.clock) = true → q = p := by
  have hlatest := latest_handleAll hv i hnan hnot hclock
  have hpushed := (handleAll_run w ns i hnan).2.1
  have hkept : kept w.limiter.minIntervalS none (deliveredOn w.db i ns) ≠ [] := by
    unfold kept
    apply Greedy.keep_ne_nil
    intro hnil
    rw [hnil] at hp
    cases hp
  constructor
  · rw [hpushed, List.filter_append, delivered_filter, List.getLast?_append, List.getLast?_map, hp]
    rfl
  · obtain ⟨q, hq⟩ : ∃ q, (kept w.limiter.minIntervalS none (deliveredOn w.db i ns)).getLast? =
      some q := ⟨_, List.getLast?_eq_some_getLast hkept⟩
    unfold coming at hlatest
    rw [hfresh, List.getLast?_map, hq] at hlatest
    obtain ⟨r, hr, hview⟩ := Option.map_eq_some_iff.mp hlatest
    have hvalue : r.value = q.2 := congrArg Prod.fst hview
    refine ⟨q, r, hq, hr, hview, by rw [hvalue], fun ps hps hfar => ?_⟩
    have hconcat : kept w.limiter.minIntervalS none (ps ++ [p]) =
        kept w.limiter.minIntervalS none ps ++ [p] := by
      unfold kept
      apply Greedy.keep_concat_of_far
      exact hfar
    rw [hps, hconcat, List.getLast?_concat] at hq
    exact (Option.some.inj hq).symm

theorem flagWorld_valid : flagWorld.db.Valid := by
  constructor <;> decide

def flagChanges : List (Notification ℤ) := [flagNotify 1 1 0, flagNotify 1 0 9, flagNotify 1 1 10]

theorem flag_state_kept_changes : ∃ q r,
    (kept 10 none (deliveredOn flagDb 1 flagChanges)).getLast? = some q ∧
      (getFlagState (handleAll flagWorld flagChanges).db 1).1 = some r ∧ viewOf r = rowOf q ∧
      (isOn r.value = isOn (.finite 1) ↔ isOn q.2 = isOn (.finite 1)) ∧
      ∀ ps, deliveredOn flagDb 1 flagChanges = ps ++ [(flagNotify 1 1 10, .finite 1)] →
        ((kept 10 none ps).getLast?.all fun o => RateLimiter.elapsed 10 o.1.clock 10) = true →
        q = (flagNotify 1 1 10, .finite 1) := by
  have hfresh : flagWorld.limiter.lastEmit = fun _ => none := rfl
  have hnan : ∀ n ∈ flagChanges, n.channelId = 1 → decoded flagWorld.db n ≠ some .nan := by
    decide +kernel
  have hlast : (deliveredOn flagWorld.db 1 flagChanges).getLast? =
      some (flagNotify 1 1 10, .finite 1) := by
    decide +kernel
  exact (flag_state_kept hfresh flagWorld_valid hnan (fun _ hr => nomatch hr) (by decide +kernel)
    hlast).2

def floatFlagWorld : ChannelWorld ℤ :=
  { flagWorld with
    db := { flagDb with channels := flagDb.channels.map fun c =>
      { c with dataFormat := "float32_le" } } }

/-- A change within the interval is pushed and not stored; with a database clock that was set
back, a stored change is not the latest; and a NaN, which is not on, is pushed and accepted by
the limiter, but its insert is refused. -/
theorem flag_state_stale :
    let w := handleAll flagWorld [flagNotify 1 0 0, flagNotify 1 1 9]
    let w' := handleAll flagWorld
      [flagNotify 1 1 0, { flagNotify 1 0 20 with recordedAt := -1 }]
    let w'' := handleAll floatFlagWorld
      [{ flagNotify 1 0 0 with rawBytes := [0x00, 0x00, 0x80, 0x3f] },
        { flagNotify 1 0 20 with rawBytes := [0x00, 0x00, 0xc0, 0x7f] }]
    (w.pushed.getLast?.map fun p => isOn p.value) = some true ∧
      ((getFlagState w.db 1).1.map fun r => isOn r.value) = some false ∧
      (w'.pushed.getLast?.map fun p => isOn p.value) = some false ∧
      ((getFlagState w'.db 1).1.map fun r => isOn r.value) = some true ∧
      (w''.pushed.getLast?.map fun p => isOn p.value) = some false ∧
      ((getFlagState w''.db 1).1.map fun r => isOn r.value) = some true := by
  decide +kernel

end HomeServer.Services.ChannelService

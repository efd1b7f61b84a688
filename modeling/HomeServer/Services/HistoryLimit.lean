import HomeServer.Db.Latest
import HomeServer.Services.Endpoints
import Mathlib.Data.List.DropRight

/-! `get_history` with a limit: which end of the readings of a channel it selects. -/
namespace HomeServer.Db.Readings

/-- Of distinct rows the first and the last `n` are the same only where that is all of them. -/
theorem take_eq_rtake_iff {α : Type} {rows : List α} (hrows : rows.Nodup) {n : ℕ} (hn : 1 ≤ n) :
    rows.take n = rows.rtake n ↔ rows.length ≤ n := by
  unfold List.rtake
  constructor
  · intro heq
    by_contra hlong
    have hfirst := congrArg List.head? heq
    rw [List.head?_take, if_neg (by omega), List.head?_drop, List.head?_eq_getElem?] at hfirst
    have hnonempty : 0 < rows.length := by omega
    have hplace : 0 = rows.length - n := (List.getElem?_inj hnonempty hrows).mp hfirst
    omega
  · intro hshort
    rw [List.take_of_length_le hshort, Nat.sub_eq_zero_of_le hshort, List.drop_zero]

def mostRecent (db : Database) (channelId n : ℕ) : List Reading :=
  (orderBy (ofChannel db channelId)).rtake n

theorem length_orderBy (rows : List Reading) : (orderBy rows).length = rows.length :=
  List.length_insertionSort Before rows

end HomeServer.Db.Readings

namespace HomeServer.Services.ChannelService
open HomeServer.Db Readings

theorem getHistory_limit (db : Database) (channelId n : ℕ) :
    getHistory db channelId none none (some n) = (orderBy (ofChannel db channelId)).take n := by
  unfold getHistory listByChannel
  simp

/-- A limited history ends at the present exactly when the limit leaves nothing out. -/
theorem limited_history_recent {db : Database} (h : db.Valid) (channelId : ℕ) {n : ℕ}
    (hn : 1 ≤ n) :
    getHistory db channelId none none (some n) = mostRecent db channelId n ↔
      (ofChannel db channelId).length ≤ n := by
  rw [getHistory_limit, ← length_orderBy]
  exact take_eq_rtake_iff (nodup_orderBy h channelId) hn

/-- The response without a window, which the device page asks for. -/
theorem channelHistory_recent {db : Database} (h : db.Valid) (now : Timestamp) {channelId : ℕ}
    {channel : Channel} (hchannel : Channels.getById db channelId = some channel)
    {limit : Option ℤ} (hshort : (ofChannel db channelId).length ≤ Web.historyLimit limit) :
    Web.channelHistory db now channelId none limit =
      .ok (.history channelId ((mostRecent db channelId (Web.historyLimit limit)).map fun r =>
        (r.value, r.recordedAt))) := by
  have hpos : 1 ≤ Web.historyLimit limit := by
    unfold Web.historyLimit
    cases limit with
    | none => decide
    | some n => dsimp only; omega
  unfold Web.channelHistory
  rw [hchannel]
  dsimp only
  rw [(limited_history_recent h channelId hpos).mpr hshort]

def porchReadings : Database where
  devices := [⟨1, "A4:C1:38:00:00:2A", .publicAddr, "porch", none, 1, none⟩]
  channels := [⟨1, 1, "t", .display, "2a6e", "int16_le", none⟩]
  readings := [⟨1, 1, .finite 18, 60⟩, ⟨2, 1, .finite 19, 120⟩, ⟨3, 1, .finite 20, 180⟩]
  nextDevice := 2
  nextChannel := 2
  nextReading := 4

theorem porchReadings_valid : porchReadings.Valid := by
  constructor <;> decide

theorem limited_history_recent_porch :
    getHistory porchReadings 1 none none (some 3) = mostRecent porchReadings 1 3 :=
  (limited_history_recent porchReadings_valid 1 (by decide)).mpr (by decide)

/-- Of three readings a limit of two selects the two oldest. -/
theorem limited_history_oldest : ¬∀ db : Database, db.Valid → ∀ channelId n, 1 ≤ n →
    getHistory db channelId none none (some n) = mostRecent db channelId n := by
  intro hall
  have hporch := hall porchReadings porchReadings_valid 1 2 (by decide)
  revert hporch
  decide

end HomeServer.Services.ChannelService

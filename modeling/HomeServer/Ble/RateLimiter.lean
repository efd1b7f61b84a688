import HomeServer.Core.Errors
import Mathlib.Logic.Function.Basic

/-! The per-key minimum interval limiter. Its clock readings have any type that can be
subtracted and compared, so the results hold of floats as well as of exact times. -/
namespace HomeServer.Ble

structure RateLimiter (τ : Type) where
  minIntervalS : τ
  lastEmit : String → Option τ := fun _ => none

namespace RateLimiter
variable {τ : Type}

def create [Zero τ] [LT τ] [DecidableLT τ] (minIntervalS : τ) : Except Err (RateLimiter τ) :=
  if minIntervalS < 0 then .error .valueError else .ok { minIntervalS }

variable [Sub τ] [LE τ] [DecidableLE τ]

def elapsed (minIntervalS last now : τ) : Bool := decide (minIntervalS ≤ now - last)

/-- The bookkeeping changes only when the answer is `true`. -/
def shouldEmit (l : RateLimiter τ) (key : String) (now : τ) : Bool × RateLimiter τ :=
  if (l.lastEmit key).all fun last => elapsed l.minIntervalS last now then
    (true, { l with lastEmit := Function.update l.lastEmit key (some now) })
  else (false, l)

@[simp] theorem shouldEmit_minIntervalS (l : RateLimiter τ) (key : String) (now : τ) :
    (l.shouldEmit key now).2.minIntervalS = l.minIntervalS := by
  unfold shouldEmit
  split <;> rfl

theorem shouldEmit_other (l : RateLimiter τ) {key key' : String} (h : key' ≠ key) (now : τ) :
    (l.shouldEmit key now).2.lastEmit key' = l.lastEmit key' := by
  unfold shouldEmit
  split
  · exact Function.update_of_ne h _ _
  · rfl

theorem shouldEmit_true {l : RateLimiter τ} {key : String} {now : τ}
    (h : (l.shouldEmit key now).1 = true) :
    (l.lastEmit key).all (fun last => elapsed l.minIntervalS last now) = true ∧
      (l.shouldEmit key now).2.lastEmit = Function.update l.lastEmit key (some now) := by
  unfold shouldEmit at h ⊢
  split at h
  · rename_i hfar
    rw [if_pos hfar]
    exact ⟨hfar, rfl⟩
  · cases h

theorem shouldEmit_false {l : RateLimiter τ} {key : String} {now : τ}
    (h : (l.shouldEmit key now).1 = false) :
    (l.lastEmit key).all (fun last => elapsed l.minIntervalS last now) = false ∧
      (l.shouldEmit key now).2 = l := by
  unfold shouldEmit at h ⊢
  split at h
  · cases h
  · rename_i hnear
    rw [if_neg hnear]
    exact ⟨by simpa using hnear, rfl⟩

end RateLimiter
end HomeServer.Ble

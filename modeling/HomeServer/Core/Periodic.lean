import Mathlib.Data.Rat.Defs
import Mathlib.Data.List.Count

/-! `PeriodicWorker` objects and the threads they start. A thread and its stop event are
made together by `start` and share an index. -/
namespace HomeServer.Core

structure PeriodicWorker where
  intervalS : ℚ := 1
  thread : Option ℕ := none
  stop : Option ℕ := none

/-- `stopped` holds, for every thread started so far, whether its stop event is set. -/
structure Workers where
  objects : List PeriodicWorker := []
  stopped : List Bool := []

namespace Workers

def get (ws : Workers) (o : ℕ) : PeriodicWorker := ws.objects.getD o {}

def set (ws : Workers) (o : ℕ) (w : PeriodicWorker) : Workers :=
  { ws with objects := ws.objects.set o w }

/-- `PeriodicWorker(tick, interval_s=..., name=...)`: nothing runs before `start`. -/
def create (ws : Workers) (intervalS : ℚ) : Workers :=
  { ws with objects := ws.objects ++ [{ intervalS }] }

/-- The second half of `start`: a new stop event, a new thread, and the thread is running. -/
def spawn (ws : Workers) (o : ℕ) : Workers :=
  { objects := ws.objects.set o
      { ws.get o with thread := some ws.stopped.length, stop := some ws.stopped.length }
    stopped := ws.stopped ++ [false] }

def setEvent (ws : Workers) (t : ℕ) : Workers := { ws with stopped := ws.stopped.set t true }

/-- Threads that will tick again: started, and their stop event not set. -/
def running (ws : Workers) : ℕ := ws.stopped.count false

@[simp] theorem running_set (ws : Workers) (o : ℕ) (w : PeriodicWorker) :
    (ws.set o w).running = ws.running := rfl

@[simp] theorem running_create (ws : Workers) (intervalS : ℚ) :
    (ws.create intervalS).running = ws.running := rfl

@[simp] theorem running_spawn (ws : Workers) (o : ℕ) : (ws.spawn o).running = ws.running + 1 := by
  simp [running, spawn]

theorem running_setEvent_le (ws : Workers) (t : ℕ) : (ws.setEvent t).running ≤ ws.running := by
  by_cases ht : t < ws.stopped.length
  · simp [running, setEvent, List.count_set ht]
  · simp [running, setEvent, List.set_eq_of_length_le (not_lt.mp ht)]

theorem running_setEvent {ws : Workers} {t : ℕ} (h : ws.stopped[t]? = some false) :
    (ws.setEvent t).running + 1 = ws.running := by
  obtain ⟨ht, hf⟩ := List.getElem?_eq_some_iff.mp h
  have hpos : 0 < ws.stopped.count false := List.count_pos_iff.mpr (hf ▸ List.getElem_mem ht)
  simp only [running, setEvent, List.count_set ht, hf]
  simp
  omega

theorem get_create_length (ws : Workers) (intervalS : ℚ) :
    (ws.create intervalS).get ws.objects.length = { intervalS } := by
  simp [get, create]

end Workers
end HomeServer.Core

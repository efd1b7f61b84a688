import HomeServer.Ble.Interface
import Mathlib.Logic.Function.Basic

/-! A Bluetooth backend by its links alone. A link that goes down forgets its subscriptions,
and an attempt that was started may come up at any later moment: what happens between two
calls is read from a script. -/
namespace HomeServer.Ble
open HomeServer.Db

/-- `failed` holds the characteristics whose latest subscribe on this link raised. -/
inductive Link
  | down
  | attempting
  | up (subs failed : List Uuid)
  deriving DecidableEq

def Link.isUp : Link → Bool
  | .up _ _ => true
  | .down | .attempting => false

inductive LinkEvent
  | drop (address : Address)
  | comeUp (address : Address)
  deriving DecidableEq

/-- What happens before a call, and whether the call then raises. -/
structure Moment where
  events : List LinkEvent := []
  raises : Option Err := none
  deriving DecidableEq

/-- `pending` holds the addresses whose `connect` times out with its attempt still in flight,
`drops` the links that went down since the operation began. -/
structure Links where
  link : Address → Link := fun _ => .down
  pending : List Address := []
  drops : List Address := []
  script : List Moment := []

namespace Links

def set (l : Links) (a : Address) (link : Link) : Links :=
  { l with link := Function.update l.link a link }

def after (l : Links) : LinkEvent → Links
  | .drop a => { l.set a .down with drops := a :: l.drops }
  | .comeUp a => if l.link a = .attempting then l.set a (.up [] []) else l

def advance (l : Links) : Moment × Links :=
  match l.script with
  | [] => ({}, l)
  | m :: ms => (m, m.events.foldl after { l with script := ms })

def isConnected (a : Address) (l : Links) : Bool × Links :=
  ((l.advance.2.link a).isUp, l.advance.2)

def connect (a : Address) (l : Links) : Except Err Unit × Links :=
  let (m, l) := l.advance
  if (l.link a).isUp then (.ok (), l)
  else if a ∈ l.pending then (.error .timeoutError, l.set a .attempting)
  else match m.raises with
    | some e => (.error e, l.set a .down)
    | none => (.ok (), l.set a (.up [] []))

def ensureConnecting (a : Address) (l : Links) : Except Err Unit × Links :=
  let (m, l) := l.advance
  match m.raises with
  | some e => (.error e, l)
  | none => (.ok (), if l.link a = .down then l.set a .attempting else l)

def disconnect (a : Address) (l : Links) : Except Err Unit × Links :=
  let (m, l) := l.advance
  match m.raises with
  | some e => (.error e, l.set a .down)
  | none => (.ok (), l.set a .down)

def subscribe (a : Address) (u : Uuid) (l : Links) : Except Err Unit × Links :=
  let (m, l) := l.advance
  match l.link a with
  | .up subs failed =>
    match m.raises with
    | some e => (.error e, l.set a (.up subs (u :: failed)))
    | none => (.ok (), l.set a (.up (u :: subs) (failed.filter (· ≠ u))))
  | .down | .attempting => (.error (.notConnected a), l)

def unsubscribe (a : Address) (u : Uuid) (l : Links) : Except Err Unit × Links :=
  let (_, l) := l.advance
  match l.link a with
  | .up subs failed => (.ok (), l.set a (.up (subs.filter (· ≠ u)) failed))
  | .down | .attempting => (.error (.notConnected a), l)

def manager : BLEManager Links where
  startScan _ l := (.ok [], l.advance.2)
  connect a _ := connect a
  ensureConnecting a _ := ensureConnecting a
  disconnect := disconnect
  isConnected := isConnected
  read _ _ l := (.ok [], l.advance.2)
  write _ _ _ l := (.ok (), l.advance.2)
  subscribe a u _ := subscribe a u
  unsubscribe := unsubscribe

/-- What may have become of one link while nothing was asked of it. -/
structure EvolvedAt (b : Address) (l l' : Links) : Prop where
  link : l'.link b = l.link b ∨
    (l'.link b = .down ∧ ((l.link b).isUp = true → b ∈ l'.drops)) ∨
    (l.link b = .attempting ∧ l'.link b = .up [] [])
  drops : b ∈ l.drops → b ∈ l'.drops

theorem EvolvedAt.refl (b : Address) (l : Links) : EvolvedAt b l l := ⟨Or.inl rfl, id⟩

theorem EvolvedAt.trans {b : Address} {l l' l'' : Links} (h : EvolvedAt b l l')
    (h' : EvolvedAt b l' l'') : EvolvedAt b l l'' := by
  refine ⟨?_, h'.drops ∘ h.drops⟩
  rcases h.link with hs | ⟨hd, hin⟩ | ⟨ha, hu⟩
  · rw [← hs]
    exact h'.link
  · rcases h'.link with hs' | ⟨hd', -⟩ | ⟨ha', -⟩
    · exact Or.inr (Or.inl ⟨hs'.trans hd, fun hup => h'.drops (hin hup)⟩)
    · exact Or.inr (Or.inl ⟨hd', fun hup => h'.drops (hin hup)⟩)
    · rw [hd] at ha'
      cases ha'
  · have hnot : (l.link b).isUp = true → b ∈ l''.drops := by
      rw [ha]
      exact fun h => nomatch h
    rcases h'.link with hs' | ⟨hd', -⟩ | ⟨ha', -⟩
    · exact Or.inr (Or.inr ⟨ha, hs'.trans hu⟩)
    · exact Or.inr (Or.inl ⟨hd', hnot⟩)
    · rw [hu] at ha'
      cases ha'

theorem set_of_ne (l : Links) {a b : Address} (hb : b ≠ a) (link : Link) :
    (l.set a link).link b = l.link b := by
  unfold set
  exact Function.update_of_ne hb link l.link

@[simp] theorem set_self (l : Links) (a : Address) (link : Link) : (l.set a link).link a = link := by
  unfold set
  exact Function.update_self a link l.link

theorem evolvedAt_set (l : Links) {a b : Address} (hb : b ≠ a) (link : Link) :
    EvolvedAt b l (l.set a link) := ⟨Or.inl (l.set_of_ne hb link), id⟩

theorem evolvedAt_after (b : Address) (l : Links) (e : LinkEvent) : EvolvedAt b l (l.after e) := by
  cases e with
  | drop a =>
    by_cases hb : b = a
    · subst hb
      exact ⟨Or.inr (Or.inl ⟨l.set_self b .down, fun _ => .head _⟩), .tail _⟩
    · exact ⟨Or.inl (l.set_of_ne hb .down), .tail _⟩
  | comeUp a =>
    change EvolvedAt b l (if l.link a = .attempting then l.set a (.up [] []) else l)
    split
    · rename_i hatt
      by_cases hb : b = a
      · subst hb
        exact ⟨Or.inr (Or.inr ⟨hatt, l.set_self b _⟩), id⟩
      · exact l.evolvedAt_set hb _
    · exact .refl b l

theorem evolvedAt_foldl (b : Address) (es : List LinkEvent) (l : Links) :
    EvolvedAt b l (es.foldl after l) := by
  induction es generalizing l with
  | nil => exact .refl b l
  | cons e es ih => exact (evolvedAt_after b l e).trans (ih _)

theorem evolvedAt_advance (b : Address) (l : Links) : EvolvedAt b l l.advance.2 := by
  unfold advance
  split
  · exact .refl b l
  · rename_i m ms _
    have hscript : EvolvedAt b l { l with script := ms } := ⟨Or.inl rfl, id⟩
    exact hscript.trans (evolvedAt_foldl b m.events _)

@[simp] theorem pending_advance (l : Links) : l.advance.2.pending = l.pending := by
  have hfold : ∀ (es : List LinkEvent) (l : Links), (es.foldl after l).pending = l.pending := by
    intro es
    induction es with
    | nil => exact fun _ => rfl
    | cons e es ih =>
      intro l
      rw [List.foldl_cons, ih]
      cases e with
      | drop a => rfl
      | comeUp a =>
        change (if l.link a = .attempting then l.set a (.up [] []) else l).pending = l.pending
        split <;> rfl
  unfold advance
  split
  · rfl
  · exact hfold _ _

/-- A call that concerns `a` leaves all other links to themselves. -/
structure Calls (a : Address) (l l' : Links) : Prop where
  other : ∀ b, b ≠ a → EvolvedAt b l l'
  drops : ∀ b ∈ l.drops, b ∈ l'.drops
  pending : l'.pending = l.pending

theorem Calls.refl (a : Address) (l : Links) : Calls a l l :=
  ⟨fun b _ => .refl b l, fun _ hb => hb, rfl⟩

theorem Calls.trans {a : Address} {l l' l'' : Links} (h : Calls a l l') (h' : Calls a l' l'') :
    Calls a l l'' :=
  ⟨fun b hb => (h.other b hb).trans (h'.other b hb), fun b hb => h'.drops b (h.drops b hb),
    h'.pending.trans h.pending⟩

theorem calls_advance (a : Address) (l : Links) : Calls a l l.advance.2 :=
  ⟨fun b _ => l.evolvedAt_advance b, fun b hb => (l.evolvedAt_advance b).drops hb,
    l.pending_advance⟩

theorem calls_set (a : Address) (l : Links) (link : Link) : Calls a l (l.advance.2.set a link) :=
  ⟨fun b hb => (l.evolvedAt_advance b).trans (evolvedAt_set _ hb link),
    fun b hb => (l.evolvedAt_advance b).drops hb, l.pending_advance⟩

theorem connect_calls (a : Address) (l : Links) : Calls a l (connect a l).2 := by
  unfold connect
  dsimp only
  split_ifs
  · exact calls_advance a l
  · exact calls_set a l _
  · split <;> exact calls_set a l _

theorem ensureConnecting_calls (a : Address) (l : Links) :
    Calls a l (ensureConnecting a l).2 := by
  unfold ensureConnecting
  dsimp only
  split
  · exact calls_advance a l
  · split_ifs
    · exact calls_set a l _
    · exact calls_advance a l

theorem disconnect_calls (a : Address) (l : Links) : Calls a l (disconnect a l).2 := by
  unfold disconnect
  dsimp only
  split <;> exact calls_set a l _

theorem subscribe_calls (a : Address) (u : Uuid) (l : Links) : Calls a l (subscribe a u l).2 := by
  unfold subscribe
  dsimp only
  split
  · split <;> exact calls_set a l _
  · exact calls_advance a l
  · exact calls_advance a l

theorem unsubscribe_calls (a : Address) (u : Uuid) (l : Links) :
    Calls a l (unsubscribe a u l).2 := by
  unfold unsubscribe
  dsimp only
  split
  · exact calls_set a l _
  · exact calls_advance a l
  · exact calls_advance a l

end Links
end HomeServer.Ble

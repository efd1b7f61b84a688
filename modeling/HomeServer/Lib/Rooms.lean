import HomeServer.Lib.Transition
import Mathlib.Data.List.Dedup
import Mathlib.Data.List.Induction

/-! Clients that join and leave rooms, and messages to all who are in a room. Each client has a
room of its own from its connection on. -/
namespace HomeServer.Lib.Rooms
variable {C R M σ : Type}

structure Server (C R σ : Type) where
  own : C → R
  empty : σ
  connect : C → σ → σ
  disconnect : C → σ → σ
  join : C → R → σ → σ
  leave : C → R → σ → σ
  clients : σ → List C
  members : σ → R → List C

/-- What a server is relied on for: each member is sent a message once, a client that comes is in
its own room, one that goes leaves all rooms, and nobody else is moved. -/
structure Server.Lawful (S : Server C R σ) : Prop where
  clients_empty : S.clients S.empty = []
  members_empty (r : R) : S.members S.empty r = []
  nodup_clients (s : σ) : (S.clients s).Nodup
  nodup_members (s : σ) (r : R) : (S.members s r).Nodup
  mem_connect (s : σ) (c c' : C) : c' ∈ S.clients (S.connect c s) ↔ c' = c ∨ c' ∈ S.clients s
  mem_disconnect (s : σ) (c c' : C) :
    c' ∈ S.clients (S.disconnect c s) ↔ c' ∈ S.clients s ∧ c' ≠ c
  clients_join (s : σ) (c : C) (r : R) (c' : C) :
    c' ∈ S.clients (S.join c r s) ↔ c' ∈ S.clients s
  clients_leave (s : σ) (c : C) (r : R) (c' : C) :
    c' ∈ S.clients (S.leave c r s) ↔ c' ∈ S.clients s
  members_connect (s : σ) (c c' : C) (r : R) :
    c' ∈ S.members (S.connect c s) r ↔ c' = c ∧ r = S.own c ∨ c' ∈ S.members s r
  members_disconnect (s : σ) (c c' : C) (r : R) :
    c' ∈ S.members (S.disconnect c s) r ↔ c' ∈ S.members s r ∧ c' ≠ c
  mem_join (s : σ) (c c' : C) (r r' : R) :
    c' ∈ S.members (S.join c r s) r' ↔ c' = c ∧ r' = r ∨ c' ∈ S.members s r'
  mem_leave (s : σ) (c c' : C) (r r' : R) :
    c' ∈ S.members (S.leave c r s) r' ↔ c' ∈ S.members s r' ∧ ¬(c' = c ∧ r' = r)

inductive Event (C R M : Type)
  | connect (c : C)
  | disconnect (c : C)
  | join (c : C) (r : R)
  | leave (c : C) (r : R)
  | emit (r : R) (m : M)
  | broadcast (m : M)

structure State (C M σ : Type) where
  rooms : σ
  inbox : C → List M

section Step
variable [DecidableEq C]

def deliver (cs : List C) (m : M) (inbox : C → List M) : C → List M :=
  cs.foldl (fun inbox c => Function.update inbox c (inbox c ++ [m])) inbox

/-- Only a client that is connected is heard. -/
def step (S : Server C R σ) (s : State C M σ) : Event C R M → Option (State C M σ)
  | .connect c =>
    if c ∈ S.clients s.rooms then none else some { s with rooms := S.connect c s.rooms }
  | .disconnect c =>
    if c ∈ S.clients s.rooms then some { s with rooms := S.disconnect c s.rooms } else none
  | .join c r =>
    if c ∈ S.clients s.rooms then some { s with rooms := S.join c r s.rooms } else none
  | .leave c r =>
    if c ∈ S.clients s.rooms then some { s with rooms := S.leave c r s.rooms } else none
  | .emit r m => some { s with inbox := deliver (S.members s.rooms r) m s.inbox }
  | .broadcast m => some { s with inbox := deliver (S.clients s.rooms) m s.inbox }

def system (S : Server C R σ) : System (State C M σ) (Event C R M) where
  init s := s = { rooms := S.empty, inbox := fun _ => [] }
  step := step S

end Step

/-- Something with `p` happened, and all that happened after it has `q`. -/
def Since {α : Type} (p q : α → Prop) (past : List α) : Prop :=
  ∃ before e after, past = before ++ e :: after ∧ p e ∧ ∀ x ∈ after, q x

/-- The client joined the room, or came and it is its own; and it neither left the room since nor
disconnected. -/
def Listening (own : C → R) (c : C) (r : R) : List (Event C R M) → Prop :=
  Since (fun e => e = .join c r ∨ e = .connect c ∧ r = own c) fun e =>
    e ≠ .leave c r ∧ e ≠ .disconnect c

def Online (c : C) : List (Event C R M) → Prop := Since (· = .connect c) (· ≠ .disconnect c)

open Classical in
noncomputable def sent (own : C → R) (c : C) (past : List (Event C R M)) : Event C R M → List M
  | .emit r m => if Listening own c r past then [m] else []
  | .broadcast m => if Online c past then [m] else []
  | _ => []

noncomputable def heard (own : C → R) (c : C) (past : List (Event C R M)) :
    List (Event C R M) → List M
  | [] => []
  | e :: es => sent own c past e ++ heard own c (past ++ [e]) es

theorem since_concat {α : Type} {p q : α → Prop} {past : List α} {e : α} :
    Since p q (past ++ [e]) ↔ p e ∨ Since p q past ∧ q e := by
  constructor
  · rintro ⟨before, e₀, after, heq, hp, hq⟩
    rcases List.eq_nil_or_concat after with rfl | ⟨after, x, rfl⟩
    · obtain ⟨-, rfl⟩ := List.append_singleton_inj.mp heq
      exact Or.inl hp
    · have hlast : past = before ++ e₀ :: after ∧ e = x := by
        rw [List.concat_eq_append, ← List.cons_append, ← List.append_assoc] at heq
        exact List.append_singleton_inj.mp heq
      obtain ⟨hpast, rfl⟩ := hlast
      exact Or.inr ⟨⟨before, e₀, after, hpast, hp, fun x hx => hq x (by simp [hx])⟩,
        hq e (by simp)⟩
  · rintro (hp | ⟨⟨before, e₀, after, rfl, hp, hq⟩, he⟩)
    · exact ⟨past, e, [], rfl, hp, fun x hx => nomatch hx⟩
    · refine ⟨before, e₀, after ++ [e], by simp, hp, fun x hx => ?_⟩
      rcases List.mem_append.mp hx with hx | hx
      · exact hq x hx
      · rw [List.mem_singleton.mp hx]
        exact he

theorem since_append {α : Type} {p q : α → Prop} {past es : List α}
    (h : ∀ e ∈ es, ¬p e ∧ q e) : Since p q (past ++ es) ↔ Since p q past := by
  induction es using List.reverseRecOn with
  | nil => rw [List.append_nil]
  | append_singleton es e ih =>
    obtain ⟨hp, hq⟩ := h e (by simp)
    rw [← List.append_assoc, since_concat, ih fun x hx => h x (List.mem_append_left _ hx)]
    simp [hp, hq]

theorem not_since_nil {α : Type} {p q : α → Prop} : ¬Since p q [] := by
  rintro ⟨before, e, after, heq, -⟩
  exact absurd heq.symm (by simp)

section Inbox
variable {S : Server C R σ} {s s' : State C M σ} {past es : List (Event C R M)}

/-- The server knows who is connected and who is in which room. -/
structure Kept (S : Server C R σ) (past : List (Event C R M)) (s : State C M σ) : Prop where
  clients : ∀ c, c ∈ S.clients s.rooms ↔ Online c past
  members : ∀ c r, c ∈ S.members s.rooms r ↔ Listening S.own c r past

theorem Kept.empty (hS : S.Lawful) (inbox : C → List M) :
    Kept (R := R) S [] { rooms := S.empty, inbox } := by
  refine ⟨fun c => ?_, fun c r => ?_⟩
  · rw [hS.clients_empty]
    exact iff_of_false List.not_mem_nil not_since_nil
  · rw [hS.members_empty]
    exact iff_of_false List.not_mem_nil not_since_nil

variable [DecidableEq C]

theorem deliver_apply {cs : List C} (hcs : cs.Nodup) (m : M) (inbox : C → List M) (c : C) :
    deliver cs m inbox c = if c ∈ cs then inbox c ++ [m] else inbox c := by
  induction cs generalizing inbox with
  | nil => rfl
  | cons c₀ cs ih =>
    rw [List.nodup_cons] at hcs
    unfold deliver at ih ⊢
    rw [List.foldl_cons, ih hcs.2]
    by_cases hc : c = c₀
    · subst hc
      rw [if_neg hcs.1, if_pos (.head _), Function.update_self]
    · rw [Function.update_of_ne hc]
      simp [hc]

/-- One event moves the clients it says, and sends what `sent` says. -/
theorem Kept.step (hS : S.Lawful) (h : Kept S past s) {e : Event C R M}
    (hstep : Rooms.step S s e = some s') :
    Kept S (past ++ [e]) s' ∧ ∀ c, s'.inbox c = s.inbox c ++ sent S.own c past e := by
  have honline : ∀ c, Online c (past ++ [e]) ↔ e = .connect c ∨ Online c past ∧ e ≠ .disconnect c :=
    fun c => since_concat
  have hlisten : ∀ c r, Listening S.own c r (past ++ [e]) ↔
      (e = .join c r ∨ e = .connect c ∧ r = S.own c) ∨
        Listening S.own c r past ∧ e ≠ .leave c r ∧ e ≠ .disconnect c :=
    fun c r => since_concat
  cases e with
  | connect c₀ =>
    simp only [Rooms.step] at hstep
    split_ifs at hstep
    cases hstep
    refine ⟨⟨fun c => ?_, fun c r => ?_⟩, fun c => (List.append_nil _).symm⟩
    · rw [honline, hS.mem_connect, h.clients]
      simp [eq_comm]
    · have hown : c = c₀ ∧ r = S.own c₀ ↔ c₀ = c ∧ r = S.own c := by
        constructor <;> (rintro ⟨rfl, hr⟩; exact ⟨rfl, hr⟩)
      rw [hlisten, hS.members_connect, h.members, hown]
      simp
  | disconnect c₀ =>
    simp only [Rooms.step] at hstep
    split_ifs at hstep
    cases hstep
    refine ⟨⟨fun c => ?_, fun c r => ?_⟩, fun c => (List.append_nil _).symm⟩
    · rw [honline, hS.mem_disconnect, h.clients]
      simp [eq_comm]
    · rw [hlisten, hS.members_disconnect, h.members]
      simp [eq_comm]
  | join c₀ r₀ =>
    simp only [Rooms.step] at hstep
    split_ifs at hstep
    cases hstep
    refine ⟨⟨fun c => ?_, fun c r => ?_⟩, fun c => (List.append_nil _).symm⟩
    · rw [honline, hS.clients_join, h.clients]
      simp
    · rw [hlisten, hS.mem_join, h.members]
      simp [eq_comm]
  | leave c₀ r₀ =>
    simp only [Rooms.step] at hstep
    split_ifs at hstep
    cases hstep
    refine ⟨⟨fun c => ?_, fun c r => ?_⟩, fun c => (List.append_nil _).symm⟩
    · rw [honline, hS.clients_leave, h.clients]
      simp
    · rw [hlisten, hS.mem_leave, h.members]
      simp [eq_comm]
  | emit r₀ m =>
    cases hstep
    refine ⟨⟨fun c => ?_, fun c r => ?_⟩, fun c => ?_⟩
    · rw [honline, h.clients]
      simp
    · rw [hlisten, h.members]
      simp
    · dsimp only
      rw [deliver_apply (hS.nodup_members _ _), sent]
      by_cases hc : Listening S.own c r₀ past
      · rw [if_pos ((h.members c r₀).mpr hc), if_pos hc]
      · rw [if_neg (mt (h.members c r₀).mp hc), if_neg hc, List.append_nil]
  | broadcast m =>
    cases hstep
    refine ⟨⟨fun c => ?_, fun c r => ?_⟩, fun c => ?_⟩
    · rw [honline, h.clients]
      simp
    · rw [hlisten, h.members]
      simp
    · dsimp only
      rw [deliver_apply (hS.nodup_clients _), sent]
      by_cases hc : Online c past
      · rw [if_pos ((h.clients c).mpr hc), if_pos hc]
      · rw [if_neg (mt (h.clients c).mp hc), if_neg hc, List.append_nil]

/-- Over a run every client is sent what it listened for, once and in order. -/
theorem Kept.replay (hS : S.Lawful) (h : Kept S past s)
    (hrun : (system S).replay (fun _ _ => true) s es = some s') :
    Kept S (past ++ es) s' ∧ ∀ c, s'.inbox c = s.inbox c ++ heard S.own c past es := by
  induction es generalizing past s with
  | nil =>
    cases Option.some.inj hrun
    rw [List.append_nil]
    exact ⟨h, fun c => (List.append_nil _).symm⟩
  | cons e es ih =>
    obtain ⟨t, ht, hes⟩ := Option.bind_eq_some_iff.mp hrun
    obtain ⟨hkept, hinbox⟩ := h.step hS ht
    obtain ⟨hkept', hinbox'⟩ := ih hkept hes
    rw [List.append_assoc] at hkept'
    refine ⟨hkept', fun c => ?_⟩
    rw [hinbox', hinbox, heard, List.append_assoc]

end Inbox

/-- The rooms as a table of who is in which. -/
structure Table (C R : Type) where
  online : List C := []
  pairs : List (C × R) := []

namespace Table
variable [DecidableEq C] [DecidableEq R]

def server (own : C → R) : Server C R (Table C R) where
  own := own
  empty := {}
  connect c t := { online := c :: t.online, pairs := (c, own c) :: t.pairs }
  disconnect c t :=
    { online := t.online.filter (· ≠ c), pairs := t.pairs.filter fun p => p.1 ≠ c }
  join c r t := { t with pairs := (c, r) :: t.pairs }
  leave c r t := { t with pairs := t.pairs.filter (· ≠ (c, r)) }
  clients t := t.online.dedup
  members t r := ((t.pairs.filter fun p => p.2 = r).map Prod.fst).dedup

variable {own : C → R}

theorem mem_members {t : Table C R} {c : C} {r : R} :
    c ∈ (server own).members t r ↔ (c, r) ∈ t.pairs := by
  simp [server]

theorem mem_clients {t : Table C R} {c : C} : c ∈ (server own).clients t ↔ c ∈ t.online := by
  simp [server]

theorem server_lawful (own : C → R) : (server own : Server C R (Table C R)).Lawful where
  clients_empty := rfl
  members_empty _ := rfl
  nodup_clients _ := List.nodup_dedup _
  nodup_members _ _ := List.nodup_dedup _
  mem_connect t c c' := by
    rw [mem_clients, mem_clients]
    exact List.mem_cons
  mem_disconnect t c c' := by
    rw [mem_clients, mem_clients]
    simp [server]
  clients_join _ _ _ _ := Iff.rfl
  clients_leave _ _ _ _ := Iff.rfl
  members_connect t c c' r := by
    rw [mem_members, mem_members]
    simp [server]
  members_disconnect t c c' r := by
    rw [mem_members, mem_members]
    simp [server]
  mem_join t c c' r r' := by
    rw [mem_members, mem_members]
    simp [server]
  mem_leave t c c' r r' := by
    rw [mem_members, mem_members]
    simp [server, imp_iff_not_or]

end Table
end HomeServer.Lib.Rooms

import HomeServer.Ble.Interface
import Mathlib.Data.Char
import Mathlib.Data.List.Infix
import Mathlib.Tactic.IntervalCases

/-! What `_MAC_RE` lets through: an address of six octets, perhaps with a newline after it. -/
namespace HomeServer.Ble

/-- Two-digit octets, joined by colons. -/
def joined (octets : List (Char × Char)) : List Char :=
  [':'].intercalate (octets.map fun o => [o.1, o.2])

def IsHex (c : Char) : Prop := (hexDigit c).isSome = true

/-- Six octets of two hexadecimal digits, and nothing before or after them. -/
def IsMac (address : Address) : Prop :=
  ∃ octets : List (Char × Char), octets.length = 6 ∧ (∀ o ∈ octets, IsHex o.1 ∧ IsHex o.2) ∧
    address.toList = joined octets

def hexChars : List Char := "0123456789abcdefABCDEF".toList

theorem joined_cons (o o' : Char × Char) (octets : List (Char × Char)) :
    joined (o :: o' :: octets) = o.1 :: o.2 :: ':' :: joined (o' :: octets) := by
  simp [joined, List.intercalate]

theorem length_joined (o : Char × Char) (octets : List (Char × Char)) :
    (joined (o :: octets)).length = 3 * octets.length + 2 := by
  induction octets generalizing o with
  | nil => rfl
  | cons o' octets ih =>
    rw [joined_cons]
    have hrest := ih o'
    simp only [List.length_cons] at hrest ⊢
    omega

theorem IsMac.length {address : Address} (h : IsMac address) : address.length = 17 := by
  obtain ⟨octets, hlen, -, heq⟩ := h
  cases octets with
  | nil => cases hlen
  | cons o octets =>
    rw [← String.length_toList, heq, length_joined]
    rw [List.length_cons] at hlen
    omega

theorem octets_joined {n : ℕ} {cs : List Char} (h : matchesMac.octets n cs = true) :
    ∃ octets : List (Char × Char), octets.length = n + 1 ∧
      (∀ o ∈ octets, IsHex o.1 ∧ IsHex o.2) ∧
      (cs = joined octets ∨ cs = joined octets ++ ['\n']) := by
  induction n generalizing cs with
  | zero =>
    match cs, h with
    | a :: b :: rest, h =>
      simp only [matchesMac.octets, Bool.and_eq_true, Bool.or_eq_true, List.isEmpty_iff,
        beq_iff_eq] at h
      obtain ⟨⟨ha, hb⟩, hrest⟩ := h
      refine ⟨[(a, b)], rfl, ?_, ?_⟩
      · intro o ho
        rw [List.mem_singleton.mp ho]
        exact ⟨ha, hb⟩
      · rcases hrest with rfl | rfl
        · exact Or.inl rfl
        · exact Or.inr rfl
  | succ n ih =>
    unfold matchesMac.octets at h
    split at h
    · rename_i heq
      cases heq
    · rename_i m a b rest heq
      obtain rfl : n = m := Nat.succ.inj heq
      simp only [Bool.and_eq_true] at h
      obtain ⟨⟨ha, hb⟩, hrest⟩ := h
      obtain ⟨octets, hlen, hhex, heq⟩ := ih hrest
      cases octets with
      | nil => cases hlen
      | cons o octets =>
        refine ⟨(a, b) :: o :: octets, by rw [List.length_cons, hlen], ?_, ?_⟩
        · exact List.forall_mem_cons.mpr ⟨⟨ha, hb⟩, hhex⟩
        · rw [joined_cons]
          rcases heq with rfl | rfl
          · exact Or.inl rfl
          · exact Or.inr rfl
    · cases h

/-- An address that the expression matches is one of six octets unless it is too long. -/
theorem isMac_of_matches {address : Address} (h : matchesMac address = true)
    (hlen : address.length = 17) : IsMac address := by
  obtain ⟨octets, hoctets, hhex, heq⟩ := octets_joined h
  refine ⟨octets, hoctets, hhex, heq.resolve_right fun hnewline => ?_⟩
  have hsix : IsMac (String.ofList (joined octets)) :=
    ⟨octets, hoctets, hhex, String.toList_ofList⟩
  have hjoined : (joined octets).length = 17 := by
    have := hsix.length
    rwa [String.length_ofList] at this
  have htoList : address.toList.length = 18 := by
    rw [hnewline, List.length_append, hjoined]
    rfl
  rw [String.length_toList] at htoList
  omega

theorem mem_hexChars {c : Char} (h : IsHex c) : c ∈ hexChars := by
  have hchar : Char.ofNat c.toNat = c := Char.ofNat_toNat c
  have hrange : 48 ≤ c.toNat ∧ c.toNat ≤ 57 ∨ 97 ≤ c.toNat ∧ c.toNat ≤ 102 ∨
      65 ≤ c.toNat ∧ c.toNat ≤ 70 := by
    unfold IsHex hexDigit at h
    split_ifs at h with hdigit hlower hupper
    · exact Or.inl hdigit
    · exact Or.inr (Or.inl hlower)
    · exact Or.inr (Or.inr hupper)
    · cases h
  rw [← hchar]
  rcases hrange with ⟨hlow, hhigh⟩ | ⟨hlow, hhigh⟩ | ⟨hlow, hhigh⟩ <;>
    interval_cases c.toNat <;> decide

theorem hexChars_plain : ∀ c ∈ hexChars,
    PyText.isNumberSpace c = false ∧ c ∉ ['-', '+', '_', 'x', 'X'] := by
  have hall : hexChars.all
      (fun c => !PyText.isNumberSpace c && decide (c ∉ ['-', '+', '_', 'x', 'X'])) = true := by
    decide
  simpa [List.all_eq_true] using hall

/-- `int(text, 16)` reads any octet. -/
theorem intBase16_octet {a b : Char} (ha : IsHex a) (hb : IsHex b) :
    (intBase16 [a, b]).isSome = true := by
  obtain ⟨hspaceA, hplainA⟩ := hexChars_plain a (mem_hexChars ha)
  obtain ⟨hspaceB, hplainB⟩ := hexChars_plain b (mem_hexChars hb)
  obtain ⟨m, hm⟩ := Option.isSome_iff_exists.mp ha
  obtain ⟨n, hn⟩ := Option.isSome_iff_exists.mp hb
  simp only [List.mem_cons, List.not_mem_nil, or_false, not_or] at hplainA hplainB
  have hdigits : intBase16.digits 0 false [a, b] = some ((0 * 16 + m) * 16 + n) := by
    simp [intBase16.digits, intBase16.digit, hplainA, hplainB, hm, hn]
  have hunsigned : intBase16.unsigned [a, b] = some ((0 * 16 + m) * 16 + n) := by
    rw [← hdigits]
    simp [intBase16.unsigned, hplainB]
  have hbody : Lib.Trimming.trim PyText.isNumberSpace [a, b] = [a, b] :=
    Lib.Trimming.trim_eq_self (by simp [hspaceA, hspaceB])
  unfold intBase16
  rw [hbody]
  simp [hplainA, hunsigned]

theorem ne_colon_of_isHex {c : Char} (h : IsHex c) : c ≠ ':' := by
  rintro rfl
  cases h

/-- `infer_addr_type` raises on no address that the expression matches. -/
theorem inferAddrType_of_matches {address : Address} (h : matchesMac address = true) :
    ∃ addrType, inferAddrType address = .ok addrType := by
  obtain ⟨octets, hlen, hhex, heq⟩ := octets_joined h
  match octets, hlen with
  | (a, b) :: o :: octets, _ =>
    obtain ⟨ha, hb⟩ := hhex (a, b) (.head _)
    obtain ⟨rest, hrest⟩ : ∃ rest, address.toList = a :: b :: ':' :: rest := by
      rw [joined_cons] at heq
      rcases heq with heq | heq <;> exact ⟨_, heq⟩
    have hfirst : address.toList.takeWhile (· ≠ ':') = [a, b] := by
      rw [hrest]
      simp [ne_colon_of_isHex ha, ne_colon_of_isHex hb]
    obtain ⟨msb, hmsb⟩ := Option.isSome_iff_exists.mp (intBase16_octet ha hb)
    unfold inferAddrType
    rw [hfirst, hmsb]
    exact ⟨_, rfl⟩

end HomeServer.Ble

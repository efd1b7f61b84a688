import HomeServer.Lib.Trimming

/-! Where the `next` parameter of the login page leads a browser. -/
namespace HomeServer.Web
open HomeServer.Lib

abbrev Text := List Char

def indexUrl : String := "/"

/-- What `_safe_next` looks at: a path, and not one that starts with two slashes. -/
def isRelative (target : String) : Bool :=
  ['/'].isPrefixOf target.toList && !(['/', '/'].isPrefixOf target.toList)

def safeNext : Option String → String
  | some target => if isRelative target then target else indexUrl
  | none => indexUrl

/-- C0 controls and the space, which a browser takes off both ends. -/
def isControlOrSpace (c : Char) : Bool := c.toNat ≤ 0x20

def isTabOrNewline (c : Char) : Bool := c = '\t' || c = '\n' || c = '\r'

def isSlash (c : Char) : Bool := c = '/' || c = '\\'

/-- How the framework sends the target in the `Location` header. -/
inductive Sending
  | asIs
  | withoutTabsAndNewlines

def Sending.send (target : Text) : Sending → Text
  | .asIs => target
  | .withoutTabsAndNewlines => target.filter (!isTabOrNewline ·)

def trim (text : Text) : Text := (text.dropWhile isControlOrSpace).rdropWhile isControlOrSpace

/-- The text that a browser parses against an http URL. -/
def clean (text : Text) : Text :=
  ((trim text).filter (!isTabOrNewline ·)).map fun c => if isSlash c then '/' else c

/-- The part of a URL after its two slashes that names a host. Slashes before it are skipped. -/
def authority (text : Text) : Text :=
  (text.dropWhile (· = '/')).takeWhile fun c => c ≠ '/' && c ≠ '?' && c ≠ '#'

def hasScheme : Text → Bool
  | c :: text => c.isAlpha &&
    (text.dropWhile fun c => c.isAlphanum || c = '+' || c = '-' || c = '.').head? = some ':'
  | [] => false

/-- How a browser reads the host out of an authority, and out of a URL with a scheme. There is none
where it refuses the URL. -/
structure Browser where
  hostOf : Text → Option String
  absolute : Text → Option String

namespace Browser
variable (browser : Browser) (own : String)

/-- The host of a reference resolved against an http URL at `own`. -/
def resolvedHost (reference : Text) : Option String :=
  match clean reference with
  | '/' :: '/' :: text => browser.hostOf (authority text)
  | text => if hasScheme text then browser.absolute text else some own

end Browser

section Cleaning

theorem trim_eq (text : Text) : trim text = Trimming.trim isControlOrSpace text := rfl

theorem isControlOrSpace_of_isTabOrNewline {c : Char} (hc : isTabOrNewline c) :
    isControlOrSpace c := by
  simp only [isTabOrNewline, Bool.or_eq_true, decide_eq_true_eq] at hc
  obtain (rfl | rfl) | rfl := hc <;> decide

/-- Tabs and newlines may be deleted before the ends are taken off, or after. -/
theorem trim_deleted (text : Text) :
    trim (text.filter (!isTabOrNewline ·)) = (trim text).filter (!isTabOrNewline ·) := by
  rw [trim_eq, trim_eq]
  apply Trimming.trim_filter
  intro c hc
  exact isControlOrSpace_of_isTabOrNewline (by simpa using hc)

theorem clean_send (sending : Sending) (target : Text) :
    clean (sending.send target) = clean target := by
  cases sending with
  | asIs => rfl
  | withoutTabsAndNewlines =>
    simp only [clean, Sending.send, trim_deleted, List.filter_filter, Bool.and_self]

theorem not_isControlOrSpace_of_isSlash {c : Char} (hc : isSlash c) : ¬isControlOrSpace c := by
  simp only [isSlash, Bool.or_eq_true, decide_eq_true_eq] at hc
  obtain rfl | rfl := hc <;> decide

end Cleaning

/-- The character that a browser reads after the first one. -/
def followed (text : Text) : Option Char := text.tail.find? (!isTabOrNewline ·)

/-- What is left of a path after its first slash starts with a slash where the browser reads one
or a backslash there. -/
theorem clean_slash (text : Text) :
    ∃ rest, clean ('/' :: text) = '/' :: rest ∧
      (rest.head? = some '/' ↔ ∃ c, followed ('/' :: text) = some c ∧ isSlash c) := by
  have hslash : ¬isControlOrSpace '/' := not_isControlOrSpace_of_isSlash (by decide)
  refine ⟨_, by rw [clean, trim_eq, Trimming.trim_cons hslash]; rfl, ?_⟩
  simp only [List.head?_map, List.head?_filter, Option.map_eq_some_iff, followed, List.tail_cons]
  constructor
  · rintro ⟨c, hfound, hc⟩
    have hcs : isSlash c := by
      by_contra hcs
      rw [if_neg hcs] at hc
      exact hcs (by rw [hc]; decide)
    exact ⟨c, (Trimming.find?_rdropWhile _ _ (not_isControlOrSpace_of_isSlash hcs)).mp hfound, hcs⟩
  · rintro ⟨c, hfound, hcs⟩
    exact ⟨c, (Trimming.find?_rdropWhile _ _ (not_isControlOrSpace_of_isSlash hcs)).mpr hfound,
      if_pos hcs⟩

namespace Browser
variable (browser : Browser) (own : String)

/-- The host that a target names with two slashes, as the browser reads them. -/
def named (target : Text) : Option String := browser.hostOf (authority ((clean target).drop 2))

theorem resolvedHost_send (sending : Sending) (target : Text) :
    browser.resolvedHost own (sending.send target) = browser.resolvedHost own target := by
  simp only [resolvedHost, clean_send]

/-- A path leaves the site only by a host that it names. -/
theorem resolvedHost_path (text : Text) :
    browser.resolvedHost own ('/' :: text) = some own ↔
      ∀ c, followed ('/' :: text) = some c → isSlash c →
        browser.named ('/' :: text) = some own := by
  obtain ⟨rest, hclean, hrest⟩ := clean_slash text
  by_cases hslash : rest.head? = some '/'
  · obtain ⟨c, hfollowed, hc⟩ := hrest.mp hslash
    obtain ⟨tail, rfl⟩ := List.head?_eq_some_iff.mp hslash
    have hhost : browser.resolvedHost own ('/' :: text) = browser.named ('/' :: text) := by
      simp [resolvedHost, named, hclean]
    rw [hhost]
    exact ⟨fun h _ _ _ => h, fun h => h c hfollowed hc⟩
  · have hown : browser.resolvedHost own ('/' :: text) = some own := by
      cases rest with
      | nil => simp [resolvedHost, hclean, hasScheme]
      | cons c tail =>
        have hc : c ≠ '/' := by simpa using hslash
        simp only [resolvedHost, hclean]
        split
        · rename_i heq
          exact absurd (List.cons.inj (List.cons.inj heq).2).1 hc
        · rfl
    have hnone : ∀ c, followed ('/' :: text) = some c → ¬isSlash c := fun c hfollowed hc =>
      hslash (hrest.mpr ⟨c, hfollowed, hc⟩)
    exact ⟨fun _ c hfollowed hc => absurd hc (hnone c hfollowed), fun _ => hown⟩

/-- The target is refused, or has no slash after the first as the browser reads it, or names the
server itself. -/
def StaysHome (target : Option String) : Prop :=
  ∀ text, target = some text → isRelative text →
    ∀ c, followed text.toList = some c → isSlash c → browser.named text.toList = some own

theorem resolvedHost_index : browser.resolvedHost own indexUrl.toList = some own := rfl

/-- **Where a login leads**: to the server's own host exactly for such targets. -/
theorem safeNext_stays_iff (sending : Sending) (target : Option String) :
    browser.resolvedHost own (sending.send (safeNext target).toList) = some own ↔
      browser.StaysHome own target := by
  rw [resolvedHost_send]
  cases target with
  | none => simp [safeNext, resolvedHost_index, StaysHome]
  | some t =>
    by_cases ht : isRelative t
    · obtain ⟨text, htext⟩ : ∃ text, t.toList = '/' :: text := by
        have hprefix : ['/'] <+: t.toList := by
          simp only [isRelative, Bool.and_eq_true, List.isPrefixOf_iff_prefix] at ht
          exact ht.1
        obtain ⟨text, h⟩ := hprefix
        exact ⟨text, h.symm⟩
      simp only [safeNext, if_pos ht, StaysHome, Option.some.injEq, forall_eq', htext]
      rw [resolvedHost_path]
      exact ⟨fun h _ => h, fun h => h ht⟩
    · simp [safeNext, ht, resolvedHost_index, StaysHome]

/-- A browser that takes an authority for a host as it stands. -/
def literal : Browser where
  hostOf host := some (String.ofList host)
  absolute _ := none

/-- A tab between the slashes, or a backslash for the second, leads to another host. -/
theorem safeNext_leaves :
    literal.resolvedHost "home.local" (Sending.asIs.send (safeNext (some "/\t/evil.com")).toList) =
      some "evil.com" ∧
    literal.resolvedHost "home.local"
      (Sending.withoutTabsAndNewlines.send (safeNext (some "/\t/evil.com")).toList) =
      some "evil.com" ∧
    literal.resolvedHost "home.local" (Sending.asIs.send (safeNext (some "/\\evil.com")).toList) =
      some "evil.com" := by
  decide

/-- A target without tabs, newlines and backslashes stays on the site. -/
theorem staysHome_of_plain {target : Option String}
    (h : ∀ text, target = some text → ∀ c ∈ text.toList, ¬isTabOrNewline c ∧ c ≠ '\\') :
    browser.StaysHome own target := by
  intro text htarget hrelative c hfollowed hc
  have hplain := h text htarget
  simp only [isRelative, Bool.and_eq_true, List.isPrefixOf_iff_prefix, Bool.not_eq_true',
    Bool.eq_false_iff, ne_eq] at hrelative
  obtain ⟨⟨rest, hrest⟩, hdouble⟩ := hrelative
  rw [← hrest] at hfollowed hplain hdouble
  cases rest with
  | nil => simp [followed] at hfollowed
  | cons a rest =>
    have ha := hplain a (by simp)
    have hac : a = c := by
      simpa [followed, ha.1] using hfollowed
    have : a = '/' := by
      simpa [isSlash, ← hac, ha.2] using hc
    exact absurd ⟨rest, by simp [this]⟩ hdouble

end Browser

end HomeServer.Web

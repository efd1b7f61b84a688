import HomeServer.Core.PyText
import HomeServer.Lib.Overwrites

/-! Unit strings of enum channels: which value is shown under which label. -/
namespace HomeServer.Services.Units
open Lib.Trimming Lib.Overwrites PyText

abbrev EnumMap := Dict ℤ String

def enumPrefix : Text := "enum:".toList

/-- The key and the label of one pair, and `none` where it is skipped. -/
def parsePair (pair : Text) : Option (ℤ × String) :=
  let pair := strip pair
  if '=' ∈ pair then
    match PyText.int (strip (before '=' pair)) with
    | some key => some (key, String.ofList (strip (after '=' pair)))
    | none => none
  else none

def addPair (result : EnumMap) (pair : Text) : EnumMap :=
  match parsePair pair with
  | some (key, label) => result.insert key label
  | none => result

def parseEnumUnit : Option String → Option EnumMap
  | none => none
  | some unit =>
    if enumPrefix.isPrefixOf unit.toList then
      some (((unit.toList.drop enumPrefix.length).splitOn ',').foldl addPair ∅)
    else none

def pairsOf (body : Text) : List (ℤ × String) := (body.splitOn ',').filterMap parsePair

theorem foldl_addPair (pieces : List Text) (m : EnumMap) :
    pieces.foldl addPair m = writeAll m (pieces.filterMap parsePair) := by
  induction pieces generalizing m with
  | nil => rfl
  | cons piece pieces ih =>
    rw [List.foldl_cons, ih, List.filterMap_cons]
    unfold addPair
    cases parsePair piece <;> rfl

theorem parseEnumUnit_append (body : Text) :
    parseEnumUnit (some ("enum:" ++ String.ofList body)) = some (writeAll ∅ (pairsOf body)) := by
  have hunit : ("enum:" ++ String.ofList body).toList = enumPrefix ++ body := by
    simp [enumPrefix]
  have hprefix : enumPrefix.isPrefixOf (enumPrefix ++ body) = true :=
    List.isPrefixOf_iff_prefix.mpr (List.prefix_append _ _)
  unfold parseEnumUnit
  dsimp only
  rw [hunit, if_pos hprefix, List.drop_left, foldl_addPair]
  rfl

theorem pairsOf_append (a b : Text) : pairsOf (a ++ ',' :: b) = pairsOf a ++ pairsOf b := by
  unfold pairsOf
  rw [List.splitOn_append_cons_self, List.filterMap_append]

/-- White space around a pair does not matter. -/
theorem parsePair_eq (pair : Text) : parsePair pair =
    if '=' ∈ pair then
      (PyText.int (before '=' pair)).map fun key => (key, String.ofList (strip (after '=' pair)))
    else none := by
  have hspace : ¬isSpace '=' = true := by decide
  unfold parsePair
  dsimp only
  rw [strip_eq pair]
  by_cases hmem : '=' ∈ pair
  · obtain ⟨hbefore, hafter⟩ := trim_cut hspace hmem
    rw [if_pos ((mem_trim hspace).mpr hmem), if_pos hmem, strip_eq, strip_eq, hbefore, hafter,
      ← strip_eq, ← strip_eq, int_strip]
    cases PyText.int (before '=' pair) <;> rfl
  · rw [if_neg (mt (mem_trim hspace).mp hmem), if_neg hmem]

/-- A pair as it may be written: a label without commas and outer white space, and any white space
around key and label. -/
structure Pair where
  key : ℤ
  label : String
  beforeKey : Text := []
  afterKey : Text := []
  beforeLabel : Text := []
  afterLabel : Text := []
  blank : ∀ c ∈ beforeKey ++ afterKey ++ beforeLabel ++ afterLabel, isSpace c = true
  noComma : ',' ∉ label.toList
  stripped : strip label.toList = label.toList

def Pair.text (p : Pair) : Text :=
  (p.beforeKey ++ str p.key ++ p.afterKey) ++
    '=' :: (p.beforeLabel ++ p.label.toList ++ p.afterLabel)

/-- A text without comma that has no equals sign, or a key that `int` rejects. -/
structure Malformed where
  text : Text
  noComma : ',' ∉ text
  rejected : '=' ∈ text → PyText.int (before '=' text) = none

inductive Piece
  | pair (p : Pair)
  | malformed (m : Malformed)

namespace Piece

def text : Piece → Text
  | pair p => p.text
  | malformed m => m.text

def entry : Piece → Option (ℤ × String)
  | pair p => some (p.key, p.label)
  | malformed _ => none

def render (pieces : List Piece) : String :=
  "enum:" ++ String.ofList ([','].intercalate (pieces.map text))

end Piece

theorem Pair.not_mem_blank (p : Pair) {c : Char} (hc : ¬isSpace c = true) :
    c ∉ p.beforeKey ∧ c ∉ p.afterKey ∧ c ∉ p.beforeLabel ∧ c ∉ p.afterLabel := by
  have hblank := p.blank
  refine ⟨?_, ?_, ?_, ?_⟩ <;> exact fun hmem => hc (hblank c (by simp [hmem]))

theorem Pair.comma_not_mem (p : Pair) : ',' ∉ p.text := by
  obtain ⟨h₁, h₂, h₃, h₄⟩ := p.not_mem_blank (c := ',') (by decide)
  have hkey : ',' ∉ str p.key := not_mem_str (by decide)
  have hlabel := p.noComma
  simp [Pair.text, h₁, h₂, h₃, h₄, hkey, hlabel]

theorem Piece.comma_not_mem : ∀ piece : Piece, ',' ∉ piece.text
  | .pair p => p.comma_not_mem
  | .malformed m => m.noComma

/-- A pair is read as its key and label if its key is not too long. -/
theorem Pair.parse_text (p : Pair) : parsePair p.text =
    if p.key.natAbs < 10 ^ maxStrDigits then some (p.key, p.label) else none := by
  have hequals := p.not_mem_blank (c := '=') (by decide)
  have hkey : '=' ∉ p.beforeKey ++ str p.key ++ p.afterKey := by
    have hstr : '=' ∉ str p.key := not_mem_str (by decide)
    simp [hequals.1, hequals.2.1, hstr]
  have hmem : '=' ∈ p.text := List.mem_append_right _ (.head _)
  have hint : PyText.int (p.beforeKey ++ str p.key ++ p.afterKey) = PyText.int (str p.key) := by
    rw [← int_strip, strip_eq, trim_append_right fun c hc => p.blank c (by simp [hc]),
      trim_append_left fun c hc => p.blank c (by simp [hc]), ← strip_eq, int_strip]
  have hlabel : strip (p.beforeLabel ++ p.label.toList ++ p.afterLabel) = p.label.toList := by
    rw [strip_eq, trim_append_right fun c hc => p.blank c (by simp [hc]),
      trim_append_left fun c hc => p.blank c (by simp [hc]), ← strip_eq, p.stripped]
  rw [parsePair_eq, if_pos hmem]
  unfold Pair.text
  rw [before_append_cons hkey, after_append_cons hkey, hint, hlabel, int_str, String.ofList_toList]
  split <;> rfl

theorem Malformed.parse_text (m : Malformed) : parsePair m.text = none := by
  rw [parsePair_eq]
  split_ifs with hmem
  · rw [m.rejected hmem, Option.map_none]
  · rfl

theorem Piece.parse_text (piece : Piece)
    (h : ∀ p, piece = .pair p → p.key.natAbs < 10 ^ maxStrDigits) :
    parsePair piece.text = piece.entry := by
  cases piece with
  | pair p =>
    rw [Piece.text, Piece.entry, p.parse_text, if_pos (h p rfl)]
  | malformed m => rw [Piece.text, Piece.entry, m.parse_text]

def Readable (pieces : List Piece) : Prop :=
  ∀ p, Piece.pair p ∈ pieces → p.key.natAbs < 10 ^ maxStrDigits

theorem pairsOf_intercalate (pieces : List Piece) :
    pairsOf ([','].intercalate (pieces.map Piece.text)) =
      pieces.filterMap fun piece => parsePair piece.text := by
  by_cases hnil : pieces = []
  · rw [hnil]
    decide
  · have hcomma : ∀ t ∈ pieces.map Piece.text, ',' ∉ t := by
      intro t ht
      obtain ⟨piece, -, rfl⟩ := List.mem_map.mp ht
      exact piece.comma_not_mem
    unfold pairsOf
    rw [List.splitOn_intercalate ',' hcomma (by simpa using hnil), List.filterMap_map]
    rfl

/-- The dictionary gives each key the label of the last pair with it. -/
def ReadsLast (pieces : List Piece) : Prop :=
  ∃ m, parseEnumUnit (some (Piece.render pieces)) = some m ∧
    ∀ k, m.lookup k = last (pieces.filterMap Piece.entry) k

/-- **Units are read pair by pair**: two bodies joined by a comma are the first dictionary
overridden by the second, and among pieces that are malformed each pair is read. -/
theorem parseEnumUnit_pairs :
    (∀ a b : String, ∃ m m', parseEnumUnit (some ("enum:" ++ a)) = some m ∧
      parseEnumUnit (some ("enum:" ++ b)) = some m' ∧
      parseEnumUnit (some ("enum:" ++ a ++ "," ++ b)) = some (m' ∪ m)) ∧
    ∀ pieces : List Piece, Readable pieces → ReadsLast pieces := by
  constructor
  · intro a b
    have hbody : ∀ s : String, parseEnumUnit (some ("enum:" ++ s)) =
        some (writeAll ∅ (pairsOf s.toList)) := fun s => by
      rw [← parseEnumUnit_append, String.ofList_toList]
    have hjoined : "enum:" ++ a ++ "," ++ b =
        "enum:" ++ String.ofList (a.toList ++ ',' :: b.toList) := by
      apply String.toList_inj.mp
      simp
    refine ⟨_, _, hbody a, hbody b, ?_⟩
    rw [hjoined, parseEnumUnit_append, pairsOf_append, writeAll_append, writeAll_eq_union]
  · intro pieces h
    have hread : pieces.filterMap (fun piece => parsePair piece.text) =
        pieces.filterMap Piece.entry :=
      List.filterMap_congr fun piece hpiece => piece.parse_text fun p heq => h p (heq ▸ hpiece)
    refine ⟨_, parseEnumUnit_append _, fun k => ?_⟩
    rw [pairsOf_intercalate, hread, lookup_writeAll, Finmap.lookup_empty, Option.or_none]

def quiet : Pair where
  key := 0
  label := "a=b"
  beforeKey := [' ']
  afterKey := ['\t']
  blank := List.all_eq_true.mp (by decide)
  noComma := by decide
  stripped := by decide

def unnamed : Pair where
  key := -1
  label := ""
  blank := List.all_eq_true.mp (by decide)
  noComma := by decide
  stripped := by decide

def loud : Pair where
  key := 0
  label := "警報"
  afterLabel := [' ']
  blank := List.all_eq_true.mp (by decide)
  noComma := by decide
  stripped := by decide

def fivePieces : List Piece :=
  [.pair quiet, .malformed ⟨"bad".toList, by decide, by decide⟩, .pair unnamed,
    .malformed ⟨"x=label".toList, by decide, fun _ => by decide⟩, .pair loud]

/-- Of two labels of one key the later is kept, and the malformed pieces change nothing. -/
theorem parseEnumUnit_pairs_fivePieces :
    ∃ m, parseEnumUnit (some "enum: 0\t=a=b,bad,-1=,x=label,0=警報 ") = some m ∧
      m.lookup 0 = some "警報" ∧ m.lookup (-1) = some "" ∧ m.lookup 1 = none := by
  have hreadable : Readable fivePieces := by
    intro p hp
    have hsmall : p.key.natAbs < 10 := by
      simp only [fivePieces, List.mem_cons, Piece.pair.injEq, reduceCtorEq, List.not_mem_nil,
        or_false, false_or] at hp
      obtain rfl | rfl | rfl := hp <;> decide
    exact hsmall.trans_le (Nat.le_self_pow (by decide) 10)
  obtain ⟨m, hm, hlookup⟩ := parseEnumUnit_pairs.2 fivePieces hreadable
  have hunit : Piece.render fivePieces = "enum: 0\t=a=b,bad,-1=,x=label,0=警報 " := by
    decide +kernel
  rw [hunit] at hm
  exact ⟨m, hm, hlookup 0, hlookup (-1), hlookup 1⟩

/-- A key of one digit too many. -/
def longKey : Pair where
  key := 10 ^ maxStrDigits
  label := "a"
  blank := List.all_eq_true.mp (by decide)
  noComma := by decide
  stripped := by decide

theorem longKey_dropped : ¬∀ pieces : List Piece, ReadsLast pieces := by
  intro hall
  obtain ⟨m, hm, hlookup⟩ := hall [.pair longKey]
  have hlong : ¬longKey.key.natAbs < 10 ^ maxStrDigits := by
    have habs : ((10 : ℤ) ^ maxStrDigits).natAbs = 10 ^ maxStrDigits := by
      have hten : Int.natAbs 10 = 10 := rfl
      rw [Int.natAbs_pow, hten]
    unfold longKey
    dsimp only
    rw [habs]
    exact lt_irrefl _
  have hskipped : parsePair longKey.text = none := by
    rw [longKey.parse_text, if_neg hlong]
  have hempty : pairsOf ([','].intercalate ([Piece.pair longKey].map Piece.text)) = [] := by
    rw [pairsOf_intercalate]
    simp [Piece.text, hskipped]
  have hentries : [Piece.pair longKey].filterMap Piece.entry = [(longKey.key, "a")] := rfl
  have hfound := hlookup longKey.key
  unfold Piece.render at hm
  rw [parseEnumUnit_append, hempty] at hm
  rw [hentries, last_cons, if_pos rfl, ← Option.some.inj hm] at hfound
  cases hfound

end HomeServer.Services.Units

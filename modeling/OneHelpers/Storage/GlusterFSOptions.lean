/-
Model of `GlusterFSHelper::parseXlatorOptions` (`src/glusterfsHelper.cc`): the translator options of a GlusterFS
storage, given as `name=value` pairs separated by ';'.

The options are split at every ';' (folly's `split`, empty pieces kept); an empty piece is skipped, and every other
one is split at every '=' and must give exactly two non-empty parts, or the whole parse throws `std::runtime_error`
with the options in its message. An empty string gives no options. The options are read as characters where the
source holds bytes; the splits are at the ASCII ';' and '=', where the two agree (`Text.split_encode`).

Results:
- `parseOptionPair_eq_ok`: a non-empty piece parses exactly when it is one '=' with text on both sides;
- `xlatorOptions_parse_spec`: the parse returns the pairs of the non-empty ';'-separated segments, in order, exactly
  when every one of them is such a pair, throws otherwise, and reads back any list of pairs joined by ';' with empty
  segments anywhere.
-/
import Mathlib.Tactic
import OneHelpers.Core.Text

namespace OneHelpers.GlusterFS

open Text

/-- the `std::runtime_error` of a malformed option -/
def invalidXlatorOption (options : String) : StdException :=
  .runtimeError ("Invalid GlusterFS xlator option: " ++ options)

/-- one non-empty piece: split at every '=', it must be two non-empty parts -/
def parseOptionPair (options : String) (optionPair : List Char) : Except StdException (String × String) :=
  match split '=' optionPair false with
  | [name, value] =>
    if name = [] ∨ value = [] then .error (invalidXlatorOption options)
    else .ok (String.ofList name, String.ofList value)
  | _ => .error (invalidXlatorOption options)

/-- the loop over the ';'-separated pieces: an empty piece is skipped -/
def parseOptionPairs (options : String) : List (List Char) → Except StdException (List (String × String))
  | [] => .ok []
  | optionPair :: rest =>
    if optionPair = [] then parseOptionPairs options rest
    else do
      let p ← parseOptionPair options optionPair
      let ps ← parseOptionPairs options rest
      pure (p :: ps)

/-- `GlusterFSHelper::parseXlatorOptions` -/
def parseXlatorOptions (options : String) : Except StdException (List (String × String)) :=
  if options.isEmpty then .ok [] else parseOptionPairs options (split ';' options.toList false)

example : parseXlatorOptions ";cluster.write-freq-threshold=100;;;" = .ok [("cluster.write-freq-threshold", "100")] := by
  decide

/-! ## What a segment means -/

/-- the segment is the pair written `name=value`: one '=', with text on both sides -/
def Renders (segment : List Char) (p : String × String) : Prop :=
  segment = p.1.toList ++ '=' :: p.2.toList ∧ p.1 ≠ "" ∧ p.2 ≠ "" ∧ '=' ∉ p.1.toList ∧ '=' ∉ p.2.toList

/-- the non-empty ';'-separated segments of a string -/
def segments (s : String) : List (List Char) := (s.toList.splitOn ';').filter (· ≠ [])

theorem parseOptionPair_eq_ok {options : String} {optionPair : List Char} {p : String × String} :
    parseOptionPair options optionPair = .ok p ↔ Renders optionPair p := by
  constructor
  · intro h
    unfold parseOptionPair at h
    split at h
    · rename_i name value hsplit
      split_ifs at h with hempty
      cases h
      -- the two parts hold no '=' and join back to the piece
      have hjoin := intercalate_split '=' optionPair
      rw [hsplit, intercalate_two] at hjoin
      have hname : '=' ∉ name := not_mem_of_mem_split (hsplit ▸ List.mem_cons_self)
      have hvalue : '=' ∉ value := not_mem_of_mem_split (hsplit ▸ List.mem_cons_of_mem _ List.mem_cons_self)
      rw [not_or] at hempty
      refine ⟨by simp [hjoin], ?_, ?_, by simpa using hname, by simpa using hvalue⟩
      · simpa [← String.toList_inj] using hempty.1
      · simpa [← String.toList_inj] using hempty.2
    · cases h
  · rintro ⟨rfl, hname, hvalue, hn, hv⟩
    have hsplit : split '=' (p.1.toList ++ '=' :: p.2.toList) false = [p.1.toList, p.2.toList] := by
      rw [← intercalate_two]
      refine split_intercalate '=' (List.cons_ne_nil _ _) ?_
      simp [hn, hv]
    have hne : ¬(p.1.toList = [] ∨ p.2.toList = []) := by
      simpa [String.toList_eq_nil_iff] using And.intro hname hvalue
    rw [parseOptionPair, hsplit]
    dsimp only
    rw [if_neg hne, String.ofList_toList, String.ofList_toList]

/-- a piece that does not parse throws the one error of the parse -/
theorem parseOptionPair_cases (options : String) (optionPair : List Char) :
    (∃ p, parseOptionPair options optionPair = .ok p) ∨
      parseOptionPair options optionPair = .error (invalidXlatorOption options) := by
  unfold parseOptionPair
  split
  · split_ifs
    · exact Or.inr rfl
    · exact Or.inl ⟨_, rfl⟩
  · exact Or.inr rfl

/-! ## The loop -/

theorem parseOptionPairs_cons {options : String} {piece : List Char} (h : piece ≠ []) (rest : List (List Char)) :
    parseOptionPairs options (piece :: rest) =
      parseOptionPair options piece >>= fun p => parseOptionPairs options rest >>= fun ps => pure (p :: ps) := by
  rw [parseOptionPairs, if_neg h]

theorem parseOptionPairs_eq_ok (options : String) (pieces : List (List Char)) (pairs : List (String × String)) :
    parseOptionPairs options pieces = .ok pairs ↔ List.Forall₂ Renders (pieces.filter (· ≠ [])) pairs := by
  induction pieces generalizing pairs with
  | nil =>
    rw [parseOptionPairs, List.filter_nil, List.forall₂_nil_left_iff]
    exact ⟨fun h => (Except.ok.inj h).symm, fun h => h ▸ rfl⟩
  | cons piece rest ih =>
    by_cases hempty : piece = []
    · -- an empty piece is skipped by the loop and by the segments alike
      rw [parseOptionPairs, if_pos hempty, ih, List.filter_cons_of_neg (by simpa using hempty)]
    · rw [parseOptionPairs_cons hempty, List.filter_cons_of_pos (by simpa using hempty), List.forall₂_cons_left_iff]
      simp only [bind_eq_ok, parseOptionPair_eq_ok, ih, pure, Except.pure, Except.ok.injEq]
      constructor
      · rintro ⟨p, hp, ps, hps, rfl⟩
        exact ⟨p, ps, hp, hps, rfl⟩
      · rintro ⟨p, ps, hp, hps, rfl⟩
        exact ⟨p, hp, ps, hps, rfl⟩

/-- the loop only ever throws the one error -/
theorem parseOptionPairs_error {options : String} {pieces : List (List Char)} {e : StdException}
    (h : parseOptionPairs options pieces = .error e) : e = invalidXlatorOption options := by
  induction pieces with
  | nil => cases h
  | cons piece rest ih =>
    by_cases hempty : piece = []
    · rw [parseOptionPairs, if_pos hempty] at h
      exact ih h
    · rw [parseOptionPairs_cons hempty, bind_eq_error] at h
      rcases h with herr | ⟨p, -, hrest⟩
      · -- the piece itself throws
        rcases parseOptionPair_cases options piece with ⟨p, hp⟩ | hinv
        · rw [hp] at herr
          cases herr
        · rw [hinv] at herr
          exact (Except.error.inj herr).symm
      · -- a later piece throws
        rcases bind_eq_error.1 hrest with hrest | ⟨ps, -, hpure⟩
        · exact ih hrest
        · cases hpure

theorem segments_of_isEmpty {s : String} (h : s.isEmpty = true) : segments s = [] := by
  rw [String.isEmpty_iff] at h
  subst h
  rfl

/-- the parse as a function of the segments -/
theorem parseXlatorOptions_eq_ok (s : String) (pairs : List (String × String)) :
    parseXlatorOptions s = .ok pairs ↔ List.Forall₂ Renders (segments s) pairs := by
  unfold parseXlatorOptions
  split_ifs with h
  · rw [segments_of_isEmpty h, List.forall₂_nil_left_iff]
    exact ⟨fun h => (Except.ok.inj h).symm, fun h => h ▸ rfl⟩
  · exact parseOptionPairs_eq_ok s _ pairs

theorem parseXlatorOptions_error {s : String} {e : StdException} (h : parseXlatorOptions s = .error e) :
    e = invalidXlatorOption s := by
  unfold parseXlatorOptions at h
  split_ifs at h
  exact parseOptionPairs_error h

/-! ## Reading joined pairs back -/

/-- the option `name=value` -/
def render (p : String × String) : String := p.1 ++ "=" ++ p.2

/-- pairs whose names and values are non-empty and hold neither separator -/
def Plain (p : String × String) : Prop :=
  p.1 ≠ "" ∧ p.2 ≠ "" ∧ ';' ∉ p.1.toList ∧ '=' ∉ p.1.toList ∧ ';' ∉ p.2.toList ∧ '=' ∉ p.2.toList

theorem toList_render (p : String × String) : (render p).toList = p.1.toList ++ '=' :: p.2.toList := by
  simp [render]

theorem renders_render {p : String × String} (h : Plain p) : Renders (render p).toList p :=
  ⟨toList_render p, h.1, h.2.1, h.2.2.2.1, h.2.2.2.2.2⟩

/-- joining segments whose non-empty ones are renderings of plain pairs: the segments of the join are the
renderings -/
theorem segments_intercalate {pairs : List (String × String)} {segs : List String} (hplain : ∀ p ∈ pairs, Plain p)
    (hsegs : segs.filter (· ≠ "") = pairs.map render) :
    segments (";".intercalate segs) = pairs.map fun p => (render p).toList := by
  -- a segment is empty or one of the renderings, so it holds no ';'
  have hsemi : ∀ l ∈ segs.map String.toList, ';' ∉ l := by
    intro l hl
    obtain ⟨seg, hseg, rfl⟩ := List.mem_map.1 hl
    by_cases hempty : seg = ""
    · simp [hempty]
    · have hmem : seg ∈ pairs.map render := hsegs ▸ List.mem_filter.2 ⟨hseg, by simpa using hempty⟩
      obtain ⟨p, hp, rfl⟩ := List.mem_map.1 hmem
      have := hplain p hp
      simp [toList_render, this.2.2.1, this.2.2.2.2.1]
  have hfilter : (segs.map String.toList).filter (· ≠ []) = pairs.map fun p => (render p).toList := by
    have hpred : segs.filter ((fun l : List Char => decide (l ≠ [])) ∘ String.toList) = segs.filter (· ≠ "") := by
      apply List.filter_congr
      intro seg _
      simp [String.toList_eq_nil_iff]
    rw [List.filter_map, hpred, hsegs, List.map_map]
    rfl
  unfold segments
  rw [String.toList_intercalate]
  cases segs with
  | nil => simpa using hfilter
  | cons seg rest =>
    rw [show (";" : String).toList = [';'] from rfl, List.splitOn_intercalate ';' hsemi (by simp), hfilter]

/-- **The options parse exactly as written.** `parseXlatorOptions` returns the pairs of the non-empty ';'-separated
segments, in order, exactly when each segment is one '=' with text on both sides, and otherwise throws
`std::runtime_error` naming the options; so plain pairs written `name=value` and joined by ';', with any empty
segments among them, are read back. -/
theorem xlatorOptions_parse_spec :
    (∀ s pairs, parseXlatorOptions s = .ok pairs ↔ List.Forall₂ Renders (segments s) pairs) ∧
    (∀ s, (¬∃ pairs, List.Forall₂ Renders (segments s) pairs) →
      parseXlatorOptions s = .error (.runtimeError ("Invalid GlusterFS xlator option: " ++ s))) ∧
    (∀ (pairs : List (String × String)) (segs : List String), (∀ p ∈ pairs, Plain p) →
      segs.filter (· ≠ "") = pairs.map render → parseXlatorOptions (";".intercalate segs) = .ok pairs) := by
  refine ⟨parseXlatorOptions_eq_ok, fun s hnone => ?_, fun pairs segs hplain hsegs => ?_⟩
  · cases h : parseXlatorOptions s with
    | error e => rw [parseXlatorOptions_error h]; rfl
    | ok pairs => exact absurd ⟨pairs, (parseXlatorOptions_eq_ok s pairs).1 h⟩ hnone
  · rw [parseXlatorOptions_eq_ok, segments_intercalate hplain hsegs, List.forall₂_map_left_iff]
    exact List.forall₂_same.2 fun p hp => renders_render (hplain p hp)

theorem xlatorOptions_parse_spec_a :
    (¬∃ pairs, List.Forall₂ Renders (segments "a") pairs) ∧
      parseXlatorOptions "a" = .error (.runtimeError ("Invalid GlusterFS xlator option: " ++ "a")) ∧
    (∀ p ∈ [("a", "1"), ("b", "2")], Plain p) ∧
      ["", "a=1", "", "b=2"].filter (· ≠ "") = [("a", "1"), ("b", "2")].map render ∧
      parseXlatorOptions (";".intercalate ["", "a=1", "", "b=2"]) = .ok [("a", "1"), ("b", "2")] := by
  -- "a" has no '=': it does not parse, so no list of pairs can render its segments
  have hnone : ¬∃ pairs, List.Forall₂ Renders (segments "a") pairs := by
    rintro ⟨pairs, h⟩
    have hok := (xlatorOptions_parse_spec.1 "a" pairs).2 h
    have herr : parseXlatorOptions "a" = .error (invalidXlatorOption "a") := by decide
    rw [herr] at hok
    cases hok
  have hplain : ∀ p ∈ [("a", "1"), ("b", "2")], Plain p := by
    intro p hp
    simp only [List.mem_cons, List.not_mem_nil, or_false] at hp
    rcases hp with rfl | rfl <;> exact ⟨by decide, by decide, by decide, by decide, by decide, by decide⟩
  have hsegs : ["", "a=1", "", "b=2"].filter (· ≠ "") = [("a", "1"), ("b", "2")].map render := by decide
  exact ⟨hnone, xlatorOptions_parse_spec.2.1 "a" hnone, hplain, hsegs,
    xlatorOptions_parse_spec.2.2 _ _ hplain hsegs⟩

end OneHelpers.GlusterFS

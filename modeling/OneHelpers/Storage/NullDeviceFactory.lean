/-
Model of `NullDeviceHelperFactory::parseSimulatedFilesystemParameters` (`src/nullDeviceHelper.cc`): the
specification `D_1-F_1:...:D_k-F_k` of the simulated filesystem, parsed into its levels.

The string is split at every ':' and each level at every '-', both with empty pieces dropped (folly's `split` with
`ignoreEmpty`). A level that does not give two pieces throws `std::invalid_argument` naming the specification, and
the two pieces are read with `std::stol`. C++ leaves the order of the two `std::stol` calls unspecified; the model
reads the directories first, and nothing below depends on it, since at most one of them throws there.

Results:
- `simulatedFilesystemParameters_roundtrip`: a specification written from numerals of non-negative `int64` values
  parses into their values;
- `simulatedFilesystemParameters_spec`: empty fields are ignored: a specification whose levels each have two fields,
  numerals of non-negative `int64` values, parses into their values, the first level without two fields throws
  `std::invalid_argument`, and the first with a numeral past `int64` throws `std::out_of_range`;
- `simulatedFilesystemParameters_accepts_more`: a level with its '-' doubled, which the grammar does not allow,
  parses as if it had one, and a numeral past `int64` throws `std::out_of_range`, which is neither a list nor
  `std::invalid_argument`.
-/
import Mathlib.Tactic
import OneHelpers.Core.Text

namespace OneHelpers.NullDevice

open Text

/-- the `std::invalid_argument` of a level that is not two pieces -/
def invalidSpecification (params : String) : StdException :=
  .invalidArgument ("Invalid null helper simulated filesystem parameters specification: '" ++ params ++ "'")

/-- one level: split at every '-', empty pieces dropped, and its two pieces read by `std::stol` -/
def parseLevel (params : String) (level : List Char) : Except StdException (ℤ × ℤ) :=
  match split '-' level true with
  | [dirs, files] => do
    let d ← stol dirs
    let f ← stol files
    pure (d, f)
  | _ => .error (invalidSpecification params)

/-- `NullDeviceHelperFactory::parseSimulatedFilesystemParameters` -/
def parseSimulatedFilesystemParameters (params : String) : Except StdException (List (ℤ × ℤ)) :=
  if params.isEmpty then .ok [] else (split ':' params.toList true).mapM (parseLevel params)

example : parseSimulatedFilesystemParameters "10-5:1-20" = .ok [(10, 5), (1, 20)] := by decide

/-! ## The grammar -/

/-- a decimal numeral of a non-negative value that fits `int64` -/
def IsNumeral (digits : List Char) : Prop :=
  digits ≠ [] ∧ (∀ c ∈ digits, c.isDigit = true) ∧ digitsValue digits < 2 ^ 63

/-- a level written `D-F` -/
def renderLevel (level : List Char × List Char) : List Char := level.1 ++ '-' :: level.2

/-- the specifications of the grammar: empty, or levels of two numerals joined by ':' -/
def InGrammar (s : List Char) : Prop :=
  s = [] ∨ ∃ levels : List (List Char × List Char), levels ≠ [] ∧ (∀ l ∈ levels, IsNumeral l.1 ∧ IsNumeral l.2) ∧
    s = [':'].intercalate (levels.map renderLevel)

theorem stol_numeral {digits : List Char} (h : IsNumeral digits) : stol digits = .ok (digitsValue digits) := by
  have : stol (digits ++ []) = .ok (digitsValue digits) := stol_digits h.1 h.2.1 (by simp) h.2.2
  rwa [List.append_nil] at this

/-- a level of two non-empty runs of digits splits at its '-' into them -/
theorem split_renderLevel {level : List Char × List Char} (hne1 : level.1 ≠ [])
    (hd1 : ∀ c ∈ level.1, c.isDigit = true) (hne2 : level.2 ≠ []) (hd2 : ∀ c ∈ level.2, c.isDigit = true)
    (ignoreEmpty : Bool) : split '-' (renderLevel level) ignoreEmpty = [level.1, level.2] := by
  have hpieces : ∀ p ∈ [level.1, level.2], '-' ∉ p := by
    simp only [List.mem_cons, List.not_mem_nil, or_false]
    rintro p (rfl | rfl)
    · exact not_mem_of_isDigit hd1 (by decide)
    · exact not_mem_of_isDigit hd2 (by decide)
  rw [renderLevel, ← intercalate_two]
  cases ignoreEmpty with
  | false => exact split_intercalate '-' (List.cons_ne_nil _ _) hpieces
  | true =>
    rw [split_true_intercalate '-' (List.cons_ne_nil _ _) hpieces]
    simp [hne1, hne2]

/-- a run of digits past `int64` throws `std::out_of_range` -/
theorem stol_of_ge {digits : List Char} (hne : digits ≠ []) (hdigits : ∀ c ∈ digits, c.isDigit = true)
    (hge : 2 ^ 63 ≤ digitsValue digits) : stol digits = .error (.outOfRange "stol") := by
  have : stol (digits ++ []) = .error (.outOfRange "stol") := stol_digits_of_ge hne hdigits (by simp) hge
  rwa [List.append_nil] at this

/-- a level whose fields, empty ones dropped, are two numerals reads as their values -/
theorem parseLevel_of_split (params : String) {level d f : List Char} (hsplit : split '-' level true = [d, f])
    (hd : IsNumeral d) (hf : IsNumeral f) : parseLevel params level = .ok (digitsValue d, digitsValue f) := by
  rw [parseLevel, hsplit]
  simp only [stol_numeral hd, stol_numeral hf]
  rfl

theorem parseLevel_render (params : String) {level : List Char × List Char} (h1 : IsNumeral level.1)
    (h2 : IsNumeral level.2) : parseLevel params (renderLevel level) = .ok (digitsValue level.1, digitsValue level.2) :=
  parseLevel_of_split params (split_renderLevel h1.1 h1.2.1 h2.1 h2.2.1 true) h1 h2

/-- a level that does not have two fields throws `std::invalid_argument` naming the specification -/
theorem parseLevel_of_length_ne (params : String) {level : List Char} (h : (split '-' level true).length ≠ 2) :
    parseLevel params level = .error (invalidSpecification params) := by
  unfold parseLevel
  split
  · rename_i dirs files hsplit
    rw [hsplit] at h
    exact absurd rfl h
  · rfl

/-- a level of two runs of digits, one of them past `int64`, throws `std::out_of_range`, whichever of the two
`std::stol` calls runs first -/
theorem parseLevel_of_ge (params : String) {level d f : List Char} (hsplit : split '-' level true = [d, f])
    (hd : ∀ c ∈ d, c.isDigit = true) (hf : ∀ c ∈ f, c.isDigit = true)
    (hge : 2 ^ 63 ≤ digitsValue d ∨ 2 ^ 63 ≤ digitsValue f) : parseLevel params level = .error (.outOfRange "stol") := by
  -- the fields of a split with empty ones dropped are not empty
  have hne : d ≠ [] ∧ f ≠ [] := by
    have hmem : ∀ p ∈ split '-' level true, p ≠ [] := fun p hp => by
      rw [split_true] at hp
      simpa using (List.mem_filter.1 hp).2
    rw [hsplit] at hmem
    exact ⟨hmem d List.mem_cons_self, hmem f (by simp)⟩
  rw [parseLevel, hsplit]
  by_cases hlt : digitsValue d < 2 ^ 63
  · have hge' : 2 ^ 63 ≤ digitsValue f := hge.resolve_left (Nat.not_le.2 hlt)
    simp only [stol_numeral ⟨hne.1, hd, hlt⟩, stol_of_ge hne.2 hf hge']
    rfl
  · simp only [stol_of_ge hne.1 hd (Nat.le_of_not_lt hlt)]
    rfl

/-! ## Specifications of the grammar -/

theorem renderLevel_ne_nil (level : List Char × List Char) : renderLevel level ≠ [] := by
  simp [renderLevel]

theorem colon_not_mem_renderLevel {level : List Char × List Char} (hd1 : ∀ c ∈ level.1, c.isDigit = true)
    (hd2 : ∀ c ∈ level.2, c.isDigit = true) : ':' ∉ renderLevel level := by
  rw [renderLevel, List.mem_append, List.mem_cons, not_or, not_or]
  exact ⟨not_mem_of_isDigit hd1 (by decide), by decide, not_mem_of_isDigit hd2 (by decide)⟩

/-- a specification without ':' is one level -/
theorem parse_of_colon_not_mem {level : List Char} (hne : level ≠ []) (hcolon : ':' ∉ level) :
    parseSimulatedFilesystemParameters (String.ofList level) = [level].mapM (parseLevel (String.ofList level)) := by
  have hempty : (String.ofList level).isEmpty = false := by
    simpa [← String.toList_inj] using hne
  rw [parseSimulatedFilesystemParameters, hempty, if_neg Bool.false_ne_true, String.toList_ofList,
    split_of_not_mem hne hcolon]

theorem mapM_parseLevel (params : String) {levels : List (List Char × List Char)}
    (h : ∀ l ∈ levels, IsNumeral l.1 ∧ IsNumeral l.2) :
    (levels.map renderLevel).mapM (parseLevel params) = .ok (levels.map fun l => (digitsValue l.1, digitsValue l.2)) := by
  induction levels with
  | nil => rfl
  | cons l levels ih =>
    have hl := h l List.mem_cons_self
    rw [List.map_cons, List.mapM_cons, parseLevel_render params hl.1 hl.2,
      ih fun l' hl' => h l' (List.mem_cons_of_mem l hl')]
    rfl

/-- **A written specification reads back.** Levels of numerals of non-negative `int64` values, written `D-F` and
joined by ':', parse into their values. -/
theorem simulatedFilesystemParameters_roundtrip (levels : List (List Char × List Char)) (hne : levels ≠ [])
    (h : ∀ l ∈ levels, IsNumeral l.1 ∧ IsNumeral l.2) :
    parseSimulatedFilesystemParameters (String.ofList ([':'].intercalate (levels.map renderLevel))) =
      .ok (levels.map fun l => (digitsValue l.1, digitsValue l.2)) := by
  have hcolon : ∀ p ∈ levels.map renderLevel, ':' ∉ p := by
    intro p hp
    obtain ⟨l, hl, rfl⟩ := List.mem_map.1 hp
    exact colon_not_mem_renderLevel (h l hl).1.2.1 (h l hl).2.2.1
  have hrenders : levels.map renderLevel ≠ [] := by simpa using hne
  have hfilter : (levels.map renderLevel).filter (· ≠ []) = levels.map renderLevel := by
    rw [List.filter_eq_self]
    intro p hp
    obtain ⟨l, -, rfl⟩ := List.mem_map.1 hp
    simpa using renderLevel_ne_nil l
  -- the written specification is not empty: its first level is not
  have hnonempty : (String.ofList ([':'].intercalate (levels.map renderLevel))).isEmpty = false := by
    obtain ⟨l, rest, rfl⟩ := List.exists_cons_of_ne_nil hne
    cases rest <;> simp [List.intercalate, renderLevel, ← String.toList_inj]
  rw [parseSimulatedFilesystemParameters, hnonempty, if_neg Bool.false_ne_true, String.toList_ofList,
    split_true_intercalate ':' hrenders hcolon, hfilter, mapM_parseLevel _ h]

theorem simulatedFilesystemParameters_roundtrip_two :
    [(['1', '0'], ['5']), (['1'], ['2', '0'])] ≠ [] ∧
      (∀ l ∈ [(['1', '0'], ['5']), (['1'], ['2', '0'])], IsNumeral l.1 ∧ IsNumeral l.2) ∧
      parseSimulatedFilesystemParameters
          (String.ofList ([':'].intercalate ([(['1', '0'], ['5']), (['1'], ['2', '0'])].map renderLevel))) =
        .ok [(10, 5), (1, 20)] := by
  have hnum : ∀ l ∈ [(['1', '0'], ['5']), (['1'], ['2', '0'])], IsNumeral l.1 ∧ IsNumeral l.2 := by
    intro l hl
    simp only [List.mem_cons, List.not_mem_nil, or_false] at hl
    rcases hl with rfl | rfl
    · exact ⟨⟨by decide, List.all_eq_true.1 (by decide), by decide⟩, ⟨by decide, List.all_eq_true.1 (by decide), by decide⟩⟩
    · exact ⟨⟨by decide, List.all_eq_true.1 (by decide), by decide⟩, ⟨by decide, List.all_eq_true.1 (by decide), by decide⟩⟩
  refine ⟨by simp, hnum, ?_⟩
  rw [simulatedFilesystemParameters_roundtrip _ (by simp) hnum]
  decide

/-! ## Every specification, empty fields ignored -/

/-- the check for the empty string changes nothing: its split has no level -/
theorem parse_eq_mapM (params : String) :
    parseSimulatedFilesystemParameters params = (split ':' params.toList true).mapM (parseLevel params) := by
  unfold parseSimulatedFilesystemParameters
  split_ifs with hempty
  · rw [String.isEmpty_iff] at hempty
    subst hempty
    rfl
  · rfl

/-- the levels of a join by ':' of pieces without ':' are its non-empty pieces -/
theorem split_colon_intercalate {ls : List (List Char)} (h : ∀ l ∈ ls, ':' ∉ l) :
    split ':' ([':'].intercalate ls) true = ls.filter (· ≠ []) := by
  cases ls with
  | nil => rfl
  | cons l ls => exact split_true_intercalate ':' (List.cons_ne_nil _ _) h

/-- levels that each have two numerals as fields read as their values, in order -/
theorem mapM_parseLevel_of_split (params : String) :
    ∀ (levels : List (List Char)) (values : List (List Char × List Char)),
      levels.map (split '-' · true) = values.map (fun v => [v.1, v.2]) →
      (∀ v ∈ values, IsNumeral v.1 ∧ IsNumeral v.2) →
      levels.mapM (parseLevel params) = .ok (values.map fun v => (digitsValue v.1, digitsValue v.2))
  | [], [], _, _ => rfl
  | [], _ :: _, h, _ => by simp at h
  | _ :: _, [], h, _ => by simp at h
  | l :: levels, v :: values, h, hv => by
    simp only [List.map_cons, List.cons.injEq] at h
    have hv' := hv v List.mem_cons_self
    rw [List.mapM_cons, parseLevel_of_split params h.1 hv'.1 hv'.2,
      mapM_parseLevel_of_split params levels values h.2 fun w hw => hv w (List.mem_cons_of_mem v hw)]
    rfl

/-- the first level that throws decides what the parse throws -/
theorem mapM_parseLevel_of_error (params : String) {pre : List (List Char)} {vs : List (ℤ × ℤ)} {level : List Char}
    {e : StdException} (post : List (List Char)) (hpre : pre.mapM (parseLevel params) = .ok vs)
    (hlevel : parseLevel params level = .error e) : (pre ++ level :: post).mapM (parseLevel params) = .error e := by
  rw [List.mapM_append, hpre, List.mapM_cons, hlevel]
  rfl

/-- **What the parse returns and throws.** Levels are the non-empty pieces between ':' and fields the non-empty pieces
between '-', so empty fields are ignored. A specification whose levels each have two fields, numerals of non-negative
`int64` values, returns their values in order: every specification of the grammar does, also with separators
repeated or added at either end, and so does the empty one. At the first level that does not have two fields the parse
throws `std::invalid_argument` naming the specification; at the first level of two runs of digits, one of them past
`int64`, it throws `std::out_of_range`. -/
theorem simulatedFilesystemParameters_spec :
    (∀ (ls : List (List Char)) (values : List (List Char × List Char)), (∀ l ∈ ls, ':' ∉ l) →
      (ls.filter (· ≠ [])).map (split '-' · true) = values.map (fun v => [v.1, v.2]) →
      (∀ v ∈ values, IsNumeral v.1 ∧ IsNumeral v.2) →
      parseSimulatedFilesystemParameters (String.ofList ([':'].intercalate ls)) =
        .ok (values.map fun v => (digitsValue v.1, digitsValue v.2))) ∧
    (∀ (ls pre : List (List Char)) (values : List (List Char × List Char)) (level : List Char)
        (post : List (List Char)), (∀ l ∈ ls, ':' ∉ l) → ls.filter (· ≠ []) = pre ++ level :: post →
      pre.map (split '-' · true) = values.map (fun v => [v.1, v.2]) → (∀ v ∈ values, IsNumeral v.1 ∧ IsNumeral v.2) →
      (split '-' level true).length ≠ 2 →
      parseSimulatedFilesystemParameters (String.ofList ([':'].intercalate ls)) =
        .error (invalidSpecification (String.ofList ([':'].intercalate ls)))) ∧
    (∀ (ls pre : List (List Char)) (values : List (List Char × List Char)) (level d f : List Char)
        (post : List (List Char)), (∀ l ∈ ls, ':' ∉ l) → ls.filter (· ≠ []) = pre ++ level :: post →
      pre.map (split '-' · true) = values.map (fun v => [v.1, v.2]) → (∀ v ∈ values, IsNumeral v.1 ∧ IsNumeral v.2) →
      split '-' level true = [d, f] → (∀ c ∈ d, c.isDigit = true) → (∀ c ∈ f, c.isDigit = true) →
      (2 ^ 63 ≤ digitsValue d ∨ 2 ^ 63 ≤ digitsValue f) →
      parseSimulatedFilesystemParameters (String.ofList ([':'].intercalate ls)) = .error (.outOfRange "stol")) := by
  refine ⟨fun ls values hcolon hfields hnum => ?_, fun ls pre values level post hcolon hlevels hfields hnum hlen => ?_,
    fun ls pre values level d f post hcolon hlevels hfields hnum hsplit hd hf hge => ?_⟩
  · rw [parse_eq_mapM, String.toList_ofList, split_colon_intercalate hcolon]
    exact mapM_parseLevel_of_split _ _ values hfields hnum
  · rw [parse_eq_mapM, String.toList_ofList, split_colon_intercalate hcolon, hlevels]
    exact mapM_parseLevel_of_error _ post (mapM_parseLevel_of_split _ pre values hfields hnum)
      (parseLevel_of_length_ne _ hlen)
  · rw [parse_eq_mapM, String.toList_ofList, split_colon_intercalate hcolon, hlevels]
    exact mapM_parseLevel_of_error _ post (mapM_parseLevel_of_split _ pre values hfields hnum)
      (parseLevel_of_ge _ hsplit hd hf hge)

example : parseSimulatedFilesystemParameters "::10-5::1--20:" = .ok [(10, 5), (1, 20)] := by decide

/-! ## What else is accepted -/

/-- a level with its '-' doubled splits into the two numerals and an empty piece between them -/
theorem split_doubled {d f : List Char} (hd : IsNumeral d) (hf : IsNumeral f) :
    split '-' (d ++ '-' :: '-' :: f) false = [d, [], f] := by
  have hjoin : ['-'].intercalate [d, [], f] = d ++ '-' :: '-' :: f := by simp [List.intercalate]
  rw [← hjoin]
  refine split_intercalate '-' (List.cons_ne_nil _ _) ?_
  simp only [List.mem_cons, List.not_mem_nil, or_false]
  rintro p (rfl | rfl | rfl)
  · exact not_mem_of_isDigit hd.2.1 (by decide)
  · exact List.not_mem_nil
  · exact not_mem_of_isDigit hf.2.1 (by decide)

theorem colon_not_mem_doubled {d f : List Char} (hd : IsNumeral d) (hf : IsNumeral f) :
    ':' ∉ d ++ '-' :: '-' :: f := by
  simp only [List.mem_append, List.mem_cons, not_or]
  exact ⟨not_mem_of_isDigit hd.2.1 (by decide), by decide, by decide, not_mem_of_isDigit hf.2.1 (by decide)⟩

theorem not_inGrammar_doubled {d f : List Char} (hd : IsNumeral d) (hf : IsNumeral f) :
    ¬InGrammar (d ++ '-' :: '-' :: f) := by
  have hne : d ++ '-' :: '-' :: f ≠ [] := by simp
  have hcolon := colon_not_mem_doubled hd hf
  rintro (hnil | ⟨levels, hlevels, hnum, hs⟩)
  · exact hne hnil
  · -- split at ':', the string is one piece, so it is the rendering of one of the levels
    have hrenders : levels.map renderLevel = [d ++ '-' :: '-' :: f] := by
      have hcolons : ∀ p ∈ levels.map renderLevel, ':' ∉ p := by
        intro p hp
        obtain ⟨l, hl, rfl⟩ := List.mem_map.1 hp
        exact colon_not_mem_renderLevel (hnum l hl).1.2.1 (hnum l hl).2.2.1
      rw [← split_intercalate ':' (by simpa using hlevels) hcolons, ← hs, split_of_not_mem hne hcolon]
    obtain ⟨l, hl, hrender⟩ := List.mem_map.1 (hrenders ▸ List.mem_singleton_self _)
    -- split at '-', that level has two pieces and the string three
    have htwo := split_renderLevel (hnum l hl).1.1 (hnum l hl).1.2.1 (hnum l hl).2.1 (hnum l hl).2.2.1 false
    rw [hrender, split_doubled hd hf] at htwo
    have hlength := congrArg List.length htwo
    simp at hlength

/-- **The parse accepts more than the grammar.** For all numerals `D` and `F` of non-negative `int64` values, the
level `D--F`, which the grammar does not allow, parses as `[(D, F)]`, as `D-F` would; and a level whose first
numeral is past `int64` throws `std::out_of_range`, neither returning a list nor throwing `std::invalid_argument`. -/
theorem simulatedFilesystemParameters_accepts_more :
    (∀ d f : List Char, IsNumeral d → IsNumeral f →
      ¬InGrammar (d ++ '-' :: '-' :: f) ∧
        parseSimulatedFilesystemParameters (String.ofList (d ++ '-' :: '-' :: f)) =
          .ok [(digitsValue d, digitsValue f)]) ∧
    (∀ d f : List Char, d ≠ [] → (∀ c ∈ d, c.isDigit = true) → 2 ^ 63 ≤ digitsValue d → IsNumeral f →
      parseSimulatedFilesystemParameters (String.ofList (renderLevel (d, f))) = .error (.outOfRange "stol")) := by
  refine ⟨fun d f hd hf => ⟨not_inGrammar_doubled hd hf, ?_⟩, fun d f hne hdigits hge hf => ?_⟩
  · -- the empty piece between the two '-' is dropped, and the level reads as `D-F`
    have hlevel : split '-' (d ++ '-' :: '-' :: f) true = [d, f] := by
      rw [split_true, split_doubled hd hf]
      simp [hd.1, hf.1]
    rw [parse_of_colon_not_mem (by simp) (colon_not_mem_doubled hd hf), List.mapM_cons, parseLevel, hlevel]
    simp only [stol_numeral hd, stol_numeral hf]
    rfl
  · -- the level splits as the grammar says, and `std::stol` of its first piece throws
    rw [parse_of_colon_not_mem (renderLevel_ne_nil _) (colon_not_mem_renderLevel hdigits hf.2.1), List.mapM_cons,
      parseLevel, split_renderLevel hne hdigits hf.1 hf.2.1]
    simp only [stol_of_ge hne hdigits hge]
    rfl

theorem simulatedFilesystemParameters_accepts_more_ten :
    (IsNumeral ['1', '0'] ∧ IsNumeral ['5'] ∧ ¬InGrammar (['1', '0'] ++ '-' :: '-' :: ['5']) ∧
      parseSimulatedFilesystemParameters (String.ofList (['1', '0'] ++ '-' :: '-' :: ['5'])) = .ok [(10, 5)]) ∧
    parseSimulatedFilesystemParameters (String.ofList (renderLevel ("9223372036854775808".toList, ['1']))) =
      .error (.outOfRange "stol") := by
  have h10 : IsNumeral ['1', '0'] := ⟨by decide, List.all_eq_true.1 (by decide), by decide⟩
  have h5 : IsNumeral ['5'] := ⟨by decide, List.all_eq_true.1 (by decide), by decide⟩
  obtain ⟨hgrammar, hparse⟩ := simulatedFilesystemParameters_accepts_more.1 _ _ h10 h5
  refine ⟨⟨h10, h5, hgrammar, by rw [hparse]; decide⟩, ?_⟩
  -- `9223372036854775808` is `2^63`, one past the largest `int64`
  exact simulatedFilesystemParameters_accepts_more.2 _ _ (by decide) (List.all_eq_true.1 (by decide)) (by decide)
    ⟨by decide, List.all_eq_true.1 (by decide), by decide⟩

end OneHelpers.NullDevice

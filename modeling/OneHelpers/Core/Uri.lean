/-
The components of a URI reference (RFC 3986, section 3) that a URL class reads off it: the scheme, the host and port
of the authority, and the path. The query and the fragment are cut off the path; user information is not modelled.

- The reference has a scheme when the text before its first ':' is one: a letter, then letters, digits, '+', '-'
  and '.' (section 3.1). Otherwise it is a relative reference, and a ':' may then not stand in its first segment
  (section 4.2): such a text is a syntax error.
- After the scheme, "//" starts an authority, which ends at the next '/', '?' or '#' (section 3.2). Its host is the
  text up to its first ':', and its port the digits after that ':' (section 3.2.3); any other character there is a
  syntax error, and an absent or empty port is 0.
- The path is what follows, up to the first '?' or '#' (section 3.3).

The reference is read as characters where the source holds its bytes; every delimiter and class is ASCII, and
`pathOf_encode` shows for the path what `Utf8.takeWhile_flatMap` and `Utf8.dropWhile_flatMap` give for each scan.

Results: one lemma for each shape of reference, saying what `parse` reads off it: `parse_scheme` (a scheme and what
follows its ':'), `parseHierPart_authority` and `parseHierPart_of_not_slash` (with and without an authority),
`parseHostPort_port` and `parseHostPort_of_colon_not_mem` (with and without a port), and `pathOf_of_forall`.
-/
import Mathlib.Tactic
import Mathlib.Data.List.TakeWhile
import OneHelpers.Core.Text
import OneHelpers.Core.Utf8

namespace OneHelpers.Uri

open Text

/-- the components of a URI reference; an empty scheme or host is an absent one -/
structure URI where
  scheme : List Char
  host : List Char
  port : ℕ
  path : List Char
  deriving DecidableEq, Repr

/-- a character that may follow the first one of a scheme -/
def isSchemeChar (c : Char) : Bool := c.isAlphanum || c == '+' || c == '-' || c == '.'

/-- a scheme: a letter, then scheme characters -/
def isScheme : List Char → Bool
  | [] => false
  | c :: cs => c.isAlpha && cs.all isSchemeChar

/-- the characters that end an authority, and the first segment of a path -/
def isDelimiter (c : Char) : Bool := c == '/' || c == '?' || c == '#'

/-- the path: the text up to the query or the fragment -/
def pathOf (s : List Char) : List Char := s.takeWhile fun c => !(c == '?' || c == '#')

/-- host and port of an authority; `none` is a port that is not a run of digits -/
def parseHostPort (authority : List Char) : Option (List Char × ℕ) :=
  let host := authority.takeWhile (· ≠ ':')
  match authority.dropWhile (· ≠ ':') with
  | [] => some (host, 0)
  | _ :: port => if port.all Char.isDigit then some (host, digitsValue port) else none

/-- the part of a reference after its scheme: an authority after "//", then the path -/
def parseHierPart (scheme rest : List Char) : Option URI :=
  match rest with
  | '/' :: '/' :: afterSlashes =>
    (parseHostPort (afterSlashes.takeWhile (!isDelimiter ·))).map fun hostPort =>
      ⟨scheme, hostPort.1, hostPort.2, pathOf (afterSlashes.dropWhile (!isDelimiter ·))⟩
  | _ => some ⟨scheme, [], 0, pathOf rest⟩

/-- a URI reference; `none` is a syntax error -/
def parse (s : List Char) : Option URI :=
  match s.dropWhile (· ≠ ':') with
  | [] => parseHierPart [] s
  | _ :: rest =>
    let candidate := s.takeWhile (· ≠ ':')
    if isScheme candidate then parseHierPart candidate rest
    -- the ':' stands past the first segment of a relative reference
    else if candidate.any isDelimiter then parseHierPart [] s
    else none

example : parse "http://example.com:8080/dir?q".toList =
    some ⟨"http".toList, "example.com".toList, 8080, "/dir".toList⟩ := by decide

/-! ## What a reference of each shape is read as -/

theorem isDelimiter_eq_false_iff {c : Char} : isDelimiter c = false ↔ c ≠ '/' ∧ c ≠ '?' ∧ c ≠ '#' := by
  simp [isDelimiter, and_assoc]

/-- the text before the first ':', when it is a scheme, is the scheme, and the rest is read after the ':' -/
theorem parse_scheme {scheme : List Char} (rest : List Char) (hs : isScheme scheme = true) (hcolon : ':' ∉ scheme) :
    parse (scheme ++ ':' :: rest) = parseHierPart scheme rest := by
  have hscan := decide_ne_of_not_mem hcolon
  have hstop : ∀ x ∈ (':' :: rest).head?, decide (x ≠ ':') = false := by simp
  unfold parse
  rw [dropWhile_append_stop hscan hstop]
  simp only [takeWhile_append_stop hscan hstop, if_pos hs]

/-- a port of digits after the host -/
theorem parseHostPort_port {host port : List Char} (hhost : ':' ∉ host) (hport : ∀ c ∈ port, c.isDigit = true) :
    parseHostPort (host ++ ':' :: port) = some (host, digitsValue port) := by
  have hscan := decide_ne_of_not_mem hhost
  have hstop : ∀ x ∈ (':' :: port).head?, decide (x ≠ ':') = false := by simp
  unfold parseHostPort
  rw [dropWhile_append_stop hscan hstop, takeWhile_append_stop hscan hstop]
  simp only [if_pos (List.all_eq_true.2 hport)]

/-- an authority with no ':' is all host, with port 0 -/
theorem parseHostPort_of_colon_not_mem {authority : List Char} (h : ':' ∉ authority) :
    parseHostPort authority = some (authority, 0) := by
  have hscan := decide_ne_of_not_mem h
  unfold parseHostPort
  rw [List.dropWhile_eq_nil_iff.2 hscan, List.takeWhile_eq_self_iff.2 hscan]

/-- a path without a query or a fragment is read whole -/
theorem pathOf_of_forall {path : List Char} (h : ∀ c ∈ path, c ≠ '?' ∧ c ≠ '#') : pathOf path = path :=
  List.takeWhile_eq_self_iff.2 fun c hc => by simp [(h c hc).1, (h c hc).2]

/-- **The path of the bytes is the bytes of the path.** Read from the UTF-8 bytes, the path is the bytes of the
path read from the characters -/
theorem pathOf_encode (s : List Char) :
    (Utf8.encode s).takeWhile (fun b => !(b == UInt8.ofNat '?'.toNat || b == UInt8.ofNat '#'.toNat)) =
      Utf8.encode (pathOf s) := by
  have hq : '?'.toNat < 128 := by decide
  have hh : '#'.toNat < 128 := by decide
  -- both tests hold past ASCII: no such byte or character is a '?' or a '#'
  have hpq : ∀ c : Char, c.toNat < 128 →
      (!(UInt8.ofNat c.toNat == UInt8.ofNat '?'.toNat || UInt8.ofNat c.toNat == UInt8.ofNat '#'.toNat)) =
        !(c == '?' || c == '#') := fun c hc => by
    rw [Utf8.ofNat_beq_ofNat hc hq, Utf8.ofNat_beq_ofNat hc hh]
  have hp : ∀ c : Char, 128 ≤ c.toNat → (!(c == '?' || c == '#')) = true := fun c hc => by
    rw [Utf8.beq_of_le hc hq, Utf8.beq_of_le hc hh]
    rfl
  have hbyte : ∀ b : UInt8, 128 ≤ b.toNat → (!(b == UInt8.ofNat '?'.toNat || b == UInt8.ofNat '#'.toNat)) = true :=
    fun b hb => by
      rw [Utf8.beq_ofNat_of_le hb hq, Utf8.beq_ofNat_of_le hb hh]
      rfl
  exact Utf8.takeWhile_flatMap (Utf8.scans_ascii hpq hp hbyte) s

/-- after "//", the authority runs to the first delimiter and the path starts there -/
theorem parseHierPart_authority (scheme : List Char) {authority rest : List Char}
    (hauth : ∀ c ∈ authority, isDelimiter c = false) (hrest : ∀ c ∈ rest.head?, isDelimiter c = true) :
    parseHierPart scheme ('/' :: '/' :: (authority ++ rest)) =
      (parseHostPort authority).map fun hostPort => ⟨scheme, hostPort.1, hostPort.2, pathOf rest⟩ := by
  have hscan : ∀ x ∈ authority, (!isDelimiter x) = true := by simpa using hauth
  have hstop : ∀ x ∈ rest.head?, (!isDelimiter x) = false := by simpa using hrest
  simp only [parseHierPart]
  rw [takeWhile_append_stop hscan hstop, dropWhile_append_stop hscan hstop]

/-- without "//" there is no authority, and all of the rest is the path -/
theorem parseHierPart_of_not_slash (scheme : List Char) {rest : List Char} (h : ∀ c ∈ rest.head?, c ≠ '/') :
    parseHierPart scheme rest = some ⟨scheme, [], 0, pathOf rest⟩ := by
  unfold parseHierPart
  split
  · -- "//": excluded by the first character
    simp at h
  · rfl

end OneHelpers.Uri

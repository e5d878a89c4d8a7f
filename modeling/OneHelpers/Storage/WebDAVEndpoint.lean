/-
Model of the endpoint parsing in `WebDAVHelperFactory::createStorageHelper` (`src/webDAVHelper.h`): the `endpoint`
parameter turned into the `Poco::URI` the helper connects to.

1. A scheme is put in front of the endpoint when it holds no ':' ("http://"), and when it does not start with
   "http" ("https://" when ":443" occurs anywhere in it, "http://" otherwise).
2. One trailing '/' is erased. The last character is read as `*(normalizedEndpoint.end() - 1)`, which for an empty
   endpoint is before the string: undefined behaviour, an error of its own here.
3. The text is parsed as a URI reference (`Core/Uri`); a syntax error becomes `std::invalid_argument`.
4. A URL without a host throws `std::invalid_argument`. A URL without a scheme gets one from its port (https for
   443, http otherwise, with port 80 when it has none), and a scheme other than http and https throws. A URL without
   a port then gets 443 for https and 80 for http.

Results:
- `hostPort_endpointUrl`: an endpoint `h:p` without a scheme is refused as having no host when `h` starts with
  "http", and is otherwise given https exactly when the text of `p` starts with "443";
- `otherScheme_endpointUrl`: an endpoint `s://h` whose scheme does not start with "http" is accepted, with host `s`;
- `endpoint_inference_bugs`: the two, and the empty endpoint reaching the read before the string;
- `scheme_endpointUrl`: an endpoint that gives an http or https scheme, a host name, an optional port and a path is
  read as written, with the scheme's default port and without the path's trailing '/'.
-/
import Mathlib.Tactic
import OneHelpers.Core.Uri

namespace OneHelpers.WebDAV

open Text Uri

/-- what reading the endpoint ends with when it does not give a URL -/
inductive EndpointError where
  | invalidArgument (what : String)
  /-- `*(normalizedEndpoint.end() - 1)` on an empty endpoint, which reads before the string -/
  | emptyEndpointDereference
  deriving DecidableEq, Repr

def kHTTPDefaultPort : ℕ := 80

def kHTTPSDefaultPort : ℕ := 443

/-- the scheme put in front of the endpoint, chosen by substring searches on it -/
def schemePrefix (endpoint : List Char) : List Char :=
  if ':' ∉ endpoint then "http://".toList
  -- `endpoint.find("http") != 0`
  else if ¬"http".toList <+: endpoint then
    if ":443".toList <:+: endpoint then "https://".toList else "http://".toList
  else []

/-- the endpoint with one trailing '/' erased; `none` when it is empty -/
def normalizedEndpoint (endpoint : List Char) : Option (List Char) :=
  match endpoint.getLast? with
  | none => none
  | some c => some (if c = '/' then endpoint.dropLast else endpoint)

/-- the scheme set on a URL that has none, from its port -/
def setSchemeFromPort (url : URI) : URI :=
  if url.port = 0 then { url with scheme := "http".toList, port := kHTTPDefaultPort }
  else if url.port = kHTTPSDefaultPort then { url with scheme := "https".toList }
  else { url with scheme := "http".toList }

/-- the port set on a URL that has none, from its scheme -/
def setDefaultPort (url : URI) : URI :=
  if url.port = 0 then
    { url with port := if url.scheme = "https".toList then kHTTPSDefaultPort else kHTTPDefaultPort }
  else url

/-- the checks and defaults applied to the parsed URL -/
def checkEndpointUrl (endpoint : String) (url : URI) : Except EndpointError URI :=
  if url.host = [] then .error (.invalidArgument ("Invalid WebDAV endpoint - missing hostname: " ++ endpoint))
  else if url.scheme = [] then .ok (setDefaultPort (setSchemeFromPort url))
  else if url.scheme ≠ "http".toList ∧ url.scheme ≠ "https".toList then
    .error (.invalidArgument ("Invalid WebDAV endpoint - invalid scheme: " ++ String.ofList url.scheme))
  else .ok (setDefaultPort url)

/-- the `endpointUrl` that `createStorageHelper` builds from the `endpoint` parameter -/
def endpointUrl (endpoint : String) : Except EndpointError URI :=
  let scheme := schemePrefix endpoint.toList
  match normalizedEndpoint endpoint.toList with
  | none => .error .emptyEndpointDereference
  | some normalized =>
    match parse (scheme ++ normalized) with
    | none => .error (.invalidArgument ("Invalid WebDAV endpoint: " ++ endpoint))
    | some url => checkEndpointUrl endpoint url

example : endpointUrl "https://example.com:8443/webdav/" =
    .ok ⟨"https".toList, "example.com".toList, 8443, "/webdav".toList⟩ := by decide

/-! ## Host names and ports -/

/-- a character of a host name: a letter, a digit, '.' or '-' -/
def isHostnameChar (c : Char) : Bool := c.isAlphanum || c == '.' || c == '-'

/-- a non-empty host name -/
def IsHostname (h : List Char) : Prop := h ≠ [] ∧ ∀ c ∈ h, isHostnameChar c = true

/-- a decimal port in 1..65535 -/
def IsPort (p : List Char) : Prop := (∀ c ∈ p, c.isDigit = true) ∧ 0 < digitsValue p ∧ digitsValue p < 65536

/-- a host-name character ends no authority and is no ':' -/
theorem isDelimiter_of_isHostnameChar {c : Char} (h : isHostnameChar c = true) :
    isDelimiter c = false ∧ c ≠ ':' := by
  simp only [isHostnameChar, Bool.or_eq_true, beq_iff_eq] at h
  rcases h with (h | rfl) | rfl
  · -- an alphanumeric character is none of '/', '?', '#' and ':'
    have hne : ∀ d : Char, d.isAlphanum = false → c ≠ d := by
      rintro d hd rfl
      rw [h] at hd
      cases hd
    simp [isDelimiter, hne '/' rfl, hne '?' rfl, hne '#' rfl, hne ':' rfl]
  all_goals decide

theorem isSchemeChar_of_isHostnameChar {c : Char} (h : isHostnameChar c = true) : isSchemeChar c = true := by
  simp only [isHostnameChar, Bool.or_eq_true, beq_iff_eq] at h
  rcases h with (h | rfl) | rfl
  · simp [isSchemeChar, h]
  all_goals decide

theorem isHostnameChar_of_isDigit {c : Char} (h : c.isDigit = true) : isHostnameChar c = true := by
  simp [isHostnameChar, Char.isAlphanum, h]

theorem colon_not_mem_of_hostname {h : List Char} (hchars : ∀ c ∈ h, isHostnameChar c = true) : ':' ∉ h :=
  fun hmem => (isDelimiter_of_isHostnameChar (hchars ':' hmem)).2 rfl

/-- a host name and a port make an authority: no delimiter in them -/
theorem isDelimiter_hostPort {h p : List Char} (hchars : ∀ c ∈ h, isHostnameChar c = true)
    (hdigits : ∀ c ∈ p, c.isDigit = true) : ∀ c ∈ h ++ ':' :: p, isDelimiter c = false := by
  intro c hc
  rcases List.mem_append.1 hc with hh | hp
  · exact (isDelimiter_of_isHostnameChar (hchars c hh)).1
  · rcases List.mem_cons.1 hp with rfl | hp
    · decide
    · exact (isDelimiter_of_isHostnameChar (isHostnameChar_of_isDigit (hdigits c hp))).1

/-- a host name that starts with "http" is also a scheme -/
theorem isScheme_of_startsWith_http {h : List Char} (hchars : ∀ c ∈ h, isHostnameChar c = true)
    (hhttp : "http".toList <+: h) : isScheme h = true := by
  obtain ⟨t, rfl⟩ := hhttp
  have hform : "http".toList ++ t = 'h' :: ("ttp".toList ++ t) := rfl
  rw [hform] at hchars ⊢
  simp only [isScheme]
  exact Bool.and_eq_true_iff.2
    ⟨rfl, List.all_eq_true.2 fun c hc => isSchemeChar_of_isHostnameChar (hchars c (List.mem_cons_of_mem _ hc))⟩

theorem IsPort.ne_nil {p : List Char} (hp : IsPort p) : p ≠ [] := by
  rintro rfl
  exact absurd hp.2.1 (by decide)

/-! ## The steps of the reading -/

/-- an endpoint whose last character is no '/' is kept whole -/
theorem normalizedEndpoint_of_getLast? {endpoint : List Char} {c : Char} (hlast : endpoint.getLast? = some c)
    (hc : c ≠ '/') : normalizedEndpoint endpoint = some endpoint := by
  rw [normalizedEndpoint, hlast]
  simp [hc]

/-- an endpoint that ends in a port has no trailing '/' -/
theorem normalizedEndpoint_hostPort (h : List Char) {p : List Char} (hp : IsPort p) :
    normalizedEndpoint (h ++ ':' :: p) = some (h ++ ':' :: p) := by
  obtain ⟨c, hlast⟩ := Option.isSome_iff_exists.1 (List.getLast?_isSome.2 hp.ne_nil)
  have hc : c ≠ '/' := fun hc => not_mem_of_isDigit hp.1 (c := '/') (by decide) (hc ▸ List.mem_of_getLast? hlast)
  exact normalizedEndpoint_of_getLast? (by rw [List.getLast?_append_cons, List.getLast?_cons, hlast]; rfl) hc

/-- the URL read from a text that parses is the one the checks make of it -/
theorem endpointUrl_of_parse {endpoint normalized : List Char} {url : URI}
    (hnorm : normalizedEndpoint endpoint = some normalized)
    (hparse : parse (schemePrefix endpoint ++ normalized) = some url) :
    endpointUrl (String.ofList endpoint) = checkEndpointUrl (String.ofList endpoint) url := by
  simp only [endpointUrl, String.toList_ofList, hnorm, hparse]

/-- a URL with a host and an http or https scheme passes the checks, with its port defaulted -/
theorem checkEndpointUrl_of_scheme (endpoint : String) {url : URI} (hhost : url.host ≠ [])
    (hs : url.scheme = "http".toList ∨ url.scheme = "https".toList) :
    checkEndpointUrl endpoint url = .ok (setDefaultPort url) := by
  have hne : url.scheme ≠ [] := by rcases hs with hs | hs <;> rw [hs] <;> decide
  have hvalid : ¬(url.scheme ≠ "http".toList ∧ url.scheme ≠ "https".toList) := by
    rcases hs with hs | hs <;> simp [hs]
  rw [checkEndpointUrl, if_neg hhost, if_neg hne, if_neg hvalid]

theorem setDefaultPort_of_ne {url : URI} (hport : url.port ≠ 0) : setDefaultPort url = url := by
  rw [setDefaultPort, if_neg hport]

/-- the scheme put in front of an endpoint `a:b`: none when `a` starts with "http", and otherwise chosen by whether
":443" occurs -/
theorem schemePrefix_of_colon (a b : List Char) :
    schemePrefix (a ++ ':' :: b) =
      if "http".toList <+: a then []
      else if ":443".toList <:+: a ++ ':' :: b then "https://".toList else "http://".toList := by
  have hmem : ':' ∈ a ++ ':' :: b := List.mem_append_right _ List.mem_cons_self
  -- "http" holds no ':', so it starts the endpoint exactly when it starts `a`
  have hhttp : "http".toList <+: a ++ ':' :: b ↔ "http".toList <+: a := prefix_append_cons_iff (by decide)
  unfold schemePrefix
  rw [if_neg (not_not.2 hmem)]
  by_cases hh : "http".toList <+: a
  · rw [if_neg (not_not.2 (hhttp.2 hh)), if_pos hh]
  · rw [if_pos (mt hhttp.1 hh), if_neg hh]

/-- the scheme put in front of `h:p`: none when `h` starts with "http", and otherwise https exactly when ":443"
occurs, that is when the text of `p` starts with "443" -/
theorem schemePrefix_hostPort {h p : List Char} (hcolon : ':' ∉ h) (hdigits : ∀ c ∈ p, c.isDigit = true) :
    schemePrefix (h ++ ':' :: p) =
      if "http".toList <+: h then [] else if "443".toList <+: p then "https://".toList else "http://".toList := by
  have h443 : ":443".toList <:+: h ++ ':' :: p ↔ "443".toList <+: p :=
    cons_infix_append_cons_iff hcolon (not_mem_of_isDigit hdigits (by decide))
  rw [schemePrefix_of_colon h p]
  simp only [h443]

/-- `h:p` put after an http or https scheme is read with that scheme, host `h` and port `p` -/
theorem endpointUrl_of_schemePrefix {h p scheme : List Char} (hh : IsHostname h) (hp : IsPort p)
    (hs : scheme = "http".toList ∨ scheme = "https".toList)
    (hfront : schemePrefix (h ++ ':' :: p) = scheme ++ "://".toList) :
    endpointUrl (String.ofList (h ++ ':' :: p)) = .ok ⟨scheme, h, digitsValue p, []⟩ := by
  obtain ⟨hne, hchars⟩ := hh
  have hscheme : isScheme scheme = true ∧ ':' ∉ scheme := by rcases hs with rfl | rfl <;> decide
  have hform : scheme ++ "://".toList ++ (h ++ ':' :: p) = scheme ++ ':' :: '/' :: '/' :: ((h ++ ':' :: p) ++ []) := by
    simp
  have hparse : parse (scheme ++ "://".toList ++ (h ++ ':' :: p)) = some ⟨scheme, h, digitsValue p, []⟩ := by
    rw [hform, parse_scheme _ hscheme.1 hscheme.2,
      parseHierPart_authority scheme (isDelimiter_hostPort hchars hp.1) (by simp),
      parseHostPort_port (colon_not_mem_of_hostname hchars) hp.1]
    rfl
  rw [endpointUrl_of_parse (normalizedEndpoint_hostPort h hp) (hfront ▸ hparse),
    checkEndpointUrl_of_scheme _ hne hs, setDefaultPort_of_ne (Nat.pos_iff_ne_zero.1 hp.2.1)]

/-! ## What the guesses make of an endpoint -/

/-- **An endpoint `h:p` without a scheme.** When the host name starts with "http" it is read as a scheme, and the
endpoint is refused as having no host. Otherwise the URL has host `h` and port `p`, and its scheme is https exactly
when the text of `p` starts with "443". -/
theorem hostPort_endpointUrl {h p : List Char} (hh : IsHostname h) (hp : IsPort p) :
    endpointUrl (String.ofList (h ++ ':' :: p)) =
      if "http".toList <+: h then
        .error (.invalidArgument ("Invalid WebDAV endpoint - missing hostname: " ++ String.ofList (h ++ ':' :: p)))
      else .ok ⟨if "443".toList <+: p then "https".toList else "http".toList, h, digitsValue p, []⟩ := by
  have hcolon := colon_not_mem_of_hostname hh.2
  have hfront := schemePrefix_hostPort hcolon hp.1
  by_cases hhttp : "http".toList <+: h
  · -- the host name is read as the scheme and the port as a path, which leaves no host
    rw [if_pos hhttp] at hfront ⊢
    have hhead : ∀ c ∈ p.head?, c ≠ '/' := fun c hc hslash =>
      not_mem_of_isDigit hp.1 (c := '/') (by decide) (hslash ▸ List.mem_of_mem_head? hc)
    have hparse : parse (schemePrefix (h ++ ':' :: p) ++ (h ++ ':' :: p)) = some ⟨h, [], 0, pathOf p⟩ := by
      rw [hfront, List.nil_append, parse_scheme p (isScheme_of_startsWith_http hh.2 hhttp) hcolon,
        parseHierPart_of_not_slash h hhead]
    rw [endpointUrl_of_parse (normalizedEndpoint_hostPort h hp) hparse, checkEndpointUrl, if_pos rfl]
  · rw [if_neg hhttp] at hfront ⊢
    by_cases h443 : "443".toList <+: p
    · rw [if_pos h443] at hfront ⊢
      exact endpointUrl_of_schemePrefix hh hp (Or.inr rfl) hfront
    · rw [if_neg h443] at hfront ⊢
      exact endpointUrl_of_schemePrefix hh hp (Or.inl rfl) hfront

/-- **An endpoint `s://h` with another scheme.** When `s` does not start with "http", "http://" is put in front of
the endpoint, and the URL read has scheme http, host `s`, the default port 80 and the path "//h". -/
theorem otherScheme_endpointUrl {s h : List Char} (hs : IsHostname s) (hhttp : ¬"http".toList <+: s)
    (hh : IsHostname h) :
    endpointUrl (String.ofList (s ++ ':' :: '/' :: '/' :: h)) = .ok ⟨"http".toList, s, 80, '/' :: '/' :: h⟩ := by
  have hscolon := colon_not_mem_of_hostname hs.2
  have hdelim : ∀ c ∈ h, isDelimiter c = false := fun c hc => (isDelimiter_of_isHostnameChar (hh.2 c hc)).1
  -- ':' stands once, before "//", so ":443" does not occur
  have hfront : schemePrefix (s ++ ':' :: '/' :: '/' :: h) = "http://".toList := by
    have hrest : ':' ∉ '/' :: '/' :: h := by
      simpa using colon_not_mem_of_hostname hh.2
    have h443 : ¬":443".toList <:+: s ++ ':' :: '/' :: '/' :: h := by
      rw [show ":443".toList = ':' :: "443".toList from rfl, cons_infix_append_cons_iff hscolon hrest]
      simp
    rw [schemePrefix_of_colon s _, if_neg hhttp, if_neg h443]
  have hnorm : normalizedEndpoint (s ++ ':' :: '/' :: '/' :: h) = some (s ++ ':' :: '/' :: '/' :: h) := by
    obtain ⟨c, hlast⟩ := Option.isSome_iff_exists.1 (List.getLast?_isSome.2 hh.1)
    have hc : c ≠ '/' := (isDelimiter_eq_false_iff.1 (hdelim c (List.mem_of_getLast? hlast))).1
    have hsplit : s ++ ':' :: '/' :: '/' :: h = (s ++ [':', '/', '/']) ++ h := by simp
    exact normalizedEndpoint_of_getLast? (by rw [hsplit, List.getLast?_append, hlast]; rfl) hc
  have hpath : pathOf ('/' :: '/' :: h) = '/' :: '/' :: h := pathOf_of_forall fun c hc => by
    rcases List.mem_cons.1 hc with rfl | hc
    · decide
    rcases List.mem_cons.1 hc with rfl | hc
    · decide
    exact (isDelimiter_eq_false_iff.1 (hdelim c hc)).2
  have hform : "http://".toList ++ (s ++ ':' :: '/' :: '/' :: h) =
      "http".toList ++ ':' :: '/' :: '/' :: ((s ++ [':']) ++ '/' :: '/' :: h) := by
    simp
  have hparse : parse (schemePrefix (s ++ ':' :: '/' :: '/' :: h) ++ (s ++ ':' :: '/' :: '/' :: h)) =
      some ⟨"http".toList, s, 0, '/' :: '/' :: h⟩ := by
    rw [hfront, hform, parse_scheme _ (by decide) (by decide),
      parseHierPart_authority _ (isDelimiter_hostPort hs.2 (p := []) (by simp)) (by simp [isDelimiter]),
      parseHostPort_port hscolon (by simp), hpath]
    rfl
  rw [endpointUrl_of_parse hnorm hparse, checkEndpointUrl_of_scheme _ hs.1 (Or.inl rfl), setDefaultPort, if_pos rfl]
  rfl

/-- **The endpoint's scheme and host are guessed from substrings.** An endpoint `h:p` whose host name starts with
"http" is refused as having no host, and for any other host name the scheme is https exactly when the port's text
starts with "443" (so for 4430 too, and not for 0443); an endpoint `s://h` whose scheme does not start with "http"
is accepted with host `s` instead of being refused; and the empty endpoint reaches the read before the string. -/
theorem endpoint_inference_bugs :
    (∀ h p, IsHostname h → IsPort p →
      endpointUrl (String.ofList (h ++ ':' :: p)) =
        if "http".toList <+: h then
          .error (.invalidArgument ("Invalid WebDAV endpoint - missing hostname: " ++ String.ofList (h ++ ':' :: p)))
        else .ok ⟨if "443".toList <+: p then "https".toList else "http".toList, h, digitsValue p, []⟩) ∧
    (∀ s h, IsHostname s → ¬"http".toList <+: s → IsHostname h →
      endpointUrl (String.ofList (s ++ ':' :: '/' :: '/' :: h)) = .ok ⟨"http".toList, s, 80, '/' :: '/' :: h⟩) ∧
    endpointUrl "" = .error .emptyEndpointDereference :=
  ⟨fun _ _ hh hp => hostPort_endpointUrl hh hp, fun _ _ hs hhttp hh => otherScheme_endpointUrl hs hhttp hh,
    by decide⟩

theorem endpoint_inference_bugs_httpbin :
    endpointUrl "httpbin.org:8080" =
        .error (.invalidArgument "Invalid WebDAV endpoint - missing hostname: httpbin.org:8080") ∧
      endpointUrl "example.com:4430" = .ok ⟨"https".toList, "example.com".toList, 4430, []⟩ ∧
      endpointUrl "ftp://example.com" = .ok ⟨"http".toList, "ftp".toList, 80, "//example.com".toList⟩ := by
  obtain ⟨hhostPort, hother, -⟩ := endpoint_inference_bugs
  have hhttpbin := hhostPort "httpbin.org".toList "8080".toList ⟨by decide, List.all_eq_true.1 (by decide)⟩
    ⟨List.all_eq_true.1 (by decide), by decide, by decide⟩
  have hexample := hhostPort "example.com".toList "4430".toList ⟨by decide, List.all_eq_true.1 (by decide)⟩
    ⟨List.all_eq_true.1 (by decide), by decide, by decide⟩
  have hftp := hother "ftp".toList "example.com".toList ⟨by decide, List.all_eq_true.1 (by decide)⟩ (by decide)
    ⟨by decide, List.all_eq_true.1 (by decide)⟩
  rw [if_pos (by decide)] at hhttpbin
  rw [if_neg (by decide), if_pos (by decide)] at hexample
  refine ⟨?_, ?_, ?_⟩
  · rw [show "httpbin.org:8080" = String.ofList ("httpbin.org".toList ++ ':' :: "8080".toList) by decide]
    exact hhttpbin
  · rw [show "example.com:4430" = String.ofList ("example.com".toList ++ ':' :: "4430".toList) by decide]
    exact hexample
  · rw [show "ftp://example.com" = String.ofList ("ftp".toList ++ ':' :: '/' :: '/' :: "example.com".toList) by decide]
    exact hftp

/-! ## Endpoints that give their scheme -/

/-- the text of an optional port: ':' and its digits -/
def portText : Option (List Char) → List Char
  | none => []
  | some p => ':' :: p

/-- a path with one trailing '/' erased -/
def dropTrailingSlash (path : List Char) : List Char := if path.getLast? = some '/' then path.dropLast else path

/-- the port an endpoint `scheme://h[:p]` names: `p`, or 443 for https and 80 for http -/
def portOrDefault (scheme : List Char) : Option (List Char) → ℕ
  | some p => digitsValue p
  | none => if scheme = "https".toList then 443 else 80

theorem mem_of_mem_dropTrailingSlash {path : List Char} {c : Char} (h : c ∈ dropTrailingSlash path) : c ∈ path := by
  unfold dropTrailingSlash at h
  split at h
  · exact List.dropLast_subset _ h
  · exact h

theorem head?_dropTrailingSlash {path : List Char} {c : Char} (h : c ∈ (dropTrailingSlash path).head?) :
    c ∈ path.head? := by
  unfold dropTrailingSlash at h
  split at h
  · rw [List.head?_dropLast] at h
    split at h
    · exact h
    · cases h
  · exact h

/-- erasing the trailing '/' of an endpoint erases it from its path, when the text before the path ends otherwise -/
theorem normalizedEndpoint_append {a path : List Char} {c : Char} (ha : a.getLast? = some c) (hc : c ≠ '/') :
    normalizedEndpoint (a ++ path) = some (a ++ dropTrailingSlash path) := by
  cases path with
  | nil =>
    rw [List.append_nil, normalizedEndpoint_of_getLast? ha hc, dropTrailingSlash, if_neg (by simp), List.append_nil]
  | cons x xs =>
    obtain ⟨d, hd⟩ := Option.isSome_iff_exists.1 (List.getLast?_isSome.2 (List.cons_ne_nil x xs))
    have hlast : (a ++ x :: xs).getLast? = some d := by rw [List.getLast?_append, hd]; rfl
    rw [normalizedEndpoint, hlast, dropTrailingSlash, hd]
    by_cases hslash : d = '/'
    · simp [hslash, List.dropLast_append_of_ne_nil (List.cons_ne_nil x xs)]
    · simp [hslash]

/-- the host and the port an authority `h[:p]` is read as -/
theorem parseHostPort_portText {h : List Char} (hchars : ∀ c ∈ h, isHostnameChar c = true) {port : Option (List Char)}
    (hport : ∀ p ∈ port, IsPort p) : parseHostPort (h ++ portText port) = some (h, (port.map digitsValue).getD 0) := by
  cases port with
  | none => rw [portText, List.append_nil, parseHostPort_of_colon_not_mem (colon_not_mem_of_hostname hchars)]; rfl
  | some p => exact parseHostPort_port (colon_not_mem_of_hostname hchars) (hport p rfl).1

/-- an authority `h[:p]` holds no delimiter and ends in a host-name character -/
theorem portText_authority {h : List Char} (hh : IsHostname h) {port : Option (List Char)}
    (hport : ∀ p ∈ port, IsPort p) :
    (∀ c ∈ h ++ portText port, isDelimiter c = false) ∧
      ∃ c, (h ++ portText port).getLast? = some c ∧ isHostnameChar c = true := by
  cases port with
  | none =>
    obtain ⟨c, hc⟩ := Option.isSome_iff_exists.1 (List.getLast?_isSome.2 hh.1)
    refine ⟨fun c hc => ?_, c, by rw [portText, List.append_nil, hc], hh.2 c (List.mem_of_getLast? hc)⟩
    rw [portText, List.append_nil] at hc
    exact (isDelimiter_of_isHostnameChar (hh.2 c hc)).1
  | some p =>
    have hp := hport p rfl
    obtain ⟨c, hc⟩ := Option.isSome_iff_exists.1 (List.getLast?_isSome.2 hp.ne_nil)
    refine ⟨isDelimiter_hostPort hh.2 hp.1, c, ?_, isHostnameChar_of_isDigit (hp.1 c (List.mem_of_getLast? hc))⟩
    rw [portText, List.getLast?_append_cons, List.getLast?_cons, hc]
    rfl

theorem setDefaultPort_portOrDefault {scheme h path : List Char} {port : Option (List Char)}
    (hport : ∀ p ∈ port, IsPort p) :
    setDefaultPort ⟨scheme, h, (port.map digitsValue).getD 0, path⟩ = ⟨scheme, h, portOrDefault scheme port, path⟩ := by
  cases port with
  | none =>
    dsimp only [setDefaultPort, Option.map_none, Option.getD_none]
    rw [if_pos rfl]
    rfl
  | some p => exact setDefaultPort_of_ne (Nat.pos_iff_ne_zero.1 (hport p rfl).2.1)

/-- **An endpoint that gives its scheme is read as written.** For an http or https scheme, a host name, an optional
port in 1..65535 and a path that starts with '/' and has no query or fragment, the URL has that scheme and host,
the port given or the scheme's default, and the path without its trailing '/'. -/
theorem scheme_endpointUrl {scheme h path : List Char} (port : Option (List Char))
    (hs : scheme = "http".toList ∨ scheme = "https".toList) (hh : IsHostname h) (hport : ∀ p ∈ port, IsPort p)
    (hpath : ∀ c ∈ path.head?, c = '/') (hquery : ∀ c ∈ path, c ≠ '?' ∧ c ≠ '#') :
    endpointUrl (String.ofList (scheme ++ ':' :: '/' :: '/' :: (h ++ portText port ++ path))) =
      .ok ⟨scheme, h, portOrDefault scheme port, dropTrailingSlash path⟩ := by
  obtain ⟨hauth, c, hlast, hc⟩ := portText_authority hh hport
  have hscheme : isScheme scheme = true ∧ ':' ∉ scheme ∧ "http".toList <+: scheme := by
    rcases hs with rfl | rfl <;> decide
  -- the endpoint starts with "http" and holds a ':', so nothing is put in front of it
  have hfront : schemePrefix (scheme ++ ':' :: '/' :: '/' :: (h ++ portText port ++ path)) = [] := by
    rw [schemePrefix_of_colon scheme _, if_pos hscheme.2.2]
  have hnorm : normalizedEndpoint (scheme ++ ':' :: '/' :: '/' :: (h ++ portText port ++ path)) =
      some (scheme ++ ':' :: '/' :: '/' :: (h ++ portText port ++ dropTrailingSlash path)) := by
    have hsplit : ∀ rest : List Char, scheme ++ ':' :: '/' :: '/' :: (h ++ portText port ++ rest) =
        (scheme ++ [':', '/', '/'] ++ (h ++ portText port)) ++ rest := by simp
    have ha : (scheme ++ [':', '/', '/'] ++ (h ++ portText port)).getLast? = some c := by
      rw [List.getLast?_append, hlast]
      rfl
    rw [hsplit, hsplit, normalizedEndpoint_append ha (isDelimiter_eq_false_iff.1 (isDelimiter_of_isHostnameChar hc).1).1]
  have hrest : ∀ c ∈ (dropTrailingSlash path).head?, isDelimiter c = true := fun c hc => by
    rw [hpath c (head?_dropTrailingSlash hc)]
    rfl
  have hparse : parse (schemePrefix (scheme ++ ':' :: '/' :: '/' :: (h ++ portText port ++ path)) ++
      scheme ++ ':' :: '/' :: '/' :: (h ++ portText port ++ dropTrailingSlash path)) =
        some ⟨scheme, h, (port.map digitsValue).getD 0, dropTrailingSlash path⟩ := by
    rw [hfront, List.nil_append, parse_scheme _ hscheme.1 hscheme.2.1, parseHierPart_authority scheme hauth hrest,
      parseHostPort_portText hh.2 hport,
      pathOf_of_forall fun c hc => hquery c (mem_of_mem_dropTrailingSlash hc)]
    rfl
  rw [endpointUrl_of_parse hnorm (List.append_assoc _ _ _ ▸ hparse), checkEndpointUrl_of_scheme _ hh.1 hs,
    setDefaultPort_portOrDefault hport]

theorem scheme_endpointUrl_webdav :
    endpointUrl "https://example.com/webdav/" = .ok ⟨"https".toList, "example.com".toList, 443, "/webdav".toList⟩ := by
  have := @scheme_endpointUrl "https".toList "example.com".toList "/webdav/".toList none
    (Or.inr rfl) ⟨by decide, List.all_eq_true.1 (by decide)⟩ (fun _ h => absurd h (by simp)) (by simp)
    fun c hc => of_decide_eq_true ((List.all_eq_true (p := fun c => decide (c ≠ '?' ∧ c ≠ '#'))).1 (by decide) c hc)
  rw [show "https://example.com/webdav/" =
    String.ofList ("https".toList ++ ':' :: '/' :: '/' :: ("example.com".toList ++ portText none ++ "/webdav/".toList))
    by decide]
  rw [this]
  rfl

end OneHelpers.WebDAV

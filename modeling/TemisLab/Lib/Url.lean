/-
  URLs: Python's `urlsplit`, with what makes it raise, and where a reference leads, by RFC 3986
  and by the URL standard that browsers follow.

  `Tables` stands for what `urlsplit` asks of other modules. A reference is followed only as far
  as the origin it leads to.

  * `urlsplit_eq_none`: it raises for a malformed authority and for nothing else.
  * `Local`: a path from the root, without what a browser reads as a slash or leaves out.
  * `urlsplit_local`, `rfcOrigin_local`, `whatwgOrigin_local`: it names no authority, to
    `urlsplit` or by the two standards.
-/
import Mathlib.Data.List.TakeWhile

namespace TemisLab.Lib.Url

/-! ## `urlsplit` -/

/-- `unicodedata.normalize('NFKC', ·)`, and whether `ipaddress.ip_address` gives an
    `IPv6Address`. -/
structure Tables where
  nfkc : List Char → List Char
  isIpv6 : List Char → Bool

structure SplitResult where
  scheme : List Char
  netloc : List Char
  path : List Char
  query : List Char
  fragment : List Char
  deriving DecidableEq, Repr

/-- A C0 control or a space. -/
def isControlOrSpace (c : Char) : Bool := c.toNat ≤ 0x20

/-- `_UNSAFE_URL_BYTES_TO_REMOVE`. -/
def isTabOrNewline (c : Char) : Bool := c == '\t' || c == '\r' || c == '\n'

def isAlpha (c : Char) : Bool := ('a' ≤ c ∧ c ≤ 'z') ∨ ('A' ≤ c ∧ c ≤ 'Z')

def isHex (c : Char) : Bool :=
  ('a' ≤ c ∧ c ≤ 'f') ∨ ('A' ≤ c ∧ c ≤ 'F') ∨ ('0' ≤ c ∧ c ≤ '9')

/-- `scheme_chars`. -/
def isSchemeChar (c : Char) : Bool :=
  isAlpha c ∨ ('0' ≤ c ∧ c ≤ '9') ∨ c = '+' ∨ c = '-' ∨ c = '.'

/-- What ends an authority. -/
def endsAuthority (c : Char) : Bool := c == '/' || c == '?' || c == '#'

/-- The text before the first `c`, and the one behind it. -/
def partition (c : Char) (cs : List Char) : List Char × List Char :=
  (cs.takeWhile (· != c), (cs.dropWhile (· != c)).drop 1)

/-- The scheme of a text and what follows its colon, if the text has one. -/
def schemeOf (cs : List Char) : Option (List Char × List Char) :=
  let (head, rest) := partition ':' cs
  if ':' ∈ cs ∧ head.head?.any isAlpha ∧ head.all isSchemeChar then
    some (head.map Char.toLower, rest)
  else none

/-- The authority of a text behind two slashes, and what follows it. -/
def authorityOf : List Char → Option (List Char × List Char)
  | '/' :: '/' :: cs =>
      some (cs.takeWhile fun c => !endsAuthority c, cs.dropWhile fun c => !endsAuthority c)
  | _ => none

/-- `url.lstrip(…)` without tabs and newlines. -/
def cleaned (cs : List Char) : List Char :=
  (cs.dropWhile isControlOrSpace).filter fun c => !isTabOrNewline c

/-- `_check_bracketed_host` returns. -/
def bracketedHost (t : Tables) : List Char → Bool
  | 'v' :: cs =>
      match cs.dropWhile isHex with
      | '.' :: tail => cs.takeWhile isHex ≠ [] ∧ tail ≠ [] ∧ '\n' ∉ tail
      | _ => false
  | host => t.isIpv6 host

/-- `_check_bracketed_netloc` returns. -/
def bracketedNetloc (t : Tables) (netloc : List Char) : Bool :=
  let hostnameAndPort := (netloc.reverse.takeWhile (· != '@')).reverse
  if '[' ∈ hostnameAndPort then
    let (before, bracketed) := partition '[' hostnameAndPort
    let (hostname, port) := partition ']' bracketed
    before = [] ∧ (port = [] ∨ port.head? = some ':') ∧ bracketedHost t hostname
  else bracketedHost t (partition ':' hostnameAndPort).1

/-- `_checknetloc` returns. -/
def checknetloc (t : Tables) (netloc : List Char) : Bool :=
  let n := netloc.filter fun c => c ∉ ['@', ':', '#', '?']
  netloc.all (·.toNat < 0x80) || t.nfkc n == n ||
    ['/', '?', '#', '@', ':'].all fun c => !(t.nfkc n).contains c

/-- An authority that `urlsplit` takes: its brackets come in pairs and stand around an IPv6 or a
    later address, and none of its characters stands for a delimiter. -/
def wellFormed (t : Tables) (netloc : List Char) : Bool :=
  ('[' ∈ netloc ↔ ']' ∈ netloc) ∧ ('[' ∈ netloc → bracketedNetloc t netloc) ∧ checknetloc t netloc

/-- The authority `urlsplit` finds. -/
def netlocOf (url : List Char) : List Char :=
  let url := cleaned url
  let rest := (schemeOf url).elim url Prod.snd
  (authorityOf rest).elim [] Prod.fst

/-- `urlsplit`; `none` is a `ValueError`. -/
def urlsplit (t : Tables) (url : List Char) : Option SplitResult :=
  let url := cleaned url
  let (scheme, url) := (schemeOf url).getD ([], url)
  let (netloc, url) := (authorityOf url).getD ([], url)
  if wellFormed t netloc then
    let (url, fragment) := partition '#' url
    let (path, query) := partition '?' url
    some { scheme, netloc, path, query, fragment }
  else none

/-! ## References -/

/-- A scheme and an authority. -/
structure Origin where
  scheme : List Char
  authority : List Char
  deriving DecidableEq, Repr

/-- The scheme by the expression of RFC 3986, appendix B: `([^:/?#]+):`. -/
def rfcScheme (cs : List Char) : Option (List Char × List Char) :=
  let stops := fun c : Char => c == ':' || endsAuthority c
  match cs.takeWhile (fun c => !stops c), cs.dropWhile (fun c => !stops c) with
  | c :: head, ':' :: rest => some (c :: head, rest)
  | _, _ => none

/-- Section 5.2.2, as far as the origin. -/
def rfcOrigin (base : Origin) (reference : List Char) : Origin :=
  match rfcScheme reference with
  | some (scheme, rest) => ⟨scheme, ((authorityOf rest).map Prod.fst).getD []⟩
  | none =>
      match authorityOf reference with
      | some (authority, _) => ⟨base.scheme, authority⟩
      | none => base

/-- Where the URL parser of a browser ends: at the origin of the base, at the authority that a text
    begins with, or at a URL that is not one of the web. -/
inductive Destination where
  | own
  | authority (scheme rest : List Char)
  | other
  deriving DecidableEq, Repr

def isSlash (c : Char) : Bool := c == '/' || c == '\\'

/-- The relative state and the relative slash state, with a base whose scheme is special. -/
def relative (baseScheme : List Char) : List Char → Destination
  | c :: d :: cs =>
      if isSlash c && isSlash d then .authority baseScheme (cs.dropWhile isSlash) else .own
  | _ => .own

/-- The special schemes but `file`. -/
def specialSchemes : List (List Char) :=
  ["http".toList, "https".toList, "ws".toList, "wss".toList, "ftp".toList]

/-- The basic URL parser with an HTTP base, as far as the origin. -/
def whatwgOrigin (baseScheme : List Char) (input : List Char) : Destination :=
  let stripped := (input.dropWhile isControlOrSpace).reverse.dropWhile isControlOrSpace
  let cs := stripped.reverse.filter fun c => !isTabOrNewline c
  match schemeOf cs with
  | none => relative baseScheme cs
  | some (scheme, rest) =>
      if scheme ∈ specialSchemes then
        if scheme = baseScheme ∧ ¬ (['/', '/'] <+: rest) then relative baseScheme rest
        else .authority scheme (rest.dropWhile isSlash)
      else .other

/-! ## Laws -/

theorem urlsplit_eq_none {t : Tables} {url : List Char} :
    urlsplit t url = none ↔ wellFormed t (netlocOf url) = false := by
  unfold urlsplit netlocOf
  dsimp only
  cases hs : schemeOf (cleaned url) with
  | none =>
      cases ha : authorityOf (cleaned url) with
      | none => simp [ha]
      | some a => simp [ha]
  | some s =>
      cases ha : authorityOf s.2 with
      | none => simp [ha]
      | some a => simp [ha]

/-! ## Local paths -/

/-- A path from the root whose second character opens no authority, without control characters
    and backslashes. -/
structure Local (cs : List Char) : Prop where
  root : cs.head? = some '/'
  second : ∀ c ∈ cs[1]?, c ≠ '/' ∧ c ≠ '\\'
  plain : ∀ c ∈ cs, 32 ≤ c.toNat ∧ c ≠ '\\'

theorem Local.eq_cons {cs : List Char} (h : Local cs) :
    ∃ rest, cs = '/' :: rest ∧ ∀ c ∈ rest.head?, isSlash c = false := by
  cases cs with
  | nil => cases h.root
  | cons c rest =>
      refine ⟨rest, congrArg (· :: rest) (Option.some.inj h.root), ?_⟩
      intro d hd
      have hget : (c :: rest)[1]? = some d := by
        rw [List.getElem?_cons_succ, ← List.head?_eq_getElem?]
        exact hd
      have hsecond := h.second d hget
      simp [isSlash, hsecond.1, hsecond.2]

theorem isTabOrNewline_plain {c : Char} (h : 32 ≤ c.toNat) : isTabOrNewline c = false := by
  simp only [isTabOrNewline, Bool.or_eq_false_iff, beq_eq_false_iff_ne]
  refine ⟨⟨?_, ?_⟩, ?_⟩ <;>
  · rintro rfl
    revert h
    decide

/-- A text from the root has no scheme. -/
theorem schemeOf_slash (rest : List Char) : schemeOf ('/' :: rest) = none := by
  have hhead : ('/' :: rest).takeWhile (· != ':') = '/' :: rest.takeWhile (· != ':') := rfl
  have halpha : isAlpha '/' = false := by decide
  simp [schemeOf, partition, hhead, halpha]

theorem rfcScheme_slash (rest : List Char) : rfcScheme ('/' :: rest) = none := rfl

theorem authorityOf_slash {rest : List Char} (h : ∀ c ∈ rest.head?, isSlash c = false) :
    authorityOf ('/' :: rest) = none := by
  cases rest with
  | nil => rfl
  | cons c rest =>
      have hc : c ≠ '/' := by
        rintro rfl
        cases h '/' rfl
      simp [authorityOf, hc]

theorem rfcOrigin_local {cs : List Char} (h : Local cs) (base : Origin) :
    rfcOrigin base cs = base := by
  obtain ⟨rest, rfl, hrest⟩ := h.eq_cons
  simp only [rfcOrigin, rfcScheme_slash, authorityOf_slash hrest]

theorem relative_slash {rest : List Char} (h : ∀ c ∈ rest.head?, isSlash c = false)
    (baseScheme : List Char) : relative baseScheme ('/' :: rest) = .own := by
  cases rest with
  | nil => rfl
  | cons c rest => simp [relative, h c rfl]

/-- What is stripped from the end of a text from the root leaves its beginning. -/
theorem strip_end_slash (rest : List Char) :
    ∃ rest', (('/' :: rest).reverse.dropWhile isControlOrSpace).reverse = '/' :: rest' ∧
      rest' <+: rest := by
  have hprefix : (('/' :: rest).reverse.dropWhile isControlOrSpace).reverse <+: '/' :: rest := by
    rw [← List.reverse_suffix, List.reverse_reverse]
    exact List.dropWhile_suffix _
  rcases List.prefix_cons_iff.mp hprefix with hnil | ⟨rest', he, hrest⟩
  · -- the slash itself is not stripped
    rw [List.reverse_eq_nil_iff, List.dropWhile_eq_nil_iff] at hnil
    exact absurd (hnil '/' (by simp)) (by decide)
  · exact ⟨rest', he, hrest⟩

theorem whatwgOrigin_local {cs : List Char} (h : Local cs) (baseScheme : List Char) :
    whatwgOrigin baseScheme cs = .own := by
  obtain ⟨rest, rfl, hrest⟩ := h.eq_cons
  obtain ⟨rest', hstrip, hprefix⟩ := strip_end_slash rest
  have hkept : ('/' :: rest').filter (fun c => !isTabOrNewline c) = '/' :: rest' := by
    rw [List.filter_eq_self]
    intro c hc
    have hcs : c ∈ '/' :: rest := ((List.cons_prefix_cons.mpr ⟨rfl, hprefix⟩).subset hc)
    rw [isTabOrNewline_plain (h.plain c hcs).1]
    rfl
  have hhead : ∀ c ∈ rest'.head?, isSlash c = false := by
    intro c hc
    obtain ⟨tail, rfl⟩ := hprefix
    cases rest' with
    | nil => cases hc
    | cons d rest' => exact hrest c hc
  have hfirst : ('/' :: rest).dropWhile isControlOrSpace = '/' :: rest := rfl
  unfold whatwgOrigin
  simp only [hfirst, hstrip, hkept, schemeOf_slash, relative_slash hhead]

theorem wellFormed_nil (t : Tables) : wellFormed t [] = true := by
  simp [wellFormed, checknetloc]

/-- A local path is split, and has neither a scheme nor an authority. -/
theorem urlsplit_local {cs : List Char} (h : Local cs) (t : Tables) :
    ∃ r, urlsplit t cs = some r ∧ r.scheme = [] ∧ r.netloc = [] := by
  obtain ⟨rest, rfl, hrest⟩ := h.eq_cons
  have hclean : cleaned ('/' :: rest) = '/' :: rest := by
    have hfirst : ('/' :: rest).dropWhile isControlOrSpace = '/' :: rest := rfl
    rw [cleaned, hfirst, List.filter_eq_self]
    intro c hc
    rw [isTabOrNewline_plain (h.plain c hc).1]
    rfl
  have hsplit : urlsplit t ('/' :: rest) =
      some ⟨[], [], (partition '?' (partition '#' ('/' :: rest)).1).1,
        (partition '?' (partition '#' ('/' :: rest)).1).2, (partition '#' ('/' :: rest)).2⟩ := by
    simp only [urlsplit, hclean, schemeOf_slash, Option.getD_none, authorityOf_slash hrest,
      wellFormed_nil, if_true]
  exact ⟨_, hsplit, rfl, rfl⟩

end TemisLab.Lib.Url

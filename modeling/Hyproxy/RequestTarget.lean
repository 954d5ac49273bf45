import Hyproxy.DotSegments
import Hyproxy.PercentCoding
import Hyproxy.Utf8
import Mathlib.Data.Bool.AllAny

/-!
The target of a request as Go's `net/url` keeps it. The path is stored decoded,
with the raw spelling beside it when the default encoding of the decoded path
is another one; a text that follows its scheme without a slash is stored as it
is. `RequestURI` puts the target together again. What the control plane is
asked about is the result, read as UTF-8 and cut at the first question mark.
-/
namespace Hyproxy.RequestTarget

open PercentCoding

def unreserved (c : Char) : Bool :=
  ('a' ≤ c && c ≤ 'z') || ('A' ≤ c && c ≤ 'Z') || ('0' ≤ c && c ≤ '9') ||
    c == '-' || c == '_' || c == '.' || c == '~'

/-- `shouldEscape` in the mode `encodePath`. -/
def shouldEscapePath (c : Char) : Bool :=
  !(unreserved c || "$&+,/:;=@".toList.contains c)

def escapePath (path : List Char) : List Char := escape (fun c => !shouldEscapePath c) path

def validPathChar (c : Char) : Bool :=
  "!$&'()*+,;=:@".toList.contains c || "[]".toList.contains c || c == '%' || !shouldEscapePath c

/-- `validEncoded`: nothing in the text needs escaping, apart from its own triples. -/
def validEncoded (s : List Char) : Bool := s.all validPathChar

/-- A target the server has read: its scheme, if any, what follows the scheme and the
authority, cut at the first question mark, and the query after it. A space ends the
target in the request line; the pseudo-header of HTTP/2 may hold one, and it starts
with a slash. -/
structure Target where
  scheme : List Char
  rawPath : List Char
  query : Option (List Char)
  bytes : ∀ c ∈ rawPath, IsByte c
  printable : ∀ c ∈ rawPath, ¬ (c.toNat < 0x20 ∨ c.toNat = 0x7f)
  unbroken : ' ' ∈ rawPath → ∃ rest, rawPath = '/' :: rest
  cut : '?' ∉ rawPath

structure Url where
  path : List Char
  rawPath : List Char
  rawQuery : List Char
  forceQuery : Bool
  scheme : List Char
  opaquePart : List Char
  deriving Repr, DecidableEq

/-- `setPath` on the raw path; a broken escape is a bad request. -/
def Target.setPath (t : Target) : Option Url :=
  (unescape t.rawPath).map (fun path =>
    { path := path
      rawPath := if t.rawPath = escapePath path then [] else t.rawPath
      rawQuery := t.query.getD []
      forceQuery := t.query = some []
      scheme := t.scheme
      opaquePart := [] })

/-- A text without a slash in front stays as it is. -/
def Target.afterScheme (t : Target) : Url where
  path := []
  rawPath := []
  rawQuery := t.query.getD []
  forceQuery := t.query = some []
  scheme := t.scheme
  opaquePart := t.rawPath

/-- `ParseRequestURI`, once the target is cut. -/
def Target.url (t : Target) : Option Url :=
  if t.scheme = [] ∧ t.rawPath = "*".toList ∧ t.query = none then
    some ⟨"*".toList, [], [], false, [], []⟩
  else if "/".toList <+: t.rawPath then t.setPath
  else if t.scheme = [] then none
  else if t.rawPath = [] then t.setPath
  else some t.afterScheme

def Url.escapedPath (u : Url) : List Char :=
  if u.rawPath ≠ [] ∧ validEncoded u.rawPath = true ∧ unescape u.rawPath = some u.path then
    u.rawPath
  else if u.path = "*".toList then "*".toList
  else escapePath u.path

/-- The part of `RequestURI` before the query. -/
def Url.requestPath (u : Url) : List Char :=
  if u.opaquePart = [] then (if u.escapedPath = [] then "/".toList else u.escapedPath)
  else if "//".toList <+: u.opaquePart then u.scheme ++ ':' :: u.opaquePart
  else u.opaquePart

def Url.requestURI (u : Url) : List Char :=
  if u.forceQuery ∨ u.rawQuery ≠ [] then u.requestPath ++ '?' :: u.rawQuery else u.requestPath

/-- `(body.uri or "/").split("?", 1)[0]`, the path that `check` works with. -/
def checkPath (uri : List Char) : List Char :=
  (if uri = [] then "/".toList else uri).takeWhile (· ≠ '?')

/-- The path of the check for a request: the data plane sends the target as JSON text. -/
def Url.asked (u : Url) : List Char := checkPath (Utf8.decode false u.requestURI)

/-- Valid for a URL path and decodable. -/
def WellEscaped (s : List Char) : Prop := validEncoded s = true ∧ (unescape s).isSome

def Rooted (s : List Char) : Prop := ∃ rest, s = '/' :: rest

/-- A text that can follow a scheme without a slash. -/
structure Rootless (s : List Char) : Prop where
  nonempty : s ≠ []
  rootless : ¬ Rooted s
  chars : ∀ c ∈ s, 0x20 < c.toNat ∧ c.toNat ≠ 0x7f ∧ c ≠ '?'

/-- A path that the control plane can be asked about. -/
def Asked (s : List Char) : Prop := (Rooted s ∧ WellEscaped s) ∨ Rootless s

theorem validEncoded_append (left right : List Char) :
    validEncoded (left ++ right) = true ↔ validEncoded left = true ∧ validEncoded right = true := by
  simp [validEncoded]

theorem unreserved_lt (c : Char) (hc : unreserved c = true) : c.toNat < 128 := by
  simp only [unreserved, Bool.or_eq_true, Bool.and_eq_true, decide_eq_true_eq, beq_iff_eq] at hc
  have hle : ∀ hi : Char, c ≤ hi → c.toNat ≤ hi.toNat := fun _ h => h
  rcases hc with (((((⟨-, h⟩ | ⟨-, h⟩) | ⟨-, h⟩) | rfl) | rfl) | rfl) | rfl
  · exact Nat.lt_of_le_of_lt (hle _ h) (by decide)
  · exact Nat.lt_of_le_of_lt (hle _ h) (by decide)
  · exact Nat.lt_of_le_of_lt (hle _ h) (by decide)
  all_goals decide

theorem mem_ascii_lt (c : Char) (s : List Char) (hs : ∀ d ∈ s, d.toNat < 128)
    (hc : s.contains c = true) : c.toNat < 128 := hs c (by simpa using hc)

theorem validPathChar_lt (c : Char) (hc : validPathChar c = true) : c.toNat < 128 := by
  simp only [validPathChar, shouldEscapePath, Bool.not_not, Bool.or_eq_true, beq_iff_eq] at hc
  rcases hc with ((h | h) | rfl) | h | h
  · exact mem_ascii_lt c _ (List.all_iff_forall_prop.mp (by decide)) h
  · exact mem_ascii_lt c _ (List.all_iff_forall_prop.mp (by decide)) h
  · decide
  · exact unreserved_lt c h
  · exact mem_ascii_lt c _ (List.all_iff_forall_prop.mp (by decide)) h

/-- A fact about the characters of a URL path is checked on the ASCII table. -/
theorem of_validPathChar (P : Char → Prop)
    (htable : ∀ n < 128, validPathChar (Char.ofNat n) = true → P (Char.ofNat n)) (c : Char)
    (hc : validPathChar c = true) : P c := by
  have h := htable c.toNat (validPathChar_lt c hc)
  rw [Char.ofNat_toNat] at h
  exact h hc

theorem validPathChar_plain (c : Char) (hc : validPathChar c = true) :
    IsByte c ∧ ¬ (c.toNat < 0x20 ∨ c.toNat = 0x7f) ∧ c ≠ '?' :=
  of_validPathChar (fun c => IsByte c ∧ ¬ (c.toNat < 0x20 ∨ c.toNat = 0x7f) ∧ c ≠ '?')
    (by decide) c hc

theorem validEncoded_escapePath (path : List Char) (hpath : ∀ c ∈ path, IsByte c) :
    validEncoded (escapePath path) = true := by
  refine List.all_eq_true.mpr (fun c hc => ?_)
  obtain ⟨d, hd, hc⟩ := List.mem_flatMap.mp hc
  split at hc
  · rename_i hkeep
    rw [List.mem_singleton] at hc
    subst hc
    simp [validPathChar, hkeep]
  · have hbyte := hpath d hd
    unfold IsByte at hbyte
    have hhex : ∀ n < 16, validPathChar (hexDigit n) = true := by decide
    simp only [escapeByte, List.mem_cons, List.not_mem_nil, or_false] at hc
    rcases hc with rfl | rfl | rfl
    · decide
    · exact hhex _ (by omega)
    · exact hhex _ (by omega)

theorem wellEscaped_escapePath (path : List Char) (hpath : ∀ c ∈ path, IsByte c) :
    WellEscaped (escapePath path) := by
  refine ⟨validEncoded_escapePath path hpath, ?_⟩
  rw [escapePath, unescape_escape _ path (by decide) hpath]
  rfl

theorem setPath_path (t : Target) (u : Url) (hu : t.setPath = some u) :
    unescape t.rawPath = some u.path := by
  obtain ⟨path, hpath, rfl⟩ := Option.map_eq_some_iff.mp hu
  exact hpath

theorem unescape_rooted (s out : List Char) (hs : Rooted s) (h : unescape s = some out) :
    Rooted out := by
  obtain ⟨rest, rfl⟩ := hs
  rw [unescape_plain _ _ (by decide)] at h
  obtain ⟨more, -, rfl⟩ := Option.map_eq_some_iff.mp h
  exact ⟨more, rfl⟩

theorem escapePath_rooted (s : List Char) (hs : Rooted s) : Rooted (escapePath s) := by
  obtain ⟨rest, rfl⟩ := hs
  exact ⟨escapePath rest, by simp [escapePath, escape, shouldEscapePath]⟩

/-- The two spellings a parsed URL can have: the raw one where it is valid, else
the default encoding of the decoded path. -/
theorem escapedPath_eq (t : Target) (u : Url) (hslash : t.rawPath = [] ∨ Rooted t.rawPath)
    (hu : t.setPath = some u) :
    u.escapedPath = if validEncoded t.rawPath then t.rawPath else escapePath u.path := by
  obtain ⟨path, hpath, rfl⟩ := Option.map_eq_some_iff.mp hu
  have hstar : path ≠ "*".toList := by
    rintro rfl
    rcases hslash with h | h
    · rw [h] at hpath
      cases hpath
    · obtain ⟨rest, heq⟩ := unescape_rooted t.rawPath _ h hpath
      exact absurd (List.cons.inj heq).1 (by decide)
  unfold Url.escapedPath
  simp only [if_neg hstar]
  by_cases hraw : t.rawPath = escapePath path
  · simp only [if_pos hraw, ne_eq, not_true_eq_false, false_and, if_false]
    split
    · exact hraw.symm
    · rfl
  · have hne : t.rawPath ≠ [] := by
      intro h
      rw [h] at hpath hraw
      obtain rfl : [] = path := by simpa using hpath
      exact hraw rfl
    simp [if_neg hraw, hne, hpath]

/-- The check works with what stands before the question mark. -/
theorem asked_eq (u : Url) (hplain : '?' ∉ u.requestPath) (hne : u.requestPath ≠ []) :
    u.asked = Utf8.decode false u.requestPath := by
  have htake : ∀ s rest : List Char, '?' ∉ s →
      (s ++ '?' :: rest).takeWhile (· ≠ '?') = s ∧ s.takeWhile (· ≠ '?') = s := by
    intro s rest hs
    induction s with
    | nil => simp
    | cons c more ih =>
      rw [List.mem_cons, not_or] at hs
      have hc : c ≠ '?' := Ne.symm hs.1
      simpa [hc] using ih hs.2
  have hplain' : '?' ∉ Utf8.decode false u.requestPath := fun h =>
    hplain (Utf8.mem_of_mem_decode false _ _ (by decide) h)
  have hne' : Utf8.decode false u.requestPath ≠ [] := by
    obtain ⟨b, rest, hb⟩ := List.exists_cons_of_ne_nil hne
    obtain ⟨d, tail, hd, -⟩ := Utf8.decode_cons false b rest
    rw [hb, hd]
    simp
  unfold Url.asked Url.requestURI checkPath
  by_cases hquery : u.forceQuery ∨ u.rawQuery ≠ []
  · rw [if_pos hquery, Utf8.decode_append false _ _ '?' (by decide), if_neg (by simp),
      (htake _ _ hplain').1]
  · rw [if_neg hquery, if_neg hne', (htake _ [] hplain').2]

theorem ascii_of_wellEscaped (s : List Char) (hs : WellEscaped s) : Utf8.Ascii s :=
  fun c hc => validPathChar_lt c (List.all_eq_true.mp hs.1 c hc)

theorem plain_of_wellEscaped (s : List Char) (hs : WellEscaped s) : '?' ∉ s := fun hc =>
  (validPathChar_plain '?' (List.all_eq_true.mp hs.1 _ hc)).2.2 rfl

/-- A path with a slash in front, or an empty one, is asked about as a rooted and well
escaped path. -/
theorem asked_of_setPath (t : Target) (u : Url) (hslash : t.rawPath = [] ∨ Rooted t.rawPath)
    (hu : t.setPath = some u) : Asked u.asked := by
  have hescaped := escapedPath_eq t u hslash hu
  have hpath := setPath_path t u hu
  have hbytes := unescape_bytes t.rawPath u.path t.bytes hpath
  have hwell : WellEscaped u.escapedPath := by
    rw [hescaped]
    split
    · exact ⟨by assumption, by rw [hpath]; rfl⟩
    · exact wellEscaped_escapePath u.path hbytes
  have hroot : u.escapedPath = [] ∨ Rooted u.escapedPath := by
    rw [hescaped]
    rcases hslash with h | h
    · exact Or.inl (by rw [h]; rfl)
    · right
      split
      · exact h
      · exact escapePath_rooted u.path (unescape_rooted t.rawPath u.path h hpath)
  have hpart : u.opaquePart = [] := by
    obtain ⟨path, -, rfl⟩ := Option.map_eq_some_iff.mp hu
    rfl
  have hrequest : Rooted u.requestPath ∧ WellEscaped u.requestPath := by
    rw [Url.requestPath, if_pos hpart]
    rcases hroot with h | h
    · rw [if_pos h]
      exact ⟨⟨[], rfl⟩, by decide, by decide⟩
    · have hne : u.escapedPath ≠ [] := by
        obtain ⟨rest, hrest⟩ := h
        rw [hrest]
        simp
      rw [if_neg hne]
      exact ⟨h, hwell⟩
  have hne : u.requestPath ≠ [] := by
    obtain ⟨⟨rest, hrest⟩, -⟩ := hrequest
    rw [hrest]
    simp
  left
  rw [asked_eq u (plain_of_wellEscaped _ hrequest.2) hne,
    Utf8.decode_ascii false _ (ascii_of_wellEscaped _ hrequest.2)]
  exact hrequest

theorem prefixed_iff_rooted (s : List Char) : "/".toList <+: s ↔ Rooted s := by
  constructor
  · rintro ⟨rest, rfl⟩
    exact ⟨rest, rfl⟩
  · rintro ⟨rest, rfl⟩
    exact ⟨rest, rfl⟩

/-- The bytes after a scheme are read as a text that can follow one. -/
theorem rootless_decode (s : List Char) (hne : s ≠ []) (hroot : ¬ Rooted s)
    (hchars : ∀ c ∈ s, 0x20 < c.toNat ∧ c.toNat ≠ 0x7f ∧ c ≠ '?') :
    Rootless (Utf8.decode false s) := by
  obtain ⟨b, rest, rfl⟩ := List.exists_cons_of_ne_nil hne
  obtain ⟨d, tail, hd, hfirst⟩ := Utf8.decode_cons false b rest
  refine ⟨by rw [hd]; simp, ?_, fun c hc => ?_⟩
  · rintro ⟨more, hmore⟩
    rw [hd] at hmore
    have hslash : d = '/' := (List.cons.inj hmore).1
    have hb : d = b := hfirst (by rw [hslash]; decide)
    exact hroot ⟨rest, by rw [← hb, hslash]⟩
  · by_cases hlow : c.toNat < 0x80
    · exact hchars c (Utf8.mem_of_mem_decode false _ c hlow hc)
    · refine ⟨by omega, by omega, ?_⟩
      intro heq
      rw [heq] at hlow
      exact hlow (by decide)

theorem asked_afterScheme (t : Target) (hne : t.rawPath ≠ []) (hroot : ¬ Rooted t.rawPath) :
    t.afterScheme.asked = Utf8.decode false t.rawPath := by
  have hdouble : ¬ "//".toList <+: t.rawPath := by
    rintro ⟨rest, hrest⟩
    exact hroot ⟨_, hrest.symm⟩
  have hpath : t.afterScheme.requestPath = t.rawPath := by
    rw [Url.requestPath, Target.afterScheme, if_neg hne, if_neg hdouble]
  rw [asked_eq _ (by rw [hpath]; exact t.cut) (by rw [hpath]; exact hne), hpath]

/-- Whatever the client sends, this is what the control plane is asked about. -/
theorem asked_of_url (t : Target) (u : Url) (hu : t.url = some u) : Asked u.asked := by
  unfold Target.url at hu
  split_ifs at hu with hstar hslash hscheme hempty
  · obtain rfl := Option.some.inj hu
    right
    have hasked : (⟨"*".toList, [], [], false, [], []⟩ : Url).asked = "*".toList := by decide
    rw [hasked]
    refine ⟨by decide, ?_, fun c hc => ?_⟩
    · intro ⟨rest, heq⟩
      exact absurd (List.cons.inj heq).1 (by decide)
    · obtain rfl := List.mem_singleton.mp hc
      exact ⟨by decide, by decide, by decide⟩
  · exact asked_of_setPath t u (Or.inr ((prefixed_iff_rooted _).mp hslash)) hu
  · exact asked_of_setPath t u (Or.inl hempty) hu
  · obtain rfl := Option.some.inj hu
    have hroot : ¬ Rooted t.rawPath := mt (prefixed_iff_rooted _).mpr hslash
    have hchars : ∀ c ∈ t.rawPath, 0x20 < c.toNat ∧ c.toNat ≠ 0x7f ∧ c ≠ '?' := by
      intro c hc
      have hprint := t.printable c hc
      have hspace : c ≠ ' ' := fun heq => hroot (t.unbroken (heq ▸ hc))
      have hcode : c.toNat ≠ 0x20 := fun heq => hspace (Char.toNat_inj.mp heq)
      exact ⟨by omega, by omega, fun heq => t.cut (heq ▸ hc)⟩
    right
    rw [asked_afterScheme t hempty hroot]
    exact rootless_decode t.rawPath hempty hroot hchars

/-- A target with these bytes behind a scheme. -/
def Target.ofBytes (s : List Char) (hbytes : ∀ c ∈ s, IsByte c)
    (hprint : ∀ c ∈ s, 0x20 < c.toNat ∧ c.toNat ≠ 0x7f ∧ c ≠ '?') : Target where
  scheme := "http".toList
  rawPath := s
  query := none
  bytes := hbytes
  printable := fun c hc => by
    have hchar := hprint c hc
    omega
  unbroken := fun hc => absurd (hprint ' ' hc).1 (by decide)
  cut := fun hc => (hprint '?' hc).2.2 rfl

/-- A rooted and well escaped path is asked about as it is. -/
theorem asked_ofBytes_rooted (t : Target) (hroot : Rooted t.rawPath)
    (hwell : WellEscaped t.rawPath) : ∃ u, t.url = some u ∧ u.asked = t.rawPath := by
  obtain ⟨path, hpath⟩ := Option.isSome_iff_exists.mp hwell.2
  have hstar : ¬ (t.scheme = [] ∧ t.rawPath = "*".toList ∧ t.query = none) := by
    rintro ⟨-, heq, -⟩
    obtain ⟨rest, hrest⟩ := hroot
    rw [hrest] at heq
    exact absurd (List.cons.inj heq).1 (by decide)
  obtain ⟨u, hu⟩ : ∃ u, t.setPath = some u := ⟨_, by rw [Target.setPath, hpath]; rfl⟩
  refine ⟨u, ?_, ?_⟩
  · rw [Target.url, if_neg hstar, if_pos ((prefixed_iff_rooted _).mpr hroot), hu]
  · have hpart : u.opaquePart = [] := by
      obtain ⟨_, -, rfl⟩ := Option.map_eq_some_iff.mp hu
      rfl
    have hescaped := escapedPath_eq t u (Or.inr hroot) hu
    rw [if_pos hwell.1] at hescaped
    have hne : t.rawPath ≠ [] := by
      obtain ⟨rest, hrest⟩ := hroot
      rw [hrest]
      simp
    have hrequest : u.requestPath = t.rawPath := by
      rw [Url.requestPath, if_pos hpart, hescaped, if_neg hne]
    rw [asked_eq u (by rw [hrequest]; exact t.cut) (by rw [hrequest]; exact hne), hrequest]
    exact Utf8.decode_ascii false _ (ascii_of_wellEscaped _ hwell)

/-- Behind a scheme a rootless text is asked about as it reads. -/
theorem asked_ofBytes_rootless (t : Target) (hscheme : t.scheme ≠ []) (hne : t.rawPath ≠ [])
    (hroot : ¬ Rooted t.rawPath) :
    ∃ u, t.url = some u ∧ u.asked = Utf8.decode false t.rawPath := by
  have hslash : ¬ "/".toList <+: t.rawPath := mt (prefixed_iff_rooted _).mp hroot
  refine ⟨t.afterScheme, ?_, asked_afterScheme t hne hroot⟩
  rw [Target.url, if_neg (by simp [hscheme]), if_neg hslash, if_neg hscheme, if_neg hne]

end Hyproxy.RequestTarget

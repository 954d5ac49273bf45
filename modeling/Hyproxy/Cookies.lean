import Hyproxy.HttpHeader
import Mathlib.Algebra.GroupWithZero.Nat

/-!
Cookies of a request as Go's `net/http` reads and writes them, and the
extraction of one cookie by the data plane. Reading what was written gives the
same names and values back, so an extraction followed by another one can be
described on the name and value pairs of the client's own header.
-/
namespace Hyproxy.Cookies

open Text HttpHeader

structure Cookie where
  name : List Char
  value : List Char
  quoted : Bool
  deriving Repr, DecidableEq

def isToken (s : List Char) : Bool := s ≠ [] && s.all tokenByte

def validCookieValueByte (c : Char) : Bool :=
  0x20 ≤ c.toNat && c.toNat < 0x7f && c != '"' && c != ';' && c != '\\'

def isQuoted (raw : List Char) : Bool :=
  1 < raw.length && raw.head? == some '"' && raw.getLast? == some '"'

def unquote (raw : List Char) : List Char := if isQuoted raw then (raw.drop 1).dropLast else raw

/-- `parseCookieValue` with double quotes allowed around the value. -/
def parseCookieValue (raw : List Char) : Option (List Char × Bool) :=
  if (unquote raw).all validCookieValueByte then some (unquote raw, isQuoted raw) else none

def readPart (part : List Char) : Option Cookie :=
  let part := trimString part
  if part = [] then none
  else
    let (name, raw) := cut '=' part
    let name := trimString name
    if !isToken name then none
    else (parseCookieValue raw).map (fun p => ⟨name, p.1, p.2⟩)

def readLine (line : List Char) : List Cookie :=
  ((trimString line).splitOn ';').filterMap readPart

/-- All cookies that the `Cookie` lines of a request carry. -/
def cookiePairs (lines : List (List Char)) : List Cookie := lines.flatMap readLine

def cookieNum (lines : List (List Char)) : ℕ := (lines.map (fun line => line.count ';' + 1)).sum

/-- The limit `httpcookiemaxnum`; zero lifts it. -/
def Readable (maxNum : ℕ) (lines : List (List Char)) : Prop :=
  maxNum = 0 ∨ cookieNum lines ≤ maxNum

instance (maxNum : ℕ) (lines : List (List Char)) : Decidable (Readable maxNum lines) := by
  unfold Readable
  infer_instance

/-- `readCookies`: a request with too many cookies has none. -/
def readCookies (maxNum : ℕ) (h : Header) : List Cookie :=
  if Readable maxNum (h "Cookie".toList) then cookiePairs (h "Cookie".toList) else []

/-- A value that was quoted stays so, also when it is empty. -/
def sanitizeCookieValue (value : List Char) (quoted : Bool) : List Char :=
  let value := value.filter validCookieValueByte
  if value.any (fun c => c == ' ' || c == ',') || quoted then '"' :: (value ++ ['"'])
  else value

/-- `Cookie.String` for a cookie that carries a name and a value only. -/
def Cookie.toText (c : Cookie) : List Char :=
  if isToken c.name then c.name ++ '=' :: sanitizeCookieValue c.value c.quoted else []

def lastValue (cookies : List Cookie) (name : List Char) : List Char :=
  ((cookies.filter (fun c => c.name = name)).getLast?.map Cookie.value).getD []

/-- `extractCookie`: the value of the last cookie of that name; the header is rewritten
without the name only where this value is not empty. -/
def extractCookie (maxNum : ℕ) (h : Header) (name : List Char) : List Char × Header :=
  if name = [] then ([], h)
  else
    let cookies := readCookies maxNum h
    let value := lastValue cookies name
    let kept := (cookies.filter (fun c => c.name ≠ name)).map Cookie.toText
    let h := if value ≠ [] then
        if kept = [] then del h "Cookie".toList
        else set h "Cookie".toList ("; ".toList.intercalate kept)
      else h
    (value, h)

/-- The cookie is one that `readCookies` can return. -/
structure Wf (c : Cookie) : Prop where
  token : isToken c.name = true
  valid : c.value.all validCookieValueByte = true

theorem parseCookieValue_valid (raw value : List Char) (quoted : Bool)
    (h : parseCookieValue raw = some (value, quoted)) :
    value.all validCookieValueByte = true := by
  unfold parseCookieValue at h
  split at h
  · rename_i hvalid
    rw [Option.some.injEq, Prod.mk.injEq] at h
    exact h.1 ▸ hvalid
  · cases h

theorem wf_of_readPart (part : List Char) (c : Cookie) (h : readPart part = some c) : Wf c := by
  unfold readPart at h
  simp only at h
  split at h
  · cases h
  · split at h
    · cases h
    · rename_i htoken
      obtain ⟨p, hp, rfl⟩ := Option.map_eq_some_iff.mp h
      exact ⟨by simpa using htoken, parseCookieValue_valid _ p.1 p.2 hp⟩

theorem wf_of_mem_cookiePairs (lines : List (List Char)) (c : Cookie)
    (h : c ∈ cookiePairs lines) : Wf c := by
  obtain ⟨line, -, hc⟩ := List.mem_flatMap.mp h
  obtain ⟨part, -, hpart⟩ := List.mem_filterMap.mp hc
  exact wf_of_readPart part c hpart

theorem tokenByte_plain (c : Char) (hc : tokenByte c = true) :
    c ≠ '=' ∧ c ≠ ';' ∧ isAsciiSpace c = false := by
  have hne : ∀ d ∈ ['=', ';', ' ', '\t', '\n', '\r'], c ≠ d := by
    intro d hd
    rintro rfl
    have htable : ∀ d ∈ ['=', ';', ' ', '\t', '\n', '\r'], tokenByte d = false :=
      List.all_iff_forall_prop.mp (by decide)
    rw [htable c hd] at hc
    cases hc
  refine ⟨hne _ (by simp), hne _ (by simp), ?_⟩
  have h1 := hne ' ' (by simp)
  have h2 := hne '\t' (by simp)
  have h3 := hne '\n' (by simp)
  have h4 := hne '\r' (by simp)
  simp [isAsciiSpace, h1, h2, h3, h4]

theorem validCookieValueByte_plain (c : Char) (hc : validCookieValueByte c = true) :
    c ≠ '"' ∧ c ≠ ';' ∧ (c ≠ ' ' → isAsciiSpace c = false) := by
  have hne : ∀ d ∈ ['"', ';', '\t', '\n', '\r'], c ≠ d := by
    intro d hd
    rintro rfl
    have htable : ∀ d ∈ ['"', ';', '\t', '\n', '\r'], validCookieValueByte d = false :=
      List.all_iff_forall_prop.mp (by decide)
    rw [htable c hd] at hc
    cases hc
  refine ⟨hne _ (by simp), hne _ (by simp), fun h1 => ?_⟩
  have h2 := hne '\t' (by simp)
  have h3 := hne '\n' (by simp)
  have h4 := hne '\r' (by simp)
  simp [isAsciiSpace, h1, h2, h3, h4]

theorem parseCookieValue_quoted (value : List Char)
    (hvalid : value.all validCookieValueByte = true) :
    parseCookieValue ('"' :: (value ++ ['"'])) = some (value, true) := by
  have hquoted : isQuoted ('"' :: (value ++ ['"'])) = true := by
    have hlast : ('"' :: (value ++ ['"'])).getLast? = some '"' := by
      rw [← List.cons_append, List.getLast?_concat]
    simp [isQuoted, hlast]
  have hunquote : unquote ('"' :: (value ++ ['"'])) = value := by
    rw [unquote, if_pos hquoted]
    simp
  rw [parseCookieValue, hunquote, hquoted, if_pos hvalid]

theorem parseCookieValue_plain (value : List Char)
    (hvalid : value.all validCookieValueByte = true) :
    parseCookieValue value = some (value, false) := by
  have hquoted : isQuoted value = false := by
    have hhead : value.head? ≠ some '"' := fun h =>
      (validCookieValueByte_plain _
        (List.all_eq_true.mp hvalid _ (List.mem_of_mem_head? h))).1 rfl
    simp [isQuoted, hhead]
  have hunquote : unquote value = value := by simp [unquote, hquoted]
  rw [parseCookieValue, hunquote, hquoted, if_pos hvalid]

/-- What a value is written as: no semicolon, no white space at the end, and read back
to the same value. -/
structure ValueText (value text : List Char) : Prop where
  noSemicolon : ';' ∉ text
  lastPlain : ∀ c ∈ text.getLast?, isAsciiSpace c = false
  parses : ∃ quoted, parseCookieValue text = some (value, quoted)

theorem valueText_sanitize (value : List Char) (quoted : Bool)
    (hvalid : value.all validCookieValueByte = true) :
    ValueText value (sanitizeCookieValue value quoted) := by
  have hall : ∀ c ∈ value, validCookieValueByte c = true := List.all_eq_true.mp hvalid
  have hfilter : value.filter validCookieValueByte = value := List.filter_eq_self.mpr hall
  have hsemi : ';' ∉ value := fun h => (validCookieValueByte_plain _ (hall _ h)).2.1 rfl
  unfold sanitizeCookieValue
  simp only [hfilter]
  split_ifs with hplain
  · refine ⟨by simpa using hsemi, ?_, true, parseCookieValue_quoted value hvalid⟩
    intro c hc
    rw [← List.cons_append, List.getLast?_concat] at hc
    obtain rfl : '"' = c := by simpa using hc
    decide
  · simp only [Bool.or_eq_true, not_or, List.any_eq_true, beq_iff_eq, not_exists, not_and]
      at hplain
    refine ⟨hsemi, ?_, false, parseCookieValue_plain value hvalid⟩
    intro c hc
    have hmem := List.mem_of_mem_getLast? hc
    exact (validCookieValueByte_plain c (hall c hmem)).2.2 (hplain.1 c hmem).1

theorem toText_eq (c : Cookie) (hc : Wf c) :
    c.toText = c.name ++ '=' :: sanitizeCookieValue c.value c.quoted := if_pos hc.token

theorem token_plain (name : List Char) (hname : isToken name = true) :
    name ≠ [] ∧ ∀ d ∈ name, tokenByte d = true := by
  simp only [isToken, Bool.and_eq_true, decide_eq_true_eq, List.all_eq_true] at hname
  exact hname

/-- A name and a value without white space at its end. -/
theorem pair_ends (name raw : List Char) (hname : isToken name = true)
    (hraw : ∀ c ∈ raw.getLast?, isAsciiSpace c = false) :
    (∀ d ∈ (name ++ '=' :: raw).head?, isAsciiSpace d = false) ∧
      ∀ d ∈ (name ++ '=' :: raw).getLast?, isAsciiSpace d = false := by
  obtain ⟨hne, htoken⟩ := token_plain name hname
  constructor
  · intro d hd
    obtain ⟨e, rest, rfl⟩ := List.exists_cons_of_ne_nil hne
    obtain rfl : e = d := Option.some.inj hd
    exact (tokenByte_plain e (htoken e List.mem_cons_self)).2.2
  · intro d hd
    rw [List.getLast?_append_of_ne_nil _ (List.cons_ne_nil _ _)] at hd
    cases raw with
    | nil =>
      obtain rfl : '=' = d := Option.some.inj hd
      decide
    | cons e rest =>
      rw [List.getLast?_cons_cons] at hd
      exact hraw d hd

theorem trimString_space (s : List Char) : trimString (' ' :: s) = trimString s := by
  simp [trimString, trim, isAsciiSpace]

/-- A name directly before its value is read as it stands, also after a space. -/
theorem readPart_pair (name raw : List Char) (hname : isToken name = true)
    (hraw : ∀ c ∈ raw.getLast?, isAsciiSpace c = false) :
    readPart (name ++ '=' :: raw) = (parseCookieValue raw).map (fun p => ⟨name, p.1, p.2⟩) ∧
      readPart (' ' :: (name ++ '=' :: raw)) = readPart (name ++ '=' :: raw) := by
  obtain ⟨-, htoken⟩ := token_plain name hname
  obtain ⟨hhead, hlast⟩ := pair_ends name raw hname hraw
  have htrim : trimString (name ++ '=' :: raw) = name ++ '=' :: raw := trim_eq_self _ _ hhead hlast
  have hcut : cut '=' (name ++ '=' :: raw) = (name, raw) :=
    cut_append '=' _ _ (fun h => (tokenByte_plain _ (htoken _ h)).1 rfl)
  have hsame : trimString name = name :=
    trim_eq_self _ _ (fun d hd => (tokenByte_plain d (htoken d (List.mem_of_mem_head? hd))).2.2)
      (fun d hd => (tokenByte_plain d (htoken d (List.mem_of_mem_getLast? hd))).2.2)
  constructor
  · simp [readPart, htrim, hcut, hsame, hname]
  · simp [readPart, trimString_space]

theorem toText_ends (c : Cookie) (hc : Wf c) :
    (∀ d ∈ c.toText.head?, isAsciiSpace d = false) ∧
      (∀ d ∈ c.toText.getLast?, isAsciiSpace d = false) ∧ c.toText ≠ [] ∧ ';' ∉ c.toText := by
  obtain ⟨-, htoken⟩ := token_plain c.name hc.token
  have hvalue := valueText_sanitize c.value c.quoted hc.valid
  obtain ⟨hhead, hlast⟩ := pair_ends c.name _ hc.token hvalue.lastPlain
  rw [toText_eq c hc]
  refine ⟨hhead, hlast, by simp, ?_⟩
  simp only [List.mem_append, List.mem_cons, not_or]
  exact ⟨fun h => (tokenByte_plain _ (htoken _ h)).2.1 rfl, by decide, hvalue.noSemicolon⟩

/-- A written cookie reads back, also after the space that separates it. -/
theorem readPart_toText (c : Cookie) (hc : Wf c) :
    ∃ quoted, readPart c.toText = some ⟨c.name, c.value, quoted⟩ ∧
      readPart (' ' :: c.toText) = some ⟨c.name, c.value, quoted⟩ := by
  have hvalue := valueText_sanitize c.value c.quoted hc.valid
  obtain ⟨quoted, hparse⟩ := hvalue.parses
  obtain ⟨hread, hspace⟩ := readPart_pair c.name _ hc.token hvalue.lastPlain
  rw [hparse, Option.map_some] at hread
  refine ⟨quoted, ?_, ?_⟩
  · rw [toText_eq c hc, hread]
  · rw [toText_eq c hc, hspace, hread]

theorem splitOn_join (text : List Char) (texts : List (List Char))
    (hfree : ∀ t ∈ text :: texts, ';' ∉ t) :
    ("; ".toList.intercalate (text :: texts)).splitOn ';' =
      text :: texts.map (fun t => ' ' :: t) := by
  induction texts generalizing text with
  | nil =>
    rw [List.intercalate_singleton, List.splitOn_eq_singleton (hfree text (by simp))]
    rfl
  | cons next rest ih =>
    have hnext := ih next (fun t ht => hfree t (List.mem_cons_of_mem _ ht))
    rw [List.intercalate_cons_cons, show "; ".toList = [';', ' '] by rfl, List.append_assoc,
      List.cons_append, List.cons_append, List.nil_append,
      List.splitOn_append_cons_self_of_not_mem (hfree text (by simp)),
      List.splitOn_cons_eq_if_modifyHead, if_neg (by decide),
      show [';', ' '] = "; ".toList by rfl, hnext]
    rfl

theorem join_ends (texts : List (List Char)) (hne : texts ≠ [])
    (hhead : ∀ t ∈ texts, ∀ d ∈ t.head?, isAsciiSpace d = false)
    (hlast : ∀ t ∈ texts, ∀ d ∈ t.getLast?, isAsciiSpace d = false)
    (htexts : ∀ t ∈ texts, t ≠ []) :
    (∀ d ∈ ("; ".toList.intercalate texts).head?, isAsciiSpace d = false) ∧
      (∀ d ∈ ("; ".toList.intercalate texts).getLast?, isAsciiSpace d = false) ∧
      "; ".toList.intercalate texts ≠ [] := by
  induction texts with
  | nil => exact absurd rfl hne
  | cons text rest ih =>
    cases rest with
    | nil =>
      rw [List.intercalate_singleton]
      exact ⟨hhead text (by simp), hlast text (by simp), htexts text (by simp)⟩
    | cons next more =>
      obtain ⟨-, ihlast, ihne⟩ := ih (by simp)
        (fun t ht => hhead t (List.mem_cons_of_mem _ ht))
        (fun t ht => hlast t (List.mem_cons_of_mem _ ht))
        (fun t ht => htexts t (List.mem_cons_of_mem _ ht))
      obtain ⟨c, tail, rfl⟩ := List.exists_cons_of_ne_nil (htexts text (by simp))
      rw [List.intercalate_cons_cons]
      refine ⟨fun d hd => hhead (c :: tail) (by simp) d (by simpa using hd), ?_, by simp⟩
      intro d hd
      rw [List.getLast?_append_of_ne_nil _ ihne] at hd
      exact ihlast d hd

/-- Name and value of every cookie, which is what a backend sees of it. -/
def nameValues (lines : List (List Char)) : List (List Char × List Char) :=
  (cookiePairs lines).map (fun c => (c.name, c.value))

theorem filterMap_readPart_toText (cookies : List Cookie) (hwf : ∀ c ∈ cookies, Wf c)
    (lead : List Char → List Char) (hlead : lead = id ∨ lead = (fun t => ' ' :: t)) :
    ((cookies.map (fun c => lead c.toText)).filterMap readPart).map
        (fun c => (c.name, c.value)) = cookies.map (fun c => (c.name, c.value)) := by
  induction cookies with
  | nil => rfl
  | cons c rest ih =>
    obtain ⟨quoted, hplain, hspace⟩ := readPart_toText c (hwf c (by simp))
    have hread : readPart (lead c.toText) = some ⟨c.name, c.value, quoted⟩ := by
      rcases hlead with rfl | rfl
      · exact hplain
      · exact hspace
    rw [List.map_cons, List.filterMap_cons_some hread, List.map_cons, List.map_cons,
      ih (fun d hd => hwf d (List.mem_cons_of_mem _ hd))]

theorem texts_ends (cookies : List Cookie) (hwf : ∀ c ∈ cookies, Wf c) :
    ∀ t ∈ cookies.map Cookie.toText, (∀ d ∈ t.head?, isAsciiSpace d = false) ∧
      (∀ d ∈ t.getLast?, isAsciiSpace d = false) ∧ t ≠ [] ∧ ';' ∉ t := by
  intro t ht
  obtain ⟨c, hc, rfl⟩ := List.mem_map.mp ht
  exact toText_ends c (hwf c hc)

/-- The parts of a rewritten header. -/
theorem split_join (text : List Char) (texts : List (List Char))
    (hends : ∀ t ∈ text :: texts, (∀ d ∈ t.head?, isAsciiSpace d = false) ∧
      (∀ d ∈ t.getLast?, isAsciiSpace d = false) ∧ t ≠ [] ∧ ';' ∉ t) :
    (trimString ("; ".toList.intercalate (text :: texts))).splitOn ';' =
      text :: texts.map (fun t => ' ' :: t) := by
  obtain ⟨hhead, hlast, -⟩ := join_ends (text :: texts) (List.cons_ne_nil text texts)
    (fun t ht => (hends t ht).1) (fun t ht => (hends t ht).2.1) (fun t ht => (hends t ht).2.2.1)
  have htrim : trimString ("; ".toList.intercalate (text :: texts)) =
      "; ".toList.intercalate (text :: texts) := trim_eq_self _ _ hhead hlast
  rw [htrim, splitOn_join text texts fun t ht => (hends t ht).2.2.2]

/-- Reading the rewritten header gives the kept cookies back. -/
theorem nameValues_join (cookies : List Cookie) (hne : cookies ≠ [])
    (hwf : ∀ c ∈ cookies, Wf c) :
    nameValues ["; ".toList.intercalate (cookies.map Cookie.toText)] =
      cookies.map (fun c => (c.name, c.value)) := by
  have hends := texts_ends cookies hwf
  obtain ⟨first, rest, rfl⟩ := List.exists_cons_of_ne_nil hne
  have hfirst := filterMap_readPart_toText [first] (by simpa using hwf first (by simp)) id
    (Or.inl rfl)
  have hrest := filterMap_readPart_toText rest (fun c hc => hwf c (List.mem_cons_of_mem _ hc))
    (fun t => ' ' :: t) (Or.inr rfl)
  rw [nameValues, cookiePairs, List.flatMap_singleton, readLine, List.map_cons,
    split_join _ _ hends, ← List.singleton_append, List.filterMap_append, List.map_append,
    List.map_map]
  simp only [id, List.map_cons, List.map_nil] at hfirst
  rw [hfirst]
  simpa using hrest

theorem splitOn_length (s : List Char) (sep : Char) :
    (s.splitOn sep).length = s.count sep + 1 := by
  induction s with
  | nil => simp
  | cons c rest ih =>
    rw [List.splitOn_cons_eq_if_modifyHead]
    split
    · rename_i hc
      rw [List.length_cons, ih, eq_of_beq hc, List.count_cons_self]
    · rename_i hc
      rw [List.length_modifyHead, ih, List.count_cons_of_ne (by simpa using hc)]

theorem cookiePairs_length_le (lines : List (List Char)) :
    (cookiePairs lines).length ≤ cookieNum lines := by
  induction lines with
  | nil => simp [cookiePairs, cookieNum]
  | cons line rest ih =>
    have hsub : (trimString line).Sublist line :=
      (List.rdropWhile_prefix _ _).sublist.trans (List.dropWhile_suffix _).sublist
    have hline : (readLine line).length ≤ line.count ';' + 1 := by
      calc (readLine line).length ≤ ((trimString line).splitOn ';').length :=
            List.length_filterMap_le _ _
        _ = (trimString line).count ';' + 1 := splitOn_length _ _
        _ ≤ line.count ';' + 1 := Nat.add_le_add_right (hsub.count_le ';') 1
    simp only [cookiePairs, cookieNum, List.flatMap_cons, List.length_append, List.map_cons,
      List.sum_cons] at ih ⊢
    omega

theorem cookieNum_join (texts : List (List Char)) (hne : texts ≠ [])
    (hfree : ∀ t ∈ texts, ';' ∉ t) : cookieNum ["; ".toList.intercalate texts] = texts.length := by
  obtain ⟨text, rest, rfl⟩ := List.exists_cons_of_ne_nil hne
  have h := congrArg List.length (splitOn_join text rest hfree)
  rw [splitOn_length] at h
  simpa [cookieNum] using h

def lastOf (pairs : List (List Char × List Char)) (name : List Char) : List Char :=
  ((pairs.filter (fun p => p.1 = name)).getLast?.map Prod.snd).getD []

theorem lastValue_eq_lastOf (cookies : List Cookie) (name : List Char) :
    lastValue cookies name = lastOf (cookies.map (fun c => (c.name, c.value))) name := by
  simp [lastValue, lastOf, List.filter_map, Function.comp_def]

/-- The extraction rewrites the header: the cookies are readable and the last cookie
of that name has a value. -/
def Strips (maxNum : ℕ) (lines : List (List Char)) (name : List Char) : Prop :=
  Readable maxNum lines ∧ lastOf (nameValues lines) name ≠ []

theorem extractCookie_other (maxNum : ℕ) (h : Header) (name key : List Char)
    (hkey : key ≠ "Cookie".toList) : (extractCookie maxNum h name).2 key = h key := by
  have hcanon : canonicalHeaderKey "Cookie".toList = "Cookie".toList := by decide
  unfold extractCookie
  split
  · rfl
  · simp only
    split
    · split
      · rw [del, hcanon, if_neg hkey]
      · rw [HttpHeader.set, hcanon, if_neg hkey]
    · rfl

theorem extractCookie_kept (maxNum : ℕ) (h : Header) (name : List Char) (hname : name ≠ [])
    (hstrip : ¬ Strips maxNum (h "Cookie".toList) name) :
    (extractCookie maxNum h name).2 = h := by
  have hvalue : lastValue (readCookies maxNum h) name = [] := by
    by_contra hne
    apply hstrip
    unfold readCookies at hne
    split at hne
    · rename_i hread
      exact ⟨hread, by rw [nameValues, ← lastValue_eq_lastOf]; exact hne⟩
    · exact absurd rfl hne
  simp [extractCookie, hname, hvalue]

/-- What is written in place of the client's cookies. -/
def keptLines (cookies : List Cookie) : List (List Char) :=
  if cookies = [] then [] else ["; ".toList.intercalate (cookies.map Cookie.toText)]

theorem extractCookie_lines (maxNum : ℕ) (h : Header) (name : List Char) (hname : name ≠ [])
    (hstrip : Strips maxNum (h "Cookie".toList) name) :
    (extractCookie maxNum h name).2 "Cookie".toList =
      keptLines ((cookiePairs (h "Cookie".toList)).filter (fun c => c.name ≠ name)) := by
  have hcanon : canonicalHeaderKey "Cookie".toList = "Cookie".toList := by decide
  obtain ⟨hread, hlast⟩ := hstrip
  have hcookies : readCookies maxNum h = cookiePairs (h "Cookie".toList) := if_pos hread
  have hvalue : lastValue (cookiePairs (h "Cookie".toList)) name ≠ [] := by
    rw [lastValue_eq_lastOf]
    exact hlast
  simp only [extractCookie, if_neg hname, hcookies, if_pos hvalue]
  generalize (cookiePairs (h "Cookie".toList)).filter (fun c => c.name ≠ name) = kept
  by_cases hkept : kept = []
  · rw [hkept, List.map_nil, if_pos rfl, del, hcanon, if_pos rfl]
    rfl
  · rw [if_neg (by simpa using hkept), HttpHeader.set, hcanon, if_pos rfl, keptLines, if_neg hkept]

/-- Where it strips, the other cookies stay with their names and values, in order. -/
theorem extractCookie_strips (maxNum : ℕ) (h : Header) (name : List Char) (hname : name ≠ [])
    (hstrip : Strips maxNum (h "Cookie".toList) name) :
    nameValues ((extractCookie maxNum h name).2 "Cookie".toList) =
        (nameValues (h "Cookie".toList)).filter (fun p => p.1 ≠ name) ∧
      Readable maxNum ((extractCookie maxNum h name).2 "Cookie".toList) := by
  have hwf : ∀ c ∈ (cookiePairs (h "Cookie".toList)).filter (fun c => c.name ≠ name), Wf c :=
    fun c hc => wf_of_mem_cookiePairs _ c (List.mem_of_mem_filter hc)
  have hpairs : (nameValues (h "Cookie".toList)).filter (fun p => p.1 ≠ name) =
      ((cookiePairs (h "Cookie".toList)).filter (fun c => c.name ≠ name)).map
        (fun c => (c.name, c.value)) := by
    rw [nameValues, List.filter_map]
    rfl
  have hlen : ((cookiePairs (h "Cookie".toList)).filter (fun c => c.name ≠ name)).length ≤
      cookieNum (h "Cookie".toList) :=
    (List.length_filter_le _ _).trans (cookiePairs_length_le _)
  rw [hpairs, extractCookie_lines maxNum h name hname hstrip]
  generalize (cookiePairs (h "Cookie".toList)).filter (fun c => c.name ≠ name) = kept at hwf hlen ⊢
  unfold keptLines
  by_cases hkept : kept = []
  · subst hkept
    exact ⟨rfl, by simp [Readable, cookieNum]⟩
  · rw [if_neg hkept]
    refine ⟨nameValues_join kept hkept hwf, ?_⟩
    rcases hstrip.1 with hzero | hmax
    · exact Or.inl hzero
    · right
      rw [cookieNum_join _ (by simpa using hkept), List.length_map]
      · exact hlen.trans hmax
      · intro t ht
        obtain ⟨c, hc, rfl⟩ := List.mem_map.mp ht
        exact (toText_ends c (hwf c hc)).2.2.2

end Hyproxy.Cookies

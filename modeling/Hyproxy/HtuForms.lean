import Hyproxy.Dpop
import Hyproxy.LetterCase
import Hyproxy.PyUrl
import Mathlib.Data.Bool.AllAny

/-!
The form in which the URL of a proof of possession is compared with the URL of the request. It
is made from what `urlsplit` reads in the URL, and does without the user name, the default port,
the query and the fragment. The brackets around an address are dropped as well.
-/
namespace Hyproxy.HtuForms

open BrowserUrl (Text asciiDigit control decimal visible)
open Dpop (UrlParts)
open LetterCase (lower)
open PercentCoding (hexValue)
open PyUrl
open Text (cut)

/-- The tables of Unicode and the addresses that Python reads: `widens` are the characters whose
compatibility form has a delimiter. -/
structure Platform where
  letters : LetterCase.Tables
  widens : Char → Bool
  ipv6 : Text → Bool

structure Platform.Standard (P : Platform) : Prop where
  letters : P.letters.Standard
  ascii : ∀ c, c.toNat < 0x80 → P.widens c = false
  lowerChar : ∀ c, P.widens c = false → ∀ d ∈ P.letters.lowerChar c, P.widens d = false
  sigma : P.widens 'σ' = false ∧ P.widens 'ς' = false
  ipv6 : ∀ s, P.ipv6 s = true → 2 ≤ s.count ':'

def hexDigit (c : Char) : Bool := (hexValue c).isSome

/-- `\Av[a-fA-F0-9]+\..+\Z` -/
def futureAddress : Text → Bool
  | 'v' :: more =>
    more.head?.any hexDigit && (more.dropWhile hexDigit).head? == some '.' &&
      (more.dropWhile hexDigit).tail != [] && !(more.dropWhile hexDigit).tail.contains '\n'
  | _ => false

variable (P : Platform)

def checkBracketedHost (host : Text) : Bool :=
  if host.head? = some 'v' then futureAddress host else P.ipv6 host

/-- `_check_bracketed_netloc` -/
def checkBracketedNetloc (netloc : Text) : Bool :=
  let info := netloc.rtakeWhile (· ≠ '@')
  if '[' ∈ info then
    let behind := (cut ']' (cut '[' info).2).2
    (cut '[' info).1.isEmpty && (behind.isEmpty || behind.head? == some ':') &&
      checkBracketedHost P (cut ']' (cut '[' info).2).1
  else checkBracketedHost P (cut ':' info).1

def refused (netloc : Text) : Bool :=
  (netloc.contains '[' && netloc.contains ']' && !checkBracketedNetloc P netloc) ||
    netloc.any P.widens

/-- The port of `_hostinfo` -/
def portInfo (netloc : Text) : Text :=
  let info := netloc.rtakeWhile (· ≠ '@')
  if '[' ∈ info then (cut ':' (cut ']' (cut '[' info).2).2).2 else (cut ':' info).2

/-- `port`; none is the `ValueError`. -/
def port (netloc : Text) : Option (Option ℕ) :=
  if portInfo netloc = [] then some none
  else if (portInfo netloc).all asciiDigit = true ∧ decimal (portInfo netloc) ≤ 65535 then
    some (some (decimal (portInfo netloc)))
  else none

def path (rest : Text) : Text := (cut '?' (cut '#' rest).1).1

def readUrl (url : Text) : Option UrlParts :=
  match urlsplit (refused P) url with
  | none => none
  | some s =>
    match port s.netloc with
    | none => none
    | some number =>
      some ⟨s.scheme, (hostname (lower P.letters) s.netloc).getD [], number, path s.rest⟩

/-- The settings of a validator that runs on this platform. -/
def onPlatform (cfg : Dpop.Config) : Dpop.Config :=
  { cfg with urlsplit := readUrl P, lower := lower P.letters }

def normalizeHtu (cfg : Dpop.Config) (url : Text) : Option Text :=
  Dpop.normalizeHtu (onPlatform P cfg) url

/-- What two URLs have in common that are meant to be alike. -/
structure Key where
  scheme : Text
  host : Text
  port : ℕ
  path : Text
  deriving Repr, DecidableEq

def defaultPort (scheme : Text) : ℕ := if scheme = "https".toList then 443 else 80

def key (p : UrlParts) : Key where
  scheme := lower P.letters p.scheme
  host := lower P.letters p.hostname
  port := p.port.getD (defaultPort (lower P.letters p.scheme))
  path := if p.path = [] then ['/'] else p.path

def Key.netloc (k : Key) : Text :=
  if k.port = defaultPort k.scheme then k.host else k.host ++ ':' :: (toString k.port).toList

/-- The port that is written. -/
def Key.number (k : Key) : Option ℕ := if k.port = defaultPort k.scheme then none else some k.port

def Key.text (k : Key) : Text := k.scheme ++ ':' :: ("//".toList ++ (k.netloc ++ k.path))

/-! ### Ports -/

theorem toString_digits (n : ℕ) : (toString n).toList ≠ [] ∧
    (toString n).toList.all asciiDigit = true ∧ decimal (toString n).toList = n := by
  have hdigits : (toString n).toList = Nat.toDigits 10 n := Nat.toList_repr
  rw [hdigits]
  refine ⟨Nat.toDigits_ne_nil, List.all_eq_true.mpr fun c hc => ?_, ?_⟩
  · have hdigit := Nat.isDigit_of_mem_toDigits (by decide) (by decide) hc
    simp only [Char.isDigit, Bool.and_eq_true, decide_eq_true_eq] at hdigit
    simp only [asciiDigit, Bool.and_eq_true, decide_eq_true_eq]
    exact hdigit
  · exact Nat.ofDigitChars_ten_toDigits

theorem port_le (netloc : Text) (n : ℕ) (h : port netloc = some (some n)) : n ≤ 65535 := by
  unfold port at h
  split_ifs at h with hnil hdigits
  · cases h
  · obtain rfl := Option.some.inj (Option.some.inj h)
    exact hdigits.2

/-! ### What is read of a URL that is accepted -/

theorem hostInfo_mem (netloc : Text) (c : Char) (hc : c ∈ hostInfo netloc) :
    c ∈ netloc ∧ c ≠ '@' := by
  have hinfo : c ∈ netloc.rtakeWhile (· ≠ '@') := by
    unfold hostInfo at hc
    simp only at hc
    split_ifs at hc
    · exact (List.dropWhile_suffix _).mem (List.mem_of_mem_drop ((List.takeWhile_prefix _).mem hc))
    · exact (List.takeWhile_prefix _).mem hc
  exact ⟨(List.rtakeWhile_suffix _ _).mem hinfo, by simpa using List.mem_rtakeWhile_imp hinfo⟩

theorem not_mem_cut (sep : Char) (s : Text) : sep ∉ (cut sep s).1 := fun h => by
  simpa using List.mem_takeWhile_imp h

/-- A host in brackets has no closing bracket, another one no opening bracket. -/
theorem hostInfo_brackets (netloc : Text) (h : '[' ∈ hostInfo netloc) : ']' ∉ hostInfo netloc := by
  unfold hostInfo at h ⊢
  simp only at h ⊢
  split_ifs at h ⊢ with hopen
  · exact not_mem_cut ']' _
  · exact absurd ((List.takeWhile_prefix _).mem h) hopen

/-- A host with a colon stands in brackets. -/
theorem hostInfo_colon (netloc : Text) (hrefused : refused P netloc = false)
    (hpaired : unpaired netloc = false) (h : ':' ∈ hostInfo netloc) :
    checkBracketedHost P (hostInfo netloc) = true := by
  unfold hostInfo at h ⊢
  simp only at h ⊢
  split_ifs at h ⊢ with hopen
  · have hmem : '[' ∈ netloc := (List.rtakeWhile_suffix _ _).mem hopen
    have hclosed : ']' ∈ netloc :=
      (show '[' ∈ netloc ↔ ']' ∈ netloc by simpa [unpaired] using hpaired).mp hmem
    simp only [refused, List.contains_iff_mem.mpr hmem, List.contains_iff_mem.mpr hclosed,
      Bool.and_self, Bool.true_and, Bool.or_eq_false_iff, Bool.not_eq_false'] at hrefused
    have hcheck := hrefused.1
    simp only [checkBracketedNetloc, if_pos hopen, Bool.and_eq_true] at hcheck
    exact hcheck.2
  · exact absurd h (not_mem_cut ':' _)

variable {P}

theorem lower_hostname (hP : P.Standard) (netloc host : Text)
    (h : hostname (lower P.letters) netloc = some host) :
    hostInfo netloc ≠ [] ∧ lower P.letters host = lower P.letters (hostInfo netloc) := by
  unfold hostname at h
  split_ifs at h with hne
  obtain rfl := Option.some.inj h
  refine ⟨hne, ?_⟩
  by_cases hpercent : '%' ∈ hostInfo netloc
  · obtain ⟨left, right, heq, hleft⟩ := List.eq_append_cons_of_mem hpercent
    have hdrop : (left ++ '%' :: right).dropWhile (· ≠ '%') = '%' :: right := by
      rw [List.dropWhile_append_of_pos fun c hc => ?_, List.dropWhile_cons_of_neg (by simp)]
      have hne : c ≠ '%' := fun h => hleft (h ▸ hc)
      simpa using hne
    rw [heq, Text.cut_append '%' left right hleft, hdrop, LetterCase.lower_percent hP.letters,
      LetterCase.lower_lower hP.letters, LetterCase.lower_percent hP.letters]
  · have hdrop : (hostInfo netloc).dropWhile (· ≠ '%') = [] :=
      List.dropWhile_eq_nil_iff.mpr fun c hc => by
        have hne : c ≠ '%' := fun h => hpercent (h ▸ hc)
        simpa using hne
    rw [Text.cut_of_not_mem '%' _ hpercent, hdrop, List.append_nil,
      LetterCase.lower_lower hP.letters]

/-- The keys of the URLs that are accepted. -/
structure Canonical (P : Platform) (k : Key) : Prop where
  scheme : k.scheme = "http".toList ∨ k.scheme = "https".toList
  host_ne : k.host ≠ []
  lowered : ∀ c ∈ k.host, LetterCase.Lowered P.letters c
  plain : ∀ c ∈ k.host, endsNetloc c = false ∧ c ≠ '@' ∧ visible c = true ∧ P.widens c = false
  brackets : '[' ∈ k.host → ']' ∉ k.host
  colon : ':' ∈ k.host → futureAddress k.host = true ∨ 2 ≤ k.host.count ':'
  port : k.port ≤ 65535
  path : k.path.head? = some '/'
  pathChars : ∀ c ∈ k.path, c ≠ '?' ∧ c ≠ '#' ∧ visible c = true

theorem futureAddress_iff (s : Text) : futureAddress s = true ↔ ∃ digits name,
    s = 'v' :: (digits ++ '.' :: name) ∧ digits ≠ [] ∧ (∀ c ∈ digits, hexDigit c = true) ∧
      name ≠ [] ∧ '\n' ∉ name := by
  constructor
  · intro h
    unfold futureAddress at h
    split at h
    · rename_i more
      simp only [Bool.and_eq_true, beq_iff_eq, bne_iff_ne, Bool.not_eq_true',
        ← Bool.not_eq_true, List.contains_iff_mem] at h
      obtain ⟨⟨⟨hhead, hdot⟩, hne⟩, hline⟩ := h
      refine ⟨more.takeWhile hexDigit, (more.dropWhile hexDigit).tail, ?_, ?_,
        fun c hc => List.mem_takeWhile_imp hc, hne, hline⟩
      · rw [← List.cons_head?_tail hdot, List.tail_cons, List.cons_head?_tail hdot,
          List.takeWhile_append_dropWhile]
      · cases more with
        | nil => cases hhead
        | cons c rest => simpa using hhead
    · cases h
  · rintro ⟨digits, name, rfl, hne, hdigits, hname, hline⟩
    have hstop : (digits ++ '.' :: name).dropWhile hexDigit = '.' :: name := by
      rw [List.dropWhile_append_of_pos hdigits, List.dropWhile_cons_of_neg (by decide)]
    have hhead : (digits ++ '.' :: name).head?.any hexDigit = true := by
      obtain ⟨c, rest, rfl⟩ := List.exists_cons_of_ne_nil hne
      exact hdigits c List.mem_cons_self
    simp only [futureAddress, hhead, hstop]
    simp [hname, hline]

theorem hexDigit_range (c : Char) (hc : hexDigit c = true) : c.toNat < 0x80 := by
  unfold hexDigit hexValue at hc
  split_ifs at hc with h1 h2 h3
  · exact Nat.lt_of_le_of_lt (show c.toNat ≤ '9'.toNat from h1.2) (by decide)
  · exact Nat.lt_of_le_of_lt (show c.toNat ≤ 'f'.toNat from h2.2) (by decide)
  · exact Nat.lt_of_le_of_lt (show c.toNat ≤ 'F'.toNat from h3.2) (by decide)
  · cases hc

theorem hexDigit_toLower (c : Char) (hc : hexDigit c = true) : hexDigit c.toLower = true := by
  rcases Text.toLower_cases c with ⟨hlow, hhigh, hlower⟩ | ⟨-, hsame⟩
  · have hle : c.toNat ≤ 'F'.toNat := by
      unfold hexDigit hexValue at hc
      split_ifs at hc with h1 h2 h3
      · exact absurd (show c.toNat ≤ 57 from h1.2) (by omega)
      · exact absurd (show 97 ≤ c.toNat from h2.1) (by omega)
      · exact h3.2
      · cases hc
    have hfirst : 'a' ≤ c.toLower := show 'a'.toNat ≤ c.toLower.toNat by
      rw [hlower]
      exact Nat.add_le_add_right hlow 32
    have hlast : c.toLower ≤ 'f' := show c.toLower.toNat ≤ 'f'.toNat by
      rw [hlower]
      exact Nat.add_le_add_right hle 32
    have hdigit : ¬ ('0' ≤ c.toLower ∧ c.toLower ≤ '9') := fun h => by
      have hnine : c.toLower.toNat ≤ 57 := h.2
      omega
    rw [hexDigit, hexValue, if_neg hdigit, if_pos ⟨hfirst, hlast⟩]
    rfl
  · rwa [hsame]

/-- Such an address is one in lower case as well. -/
theorem futureAddress_lower (hP : P.Standard) (s : Text) (h : futureAddress s = true) :
    futureAddress (lower P.letters s) = true := by
  obtain ⟨digits, name, rfl, hne, hdigits, hname, hline⟩ := (futureAddress_iff s).mp h
  have hascii : ∀ c ∈ 'v' :: (digits ++ ['.']), c.toNat < 0x80 := by
    intro c hc
    rcases List.mem_cons.mp hc with rfl | hc
    · decide
    · rcases List.mem_append.mp hc with hc | hc
      · exact hexDigit_range c (hdigits c hc)
      · rw [List.mem_singleton.mp hc]
        decide
  have hsplit := LetterCase.lowerFrom_ascii hP.letters [] ('v' :: (digits ++ ['.'])) name hascii
  have hmem := LetterCase.mem_lower_iff hP.letters ('v' :: (digits ++ '.' :: name)) '\n' (by decide)
  rw [show 'v' :: (digits ++ ['.']) ++ name = 'v' :: (digits ++ '.' :: name) by simp] at hsplit
  rw [lower, hsplit] at hmem ⊢
  refine (futureAddress_iff _).mpr ⟨digits.map Char.toLower, LetterCase.lowerFrom P.letters
    (('v' :: (digits ++ ['.'])).reverse ++ []) name, by simp, by simpa using hne, ?_,
    (LetterCase.lowerFrom_eq_nil_iff hP.letters _ name).not.mpr hname, fun hnew => ?_⟩
  · intro c hc
    obtain ⟨d, hd, rfl⟩ := List.mem_map.mp hc
    exact hexDigit_toLower d (hdigits d hd)
  · have hold := hmem.mp (List.mem_append_right _ hnew)
    rcases List.mem_cons.mp hold with h | hold
    · exact absurd h (by decide)
    · rcases List.mem_append.mp hold with hold | hold
      · exact absurd (hdigits _ hold) (by decide)
      · rcases List.mem_cons.mp hold with h | hold
        · exact absurd h (by decide)
        · exact hline hold

theorem mem_lower_narrow (hP : P.Standard) (s : Text) (hs : ∀ c ∈ s, P.widens c = false) :
    ∀ d ∈ lower P.letters s, P.widens d = false := by
  intro d hd
  rcases LetterCase.mem_lowerFrom_cases [] s d hd with rfl | rfl | ⟨c, hc, hmem⟩
  · exact hP.sigma.1
  · exact hP.sigma.2
  · exact hP.lowerChar c (hs c hc) d hmem

theorem path_cases (rest : Text) (hrest : ∀ c ∈ rest.head?, endsNetloc c = true) :
    path rest = [] ∨ (path rest).head? = some '/' := by
  cases rest with
  | nil => exact Or.inl rfl
  | cons c more =>
    have hc := hrest c rfl
    simp only [endsNetloc, Bool.or_eq_true, beq_iff_eq] at hc
    rcases hc with (rfl | rfl) | rfl
    · exact Or.inr (by simp [path, cut])
    · exact Or.inl (by simp [path, cut])
    · exact Or.inl (by simp [path, cut])

theorem path_chars (rest : Text) (hrest : ∀ c ∈ rest, visible c = true) :
    ∀ c ∈ path rest, c ≠ '?' ∧ c ≠ '#' ∧ visible c = true := by
  intro c hc
  have hinner : c ∈ (cut '#' rest).1 := (List.takeWhile_prefix _).mem hc
  refine ⟨?_, ?_, hrest c ((List.takeWhile_prefix _).mem hinner)⟩
  · rintro rfl
    exact not_mem_cut '?' _ hc
  · rintro rfl
    exact not_mem_cut '#' _ hinner

/-- A URL that is accepted, with what is read of it. -/
structure Accepted (P : Platform) (url : Text) (p : UrlParts) : Prop where
  read : readUrl P url = some p
  scheme : p.scheme = "http".toList ∨ p.scheme = "https".toList
  host : p.hostname ≠ []

theorem accepted_split (hP : P.Standard) (url : Text) (p : UrlParts) (h : Accepted P url p) :
    ∃ s, urlsplit (refused P) url = some s ∧ p.scheme = s.scheme ∧ port s.netloc = some p.port ∧
      hostInfo s.netloc ≠ [] ∧ lower P.letters p.hostname = lower P.letters (hostInfo s.netloc) ∧
      p.path = path s.rest := by
  obtain ⟨hread, -, hhost⟩ := h
  unfold readUrl at hread
  split at hread
  · cases hread
  rename_i s hsplit
  split at hread
  · cases hread
  rename_i number hport
  obtain rfl := Option.some.inj hread
  cases hname : hostname (lower P.letters) s.netloc with
  | none => exact absurd (by rw [hname]; rfl) hhost
  | some host =>
    obtain ⟨hinfo, hlower⟩ := lower_hostname hP s.netloc host hname
    exact ⟨s, hsplit, rfl, hport, hinfo, hlower, rfl⟩

theorem urlsplit_checks (url : Text) (s : Split) (h : urlsplit (refused P) url = some s) :
    unpaired s.netloc = false ∧ refused P s.netloc = false := by
  simp only [urlsplit] at h
  split_ifs at h with hbad
  obtain rfl := Option.some.inj h
  simpa using hbad

/-- The characters of a host in lower case. -/
theorem host_chars (hP : P.Standard) (netloc : Text) (hrefused : refused P netloc = false)
    (hends : ∀ c ∈ netloc, endsNetloc c = false) (hvisible : ∀ c ∈ netloc, visible c = true) :
    ∀ c ∈ lower P.letters (hostInfo netloc),
      endsNetloc c = false ∧ c ≠ '@' ∧ visible c = true ∧ P.widens c = false := by
  have hplain : ∀ d, LetterCase.Plain d →
      d ∈ lower P.letters (hostInfo netloc) → d ∈ netloc ∧ d ≠ '@' :=
    fun d hd hmem => hostInfo_mem _ d ((LetterCase.mem_lower_iff hP.letters _ d hd).mp hmem)
  have hnarrow : ∀ c ∈ hostInfo netloc, P.widens c = false := by
    simp only [refused, Bool.or_eq_false_iff] at hrefused
    exact fun c hc => by
      simpa using List.any_eq_false.mp hrefused.2 c (hostInfo_mem _ c hc).1
  refine fun c hc => ⟨?_, ?_, ?_, mem_lower_narrow hP _ hnarrow c hc⟩
  · by_contra hend
    simp only [Bool.not_eq_false, endsNetloc, Bool.or_eq_true, beq_iff_eq] at hend
    have hmem : c ∈ netloc := by
      rcases hend with (rfl | rfl) | rfl <;> exact (hplain _ (by decide) hc).1
    have hfree := hends c hmem
    rcases hend with (rfl | rfl) | rfl <;> cases hfree
  · rintro rfl
    exact (hplain _ (by decide) hc).2 rfl
  · by_contra hnew
    have hline : c = '\t' ∨ c = '\n' ∨ c = '\r' := by
      rw [Bool.not_eq_true, visible, Bool.not_eq_false', BrowserUrl.newline] at hnew
      simpa [or_assoc] using hnew
    have hmem : c ∈ netloc := by
      rcases hline with rfl | rfl | rfl <;> exact (hplain _ (by decide) hc).1
    exact hnew (hvisible c hmem)

theorem canonical_key (hP : P.Standard) (url : Text) (p : UrlParts) (h : Accepted P url p) :
    Canonical P (key P p) ∧ (key P p).scheme = p.scheme := by
  obtain ⟨s, hsplit, hscheme, hport, hinfo, hlower, hpath⟩ := accepted_split hP url p h
  obtain ⟨hpaired, hrefused⟩ := urlsplit_checks url s hsplit
  have hnetloc : s.netloc ≠ [] := by
    intro hnil
    rw [hnil] at hinfo
    exact hinfo rfl
  have hnamed : s.scheme ≠ [] := by
    rw [← hscheme]
    rcases h.scheme with h | h <;> rw [h] <;> decide
  obtain ⟨raw, -, -, hurl, hends, hrest⟩ :=
    urlsplit_spec (refused P) url s hsplit hnamed hnetloc
  have hvisible : ∀ c ∈ s.netloc ++ s.rest, visible c = true := fun c hc => by
    have hmem : c ∈ stripped url := by
      rw [hurl]
      simp [hc]
    exact (List.mem_filter.mp hmem).2
  have hsame : lower P.letters p.scheme = p.scheme := by
    rcases h.scheme with h | h <;> rw [h, LetterCase.lower_ascii hP.letters _
      (List.all_iff_forall_prop.mp (by decide))] <;> decide
  have hmem : ∀ d, LetterCase.Plain d →
      (d ∈ lower P.letters (hostInfo s.netloc) ↔ d ∈ hostInfo s.netloc) :=
    LetterCase.mem_lower_iff hP.letters _
  refine ⟨?_, hsame⟩
  simp only [key, hlower, hsame]
  constructor
  case scheme => exact h.scheme
  case host_ne => exact (LetterCase.lower_eq_nil_iff hP.letters _).not.mpr hinfo
  case lowered => exact LetterCase.mem_lower hP.letters _
  case plain =>
    exact host_chars hP _ hrefused hends fun c hc => hvisible c (List.mem_append_left _ hc)
  case brackets =>
    intro hopen
    rw [hmem ']' (by decide)]
    exact hostInfo_brackets _ ((hmem '[' (by decide)).mp hopen)
  case colon =>
    intro hcolon
    rw [LetterCase.count_lower hP.letters _ ':' (by decide)]
    have hcheck := hostInfo_colon P s.netloc hrefused hpaired ((hmem ':' (by decide)).mp hcolon)
    unfold checkBracketedHost at hcheck
    split_ifs at hcheck
    · exact Or.inl (futureAddress_lower hP _ hcheck)
    · exact Or.inr (hP.ipv6 _ hcheck)
  case port =>
    cases hnumber : p.port with
    | none =>
      simp only [Option.getD_none, defaultPort]
      split_ifs <;> omega
    | some n =>
      rw [hnumber] at hport
      exact port_le _ n hport
  case path =>
    simp only
    split_ifs with hnil
    · rfl
    · rw [hpath] at hnil ⊢
      exact (path_cases _ hrest).resolve_left hnil
  case pathChars =>
    simp only
    split_ifs with hnil
    · intro c hc
      rw [List.mem_singleton.mp hc]
      decide
    · rw [hpath]
      exact path_chars _ fun c hc => hvisible c (List.mem_append_right _ hc)

end Hyproxy.HtuForms

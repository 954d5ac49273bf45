import Hyproxy.PyQuery
import Hyproxy.Utf8Texts

/-!
How a browser reads a URL, up to its scheme, host and port, as the URL Standard has it for
the schemes whose URLs have a host. Of file URLs and of all other schemes the reading says no
more than that. The tables of domain names and the reading of IPv6 addresses are parameters.
-/
namespace Hyproxy.BrowserUrl

open AuthzCheck (utf8)
open PercentCoding (hexValue)
open PyQuery (unquoteBytes)
open Text (trim)
open Utf8 (decode)

abbrev Text := List Char

/-- A C0 control or the space. -/
def control (c : Char) : Bool := c.toNat ≤ 0x20

/-- An ASCII tab or newline. -/
def newline (c : Char) : Bool := c == '\t' || c == '\n' || c == '\r'

def visible (c : Char) : Bool := !newline c

def clean (s : Text) : Text := (trim control s).filter visible

def asciiAlpha (c : Char) : Bool := ('a' ≤ c && c ≤ 'z') || ('A' ≤ c && c ≤ 'Z')

def asciiDigit (c : Char) : Bool := '0' ≤ c && c ≤ '9'

def schemeChar (c : Char) : Bool := asciiAlpha c || asciiDigit c || c == '+' || c == '-' || c == '.'

/-- The scheme start state and the scheme state. -/
def splitScheme (s : Text) : Option (Text × Text) :=
  if s.head?.any asciiAlpha then
    match s.dropWhile schemeChar with
    | ':' :: rest => some ((s.takeWhile schemeChar).map Char.toLower, rest)
    | _ => none
  else none

/-- The special schemes apart from `file`. -/
inductive Special
  | ftp
  | http
  | https
  | ws
  | wss
  deriving Repr, DecidableEq

def Special.text : Special → Text
  | .ftp => "ftp".toList
  | .http => "http".toList
  | .https => "https".toList
  | .ws => "ws".toList
  | .wss => "wss".toList

def Special.defaultPort : Special → ℕ
  | .ftp => 21
  | .http => 80
  | .https => 443
  | .ws => 80
  | .wss => 443

def special (scheme : Text) : Option Special :=
  [Special.ftp, .http, .https, .ws, .wss].find? fun s => s.text == scheme

/-- Domains to ASCII, with the code points that they refuse and the IPv4 addresses that they
write, and IPv6 addresses. -/
structure HostRules (Host : Type) where
  domain : Text → Option Host
  ipv6 : Text → Option Host

/-- A URL up to its port; no port stands for the default port of the scheme. -/
structure Url (Host : Type) where
  scheme : Special
  host : Host
  port : Option ℕ
  deriving Repr, DecidableEq

/-- A URL of another scheme is read no further. -/
inductive Result (Host : Type)
  | failure
  | other (scheme : Text)
  | url (u : Url Host)
  deriving Repr, DecidableEq

def slash (c : Char) : Bool := c == '/' || c == '\\'

/-- What ends the authority of a special URL. -/
def endsAuthority (c : Char) : Bool := slash c || c == '?' || c == '#'

/-- The host state: the host, and after a colon outside brackets the port. -/
def splitHost (inside : Bool) : Text → Text × Option Text
  | [] => ([], none)
  | c :: rest =>
    if c = ':' ∧ inside = false then ([], some rest)
    else
      let tail := splitHost (if c = '[' then true else if c = ']' then false else inside) rest
      (c :: tail.1, tail.2)

def decimal (digits : Text) : ℕ := digits.foldl (fun n c => 10 * n + (c.toNat - '0'.toNat)) 0

/-- The port state. -/
def portOf (scheme : Special) : Option Text → Option (Option ℕ)
  | none => some none
  | some digits =>
    if digits = [] then some none
    else if ¬ digits.all asciiDigit ∨ 65535 < decimal digits then none
    else if decimal digits = scheme.defaultPort then some none
    else some (some (decimal digits))

section

variable {Host : Type} (rules : HostRules Host)

/-- The host parser. -/
def hostOf (text : Text) : Option Host :=
  if text.head? = some '[' then
    if text.getLast? = some ']' then rules.ipv6 text.tail.dropLast else none
  else rules.domain (decode true (unquoteBytes (utf8 text)))

/-- The host and the port behind the credentials. -/
def address (scheme : Special) (authority : Text) : Result Host :=
  let parts := splitHost false (authority.rtakeWhile (· ≠ '@'))
  if parts.1 = [] then .failure
  else
    match hostOf rules parts.1, portOf scheme parts.2 with
    | some host, some port => .url ⟨scheme, host, port⟩
    | _, _ => .failure

/-- The authority state, after the slashes. -/
def authority (scheme : Special) (s : Text) : Result Host :=
  address rules scheme ((s.dropWhile slash).takeWhile fun c => !endsAuthority c)

/-- The relative state: two slashes start an authority, and everything else keeps the host. -/
def relative (base : Url Host) : Text → Result Host
  | a :: b :: rest => if slash a && slash b then authority rules base.scheme rest else .url base
  | _ => .url base

/-- The basic URL parser. -/
def parse (base : Option (Url Host)) (s : Text) : Result Host :=
  match splitScheme (clean s) with
  | none =>
    match base with
    | none => .failure
    | some b => relative rules b (clean s)
  | some (scheme, rest) =>
    match special scheme with
    | none => .other scheme
    | some known =>
      match base with
      | none => authority rules known rest
      | some b =>
        if b.scheme = known ∧ ¬ "//".toList <+: rest then relative rules b rest
        else authority rules known rest

end

/-! ### What the tables do -/

/-- Lower case in ASCII, where the Kelvin sign is a letter too. -/
def fold (c : Char) : Char := if c = Char.ofNat 0x212A then 'k' else c.toLower

/-- Code points that no domain has, in whichever form it is written. -/
def forbidden (c : Char) : Bool := newline c || c == '[' || c == ']'

def addressChar (c : Char) : Bool := (hexValue c).isSome || c == ':' || c == '.'

/-- The documented behaviour of the tables: case does not matter, forbidden code points are refused,
and an IPv6 address is made of hexadecimal digits, colons and dots. -/
structure HostRules.Lawful {Host : Type} (rules : HostRules Host) : Prop where
  domain_fold : ∀ s, rules.domain (s.map fold) = rules.domain s
  domain_free : ∀ s, (rules.domain s).isSome → ∀ c ∈ s, forbidden c = false
  ipv6_lower : ∀ s, rules.ipv6 (s.map Char.toLower) = rules.ipv6 s
  ipv6_free : ∀ s, (rules.ipv6 s).isSome → ':' ∈ s ∧ ∀ c ∈ s, addressChar c = true

/-! ### Reading a text -/

theorem newline_control (c : Char) (hc : newline c = true) : control c = true := by
  simp only [newline, Bool.or_eq_true, beq_iff_eq] at hc
  rcases hc with (rfl | rfl) | rfl <;> decide

theorem filter_visible (s : Text) (hs : ∀ c ∈ s, control c = false) : s.filter visible = s := by
  refine List.filter_eq_self.mpr fun c hc => ?_
  by_contra hnot
  have hcontrol := newline_control c (by simpa [visible] using hnot)
  rw [hs c hc] at hcontrol
  cases hcontrol

theorem clean_eq_self (s : Text) (hs : ∀ c ∈ s, control c = false) : clean s = s := by
  rw [clean, Text.trim_eq_self control s (fun c hc => hs c (List.mem_of_mem_head? hc))
    (fun c hc => hs c (List.mem_of_mem_getLast? hc)), filter_visible s hs]

/-- A text that starts with a letter, and of which the rest may stand in a scheme. -/
structure IsScheme (raw : Text) : Prop where
  letter : raw.head?.any asciiAlpha = true
  chars : ∀ c ∈ raw, schemeChar c = true

theorem IsScheme.ne_nil {raw : Text} (h : IsScheme raw) : raw ≠ [] := by
  rintro rfl
  cases h.letter

theorem IsScheme.head? {raw : Text} (h : IsScheme raw) (more : Text) :
    (raw ++ more).head? = raw.head? := by
  rw [List.head?_append_of_ne_nil _ h.ne_nil]

theorem splitScheme_append (raw rest : Text) (h : IsScheme raw) :
    splitScheme (raw ++ ':' :: rest) = some (raw.map Char.toLower, rest) := by
  have hcolon : schemeChar ':' = false := by decide
  have htake : (raw ++ ':' :: rest).takeWhile schemeChar = raw := by
    rw [List.takeWhile_append_of_pos h.chars, List.takeWhile_cons_of_neg (by simp [hcolon]),
      List.append_nil]
  have hdrop : (raw ++ ':' :: rest).dropWhile schemeChar = ':' :: rest := by
    rw [List.dropWhile_append_of_pos h.chars, List.dropWhile_cons_of_neg (by simp [hcolon])]
  rw [splitScheme, h.head?, if_pos h.letter, hdrop, htake]
  rfl

/-- A character that no scheme has, before any colon, leaves no scheme. -/
theorem splitScheme_stop (left rest : Text) (c : Char) (hleft : ∀ d ∈ left, schemeChar d = true)
    (hc : schemeChar c = false) (hcolon : c ≠ ':') : splitScheme (left ++ c :: rest) = none := by
  have hdrop : (left ++ c :: rest).dropWhile schemeChar = c :: rest := by
    rw [List.dropWhile_append_of_pos hleft, List.dropWhile_cons_of_neg (by simp [hc])]
  rw [splitScheme, hdrop]
  split
  · split
    · rename_i heq
      exact absurd (List.cons.inj heq).1 hcolon
    · rfl
  · rfl

theorem schemeChar_not_slash (c : Char) (hc : schemeChar c = true) : slash c = false := by
  rw [← Bool.not_eq_true]
  intro hslash
  simp only [slash, Bool.or_eq_true, beq_iff_eq] at hslash
  rcases hslash with rfl | rfl <;> exact absurd hc (by decide)

section

variable {Host : Type} (rules : HostRules Host)

/-- Without two slashes at its start a relative reference keeps the host. -/
theorem relative_keeps (base : Url Host) (s : Text)
    (hs : ∀ a b rest, s = a :: b :: rest → ¬ (slash a = true ∧ slash b = true)) :
    relative rules base s = .url base := by
  match s, hs with
  | [], _ => rfl
  | [_], _ => rfl
  | a :: b :: rest, hs =>
    rw [relative, if_neg]
    rw [Bool.and_eq_true]
    exact hs a b rest rfl

/-- A text without a scheme that does not start with a slash stays on the host. -/
theorem parse_relative (base : Url Host) (left rest : Text) (c : Char)
    (hclean : clean (left ++ c :: rest) = left ++ c :: rest)
    (hleft : ∀ d ∈ left, schemeChar d = true) (hc : schemeChar c = false) (hcolon : c ≠ ':')
    (hslash : slash c = false) :
    parse rules (some base) (left ++ c :: rest) = .url base := by
  rw [parse, hclean, splitScheme_stop left rest c hleft hc hcolon]
  refine relative_keeps rules base _ fun a b more heq => ?_
  cases left with
  | nil =>
    rw [← (List.cons.inj heq).1, hslash]
    simp
  | cons d left =>
    rw [← (List.cons.inj heq).1, schemeChar_not_slash d (hleft d (by simp))]
    simp

/-- A text with a special scheme keeps the host of a base of that scheme, or names an authority. -/
theorem parse_special (base : Option (Url Host)) (s raw rest : Text) (scheme : Special)
    (hclean : clean s = raw ++ ':' :: rest) (hraw : IsScheme raw)
    (hscheme : special (raw.map Char.toLower) = some scheme) :
    parse rules base s = authority rules scheme rest ∨
      ∃ b, base = some b ∧ ¬ "//".toList <+: rest ∧ parse rules base s = relative rules b rest := by
  unfold parse
  rw [hclean, splitScheme_append raw rest hraw]
  simp only [hscheme]
  cases base with
  | none => exact Or.inl rfl
  | some b =>
    simp only
    split
    · rename_i hsame
      exact Or.inr ⟨b, rfl, hsame.2, rfl⟩
    · exact Or.inl rfl

theorem parse_authority (base : Option (Url Host)) (s raw rest : Text) (scheme : Special)
    (hclean : clean s = raw ++ ':' :: ("//".toList ++ rest)) (hraw : IsScheme raw)
    (hscheme : special (raw.map Char.toLower) = some scheme) :
    parse rules base s = authority rules scheme ("//".toList ++ rest) := by
  rcases parse_special rules base s raw _ scheme hclean hraw hscheme with hauth | ⟨b, -, hno, -⟩
  · exact hauth
  · exact absurd (List.prefix_append _ _) hno

/-- Only a special scheme makes a URL with a host. -/
theorem special_of_parse (base : Option (Url Host)) (s raw rest : Text) (u : Url Host)
    (hclean : clean s = raw ++ ':' :: rest) (hraw : IsScheme raw)
    (hparse : parse rules base s = .url u) :
    ∃ scheme, special (raw.map Char.toLower) = some scheme := by
  unfold parse at hparse
  rw [hclean, splitScheme_append raw rest hraw] at hparse
  simp only at hparse
  cases hspecial : special (raw.map Char.toLower) with
  | none =>
    rw [hspecial] at hparse
    cases hparse
  | some scheme => exact ⟨scheme, rfl⟩

/-- The authority ends where the path, the query or the fragment starts. -/
theorem authority_append (scheme : Special) (netloc rest : Text) (hne : netloc ≠ [])
    (hnetloc : ∀ c ∈ netloc, endsAuthority c = false)
    (hrest : ∀ c ∈ rest.head?, endsAuthority c = true) :
    authority rules scheme ("//".toList ++ (netloc ++ rest)) = address rules scheme netloc := by
  obtain ⟨c, more, rfl⟩ := List.exists_cons_of_ne_nil hne
  have hc : slash c = false := by
    have hends := hnetloc c (by simp)
    simp only [endsAuthority, Bool.or_eq_false_iff] at hends
    exact hends.1.1
  have hdrop : ("//".toList ++ (c :: more ++ rest)).dropWhile slash = c :: more ++ rest := by
    simp [slash] at hc ⊢
    simp [hc]
  have htake : (c :: more ++ rest).takeWhile (fun c => !endsAuthority c) = c :: more := by
    rw [List.takeWhile_append_of_pos (fun d hd => by simp [hnetloc d hd])]
    cases rest with
    | nil => simp
    | cons d rest => rw [List.takeWhile_cons_of_neg (by simp [hrest d rfl]), List.append_nil]
  rw [authority, hdrop, htake]

end

/-! ### Hosts and ports -/

theorem splitHost_append (left right : Text) (hbracket : '[' ∉ left) (hcolon : ':' ∉ left) :
    splitHost false (left ++ right) =
      (left ++ (splitHost false right).1, (splitHost false right).2) := by
  induction left with
  | nil => rfl
  | cons c left ih =>
    rw [List.mem_cons, not_or] at hbracket hcolon
    rw [List.cons_append, splitHost, if_neg (fun h => hcolon.1 h.1.symm),
      if_neg (fun h => hbracket.1 h.symm), ite_self, ih hbracket.2 hcolon.2]
    rfl

theorem splitHost_colon (left right : Text) (hbracket : '[' ∉ left) (hcolon : ':' ∉ left) :
    splitHost false (left ++ ':' :: right) = (left, some right) := by
  rw [splitHost_append left _ hbracket hcolon]
  simp [splitHost]

theorem splitHost_plain (s : Text) (hbracket : '[' ∉ s) :
    (splitHost false s).1 = s.takeWhile (· ≠ ':') := by
  induction s with
  | nil => rfl
  | cons c s ih =>
    rw [List.mem_cons, not_or] at hbracket
    by_cases hcolon : c = ':'
    · simp [splitHost, hcolon]
    · rw [splitHost, if_neg (fun h => hcolon h.1), if_neg (fun h => hbracket.1 h.symm), ite_self,
        List.takeWhile_cons_of_pos (by simpa using hcolon)]
      exact congrArg (c :: ·) (ih hbracket.2)

theorem splitHost_open (s : Text) (hbracket : ']' ∉ s) : splitHost true s = (s, none) := by
  induction s with
  | nil => rfl
  | cons c s ih =>
    rw [List.mem_cons, not_or] at hbracket
    have hinside : (if c = '[' then true else if c = ']' then false else true) = true := by
      simp [Ne.symm hbracket.1]
    rw [splitHost, if_neg (by simp), hinside, ih hbracket.2]

theorem splitHost_close (left right : Text) (hbracket : ']' ∉ left) :
    splitHost true (left ++ ']' :: right) =
      (left ++ ']' :: (splitHost false right).1, (splitHost false right).2) := by
  induction left with
  | nil => simp [splitHost]
  | cons c left ih =>
    rw [List.mem_cons, not_or] at hbracket
    have hinside : (if c = '[' then true else if c = ']' then false else true) = true := by
      simp [Ne.symm hbracket.1]
    rw [List.cons_append, splitHost, if_neg (by simp), hinside, ih hbracket.2]
    rfl

theorem portOf_digits (scheme : Special) (digits : Text) (c : Char) (hc : c ∈ digits)
    (hdigit : asciiDigit c = false) : portOf scheme (some digits) = none := by
  have hall : ¬ digits.all asciiDigit = true := by
    intro hall
    rw [List.all_eq_true.mp hall c hc] at hdigit
    cases hdigit
  rw [portOf, if_neg (List.ne_nil_of_mem hc), if_pos (Or.inl hall)]

section

variable {Host : Type} (rules : HostRules Host)

theorem hostOf_open (text : Text) : hostOf rules ('[' :: text) =
    if ('[' :: text).getLast? = some ']' then rules.ipv6 text.dropLast else none :=
  if_pos rfl

theorem address_failure (scheme : Special) (text : Text)
    (h : (splitHost false (text.rtakeWhile (· ≠ '@'))).1 = [] ∨
      hostOf rules (splitHost false (text.rtakeWhile (· ≠ '@'))).1 = none ∨
      portOf scheme (splitHost false (text.rtakeWhile (· ≠ '@'))).2 = none) :
    address rules scheme text = .failure := by
  rw [address]
  rcases h with hnil | hhost | hport
  · rw [if_pos hnil]
  · rw [hhost, ite_self]
  · split
    · rfl
    · rw [hport]
      split
      · rename_i heq
        cases heq
      · rfl

/-- An authority that is read has the host that its host part denotes. -/
theorem address_cases (scheme : Special) (text : Text) :
    address rules scheme text = .failure ∨
      ∃ host port, address rules scheme text = .url ⟨scheme, host, port⟩ ∧
        hostOf rules (splitHost false (text.rtakeWhile (· ≠ '@'))).1 = some host ∧
        portOf scheme (splitHost false (text.rtakeWhile (· ≠ '@'))).2 = some port := by
  by_cases hnil : (splitHost false (text.rtakeWhile (· ≠ '@'))).1 = []
  · exact Or.inl (address_failure rules scheme text (Or.inl hnil))
  cases hhost : hostOf rules (splitHost false (text.rtakeWhile (· ≠ '@'))).1 with
  | none => exact Or.inl (address_failure rules scheme text (Or.inr (Or.inl hhost)))
  | some host =>
    cases hport : portOf scheme (splitHost false (text.rtakeWhile (· ≠ '@'))).2 with
    | none => exact Or.inl (address_failure rules scheme text (Or.inr (Or.inr hport)))
    | some port =>
      refine Or.inr ⟨host, port, ?_, rfl, rfl⟩
      rw [address, if_neg hnil, hhost, hport]

end

end Hyproxy.BrowserUrl

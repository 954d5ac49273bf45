import Hyproxy.HeaderReading

/-!
Origins as browsers send them, `scheme://host[:port]`: in any alphabet, and in ASCII. A browser and
`urlsplit` agree on what the ASCII ones are made of, and a text that goes on after one at a
delimiter has its origin.
-/
namespace Hyproxy.Origins

open BrowserUrl
open HeaderReading (Reads)
open PercentCoding (hexValue)
open PyQuery (unquoteBytes)
open PyUrl (Split endsNetloc hostInfo hostname urlsplit)
open Text (cut)

/-- A printable ASCII character that the host of an origin may have. -/
def nameChar (c : Char) : Bool :=
  0x20 < c.toNat && c.toNat < 0x7F && !"#/:<>?@[\\]^|%".toList.contains c

/-- The host of an origin: a domain or an IPv4 address, or an IPv6 address in brackets. -/
inductive OriginHost : Text → Prop
  | name (host : Text) (hne : host ≠ []) (hchars : ∀ c ∈ host, nameChar c = true) :
      OriginHost host
  | address (inner : Text) (hcolon : ':' ∈ inner) (hchars : ∀ c ∈ inner, addressChar c = true) :
      OriginHost ('[' :: (inner ++ [']']))

/-- Nothing, or a colon and a port number. -/
def OriginPort (port : Text) : Prop :=
  port = [] ∨ ∃ digits, port = ':' :: digits ∧ digits.all asciiDigit = true ∧ decimal digits ≤ 65535

def originText (known : Special) (netloc : Text) : Text :=
  known.text ++ ':' :: ("//".toList ++ netloc)

/-- An origin of the web. -/
structure IsOrigin (origin : Text) : Prop where
  shape : ∃ known host port, origin = originText known (host ++ port) ∧
    (known = .http ∨ known = .https) ∧ OriginHost host ∧ OriginPort port

/-- A character that may stand between the slashes and the path. -/
def netlocChar (c : Char) : Bool := 0x20 < c.toNat && !"/\\?#@%".toList.contains c

/-- The text of an origin in any alphabet: nothing in it ends the network location. -/
structure IsOriginText (origin : Text) : Prop where
  shape : ∃ known netloc, origin = originText known netloc ∧ netloc ≠ [] ∧
    ∀ c ∈ netloc, netlocChar c = true

/-- The host without its brackets. -/
def unbracketed (host : Text) : Text := if '[' ∈ host then host.tail.dropLast else host

theorem netlocChar_spec (c : Char) (hc : netlocChar c = true) :
    control c = false ∧ endsAuthority c = false ∧ endsNetloc c = false ∧ c ≠ '@' ∧ c ≠ '%' := by
  rw [netlocChar, Bool.and_eq_true, decide_eq_true_iff, Bool.not_eq_true', ← Bool.not_eq_true,
    List.contains_iff_mem] at hc
  have hne : ∀ d ∈ "/\\?#@%".toList, c ≠ d := fun d hd h => hc.2 (h ▸ hd)
  refine ⟨decide_eq_false (by omega), ?_, ?_, hne '@' (by decide), hne '%' (by decide)⟩
  · simp only [endsAuthority, slash, Bool.or_eq_false_iff, beq_eq_false_iff_ne]
    exact ⟨⟨⟨hne '/' (by decide), hne '\\' (by decide)⟩, hne '?' (by decide)⟩, hne '#' (by decide)⟩
  · simp only [endsNetloc, Bool.or_eq_false_iff, beq_eq_false_iff_ne]
    exact ⟨⟨hne '/' (by decide), hne '?' (by decide)⟩, hne '#' (by decide)⟩

theorem nameChar_netloc (c : Char) (hc : nameChar c = true) : netlocChar c = true := by
  have htable : ∀ d ∈ "/\\?#@%".toList, nameChar d = false := List.all_iff_forall_prop.mp (by decide)
  rw [netlocChar, Bool.and_eq_true, Bool.not_eq_true', ← Bool.not_eq_true, List.contains_iff_mem]
  refine ⟨?_, fun hmem => ?_⟩
  · rw [nameChar, Bool.and_eq_true, Bool.and_eq_true] at hc
    exact hc.1.1
  · rw [htable c hmem] at hc
    cases hc

theorem hexValue_range (c : Char) (hc : (hexValue c).isSome) : 0x30 ≤ c.toNat ∧ c.toNat < 0x80 := by
  have hge : ∀ lo : Char, lo ≤ c → lo.toNat ≤ c.toNat := fun _ h => h
  have hle : ∀ hi : Char, c ≤ hi → c.toNat ≤ hi.toNat := fun _ h => h
  unfold hexValue at hc
  split_ifs at hc with hdigit hsmall hcapital
  · have hlow := hge _ hdigit.1
    have hhigh := hle _ hdigit.2
    simp only [Char.reduceToNat] at hlow hhigh
    omega
  · have hlow := hge _ hsmall.1
    have hhigh := hle _ hsmall.2
    simp only [Char.reduceToNat] at hlow hhigh
    omega
  · have hlow := hge _ hcapital.1
    have hhigh := hle _ hcapital.2
    simp only [Char.reduceToNat] at hlow hhigh
    omega
  · cases hc

theorem addressChar_range (c : Char) (hc : addressChar c = true) :
    0x2E ≤ c.toNat ∧ c.toNat < 0x80 := by
  simp only [addressChar, Bool.or_eq_true, beq_iff_eq] at hc
  rcases hc with (hhex | rfl) | rfl
  · have hrange := hexValue_range c hhex
    omega
  all_goals decide

theorem addressChar_netloc (c : Char) (hc : addressChar c = true) : netlocChar c = true := by
  have htable : ∀ d ∈ "/\\?#@%".toList, addressChar d = false :=
    List.all_iff_forall_prop.mp (by decide)
  rw [netlocChar, Bool.and_eq_true, Bool.not_eq_true', ← Bool.not_eq_true, List.contains_iff_mem,
    decide_eq_true_iff]
  refine ⟨?_, fun hmem => ?_⟩
  · have hrange := addressChar_range c hc
    omega
  · rw [htable c hmem] at hc
    cases hc

theorem asciiDigit_netloc (c : Char) (hc : asciiDigit c = true) : netlocChar c = true := by
  refine addressChar_netloc c ?_
  rw [asciiDigit, Bool.and_eq_true, decide_eq_true_iff, decide_eq_true_iff] at hc
  simp [addressChar, hexValue, hc]

theorem host_chars {host : Text} (h : OriginHost host) : ∀ c ∈ host, netlocChar c = true := by
  cases h with
  | name _ _ hchars => exact fun c hc => nameChar_netloc c (hchars c hc)
  | address inner _ hchars =>
    intro c hc
    rcases List.mem_cons.mp hc with rfl | hc
    · decide
    · rcases List.mem_append.mp hc with hc | hc
      · exact addressChar_netloc c (hchars c hc)
      · rw [List.mem_singleton.mp hc]
        decide

theorem netloc_chars {host port : Text} (hhost : OriginHost host) (hport : OriginPort port) :
    ∀ c ∈ host ++ port, netlocChar c = true := by
  intro c hc
  rcases List.mem_append.mp hc with hc | hc
  · exact host_chars hhost c hc
  · rcases hport with rfl | ⟨digits, rfl, hdigits, -⟩
    · cases hc
    · rcases List.mem_cons.mp hc with rfl | hc
      · decide
      · exact asciiDigit_netloc c (List.all_eq_true.mp hdigits c hc)

theorem host_ne_nil {host : Text} (h : OriginHost host) : host ≠ [] := by
  cases h with
  | name _ hne _ => exact hne
  | address inner _ _ => exact List.cons_ne_nil _ _

theorem IsOrigin.text {origin : Text} (h : IsOrigin origin) : IsOriginText origin := by
  obtain ⟨known, host, port, horigin, -, hhost, hport⟩ := h.shape
  exact ⟨known, host ++ port, horigin, by simp [host_ne_nil hhost], netloc_chars hhost hport⟩

theorem name_free {host : Text} (hchars : ∀ c ∈ host, nameChar c = true) (d : Char)
    (hd : nameChar d = false) : d ∉ host := fun hmem => by
  rw [hchars d hmem] at hd
  cases hd

theorem address_free {inner : Text} (hchars : ∀ c ∈ inner, addressChar c = true) (d : Char)
    (hd : addressChar d = false) : d ∉ inner := fun hmem => by
  rw [hchars d hmem] at hd
  cases hd

theorem special_text (known : Special) : special known.text = some known := by
  cases known <;> decide

theorem isScheme_text (known : Special) : IsScheme known.text := by
  cases known <;> exact ⟨by decide, List.all_iff_forall_prop.mp (by decide)⟩

theorem lower_text (known : Special) : known.text.map Char.toLower = known.text := by
  cases known <;> decide

/-! ### Its parts -/

theorem splitHost_origin {host : Text} (h : OriginHost host) (port : Text) :
    splitHost false (host ++ port) =
      (host ++ (splitHost false port).1, (splitHost false port).2) := by
  cases h with
  | name _ _ hchars =>
    exact splitHost_append host port (name_free hchars '[' (by decide))
      (name_free hchars ':' (by decide))
  | address inner _ hchars =>
    have hopen : ∀ s, splitHost false ('[' :: s) =
        ('[' :: (splitHost true s).1, (splitHost true s).2) :=
      fun _ => rfl
    rw [List.cons_append, hopen, List.append_assoc, List.singleton_append,
      splitHost_close inner port (address_free hchars ']' (by decide))]
    simp

theorem splitHost_port {port : Text} (h : OriginPort port) (known : Special) :
    (splitHost false port).1 = [] ∧ ∃ p, portOf known (splitHost false port).2 = some p := by
  rcases h with rfl | ⟨digits, rfl, hdigits, hrange⟩
  · exact ⟨rfl, none, rfl⟩
  · refine ⟨rfl, ?_⟩
    change ∃ p, portOf known (some digits) = some p
    unfold portOf
    simp only
    split_ifs with hnil hbad hdefault
    · exact ⟨none, rfl⟩
    · rcases hbad with hbad | hbad
      · exact absurd hdigits hbad
      · omega
    · exact ⟨none, rfl⟩
    · exact ⟨_, rfl⟩

theorem rtakeWhile_netloc (s : Text) (hs : ∀ c ∈ s, netlocChar c = true) :
    s.rtakeWhile (· ≠ '@') = s :=
  List.rtakeWhile_eq_self_iff.mpr fun c hc => by
    simpa using (netlocChar_spec c (hs c hc)).2.2.2.1

theorem hostInfo_origin {host port : Text} (hhost : OriginHost host) (hport : OriginPort port) :
    hostInfo (host ++ port) = unbracketed host := by
  have hcut : ∀ s, ':' ∉ s → (cut ':' (s ++ port)).1 = s := fun s hs => by
    rcases hport with rfl | ⟨digits, rfl, -, -⟩
    · rw [List.append_nil, Text.cut_of_not_mem ':' s hs]
    · rw [Text.cut_append ':' s digits hs]
  have hclosed : '[' ∉ port := by
    rcases hport with rfl | ⟨digits, rfl, hdigits, -⟩
    · exact List.not_mem_nil
    · intro hmem
      rcases List.mem_cons.mp hmem with h | h
      · exact absurd h (by decide)
      · exact absurd (List.all_eq_true.mp hdigits '[' h) (by decide)
  rw [hostInfo, rtakeWhile_netloc _ (netloc_chars hhost hport)]
  cases hhost with
  | name _ _ hchars =>
    have hopen := name_free hchars '[' (by decide)
    rw [if_neg (by simp [hopen, hclosed]), hcut host (name_free hchars ':' (by decide)), unbracketed,
      if_neg hopen]
  | address v _ hchars =>
    rw [if_pos (by simp), unbracketed, if_pos (by simp), List.tail_cons, List.dropLast_concat,
      List.cons_append, show ∀ s, cut '[' ('[' :: s) = ([], s) from
        fun s => Text.cut_append '[' [] s (by simp), List.append_assoc, List.singleton_append,
      Text.cut_append ']' v port (address_free hchars ']' (by decide))]

section

variable {Host : Type} (rules : HostRules Host)

theorem address_origin (known : Special) {host port : Text} (value : Host)
    (hhost : OriginHost host) (hport : OriginPort port) (hvalue : hostOf rules host = some value) :
    ∃ p, address rules known (host ++ port) = .url ⟨known, value, p⟩ := by
  obtain ⟨hnil, p, hp⟩ := splitHost_port hport known
  refine ⟨p, ?_⟩
  rw [address, rtakeWhile_netloc _ (netloc_chars hhost hport), splitHost_origin hhost, hnil,
    List.append_nil]
  rw [if_neg (host_ne_nil hhost), hvalue, hp]

/-- A text that goes on after a network location at a delimiter is read as far as that. -/
theorem parse_netloc (base : Option (Url Host)) (s raw netloc rest : Text) (known : Special)
    (hclean : clean s = raw ++ ':' :: ("//".toList ++ (netloc ++ rest))) (hraw : IsScheme raw)
    (hknown : special (raw.map Char.toLower) = some known) (hne : netloc ≠ [])
    (hnetloc : ∀ c ∈ netloc, netlocChar c = true)
    (hrest : ∀ c ∈ rest.head?, endsAuthority c = true) :
    parse rules base s = address rules known netloc := by
  rw [parse_authority rules base s raw _ known hclean hraw hknown,
    authority_append rules known netloc rest hne
      (fun c hc => (netlocChar_spec c (hnetloc c hc)).2.1) hrest]

theorem originText_control (known : Special) (netloc : Text)
    (hnetloc : ∀ c ∈ netloc, netlocChar c = true) :
    ∀ c ∈ originText known netloc, control c = false := by
  intro c hc
  rcases List.mem_append.mp hc with hc | hc
  · have htext : ∀ known : Special, ∀ d ∈ known.text, control d = false := by
      intro known
      cases known <;> exact List.all_iff_forall_prop.mp (by decide)
    exact htext known c hc
  · rcases List.mem_append.mp (show c ∈ "://".toList ++ netloc from hc) with hc | hc
    · have htable : ∀ d ∈ "://".toList, control d = false :=
        List.all_iff_forall_prop.mp (by decide)
      exact htable c hc
    · exact (netlocChar_spec c (hnetloc c hc)).1

theorem parse_origin (base : Option (Url Host)) (known : Special) (netloc : Text)
    (hne : netloc ≠ []) (hnetloc : ∀ c ∈ netloc, netlocChar c = true) :
    parse rules base (originText known netloc) = address rules known netloc := by
  refine parse_netloc rules base _ known.text netloc [] known ?_ (isScheme_text known) ?_ hne
    hnetloc (by simp)
  · rw [clean_eq_self _ (originText_control known netloc hnetloc), List.append_nil]
    rfl
  · rw [lower_text, special_text]

theorem hostOf_plain (s : Text) (hpercent : '%' ∉ s) (hhead : s.head? ≠ some '[') :
    hostOf rules s = rules.domain s := by
  have hbytes : ∀ t : Text, '%' ∉ t → unquoteBytes t = t := fun t ht => by
    induction t with
    | nil => rfl
    | cons c t ih =>
      rw [List.mem_cons, not_or] at ht
      rw [PyQuery.unquoteBytes_plain c t (Ne.symm ht.1), ih ht.2]
  rw [hostOf, if_neg hhead, hbytes _ (LocationHeader.percent_utf8 s hpercent),
    Utf8Texts.decode_utf8]

/-! ### Hosts in lower case -/

theorem toLower_eq (c d : Char) (h : c.toLower = d) (hd : d.toNat < 0x61) : c = d := by
  subst h
  rcases Text.toLower_cases c with ⟨hlow, -, hlower⟩ | ⟨-, hlower⟩
  · omega
  · exact hlower.symm

theorem fold_eq (c d : Char) (h : fold c = d) (hd : d.toNat < 0x61) : c = d := by
  unfold fold at h
  split at h
  · subst h
    exact absurd hd (by decide)
  · exact toLower_eq c d h hd

theorem fold_ascii (s : Text) (hs : Utf8.Ascii s) : s.map fold = s.map Char.toLower := by
  refine List.map_congr_left fun c hc => if_neg ?_
  rintro rfl
  exact absurd (hs _ hc) (by decide)

/-- A host in lower case has the delimiters that the host has. -/
theorem mem_of_fold (s t : Text) (h : s.map fold = t) (d : Char) (hd : d.toNat < 0x61)
    (hself : fold d = d) : d ∈ s ↔ d ∈ t := by
  rw [← h, List.mem_map]
  constructor
  · exact fun hmem => ⟨d, hmem, hself⟩
  · rintro ⟨c, hc, heq⟩
    rwa [← fold_eq c d heq hd]

theorem unbracketed_ascii {host : Text} (h : OriginHost host) : Utf8.Ascii (unbracketed host) := by
  cases h with
  | name _ _ hchars =>
    rw [unbracketed, if_neg (name_free hchars '[' (by decide))]
    intro c hc
    have hchar := hchars c hc
    rw [nameChar, Bool.and_eq_true, Bool.and_eq_true, decide_eq_true_iff,
      decide_eq_true_iff] at hchar
    omega
  | address v _ hchars =>
    rw [unbracketed, if_pos (by simp), List.tail_cons, List.dropLast_concat]
    intro c hc
    exact (addressChar_range c (hchars c hc)).2

/-- What is read as the host of an origin, but for case, is its host. -/
theorem reads_origin (hrules : rules.Lawful) {host : Text} (hhost : OriginHost host) (raw : Text)
    (value : Host) (hsame : raw.map fold = (unbracketed host).map Char.toLower)
    (hreads : Reads rules raw value) : hostOf rules host = some value := by
  have hfold := fold_ascii _ (unbracketed_ascii hhost)
  rw [← hfold] at hsame
  have hcolon : ':' ∈ raw ↔ ':' ∈ unbracketed host := by
    rw [mem_of_fold raw _ hsame ':' (by decide) (by decide),
      ← mem_of_fold (unbracketed host) _ rfl ':' (by decide) (by decide)]
  cases hhost with
  | name _ _ hchars =>
    have hopen := name_free hchars '[' (by decide)
    rw [unbracketed, if_neg hopen] at hsame hcolon
    rcases hreads with ⟨-, hdomain⟩ | hipv6
    · rw [hostOf_plain rules host (name_free hchars '%' (by decide))
        (fun h => hopen (List.mem_of_mem_head? (Option.mem_def.mpr h))),
        ← hrules.domain_fold host, ← hsame, hrules.domain_fold]
      exact hdomain
    · have hmem := hcolon.mp (hrules.ipv6_free raw (by rw [hipv6]; rfl)).1
      exact absurd hmem (name_free hchars ':' (by decide))
  | address v hv hchars =>
    rw [unbracketed, if_pos (by simp), List.tail_cons, List.dropLast_concat] at hsame hcolon hfold
    rcases hreads with ⟨hno, -⟩ | hipv6
    · exact absurd (hcolon.mpr hv) hno
    · have hascii : Utf8.Ascii raw := fun c hc =>
        (addressChar_range c ((hrules.ipv6_free raw (by rw [hipv6]; rfl)).2 c hc)).2
      rw [hostOf_open, if_pos (by rw [← List.cons_append, List.getLast?_concat]),
        List.dropLast_concat, ← hrules.ipv6_lower v, ← hfold, ← hsame, fold_ascii raw hascii,
        hrules.ipv6_lower]
      exact hipv6

end

end Hyproxy.Origins

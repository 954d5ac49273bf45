import Hyproxy.AuthzCheck
import Hyproxy.Routing

/-!
The host names of resources. An administrator's value is normalized before it is
stored, by `str` methods that know all of Unicode; the data plane routes by its own
reading of the bytes. A stored host is routable when it is ASCII.
-/
namespace Hyproxy.PublicHosts

open AuthzCheck (utf8)
open Routing
open Text (isSpace strip)
open Utf8 (Ascii)

/-- The code points for which `str.isdigit` holds. -/
def digitRanges : List (ℕ × ℕ) :=
  [(0x30, 0x39), (0xB2, 0xB3), (0xB9, 0xB9), (0x660, 0x669), (0x6F0, 0x6F9), (0x7C0, 0x7C9),
   (0x966, 0x96F), (0x9E6, 0x9EF), (0xA66, 0xA6F), (0xAE6, 0xAEF), (0xB66, 0xB6F), (0xBE6, 0xBEF),
   (0xC66, 0xC6F), (0xCE6, 0xCEF), (0xD66, 0xD6F), (0xDE6, 0xDEF), (0xE50, 0xE59), (0xED0, 0xED9),
   (0xF20, 0xF29), (0x1040, 0x1049), (0x1090, 0x1099), (0x1369, 0x1371), (0x17E0, 0x17E9),
   (0x1810, 0x1819), (0x1946, 0x194F), (0x19D0, 0x19DA), (0x1A80, 0x1A89), (0x1A90, 0x1A99),
   (0x1B50, 0x1B59), (0x1BB0, 0x1BB9), (0x1C40, 0x1C49), (0x1C50, 0x1C59), (0x2070, 0x2070),
   (0x2074, 0x2079), (0x2080, 0x2089), (0x2460, 0x2468), (0x2474, 0x247C), (0x2488, 0x2490),
   (0x24EA, 0x24EA), (0x24F5, 0x24FD), (0x24FF, 0x24FF), (0x2776, 0x277E), (0x2780, 0x2788),
   (0x278A, 0x2792), (0xA620, 0xA629), (0xA8D0, 0xA8D9), (0xA900, 0xA909), (0xA9D0, 0xA9D9),
   (0xA9F0, 0xA9F9), (0xAA50, 0xAA59), (0xABF0, 0xABF9), (0xFF10, 0xFF19), (0x104A0, 0x104A9),
   (0x10A40, 0x10A43), (0x10D30, 0x10D39), (0x10E60, 0x10E68), (0x11052, 0x1105A),
   (0x11066, 0x1106F), (0x110F0, 0x110F9), (0x11136, 0x1113F), (0x111D0, 0x111D9),
   (0x112F0, 0x112F9), (0x11450, 0x11459), (0x114D0, 0x114D9), (0x11650, 0x11659),
   (0x116C0, 0x116C9), (0x11730, 0x11739), (0x118E0, 0x118E9), (0x11950, 0x11959),
   (0x11C50, 0x11C59), (0x11D50, 0x11D59), (0x11DA0, 0x11DA9), (0x11F50, 0x11F59),
   (0x16A60, 0x16A69), (0x16AC0, 0x16AC9), (0x16B50, 0x16B59), (0x1D7CE, 0x1D7FF),
   (0x1E140, 0x1E149), (0x1E2F0, 0x1E2F9), (0x1E4F0, 0x1E4F9), (0x1E950, 0x1E959),
   (0x1F100, 0x1F10A), (0x1FBF0, 0x1FBF9)]

/-- `str.isdigit` of one character -/
def isDigit (c : Char) : Bool := digitRanges.any fun r => r.1 ≤ c.toNat && c.toNat ≤ r.2

/-- `str.lower` of one character, apart from characters above Latin-1 that it keeps outside ASCII
and one for one: none of them is a digit, and no host has them. -/
def lowerChar (c : Char) : List Char :=
  if ('A' ≤ c ∧ c ≤ 'Z') ∨ (0xC0 ≤ c.toNat ∧ c.toNat ≤ 0xDE ∧ c.toNat ≠ 0xD7) then
    [Char.ofNat (c.toNat + 32)]
  else if c.toNat = 0x130 then ['i', Char.ofNat 0x307]
  else if c.toNat = 0x212A then ['k']
  else [c]

/-- `str.lower()` -/
def lower (s : List Char) : List Char := s.flatMap lowerChar

/-- `str.rstrip(".")` -/
def rstripDots (s : List Char) : List Char := s.rdropWhile (· = '.')

/-- Why a label is refused. -/
def labelError (label : List Char) : Option String :=
  if label = [] ∨ 63 < label.length then some "public_host has an empty or over-long label"
  else if label.head? = some '-' ∨ label.getLast? = some '-' then
    some "public_host label may not start or end with '-'"
  else if label.all fun c => c = '-' || isDigit c || ('a' ≤ c && c ≤ 'z') then none
  else some "public_host may only contain a-z, 0-9, and '-'"

/-- `_normalize_public_host` of a string -/
def normalizePublicHost (v : List Char) : Except String (List Char) :=
  let host := rstripDots (lower (strip v))
  if host = [] ∨ 253 < host.length then .error "public_host must be 1-253 characters"
  else
    match (host.splitOn '.').findSome? labelError with
    | some message => .error message
    | none => .ok host

/-! ### What the normalization keeps -/

theorem mem_dropWhile (drop : Char → Bool) (s : List Char) (c : Char) (hc : c ∈ s)
    (hkeep : drop c = false) : c ∈ s.dropWhile drop := by
  rw [← List.takeWhile_append_dropWhile (p := drop) (l := s), List.mem_append] at hc
  rcases hc with hc | hc
  · rw [List.mem_takeWhile_imp hc] at hkeep
    cases hkeep
  · exact hc

theorem mem_rdropWhile (drop : Char → Bool) (s : List Char) (c : Char) (hc : c ∈ s)
    (hkeep : drop c = false) : c ∈ s.rdropWhile drop :=
  List.mem_reverse.mpr (mem_dropWhile drop s.reverse c (List.mem_reverse.mpr hc) hkeep)

theorem mem_strip (s : List Char) (c : Char) (hc : c ∈ s) (hkeep : isSpace c = false) :
    c ∈ strip s :=
  mem_rdropWhile isSpace _ c (mem_dropWhile isSpace s c hc hkeep) hkeep

theorem of_mem_strip (s : List Char) (c : Char) (hc : c ∈ strip s) : c ∈ s :=
  (List.dropWhile_sublist _).mem ((List.rdropWhile_prefix _ _).mem hc)

/-- No digit lies where white space, upper case or a combining dot does. -/
theorem digit_gaps :
    ∀ r ∈ digitRanges, ∀ gap ∈ [(9, 13), (28, 32), (0x41, 0x5A), (0x85, 0x85), (0xA0, 0xA0),
      (0xC0, 0xFE), (0x130, 0x130), (0x307, 0x307), (0x1680, 0x1680), (0x2000, 0x200A),
      (0x2028, 0x2029), (0x202F, 0x202F), (0x205F, 0x205F), (0x212A, 0x212A), (0x3000, 0x3000)],
      r.2 < gap.1 ∨ gap.2 < r.1 := by
  decide

theorem isSpace_of_isDigit (c : Char) (hc : isDigit c = true) : isSpace c = false := by
  obtain ⟨r, hr, hrange⟩ := List.any_eq_true.mp hc
  have hgaps := digit_gaps r hr
  simp only [List.forall_mem_cons, List.not_mem_nil, false_implies, implies_true] at hgaps
  rw [Bool.and_eq_true, decide_eq_true_iff, decide_eq_true_iff] at hrange
  rw [← Bool.not_eq_true]
  intro hspace
  simp only [isSpace, Bool.or_eq_true, Bool.and_eq_true, decide_eq_true_iff, beq_iff_eq] at hspace
  omega

theorem upper_toNat (c : Char) (hc : 'A' ≤ c ∧ c ≤ 'Z') : 65 ≤ c.toNat ∧ c.toNat ≤ 90 := hc

theorem lowerChar_digit (c : Char) (hc : isDigit c = true) : lowerChar c = [c] := by
  obtain ⟨r, hr, hrange⟩ := List.any_eq_true.mp hc
  have hgaps := digit_gaps r hr
  simp only [List.forall_mem_cons, List.not_mem_nil, false_implies, implies_true] at hgaps
  rw [Bool.and_eq_true, decide_eq_true_iff, decide_eq_true_iff] at hrange
  rw [lowerChar, if_neg, if_neg (by omega), if_neg (by omega)]
  rintro (hupper | hlatin)
  · have hletter := upper_toNat c hupper
    omega
  · omega

/-- A character of a lowered text is ASCII, not a digit, or unchanged. -/
theorem mem_lowerChar (c d : Char) (hd : d ∈ lowerChar c) :
    d.toNat < 0x80 ∨ isDigit d = false ∨ d = c := by
  unfold lowerChar at hd
  split_ifs at hd with hupper hdot hkelvin
  · obtain rfl := List.mem_singleton.mp hd
    have hto : (Char.ofNat (c.toNat + 32)).toNat = c.toNat + 32 := by
      refine PercentCoding.toNat_ofNat _ (Or.inl ?_)
      rcases hupper with hupper | hlatin
      · have hletter := upper_toNat c hupper
        omega
      · omega
    rcases hupper with hupper | hlatin
    · have hletter := upper_toNat c hupper
      exact Or.inl (by omega)
    · refine Or.inr (Or.inl ?_)
      rw [← Bool.not_eq_true]
      intro hdigit
      obtain ⟨r, hr, hrange⟩ := List.any_eq_true.mp hdigit
      have hgaps := digit_gaps r hr (0xC0, 0xFE) (by decide)
      rw [Bool.and_eq_true, decide_eq_true_iff, decide_eq_true_iff, hto] at hrange
      omega
  · rcases List.mem_cons.mp hd with rfl | hd
    · exact Or.inl (by decide)
    · obtain rfl := List.mem_singleton.mp hd
      exact Or.inr (Or.inl (by decide))
  · obtain rfl := List.mem_singleton.mp hd
    exact Or.inl (by decide)
  · exact Or.inr (Or.inr (List.mem_singleton.mp hd))

theorem ascii_utf8 (s : List Char) (hs : Ascii s) : utf8 s = s := by
  induction s with
  | nil => rfl
  | cons c rest ih =>
    have hc : c.toNat < 0x80 := hs c (List.mem_cons_self ..)
    have hrest := ih fun d hd => hs d (List.mem_cons_of_mem _ hd)
    have hone : (String.utf8EncodeChar c).map (fun byte => Char.ofNat byte.toNat) = [c] := by
      have hv : c.val.toNat ≤ 127 := by
        have heq : c.val.toNat = c.toNat := rfl
        omega
      simp only [String.utf8EncodeChar, if_pos hv, List.map_cons, List.map_nil]
      simp [Nat.mod_eq_of_lt (show c.toNat < 256 by omega)]
    rw [utf8, List.flatMap_cons, hone]
    exact congrArg (c :: ·) hrest

/-- The encoding of a character above ASCII ends in a byte above ASCII. -/
theorem utf8_high (s : List Char) (c : Char) (hc : c ∈ s) (hhigh : ¬ c.toNat < 0x80) :
    ¬ Ascii (utf8 s) := by
  intro hascii
  have hlast : ∃ b ∈ String.utf8EncodeChar c, b.toNat = c.toNat % 64 + 128 := by
    have hv : c.val.toNat = c.toNat := rfl
    simp only [String.utf8EncodeChar]
    split_ifs with hone htwo hthree
    · omega
    all_goals
      refine ⟨_, List.mem_of_getLast? rfl, ?_⟩
      simp
      omega
  obtain ⟨b, hb, hvalue⟩ := hlast
  have hmem : Char.ofNat b.toNat ∈ utf8 s :=
    List.mem_flatMap.mpr ⟨c, hc, List.mem_map.mpr ⟨b, hb, rfl⟩⟩
  have hlow := hascii _ hmem
  rw [PercentCoding.toNat_ofNat _ (Or.inl (by omega))] at hlow
  omega

/-! ### A stored host at the edge -/

theorem hostChar_toNat (c : Char) (hc : hostChar c = true) :
    c.toNat = 45 ∨ (48 ≤ c.toNat ∧ c.toNat ≤ 57) ∨ (97 ≤ c.toNat ∧ c.toNat ≤ 122) := by
  simp only [hostChar, Bool.or_eq_true, Bool.and_eq_true, decide_eq_true_iff] at hc
  rcases hc with (rfl | hdigit) | hletter
  · exact Or.inl rfl
  · exact Or.inr (Or.inl hdigit)
  · exact Or.inr (Or.inr hletter)

theorem host_ascii (s : List Char) (hs : ∀ c ∈ s, c = '.' ∨ hostChar c = true) : Ascii s := by
  intro c hc
  rcases hs c hc with rfl | hchar
  · decide
  · have hrange := hostChar_toNat c hchar
    omega

theorem lowerRune_host (c : Char) (hc : c = '.' ∨ hostChar c = true) : lowerRune c = c := by
  rcases hc with rfl | hc
  · decide
  · have hrange := hostChar_toNat c hc
    rw [lowerRune, if_neg, if_neg (by omega), if_neg (by omega)]
    intro hupper
    have hletter := upper_toNat c hupper
    omega

theorem toLower_host (s : List Char) (hs : ∀ c ∈ s, c = '.' ∨ hostChar c = true) :
    toLower s = s := by
  rw [toLower, Utf8.decode_ascii false s (host_ascii s hs)]
  exact (List.map_congr_left fun c hc => lowerRune_host c (hs c hc)).trans (List.map_id s)

theorem label_of_accepted (label : List Char) (hok : labelError label = none) :
    label ≠ [] ∧ label.length ≤ 63 ∧ label.head? ≠ some '-' ∧ label.getLast? ≠ some '-' ∧
      ∀ c ∈ label, c = '-' ∨ isDigit c = true ∨ ('a' ≤ c ∧ c ≤ 'z') := by
  unfold labelError at hok
  split_ifs at hok with hlength hhyphen hchars
  rw [not_or] at hlength hhyphen
  refine ⟨hlength.1, by omega, hhyphen.1, hhyphen.2, fun c hc => ?_⟩
  simpa [or_assoc] using List.all_eq_true.mp hchars c hc

/-- What an accepted value is, apart from its relation to the value that was sent. -/
theorem normalizePublicHost_spec (v h : List Char) (hok : normalizePublicHost v = .ok h) :
    h = rstripDots (lower (strip v)) ∧ h ≠ [] ∧ h.length ≤ 253 ∧
      ∀ label ∈ h.splitOn '.', labelError label = none := by
  simp only [normalizePublicHost] at hok
  by_cases hlength : rstripDots (lower (strip v)) = [] ∨ 253 < (rstripDots (lower (strip v))).length
  · rw [if_pos hlength] at hok
    cases hok
  · rw [if_neg hlength] at hok
    cases hlabels : (List.splitOn '.' (rstripDots (lower (strip v)))).findSome? labelError with
    | some message =>
      rw [hlabels] at hok
      cases hok
    | none =>
      rw [hlabels] at hok
      obtain rfl := Except.ok.inj hok
      rw [not_or] at hlength
      exact ⟨rfl, hlength.1, by omega, List.findSome?_eq_none_iff.mp hlabels⟩

theorem accepted_chars (h : List Char) (hlabels : ∀ label ∈ h.splitOn '.', labelError label = none) :
    ∀ c ∈ h, c = '.' ∨ c = '-' ∨ isDigit c = true ∨ ('a' ≤ c ∧ c ≤ 'z') := by
  intro c hc
  by_cases hdot : c = '.'
  · exact Or.inl hdot
  · obtain ⟨label, hlabel, hmem⟩ := mem_splitOn h '.' c hc hdot
    exact Or.inr ((label_of_accepted label (hlabels label hlabel)).2.2.2.2 c hmem)

theorem digit_of_ascii (c : Char) (hdigit : isDigit c = true) (hc : c.toNat < 0x80) :
    '0' ≤ c ∧ c ≤ '9' := by
  obtain ⟨r, hr, hrange⟩ := List.any_eq_true.mp hdigit
  have hfirst : ∀ r ∈ digitRanges, r = (0x30, 0x39) ∨ 0x80 ≤ r.1 := by decide
  rw [Bool.and_eq_true, decide_eq_true_iff, decide_eq_true_iff] at hrange
  rcases hfirst r hr with rfl | hhigh
  · exact hrange
  · omega

theorem hostChar_of_ascii (c : Char) (hc : c.toNat < 0x80)
    (hok : c = '-' ∨ isDigit c = true ∨ ('a' ≤ c ∧ c ≤ 'z')) : hostChar c = true := by
  simp only [hostChar, Bool.or_eq_true, Bool.and_eq_true, decide_eq_true_iff]
  rcases hok with hhyphen | hdigit | hletter
  · exact Or.inl (Or.inl hhyphen)
  · exact Or.inl (Or.inr (digit_of_ascii c hdigit hc))
  · exact Or.inr hletter

/-- In ASCII the edge accepts what the administrator's form accepts, and leaves it as it is. -/
theorem normalizeHost_of_ascii (h : List Char) (hne : h ≠ []) (hlength : h.length ≤ 253)
    (hlast : h.getLast? ≠ some '.') (hlabels : ∀ label ∈ h.splitOn '.', labelError label = none)
    (hascii : Ascii h) : normalizeHost h = some h := by
  have hchars : ∀ c ∈ h, c = '.' ∨ hostChar c = true := fun c hc =>
    (accepted_chars h hlabels c hc).imp_right (hostChar_of_ascii c (hascii c hc))
  have hcolon : ':' ∉ h := by
    intro hmem
    rcases hchars _ hmem with hdot | hchar
    · exact absurd hdot (by decide)
    · exact absurd hchar (by decide)
  have hbracket : h.head? ≠ some '[' := by
    intro hhead
    rcases hchars _ (List.mem_of_mem_head? hhead) with hdot | hchar
    · exact absurd hdot (by decide)
    · exact absurd hchar (by decide)
  have hname : (toLower h).splitOn '.' |>.all isLabel := by
    rw [toLower_host h hchars, List.all_eq_true]
    intro label hlabel
    obtain ⟨hnonempty, hshort, hfirst, hfinal, hok⟩ := label_of_accepted label (hlabels label hlabel)
    have hall : label.all hostChar = true := List.all_eq_true.mpr fun c hc =>
      hostChar_of_ascii c (hascii c (Text.mem_of_mem_splitOn h '.' label hlabel c hc)) (hok c hc)
    simp [isLabel, hnonempty, hshort, hfirst, hfinal, hall]
  rw [normalizeHost, if_neg (by rw [not_or]; exact ⟨hne, by omega⟩), if_neg hbracket, cutLast,
    if_neg hcolon, trimDot, if_neg hlast, normalizeName, if_neg (by rw [not_or]; exact ⟨hne, by omega⟩),
    if_pos hname, toLower_host h hchars]

theorem rstripDots_getLast (s : List Char) : (rstripDots s).getLast? ≠ some '.' := by
  intro hlast
  obtain ⟨hne, hdot⟩ := List.mem_getLast?_eq_getLast hlast
  exact List.rdropWhile_last_not (· = '.') s hne (decide_eq_true hdot.symm)

/-- A stored host is routable exactly when no digit outside ASCII was sent. -/
theorem normalizePublicHost_routable_iff (v h : List Char) (hok : normalizePublicHost v = .ok h) :
    normalizeHost (utf8 h) = some (utf8 h) ↔ ∀ c ∈ v, isDigit c = true → c.toNat < 0x80 := by
  obtain ⟨hdef, hne, hlength, hlabels⟩ := normalizePublicHost_spec v h hok
  constructor
  · intro hroute c hc hdigit
    by_contra hhigh
    have hmem : c ∈ h := by
      rw [hdef]
      refine mem_rdropWhile _ _ c ?_ (decide_eq_false ?_)
      · refine List.mem_flatMap.mpr ⟨c, mem_strip v c hc (isSpace_of_isDigit c hdigit), ?_⟩
        rw [lowerChar_digit c hdigit]
        exact List.mem_singleton_self c
      · rintro rfl
        exact hhigh (by decide)
    exact utf8_high h c hmem hhigh (host_ascii _ (normalizeHost_chars _ _ hroute))
  · intro hdigits
    have hascii : Ascii h := by
      intro d hd
      rcases accepted_chars h hlabels d hd with rfl | rfl | hdigit | hletter
      · decide
      · decide
      · rw [hdef] at hd
        obtain ⟨c, hc, hlower⟩ := List.mem_flatMap.mp ((List.rdropWhile_prefix _ _).mem hd)
        rcases mem_lowerChar c d hlower with hlow | hnot | rfl
        · exact hlow
        · rw [hdigit] at hnot
          cases hnot
        · exact hdigits d (of_mem_strip v d hc) hdigit
      · have hle : d.toNat ≤ 122 := hletter.2
        omega
    rw [ascii_utf8 h hascii]
    exact normalizeHost_of_ascii h hne hlength (hdef ▸ rstripDots_getLast _) hlabels hascii

theorem normalizePublicHost_routable_sample :
    normalizeHost (utf8 "app.local.test".toList) = some (utf8 "app.local.test".toList) := by
  have hascii : " App.Local.TEST. ".toList.all (fun c => decide (c.toNat < 0x80)) = true := by decide
  refine (normalizePublicHost_routable_iff " App.Local.TEST. ".toList "app.local.test".toList
    (by decide)).mpr fun c hc _ => ?_
  simpa using List.all_eq_true.mp hascii c hc

/-- A superscript digit is stored, and no request reaches the resource. -/
theorem stored_host_unroutable :
    normalizePublicHost ['a', 'p', 'p', Char.ofNat 0xB2] =
        .ok ['a', 'p', 'p', Char.ofNat 0xB2] ∧
      normalizeHost (utf8 ['a', 'p', 'p', Char.ofNat 0xB2]) = none := by
  decide

end Hyproxy.PublicHosts

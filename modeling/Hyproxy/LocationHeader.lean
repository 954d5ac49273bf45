import Hyproxy.BrowserUrl
import Mathlib.Data.Bool.AllAny

/-!
The `Location` header of a `RedirectResponse`. Outside a fixed set of ASCII characters every
byte of the URL is percent encoded; the percent sign itself is in the set. So the delimiters of
the URL are those of the header, and a part without percent signs decodes to what it was.
-/
namespace Hyproxy.LocationHeader

open AuthzCheck (utf8)
open BrowserUrl (Text control)
open PercentCoding
open PyQuery (unquoteBytes)
open RequestTarget (unreserved)
open Utf8Texts

/-- What `quote` keeps: `safe` and the unreserved characters. -/
def locationSafe (c : Char) : Bool := unreserved c || ":/%#?=@[]!$&\x27()*+,;".toList.contains c

/-- The header `location` of `RedirectResponse(url)` -/
def location (url : Text) : Text := escape locationSafe (utf8 url)

/-- A character of the triple that stands for a byte. -/
def tripleChar (d : Char) : Bool := "%0123456789ABCDEF".toList.contains d

/-- What the header has for one character. -/
def escaped (c : Char) : Text := escape locationSafe (utf8 [c])

/-- What holds of the characters of a triple, from the list of them. -/
theorem triple_all (p : Char → Bool) (hp : "%0123456789ABCDEF".toList.all p = true) (d : Char)
    (hd : tripleChar d = true) : p d = true :=
  List.all_eq_true.mp hp d (List.contains_iff_mem.mp hd)

theorem triple_safe (d : Char) (hd : tripleChar d = true) : locationSafe d = true :=
  triple_all locationSafe (by decide) d hd

theorem escapeByte_triple (c : Char) (hc : IsByte c) : ∀ d ∈ escapeByte c, tripleChar d = true := by
  have hhex : ∀ n < 16, tripleChar (hexDigit n) = true := by decide
  unfold IsByte at hc
  intro d hd
  simp only [escapeByte, List.mem_cons, List.not_mem_nil, or_false] at hd
  rcases hd with rfl | rfl | rfl
  · decide
  · exact hhex _ (by omega)
  · exact hhex _ (by omega)

theorem safe_cases (c : Char) (hc : locationSafe c = true) :
    (0x2D ≤ c.toNat ∧ c.toNat < 0x80 ∧ c ≠ '\\') ∨ c ∈ ":/%#?=@[]!$&\x27()*+,;".toList := by
  rw [locationSafe, Bool.or_eq_true, List.contains_iff_mem] at hc
  refine hc.imp_left fun hunreserved => ⟨?_, RequestTarget.unreserved_lt c hunreserved, ?_⟩
  · unfold unreserved at hunreserved
    simp only [Bool.or_eq_true, Bool.and_eq_true, decide_eq_true_eq, beq_iff_eq] at hunreserved
    have hle : ∀ lo : Char, lo ≤ c → lo.toNat ≤ c.toNat := fun _ h => h
    rcases hunreserved with (((((⟨ha, -⟩ | ⟨ha, -⟩) | ⟨ha, -⟩) | rfl) | rfl) | rfl) | rfl
    · exact le_trans (by decide) (hle _ ha)
    · exact le_trans (by decide) (hle _ ha)
    · exact le_trans (by decide) (hle _ ha)
    all_goals decide
  · rintro rfl
    exact absurd hunreserved (by decide)

theorem safe_ascii (c : Char) (hc : locationSafe c = true) : c.toNat < 0x80 := by
  have htable : ∀ d ∈ ":/%#?=@[]!$&\x27()*+,;".toList, d.toNat < 0x80 :=
    List.all_iff_forall_prop.mp (by decide)
  exact (safe_cases c hc).elim (fun h => h.2.1) (htable c)

theorem safe_visible (c : Char) (hc : locationSafe c = true) : control c = false ∧ c ≠ '\\' := by
  have htable : ∀ d ∈ ":/%#?=@[]!$&\x27()*+,;".toList, control d = false ∧ d ≠ '\\' :=
    List.all_iff_forall_prop.mp (by decide)
  refine (safe_cases c hc).elim (fun h => ⟨?_, h.2.2⟩) (htable c)
  exact decide_eq_false (by omega)

theorem schemeChar_safe (c : Char) (hc : BrowserUrl.schemeChar c = true) :
    locationSafe c = true := by
  simp only [BrowserUrl.schemeChar, BrowserUrl.asciiAlpha, BrowserUrl.asciiDigit, Bool.or_eq_true,
    beq_iff_eq] at hc
  rcases hc with (((((hc | hc) | hc) | rfl) | rfl) | rfl)
  · simp [locationSafe, unreserved, hc]
  · simp [locationSafe, unreserved, hc]
  · simp [locationSafe, unreserved, hc]
  all_goals decide

/-! ### Character by character -/

theorem escape_append (keep : Char → Bool) (s t : Text) :
    escape keep (s ++ t) = escape keep s ++ escape keep t := by
  rw [escape, escape, escape, List.flatMap_append]

theorem location_append (s t : Text) : location (s ++ t) = location s ++ location t := by
  have hutf8 : utf8 (s ++ t) = utf8 s ++ utf8 t := by rw [utf8, utf8, utf8, List.flatMap_append]
  rw [location, hutf8, escape_append]
  rfl

theorem location_cons (c : Char) (s : Text) : location (c :: s) = escaped c ++ location s :=
  location_append [c] s

theorem escaped_safe (c : Char) (hc : locationSafe c = true) : escaped c = [c] := by
  rcases utf8_cases c with ⟨-, hbytes⟩ | ⟨hlow, -⟩ | ⟨hlow, -⟩ | ⟨hlow, -⟩
  · rw [escaped, hbytes, escape, List.flatMap_cons, if_pos hc]
    rfl
  all_goals
    have hascii := safe_ascii c hc
    omega

/-- The bytes of a character that is not ASCII are not ASCII. -/
theorem utf8_high (c b : Char) (hc : 0x80 ≤ c.toNat) (hb : b ∈ utf8 [c]) :
    0x80 ≤ b.toNat ∧ b.toNat < 256 := by
  have hvalid := char_valid c
  have hbyte : ∀ n, 0x80 ≤ n → n < 256 → b = Char.ofNat n → 0x80 ≤ b.toNat ∧ b.toNat < 256 := by
    rintro n hlow hhigh rfl
    rw [byte_toNat n hhigh]
    exact ⟨hlow, hhigh⟩
  rcases utf8_cases c with ⟨hlow, -⟩ | ⟨-, hhigh, hbytes⟩ | ⟨-, hhigh, hbytes⟩ | ⟨-, hbytes⟩
  · omega
  all_goals
    rw [hbytes] at hb
    simp only [List.mem_cons, List.not_mem_nil, or_false] at hb
  · rcases hb with hb | hb
    · exact hbyte _ (by omega) (by omega) hb
    · exact hbyte _ (by omega) (by omega) hb
  · rcases hb with hb | hb | hb
    · exact hbyte _ (by omega) (by omega) hb
    · exact hbyte _ (by omega) (by omega) hb
    · exact hbyte _ (by omega) (by omega) hb
  · rcases hb with hb | hb | hb | hb
    · exact hbyte _ (by omega) (by omega) hb
    · exact hbyte _ (by omega) (by omega) hb
    · exact hbyte _ (by omega) (by omega) hb
    · exact hbyte _ (by omega) (by omega) hb

theorem utf8_isByte (c b : Char) (hb : b ∈ utf8 [c]) : IsByte b := by
  by_cases hc : c.toNat < 0x80
  · rcases utf8_cases c with ⟨-, hbytes⟩ | ⟨hlow, -⟩ | ⟨hlow, -⟩ | ⟨hlow, -⟩
    · rw [hbytes, List.mem_singleton] at hb
      rw [hb, IsByte]
      omega
    all_goals omega
  · exact (utf8_high c b (by omega) hb).2

/-- The bytes of a character outside the set are outside the set. -/
theorem utf8_encoded (c b : Char) (hc : locationSafe c = false) (hb : b ∈ utf8 [c]) :
    locationSafe b = false := by
  rw [← Bool.not_eq_true]
  intro hsafe
  have hascii := safe_ascii b hsafe
  by_cases hlow : c.toNat < 0x80
  · rcases utf8_cases c with ⟨-, hbytes⟩ | ⟨hhigh, -⟩ | ⟨hhigh, -⟩ | ⟨hhigh, -⟩
    · rw [hbytes, List.mem_singleton] at hb
      rw [← hb, hsafe] at hc
      cases hc
    all_goals omega
  · have hbyte := utf8_high c b (by omega) hb
    omega

theorem escaped_encoded (c : Char) (hc : locationSafe c = false) :
    (∃ more, escaped c = '%' :: more) ∧ ∀ d ∈ escaped c, tripleChar d = true := by
  have hall : escaped c = (utf8 [c]).flatMap escapeByte := by
    rw [escaped, escape]
    refine List.flatMap_congr fun b hb => ?_
    rw [if_neg (by simp [utf8_encoded c b hc hb])]
  refine ⟨?_, fun d hd => ?_⟩
  · obtain ⟨b, rest, hbytes⟩ : ∃ b rest, utf8 [c] = b :: rest := by
      rcases utf8_cases c with ⟨-, h⟩ | ⟨-, -, h⟩ | ⟨-, -, h⟩ | ⟨-, h⟩ <;> exact ⟨_, _, h⟩
    rw [hall, hbytes, List.flatMap_cons, escapeByte, List.cons_append]
    exact ⟨_, rfl⟩
  · rw [hall] at hd
    obtain ⟨b, hb, hd⟩ := List.mem_flatMap.mp hd
    exact escapeByte_triple b (utf8_isByte c b hb) d hd

/-! ### The whole header -/

theorem location_nil : location [] = [] := rfl

theorem location_eq (s : Text) : location s = s.flatMap escaped := by
  induction s with
  | nil => rfl
  | cons c s ih => rw [location_cons, List.flatMap_cons, ih]

theorem location_safe (s : Text) : ∀ d ∈ location s, locationSafe d = true := by
  intro d hd
  rw [location_eq] at hd
  obtain ⟨c, -, hd⟩ := List.mem_flatMap.mp hd
  cases hc : locationSafe c with
  | false => exact triple_safe d ((escaped_encoded c hc).2 d hd)
  | true =>
    rw [escaped_safe c hc, List.mem_singleton] at hd
    rw [hd, hc]

theorem location_eq_self (s : Text) (hs : ∀ c ∈ s, locationSafe c = true) : location s = s := by
  induction s with
  | nil => rfl
  | cons c s ih =>
    rw [location_cons, escaped_safe c (hs c (by simp)),
      ih fun d hd => hs d (List.mem_cons_of_mem _ hd)]
    rfl

/-- Without a percent sign nothing was encoded. -/
theorem location_eq_self_of_plain (s : Text) (hs : '%' ∉ location s) : location s = s := by
  refine location_eq_self s fun c hc => ?_
  by_contra hencoded
  obtain ⟨⟨more, heq⟩, -⟩ := escaped_encoded c (by simpa using hencoded)
  refine hs ?_
  rw [location_eq]
  exact List.mem_flatMap.mpr ⟨c, hc, by rw [heq]; exact List.mem_cons_self⟩

/-- A delimiter stands in the header where it stands in the URL. -/
theorem mem_location (c : Char) (s : Text) (hc : locationSafe c = true)
    (htriple : tripleChar c = false) :
    c ∈ location s ↔ c ∈ s := by
  rw [location_eq, List.mem_flatMap]
  constructor
  · rintro ⟨d, hd, hmem⟩
    cases hsafe : locationSafe d with
    | false =>
      rw [(escaped_encoded d hsafe).2 c hmem] at htriple
      cases htriple
    | true =>
      rw [escaped_safe d hsafe, List.mem_singleton] at hmem
      rwa [hmem]
  · intro hmem
    exact ⟨c, hmem, by rw [escaped_safe c hc]; exact List.mem_singleton_self c⟩

section

variable (p q : Char → Bool) (hend : ∀ c, p c = false → locationSafe c = true)
  (hsame : ∀ c, locationSafe c = true → q c = p c)

include hend hsame

theorem takeWhile_flatMap_escaped (f : Char → Text)
    (hsafe : ∀ c, locationSafe c = true → f c = [c])
    (hencoded : ∀ c, locationSafe c = false → ∀ d ∈ f c, q d = true) (s : Text) :
    (s.flatMap f).takeWhile q = (s.takeWhile p).flatMap f := by
  induction s with
  | nil => rfl
  | cons c s ih =>
    rw [List.flatMap_cons]
    cases hp : p c with
    | false =>
      have hc := hend c hp
      rw [hsafe c hc, List.takeWhile_cons_of_neg (by simp [hp]), List.singleton_append,
        List.takeWhile_cons_of_neg (by simp [hsame c hc, hp])]
      rfl
    | true =>
      have hall : ∀ d ∈ f c, q d = true := by
        cases hc : locationSafe c with
        | false => exact hencoded c hc
        | true =>
          rw [hsafe c hc]
          intro d hd
          rw [List.mem_singleton.mp hd, hsame c hc, hp]
      rw [List.takeWhile_cons_of_pos hp, List.flatMap_cons, List.takeWhile_append_of_pos hall, ih]

variable (htriple : ∀ d, tripleChar d = true → q d = true)

include htriple

/-- A part of the URL up to a delimiter is the header up to it. -/
theorem takeWhile_location (s : Text) :
    (location s).takeWhile q = location (s.takeWhile p) := by
  rw [location_eq, location_eq]
  exact takeWhile_flatMap_escaped p q hend hsame escaped escaped_safe
    (fun c hc d hd => htriple d ((escaped_encoded c hc).2 d hd)) s

theorem rtakeWhile_location (s : Text) :
    (location s).rtakeWhile q = location (s.rtakeWhile p) := by
  have hreverse : (location s).reverse.takeWhile q =
      (s.reverse.takeWhile p).flatMap (List.reverse ∘ escaped) := by
    rw [location_eq, List.reverse_flatMap]
    refine takeWhile_flatMap_escaped p q hend hsame _ (fun c hc => ?_) (fun c hc d hd => ?_) _
    · rw [Function.comp, escaped_safe c hc]
      rfl
    · exact htriple d ((escaped_encoded c hc).2 d (List.mem_reverse.mp hd))
  have htwice : List.reverse ∘ List.reverse ∘ escaped = escaped := by
    funext c
    simp
  rw [List.rtakeWhile, List.rtakeWhile, hreverse, location_eq, List.reverse_flatMap, htwice]

end

/-- The header starts with the slashes with which the URL starts. -/
theorem dropWhile_location (s : Text) :
    (location s).dropWhile BrowserUrl.slash = location (s.dropWhile (· = '/')) := by
  induction s with
  | nil => rfl
  | cons c s ih =>
    by_cases hc : c = '/'
    · rw [hc, location_cons, escaped_safe '/' (by decide), List.singleton_append,
        List.dropWhile_cons_of_pos (by decide), List.dropWhile_cons_of_pos (by decide), ih]
    · rw [List.dropWhile_cons_of_neg (by simpa using hc), location_cons]
      cases hsafe : locationSafe c with
      | false =>
        obtain ⟨⟨more, heq⟩, -⟩ := escaped_encoded c hsafe
        rw [heq, List.cons_append, List.dropWhile_cons_of_neg (by decide)]
      | true =>
        rw [escaped_safe c hsafe, List.singleton_append, List.dropWhile_cons_of_neg]
        simp [BrowserUrl.slash, hc, (safe_visible c hsafe).2]

/-! ### Decoding -/

theorem percent_utf8 (s : Text) (hs : '%' ∉ s) : '%' ∉ utf8 s := by
  intro hmem
  obtain ⟨c, hc, hmem⟩ := List.mem_flatMap.mp hmem
  have hbytes : '%' ∈ utf8 [c] := by
    rw [utf8, List.flatMap_cons, List.flatMap_nil, List.append_nil]
    exact hmem
  by_cases hlow : c.toNat < 0x80
  · rcases utf8_cases c with ⟨-, h⟩ | ⟨hhigh, -⟩ | ⟨hhigh, -⟩ | ⟨hhigh, -⟩
    · rw [h, List.mem_singleton] at hbytes
      exact hs (hbytes ▸ hc)
    all_goals omega
  · exact absurd (utf8_high c '%' (by omega) hbytes).1 (by decide)

theorem isByte_utf8 (s : Text) : ∀ b ∈ utf8 s, IsByte b := by
  intro b hb
  obtain ⟨c, -, hb⟩ := List.mem_flatMap.mp hb
  refine utf8_isByte c b ?_
  rw [utf8, List.flatMap_cons, List.flatMap_nil, List.append_nil]
  exact hb

/-- A part without percent signs decodes to its bytes. -/
theorem unquoteBytes_location (s : Text) (hs : '%' ∉ s) : unquoteBytes (location s) = utf8 s := by
  have hkeep : location s = escape (fun c => locationSafe c && c != '%') (utf8 s) := by
    rw [location, escape, escape]
    refine List.flatMap_congr fun b hb => ?_
    have hne : b ≠ '%' := fun h => percent_utf8 s hs (h ▸ hb)
    simp [hne]
  have hescape : unescape (location s) = some (utf8 s) := by
    rw [hkeep]
    exact unescape_escape _ _ (by simp) (isByte_utf8 s)
  have heq := PyQuery.unescape_eq_unquoteBytes (location s) (by rw [hescape]; rfl)
  rw [hescape] at heq
  exact (Option.some.inj heq).symm

end Hyproxy.LocationHeader

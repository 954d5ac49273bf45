import Hyproxy.LocationHeader
import Hyproxy.PublicHosts
import Hyproxy.PyUrl

/-!
A browser that reads in a `Location` header what `urlsplit` has read in the URL. Where the two
disagree, the browser stays on the host of its base or fails; otherwise it takes the host for
the same domain or the same IPv6 address.
-/
namespace Hyproxy.HeaderReading

open AuthzCheck (utf8)
open PercentCoding (hexValue)
open PyQuery (unquoteBytes)
open BrowserUrl LocationHeader
open PyUrl (Split endsNetloc hostInfo stripped urlsplit)
open Text (cut)

section

variable {Host : Type} (rules : HostRules Host)

/-- The text as the name of a domain, or as an IPv6 address. -/
def Reads (raw : Text) (host : Host) : Prop :=
  (':' ∉ raw ∧ rules.domain raw = some host) ∨ rules.ipv6 raw = some host

theorem takeWhile_filter_visible (p : Char → Bool) (hp : ∀ c, newline c = true → p c = true)
    (s : Text) : (s.filter visible).takeWhile p = (s.takeWhile p).filter visible := by
  have hsame : (fun c => !visible c || p c) = p := by
    funext c
    cases hc : visible c with
    | false => simp [hp c (by simpa [visible] using hc)]
    | true => simp
  rw [List.takeWhile_filter, hsame]

theorem rtakeWhile_filter_visible (p : Char → Bool) (hp : ∀ c, newline c = true → p c = true)
    (s : Text) : (s.filter visible).rtakeWhile p = (s.rtakeWhile p).filter visible := by
  rw [List.rtakeWhile, List.rtakeWhile, ← List.filter_reverse, takeWhile_filter_visible p hp,
    List.filter_reverse]

/-- A character that is part of no triple is still there after decoding. -/
theorem mem_unquoteBytes (c : Char) (s : Text) (hc : c ∈ s) (hpercent : c ≠ '%')
    (hhex : hexValue c = none) : c ∈ unquoteBytes s := by
  fun_induction unquoteBytes s with
  | case1 d a b tail hi lo hlo hhi hmark ih =>
    simp only [List.mem_cons] at hc
    rcases hc with rfl | rfl | rfl | hc
    · exact absurd (beq_iff_eq.mp hmark) hpercent
    · rw [hhi] at hhex
      cases hhex
    · rw [hlo] at hhex
      cases hhex
    · exact List.mem_cons_of_mem _ (ih hc)
  | case2 d a b tail _ ih =>
    rcases List.mem_cons.mp hc with rfl | hc
    · exact List.mem_cons_self
    · exact List.mem_cons_of_mem _ (ih hc)
  | case3 short _ => exact hc

theorem location_control (s : Text) : ∀ c ∈ location s, control c = false := fun c hc =>
  (safe_visible c (location_safe s c hc)).1

theorem clean_location (s : Text) : clean (location s) = location s :=
  clean_eq_self _ (location_control s)

/-- A domain of the header is the domain of the URL. -/
theorem hostOf_location (s : Text) (hs : '%' ∉ s) (hhead : (location s).head? ≠ some '[') :
    hostOf rules (location s) = rules.domain s := by
  have hascii : Utf8.Ascii (location s) := fun c hc => safe_ascii c (location_safe s c hc)
  rw [hostOf, if_neg hhead, PublicHosts.ascii_utf8 _ hascii, unquoteBytes_location s hs,
    Utf8Texts.decode_utf8]

/-- No host has a bracket inside. -/
theorem hostOf_bracket (hrules : rules.Lawful) (left right : Text) (hne : left ≠ [])
    (hbracket : '[' ∉ left) (hascii : Utf8.Ascii (left ++ '[' :: right)) :
    hostOf rules (left ++ '[' :: right) = none := by
  have hhead : (left ++ '[' :: right).head? ≠ some '[' := by
    rw [List.head?_append_of_ne_nil _ hne]
    exact fun h => hbracket (List.mem_of_mem_head? h)
  rw [hostOf, if_neg hhead, PublicHosts.ascii_utf8 _ hascii]
  by_contra hsome
  have hmem := mem_unquoteBytes '[' (left ++ '[' :: right) (by simp) (by decide) (by decide)
  have hfree := hrules.domain_free _ (Option.isSome_iff_ne_none.mpr hsome) '['
    (Utf8Texts.mem_decode true _ '[' hmem (by decide))
  cases hfree

/-! ### The address in the header -/

theorem rtakeWhile_at (s : Text) :
    (location s).rtakeWhile (· ≠ '@') = location (s.rtakeWhile (· ≠ '@')) := by
  refine rtakeWhile_location (· ≠ '@') (· ≠ '@') (fun c hc => ?_) (fun c _ => rfl)
    (triple_all _ (by decide)) s
  obtain rfl : c = '@' := by simpa using hc
  decide

theorem takeWhile_colon (s : Text) :
    (location s).takeWhile (· ≠ ':') = location (s.takeWhile (· ≠ ':')) := by
  refine takeWhile_location (· ≠ ':') (· ≠ ':') (fun c hc => ?_) (fun c _ => rfl)
    (triple_all _ (by decide)) s
  obtain rfl : c = ':' := by simpa using hc
  decide

theorem takeWhile_authority (s : Text) :
    (location s).takeWhile (fun c => !endsAuthority c) =
      location (s.takeWhile fun c => !endsNetloc c) := by
  refine takeWhile_location (fun c => !endsNetloc c) (fun c => !endsAuthority c) (fun c hc => ?_)
    (fun c hc => ?_) (triple_all _ (by decide)) s
  · simp only [endsNetloc, Bool.not_eq_false', Bool.or_eq_true, beq_iff_eq] at hc
    rcases hc with (rfl | rfl) | rfl <;> decide
  · have hback : (c == '\\') = false := beq_eq_false_iff_ne.mpr (safe_visible c hc).2
    simp [endsAuthority, endsNetloc, slash, hback]

/-- Outside brackets the host ends at the first colon for both. -/
theorem address_name (hrules : rules.Lawful) (info : Text) (host : Host)
    (hbracket : '[' ∉ info) (hpercent : '%' ∉ (cut ':' (info.filter visible)).1)
    (hhost : hostOf rules (splitHost false (location info)).1 = some host) :
    Reads rules (cut ':' (info.filter visible)).1 host := by
  have hplain : '[' ∉ location info := by
    rwa [mem_location '[' info (by decide) (by decide)]
  have hfilter : (cut ':' (info.filter visible)).1 = (info.takeWhile (· ≠ ':')).filter visible :=
    takeWhile_filter_visible _ (fun c hc => by
      have hne : c ≠ ':' := by
        rintro rfl
        cases hc
      simpa using hne) info
  rw [hfilter] at hpercent ⊢
  have hno : '%' ∉ info.takeWhile (· ≠ ':') := fun hmem =>
    hpercent (List.mem_filter.mpr ⟨hmem, by decide⟩)
  have hhead : (location (info.takeWhile (· ≠ ':'))).head? ≠ some '[' := by
    intro hhead
    have hmem := List.mem_of_mem_head? (Option.mem_def.mpr hhead)
    rw [mem_location '[' _ (by decide) (by decide)] at hmem
    exact hbracket ((List.takeWhile_prefix _).mem hmem)
  rw [splitHost_plain _ hplain, takeWhile_colon, hostOf_location rules _ hno hhead] at hhost
  have hfree := hrules.domain_free _ (by rw [hhost]; rfl)
  have hself : (info.takeWhile (· ≠ ':')).filter visible = info.takeWhile (· ≠ ':') := by
    refine List.filter_eq_self.mpr fun c hc => ?_
    have hc := hfree c hc
    simp only [forbidden, Bool.or_eq_false_iff] at hc
    simp [visible, hc.1.1]
  rw [hself]
  refine Or.inl ⟨fun hmem => ?_, hhost⟩
  simpa using List.mem_takeWhile_imp hmem

theorem location_ne_nil (s : Text) (hs : s ≠ []) : location s ≠ [] := by
  obtain ⟨c, more, rfl⟩ := List.exists_cons_of_ne_nil hs
  rw [location_cons]
  cases hc : locationSafe c with
  | true => simp [escaped_safe c hc]
  | false =>
    obtain ⟨⟨rest, heq⟩, -⟩ := escaped_encoded c hc
    simp [heq]

theorem location_delimiter (left right : Text) (c : Char) (hc : locationSafe c = true) :
    location (left ++ c :: right) = location left ++ c :: location right := by
  rw [location_append, location_cons, escaped_safe c hc]
  rfl

theorem mem_splitHost (inside : Bool) (s : Text) : ∀ c ∈ (splitHost inside s).1, c ∈ s := by
  induction s generalizing inside with
  | nil => simp [splitHost]
  | cons d s ih =>
    intro c hc
    rw [splitHost] at hc
    split at hc
    · cases hc
    · rcases List.mem_cons.mp hc with rfl | hc
      · exact List.mem_cons_self
      · exact List.mem_cons_of_mem _ (ih _ c hc)

/-- Of a text in brackets only an IPv6 address is read, and as it stands. -/
theorem hostOf_brackets (hrules : rules.Lawful) (inner after : Text) (host : Host)
    (hhost : hostOf rules ('[' :: (location inner ++ ']' :: after)) = some host) :
    location inner = inner ∧ rules.ipv6 inner = some host := by
  rw [hostOf_open] at hhost
  split at hhost
  · have hfree := hrules.ipv6_free _ (by rw [hhost]; rfl)
    cases after with
    | nil =>
      rw [List.dropLast_concat] at hhost hfree
      have hself := location_eq_self_of_plain inner fun hmem => by
        have hchar := hfree.2 '%' hmem
        cases hchar
      rw [hself] at hhost
      exact ⟨hself, hhost⟩
    | cons d after =>
      have hmem : ']' ∈ (location inner ++ ']' :: d :: after).dropLast := by
        simp [List.dropLast_append_of_ne_nil]
      have hchar := hfree.2 ']' hmem
      cases hchar
  · cases hhost

/-- A host that a bracket opens needs one that closes it. -/
theorem hostOf_unclosed (right : Text) (hclose : ']' ∉ right) :
    hostOf rules ('[' :: (splitHost true (location right)).1) = none := by
  have hnoclose : ']' ∉ location right := by
    rwa [mem_location ']' right (by decide) (by decide)]
  have hlast : ('[' :: location right).getLast? ≠ some ']' := by
    intro hlast
    rcases List.mem_cons.mp (List.mem_of_getLast? hlast) with h | h
    · exact absurd h (by decide)
    · exact hnoclose h
  rw [splitHost_open _ hnoclose, hostOf_open, if_neg hlast]

/-- A bracket behind other characters is refused. -/
theorem hostOf_inside (hrules : rules.Lawful) (left right : Text) (hne : left ≠ [])
    (hplain : '[' ∉ location left) :
    hostOf rules (location left ++ '[' :: (splitHost true (location right)).1) = none := by
  have hascii : Utf8.Ascii (location left ++ '[' :: (splitHost true (location right)).1) := by
    intro c hc
    rcases List.mem_append.mp hc with hc | hc
    · exact safe_ascii c (location_safe left c hc)
    · rcases List.mem_cons.mp hc with rfl | hc
      · decide
      · exact safe_ascii c (location_safe right c (mem_splitHost true _ c hc))
  exact hostOf_bracket rules hrules _ _ (location_ne_nil left hne) hplain hascii

/-- Inside brackets both take the text up to the closing bracket. -/
theorem address_bracket (hrules : rules.Lawful) (scheme : Special) (info : Text) (host : Host)
    (port : Option ℕ) (hbracket : '[' ∈ info)
    (hhost : hostOf rules (splitHost false (location info)).1 = some host)
    (hport : portOf scheme (splitHost false (location info)).2 = some port) :
    Reads rules (cut ']' (cut '[' (info.filter visible)).2).1 host := by
  obtain ⟨left, right, rfl, hleft⟩ := List.eq_append_cons_of_mem hbracket
  have hplain : '[' ∉ location left := by
    rwa [mem_location '[' left (by decide) (by decide)]
  rw [location_delimiter left right '[' (by decide)] at hhost hport
  by_cases hcolon : ':' ∈ left
  · obtain ⟨before, after, rfl, hbefore⟩ := List.eq_append_cons_of_mem hcolon
    have hopen : '[' ∉ location before := by
      rw [mem_location '[' before (by decide) (by decide)]
      exact fun hmem => hleft (List.mem_append_left _ hmem)
    have hnocolon : ':' ∉ location before := by
      rwa [mem_location ':' before (by decide) (by decide)]
    rw [location_delimiter before after ':' (by decide), List.append_assoc, List.cons_append,
      splitHost_colon _ _ hopen hnocolon,
      portOf_digits scheme _ '[' (by simp) (by decide)] at hport
    cases hport
  · have hnocolon : ':' ∉ location left := by
      rwa [mem_location ':' left (by decide) (by decide)]
    have hopen : splitHost false ('[' :: location right) =
        ('[' :: (splitHost true (location right)).1, (splitHost true (location right)).2) := rfl
    rw [splitHost_append _ _ hplain hnocolon, hopen] at hhost
    by_cases hne : left = []
    · subst hne
      by_cases hclose : ']' ∈ right
      · obtain ⟨inner, after, rfl, hinner⟩ := List.eq_append_cons_of_mem hclose
        have hnoclose : ']' ∉ location inner := by
          rwa [mem_location ']' inner (by decide) (by decide)]
        rw [location_delimiter inner after ']' (by decide), splitHost_close _ _ hnoclose,
          location_nil, List.nil_append] at hhost
        obtain ⟨hself, hipv6⟩ := hostOf_brackets rules hrules inner _ host hhost
        have hvisible : inner.filter visible = inner := by
          rw [← hself]
          exact filter_visible _ (location_control inner)
        refine Or.inr ?_
        rw [List.nil_append, List.filter_cons_of_pos (by decide), List.filter_append,
          List.filter_cons_of_pos (by decide), hvisible,
          show ∀ s, cut '[' ('[' :: s) = ([], s) from fun s => Text.cut_append '[' [] s (by simp),
          Text.cut_append ']' inner _ hinner]
        exact hipv6
      · rw [location_nil, List.nil_append, hostOf_unclosed rules right hclose] at hhost
        cases hhost
    · rw [hostOf_inside rules hrules left right hne hplain] at hhost
      cases hhost

/-- The address in the header has the host that `urlsplit` has read. -/
theorem address_location (hrules : rules.Lawful) (scheme : Special) (text : Text)
    (hpercent : '%' ∉ hostInfo (text.filter visible)) :
    address rules scheme (location text) = .failure ∨
      ∃ u, address rules scheme (location text) = .url u ∧
        Reads rules (hostInfo (text.filter visible)) u.host := by
  have hinfo : (text.filter visible).rtakeWhile (· ≠ '@') =
      (text.rtakeWhile (· ≠ '@')).filter visible :=
    rtakeWhile_filter_visible _ (fun c hc => by
      have hne : c ≠ '@' := by
        rintro rfl
        cases hc
      simpa using hne) text
  have hmem : '[' ∈ (text.rtakeWhile (· ≠ '@')).filter visible ↔
      '[' ∈ text.rtakeWhile (· ≠ '@') := by
    rw [List.mem_filter, and_iff_left (by decide)]
  simp only [hostInfo, hinfo, hmem] at hpercent ⊢
  rcases address_cases rules scheme (location text) with hfail | ⟨host, port, hurl, hhost, hport⟩
  · exact Or.inl hfail
  refine Or.inr ⟨_, hurl, ?_⟩
  rw [rtakeWhile_at] at hhost hport
  by_cases hbracket : '[' ∈ text.rtakeWhile (· ≠ '@')
  · rw [if_pos hbracket]
    exact address_bracket rules hrules scheme _ host port hbracket hhost hport
  · rw [if_neg hbracket] at hpercent ⊢
    exact address_name rules hrules _ host hbracket hpercent hhost

/-- An address of tabs and newlines only is none. -/
theorem address_blank (hrules : rules.Lawful) (scheme : Special) (s : Text) (hne : s ≠ [])
    (hs : ∀ c ∈ s, newline c = true) : address rules scheme (location s) = .failure := by
  have hno : ∀ d, newline d = false → d ∉ s := fun d hd hmem => by
    rw [hs d hmem] at hd
    cases hd
  have hat : (location s).rtakeWhile (· ≠ '@') = location s := by
    rw [rtakeWhile_at, List.rtakeWhile_eq_self_iff.mpr]
    intro c hc
    simpa using fun h : c = '@' => hno '@' (by decide) (h ▸ hc)
  have hbracket : '[' ∉ location s := by
    rw [mem_location '[' s (by decide) (by decide)]
    exact hno '[' (by decide)
  have hhost : (splitHost false (location s)).1 = location s := by
    rw [splitHost_plain _ hbracket, List.takeWhile_eq_self_iff]
    intro c hc
    have hcolon : c ≠ ':' := by
      rintro rfl
      rw [mem_location ':' s (by decide) (by decide)] at hc
      exact hno ':' (by decide) hc
    simpa using hcolon
  refine address_failure rules scheme _ (Or.inr (Or.inl ?_))
  rw [hat, hhost, hostOf_location rules s (hno '%' (by decide))
    (fun hhead => hbracket (List.mem_of_mem_head? (Option.mem_def.mpr hhead)))]
  by_contra hsome
  obtain ⟨c, more, rfl⟩ := List.exists_cons_of_ne_nil hne
  have hfree := hrules.domain_free _ (Option.isSome_iff_ne_none.mpr hsome) c (by simp)
  simp [forbidden, hs c (by simp)] at hfree

theorem filter_append_cons (s left right : Text) (c : Char)
    (h : s.filter visible = left ++ c :: right) :
    ∃ before after, s = before ++ c :: after ∧ before.filter visible = left ∧
      after.filter visible = right := by
  obtain ⟨first, second, rfl, hfirst, hsecond⟩ := List.filter_eq_append_iff.mp h
  obtain ⟨blank, after, rfl, hblank, -, hafter⟩ := List.filter_eq_cons_iff.mp hsecond
  refine ⟨first ++ blank, after, by simp, ?_, hafter⟩
  rw [List.filter_append, List.filter_eq_nil_iff.mpr hblank, List.append_nil, hfirst]

/-- Before the first slash or after it, a tab or a newline makes the address blank. -/
theorem authority_blank (hrules : rules.Lawful) (scheme : Special) (s after : Text) (hne : s ≠ [])
    (hs : s.filter visible = []) :
    authority rules scheme (location (s ++ '/' :: after)) = .failure := by
  have hnewline : ∀ c ∈ s, newline c = true := fun c hc => by
    simpa [visible] using List.filter_eq_nil_iff.mp hs c hc
  obtain ⟨c, more, rfl⟩ := List.exists_cons_of_ne_nil hne
  have hslash : c ≠ '/' := by
    rintro rfl
    cases hnewline '/' (by simp)
  have hplain : ∀ d ∈ c :: more, (!endsNetloc d) = true := fun d hd => by
    have hnot : ∀ e, endsNetloc e = true → newline e = false := fun e he => by
      simp only [endsNetloc, Bool.or_eq_true, beq_iff_eq] at he
      rcases he with (rfl | rfl) | rfl <;> decide
    by_contra hends
    have hvisible := hnot d (by simpa using hends)
    rw [hnewline d hd] at hvisible
    cases hvisible
  rw [authority, dropWhile_location, List.cons_append,
    List.dropWhile_cons_of_neg (by simpa using hslash), ← List.cons_append, takeWhile_authority,
    List.takeWhile_append_of_pos hplain, List.takeWhile_cons_of_neg (by decide), List.append_nil]
  exact address_blank rules hrules scheme _ hne hnewline

/-- Behind the colon: two slashes, with tabs and newlines between. -/
theorem authority_location (hrules : rules.Lawful) (scheme : Special) (s netloc rest : Text)
    (hs : s.filter visible = "//".toList ++ (netloc ++ rest)) (hne : netloc ≠ [])
    (hnetloc : ∀ c ∈ netloc, endsNetloc c = false)
    (hrest : ∀ c ∈ rest.head?, endsNetloc c = true) (hpercent : '%' ∉ hostInfo netloc) :
    authority rules scheme (location s) = .failure ∨
      ∃ u, authority rules scheme (location s) = .url u ∧ Reads rules (hostInfo netloc) u.host := by
  obtain ⟨first, more, rfl, hfirst, hmore⟩ := filter_append_cons s [] _ '/' hs
  obtain ⟨second, text, rfl, hsecond, htext⟩ :=
    filter_append_cons more [] (netloc ++ rest) '/' hmore
  by_cases hblank : first = []
  · subst hblank
    rw [List.nil_append]
    by_cases hblank : second = []
    · subst hblank
      rw [List.nil_append]
      have htake : (text.takeWhile fun c => !endsNetloc c).filter visible = netloc := by
        rw [← takeWhile_filter_visible _ fun c hc => ?_, htext,
          List.takeWhile_append_of_pos (fun c hc => by simp [hnetloc c hc])]
        · cases rest with
          | nil => simp
          | cons d rest => rw [List.takeWhile_cons_of_neg (by simp [hrest d rfl]), List.append_nil]
        · by_contra hcontra
          simp only [endsNetloc, Bool.not_eq_true, Bool.not_eq_false', Bool.or_eq_true,
            beq_iff_eq] at hcontra
          rcases hcontra with (rfl | rfl) | rfl <;> cases hc
      have hdrop : ('/' :: '/' :: text).dropWhile (· = '/') = text := by
        rw [List.dropWhile_cons_of_pos (by decide), List.dropWhile_cons_of_pos (by decide)]
        cases text with
        | nil => rfl
        | cons c text =>
          refine List.dropWhile_cons_of_neg fun hc => ?_
          obtain rfl : c = '/' := by simpa using hc
          rw [List.takeWhile_cons_of_neg (by decide)] at htake
          exact hne htake.symm
      rw [authority, dropWhile_location, hdrop, takeWhile_authority, ← htake]
      exact address_location rules hrules scheme _ (by rwa [htake])
    · have hskip : authority rules scheme (location ('/' :: (second ++ '/' :: text))) =
          authority rules scheme (location (second ++ '/' :: text)) := by
        rw [authority, authority, dropWhile_location, dropWhile_location,
          List.dropWhile_cons_of_pos (by decide)]
      rw [hskip]
      exact Or.inl (authority_blank rules hrules scheme second text hblank hsecond)
  · exact Or.inl (authority_blank rules hrules scheme first _ hblank hfirst)

/-- What does not start with two slashes in the header stays on the host. -/
theorem relative_location (base : Url Host) (s : Text) (hs : ¬ "//".toList <+: location s) :
    relative rules base (location s) = .url base := by
  refine relative_keeps rules base _ fun a b more heq hslash => hs ?_
  have hsafe := location_safe s
  rw [heq] at hsafe ⊢
  have hone : ∀ c, locationSafe c = true → slash c = true → c = '/' := fun c hc hslash => by
    simp only [slash, Bool.or_eq_true, beq_iff_eq] at hslash
    exact hslash.resolve_right (safe_visible c hc).2
  rw [hone a (hsafe a (by simp)) hslash.1, hone b (hsafe b (by simp)) hslash.2]
  exact ⟨more, rfl⟩

theorem parse_encoded (base : Url Host) (left right : Text) (c : Char)
    (hleft : ∀ d ∈ left, schemeChar d = true) (hc : locationSafe c = false) :
    parse rules (some base) (location (left ++ c :: right)) = .url base := by
  obtain ⟨⟨more, heq⟩, -⟩ := escaped_encoded c hc
  have hlocation : location (left ++ c :: right) = left ++ '%' :: (more ++ location right) := by
    rw [location_append, location_cons, heq,
      location_eq_self left fun d hd => schemeChar_safe d (hleft d hd)]
    rfl
  have hclean := clean_location (left ++ c :: right)
  rw [hlocation] at hclean ⊢
  exact parse_relative rules base left _ '%' hclean hleft (by decide) (by decide) (by decide)

theorem exists_first_hidden (s : Text) (h : ¬ ∀ d ∈ s, visible d = true) :
    ∃ d left right, (∀ e ∈ left, visible e = true) ∧ visible d = false ∧
      s = left ++ d :: right := by
  obtain ⟨d, right, hdrop⟩ := List.exists_cons_of_ne_nil
    (fun hnil : s.dropWhile visible = [] => h (List.dropWhile_eq_nil_iff.mp hnil))
  have hd := List.head?_dropWhile_not visible s
  rw [hdrop] at hd
  refine ⟨d, s.takeWhile visible, right, fun e he => List.mem_takeWhile_imp he,
    by simpa using hd, ?_⟩
  rw [← hdrop, List.takeWhile_append_dropWhile]

/-- A browser that follows the header stays on the host of its base, fails, or goes to the host
that `urlsplit` has read in the URL. -/
theorem parse_location (hrules : rules.Lawful) (base : Url Host) (refused : Text → Bool)
    (url : Text) (parts : Split) (known : Special) (h : urlsplit refused url = some parts)
    (hscheme : special parts.scheme = some known) (hhost : hostInfo parts.netloc ≠ [])
    (hpercent : '%' ∉ hostInfo parts.netloc) :
    parse rules (some base) (location url) = .url base ∨
      parse rules (some base) (location url) = .failure ∨
      ∃ u, parse rules (some base) (location url) = .url u ∧
        Reads rules (hostInfo parts.netloc) u.host := by
  have hnamed : parts.scheme ≠ [] := by
    intro hnil
    rw [hnil] at hscheme
    cases hscheme
  have hnetloc : parts.netloc ≠ [] := by
    intro hnil
    rw [hnil] at hhost
    exact hhost rfl
  obtain ⟨raw, hraw, hlower, hurl, hplain, hrest⟩ :=
    PyUrl.urlsplit_spec refused url parts h hnamed hnetloc
  rw [hlower] at hscheme
  have hcontrol : ∀ c, control c = true → locationSafe c = false := fun c hc => by
    by_contra hsafe
    rw [(safe_visible c (by simpa using hsafe)).1] at hc
    cases hc
  cases url with
  | nil =>
    have hnil := congrArg List.length hurl
    simp [stripped] at hnil
  | cons c more =>
    by_cases hc : control c = true
    · exact Or.inl (parse_encoded rules base [] more c (by simp) (hcontrol c hc))
    · rw [stripped, List.dropWhile_cons_of_neg hc] at hurl
      obtain ⟨front, back, heq, hfront, hback⟩ := filter_append_cons _ _ _ _ hurl
      rw [heq]
      by_cases hvisible : ∀ d ∈ front, visible d = true
      · rw [List.filter_eq_self.mpr hvisible] at hfront
        subst hfront
        have hlocation : location (front ++ ':' :: back) = front ++ ':' :: location back := by
          rw [location_delimiter front back ':' (by decide),
            location_eq_self front fun d hd => schemeChar_safe d (hraw.chars d hd)]
        have hclean := clean_location (front ++ ':' :: back)
        rw [hlocation] at hclean ⊢
        rcases parse_special rules (some base) _ front (location back) known hclean hraw hscheme
          with hauth | ⟨b, hb, hno, hrel⟩
        · rw [hauth]
          exact Or.inr (authority_location rules hrules known back _ _ hback hnetloc hplain hrest
            hpercent)
        · obtain rfl := Option.some.inj hb
          exact Or.inl (hrel.trans (relative_location rules base back hno))
      · obtain ⟨d, left, right, hleft, hd, rfl⟩ := exists_first_hidden front hvisible
        have hchars : ∀ e ∈ left, schemeChar e = true := fun e he => by
          refine hraw.chars e ?_
          rw [← hfront]
          exact List.mem_filter.mpr ⟨List.mem_append_left _ he, hleft e he⟩
        have hhidden := hcontrol d (newline_control d (by simpa [visible] using hd))
        rw [List.append_assoc]
        exact Or.inl (parse_encoded rules base left _ d hchars hhidden)

end

end Hyproxy.HeaderReading

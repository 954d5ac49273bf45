import Hyproxy.HtuForms

/-!
When the compared form of a URL is a canonical one. It is read back as it was written when its
host has neither colons nor brackets; a host that has lost the brackets around it is read as
another host and a port, or not at all.
-/
namespace Hyproxy.HtuCanonical

open BrowserUrl (IsScheme Text asciiDigit decimal visible)
open Dpop (UrlParts)
open HtuForms
open LetterCase (lower)
open PyUrl
open Text (cut)

variable {P : Platform}

theorem normalizeHtu_iff (hP : P.Standard) (cfg : Dpop.Config) (url t : Text) :
    normalizeHtu P cfg url = some t ↔ ∃ p, Accepted P url p ∧ (key P p).text = t := by
  have htext : ∀ p, Accepted P url p → normalizeHtu P cfg url = some (key P p).text := by
    intro p h
    obtain ⟨scheme, host, number, path⟩ := p
    have hpath := (canonical_key hP url _ h).1.path
    have hscheme : ¬ (scheme ≠ "http".toList ∧ scheme ≠ "https".toList ∨ host = []) := by
      rw [not_or, not_and_or, not_not, not_not]
      exact ⟨h.scheme, h.host⟩
    simp only [key] at hpath
    simp only [normalizeHtu, Dpop.normalizeHtu, onPlatform, h.read, if_neg hscheme, if_pos hpath,
      Key.text, Key.netloc, key, defaultPort]
    cases number with
    | none =>
      rw [Option.getD_none, if_pos rfl, List.append_assoc, List.append_assoc]
      rfl
    | some n =>
      rw [List.append_assoc, List.append_assoc]
      rfl
  constructor
  · intro h
    cases hread : readUrl P url with
    | none =>
      simp only [normalizeHtu, Dpop.normalizeHtu, onPlatform, hread] at h
      cases h
    | some p =>
      by_cases hbad : p.scheme ≠ "http".toList ∧ p.scheme ≠ "https".toList ∨ p.hostname = []
      · simp only [normalizeHtu, Dpop.normalizeHtu, onPlatform, hread, if_pos hbad] at h
        cases h
      · rw [not_or, not_and_or, not_not, not_not] at hbad
        have haccepted : Accepted P url p := ⟨hread, hbad.1, hbad.2⟩
        exact ⟨p, haccepted, Option.some.inj ((htext p haccepted).symm.trans h)⟩
  · rintro ⟨p, h, rfl⟩
    exact htext p h

/-! ### Reading what was written -/

theorem splitNetloc_rest (netloc rest : Text) (hnetloc : ∀ c ∈ netloc, endsNetloc c = false)
    (hrest : rest.head? = some '/') :
    splitNetloc ("//".toList ++ (netloc ++ rest)) = (netloc, rest) := by
  have hall : ∀ c ∈ netloc, (!endsNetloc c) = true := fun c hc => by simp [hnetloc c hc]
  obtain ⟨tail, rfl⟩ := List.head?_eq_some_iff.mp hrest
  change ((netloc ++ '/' :: tail).takeWhile _, (netloc ++ '/' :: tail).dropWhile _) = _
  rw [List.takeWhile_append_of_pos hall, List.dropWhile_append_of_pos hall,
    List.takeWhile_cons_of_neg (by decide), List.dropWhile_cons_of_neg (by decide), List.append_nil]

/-- A character of the network location that a key is written with. -/
theorem netloc_chars {k : Key} {p : Char → Prop} (hhost : ∀ c ∈ k.host, p c) (hcolon : p ':')
    (hdigit : ∀ c, asciiDigit c = true → p c) : ∀ c ∈ k.netloc, p c := by
  intro c hc
  unfold Key.netloc at hc
  split_ifs at hc
  · exact hhost c hc
  · rcases List.mem_append.mp hc with hc | hc
    · exact hhost c hc
    · rcases List.mem_cons.mp hc with rfl | hc
      · exact hcolon
      · exact hdigit c (List.all_eq_true.mp (toString_digits k.port).2.1 c hc)

theorem digit_ne (c d : Char) (hc : asciiDigit c = true) (hd : asciiDigit d = false) : c ≠ d := by
  rintro rfl
  rw [hc] at hd
  cases hd

theorem digit_visible (c : Char) (hc : asciiDigit c = true) : visible c = true := by
  simp [visible, BrowserUrl.newline, digit_ne c '\t' hc (by decide), digit_ne c '\n' hc (by decide),
    digit_ne c '\r' hc (by decide)]

theorem urlsplit_read (refused : Text → Bool) (scheme netloc rest : Text)
    (hscheme : scheme = "http".toList ∨ scheme = "https".toList)
    (hnetloc : ∀ c ∈ netloc, endsNetloc c = false ∧ visible c = true)
    (hrest : rest.head? = some '/') (hvisible : ∀ c ∈ rest, visible c = true) :
    urlsplit refused (scheme ++ ':' :: ("//".toList ++ (netloc ++ rest))) =
      if unpaired netloc || refused netloc then none else some ⟨scheme, netloc, rest⟩ := by
  have hraw : IsScheme scheme := by
    rcases hscheme with rfl | rfl <;> exact ⟨by decide, List.all_iff_forall_prop.mp (by decide)⟩
  have hlower : scheme.map Char.toLower = scheme := by rcases hscheme with rfl | rfl <;> decide
  have hall : ∀ c ∈ scheme ++ ':' :: ("//".toList ++ (netloc ++ rest)), visible c = true := by
    have hfront : ∀ c ∈ scheme ++ "://".toList, visible c = true := by
      rcases hscheme with rfl | rfl <;> exact List.all_iff_forall_prop.mp (by decide)
    intro c hc
    rw [show scheme ++ ':' :: ("//".toList ++ (netloc ++ rest)) =
      (scheme ++ "://".toList) ++ (netloc ++ rest) by simp] at hc
    rcases List.mem_append.mp hc with hc | hc
    · exact hfront c hc
    · rcases List.mem_append.mp hc with hc | hc
      · exact (hnetloc c hc).2
      · exact hvisible c hc
  have hstripped : stripped (scheme ++ ':' :: ("//".toList ++ (netloc ++ rest))) =
      scheme ++ ':' :: ("//".toList ++ (netloc ++ rest)) := by
    unfold stripped
    rw [List.filter_eq_self.mpr fun c hc => hall c ((List.dropWhile_suffix _).mem hc)]
    rcases hscheme with rfl | rfl <;> rfl
  simp only [urlsplit, hstripped, splitScheme_append scheme _ hraw, hlower,
    splitNetloc_rest netloc rest (fun c hc => (hnetloc c hc).1) hrest]

theorem canonical_netloc (hP : P.Standard) (k : Key) (hk : Canonical P k) :
    ∀ c ∈ k.netloc, endsNetloc c = false ∧ c ≠ '@' ∧ visible c = true ∧ P.widens c = false := by
  refine netloc_chars hk.plain ⟨by decide, by decide, by decide, hP.ascii ':' (by decide)⟩ ?_
  intro c hc
  refine ⟨?_, digit_ne c '@' hc (by decide), digit_visible c hc, hP.ascii c ?_⟩
  · simp [endsNetloc, digit_ne c '/' hc (by decide), digit_ne c '?' hc (by decide),
      digit_ne c '#' hc (by decide)]
  · simp only [asciiDigit, Bool.and_eq_true, decide_eq_true_eq] at hc
    exact Nat.lt_of_le_of_lt (show c.toNat ≤ '9'.toNat from hc.2) (by decide)

theorem urlsplit_text (hP : P.Standard) (k : Key) (hk : Canonical P k) :
    urlsplit (refused P) k.text =
      if unpaired k.netloc || refused P k.netloc then none
      else some ⟨k.scheme, k.netloc, k.path⟩ := by
  have hchars := canonical_netloc hP k hk
  exact urlsplit_read (refused P) k.scheme k.netloc k.path hk.scheme
    (fun c hc => ⟨(hchars c hc).1, (hchars c hc).2.2.1⟩) hk.path fun c hc => (hk.pathChars c hc).2.2

theorem path_self (rest : Text) (h : ∀ c ∈ rest, c ≠ '?' ∧ c ≠ '#') : path rest = rest := by
  have hno : ∀ sep, (∀ c ∈ rest, c ≠ sep) → (cut sep rest).1 = rest := fun sep hsep =>
    congrArg Prod.fst (Text.cut_of_not_mem sep rest fun hmem => hsep sep hmem rfl)
  rw [path, hno '#' fun c hc => (h c hc).2, hno '?' fun c hc => (h c hc).1]

theorem rtakeWhile_at (netloc : Text) (h : ∀ c ∈ netloc, c ≠ '@') :
    netloc.rtakeWhile (· ≠ '@') = netloc :=
  List.rtakeWhile_eq_self_iff.mpr fun c hc => by simpa using h c hc

/-- A host that is written without brackets, as most are. -/
def Bare (host : Text) : Prop := ':' ∉ host ∧ '[' ∉ host ∧ ']' ∉ host

theorem bare_netloc (k : Key) (hbare : Bare k.host) : '[' ∉ k.netloc ∧ ']' ∉ k.netloc := by
  have hno : ∀ d ∉ k.host, d ≠ ':' → asciiDigit d = false → d ∉ k.netloc :=
    fun d hd hcolon hdigit hmem => netloc_chars (p := (· ≠ d)) (fun c hc h => hd (h ▸ hc))
      hcolon.symm (fun c hc => digit_ne c d hc hdigit) d hmem rfl
  exact ⟨hno '[' hbare.2.1 (by decide) (by decide), hno ']' hbare.2.2 (by decide) (by decide)⟩

theorem info_netloc (k : Key) (hbare : Bare k.host) (hat : ∀ c ∈ k.netloc, c ≠ '@')
    (hport : k.port ≤ 65535) : hostInfo k.netloc = k.host ∧ port k.netloc = some k.number := by
  have hopen := (bare_netloc k hbare).1
  have hinfo := rtakeWhile_at k.netloc hat
  obtain ⟨hne, hdigits, hvalue⟩ := toString_digits k.port
  have hcolon : ':' ∉ k.host := hbare.1
  unfold hostInfo port portInfo
  simp only [hinfo, if_neg hopen]
  unfold Key.number Key.netloc
  by_cases hdefault : k.port = defaultPort k.scheme
  · simp only [if_pos hdefault, Text.cut_of_not_mem ':' k.host hcolon]
    exact ⟨trivial, rfl⟩
  · simp only [if_neg hdefault, Text.cut_append ':' k.host _ hcolon, if_neg hne, hvalue]
    exact ⟨trivial, if_pos ⟨hdigits, hport⟩⟩

theorem hostname_lowered (netloc : Text) (hne : hostInfo netloc ≠ [])
    (hlowered : ∀ c ∈ hostInfo netloc, LetterCase.Lowered P.letters c) :
    hostname (lower P.letters) netloc = some (hostInfo netloc) := by
  have hfront : lower P.letters (cut '%' (hostInfo netloc)).1 = (cut '%' (hostInfo netloc)).1 :=
    LetterCase.lower_eq_self _ fun c hc => hlowered c ((List.takeWhile_prefix _).mem hc)
  rw [hostname, if_neg hne, hfront, cut, List.takeWhile_append_dropWhile]

theorem lower_scheme (hP : P.Standard) (scheme : Text)
    (h : scheme = "http".toList ∨ scheme = "https".toList) :
    lower P.letters scheme = scheme := by
  rcases h with rfl | rfl <;> rw [LetterCase.lower_ascii hP.letters _
    (List.all_iff_forall_prop.mp (by decide))] <;> decide

/-- What is read of a URL that is put together of its parts. -/
theorem accepted_parts (scheme netloc rest host : Text) (number : Option ℕ)
    (hscheme : scheme = "http".toList ∨ scheme = "https".toList)
    (hnetloc : ∀ c ∈ netloc, endsNetloc c = false ∧ visible c = true)
    (hrest : rest.head? = some '/') (hchars : ∀ c ∈ rest, c ≠ '?' ∧ c ≠ '#' ∧ visible c = true)
    (hpaired : unpaired netloc = false) (hrefused : refused P netloc = false)
    (hport : port netloc = some number) (hinfo : hostInfo netloc = host) (hne : host ≠ [])
    (hlowered : ∀ c ∈ host, LetterCase.Lowered P.letters c) :
    Accepted P (scheme ++ ':' :: ("//".toList ++ (netloc ++ rest)))
      ⟨scheme, host, number, rest⟩ := by
  have hsplit := urlsplit_read (refused P) scheme netloc rest hscheme hnetloc hrest
    fun c hc => (hchars c hc).2.2
  rw [hpaired, hrefused, Bool.or_self, if_neg Bool.false_ne_true] at hsplit
  have hread := hostname_lowered (P := P) netloc (by rwa [hinfo]) (by rwa [hinfo])
  refine ⟨?_, hscheme, hne⟩
  simp only [readUrl, hsplit, hport, hread, hinfo, Option.getD_some,
    path_self rest fun c hc => ⟨(hchars c hc).1, (hchars c hc).2.1⟩]

theorem key_parts (hP : P.Standard) (scheme host rest : Text) (number : Option ℕ)
    (hscheme : scheme = "http".toList ∨ scheme = "https".toList)
    (hlowered : ∀ c ∈ host, LetterCase.Lowered P.letters c) (hrest : rest.head? = some '/') :
    key P ⟨scheme, host, number, rest⟩ =
      ⟨scheme, host, number.getD (defaultPort scheme), rest⟩ := by
  have hne : rest ≠ [] := by
    rintro rfl
    cases hrest
  simp only [key, lower_scheme hP scheme hscheme, LetterCase.lower_eq_self _ hlowered, if_neg hne]

theorem narrow (netloc : Text) (h : ∀ c ∈ netloc, P.widens c = false) :
    netloc.any P.widens = false :=
  List.any_eq_false.mpr fun c hc => by simp [h c hc]

/-- A key without brackets is read back as it was written. -/
theorem accepted_text (hP : P.Standard) (k : Key) (hk : Canonical P k) (hbare : Bare k.host) :
    ∃ p, Accepted P k.text p ∧ key P p = k := by
  have hchars := canonical_netloc hP k hk
  obtain ⟨hopen, hclosed⟩ := bare_netloc k hbare
  obtain ⟨hinfo, hport⟩ := info_netloc k hbare (fun c hc => (hchars c hc).2.1) hk.port
  have hrefused : refused P k.netloc = false := by
    simp [refused, hopen, narrow k.netloc fun c hc => (hchars c hc).2.2.2]
  have hnumber : k.number.getD (defaultPort k.scheme) = k.port := by
    unfold Key.number
    split_ifs with hdefault
    · exact hdefault.symm
    · rfl
  refine ⟨_, accepted_parts k.scheme k.netloc k.path k.host k.number hk.scheme
    (fun c hc => ⟨(hchars c hc).1, (hchars c hc).2.2.1⟩) hk.path hk.pathChars
    (by simp [unpaired, hopen, hclosed]) hrefused hport hinfo hk.host_ne hk.lowered, ?_⟩
  rw [key_parts hP _ _ _ _ hk.scheme hk.lowered hk.path, hnumber]

/-! ### Keys that are written alike -/

theorem cut_text (k : Key) (hscheme : k.scheme = "http".toList ∨ k.scheme = "https".toList) :
    cut ':' k.text = (k.scheme, "//".toList ++ (k.netloc ++ k.path)) := by
  refine Text.cut_append ':' k.scheme _ ?_
  rcases hscheme with h | h <;> rw [h] <;> decide

theorem text_inj (hP : P.Standard) (k k' : Key) (hk : Canonical P k) (hk' : Canonical P k')
    (h : k.text = k'.text) : k.scheme = k'.scheme ∧ k.netloc = k'.netloc ∧ k.path = k'.path := by
  have hcut := cut_text k hk.scheme
  rw [h, cut_text k' hk'.scheme, Prod.mk.injEq] at hcut
  have hnetloc := splitNetloc_rest k.netloc k.path
    (fun c hc => (canonical_netloc hP k hk c hc).1) hk.path
  rw [← hcut.2, splitNetloc_rest k'.netloc k'.path
    (fun c hc => (canonical_netloc hP k' hk' c hc).1) hk'.path, Prod.mk.injEq] at hnetloc
  exact ⟨hcut.1.symm, hnetloc.1.symm, hnetloc.2.symm⟩

theorem host_netloc (k : Key) (d : Char) (hd : d ∈ k.host) : d ∈ k.netloc := by
  unfold Key.netloc
  split_ifs
  · exact hd
  · exact List.mem_append_left _ hd

theorem count_netloc (k : Key) : k.netloc.count ':' =
    k.host.count ':' + if k.port = defaultPort k.scheme then 0 else 1 := by
  have hdigits : (toString k.port).toList.count ':' = 0 := List.count_eq_zero.mpr fun hmem =>
    digit_ne ':' ':' (List.all_eq_true.mp (toString_digits k.port).2.1 ':' hmem) (by decide) rfl
  unfold Key.netloc
  split_ifs with hdefault
  · rfl
  · rw [List.count_append, List.count_cons_self, hdigits]

/-- A host that a URL names without brackets, while no URL names it and its port within them. -/
def Unambiguous (k : Key) : Prop :=
  Bare k.host ∧ (k.port ≠ defaultPort k.scheme → futureAddress k.netloc = false)

theorem bare_of_netloc (k k' : Key) (hk : Unambiguous k) (hk' : Canonical P k')
    (h : k.netloc = k'.netloc) : Bare k'.host := by
  have hmem : ∀ d ∈ k'.host, d ∈ k'.netloc := fun d => host_netloc k' d
  have hbrackets := bare_netloc k hk.1
  rw [h] at hbrackets
  refine ⟨fun hcolon => ?_, fun hd => hbrackets.1 (hmem _ hd), fun hd => hbrackets.2 (hmem _ hd)⟩
  have hzero : k.host.count ':' = 0 := List.count_eq_zero.mpr hk.1.1
  have hpos := List.count_pos_iff.mpr hcolon
  have hcount := count_netloc k
  rw [h, count_netloc k', hzero] at hcount
  split_ifs at hcount with hdefault' hdefault hdefault
  · omega
  · rcases hk'.colon hcolon with hfuture | htwo
    · have hno := hk.2 hdefault
      rw [h, Key.netloc, if_pos hdefault', hfuture] at hno
      cases hno
    · omega
  · omega
  · omega

theorem key_of_netloc (k k' : Key) (hbare : Bare k.host) (hbare' : Bare k'.host)
    (hat : ∀ c ∈ k.netloc, c ≠ '@') (hport : k.port ≤ 65535) (hport' : k'.port ≤ 65535)
    (hscheme : k.scheme = k'.scheme) (hnetloc : k.netloc = k'.netloc) :
    k.host = k'.host ∧ k.port = k'.port := by
  have hinfo := info_netloc k hbare hat hport
  rw [hnetloc] at hat hinfo
  have hinfo' := info_netloc k' hbare' hat hport'
  refine ⟨hinfo.1.symm.trans hinfo'.1, ?_⟩
  have hnumber : k.number = k'.number := Option.some.inj (hinfo.2.symm.trans hinfo'.2)
  unfold Key.number at hnumber
  rw [hscheme] at hnumber
  split_ifs at hnumber with hdefault hdefault'
  · exact hdefault.trans hdefault'.symm
  · exact Option.some.inj hnumber

theorem text_eq_iff (hP : P.Standard) (k k' : Key) (hk : Canonical P k) (hk' : Canonical P k')
    (hone : Unambiguous k) : k.text = k'.text ↔ k = k' := by
  constructor
  · intro h
    obtain ⟨hscheme, hnetloc, hpath⟩ := text_inj hP k k' hk hk' h
    obtain ⟨hhost, hport⟩ := key_of_netloc k k' hone.1 (bare_of_netloc k k' hone hk' hnetloc)
      (fun c hc => (canonical_netloc hP k hk c hc).2.1) hk.port hk'.port hscheme hnetloc
    cases k
    cases k'
    simp_all
  · rintro rfl
    rfl

/-! ### Hosts that lose their brackets -/

theorem split_text (hP : P.Standard) (k : Key) (hk : Canonical P k) (p : UrlParts)
    (h : Accepted P k.text p) : unpaired k.netloc = false ∧
      lower P.letters p.hostname = lower P.letters (hostInfo k.netloc) := by
  obtain ⟨s, hsplit, -, -, -, hlower, -⟩ := accepted_split hP k.text p h
  rw [urlsplit_text hP k hk] at hsplit
  split_ifs at hsplit with hbad
  obtain rfl := Option.some.inj hsplit
  rw [Bool.or_eq_true, not_or, Bool.not_eq_true] at hbad
  exact ⟨hbad.1, hlower⟩

theorem mem_netloc (k : Key) (d : Char) (hcolon : d ≠ ':') (hdigit : asciiDigit d = false) :
    d ∈ k.netloc ↔ d ∈ k.host := by
  constructor
  · intro hd
    by_contra hno
    exact netloc_chars (p := (· ≠ d)) (fun c hc h => hno (h ▸ hc)) hcolon.symm
      (fun c hc => digit_ne c d hc hdigit) d hd rfl
  · exact host_netloc k d

theorem bare_of_accepted (hP : P.Standard) (k : Key) (hk : Canonical P k) (p : UrlParts)
    (h : Accepted P k.text p) (hkey : key P p = k) : Bare k.host := by
  obtain ⟨hpaired, hlower⟩ := split_text hP k hk p h
  have hboth : '[' ∈ k.netloc ↔ ']' ∈ k.netloc := by simpa [unpaired] using hpaired
  have hopen : '[' ∉ k.netloc := by
    intro hmem
    have hclosed := hboth.mp hmem
    rw [mem_netloc k _ (by decide) (by decide)] at hmem hclosed
    exact hk.brackets hmem hclosed
  have hclosed : ']' ∉ k.netloc := hboth.not.mp hopen
  refine ⟨fun hcolon => ?_, (mem_netloc k '[' (by decide) (by decide)).not.mp hopen,
    (mem_netloc k ']' (by decide) (by decide)).not.mp hclosed⟩
  have hhost : k.host = lower P.letters (hostInfo k.netloc) := by
    rw [← hlower, ← hkey]
    rfl
  have hinfo : hostInfo k.netloc = (cut ':' k.netloc).1 := by
    unfold hostInfo
    simp only [rtakeWhile_at k.netloc fun c hc => (canonical_netloc hP k hk c hc).2.1, if_neg hopen]
  rw [hhost, LetterCase.mem_lower_iff hP.letters _ ':' (by decide), hinfo] at hcolon
  exact not_mem_cut ':' _ hcolon

/-- The host and the port are one host when brackets are put around them. -/
theorem bracketed_text (hP : P.Standard) (k : Key) (hk : Canonical P k) (hbare : Bare k.host)
    (hport : k.port ≠ defaultPort k.scheme) (hfuture : futureAddress k.netloc = true) :
    ∃ url p, Accepted P url p ∧ (key P p).text = k.text ∧ key P p ≠ k := by
  have hchars := canonical_netloc hP k hk
  obtain ⟨hopen, hclosed⟩ := bare_netloc k hbare
  have hnetloc : ∀ c ∈ '[' :: (k.netloc ++ [']']),
      endsNetloc c = false ∧ c ≠ '@' ∧ visible c = true ∧ P.widens c = false := by
    intro c hc
    rcases List.mem_cons.mp hc with rfl | hc
    · exact ⟨by decide, by decide, by decide, hP.ascii '[' (by decide)⟩
    · rcases List.mem_append.mp hc with hc | hc
      · exact hchars c hc
      · rw [List.mem_singleton.mp hc]
        exact ⟨by decide, by decide, by decide, hP.ascii ']' (by decide)⟩
  have hinfo := rtakeWhile_at ('[' :: (k.netloc ++ [']'])) fun c hc => (hnetloc c hc).2.1
  have hcut : cut '[' ('[' :: (k.netloc ++ [']'])) = ([], k.netloc ++ [']']) :=
    Text.cut_append '[' [] _ List.not_mem_nil
  have hinner : cut ']' (k.netloc ++ [']']) = (k.netloc, []) :=
    Text.cut_append ']' k.netloc [] hclosed
  have hhead : k.netloc.head? = some 'v' := by
    obtain ⟨digits, name, heq, -⟩ := (futureAddress_iff k.netloc).mp hfuture
    rw [heq]
    rfl
  have hrefused : refused P ('[' :: (k.netloc ++ [']'])) = false := by
    have hcheck : checkBracketedNetloc P ('[' :: (k.netloc ++ [']'])) = true := by
      unfold checkBracketedNetloc checkBracketedHost
      simp only [hinfo, if_pos List.mem_cons_self, hcut, hinner, hhead, if_true, hfuture,
        List.isEmpty_nil, Bool.true_or, Bool.and_self]
    rw [refused, hcheck, narrow _ fun c hc => (hnetloc c hc).2.2.2]
    simp
  have hlowered : ∀ c ∈ k.netloc, LetterCase.Lowered P.letters c := by
    refine netloc_chars hk.lowered (LetterCase.lowered_ascii hP.letters ':' (by decide) (by decide))
      fun c hc => LetterCase.lowered_ascii hP.letters c ?_ ?_
    · simp only [asciiDigit, Bool.and_eq_true, decide_eq_true_eq] at hc
      exact Nat.lt_of_le_of_lt (show c.toNat ≤ '9'.toNat from hc.2) (by decide)
    · rcases Text.toLower_cases c with ⟨hlow, -, -⟩ | ⟨-, hsame⟩
      · simp only [asciiDigit, Bool.and_eq_true, decide_eq_true_eq] at hc
        have h9 : '9'.toNat = 57 := rfl
        exact absurd (show c.toNat ≤ '9'.toNat from hc.2) (by omega)
      · exact hsame
  have hne : k.netloc ≠ [] := by
    intro hnil
    rw [hnil] at hhead
    cases hhead
  refine ⟨_, _, accepted_parts k.scheme ('[' :: (k.netloc ++ [']'])) k.path k.netloc none hk.scheme
    (fun c hc => ⟨(hnetloc c hc).1, (hnetloc c hc).2.2.1⟩) hk.path hk.pathChars
    (by simp [unpaired]) hrefused ?_ ?_ hne hlowered, ?_, ?_⟩
  · unfold port portInfo
    simp only [hinfo, if_pos List.mem_cons_self, hcut, hinner]
    rfl
  · unfold hostInfo
    simp only [hinfo, if_pos List.mem_cons_self]
    exact congrArg (fun parts => (cut ']' parts.2).1) hcut |>.trans (congrArg Prod.fst hinner)
  · have hwritten : (⟨k.scheme, k.netloc, defaultPort k.scheme, k.path⟩ : Key).netloc = k.netloc :=
      if_pos rfl
    rw [key_parts hP _ _ _ _ hk.scheme hlowered hk.path, Option.getD_none]
    simp only [Key.text, hwritten]
  · rw [key_parts hP _ _ _ _ hk.scheme hlowered hk.path]
    intro heq
    have hhost : k.netloc = k.host := congrArg Key.host heq
    rw [Key.netloc, if_neg hport] at hhost
    exact List.cons_ne_nil _ _ (List.append_right_eq_self.mp hhost)

/-- The normal form of a URL is canonical exactly if its host needs no brackets. -/
theorem normalizeHtu_canonical (hP : P.Standard) (cfg : Dpop.Config) (url t : Text) (p : UrlParts)
    (hread : readUrl P url = some p) (h : normalizeHtu P cfg url = some t) :
    (normalizeHtu P cfg t = some t ∧ ∀ url' t' p', readUrl P url' = some p' →
      normalizeHtu P cfg url' = some t' → (t = t' ↔ key P p = key P p')) ↔
    Unambiguous (key P p) := by
  have hof : ∀ url t p, readUrl P url = some p → normalizeHtu P cfg url = some t →
      Accepted P url p ∧ (key P p).text = t := by
    intro url t p hread h
    obtain ⟨q, hq, htext⟩ := (normalizeHtu_iff hP cfg url t).mp h
    obtain rfl := Option.some.inj (hread.symm.trans hq.read)
    exact ⟨hq, htext⟩
  obtain ⟨haccepted, rfl⟩ := hof url t p hread h
  have hk := (canonical_key hP url p haccepted).1
  constructor
  · rintro ⟨hagain, hone⟩
    obtain ⟨q, hq, htext⟩ := (normalizeHtu_iff hP cfg _ _).mp hagain
    have hsame := (hone _ _ q hq.read hagain).mp rfl
    have hbare := bare_of_accepted hP (key P p) hk q hq hsame.symm
    refine ⟨hbare, fun hport => ?_⟩
    by_contra hfuture
    rw [Bool.not_eq_false] at hfuture
    obtain ⟨url', p', haccepted', htext', hne⟩ := bracketed_text hP (key P p) hk hbare hport hfuture
    exact hne ((hone url' _ p' haccepted'.read
      ((normalizeHtu_iff hP cfg _ _).mpr ⟨p', haccepted', htext'⟩)).mp rfl).symm
  · intro hone
    obtain ⟨q, hq, hsame⟩ := accepted_text hP (key P p) hk hone.1
    refine ⟨(normalizeHtu_iff hP cfg _ _).mpr ⟨q, hq, by rw [hsame]⟩, ?_⟩
    intro url' t' p' hread' h'
    obtain ⟨haccepted', rfl⟩ := hof url' t' p' hread' h'
    exact text_eq_iff hP _ _ hk (canonical_key hP url' p' haccepted').1 hone

def samplePlatform : Platform where
  letters := ⟨fun c => if c = 'Σ' then ['σ'] else [c.toLower], Char.isAlpha, fun _ => false⟩
  widens _ := false
  ipv6 s := ["::1".toList, "::1:8080".toList].contains s

theorem samplePlatform_standard : samplePlatform.Standard where
  letters :=
    { ascii c hc := if_neg fun h => absurd (h ▸ hc) (by decide)
      outside c hc := by
        refine ⟨?_, fun d hd => Or.inl ?_⟩
        · simp only [samplePlatform]
          split_ifs <;> exact List.cons_ne_nil _ _
        · simp only [samplePlatform] at hd
          split_ifs at hd
          · rw [List.mem_singleton.mp hd]
            decide
          · rw [List.mem_singleton.mp hd]
            rcases Text.toLower_cases c with ⟨-, hhigh, -⟩ | ⟨-, hsame⟩
            · omega
            · rwa [hsame]
      lowered c d hd := by
        simp only [samplePlatform] at hd ⊢
        split_ifs at hd with hsigma
        · rw [List.mem_singleton.mp hd]
          decide
        · have hne : d ≠ 'Σ' := by
            rintro rfl
            rcases Text.toLower_cases c with ⟨-, hhigh, hlower⟩ | ⟨-, hsame⟩
            · rw [← List.mem_singleton.mp hd] at hlower
              have hlarge : 'Σ'.toNat = 931 := rfl
              omega
            · exact hsigma (hsame.symm.trans (List.mem_singleton.mp hd).symm)
          rw [if_neg hne]
          refine ⟨hne, ?_⟩
          rw [List.mem_singleton.mp hd, Text.toLower_toLower]
      sigma := ⟨by decide, by decide⟩
      percent := ⟨by decide, by decide⟩ }
  ascii _ _ := rfl
  lowerChar _ _ _ _ := rfl
  sigma := ⟨rfl, rfl⟩
  ipv6 s hs := by
    simp only [samplePlatform, List.contains_iff_mem, List.mem_cons, List.not_mem_nil,
      or_false] at hs
    rcases hs with rfl | rfl <;> decide

theorem normalizeHtu_canonical_token : (normalizeHtu samplePlatform Dpop.sampleConfig
      "https://h/oidc/token".toList = some "https://h/oidc/token".toList ∧
    ∀ url' t' p', readUrl samplePlatform url' = some p' →
      normalizeHtu samplePlatform Dpop.sampleConfig url' = some t' →
      ("https://h/oidc/token".toList = t' ↔
        key samplePlatform ⟨"https".toList, ['h'], some 443, "/oidc/token".toList⟩ =
          key samplePlatform p')) ↔
    Unambiguous (key samplePlatform ⟨"https".toList, ['h'], some 443, "/oidc/token".toList⟩) :=
  normalizeHtu_canonical samplePlatform_standard Dpop.sampleConfig
    "HTTPS://H:443/oidc/token?a".toList _ _ (by decide) (by decide)

/-- Two addresses are written alike, and what is written is refused. -/
theorem normalizeHtu_address :
    normalizeHtu samplePlatform Dpop.sampleConfig "http://[::1]:8080/".toList =
      some "http://::1:8080/".toList ∧
    normalizeHtu samplePlatform Dpop.sampleConfig "http://[::1:8080]/".toList =
      some "http://::1:8080/".toList ∧
    normalizeHtu samplePlatform Dpop.sampleConfig "http://::1:8080/".toList = none ∧
    (readUrl samplePlatform "http://[::1]:8080/".toList).map (key samplePlatform) ≠
      (readUrl samplePlatform "http://[::1:8080]/".toList).map (key samplePlatform) := by
  decide

end Hyproxy.HtuCanonical

import Hyproxy.ReturnUrls

/-!
The guards of the redirects against a browser. An address that is accepted as the return of a
step-up has the origin of a configured one; with origins in ASCII, one that is accepted as the
return of a sign-in leads to the gateway, to a configured origin's host or to an enabled resource,
or nowhere. An origin outside ASCII has a host that a capital changes for the browser only.
-/
namespace Hyproxy.RedirectGuards

open AuthzCheck (Resource)
open BrowserUrl
open LocationHeader (location)
open Origins
open PyUrl (Split endsNetloc stripped urlsplit)
open ReturnUrls

/-- At its end a text loses for the browser only control characters and spaces. -/
theorem clean_of_stripped (s left right : Text) (h : stripped s = left ++ right)
    (hlast : ∀ c ∈ left.getLast?, control c = false) :
    ∃ rest lost, clean s = left ++ rest ∧ right = rest ++ lost := by
  have hsplit : stripped s =
      clean s ++ ((s.dropWhile control).rtakeWhile control).filter visible := by
    rw [clean, stripped, Text.trim, ← List.filter_append, List.rdropWhile_append_rtakeWhile]
  rw [h] at hsplit
  rcases List.append_eq_append_iff.mp hsplit with ⟨rest, hclean, hright⟩ | ⟨more, hleft, hlost⟩
  · exact ⟨rest, _, hclean, hright⟩
  · cases more with
    | nil => exact ⟨[], right, by simpa using hleft.symm, rfl⟩
    | cons c more =>
      obtain ⟨last, hgot⟩ : ∃ last, (c :: more).getLast? = some last :=
        ⟨_, List.getLast?_eq_some_getLast (List.cons_ne_nil c more)⟩
      have hfront : left.getLast? = some last := by
        rw [hleft, List.getLast?_append, hgot]
        rfl
      have hmem : last ∈ ((s.dropWhile control).rtakeWhile control).filter visible := by
        rw [hlost]
        exact List.mem_append_left _ (List.mem_of_getLast? hgot)
      have hcontrol := List.mem_rtakeWhile_imp (List.mem_filter.mp hmem).1
      rw [hlast last hfront] at hcontrol
      cases hcontrol

/-- Two origins that are written alike have the same parts. -/
theorem originText_inj (known : Special) (scheme netloc found : Text) (hscheme : ':' ∉ scheme)
    (h : scheme ++ ':' :: ("//".toList ++ netloc) = originText known found) :
    scheme = known.text ∧ netloc = found := by
  have hknown : ':' ∉ known.text := by cases known <;> decide
  have hcut := congrArg (Text.cut ':') h
  rw [Text.cut_append ':' _ _ hscheme, originText, Text.cut_append ':' _ _ hknown] at hcut
  obtain ⟨hsame, hrest⟩ := Prod.mk.inj hcut
  exact ⟨hsame, List.append_cancel_left hrest⟩

/-- An accepted return of a step-up has a configured origin, whatever page the browser is on. -/
theorem stepup_origin {Host : Type} (rules : HostRules Host) (cfg : Settings)
    (horigins : ∀ origin ∈ spaOrigins cfg, IsOriginText origin) (page : Option (Url Host))
    (returnTo : Text) (h : validStepupReturn cfg returnTo = some true) :
    ∃ origin ∈ spaOrigins cfg, parse rules page returnTo = parse rules none origin := by
  obtain ⟨parts, hsplit, hscheme, hmem⟩ := validStepupReturn_spec cfg returnTo h
  obtain ⟨known, netloc, horigin, hne, hchars⟩ := (horigins _ hmem).shape
  have hplain : ':' ∉ parts.scheme := by
    rcases hscheme with hscheme | hscheme <;> rw [hscheme] <;> decide
  obtain ⟨hsame, hnetloc⟩ := originText_inj known _ _ _ hplain horigin
  refine ⟨_, hmem, ?_⟩
  rw [horigin, parse_origin rules none known _ hne hchars]
  obtain ⟨raw, hraw, hlower, hstripped, -, hends⟩ := PyUrl.urlsplit_spec cfg.refused returnTo parts
    hsplit (by rw [hsame]; exact (isScheme_text known).ne_nil) (by rwa [hnetloc])
  rw [hnetloc] at hstripped
  have hfront : stripped returnTo =
      (raw ++ ':' :: ("//".toList ++ netloc)) ++ parts.rest := by
    rw [hstripped]
    simp
  have hlast : ∀ c ∈ (raw ++ ':' :: ("//".toList ++ netloc)).getLast?,
      control c = false := by
    have hshape : raw ++ ':' :: ("//".toList ++ netloc) =
        (raw ++ "://".toList) ++ netloc := by simp
    intro c hc
    rw [hshape, List.getLast?_append, List.getLast?_eq_some_getLast hne, Option.some_or,
      Option.mem_some_iff] at hc
    exact (netlocChar_spec c (hchars c (hc ▸ List.getLast_mem hne))).1
  obtain ⟨rest, lost, hclean, hrest⟩ := clean_of_stripped returnTo _ _ hfront hlast
  refine parse_netloc rules page returnTo raw netloc rest known ?_ hraw ?_ hne hchars ?_
  · rw [hclean]
    simp
  · rw [← hlower, hsame, special_text]
  · intro c hc
    have hnetlocEnd := hends c (by rw [hrest]; cases rest <;> simp_all)
    simp only [endsNetloc, Bool.or_eq_true, beq_iff_eq] at hnetlocEnd
    rcases hnetlocEnd with (rfl | rfl) | rfl <;> decide

theorem asciiAlpha_toLower (c : Char) (hc : asciiAlpha c = true) : asciiAlpha c.toLower = true := by
  rcases Text.toLower_cases c with ⟨hlow, hhigh, hlower⟩ | ⟨-, hlower⟩
  · have hfirst : 'a' ≤ c.toLower := show 'a'.toNat ≤ c.toLower.toNat by
      rw [hlower]
      exact Nat.add_le_add_right hlow 32
    have hlast : c.toLower ≤ 'z' := show c.toLower.toNat ≤ 'z'.toNat by
      rw [hlower]
      exact Nat.add_le_add_right hhigh 32
    simp [asciiAlpha, hfirst, hlast]
  · rwa [hlower]

theorem schemeChar_toLower (c : Char) (hc : schemeChar c = true) : schemeChar c.toLower = true := by
  cases halpha : asciiAlpha c with
  | true => simp [schemeChar, asciiAlpha_toLower c halpha]
  | false =>
    rcases Text.toLower_cases c with ⟨hlow, hhigh, -⟩ | ⟨-, hlower⟩
    · have hupper : 'A' ≤ c ∧ c ≤ 'Z' := ⟨hlow, hhigh⟩
      simp [asciiAlpha, hupper] at halpha
    · rwa [hlower]

theorem isScheme_toLower (raw : Text) (h : IsScheme raw) : IsScheme (raw.map Char.toLower) := by
  obtain ⟨c, more, rfl⟩ := List.exists_cons_of_ne_nil h.ne_nil
  refine ⟨asciiAlpha_toLower c h.letter, fun d hd => ?_⟩
  obtain ⟨e, he, rfl⟩ := List.mem_map.mp hd
  exact schemeChar_toLower e (h.chars e he)

/-- Up to a colon a text without control characters and spaces is read as it is. -/
theorem clean_colon (front more : Text) (hfront : ∀ c ∈ front, control c = false) :
    ∃ tail, clean (front ++ ':' :: more) = front ++ ':' :: tail := by
  have hplain : ∀ c ∈ front ++ [':'], control c = false := fun c hc => by
    rcases List.mem_append.mp hc with hc | hc
    · exact hfront c hc
    · rw [List.mem_singleton.mp hc]
      decide
  have hstripped : stripped (front ++ ':' :: more) = (front ++ [':']) ++ more.filter visible := by
    obtain ⟨c, rest, heq⟩ := List.exists_cons_of_ne_nil (show front ++ [':'] ≠ [] by simp)
    rw [show front ++ ':' :: more = (front ++ [':']) ++ more by simp, stripped, heq,
      List.cons_append, List.dropWhile_cons_of_neg (by simp [hplain c (by simp [heq])]),
      ← List.cons_append, List.filter_append, ← heq, filter_visible _ hplain]
  obtain ⟨tail, -, hclean, -⟩ := clean_of_stripped _ _ _ hstripped fun c hc => by
    rw [List.getLast?_concat, Option.mem_some_iff] at hc
    rw [← hc]
    decide
  exact ⟨tail, hclean.trans (by simp)⟩

/-- The gateway's own address is read, so its scheme is not empty, and it is special. -/
theorem gateway_scheme {Host : Type} (rules : HostRules Host) (cfg : Settings) (base : Url Host)
    (hbase : parse rules none (gatewayRedirectUri cfg) = .url base) :
    cfg.externalScheme ≠ [] ∧ ∀ raw, IsScheme raw → cfg.externalScheme = raw.map Char.toLower →
      ∃ known, special cfg.externalScheme = some known := by
  refine ⟨fun hnil => ?_, fun raw hraw hlower => ?_⟩
  · obtain ⟨tail, hclean⟩ := clean_colon []
      ("//".toList ++ (cfg.authHost ++ "/gateway/callback".toList)) (by simp)
    have hnone : splitScheme (clean (gatewayRedirectUri cfg)) = none := by
      rw [gatewayRedirectUri, hnil, hclean]
      rfl
    rw [parse, hnone] at hbase
    cases hbase
  · have hscheme := isScheme_toLower raw hraw
    rw [← hlower] at hscheme
    obtain ⟨tail, hclean⟩ := clean_colon cfg.externalScheme
      ("//".toList ++ (cfg.authHost ++ "/gateway/callback".toList)) fun c hc =>
        (LocationHeader.safe_visible c
          (LocationHeader.schemeChar_safe c (hscheme.chars c hc))).1
    obtain ⟨known, hknown⟩ := special_of_parse rules none (gatewayRedirectUri cfg)
      cfg.externalScheme tail base hclean hscheme hbase
    refine ⟨known, ?_⟩
    rw [← hknown, hlower, List.map_map]
    congr 1
    exact List.map_congr_left fun c _ => (Text.toLower_toLower c).symm

/-- With origins in ASCII, a browser follows the redirect of a sign-in to a known host or not at
all; in any alphabet, the return of a step-up has a configured origin. -/
theorem guards_agree {Host : Type} (rules : HostRules Host) (hrules : rules.Lawful) (cfg : Settings)
    (hcfg : cfg.Standard) (horigins : ∀ origin ∈ spaOrigins cfg, IsOriginText origin)
    (resources : List Resource) (hstored : Stored resources) (base : Url Host)
    (hbase : parse rules none (gatewayRedirectUri cfg) = .url base) :
    ((∀ origin ∈ spaOrigins cfg, IsOrigin origin) →
      ∀ rd, validReturnUrl cfg resources rd = some true →
        Lands rules cfg resources base (parse rules (some base) (location rd))) ∧
    ∀ page returnTo, validStepupReturn cfg returnTo = some true →
      ∃ origin ∈ spaOrigins cfg, parse rules page returnTo = parse rules none origin := by
  refine ⟨fun hascii rd h => ?_, stepup_origin rules cfg horigins⟩
  obtain ⟨parts, host, hsplit, hscheme, hhost, -⟩ := validReturnUrl_spec cfg resources rd h
  obtain ⟨hne, hspecial⟩ := gateway_scheme rules cfg base hbase
  have hnetloc : parts.netloc ≠ [] := by
    intro hnil
    rw [hnil] at hhost
    cases hhost
  obtain ⟨raw, hraw, hlower, -⟩ :=
    PyUrl.urlsplit_spec cfg.refused rd parts hsplit (hscheme ▸ hne) hnetloc
  obtain ⟨known, hknown⟩ := hspecial raw hraw (hscheme ▸ hlower)
  exact return_lands rules hrules cfg hcfg resources base hascii hstored known hknown rd h

/-! ### A gateway -/

/-- Of two Greek capitals, the mapping that domain names have. -/
def greek (c : Char) : Char := if c = 'Α' then 'α' else if c = 'Σ' then 'σ' else c

def domainChar (c : Char) : Bool := asciiAlpha c || asciiDigit c || c == '-' || c == '.'

/-- ASCII names in lower case, and two Greek ones. -/
def sampleDomain (s : Text) : Option Text :=
  let name := s.map (greek ∘ fold)
  if name = "ασ-1.example".toList then some "xn---1-b9b6e.example".toList
  else if name = "ας-1.example".toList then some "xn---1-b9b2e.example".toList
  else if name.all domainChar = true ∧ name ≠ [] then some name
  else none

def sampleRules : HostRules Text where
  domain := sampleDomain
  ipv6 _ := none

theorem fold_fold (c : Char) : fold (fold c) = fold c := by
  by_cases hkelvin : c = Char.ofNat 0x212A
  · subst hkelvin
    decide
  · have hfold : fold c = c.toLower := if_neg hkelvin
    rw [hfold, fold, Text.toLower_toLower, if_neg]
    intro hlower
    rcases Text.toLower_cases c with ⟨-, hhigh, hto⟩ | ⟨-, hto⟩
    · rw [hlower] at hto
      have hvalue : (Char.ofNat 0x212A).toNat = 0x212A := by decide
      omega
    · exact hkelvin (hto ▸ hlower)

theorem sampleRules_lawful : sampleRules.Lawful where
  domain_fold s := by
    have hname : (s.map fold).map (greek ∘ fold) = s.map (greek ∘ fold) := by
      rw [List.map_map]
      refine List.map_congr_left fun c _ => ?_
      rw [Function.comp, Function.comp, fold_fold]
      rfl
    change sampleDomain (s.map fold) = sampleDomain s
    rw [sampleDomain, hname]
    rfl
  domain_free s hs c hc := by
    rw [← Bool.not_eq_true]
    intro hforbidden
    have hlisted : c ∈ ['\t', '\n', '\r', '[', ']'] := by
      simpa [forbidden, newline, or_assoc] using hforbidden
    have hself : ∀ d ∈ ['\t', '\n', '\r', '[', ']'], (greek ∘ fold) d = d ∧
        domainChar d = false ∧ d ∉ "ασ-1.example".toList ∧ d ∉ "ας-1.example".toList :=
      List.all_iff_forall_prop.mp (by decide)
    obtain ⟨hsame, hchar, hfirst, hsecond⟩ := hself c hlisted
    have hmem : c ∈ s.map (greek ∘ fold) := List.mem_map.mpr ⟨c, hc, hsame⟩
    change (sampleDomain s).isSome = true at hs
    simp only [sampleDomain] at hs
    split_ifs at hs with h1 h2 h3
    · exact hfirst (h1 ▸ hmem)
    · exact hsecond (h2 ▸ hmem)
    · rw [List.all_eq_true.mp h3.1 c hmem] at hchar
      cases hchar
    · cases hs
  ipv6_lower _ := rfl
  ipv6_free _ hs := by cases hs

/-- A capital sigma at the end of a word becomes a final one in lower case. -/
def sampleLower (s : Text) : Text :=
  if s = "ΑΣ-1.example".toList then "ας-1.example".toList else s.map Char.toLower

/-- A gateway at `auth.example` whose admin console has the given origin. -/
def sampleSettings (adminUiOrigin : Text) : Settings where
  externalScheme := "https".toList
  authHost := "auth.example".toList
  adminUiOrigin := adminUiOrigin
  portalOrigin := []
  lower := sampleLower
  citext := List.map Char.toLower
  refused _ := false

theorem toLower_hostLike (c : Char) (hc : hostLike c = true) : c.toLower = c := by
  rcases Text.toLower_cases c with ⟨hlow, hhigh, -⟩ | ⟨-, hlower⟩
  · simp only [hostLike, Bool.or_eq_true, Bool.and_eq_true, beq_iff_eq, decide_eq_true_iff] at hc
    rcases hc with ((rfl | rfl) | hdigit) | hletter
    · rfl
    · rfl
    · have hle : c.toNat ≤ 57 := (PublicHosts.digit_of_ascii c hdigit (by omega)).2
      omega
    · have hle : 97 ≤ c.toNat := hletter.1
      omega
  · exact hlower

theorem sampleSettings_standard (origin : Text) : (sampleSettings origin).Standard where
  lower_ascii s hs := by
    refine if_neg ?_
    rintro rfl
    exact absurd (hs 'Α' (by decide)) (by decide)
  lower_fold s hs := by
    change ∀ c ∈ sampleLower s, _ at hs
    change s.map fold = sampleLower s
    rw [sampleLower] at hs ⊢
    by_cases hgreek : s = "ΑΣ-1.example".toList
    · rw [if_pos hgreek] at hs
      exact absurd (hs 'α' (by decide)) (by decide)
    · rw [if_neg hgreek] at hs ⊢
      refine List.map_congr_left fun c hc => if_neg ?_
      rintro rfl
      exact absurd (hs _ (List.mem_map_of_mem hc)) (by decide)
  citext_host s hs := (List.map_congr_left fun c hc => toLower_hostLike c (hs c hc)).trans
    (List.map_id s)
  citext_lower s := by
    change (sampleLower s).map Char.toLower = sampleLower s
    rw [sampleLower]
    split
    · decide
    · rw [List.map_map]
      exact List.map_congr_left fun c _ => Text.toLower_toLower c
  citext_percent s hs := List.mem_map.mpr ⟨'%', hs, rfl⟩

def sampleBase : Url Text := ⟨.https, "auth.example".toList, none⟩

def sampleResource : Resource where
  id := 1
  publicHost := some "app.example".toList
  ports := []
  enabled := true
  publicAccess := false
  publicPaths := none

theorem sampleBase_parse (origin : Text) :
    parse sampleRules none (gatewayRedirectUri (sampleSettings origin)) = .url sampleBase := by
  change parse sampleRules none ("https".toList ++ ':' :: ("//".toList ++
    ("auth.example".toList ++ "/gateway/callback".toList))) = _
  decide

theorem sampleSettings_origins (origin : Text) (h : origin ≠ []) :
    spaOrigins (sampleSettings origin) = [origin] := by
  change [origin, []].filter (· ≠ []) = [origin]
  rw [List.filter_cons_of_pos (by simpa using h)]
  rfl

def adminOrigin : Text := "https://admin.example".toList

theorem adminOrigin_isOrigin :
    ∀ origin ∈ spaOrigins (sampleSettings adminOrigin), IsOrigin origin := by
  intro origin hmem
  rw [sampleSettings_origins adminOrigin (by decide), List.mem_singleton] at hmem
  subst hmem
  exact ⟨.https, "admin.example".toList, [], by decide, Or.inr rfl,
    .name _ (by decide) (List.all_iff_forall_prop.mp (by decide)), Or.inl rfl⟩

theorem sampleResource_stored : Stored [sampleResource] := by
  intro resource hmem host hhost
  obtain rfl := List.mem_singleton.mp hmem
  obtain rfl : "app.example".toList = host := Option.some.inj hhost
  exact ⟨"app.example".toList, by decide⟩

theorem guards_agree_sample :
    Lands sampleRules (sampleSettings adminOrigin) [sampleResource] sampleBase
        (parse sampleRules (some sampleBase) (location " https://App.example/x".toList)) ∧
      ∃ origin ∈ spaOrigins (sampleSettings adminOrigin),
        parse sampleRules none "https://admin.example/users?tab=roles".toList =
          parse sampleRules none origin := by
  have hagree := guards_agree sampleRules sampleRules_lawful (sampleSettings adminOrigin)
    (sampleSettings_standard adminOrigin)
    (fun origin hmem => (adminOrigin_isOrigin origin hmem).text) [sampleResource]
    sampleResource_stored sampleBase (sampleBase_parse adminOrigin)
  exact ⟨hagree.1 adminOrigin_isOrigin _ (by decide), hagree.2 none _ (by decide)⟩

def greekOrigin : Text := "https://ας-1.example".toList

/-- A browser that is sent back under a capital sigma leaves the origin with the final one. -/
theorem greek_origin_elsewhere :
    (sampleSettings greekOrigin).Standard ∧ sampleRules.Lawful ∧ Stored [] ∧
    parse sampleRules none (gatewayRedirectUri (sampleSettings greekOrigin)) = .url sampleBase ∧
    validReturnUrl (sampleSettings greekOrigin) [] "https://ΑΣ-1.example".toList = some true ∧
    ¬ Lands sampleRules (sampleSettings greekOrigin) [] sampleBase
      (parse sampleRules (some sampleBase) (location "https://ΑΣ-1.example".toList)) := by
  have hparse : parse sampleRules (some sampleBase) (location "https://ΑΣ-1.example".toList) =
      .url ⟨.https, "xn---1-b9b6e.example".toList, none⟩ := by decide
  refine ⟨sampleSettings_standard greekOrigin, sampleRules_lawful, fun _ h => (by cases h),
    sampleBase_parse greekOrigin, by decide, ?_⟩
  rw [hparse]
  rintro (hown | ⟨origin, u, hmem, horigin, hhost⟩ | ⟨_, _, hmem, -⟩)
  · exact absurd hown (by decide)
  · rw [sampleSettings_origins greekOrigin (by decide), List.mem_singleton] at hmem
    subst hmem
    have hread : parse sampleRules none greekOrigin =
        .url ⟨.https, "xn---1-b9b2e.example".toList, none⟩ := by decide
    rw [hread] at horigin
    cases horigin
    exact absurd hhost (by decide)
  · cases hmem

end Hyproxy.RedirectGuards

import Hyproxy.Origins

/-!
Where a sign-in and a step-up return to. Both guards read the address by `urlsplit` and compare
it with the configured origins, the one by host, the other as a whole; the browser then reads
the address by its own rules, the one out of a header, the other as it is.
-/
namespace Hyproxy.ReturnUrls

open AuthzCheck (Resource)
open BrowserUrl
open HeaderReading (Reads)
open LocationHeader (location)
open Origins
open PublicHosts (normalizePublicHost)
open PyUrl (Split endsNetloc hostInfo hostname stripped urlsplit username)
open Text (cut)

/-- The settings, with `str.lower`, the comparison of case-insensitive columns, and the network
locations that `urlsplit` refuses by its tables. -/
structure Settings where
  externalScheme : Text
  authHost : Text
  adminUiOrigin : Text
  portalOrigin : Text
  lower : Text → Text
  citext : Text → Text
  refused : Text → Bool

def spaSettings (cfg : Settings) : List Text := [cfg.adminUiOrigin, cfg.portalOrigin]

def spaOrigins (cfg : Settings) : List Text := (spaSettings cfg).filter (· ≠ [])

def gatewayRedirectUri (cfg : Settings) : Text :=
  cfg.externalScheme ++ ':' :: ("//".toList ++ (cfg.authHost ++ "/gateway/callback".toList))

/-- Whether one of the origins has the host; none is the `ValueError` of an origin. -/
def anyOrigin (cfg : Settings) (host : Option Text) : List Text → Option Bool
  | [] => some false
  | origin :: more =>
    if origin = [] then anyOrigin cfg host more
    else
      match urlsplit cfg.refused origin with
      | none => none
      | some parts =>
        if hostname cfg.lower parts.netloc = host then some true else anyOrigin cfg host more

def enabledResource (cfg : Settings) (resources : List Resource) (host : Text) : Bool :=
  resources.any fun resource =>
    resource.publicHost.map cfg.citext == some (cfg.citext host) && resource.enabled

/-- `valid_return_url` -/
def validReturnUrl (cfg : Settings) (resources : List Resource) (rd : Text) : Option Bool :=
  match urlsplit cfg.refused rd with
  | none => some false
  | some parts =>
    match hostname cfg.lower parts.netloc with
    | none => some false
    | some host =>
      if parts.scheme ≠ cfg.externalScheme ∨ host = [] then some false
      else
        match anyOrigin cfg (some host) (spaSettings cfg) with
        | none => none
        | some true => some true
        | some false => some (enabledResource cfg resources host)

/-- `valid_stepup_return`; none is the `ValueError` of the address. -/
def validStepupReturn (cfg : Settings) (returnTo : Text) : Option Bool :=
  if spaOrigins cfg = [] ∨ returnTo = [] then some false
  else
    match urlsplit cfg.refused returnTo with
    | none => none
    | some parts =>
      if ["https".toList, "http".toList].contains parts.scheme = false ∨
          (hostname cfg.lower parts.netloc).getD [] = [] ∨ username parts.netloc ≠ [] then
        some false
      else some ((spaOrigins cfg).contains (parts.scheme ++ ':' :: ("//".toList ++ parts.netloc)))

/-! ### What is assumed of the settings -/

/-- A character of a stored host. -/
def hostLike (c : Char) : Bool :=
  c == '.' || c == '-' || PublicHosts.isDigit c || ('a' ≤ c && c ≤ 'z')

/-- The documented behaviour of the string operations. A text whose lower case is made of ASCII
characters and digits has only ASCII capitals and Kelvin signs to lower. -/
structure Settings.Standard (cfg : Settings) : Prop where
  lower_ascii : ∀ s, Utf8.Ascii s → cfg.lower s = s.map Char.toLower
  lower_fold : ∀ s, (∀ c ∈ cfg.lower s, c.toNat < 0x80 ∨ PublicHosts.isDigit c = true) →
    s.map fold = cfg.lower s
  citext_host : ∀ s, (∀ c ∈ s, hostLike c = true) → cfg.citext s = s
  citext_lower : ∀ s, cfg.citext (cfg.lower s) = cfg.lower s
  citext_percent : ∀ s, '%' ∈ s → '%' ∈ cfg.citext s

/-- Every public host was normalized when it was stored. -/
def Stored (resources : List Resource) : Prop :=
  ∀ resource ∈ resources, ∀ host, resource.publicHost = some host →
    ∃ v, normalizePublicHost v = .ok host

/-! ### Where a browser may go -/

section

variable {Host : Type} (rules : HostRules Host)

/-- The host is the gateway's own, that of a configured origin, or that of an enabled resource. -/
inductive Known (cfg : Settings) (resources : List Resource) (base : Url Host) (host : Host) : Prop
  | own (hhost : host = base.host)
  | origin (origin : Text) (u : Url Host) (hmem : origin ∈ spaOrigins cfg)
      (hparse : parse rules none origin = .url u) (hhost : host = u.host)
  | resource (resource : Resource) (name : Text) (hmem : resource ∈ resources)
      (henabled : resource.enabled = true) (hname : resource.publicHost = some name)
      (hhost : hostOf rules name = some host)

/-- A browser fails to read the text, or goes to a known host. -/
def Lands (cfg : Settings) (resources : List Resource) (base : Url Host) : Result Host → Prop
  | .failure => True
  | .other _ => False
  | .url u => Known rules cfg resources base u.host

end

/-! ### What the guards have checked -/

theorem anyOrigin_spec (cfg : Settings) (host : Option Text) (origins : List Text)
    (h : anyOrigin cfg host origins = some true) :
    ∃ origin ∈ origins, origin ≠ [] ∧ ∃ parts, urlsplit cfg.refused origin = some parts ∧
      hostname cfg.lower parts.netloc = host := by
  induction origins with
  | nil => cases h
  | cons origin more ih =>
    rw [anyOrigin] at h
    by_cases hnil : origin = []
    · rw [if_pos hnil] at h
      obtain ⟨found, hmem, hfound⟩ := ih h
      exact ⟨found, List.mem_cons_of_mem _ hmem, hfound⟩
    · rw [if_neg hnil] at h
      cases hsplit : urlsplit cfg.refused origin with
      | none =>
        rw [hsplit] at h
        cases h
      | some parts =>
        rw [hsplit] at h
        simp only at h
        split at h
        · rename_i hhost
          exact ⟨origin, List.mem_cons_self, hnil, parts, hsplit, hhost⟩
        · obtain ⟨found, hmem, hfound⟩ := ih h
          exact ⟨found, List.mem_cons_of_mem _ hmem, hfound⟩

/-- What an address that is returned to has been found to be. -/
theorem validReturnUrl_spec (cfg : Settings) (resources : List Resource) (rd : Text)
    (h : validReturnUrl cfg resources rd = some true) :
    ∃ parts host, urlsplit cfg.refused rd = some parts ∧ parts.scheme = cfg.externalScheme ∧
      hostname cfg.lower parts.netloc = some host ∧
      (anyOrigin cfg (some host) (spaSettings cfg) = some true ∨
        enabledResource cfg resources host = true) := by
  unfold validReturnUrl at h
  split at h
  · cases h
  · rename_i parts hsplit
    split at h
    · cases h
    · rename_i host hhost
      split at h
      · cases h
      · rename_i hchecked
        rw [not_or, not_not] at hchecked
        refine ⟨parts, host, hsplit, hchecked.1, hhost, ?_⟩
        split at h
        · cases h
        · rename_i hany
          exact Or.inl hany
        · exact Or.inr (Option.some.inj h)

theorem validStepupReturn_spec (cfg : Settings) (returnTo : Text)
    (h : validStepupReturn cfg returnTo = some true) :
    ∃ parts, urlsplit cfg.refused returnTo = some parts ∧
      (parts.scheme = "https".toList ∨ parts.scheme = "http".toList) ∧
      parts.scheme ++ ':' :: ("//".toList ++ parts.netloc) ∈ spaOrigins cfg := by
  unfold validStepupReturn at h
  split at h
  · cases h
  · split at h
    · cases h
    · rename_i parts hsplit
      split at h
      · cases h
      · rename_i hchecked
        rw [not_or, Bool.not_eq_false] at hchecked
        exact ⟨parts, hsplit, by simpa using hchecked.1,
          List.contains_iff_mem.mp (Option.some.inj h)⟩

theorem dropWhile_plain (s : Text) (hs : '%' ∉ s) : s.dropWhile (· ≠ '%') = [] :=
  List.dropWhile_eq_nil_iff.mpr fun c hc => by
    have hne : c ≠ '%' := fun h => hs (h ▸ hc)
    simpa using hne

theorem hostname_plain (lower : Text → Text) (netloc host : Text)
    (h : hostname lower netloc = some host) (hpercent : '%' ∉ host) :
    hostInfo netloc ≠ [] ∧ '%' ∉ hostInfo netloc ∧ host = lower (hostInfo netloc) := by
  unfold hostname at h
  split at h
  · cases h
  · rename_i hne
    obtain rfl := Option.some.inj h
    have hplain : '%' ∉ hostInfo netloc := by
      intro hmem
      obtain ⟨left, right, heq, hleft⟩ := List.eq_append_cons_of_mem hmem
      refine hpercent (List.mem_append_right _ ?_)
      have hpos : ∀ c ∈ left, decide (c ≠ '%') = true := fun c hc =>
        decide_eq_true fun hc' => hleft (hc' ▸ hc)
      rw [heq, List.dropWhile_append_of_pos hpos, List.dropWhile_cons_of_neg (by simp)]
      exact List.mem_cons_self
    rw [Text.cut_of_not_mem '%' _ hplain, dropWhile_plain _ hplain, List.append_nil]
    exact ⟨hne, hplain, rfl⟩

theorem stored_chars (resources : List Resource) (hstored : Stored resources) (resource : Resource)
    (hmem : resource ∈ resources) (name : Text) (hname : resource.publicHost = some name) :
    ∀ c ∈ name, hostLike c = true := by
  obtain ⟨v, hv⟩ := hstored resource hmem name hname
  intro c hc
  have hlabels := (PublicHosts.normalizePublicHost_spec v name hv).2.2.2
  have hchar := PublicHosts.accepted_chars name hlabels c hc
  simpa [hostLike, or_assoc] using hchar

theorem toLower_low (c : Char) (hc : c.toNat < 0x80) : c.toLower.toNat < 0x80 := by
  rcases Text.toLower_cases c with ⟨-, hhigh, hlower⟩ | ⟨-, hlower⟩
  · omega
  · rwa [hlower]

theorem unbracketed_ne_nil {host : Text} (h : OriginHost host) : unbracketed host ≠ [] := by
  cases h with
  | name _ hne hchars =>
    rwa [unbracketed, if_neg (name_free hchars '[' (by decide))]
  | address v hv _ =>
    rw [unbracketed, if_pos (by simp), List.tail_cons, List.dropLast_concat]
    exact List.ne_nil_of_mem hv

theorem unbracketed_percent {host : Text} (h : OriginHost host) : '%' ∉ unbracketed host := by
  cases h with
  | name _ _ hchars =>
    rw [unbracketed, if_neg (name_free hchars '[' (by decide))]
    exact name_free hchars '%' (by decide)
  | address v _ hchars =>
    rw [unbracketed, if_pos (by simp), List.tail_cons, List.dropLast_concat]
    exact address_free hchars '%' (by decide)

/-- What `urlsplit` reads in an origin. -/
theorem urlsplit_origin (refused : Text → Bool) (known : Special) {host port : Text} (parts : Split)
    (hhost : OriginHost host) (hport : OriginPort port)
    (h : urlsplit refused (originText known (host ++ port)) = some parts) :
    parts = ⟨known.text, host ++ port, []⟩ := by
  have hchars := netloc_chars hhost hport
  have hparts := PyUrl.urlsplit_append refused known.text (host ++ port) parts (isScheme_text known)
    (fun c hc => (netlocChar_spec c (hchars c hc)).2.2.1) (originText_control known _ hchars) h
  rwa [lower_text] at hparts

section

variable {Host : Type} (rules : HostRules Host) (hrules : rules.Lawful) (cfg : Settings)
  (hcfg : cfg.Standard) (resources : List Resource) (base : Url Host)

include hrules hcfg

/-- A host that an origin is found to have is the origin's for the browser too. -/
theorem known_of_origin (horigins : ∀ origin ∈ spaOrigins cfg, IsOrigin origin) (netloc host : Text)
    (hhost : hostname cfg.lower netloc = some host)
    (hany : anyOrigin cfg (some host) (spaSettings cfg) = some true) :
    hostInfo netloc ≠ [] ∧ '%' ∉ hostInfo netloc ∧
      ∀ value, Reads rules (hostInfo netloc) value → Known rules cfg resources base value := by
  obtain ⟨origin, hmem, hne, parts, hsplit, hsame⟩ := anyOrigin_spec cfg _ _ hany
  have hspa : origin ∈ spaOrigins cfg := List.mem_filter.mpr ⟨hmem, by simpa using hne⟩
  obtain ⟨known, name, port, rfl, -, hname, hport⟩ := (horigins origin hspa).shape
  obtain rfl := urlsplit_origin cfg.refused known parts hname hport hsplit
  have hascii := unbracketed_ascii hname
  have hlower : host = (unbracketed name).map Char.toLower := by
    rw [hostname, hostInfo_origin hname hport, if_neg (unbracketed_ne_nil hname),
      Text.cut_of_not_mem '%' _ (unbracketed_percent hname), hcfg.lower_ascii _ hascii,
      dropWhile_plain _ (unbracketed_percent hname), List.append_nil] at hsame
    exact (Option.some.inj hsame).symm
  have hpercent : '%' ∉ host := by
    rw [hlower, ← fold_ascii _ hascii]
    exact fun h => unbracketed_percent hname
      ((mem_of_fold (unbracketed name) _ rfl '%' (by decide) (by decide)).mpr h)
  obtain ⟨hinfo, hplain, heq⟩ := hostname_plain cfg.lower netloc host hhost hpercent
  refine ⟨hinfo, hplain, fun value hreads => ?_⟩
  have hfold : (hostInfo netloc).map fold = (unbracketed name).map Char.toLower := by
    rw [hcfg.lower_fold, ← heq, hlower]
    intro c hc
    rw [← heq, hlower] at hc
    obtain ⟨d, hd, rfl⟩ := List.mem_map.mp hc
    exact Or.inl (toLower_low d (hascii d hd))
  obtain ⟨p, hp⟩ := address_origin rules known value hname hport
    (reads_origin rules hrules hname _ value hfold hreads)
  refine Known.origin (originText known (name ++ port)) ⟨known, value, p⟩ hspa ?_ rfl
  rw [parse_origin rules none known _ (by simp [host_ne_nil hname]) (netloc_chars hname hport), hp]

/-- A host that is found among the enabled resources is the resource's for the browser too. -/
theorem known_of_resource (hstored : Stored resources) (netloc host : Text)
    (hhost : hostname cfg.lower netloc = some host)
    (hany : enabledResource cfg resources host = true) :
    hostInfo netloc ≠ [] ∧ '%' ∉ hostInfo netloc ∧
      ∀ value, Reads rules (hostInfo netloc) value → Known rules cfg resources base value := by
  obtain ⟨resource, hmem, hmatch⟩ := List.any_eq_true.mp hany
  rw [Bool.and_eq_true, beq_iff_eq, Option.map_eq_some_iff] at hmatch
  obtain ⟨⟨name, hname, hcitext⟩, henabled⟩ := hmatch
  have hchars := stored_chars resources hstored resource hmem name hname
  have hfree : ∀ d, hostLike d = false → d ∉ name := fun d hd h => by
    rw [hchars d h] at hd
    cases hd
  rw [hcfg.citext_host name hchars] at hcitext
  have hpercent : '%' ∉ host := fun h => by
    have hmem := hcfg.citext_percent host h
    rw [← hcitext] at hmem
    exact hfree '%' (by decide) hmem
  obtain ⟨hinfo, hplain, heq⟩ := hostname_plain cfg.lower netloc host hhost hpercent
  rw [heq, hcfg.citext_lower] at hcitext
  have hfold : (hostInfo netloc).map fold = name := by
    rw [hcfg.lower_fold, hcitext]
    intro c hc
    rw [← hcitext] at hc
    have hchar := hchars c hc
    simp only [hostLike, Bool.or_eq_true, Bool.and_eq_true, beq_iff_eq, decide_eq_true_iff] at hchar
    rcases hchar with ((rfl | rfl) | hdigit) | hletter
    · exact Or.inl (by decide)
    · exact Or.inl (by decide)
    · exact Or.inr hdigit
    · have hle : c.toNat ≤ 'z'.toNat := hletter.2
      exact Or.inl (Nat.lt_of_le_of_lt hle (by decide))
  refine ⟨hinfo, hplain, fun value hreads => ?_⟩
  refine Known.resource resource name hmem henabled hname ?_
  rw [hostOf_plain rules name (hfree '%' (by decide))
    (fun h => hfree '[' (by decide) (List.mem_of_mem_head? (Option.mem_def.mpr h))),
    ← hfold, hrules.domain_fold]
  rcases hreads with ⟨-, hdomain⟩ | hipv6
  · exact hdomain
  · have hcolon := (hrules.ipv6_free _ (by rw [hipv6]; rfl)).1
    rw [mem_of_fold _ _ hfold ':' (by decide) (by decide)] at hcolon
    exact absurd hcolon (hfree ':' (by decide))

/-- The browser that is sent back to an accepted address goes to a known host, if anywhere. -/
theorem return_lands (horigins : ∀ origin ∈ spaOrigins cfg, IsOrigin origin)
    (hstored : Stored resources) (known : Special)
    (hknown : special cfg.externalScheme = some known)
    (rd : Text) (h : validReturnUrl cfg resources rd = some true) :
    Lands rules cfg resources base (parse rules (some base) (location rd)) := by
  obtain ⟨parts, host, hsplit, hscheme, hhost, hfound⟩ := validReturnUrl_spec cfg resources rd h
  obtain ⟨hinfo, hplain, hreads⟩ : hostInfo parts.netloc ≠ [] ∧ '%' ∉ hostInfo parts.netloc ∧
      ∀ value, Reads rules (hostInfo parts.netloc) value → Known rules cfg resources base value := by
    rcases hfound with hany | hany
    · exact known_of_origin rules hrules cfg hcfg resources base horigins _ host hhost hany
    · exact known_of_resource rules hrules cfg hcfg resources base hstored _ host hhost hany
  rw [← hscheme] at hknown
  rcases HeaderReading.parse_location rules hrules base cfg.refused rd parts known hsplit hknown
    hinfo hplain with hbase | hfail | ⟨u, hurl, hread⟩
  · rw [hbase]
    exact Known.own rfl
  · rw [hfail]
    trivial
  · rw [hurl]
    exact hreads u.host hread

end

end Hyproxy.ReturnUrls

import Hyproxy.BoundedMaps
import Hyproxy.IpTexts
import Hyproxy.Routing
import Hyproxy.Text

/-!
The bot filter of the data plane (`botfilter`): what is exempt, the User-Agent rules, the signals
about a source address with the cache of their verdicts, and the refresh of the deployment's own
addresses. Compiled patterns, the databases and the resolver are what they answer. Times are
nanoseconds.
-/
namespace Hyproxy.BotFilter

open IpTexts (Address equal parseIP)
open RouteTables (Network)
open Routing (lowerRune toLower trimDot)
open Text (isSpace trim)

abbrev Text := List Char

structure Verdict where
  blocked : Bool
  reason : String
  deriving Repr, DecidableEq

/-- No signal. -/
def Verdict.none : Verdict := ⟨false, ""⟩

structure Filter where
  uaPatterns : List (Text → Bool)
  blockEmptyUA : Bool
  blockedASNs : List ℕ
  ptrSuffixes : List Text
  blockAnyPTR : Bool
  blockedCountries : List Text
  asnDB : Option (List ℕ → Option ℕ)
  countryDB : Option (List ℕ → Option Text)
  lookupAddr : List ℕ → Option (List Text)
  allowNets : List Network
  cacheTTL : ℤ

/-! ### Texts -/

/-- `unicode.IsSpace` -/
def isUnicodeSpace (c : Char) : Bool := isSpace c && !(28 ≤ c.toNat && c.toNat ≤ 31)

/-- `strings.TrimSpace`, as characters. -/
def trimSpace (s : Text) : Text := trim isUnicodeSpace (Utf8.decode false s)

/-- `unicode.ToUpper`, apart from characters that it keeps outside ASCII: no code has them. -/
def upperRune (c : Char) : Char :=
  if 'a' ≤ c ∧ c ≤ 'z' then Char.ofNat (c.toNat - 32)
  else if c.toNat = 0x131 then 'I'
  else if c.toNat = 0x17F then 'S'
  else c

/-- `strings.ToUpper` -/
def toUpper (s : Text) : Text := (Utf8.decode false s).map upperRune

/-! ### The deployment's own addresses -/

def addHost (hosts : List Text) (h : Text) : List Text :=
  let h := (trimSpace h).map lowerRune
  if h.isEmpty || hosts.contains h then hosts else hosts ++ [h]

/-- The configured names, in the order of iteration: the authentication host, then the routes. -/
def publicHosts (authHost : Text) (routes : List Text) : List Text :=
  (authHost :: routes).foldl addHost []

def containsIP (list : List Address) (ip : Address) : Bool :=
  list.any fun cur => equal cur.bytes ip.bytes

/-- The addresses that one lookup adds. -/
def addAddrs (ips addrs : List Address) : List Address :=
  addrs.foldl (fun ips a => if containsIP ips a then ips else ips ++ [a]) ips

/-- A lookup that fails adds nothing. -/
def resolveHost (lookupIPAddr : Text → Option (List Address)) (ips : List Address) (host : Text) :
    List Address :=
  match lookupIPAddr host with
  | none => ips
  | some addrs => addAddrs ips addrs

/-- What one pass resolves. -/
def resolve (hosts : List Text) (lookupIPAddr : Text → Option (List Address)) : List Address :=
  hosts.foldl (resolveHost lookupIPAddr) []

def refreshSelfIPs (selfHosts : List Text) (selfIPs : List Address)
    (lookupIPAddr : Text → Option (List Address)) : List Address :=
  if (resolve selfHosts lookupIPAddr).isEmpty then selfIPs else resolve selfHosts lookupIPAddr

/-- The networks whose addresses are always exempt. -/
def alwaysAllowedCIDRs : List Network :=
  [⟨[127, 0, 0, 0], [255, 0, 0, 0]⟩, ⟨[10, 0, 0, 0], [255, 0, 0, 0]⟩,
    ⟨[172, 16, 0, 0], [255, 240, 0, 0]⟩, ⟨[192, 168, 0, 0], [255, 255, 0, 0]⟩,
    ⟨[100, 64, 0, 0], [255, 192, 0, 0]⟩, ⟨[169, 254, 0, 0], [255, 255, 0, 0]⟩,
    ⟨List.replicate 15 0 ++ [1], List.replicate 16 255⟩,
    ⟨0xfc :: List.replicate 15 0, 0xfe :: List.replicate 15 0⟩,
    ⟨0xfe :: 0x80 :: List.replicate 14 0, 0xff :: 0xc0 :: List.replicate 14 0⟩]

/-- `buildAllowNets`; a network of the operator may not parse. -/
def buildAllowNets (parseCIDR : Text → Option Network) (extra : List Text) :
    Option (List Network) :=
  (extra.mapM fun cidr => parseCIDR (trimSpace cidr)).map fun nets => alwaysAllowedCIDRs ++ nets

def Filter.allowed (f : Filter) (selfIPs : List Address) (ip : Text) : Bool :=
  match parseIP ip with
  | none => false
  | some parsed =>
    selfIPs.any (fun self => equal self.bytes parsed) || f.allowNets.any (·.contains parsed)

/-! ### The signals -/

def Filter.badUserAgent (f : Filter) (userAgent : Text) : Bool :=
  (f.blockEmptyUA && (trimSpace userAgent).isEmpty) || f.uaPatterns.any fun re => re userAgent

def Filter.ipChecksEnabled (f : Filter) : Bool :=
  !f.blockedASNs.isEmpty || !f.ptrSuffixes.isEmpty || f.blockAnyPTR || !f.blockedCountries.isEmpty

def Filter.asnBlocked (f : Filter) (ip : List ℕ) : Bool :=
  (f.asnDB.bind fun lookup => lookup ip).any fun asn => f.blockedASNs.contains asn

def Filter.countryBlocked (f : Filter) (ip : List ℕ) : Bool :=
  (f.countryDB.bind fun lookup => lookup ip).any fun code =>
    f.blockedCountries.contains (toUpper code)

/-- A resolver that fails or finds nothing blocks nothing. -/
def Filter.ptrBlocked (f : Filter) (ip : List ℕ) : Bool :=
  match f.lookupAddr ip with
  | none => false
  | some names =>
    !names.isEmpty && (f.blockAnyPTR || names.any fun name =>
      f.ptrSuffixes.any fun suffix =>
        toLower (trimDot name) == suffix || ('.' :: suffix).isSuffixOf (toLower (trimDot name)))

def Filter.evaluateIP (f : Filter) (ip : Text) : Verdict :=
  match parseIP ip with
  | none => .none
  | some parsed =>
    if f.asnBlocked parsed then ⟨true, "blocked_asn"⟩
    else if f.countryBlocked parsed then ⟨true, "blocked_geo"⟩
    else if (f.blockAnyPTR || !f.ptrSuffixes.isEmpty) && f.ptrBlocked parsed then
      ⟨true, "blocked_ptr"⟩
    else .none

/-! ### The cache of verdicts -/

def verdictCacheMaxEntries : ℕ := 8192

structure VerdictEntry where
  v : Verdict
  expires : ℤ
  deriving Repr, DecidableEq

def VerdictEntry.live (now : ℤ) (e : VerdictEntry) : Bool := now ≤ e.expires

abbrev VerdictCache := List (Text × VerdictEntry)

def VerdictCache.get (c : VerdictCache) (ip : Text) (now : ℤ) :
    Option VerdictEntry × VerdictCache :=
  BoundedMaps.get (VerdictEntry.live now) c ip

def VerdictCache.put (c : VerdictCache) (ttl : ℤ) (ip : Text) (v : Verdict) (now : ℤ) :
    VerdictCache :=
  if ttl ≤ 0 then c
  else BoundedMaps.put verdictCacheMaxEntries (VerdictEntry.live now) c ip ⟨v, now + ttl⟩

/-- `Decide` -/
def Filter.decide (f : Filter) (selfIPs : List Address) (c : VerdictCache) (now : ℤ)
    (ip userAgent : Text) : Verdict × VerdictCache :=
  if f.allowed selfIPs ip then (.none, c)
  else if f.badUserAgent userAgent then (⟨true, "bad_user_agent"⟩, c)
  else if !f.ipChecksEnabled then (.none, c)
  else
    match c.get ip now with
    | (some e, c) => (e.v, c)
    | (none, c) => (f.evaluateIP ip, c.put f.cacheTTL ip (f.evaluateIP ip) now)

/-! ### What is built at the start -/

/-- The settings that the filter is built from; the routes in the order of their iteration. -/
structure Config where
  authHost : Text
  routes : List Text
  blockedUserAgents : List Text
  blockEmptyUserAgent : Bool
  blockAnyResolvablePTR : Bool
  blockedASNs : List ℕ
  blockedPTRSuffixes : List Text
  blockedCountries : List Text
  geoIPASNDB : Text
  geoIPCountryDB : Text
  botFilterAllowCidrs : List Text
  botFilterCacheTTLSecs : ℤ
  deriving Repr, DecidableEq

/-- What other libraries make of texts and files. -/
structure Platform where
  parseCIDR : Text → Option Network
  compile : Text → Option (Text → Bool)
  openASN : Text → Option (List ℕ → Option ℕ)
  openCountry : Text → Option (List ℕ → Option Text)
  lookupAddr : List ℕ → Option (List Text)

/-- A suffix as it is compared; an empty one is left out. -/
def ptrSuffix (s : Text) : Option Text :=
  let s := (trimSpace s).map lowerRune
  let s := if s.head? = some '.' then s.tail else s
  if s.isEmpty then none else some s

def Filter.uaChecksEnabled (f : Filter) : Bool := !f.uaPatterns.isEmpty || f.blockEmptyUA

/-- A database is opened where something is blocked by it. -/
def openWhere {α : Type} (used : Bool) (opened : Option α) : Option (Option α) :=
  if used then opened.map some else some none

/-- `New`, with the names to resolve: an error is none, and no filter without a signal. -/
def newFilter (p : Platform) (cfg : Config) : Option (Option (Filter × List Text)) := do
  let allowNets ← buildAllowNets p.parseCIDR cfg.botFilterAllowCidrs
  let uaPatterns ← cfg.blockedUserAgents.mapM p.compile
  let asnDB ← openWhere (!cfg.blockedASNs.isEmpty) (p.openASN cfg.geoIPASNDB)
  let countryDB ← openWhere (!cfg.blockedCountries.isEmpty) (p.openCountry cfg.geoIPCountryDB)
  let f : Filter :=
    { uaPatterns := uaPatterns
      blockEmptyUA := cfg.blockEmptyUserAgent
      blockedASNs := cfg.blockedASNs
      ptrSuffixes := cfg.blockedPTRSuffixes.filterMap ptrSuffix
      blockAnyPTR := cfg.blockAnyResolvablePTR
      blockedCountries := cfg.blockedCountries.map fun c => (trimSpace c).map upperRune
      asnDB := asnDB
      countryDB := countryDB
      lookupAddr := p.lookupAddr
      allowNets := allowNets
      cacheTTL := (cfg.botFilterCacheTTLSecs * 1000000000).bmod (2 ^ 64) }
  if f.uaChecksEnabled || f.ipChecksEnabled then
    some (some (f, publicHosts cfg.authHost cfg.routes))
  else some none

theorem addHost_nodup (hosts : List Text) (h : Text) (hhosts : hosts.Nodup ∧ [] ∉ hosts) :
    (addHost hosts h).Nodup ∧ [] ∉ addHost hosts h := by
  unfold addHost
  simp only [Bool.or_eq_true, List.isEmpty_iff, List.contains_iff_mem]
  split_ifs with hold
  · exact hhosts
  · rw [not_or] at hold
    refine ⟨List.nodup_append.mpr ⟨hhosts.1, List.nodup_singleton _, ?_⟩, ?_⟩
    · rintro a ha b hb rfl
      rw [List.mem_singleton] at hb
      exact hold.2 (hb ▸ ha)
    · rw [List.mem_append, List.mem_singleton, not_or]
      exact ⟨hhosts.2, Ne.symm hold.1⟩

/-- A name is resolved once in a pass. -/
theorem publicHosts_nodup (authHost : Text) (routes : List Text) :
    (publicHosts authHost routes).Nodup ∧ [] ∉ publicHosts authHost routes := by
  refine List.foldlRecOn (motive := fun hosts => hosts.Nodup ∧ [] ∉ hosts) _ addHost
    ⟨List.nodup_nil, List.not_mem_nil⟩ ?_
  exact fun hosts hhosts h _ => addHost_nodup hosts h hhosts

variable {p : Platform} {cfg : Config} {f : Filter} {hosts : List Text}

/-- What the filter of a configuration has of its networks and names. -/
theorem newFilter_parts (h : newFilter p cfg = some (some (f, hosts))) :
    hosts = publicHosts cfg.authHost cfg.routes ∧
      ∃ nets, (cfg.botFilterAllowCidrs.mapM fun cidr => p.parseCIDR (trimSpace cidr)) = some nets ∧
        f.allowNets = alwaysAllowedCIDRs ++ nets := by
  simp only [newFilter, buildAllowNets, Option.bind_eq_bind, Option.bind_eq_some_iff,
    Option.map_eq_some_iff] at h
  obtain ⟨allowNets, ⟨nets, hnets, rfl⟩, uaPatterns, -, asnDB, -, countryDB, -, h⟩ := h
  split_ifs at h
  · obtain ⟨rfl, rfl⟩ := Prod.mk.inj (Option.some.inj (Option.some.inj h))
    exact ⟨rfl, nets, hnets, rfl⟩
  · cases Option.some.inj h

/-- Every filter resolves its names once in a pass, and blocks no address of the private networks,
whatever the signals say of it. -/
theorem newFilter_exempts (h : newFilter p cfg = some (some (f, hosts))) :
    (hosts.Nodup ∧ [] ∉ hosts) ∧
      ∀ (selfIPs : List Address) (c : VerdictCache) (now : ℤ) (ip userAgent : Text)
        (parsed : List ℕ), parseIP ip = some parsed →
        (∃ n ∈ alwaysAllowedCIDRs, n.contains parsed = true) →
        f.decide selfIPs c now ip userAgent = (.none, c) := by
  obtain ⟨rfl, nets, -, hallow⟩ := newFilter_parts h
  refine ⟨publicHosts_nodup _ _, ?_⟩
  intro selfIPs c now ip userAgent parsed hip hprivate
  obtain ⟨n, hn, hcontains⟩ := hprivate
  have hnet : f.allowNets.any (fun n => n.contains parsed) = true := by
    rw [hallow]
    exact List.any_eq_true.mpr ⟨n, List.mem_append_left _ hn, hcontains⟩
  have hallowed : f.allowed selfIPs ip = true := by
    simp only [Filter.allowed, hip, hnet, Bool.or_true]
  rw [Filter.decide, if_pos hallowed]

end Hyproxy.BotFilter

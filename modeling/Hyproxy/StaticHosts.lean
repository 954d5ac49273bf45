import Hyproxy.RouteOrder

/-!
The hosts that an accepted configuration names, and those that a request can name.
`Validate` keeps a few characters out of the keys of the routes and checks nothing
of the host of the gateway; `NormalizeHost` accepts plain host names and leaves
exactly these as they are.
-/
namespace Hyproxy.StaticHosts

open PublicHosts (toLower_host)
open RouteMaps
open RouteOrder (hostKey lookup_normalRoutes normal normalRoutes sampleConfig samplePlatform
  sampleRoute)
open RouteTables (Config Platform Route Routes validate)
open Routing

/-- Labels of letters, digits and hyphens, in lower case. -/
structure PlainHost (host : List Char) : Prop where
  length_le : host.length ≤ 253
  labels : ∀ label ∈ host.splitOn '.', isLabel label = true

/-- `NewTable` -/
def newTable (cfg : Config) : Table Route := ⟨cfg.authHost, cfg.routes⟩

/-- The hosts of the configuration are what `NormalizeHost` makes of them, and a lookup finds what
is configured. -/
structure Routable (cfg : Config) : Prop where
  authHost : normalizeHost cfg.authHost = some cfg.authHost
  hosts : ∀ entry ∈ cfg.routes, normalizeHost entry.1 = some entry.1
  auth : (newTable cfg).lookup cfg.authHost = .auth
  routes : ∀ entry ∈ cfg.routes, (newTable cfg).lookup entry.1 = .auth ∨
    (newTable cfg).lookup entry.1 = .app entry.1 entry.2

theorem PlainHost.chars {host : List Char} (h : PlainHost host) :
    ∀ c ∈ host, c = '.' ∨ hostChar c = true := by
  intro c hc
  by_cases hdot : c = '.'
  · exact Or.inl hdot
  · obtain ⟨label, hlabel, hmem⟩ := mem_splitOn host '.' c hc hdot
    have hvalid := h.labels label hlabel
    simp only [isLabel, Bool.and_eq_true] at hvalid
    exact Or.inr (List.all_eq_true.mp hvalid.1.1.2 c hmem)

theorem not_mem_of_chars (host : List Char) (h : ∀ c ∈ host, c = '.' ∨ hostChar c = true) (d : Char)
    (hdot : d ≠ '.') (hchar : hostChar d = false) : d ∉ host := by
  intro hmem
  rcases h d hmem with hd | hd
  · exact hdot hd
  · rw [hchar] at hd
    cases hd

/-- After a final dot there is an empty label. -/
theorem nil_mem_splitOn (front : List Char) : [] ∈ ((front ++ ['.']).splitOn '.').tail := by
  induction front with
  | nil => decide
  | cons c front ih =>
    rw [List.cons_append, List.splitOn_cons_eq_if_modifyHead]
    split_ifs
    · exact List.mem_of_mem_tail ih
    · cases hsplit : (front ++ ['.']).splitOn '.' with
      | nil => exact (List.splitOn_ne_nil _ _ hsplit).elim
      | cons part parts =>
        rw [hsplit] at ih
        exact ih

theorem PlainHost.no_final_dot {host : List Char} (h : PlainHost host) : trimDot host = host := by
  refine if_neg fun hlast => ?_
  obtain ⟨front, rfl⟩ := List.getLast?_eq_some_iff.mp hlast
  exact absurd (h.labels [] (List.mem_of_mem_tail (nil_mem_splitOn front))) (by decide)

theorem normalizeName_some_iff (name host : List Char) :
    normalizeName name = some host ↔
      name ≠ [] ∧ name.length ≤ 253 ∧ toLower name = host ∧
        ∀ label ∈ host.splitOn '.', isLabel label = true := by
  unfold normalizeName
  split_ifs with hlength hlabels
  · simp only [false_iff]
    rintro ⟨hne, hle, -⟩
    rcases hlength with hnil | hlong
    · exact hne hnil
    · omega
  · rw [not_or] at hlength
    constructor
    · intro h
      obtain rfl := Option.some.inj h
      exact ⟨hlength.1, by omega, rfl, List.all_eq_true.mp hlabels⟩
    · rintro ⟨-, -, rfl, -⟩
      rfl
  · simp only [false_iff]
    rintro ⟨-, -, rfl, h⟩
    exact hlabels (List.all_eq_true.mpr h)

theorem cutLast_none (host : List Char) (h : ':' ∉ host) : cutLast host = none := if_neg h

/-- The hosts that `NormalizeHost` leaves as they are. -/
theorem normalizeHost_self_iff (host : List Char) :
    normalizeHost host = some host ↔ PlainHost host := by
  constructor
  · intro h
    have hchars := normalizeHost_chars host host h
    have hcolon := not_mem_of_chars host hchars ':' (by decide) (by decide)
    unfold normalizeHost at h
    split_ifs at h
    rw [cutLast_none host hcolon] at h
    obtain ⟨-, hlength, -, hlabels⟩ := (normalizeName_some_iff _ _).mp h
    have hdot : host.getLast? ≠ some '.' := by
      intro hlast
      obtain ⟨front, rfl⟩ := List.getLast?_eq_some_iff.mp hlast
      exact absurd (hlabels [] (List.mem_of_mem_tail (nil_mem_splitOn front))) (by decide)
    rw [trimDot, if_neg hdot] at hlength
    exact ⟨hlength, hlabels⟩
  · intro h
    have hcolon := not_mem_of_chars host h.chars ':' (by decide) (by decide)
    have hbracket : host.head? ≠ some '[' := fun hhead =>
      not_mem_of_chars host h.chars '[' (by decide) (by decide) (List.mem_of_mem_head? hhead)
    have hne : host ≠ [] := by
      rintro rfl
      exact absurd (h.labels [] (by decide)) (by decide)
    have hlength := h.length_le
    rw [normalizeHost, if_neg (by rw [not_or]; exact ⟨hne, by omega⟩),
      if_neg hbracket, cutLast_none host hcolon]
    simp only [h.no_final_dot]
    exact (normalizeName_some_iff host host).mpr ⟨hne, hlength, toLower_host host h.chars, h.labels⟩

/-- The keys that an accepted configuration has are those that it was given, normalized. -/
theorem mem_normalRoutes (p : Platform) (entries : Routes) (host : List Char) :
    (∃ entry ∈ normalRoutes toLower p entries, entry.1 = host) ↔
      ∃ entry ∈ entries, hostKey toLower entry.1 = host := by
  have hlookup := lookup_normalRoutes toLower p entries host
  have hnone := lookup_none_iff (normalRoutes toLower p entries) host
  have hnone' := lookup_none_iff (entries.map (normal toLower p)).reverse host
  rw [hlookup, hnone'] at hnone
  have hiff : (∃ entry ∈ (entries.map (normal toLower p)).reverse, entry.1 = host) ↔
      ∃ entry ∈ normalRoutes toLower p entries, entry.1 = host := by
    simpa only [not_forall, not_not, exists_prop] using not_congr hnone
  rw [← hiff]
  constructor
  · rintro ⟨entry, hentry, hkey⟩
    obtain ⟨given, hgiven, rfl⟩ := List.mem_map.mp (List.mem_reverse.mp hentry)
    exact ⟨given, hgiven, hkey⟩
  · rintro ⟨given, hgiven, hkey⟩
    exact ⟨_, List.mem_reverse.mpr (List.mem_map_of_mem hgiven), hkey⟩

/-- What is configured under a plain name is found. -/
theorem lookup_newTable (cfg : Config) (hdistinct : Distinct cfg.routes)
    (entry : List Char × Route) (hentry : entry ∈ cfg.routes)
    (hhost : normalizeHost entry.1 = some entry.1) :
    (newTable cfg).lookup entry.1 = .auth ∨
      (newTable cfg).lookup entry.1 = .app entry.1 entry.2 := by
  by_cases hauth : entry.1 = cfg.authHost
  · rw [hauth] at hhost ⊢
    exact Or.inl (by simp [Table.lookup, newTable, hhost])
  · refine Or.inr ?_
    have hfound := lookup_of_mem cfg.routes hdistinct entry hentry
    simp [Table.lookup, newTable, hhost, hauth, hfound]

/-- An accepted configuration is routable when the host of the gateway and the keys of its routes,
in lower case and the keys without a final dot, are plain hosts, and only then. -/
theorem routable_iff (p : Platform) (raw cfg : Config) (hok : validate p raw = .ok cfg) :
    Routable cfg ↔ PlainHost (toLower raw.authHost) ∧
      ∀ entry ∈ raw.routes, PlainHost (toLower (trimDot entry.1)) := by
  rw [← RouteOrder.validate_toLower] at hok
  obtain ⟨-, -, rfl⟩ := (RouteOrder.validate_ok_iff toLower p raw cfg).mp hok
  have hkeys := mem_normalRoutes p raw.routes
  constructor
  · intro h
    refine ⟨(normalizeHost_self_iff _).mp h.authHost, fun entry hentry => ?_⟩
    obtain ⟨found, hfound, hkey⟩ := (hkeys _).mpr ⟨entry, hentry, rfl⟩
    have hhost := h.hosts found hfound
    rw [hkey] at hhost
    exact (normalizeHost_self_iff _).mp hhost
  · rintro ⟨hauth, hplain⟩
    have hauthHost := (normalizeHost_self_iff _).mpr hauth
    have hhosts : ∀ entry ∈ normalRoutes toLower p raw.routes,
        normalizeHost entry.1 = some entry.1 := by
      intro entry hentry
      obtain ⟨given, hgiven, hkey⟩ := (hkeys _).mp ⟨entry, hentry, rfl⟩
      rw [← hkey]
      exact (normalizeHost_self_iff _).mpr (hplain given hgiven)
    refine ⟨hauthHost, hhosts, ?_, fun entry hentry => ?_⟩
    · simp [Table.lookup, newTable, RouteOrder.normalConfig, hauthHost]
    · exact lookup_newTable _ (RouteOrder.distinct_normalRoutes toLower p raw.routes) entry hentry
        (hhosts entry hentry)

def sampleHosts (host : String) : Config := sampleConfig [(host.toList, sampleRoute false)]

theorem routable_iff_sample :
    validate samplePlatform (sampleHosts "App.example.org.") =
        .ok (RouteOrder.normalConfig toLower samplePlatform (sampleHosts "App.example.org.")) ∧
      (Routable (RouteOrder.normalConfig toLower samplePlatform (sampleHosts "App.example.org.")) ↔
        PlainHost (toLower (sampleHosts "App.example.org.").authHost) ∧
          ∀ entry ∈ (sampleHosts "App.example.org.").routes,
            PlainHost (toLower (trimDot entry.1))) :=
  ⟨rfl, routable_iff samplePlatform (sampleHosts "App.example.org.") _ rfl⟩

/-- A key with an underscore is accepted, and no request reaches its route. -/
theorem underscore_unroutable : ¬ ∀ (p : Platform) (raw cfg : Config),
    validate p raw = .ok cfg → Routable cfg := by
  intro h
  have hroutable := h samplePlatform (sampleHosts "my_app.example.org") _ rfl
  have hhost := hroutable.hosts ("my_app.example.org".toList, sampleRoute false) (by decide)
  revert hhost
  decide

end Hyproxy.StaticHosts

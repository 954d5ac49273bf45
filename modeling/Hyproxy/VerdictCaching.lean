import Hyproxy.BotFilter

/-!
The bot filter over a run of requests, with changes of the deployment's own addresses in between:
every verdict is the one that no cache would change, and the cache stays within its bound.
-/
namespace Hyproxy.VerdictCaching

open BotFilter
open IpTexts (Address parseIP)

inductive Event
  | request (now : ℤ) (ip userAgent : Text)
  | refreshed (selfIPs : List Address)

structure State where
  selfIPs : List Address
  cache : VerdictCache
  verdicts : List Verdict

def step (f : Filter) (s : State) : Event → State
  | .request now ip userAgent =>
    let result := f.decide s.selfIPs s.cache now ip userAgent
    { s with cache := result.2, verdicts := s.verdicts ++ [result.1] }
  | .refreshed selfIPs => { s with selfIPs := selfIPs }

/-- A filter starts with an empty cache and the addresses that it resolved first. -/
def start (selfIPs : List Address) : State := ⟨selfIPs, [], []⟩

/-- The exemptions, then the User-Agent rules, then the signals about the address. -/
def uncached (f : Filter) (selfIPs : List Address) (ip userAgent : Text) : Verdict :=
  if f.allowed selfIPs ip then .none
  else if f.badUserAgent userAgent then ⟨true, "bad_user_agent"⟩
  else f.evaluateIP ip

def uncachedVerdicts (f : Filter) : List Address → List Event → List Verdict
  | _, [] => []
  | selfIPs, .request _ ip userAgent :: rest =>
    uncached f selfIPs ip userAgent :: uncachedVerdicts f selfIPs rest
  | _, .refreshed selfIPs :: rest => uncachedVerdicts f selfIPs rest

/-- Each entry holds what the signals say about its address. -/
def Remembers (f : Filter) (c : VerdictCache) : Prop := ∀ p ∈ c, p.2.v = f.evaluateIP p.1

structure Good (f : Filter) (c : VerdictCache) : Prop where
  remembers : Remembers f c
  bounded : c.length ≤ verdictCacheMaxEntries

/-! ### One request -/

/-- Without a rule there is no signal. -/
theorem evaluateIP_disabled (f : Filter) (ip : Text) (h : f.ipChecksEnabled = false) :
    f.evaluateIP ip = .none := by
  simp only [Filter.ipChecksEnabled, Bool.or_eq_false_iff, Bool.not_eq_false',
    List.isEmpty_iff] at h
  obtain ⟨⟨⟨hasns, hsuffixes⟩, hany⟩, hcountries⟩ := h
  have hasn : ∀ parsed, f.asnBlocked parsed = false := by
    intro parsed
    simp [Filter.asnBlocked, hasns]
  have hcountry : ∀ parsed, f.countryBlocked parsed = false := by
    intro parsed
    simp [Filter.countryBlocked, hcountries]
  unfold Filter.evaluateIP
  cases parseIP ip with
  | none => rfl
  | some parsed => simp [hasn, hcountry, hany, hsuffixes]

theorem good_get (f : Filter) (c : VerdictCache) (ip : Text) (now : ℤ) (h : Good f c) :
    (∀ e, (c.get ip now).1 = some e → e.v = f.evaluateIP ip) ∧ Good f (c.get ip now).2 := by
  have hsub := BoundedMaps.get_sublist (VerdictEntry.live now) c ip
  refine ⟨fun e he => ?_, fun p hp => h.remembers p (hsub.subset hp),
    hsub.length_le.trans h.bounded⟩
  obtain ⟨hmem, -⟩ := BoundedMaps.get_some (VerdictEntry.live now) c ip e he
  exact h.remembers (ip, e) hmem

theorem good_put (f : Filter) (c : VerdictCache) (ttl : ℤ) (ip : Text) (now : ℤ) (h : Good f c) :
    Good f (c.put ttl ip (f.evaluateIP ip) now) := by
  unfold VerdictCache.put
  split_ifs
  · exact h
  · refine ⟨fun p hp => ?_, BoundedMaps.length_put _ _ _ _ _ (by decide)⟩
    rcases BoundedMaps.mem_put _ _ _ _ _ p hp with hold | rfl
    · exact h.remembers p hold
    · rfl

/-- One request is answered as without the cache. -/
theorem decide_good (f : Filter) (selfIPs : List Address) (c : VerdictCache) (now : ℤ)
    (ip userAgent : Text) (h : Good f c) :
    (f.decide selfIPs c now ip userAgent).1 = uncached f selfIPs ip userAgent ∧
      Good f (f.decide selfIPs c now ip userAgent).2 := by
  unfold Filter.decide uncached
  split_ifs with hallowed hagent hchecks
  · exact ⟨rfl, h⟩
  · exact ⟨rfl, h⟩
  · rw [Bool.not_eq_true'] at hchecks
    exact ⟨(evaluateIP_disabled f ip hchecks).symm, h⟩
  · obtain ⟨hfound, hrest⟩ := good_get f c ip now h
    rcases hget : c.get ip now with ⟨_ | e, rest⟩
    · rw [hget] at hrest
      exact ⟨rfl, good_put f rest f.cacheTTL ip now hrest⟩
    · rw [hget] at hfound hrest
      exact ⟨hfound e rfl, hrest⟩

/-! ### Runs -/

theorem good_step (f : Filter) (s : State) (e : Event) (h : Good f s.cache) :
    Good f (step f s e).cache := by
  cases e with
  | request now ip userAgent => exact (decide_good f s.selfIPs s.cache now ip userAgent h).2
  | refreshed selfIPs => exact h

theorem run_verdicts (f : Filter) (s : State) (events : List Event) (h : Good f s.cache) :
    (events.foldl (step f) s).verdicts = s.verdicts ++ uncachedVerdicts f s.selfIPs events ∧
      Good f (events.foldl (step f) s).cache := by
  induction events generalizing s with
  | nil => exact ⟨(List.append_nil _).symm, h⟩
  | cons e rest ih =>
    obtain ⟨hverdicts, hgood⟩ := ih (step f s e) (good_step f s e h)
    refine ⟨?_, hgood⟩
    rw [List.foldl_cons, hverdicts]
    cases e with
    | request now ip userAgent =>
      have hone := (decide_good f s.selfIPs s.cache now ip userAgent h).1
      rw [step, hone, List.append_assoc]
      rfl
    | refreshed selfIPs => rfl

/-- The cache changes no verdict, in any run, and never holds more than its bound. -/
theorem verdict_cache_transparent (f : Filter) (selfIPs : List Address) (events : List Event) :
    (events.foldl (step f) (start selfIPs)).verdicts = uncachedVerdicts f selfIPs events ∧
      (events.foldl (step f) (start selfIPs)).cache.length ≤ 8192 := by
  have hempty : Good f (start selfIPs).cache := by
    constructor
    · exact fun p hp => absurd hp List.not_mem_nil
    · exact Nat.zero_le _
  obtain ⟨hverdicts, hgood⟩ := run_verdicts f (start selfIPs) events hempty
  rw [start, List.nil_append] at hverdicts
  exact ⟨hverdicts, hgood.bounded⟩

end Hyproxy.VerdictCaching

import Hyproxy.BotFilter

/-!
The deployment's own addresses over the passes that refresh them. One pass replaces the whole set
when it finds any address, also where some lookups failed; what the failed lookups had found
before then remains exempt only when the same pass finds it again or a network has it.
-/
namespace Hyproxy.SelfAddresses

open BotFilter
open IpTexts (Address contains_congr equal equal_iff parseIP parseIP_text text to16 to16_byte
  to16_length)
open RouteTables (Network)

/-- What one pass finds for each host; a lookup may fail. -/
abbrev Lookups := Text → Option (List Address)

def selfIPs (hosts : List Text) (passes : List Lookups) : List Address :=
  passes.foldl (refreshSelfIPs hosts) []

/-- The addresses of the last lookup of a host that succeeded. -/
def lastFound (passes : List Lookups) (host : Text) : List Address :=
  passes.foldl (fun found lookup => (lookup host).getD found) []

/-- A request from the address is not blocked, whatever the signals say of it. -/
def Exempt (nets : List Network) (selfIPs : List Address) (a : Address) : Prop :=
  ∀ (f : Filter) (c : VerdictCache) (now : ℤ) (ip userAgent : Text), f.allowNets = nets →
    parseIP ip = some (to16 a.bytes) → (f.decide selfIPs c now ip userAgent).1.blocked = false

def Found (hosts : List Text) (lookup : Lookups) (a : Address) : Prop :=
  ∃ host ∈ hosts, ∃ addrs, lookup host = some addrs ∧ containsIP addrs a = true

/-- A pass that finds any address finds those of the hosts whose lookups fail. -/
def Keeps (nets : List Network) (hosts : List Text) (past : List Lookups) (lookup : Lookups) :
    Prop :=
  (∃ a, Found hosts lookup a) → ∀ host ∈ hosts, lookup host = none →
    ∀ a ∈ lastFound past host, Found hosts lookup a ∨ ∃ n ∈ nets, n.contains a.bytes = true

/-! ### What a pass resolves -/

theorem containsIP_iff (list : List Address) (a : Address) :
    containsIP list a = true ↔ ∃ b ∈ list, to16 b.bytes = to16 a.bytes := by
  simp only [containsIP, List.any_eq_true, equal_iff]

theorem containsIP_congr (list : List Address) (a b : Address) (h : to16 a.bytes = to16 b.bytes) :
    containsIP list a = true ↔ containsIP list b = true := by
  rw [containsIP_iff, containsIP_iff, h]

theorem containsIP_of_mem (list : List Address) (a : Address) (ha : a ∈ list) :
    containsIP list a = true :=
  (containsIP_iff list a).mpr ⟨a, ha, rfl⟩

theorem containsIP_append (left right : List Address) (a : Address) :
    containsIP (left ++ right) a = true ↔ containsIP left a = true ∨ containsIP right a = true := by
  rw [containsIP, List.any_append, Bool.or_eq_true]
  rfl

theorem containsIP_addAddrs (ips addrs : List Address) (a : Address) :
    containsIP (addAddrs ips addrs) a = true ↔
      containsIP ips a = true ∨ containsIP addrs a = true := by
  induction addrs generalizing ips with
  | nil => simp [addAddrs, containsIP]
  | cons b rest ih =>
    have hcons : addAddrs ips (b :: rest) =
        addAddrs (if containsIP ips b then ips else ips ++ [b]) rest := rfl
    have hsplit : containsIP (b :: rest) a = true ↔
        containsIP [b] a = true ∨ containsIP rest a = true := containsIP_append [b] rest a
    rw [hcons, ih, hsplit]
    split_ifs with hb
    · have hold : containsIP [b] a = true → containsIP ips a = true := by
        intro h
        obtain ⟨b', hb', hsame⟩ := (containsIP_iff [b] a).mp h
        obtain rfl := List.mem_singleton.mp hb'
        exact (containsIP_congr ips b' a hsame).mp hb
      constructor
      · exact fun h => h.imp id .inr
      · rintro (h | h | h)
        · exact .inl h
        · exact .inl (hold h)
        · exact .inr h
    · rw [containsIP_append, or_assoc]

theorem containsIP_resolve (hosts : List Text) (lookup : Lookups) (a : Address) :
    containsIP (resolve hosts lookup) a = true ↔ Found hosts lookup a := by
  suffices h : ∀ ips, containsIP (hosts.foldl (resolveHost lookup) ips) a = true ↔
      containsIP ips a = true ∨ Found hosts lookup a by
    have hnone : ¬ containsIP [] a = true := by simp [containsIP]
    exact (h []).trans (or_iff_right hnone)
  induction hosts with
  | nil => simp [Found]
  | cons host rest ih =>
    intro ips
    have hfound : Found (host :: rest) lookup a ↔
        (∃ addrs, lookup host = some addrs ∧ containsIP addrs a = true) ∨ Found rest lookup a := by
      simp only [Found, List.exists_mem_cons_iff]
    rw [List.foldl_cons, ih, hfound, resolveHost]
    cases lookup host with
    | none => simp
    | some addrs => simp [containsIP_addAddrs, or_assoc]

theorem resolve_isEmpty (hosts : List Text) (lookup : Lookups) :
    (resolve hosts lookup).isEmpty = true ↔ ¬ ∃ a, Found hosts lookup a := by
  rw [List.isEmpty_iff]
  constructor
  · rintro hempty ⟨a, ha⟩
    rw [← containsIP_resolve, hempty] at ha
    exact absurd ha (by simp [containsIP])
  · intro hnone
    refine List.eq_nil_iff_forall_not_mem.mpr fun a ha => hnone ⟨a, ?_⟩
    rw [← containsIP_resolve]
    exact containsIP_of_mem _ a ha

/-! ### What is exempt -/

theorem allowed_iff (f : Filter) (ips : List Address) (a : Address) (ip : Text)
    (hip : parseIP ip = some (to16 a.bytes)) : f.allowed ips ip = true ↔
      containsIP ips a = true ∨ ∃ n ∈ f.allowNets, n.contains a.bytes = true := by
  let wide : Address := ⟨to16 a.bytes, .inr (to16_length a), to16_byte a⟩
  have hwide : to16 wide.bytes = to16 a.bytes := if_neg (by rw [to16_length a]; decide)
  have hself : (ips.any fun self => equal self.bytes (to16 a.bytes)) = true ↔
      containsIP ips a = true := containsIP_congr ips wide a hwide
  have hnets : ∀ n : Network, n.contains (to16 a.bytes) = n.contains a.bytes :=
    fun n => contains_congr n wide a hwide
  simp only [Filter.allowed, hip, Bool.or_eq_true, hself, List.any_eq_true, hnets]

/-- A filter under which every request with an agent is dropped. -/
def strictFilter (nets : List Network) : Filter where
  uaPatterns := [fun _ => true]
  blockEmptyUA := true
  blockedASNs := []
  ptrSuffixes := []
  blockAnyPTR := true
  blockedCountries := []
  asnDB := none
  countryDB := none
  lookupAddr := fun _ => some ["host.example".toList]
  allowNets := nets
  cacheTTL := 0

theorem exempt_iff (nets : List Network) (ips : List Address) (a : Address) :
    Exempt nets ips a ↔ containsIP ips a = true ∨ ∃ n ∈ nets, n.contains a.bytes = true := by
  constructor
  · intro h
    have hip := parseIP_text a
    have hblocked := h (strictFilter nets) [] 0 (text a.bytes) [] rfl hip
    by_contra hnot
    have hdenied : ¬ (strictFilter nets).allowed ips (text a.bytes) = true :=
      fun hallowed => hnot ((allowed_iff (strictFilter nets) ips a _ hip).mp hallowed)
    have hbad : (strictFilter nets).badUserAgent [] = true := rfl
    rw [Filter.decide, if_neg hdenied, if_pos hbad] at hblocked
    exact absurd hblocked (by simp)
  · rintro h f c now ip userAgent rfl hip
    rw [Filter.decide, if_pos ((allowed_iff f ips a ip hip).mpr h)]
    rfl

/-! ### One pass -/

theorem selfIPs_concat (hosts : List Text) (past : List Lookups) (lookup : Lookups) :
    selfIPs hosts (past ++ [lookup]) = refreshSelfIPs hosts (selfIPs hosts past) lookup := by
  rw [selfIPs, List.foldl_concat]
  rfl

theorem lastFound_concat (past : List Lookups) (lookup : Lookups) (host : Text) :
    lastFound (past ++ [lookup]) host = (lookup host).getD (lastFound past host) := by
  rw [lastFound, List.foldl_concat]
  rfl

/-- The addresses last found are exempt. -/
def OwnExempt (nets : List Network) (hosts : List Text) (passes : List Lookups) : Prop :=
  ∀ host ∈ hosts, ∀ a ∈ lastFound passes host, Exempt nets (selfIPs hosts passes) a

theorem keeps_of_ownExempt (nets : List Network) (hosts : List Text) (past : List Lookups)
    (lookup : Lookups) (h : OwnExempt nets hosts (past ++ [lookup])) :
    Keeps nets hosts past lookup := by
  intro hany host hhost hfail a ha
  have hlast : a ∈ lastFound (past ++ [lookup]) host := by
    rw [lastFound_concat, hfail]
    exact ha
  have hempty : ¬ (resolve hosts lookup).isEmpty = true := by
    rw [resolve_isEmpty, not_not]
    exact hany
  have hexempt := h host hhost a hlast
  rw [selfIPs_concat, refreshSelfIPs, if_neg hempty, exempt_iff, containsIP_resolve] at hexempt
  exact hexempt

theorem ownExempt_step (nets : List Network) (hosts : List Text) (past : List Lookups)
    (lookup : Lookups) (hpast : OwnExempt nets hosts past) (hkeeps : Keeps nets hosts past lookup) :
    OwnExempt nets hosts (past ++ [lookup]) := by
  intro host hhost a ha
  rw [lastFound_concat] at ha
  rw [selfIPs_concat, refreshSelfIPs]
  by_cases hany : ∃ a, Found hosts lookup a
  · have hempty : ¬ (resolve hosts lookup).isEmpty = true := by
      rw [resolve_isEmpty, not_not]
      exact hany
    rw [if_neg hempty, exempt_iff, containsIP_resolve]
    cases hlookup : lookup host with
    | none =>
      rw [hlookup] at ha
      exact hkeeps hany host hhost hlookup a ha
    | some addrs =>
      rw [hlookup] at ha
      exact .inl ⟨host, hhost, addrs, hlookup, containsIP_of_mem addrs a ha⟩
  · rw [if_pos ((resolve_isEmpty hosts lookup).mpr hany)]
    cases hlookup : lookup host with
    | none =>
      rw [hlookup] at ha
      exact hpast host hhost a ha
    | some addrs =>
      rw [hlookup] at ha
      exact absurd ⟨a, host, hhost, addrs, hlookup, containsIP_of_mem addrs a ha⟩ hany

/-- In a run of passes, the deployment's own addresses are exempt after every pass exactly when
each pass keeps what the failing lookups had found. -/
theorem own_addresses_exempt (nets : List Network) (hosts : List Text) (passes : List Lookups) :
    (∀ past, past <+: passes → OwnExempt nets hosts past) ↔
      ∀ past lookup rest, passes = past ++ lookup :: rest → Keeps nets hosts past lookup := by
  constructor
  · rintro h past lookup rest rfl
    refine keeps_of_ownExempt nets hosts past lookup (h (past ++ [lookup]) ⟨rest, ?_⟩)
    rw [List.append_assoc, List.singleton_append]
  · intro h past
    induction past using List.reverseRecOn with
    | nil => exact fun _ host _ a ha => absurd ha List.not_mem_nil
    | append_singleton past lookup ih =>
      rintro ⟨rest, hpasses⟩
      rw [List.append_assoc, List.singleton_append] at hpasses
      exact ownExempt_step nets hosts past lookup (ih ⟨lookup :: rest, hpasses⟩)
        (h past lookup rest hpasses.symm)

def sampleAddress (last : ℕ) (h : last < 256) : Address where
  bytes := [203, 0, 113, last]
  size := .inl rfl
  byte := by simp [h]

def sampleHosts : List Text := ["auth.example".toList, "app.example".toList]

/-- The second lookup of the second host fails. -/
def samplePasses : List Lookups :=
  [fun host =>
      if host == "auth.example".toList then some [sampleAddress 7 (by decide)]
      else some [sampleAddress 9 (by decide)],
    fun host =>
      if host == "auth.example".toList then some [sampleAddress 7 (by decide)] else none]

/-- Without rules for agents, every address with a name is blocked. -/
def sampleFilter : Filter :=
  { strictFilter alwaysAllowedCIDRs with uaPatterns := [], blockEmptyUA := false }

/-- After a lookup that failed, a request from what that host last resolved to is dropped. -/
theorem own_address_blocked :
    ¬ OwnExempt alwaysAllowedCIDRs sampleHosts samplePasses ∧
      lastFound samplePasses "app.example".toList = [sampleAddress 9 (by decide)] ∧
      (sampleFilter.decide (selfIPs sampleHosts samplePasses) [] 0 "203.0.113.9".toList
        "Mozilla".toList).1 = ⟨true, "blocked_ptr"⟩ := by
  have hlast : lastFound samplePasses "app.example".toList = [sampleAddress 9 (by decide)] := rfl
  have hblocked : (sampleFilter.decide (selfIPs sampleHosts samplePasses) [] 0
      "203.0.113.9".toList "Mozilla".toList).1 = ⟨true, "blocked_ptr"⟩ := by
    decide
  refine ⟨fun h => ?_, hlast, hblocked⟩
  have hhost : "app.example".toList ∈ sampleHosts := by simp [sampleHosts]
  have hmem : sampleAddress 9 (by decide) ∈ lastFound samplePasses "app.example".toList := by
    rw [hlast]
    exact List.mem_singleton_self _
  have hexempt := h "app.example".toList hhost _ hmem sampleFilter [] 0 "203.0.113.9".toList
    "Mozilla".toList rfl (by decide)
  rw [hblocked] at hexempt
  exact absurd hexempt (by decide)

end Hyproxy.SelfAddresses

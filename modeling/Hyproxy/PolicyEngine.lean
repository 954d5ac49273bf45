import Mathlib.Data.List.DropRight
import Mathlib.Tactic.Common

/-!
The policy decision core of `policy/engine.py`. A rule applies when it is
enabled, names the resource and a role of the user, and its port, path and time
conditions match; among the rules that apply a deny wins over every allow, and
without an allow the answer is deny. Instants are microseconds since the epoch.
-/
namespace Hyproxy.PolicyEngine

/-- A JSON value as the `conditions` column holds it; a number is a mantissa and
a power of ten. -/
inductive Json
  | null
  | bool (b : Bool)
  | num (mantissa exponent : ℤ)
  | str (s : List Char)
  | arr (elems : List Json)
  | obj (fields : List (List Char × Json))

abbrev Conditions := List (List Char × Json)

/-- The truth value of a decoded JSON value. -/
def Json.truthy : Json → Bool
  | .null => false
  | .bool b => b
  | .num mantissa _ => mantissa ≠ 0
  | .str s => s ≠ []
  | .arr elems => !elems.isEmpty
  | .obj fields => !fields.isEmpty

def dayKeys : List (List Char) :=
  ["mon".toList, "tue".toList, "wed".toList, "thu".toList, "fri".toList, "sat".toList,
    "sun".toList]

def microsPerMinute : ℕ := 60 * 1000000

def microsPerDay : ℕ := 24 * 60 * microsPerMinute

/-- `weekday`, Monday being 0; the epoch was a Thursday. -/
def weekday (now : ℕ) : ℕ := (now / microsPerDay + 3) % 7

def minuteOfDay (now : ℕ) : ℕ := now % microsPerDay / microsPerMinute

/-- The code points with decimal value zero; each starts a run of ten digits. -/
def decimalZeros : List ℕ :=
  [0x30, 0x660, 0x6f0, 0x7c0, 0x966, 0x9e6, 0xa66, 0xae6, 0xb66, 0xbe6, 0xc66, 0xce6, 0xd66,
    0xde6, 0xe50, 0xed0, 0xf20, 0x1040, 0x1090, 0x17e0, 0x1810, 0x1946, 0x19d0, 0x1a80, 0x1a90,
    0x1b50, 0x1bb0, 0x1c40, 0x1c50, 0xa620, 0xa8d0, 0xa900, 0xa9d0, 0xa9f0, 0xaa50, 0xabf0,
    0xff10, 0x104a0, 0x10d30, 0x11066, 0x110f0, 0x11136, 0x111d0, 0x112f0, 0x11450, 0x114d0,
    0x11650, 0x116c0, 0x11730, 0x118e0, 0x11950, 0x11c50, 0x11d50, 0x11da0, 0x11f50, 0x16a60,
    0x16ac0, 0x16b50, 0x1d7ce, 0x1d7d8, 0x1d7e2, 0x1d7ec, 0x1d7f6, 0x1e140, 0x1e2f0, 0x1e4f0,
    0x1e950, 0x1fbf0]

/-- The value of a character that `\d` matches. -/
def decimal (c : Char) : Option ℕ :=
  (decimalZeros.find? (fun first => first ≤ c.toNat && c.toNat < first + 10)).map (c.toNat - ·)

/-- One number of a time: two digits where `two` allows the pair, else one digit. -/
def takeNumber (two : Char → Char → Bool) : List Char → Option (ℕ × List Char)
  | [] => none
  | [a] => (decimal a).map (fun value => (value, []))
  | a :: b :: rest =>
    match two a b, decimal a, decimal b with
    | true, some hi, some lo => some (10 * hi + lo, rest)
    | _, some value, _ => some (value, b :: rest)
    | _, none, _ => none

/-- `2[0-3]|[0-1]\d|\d` -/
def takeHour : List Char → Option (ℕ × List Char) :=
  takeNumber (fun a b => (a == '2' && '0' ≤ b && b ≤ '3') ||
    ((a == '0' || a == '1') && (decimal b).isSome))

/-- `[0-5]\d|\d` -/
def takeMinute : List Char → Option (ℕ × List Char) :=
  takeNumber (fun a b => '0' ≤ a && a ≤ '5' && (decimal b).isSome)

/-- `strptime(value, "%H:%M")` as a minute of the day; other types are an error. -/
def parseHhmm (value : Json) : Option ℕ :=
  match value with
  | .str s =>
    match takeHour s with
    | some (hour, ':' :: rest) =>
      match takeMinute rest with
      | some (minute, []) => some (60 * hour + minute)
      | _ => none
    | _ => none
  | _ => none

def dayListed (days : Json) (dayKey : List Char) : Bool :=
  match days with
  | .null => true
  | .arr elems => elems.any (fun d => match d with
    | .str s => s == dayKey
    | _ => false)
  | _ => false

/-- One entry of `time_windows`; a malformed one never matches. -/
def windowMatches (window : Json) (dayKey : List Char) (current : ℕ) : Bool :=
  match window with
  | .obj fields =>
    dayListed ((fields.lookup "days".toList).getD .null) dayKey &&
      match parseHhmm ((fields.lookup "start".toList).getD (.str "00:00".toList)),
        parseHhmm ((fields.lookup "end".toList).getD (.str "23:59".toList)) with
      | some start, some stop =>
        if start ≤ stop then start ≤ current && current ≤ stop
        else start ≤ current || current ≤ stop
      | _, _ => false
  | _ => false

def timeWindowMatches (conditions : Conditions) (now : ℕ) : Bool :=
  let windows := (conditions.lookup "time_windows".toList).getD .null
  if windows.truthy then
    match windows with
    | .arr elems => elems.any
        (fun window => windowMatches window (dayKeys.getD (weekday now) []) (minuteOfDay now))
    | _ => false
  else true

inductive Action
  | allow
  | deny
  deriving Repr, DecidableEq

variable {Role Resource : Type} [DecidableEq Role] [DecidableEq Resource]

structure PolicyRule (Role Resource : Type) where
  roleId : Role
  resourceId : Resource
  action : Action
  allowedPorts : Option (List ℤ) := none
  allowedPaths : Option (List (List Char)) := none
  conditions : Conditions := []
  enabled : Bool := true

inductive Reason
  | explicitDeny
  | allow
  | defaultDeny
  deriving Repr, DecidableEq

def Reason.text : Reason → String
  | .explicitDeny => "explicit_deny"
  | .allow => "allow"
  | .defaultDeny => "default_deny"

structure Decision where
  allowed : Bool
  reason : Reason
  deriving Repr, DecidableEq

/-- Everything of a request that the rules look at, apart from the path. -/
structure Subject (Role Resource : Type) where
  userRoleIds : List Role
  resourceId : Resource
  port : ℤ
  now : ℕ

/-- `prefix.rstrip("/")` -/
def rstripSlash (allowed : List Char) : List Char := allowed.rdropWhile (· = '/')

def pathAllowed (allowed path : List Char) : Bool :=
  path == allowed || (rstripSlash allowed ++ "/".toList).isPrefixOf path || allowed == "/".toList

def pathsMatch (allowedPaths : Option (List (List Char))) (path : List Char) : Bool :=
  match allowedPaths with
  | none => true
  | some allowed => allowed.any (fun a => pathAllowed a path)

def ruleApplies (rule : PolicyRule Role Resource) (s : Subject Role Resource)
    (path : List Char) : Bool :=
  if !rule.enabled then false
  else if rule.resourceId ≠ s.resourceId then false
  else if rule.roleId ∉ s.userRoleIds then false
  else if rule.allowedPorts.any (fun ports => !ports.contains s.port) then false
  else if !pathsMatch rule.allowedPaths path then false
  else timeWindowMatches rule.conditions s.now

def evaluate (rules : List (PolicyRule Role Resource)) (s : Subject Role Resource)
    (path : List Char) : Decision :=
  let applicable := rules.filter (fun r => ruleApplies r s path)
  if applicable.any (fun r => r.action = .deny) then ⟨false, .explicitDeny⟩
  else if applicable.any (fun r => r.action = .allow) then ⟨true, .allow⟩
  else ⟨false, .defaultDeny⟩

/-- The rule applies to the request at some path. -/
def Active (rule : PolicyRule Role Resource) (s : Subject Role Resource) : Prop :=
  rule.enabled = true ∧ rule.resourceId = s.resourceId ∧ rule.roleId ∈ s.userRoleIds ∧
    (∀ ports ∈ rule.allowedPorts, s.port ∈ ports) ∧ timeWindowMatches rule.conditions s.now = true

theorem ruleApplies_iff (rule : PolicyRule Role Resource) (s : Subject Role Resource)
    (path : List Char) :
    ruleApplies rule s path = true ↔
      Active rule s ∧ pathsMatch rule.allowedPaths path = true := by
  unfold ruleApplies Active
  cases rule.allowedPorts <;> split_ifs <;> simp_all

/-- Some applicable rule has this action. -/
def Fires (rules : List (PolicyRule Role Resource)) (s : Subject Role Resource)
    (path : List Char) (action : Action) : Prop :=
  ∃ r ∈ rules, r.action = action ∧ Active r s ∧ pathsMatch r.allowedPaths path = true

theorem applicable_any_iff (rules : List (PolicyRule Role Resource)) (s : Subject Role Resource)
    (path : List Char) (action : Action) :
    (rules.filter (fun r => ruleApplies r s path)).any (fun r => r.action = action) = true ↔
      Fires rules s path action := by
  simp only [List.any_eq_true, List.mem_filter, ruleApplies_iff, decide_eq_true_eq, Fires]
  constructor
  · rintro ⟨r, ⟨hr, happ⟩, hact⟩
    exact ⟨r, hr, hact, happ⟩
  · rintro ⟨r, hr, hact, happ⟩
    exact ⟨r, ⟨hr, happ⟩, hact⟩

/-- A deny that fires decides; else an allow that fires; else the default. -/
theorem evaluate_cases (rules : List (PolicyRule Role Resource)) (s : Subject Role Resource)
    (path : List Char) :
    (Fires rules s path .deny ∧ evaluate rules s path = ⟨false, .explicitDeny⟩) ∨
      (¬ Fires rules s path .deny ∧ Fires rules s path .allow ∧
        evaluate rules s path = ⟨true, .allow⟩) ∨
      (¬ Fires rules s path .deny ∧ ¬ Fires rules s path .allow ∧
        evaluate rules s path = ⟨false, .defaultDeny⟩) := by
  unfold evaluate
  by_cases hdeny : Fires rules s path .deny
  · exact Or.inl ⟨hdeny, if_pos ((applicable_any_iff rules s path .deny).mpr hdeny)⟩
  · have hd := mt (applicable_any_iff rules s path .deny).mp hdeny
    simp only [if_neg hd]
    by_cases hallow : Fires rules s path .allow
    · exact Or.inr (Or.inl ⟨hdeny, hallow,
        if_pos ((applicable_any_iff rules s path .allow).mpr hallow)⟩)
    · exact Or.inr (Or.inr ⟨hdeny, hallow,
        if_neg (mt (applicable_any_iff rules s path .allow).mp hallow)⟩)

theorem evaluate_eq_explicitDeny_iff (rules : List (PolicyRule Role Resource))
    (s : Subject Role Resource) (path : List Char) :
    evaluate rules s path = ⟨false, .explicitDeny⟩ ↔ Fires rules s path .deny := by
  rcases evaluate_cases rules s path with ⟨h, he⟩ | ⟨h, -, he⟩ | ⟨h, -, he⟩ <;> simp [he, h]

theorem evaluate_eq_allow_iff (rules : List (PolicyRule Role Resource))
    (s : Subject Role Resource) (path : List Char) :
    evaluate rules s path = ⟨true, .allow⟩ ↔
      ¬ Fires rules s path .deny ∧ Fires rules s path .allow := by
  rcases evaluate_cases rules s path with ⟨h, he⟩ | ⟨h, h', he⟩ | ⟨h, h', he⟩ <;> simp [*]

/-- Two paths at which the same kinds of rule fire get the same decision. -/
theorem evaluate_congr (rules : List (PolicyRule Role Resource)) (s : Subject Role Resource)
    (path₁ path₂ : List Char) (hdeny : Fires rules s path₁ .deny ↔ Fires rules s path₂ .deny)
    (hallow : ¬ Fires rules s path₂ .deny →
      (Fires rules s path₁ .allow ↔ Fires rules s path₂ .allow)) :
    evaluate rules s path₁ = evaluate rules s path₂ := by
  rcases evaluate_cases rules s path₂ with ⟨h, he⟩ | ⟨h, h', he⟩ | ⟨h, h', he⟩
  · rw [he, evaluate_eq_explicitDeny_iff]
    exact hdeny.mpr h
  · rw [he, evaluate_eq_allow_iff]
    exact ⟨mt hdeny.mp h, (hallow h).mpr h'⟩
  · rcases evaluate_cases rules s path₁ with ⟨h₁, -⟩ | ⟨-, h₁, -⟩ | ⟨-, -, he₁⟩
    · exact absurd (hdeny.mp h₁) h
    · exact absurd ((hallow h).mp h₁) h'
    · rw [he, he₁]

end Hyproxy.PolicyEngine

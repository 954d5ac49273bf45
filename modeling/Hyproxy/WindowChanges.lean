import Hyproxy.TimeWindows
import Mathlib.Data.List.Infix

/-!
Malformed windows at the level of the decision. Conditions are any JSON object, and
the engine reads each without raising. A window that does not read as one never
matches, so a rule with malformed windows does not apply, or always applies when
the value counts as none; a deny that no longer applies opens what it had closed.
-/
namespace Hyproxy.WindowChanges

open PolicyEngine TimeWindows

/-! ### What can be raised -/

inductive PyError
  | attributeError
  | typeError
  | valueError
  deriving Repr, DecidableEq

/-- `value.get(key, default)` -/
def get (value : Json) (key : String) (default : Json) : Except PyError Json :=
  match value with
  | .obj fields => .ok ((fields.lookup key.toList).getD default)
  | _ => .error .attributeError

/-- `dayKey in value` -/
def contains (value : Json) (dayKey : List Char) : Except PyError Bool :=
  match value with
  | .arr _ => .ok (dayListed value dayKey)
  | .obj fields => .ok (fields.lookup dayKey).isSome
  | .str s => .ok (decide (dayKey <:+: s))
  | _ => .error .typeError

/-- `datetime.strptime(value, "%H:%M").time()` -/
def strptime (value : Json) : Except PyError ℕ :=
  match value with
  | .str _ =>
    match parseHhmm value with
    | some minute => .ok minute
    | none => .error .valueError
  | _ => .error .typeError

/-- `_parse_hhmm` -/
def parsed (value : Json) : Except PyError (Option ℕ) :=
  match strptime value with
  | .ok minute => .ok (some minute)
  | .error .typeError => .ok none
  | .error .valueError => .ok none
  | .error .attributeError => .error .attributeError

/-- The test of the days of a window. -/
def onDay (days : Json) (dayKey : List Char) : Except PyError Bool :=
  match days with
  | .null => .ok true
  | .arr elems => contains (.arr elems) dayKey
  | _ => .ok false

/-- One round of the loop in `time_window_matches`: whether it returns. -/
def round (window : Json) (dayKey : List Char) (current : ℕ) : Except PyError Bool :=
  match window with
  | .obj fields => do
    let days ← get (.obj fields) "days" .null
    let listed ← onDay days dayKey
    if listed then
      let start ← parsed (← get (.obj fields) "start" (.str "00:00".toList))
      let stop ← parsed (← get (.obj fields) "end" (.str "23:59".toList))
      match start, stop with
      | some start, some stop =>
        return if start ≤ stop then start ≤ current && current ≤ stop
          else start ≤ current || current ≤ stop
      | _, _ => return false
    else return false
  | _ => return false

def loop (dayKey : List Char) (current : ℕ) : List Json → Except PyError Bool
  | [] => .ok false
  | window :: rest => do if ← round window dayKey current then return true else loop dayKey current rest

/-- `time_window_matches`, with what its statements raise. -/
def matchesOrRaises (conditions : Conditions) (now : ℕ) : Except PyError Bool := do
  let windows ← get (.obj conditions) "time_windows" .null
  if windows.truthy then
    match windows with
    | .arr elems => loop (dayKeys.getD (weekday now) []) (minuteOfDay now) elems
    | _ => return false
  else return true

variable {Role Resource : Type} [DecidableEq Role] [DecidableEq Resource]

/-- `rule_applies` -/
def appliesOrRaises (rule : PolicyRule Role Resource) (s : Subject Role Resource)
    (path : List Char) : Except PyError Bool :=
  if !rule.enabled then .ok false
  else if rule.resourceId ≠ s.resourceId then .ok false
  else if rule.roleId ∉ s.userRoleIds then .ok false
  else if rule.allowedPorts.any (fun ports => !ports.contains s.port) then .ok false
  else if !pathsMatch rule.allowedPaths path then .ok false
  else matchesOrRaises rule.conditions s.now

/-- The comprehension over the rules. -/
def applicable (s : Subject Role Resource) (path : List Char) :
    List (PolicyRule Role Resource) → Except PyError (List (PolicyRule Role Resource))
  | [] => .ok []
  | r :: rest => do
    if ← appliesOrRaises r s path then return r :: (← applicable s path rest)
    else applicable s path rest

/-- `evaluate` -/
def evaluateOrRaises (rules : List (PolicyRule Role Resource)) (s : Subject Role Resource)
    (path : List Char) : Except PyError Decision := do
  let found ← applicable s path rules
  if found.any (fun r => r.action = .deny) then return ⟨false, .explicitDeny⟩
  else if found.any (fun r => r.action = .allow) then return ⟨true, .allow⟩
  else return ⟨false, .defaultDeny⟩

theorem parsed_eq (value : Json) : parsed value = .ok (parseHhmm value) := by
  unfold parsed strptime
  cases value with
  | str s =>
    simp only
    cases parseHhmm (.str s) <;> rfl
  | _ => rfl

theorem onDay_eq (days : Json) (dayKey : List Char) :
    onDay days dayKey = .ok (dayListed days dayKey) := by
  cases days <;> rfl

theorem round_eq (window : Json) (dayKey : List Char) (current : ℕ) :
    round window dayKey current = .ok (windowMatches window dayKey current) := by
  cases window with
  | obj fields =>
    simp only [round, get, parsed_eq, onDay_eq, windowMatches, bind, Except.bind, pure, Except.pure]
    cases dayListed ((fields.lookup "days".toList).getD .null) dayKey with
    | false => rfl
    | true =>
      simp only [if_true, Bool.true_and]
      cases parseHhmm ((fields.lookup "start".toList).getD (.str "00:00".toList)) <;>
        cases parseHhmm ((fields.lookup "end".toList).getD (.str "23:59".toList)) <;> rfl
  | _ => rfl

theorem loop_eq (dayKey : List Char) (current : ℕ) (windows : List Json) :
    loop dayKey current windows = .ok (windows.any fun w => windowMatches w dayKey current) := by
  induction windows with
  | nil => rfl
  | cons window rest ih =>
    simp only [loop, round_eq, ih, bind, Except.bind, pure, Except.pure, List.any_cons]
    cases windowMatches window dayKey current <;> rfl

theorem matchesOrRaises_eq (conditions : Conditions) (now : ℕ) :
    matchesOrRaises conditions now = .ok (timeWindowMatches conditions now) := by
  simp only [matchesOrRaises, get, timeWindowMatches, bind, Except.bind, pure, Except.pure]
  generalize (conditions.lookup "time_windows".toList).getD .null = windows
  cases htruthy : windows.truthy with
  | false => simp
  | true =>
    simp only [if_true]
    cases windows with
    | arr elems => exact loop_eq _ _ elems
    | _ => rfl

theorem appliesOrRaises_eq (rule : PolicyRule Role Resource) (s : Subject Role Resource)
    (path : List Char) : appliesOrRaises rule s path = .ok (ruleApplies rule s path) := by
  unfold appliesOrRaises ruleApplies
  rw [matchesOrRaises_eq]
  split_ifs <;> rfl

theorem applicable_eq (s : Subject Role Resource) (path : List Char)
    (rules : List (PolicyRule Role Resource)) :
    applicable s path rules = .ok (rules.filter fun r => ruleApplies r s path) := by
  induction rules with
  | nil => rfl
  | cons r rest ih =>
    simp only [applicable, appliesOrRaises_eq, ih, bind, Except.bind, pure, Except.pure]
    cases hr : ruleApplies r s path <;> simp [hr]

/-- The engine answers to every list of rules, whatever their conditions are. -/
theorem evaluateOrRaises_eq (rules : List (PolicyRule Role Resource)) (s : Subject Role Resource)
    (path : List Char) : evaluateOrRaises rules s path = .ok (evaluate rules s path) := by
  simp only [evaluateOrRaises, applicable_eq, bind, Except.bind, evaluate]
  split_ifs <;> rfl

/-! ### What a change of the windows does to the decision -/

/-- `rule.conditions["time_windows"] = windows` -/
def withWindows (rule : PolicyRule Role Resource) (windows : Json) : PolicyRule Role Resource :=
  { rule with conditions := ("time_windows".toList, windows) ::
      rule.conditions.filter fun entry => entry.1 ≠ "time_windows".toList }

/-- The value counts as none, or has a well formed window that covers the instant. -/
def Open (windows : Json) (now : ℕ) : Prop :=
  windows.truthy = false ∨ ∃ elems, windows = .arr elems ∧
    ∃ window ∈ elems, ∃ w, readWindow window = some w ∧ w.covers now = true

/-- A list of well formed windows. -/
def WellFormed : Json → Prop
  | .arr elems => ∀ window ∈ elems, (readWindow window).isSome = true
  | _ => False

/-- A value with something in it that is no window. -/
def Malformed (windows : Json) : Prop := ¬ WellFormed windows

/-- The rule is about the request, its windows aside. -/
def Concerns (rule : PolicyRule Role Resource) (s : Subject Role Resource) (path : List Char) :
    Prop :=
  rule.enabled = true ∧ rule.resourceId = s.resourceId ∧ rule.roleId ∈ s.userRoleIds ∧
    (∀ ports ∈ rule.allowedPorts, s.port ∈ ports) ∧ pathsMatch rule.allowedPaths path = true

/-- The value that the rule has for its windows. -/
def windowsOf (rule : PolicyRule Role Resource) : Json :=
  (rule.conditions.lookup "time_windows".toList).getD .null

/-- The change of the windows of `rule` does not open what was closed: another deny decides, the
rule is about something else, it is a deny that no allow contends with or that stays as it was, or
an allow that is not alone or that does not come to apply. -/
def Harmless (others : List (PolicyRule Role Resource)) (rule : PolicyRule Role Resource)
    (windows : Json) (s : Subject Role Resource) (path : List Char) : Prop :=
  Fires others s path .deny ∨ ¬ Concerns rule s path ∨
    match rule.action with
    | .deny => ¬ Fires others s path .allow ∨ ¬ Open (windowsOf rule) s.now ∨ Open windows s.now
    | .allow => Fires others s path .allow ∨ Open (windowsOf rule) s.now ∨ ¬ Open windows s.now

theorem windowMatches_iff (window : Json) (now : ℕ) :
    windowMatches window (dayKeys.getD (weekday now) []) (minuteOfDay now) = true ↔
      ∃ w, readWindow window = some w ∧ w.covers now = true := by
  cases hread : readWindow window with
  | none =>
    rw [windowMatches_none window _ _ hread]
    simp
  | some w =>
    rw [windowMatches_eq window w now hread]
    simp

theorem timeWindowMatches_iff (conditions : Conditions) (now : ℕ) :
    timeWindowMatches conditions now = true ↔
      Open ((conditions.lookup "time_windows".toList).getD .null) now := by
  simp only [timeWindowMatches, Open]
  generalize (conditions.lookup "time_windows".toList).getD .null = windows
  by_cases htruthy : windows.truthy = true
  · rw [if_pos htruthy, or_iff_right (by simp [htruthy])]
    cases windows with
    | arr elems =>
      simp only [List.any_eq_true, windowMatches_iff, Json.arr.injEq, exists_eq_left']
    | _ => simp
  · rw [if_neg htruthy]
    exact iff_of_true rfl (Or.inl (by simpa using htruthy))

omit [DecidableEq Role] [DecidableEq Resource] in
theorem fires_insert (before after : List (PolicyRule Role Resource))
    (rule : PolicyRule Role Resource) (s : Subject Role Resource) (path : List Char)
    (action : Action) :
    Fires (before ++ rule :: after) s path action ↔
      Fires (before ++ after) s path action ∨
        (rule.action = action ∧ Concerns rule s path ∧ Open (windowsOf rule) s.now) := by
  have hrule : Active rule s ∧ pathsMatch rule.allowedPaths path = true ↔
      Concerns rule s path ∧ Open (windowsOf rule) s.now := by
    unfold Active Concerns windowsOf
    rw [timeWindowMatches_iff]
    tauto
  rw [← hrule]
  simp only [Fires, List.mem_append, List.mem_cons]
  constructor
  · rintro ⟨r, hr, haction, happlies⟩
    rcases hr with hr | rfl | hr
    · exact Or.inl ⟨r, Or.inl hr, haction, happlies⟩
    · exact Or.inr ⟨haction, happlies⟩
    · exact Or.inl ⟨r, Or.inr hr, haction, happlies⟩
  · rintro (⟨r, hr, haction, happlies⟩ | ⟨haction, happlies⟩)
    · exact ⟨r, hr.imp_right Or.inr, haction, happlies⟩
    · exact ⟨rule, Or.inr (Or.inl rfl), haction, happlies⟩

omit [DecidableEq Role] [DecidableEq Resource] in
theorem windowsOf_withWindows (rule : PolicyRule Role Resource) (windows : Json) :
    windowsOf (withWindows rule windows) = windows := by
  simp only [windowsOf, withWindows, List.lookup_cons_self, Option.getD_some]

theorem evaluate_allowed_iff (rules : List (PolicyRule Role Resource))
    (s : Subject Role Resource) (path : List Char) :
    (evaluate rules s path).allowed = true ↔
      ¬ Fires rules s path .deny ∧ Fires rules s path .allow := by
  rcases evaluate_cases rules s path with ⟨hdeny, he⟩ | ⟨hdeny, hallow, he⟩ | ⟨-, hallow, he⟩
  · rw [he]
    exact iff_of_false Bool.false_ne_true fun h => h.1 hdeny
  · rw [he]
    exact iff_of_true rfl ⟨hdeny, hallow⟩
  · rw [he]
    exact iff_of_false Bool.false_ne_true fun h => hallow h.2

/-- The engine answers whatever the windows of a rule are changed to, and a request that was denied
stays denied, exactly when the change is harmless. -/
theorem change_stays_denied_iff (before after : List (PolicyRule Role Resource))
    (rule : PolicyRule Role Resource) (windows : Json) (s : Subject Role Resource)
    (path : List Char) :
    ((∃ d, evaluateOrRaises (before ++ withWindows rule windows :: after) s path = .ok d) ∧
      ((evaluate (before ++ rule :: after) s path).allowed = false →
        (evaluate (before ++ withWindows rule windows :: after) s path).allowed = false)) ↔
      Harmless (before ++ after) rule windows s path := by
  have hanswers : ∃ d, evaluateOrRaises (before ++ withWindows rule windows :: after) s path =
      .ok d := ⟨_, evaluateOrRaises_eq _ s path⟩
  have hconcerns : Concerns (withWindows rule windows) s path ↔ Concerns rule s path := Iff.rfl
  have haction : (withWindows rule windows).action = rule.action := rfl
  rw [and_iff_right hanswers]
  simp only [← Bool.not_eq_true, evaluate_allowed_iff, fires_insert, windowsOf_withWindows,
    hconcerns, haction, Harmless]
  generalize Fires (before ++ after) s path .deny = otherDeny
  generalize Fires (before ++ after) s path .allow = otherAllow
  generalize Concerns rule s path = concerns
  generalize Open (windowsOf rule) s.now = wasOpen
  generalize Open windows s.now = isOpen
  by_cases hdeny : otherDeny
  · simp [hdeny]
  by_cases hconcern : concerns
  · cases rule.action <;> by_cases hallow : otherAllow <;> by_cases hwas : wasOpen <;>
      simp [hdeny, hconcern, hallow, hwas]
  · simp [hdeny, hconcern]

def sampleRule (action : Action) (start stop : String) : PolicyRule ℕ ℕ where
  roleId := 1
  resourceId := 2
  action := action
  conditions := [("time_windows".toList, .arr [sampleWindow ["tue"] start stop])]

def sampleSubject : Subject ℕ ℕ := ⟨[1], 2, 443, tuesdayMorning⟩

/-- A deny whose window holds is dropped with its text for windows, and an allow whose window is
over applies with an empty text. -/
theorem malformed_windows_open :
    WellFormed (windowsOf (sampleRule .deny "04:00" "06:00")) ∧ Malformed (.str "notalist".toList) ∧
      (evaluate ([] ++ sampleRule .deny "04:00" "06:00" :: [sampleRule .allow "00:00" "23:59"])
        sampleSubject "/".toList).allowed = false ∧
      (evaluate ([] ++ withWindows (sampleRule .deny "04:00" "06:00") (.str "notalist".toList) ::
        [sampleRule .allow "00:00" "23:59"]) sampleSubject "/".toList).allowed = true ∧
      WellFormed (windowsOf (sampleRule .allow "08:00" "17:00")) ∧ Malformed (.str []) ∧
      (evaluate ([] ++ sampleRule .allow "08:00" "17:00" :: []) sampleSubject
        "/".toList).allowed = false ∧
      (evaluate ([] ++ withWindows (sampleRule .allow "08:00" "17:00") (.str []) :: [])
        sampleSubject "/".toList).allowed = true := by
  have hformed : ∀ action start stop, (readWindow (sampleWindow ["tue"] start stop)).isSome = true →
      WellFormed (windowsOf (sampleRule action start stop)) := by
    intro action start stop hread window hwindow
    rw [List.mem_singleton.mp hwindow]
    exact hread
  exact ⟨hformed _ _ _ (by decide), id, by decide, by decide, hformed _ _ _ (by decide), id,
    by decide, by decide⟩

end Hyproxy.WindowChanges

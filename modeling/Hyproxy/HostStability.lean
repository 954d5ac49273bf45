import Hyproxy.PolicyEngine

/-!
Which allow verdicts hold for a whole host (`_host_stable` in
`authz/decision.py`). The rules that can still matter are those whose only open
conditions are the path and the time; none of them may deny, and one of them has
to allow without any condition.
-/
namespace Hyproxy.HostStability

open PolicyEngine

variable {Role Resource : Type} [DecidableEq Role] [DecidableEq Resource]

/-- Path and time are all that `rule_applies` still has to decide. -/
def Relevant (roleIds : List Role) (resource : Resource) (port : ℤ)
    (rule : PolicyRule Role Resource) : Prop :=
  rule.enabled = true ∧ rule.resourceId = resource ∧ rule.roleId ∈ roleIds ∧
    ∀ ports ∈ rule.allowedPorts, port ∈ ports

instance (roleIds : List Role) (resource : Resource) (port : ℤ) :
    DecidablePred (Relevant roleIds resource port) := fun _ => by
  unfold Relevant
  infer_instance

/-- The rule allows whatever the path and the time are. -/
def unconditional (rule : PolicyRule Role Resource) : Bool :=
  decide (rule.action = .allow) && rule.allowedPaths.isNone &&
    !((rule.conditions.lookup "time_windows".toList).getD .null).truthy &&
    rule.conditions.all fun field => field.1 == "time_windows".toList

/-- `_host_stable` -/
def hostStable (rules : List (PolicyRule Role Resource)) (allowed : Bool) (roleIds : List Role)
    (resource : Resource) (port : ℤ) : Bool :=
  let relevant := rules.filter (Relevant roleIds resource port)
  if !allowed then false
  else if relevant.any fun rule => rule.action = .deny then false
  else relevant.any unconditional

/-- A rule that applies is relevant, and an unconditional one that is relevant applies. -/
theorem ruleApplies_relevant (rule : PolicyRule Role Resource) (s : Subject Role Resource)
    (path : List Char) (h : ruleApplies rule s path = true) :
    Relevant s.userRoleIds s.resourceId s.port rule := by
  obtain ⟨⟨henabled, hresource, hrole, hports, -⟩, -⟩ := (ruleApplies_iff rule s path).mp h
  exact ⟨henabled, hresource, hrole, hports⟩

theorem ruleApplies_unconditional (rule : PolicyRule Role Resource) (s : Subject Role Resource)
    (path : List Char) (hrelevant : Relevant s.userRoleIds s.resourceId s.port rule)
    (h : unconditional rule = true) : rule.action = .allow ∧ ruleApplies rule s path = true := by
  simp only [unconditional, Bool.and_eq_true, decide_eq_true_eq, Option.isNone_iff_eq_none,
    Bool.not_eq_eq_eq_not, Bool.not_true] at h
  obtain ⟨⟨⟨haction, hpaths⟩, hwindows⟩, -⟩ := h
  obtain ⟨henabled, hresource, hrole, hports⟩ := hrelevant
  refine ⟨haction, (ruleApplies_iff rule s path).mpr ⟨⟨henabled, hresource, hrole, hports, ?_⟩, ?_⟩⟩
  · simp only [timeWindowMatches, hwindows, Bool.false_eq_true, if_false]
  · rw [hpaths]
    rfl

theorem hostStable_iff (rules : List (PolicyRule Role Resource)) (allowed : Bool)
    (roleIds : List Role) (resource : Resource) (port : ℤ) :
    hostStable rules allowed roleIds resource port = true ↔
      allowed = true ∧
        (∀ rule ∈ rules, Relevant roleIds resource port rule → rule.action ≠ .deny) ∧
        ∃ rule ∈ rules, Relevant roleIds resource port rule ∧ unconditional rule = true := by
  unfold hostStable
  cases allowed with
  | false => simp
  | true =>
    by_cases hdeny : (rules.filter (Relevant roleIds resource port)).any
        (fun rule => rule.action = .deny) = true
    · simp only [hdeny]
      simp only [List.any_eq_true, List.mem_filter, decide_eq_true_eq] at hdeny
      obtain ⟨rule, ⟨hmem, hrelevant⟩, haction⟩ := hdeny
      simp only [Bool.not_true, Bool.false_eq_true, if_false, if_true, true_and, false_iff]
      intro h
      exact h.1 rule hmem hrelevant haction
    · simp only [hdeny, Bool.not_true, Bool.false_eq_true, if_false, true_and]
      simp only [List.any_eq_true, List.mem_filter, decide_eq_true_eq, not_exists] at hdeny ⊢
      constructor
      · rintro ⟨rule, ⟨hmem, hrelevant⟩, hfree⟩
        exact ⟨fun rule hmem hrelevant haction => hdeny rule ⟨⟨hmem, hrelevant⟩, haction⟩,
          rule, hmem, hrelevant, hfree⟩
      · rintro ⟨-, rule, hmem, hrelevant, hfree⟩
        exact ⟨rule, ⟨hmem, hrelevant⟩, hfree⟩

/-- A host-stable verdict is the verdict at every path and time. -/
theorem evaluate_of_hostStable (rules : List (PolicyRule Role Resource)) (allowed : Bool)
    (s : Subject Role Resource)
    (h : hostStable rules allowed s.userRoleIds s.resourceId s.port = true) (path : List Char) :
    evaluate rules s path = ⟨true, .allow⟩ := by
  obtain ⟨-, hquiet, rule, hmem, hrelevant, hfree⟩ := (hostStable_iff _ _ _ _ _).mp h
  obtain ⟨haction, happlies⟩ := ruleApplies_unconditional rule s path hrelevant hfree
  have hdeny : (rules.filter fun r => ruleApplies r s path).any (fun r => r.action = .deny) =
      false := by
    rw [List.any_eq_false]
    intro other hother
    obtain ⟨hmem, hother⟩ := List.mem_filter.mp hother
    simpa using hquiet other hmem (ruleApplies_relevant other s path hother)
  have hallow : (rules.filter fun r => ruleApplies r s path).any (fun r => r.action = .allow) =
      true := by
    rw [List.any_eq_true]
    exact ⟨rule, List.mem_filter.mpr ⟨hmem, happlies⟩, by simpa using haction⟩
  simp only [evaluate, hdeny, hallow, Bool.false_eq_true, if_false, if_true]

end Hyproxy.HostStability

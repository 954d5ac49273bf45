import Hyproxy.PolicyEngine

/-!
The allowed paths of a policy rule as prefixes. A prefix stands for the paths that
extend it at a slash; whether a slash at its end belongs to it should not matter.
It does for one path, the prefix without that slash, which a rule with the slash
does not match and a rule without it does.
-/
namespace Hyproxy.PathPrefixes

open PolicyEngine

variable {Role Resource : Type} [DecidableEq Role] [DecidableEq Resource]

/-- The rule with that one allowed path. -/
def onlyPath (rule : PolicyRule Role Resource) (p : List Char) : PolicyRule Role Resource :=
  { rule with allowedPaths := some [p] }

/-- The path goes on after the prefix, from a slash. -/
def Extends (p path : List Char) : Prop := rstripSlash p ++ "/".toList <+: path

/-- The paths that a prefix is to match. -/
def Covers (p path : List Char) : Prop := rstripSlash path = rstripSlash p ∨ Extends p path

/-- A slash at the end makes no difference, and the rule matches what its prefix covers. -/
structure SegmentAware (rule : PolicyRule Role Resource) (s : Subject Role Resource)
    (p path : List Char) : Prop where
  slash : ruleApplies (onlyPath rule p) s path =
    ruleApplies (onlyPath rule (p ++ "/".toList)) s path
  covers : ruleApplies (onlyPath rule p) s path = true ↔ Active rule s ∧ Covers p path

theorem rstripSlash_slash (p : List Char) : rstripSlash (p ++ "/".toList) = rstripSlash p :=
  List.rdropWhile_concat_pos _ _ _ (by decide)

/-- A prefix without its slashes, or one that has some. -/
theorem stripped_or_extends (p : List Char) : p = rstripSlash p ∨ Extends p p := by
  have hsplit : rstripSlash p ++ p.rtakeWhile (· = '/') = p := List.rdropWhile_append_rtakeWhile
  cases hslashes : p.rtakeWhile (· = '/') with
  | nil =>
    rw [hslashes, List.append_nil] at hsplit
    exact Or.inl hsplit.symm
  | cons c more =>
    have hc : c = '/' := by
      have hmem : c ∈ p.rtakeWhile (· = '/') := by rw [hslashes]; simp
      simpa using List.mem_rtakeWhile_imp hmem
    rw [hslashes, hc] at hsplit
    exact Or.inr ⟨more, by rw [List.append_assoc]; exact hsplit⟩

theorem not_extends_stripped (p : List Char) : ¬ Extends p (rstripSlash p) := by
  intro h
  have hlength := h.length_le
  simp only [List.length_append] at hlength
  have hone : "/".toList.length = 1 := rfl
  omega

theorem extends_slash (p : List Char) : Extends p (p ++ "/".toList) := by
  rcases stripped_or_extends p with heq | h
  · exact ⟨[], by rw [List.append_nil, ← heq]⟩
  · exact h.trans (List.prefix_append p _)

theorem extends_slash_iff (p path : List Char) :
    Extends (p ++ "/".toList) path ↔ Extends p path := by
  rw [Extends, Extends, rstripSlash_slash]

theorem covers_iff (p path : List Char) :
    Covers p path ↔ path = rstripSlash p ∨ Extends p path := by
  constructor
  · rintro (heq | h)
    · rcases stripped_or_extends path with hself | hextends
      · exact Or.inl (hself.trans heq)
      · rw [Extends, heq] at hextends
        exact Or.inr hextends
    · exact Or.inr h
  · rintro (rfl | h)
    · exact Or.inl (List.rdropWhile_idempotent _ _)
    · exact Or.inr h

theorem pathAllowed_iff (p path : List Char) (hpath : path.head? = some '/') :
    pathAllowed p path = true ↔ path = p ∨ Extends p path := by
  simp only [pathAllowed, Bool.or_eq_true, beq_iff_eq, List.isPrefixOf_iff_prefix]
  constructor
  · rintro ((heq | h) | rfl)
    · exact Or.inl heq
    · exact Or.inr h
    · obtain ⟨rest, rfl⟩ := List.head?_eq_some_iff.mp hpath
      exact Or.inr ⟨rest, rfl⟩
  · rintro (heq | h)
    · exact Or.inl (Or.inl heq)
    · exact Or.inl (Or.inr h)

theorem pathAllowed_slash_iff (p path : List Char) (hpath : path.head? = some '/') :
    pathAllowed (p ++ "/".toList) path = true ↔ Extends p path := by
  rw [pathAllowed_iff _ path hpath, extends_slash_iff]
  constructor
  · rintro (rfl | h)
    · exact extends_slash p
    · exact h
  · exact Or.inr

theorem ruleApplies_onlyPath (rule : PolicyRule Role Resource) (s : Subject Role Resource)
    (p path : List Char) :
    ruleApplies (onlyPath rule p) s path = true ↔ Active rule s ∧ pathAllowed p path = true := by
  rw [ruleApplies_iff]
  simp [pathsMatch, onlyPath, Active]

/-- A path other than the prefix itself. -/
theorem segmentAware_of_ne (rule : PolicyRule Role Resource) (s : Subject Role Resource)
    (p path : List Char) (hpath : path.head? = some '/') (hne : path ≠ rstripSlash p) :
    SegmentAware rule s p path := by
  have hallowed : pathAllowed p path = true ↔ Extends p path := by
    rw [pathAllowed_iff p path hpath]
    constructor
    · rintro (rfl | h)
      · exact (stripped_or_extends path).resolve_left hne
      · exact h
    · exact Or.inr
  constructor
  · rw [Bool.eq_iff_iff, ruleApplies_onlyPath, ruleApplies_onlyPath, hallowed,
      pathAllowed_slash_iff p path hpath]
  · rw [ruleApplies_onlyPath, hallowed, covers_iff]
    simp [hne]

theorem not_segmentAware (rule : PolicyRule Role Resource) (s : Subject Role Resource)
    (p : List Char) (hactive : Active rule s) (hpath : (rstripSlash p).head? = some '/') :
    ¬ SegmentAware rule s p (rstripSlash p) := by
  intro h
  have hcovered := h.covers.mpr ⟨hactive, (covers_iff p _).mpr (Or.inl rfl)⟩
  have hslash := h.slash
  rw [hcovered] at hslash
  have happlies := ((ruleApplies_onlyPath rule s _ _).mp hslash.symm).2
  exact not_extends_stripped p ((pathAllowed_slash_iff p _ hpath).mp happlies)

/-- Only a prefix of slashes matches every path. -/
theorem pathAllowed_all_iff (p : List Char) :
    (∀ path, path.head? = some '/' → pathAllowed p path = true) ↔ ∀ c ∈ p, c = '/' := by
  have hnil : rstripSlash p = [] ↔ ∀ c ∈ p, c = '/' := by
    rw [rstripSlash, List.rdropWhile_eq_nil_iff]
    simp
  rw [← hnil]
  constructor
  · intro h
    rcases (pathAllowed_iff p "/".toList rfl).mp (h "/".toList rfl) with heq | ⟨rest, hrest⟩
    · rw [← heq]
      decide
    · have hlength := congrArg List.length hrest
      simp only [List.length_append] at hlength
      exact List.length_eq_zero_iff.mp (by
        have hone : "/".toList.length = 1 := rfl
        omega)
  · intro h path hpath
    obtain ⟨rest, rfl⟩ := List.head?_eq_some_iff.mp hpath
    exact (pathAllowed_iff p _ hpath).mpr (Or.inr ⟨rest, by rw [h]; rfl⟩)

/-- A prefix is segment-aware, and a slash at its end makes no difference, for every path but the
prefix without the slashes at its end, as far as the rule applies at all. Only prefixes of slashes
match every path. -/
theorem segmentAware_iff (rule : PolicyRule Role Resource) (s : Subject Role Resource)
    (p path : List Char) (hpath : path.head? = some '/') :
    (SegmentAware rule s p path ↔ ¬ Active rule s ∨ path ≠ rstripSlash p) ∧
      ((∀ path, path.head? = some '/' → pathAllowed p path = true) ↔ ∀ c ∈ p, c = '/') := by
  refine ⟨⟨fun h => ?_, fun h => ?_⟩, pathAllowed_all_iff p⟩
  · by_contra hnot
    simp only [not_or, not_not] at hnot
    obtain ⟨hactive, rfl⟩ := hnot
    exact not_segmentAware rule s p hactive hpath h
  · rcases h with hinactive | hne
    · constructor
      · rw [Bool.eq_iff_iff, ruleApplies_onlyPath, ruleApplies_onlyPath]
        simp [hinactive]
      · rw [ruleApplies_onlyPath]
        simp [hinactive]
    · exact segmentAware_of_ne rule s p path hpath hne

def sampleRule : PolicyRule ℕ ℕ := { roleId := 1, resourceId := 2, action := .deny }

def sampleSubject : Subject ℕ ℕ := ⟨[1], 2, 443, 0⟩

theorem segmentAware_iff_sample :
    "/docs/a".toList.head? = some '/' ∧
      (SegmentAware sampleRule sampleSubject "/docs/".toList "/docs/a".toList ↔
        ¬ Active sampleRule sampleSubject ∨ "/docs/a".toList ≠ rstripSlash "/docs/".toList) ∧
      ((∀ path, path.head? = some '/' → pathAllowed "/docs/".toList path = true) ↔
        ∀ c ∈ "/docs/".toList, c = '/') :=
  ⟨rfl, segmentAware_iff sampleRule sampleSubject "/docs/".toList "/docs/a".toList rfl⟩

/-- A deny on `/docs/` leaves `/docs` alone. -/
theorem docs_slash_matters : ¬ ∀ p path : List Char, p.head? = some '/' → path.head? = some '/' →
    SegmentAware sampleRule sampleSubject p path := by
  intro h
  have hcovers := (h "/docs/".toList "/docs".toList rfl rfl).covers
  have happlies : ruleApplies (onlyPath sampleRule "/docs/".toList) sampleSubject "/docs".toList =
      false := by
    decide
  rw [happlies] at hcovers
  exact absurd (hcovers.mpr ⟨⟨rfl, rfl, by decide, by simp [sampleRule], by decide⟩,
    Or.inl (by decide)⟩) Bool.false_ne_true

end Hyproxy.PathPrefixes

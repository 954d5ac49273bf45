import Hyproxy.GlobLanguage
import Hyproxy.PublicGate

/-!
Where the password gate of a public host sends its visitor. A return path of the
request is kept when it is a path of the host that the allowlist exposes; else the
fixed prefix of the first pattern is taken, which the allowlist need not expose.
-/
namespace Hyproxy.ReturnPath

open GlobLanguage
open PathGlob
open PublicGate (literalPrefix safeRd)
open Text (cut)

/-- An absolute path that stays on its host. -/
structure SameOrigin (text : List Char) : Prop where
  rooted : text.head? = some '/'
  not_double : ¬ "//".toList <+: text
  no_backslash : '\\' ∉ text

/-- The text before the query and the fragment. -/
def pathPart (text : List Char) : List Char := (cut '#' (cut '?' text).1).1

/-- A return path that is to be kept. -/
structure Qualifies (rd : List Char) (paths : List Pattern) : Prop where
  sameOrigin : SameOrigin rd
  exposed : matchesPath (some paths) (pathPart rd) = true

/-- A character that ends the plain part of a pattern. -/
def ends (c : Char) : Bool := c == '*' || c == '?' || c == '#'

def plainPart (p : Pattern) : List Char := p.takeWhile fun c => !ends c

/-- Nothing but stars follows the plain part. -/
def OnlyStars (p : Pattern) : Prop := ∀ c ∈ p.dropWhile fun c => !ends c, c = '*'

theorem pathPart_literalPrefix (p : Pattern) (h : (cut '*' p).1 ≠ []) :
    pathPart (literalPrefix p) = plainPart p := by
  rw [literalPrefix, if_neg h]
  simp only [pathPart, cut, plainPart, List.takeWhile_takeWhile]
  congr 1
  funext c
  rw [Bool.eq_iff_iff]
  simp only [ends, decide_eq_true_eq, Bool.not_eq_true', Bool.or_eq_false_iff, beq_eq_false_iff_ne]
  exact ⟨fun h => ⟨⟨h.2.2, h.2.1⟩, h.1⟩, fun h => ⟨h.2, h.1.2, h.1.1⟩⟩

theorem literalPrefix_prefix (p : Pattern) (h : (cut '*' p).1 ≠ []) : literalPrefix p <+: p := by
  rw [literalPrefix, if_neg h]
  exact List.takeWhile_prefix _

/-- The fixed prefix of an accepted pattern. -/
theorem prefix_sameOrigin (p : Pattern) (h : Valid p) :
    (cut '*' p).1 ≠ [] ∧ SameOrigin (literalPrefix p) := by
  obtain ⟨tail, rfl⟩ := valid_rooted p h
  have hne : (cut '*' ('/' :: tail)).1 ≠ [] := by simp [cut]
  have hliteral := literalPrefix_prefix _ hne
  refine ⟨hne, ?_, fun hdouble => h.not_double (hdouble.trans hliteral),
    fun hmem => h.no_backslash (hliteral.subset hmem)⟩
  rw [literalPrefix, if_neg hne]
  simp [cut]

/-- A text without stars matches itself, and leaves the rest of the pattern what follows it. -/
theorem regexMatch_plain (word rest : Pattern) (text : List Char) (h : '*' ∉ word) :
    regexMatch (translate (word ++ rest)) (word ++ text) = regexMatch (translate rest) text := by
  induction word with
  | nil => rfl
  | cons c word ih =>
    rw [List.mem_cons, not_or] at h
    rw [List.cons_append, List.cons_append, translate_literal c _ (Ne.symm h.1), regexMatch,
      ih h.2, beq_self_eq_true, Bool.true_and]

theorem nil_match_iff (p : Pattern) : regexMatch (translate p) [] = true ↔ ∀ c ∈ p, c = '*' := by
  rw [regexMatch_iff_language p [] List.not_mem_nil]
  constructor
  · exact stars_of_nil_mem p
  · intro h
    rw [List.eq_replicate_of_mem h]
    exact nil_mem_stars p.length

/-- The first pattern matches its own plain part when only stars follow it. -/
theorem plainPart_match_iff (p : Pattern) :
    regexMatch (translate p) (plainPart p) = true ↔ OnlyStars p := by
  have hplain : '*' ∉ plainPart p := by
    intro hmem
    exact absurd (List.mem_takeWhile_imp hmem) (by decide)
  have hsplit : plainPart p ++ p.dropWhile (fun c => !ends c) = p := List.takeWhile_append_dropWhile
  have h := regexMatch_plain (plainPart p) (p.dropWhile fun c => !ends c) [] hplain
  rw [hsplit, List.append_nil] at h
  rw [h, nil_match_iff, OnlyStars]

theorem safeRd_cases (rd : List Char) (first : Pattern) (others : List Pattern) :
    (Qualifies rd (first :: others) ∧ safeRd rd (some (first :: others)) = rd) ∨
      (¬ Qualifies rd (first :: others) ∧
        safeRd rd (some (first :: others)) = literalPrefix first) := by
  unfold safeRd
  simp only [Option.getD_some, List.head?_cons]
  split_ifs with hshape hmatch
  · refine Or.inr ⟨fun h => ?_, rfl⟩
    simp only [Bool.or_eq_true, decide_eq_true_eq, bne_iff_ne, List.isPrefixOf_iff_prefix,
      List.contains_iff_mem] at hshape
    rcases hshape with ((rfl | hroot) | hdouble) | hbackslash
    · exact absurd h.sameOrigin.rooted (by simp)
    · exact hroot h.sameOrigin.rooted
    · exact h.sameOrigin.not_double hdouble
    · exact h.sameOrigin.no_backslash hbackslash
  · simp only [Bool.or_eq_true, decide_eq_true_eq, bne_iff_ne, List.isPrefixOf_iff_prefix,
      List.contains_iff_mem, not_or, not_not] at hshape
    obtain ⟨⟨⟨-, hroot⟩, hdouble⟩, hbackslash⟩ := hshape
    exact Or.inl ⟨⟨⟨hroot, hdouble, hbackslash⟩, hmatch⟩, rfl⟩
  · exact Or.inr ⟨fun h => hmatch h.exposed, rfl⟩

/-- The gate sends its visitor to a path of the host: to the one that was asked for where that
qualifies, and to the fixed prefix of the first pattern where it does not. Its path part is exposed
when the request qualifies, or the plain part of the first pattern is: by that pattern when only
stars follow, or by another one. -/
theorem safeRd_spec (rd : List Char) (raws accepted : List Pattern)
    (hok : validatePatterns raws = .ok accepted) :
    ∃ first others, accepted = first :: others ∧
      SameOrigin (safeRd rd (some accepted)) ∧
      (Qualifies rd accepted → safeRd rd (some accepted) = rd) ∧
      (¬ Qualifies rd accepted → safeRd rd (some accepted) = literalPrefix first) ∧
      (matchesPath (some accepted) (pathPart (safeRd rd (some accepted))) = true ↔
        Qualifies rd accepted ∨ OnlyStars first ∨
          matchesPath (some others) (plainPart first) = true) := by
  obtain ⟨hne, hvalid, -, -⟩ := validatePatterns_ok raws accepted hok
  obtain ⟨first, others, rfl⟩ := List.exists_cons_of_ne_nil hne
  obtain ⟨hcut, horigin⟩ := prefix_sameOrigin first (hvalid first (List.mem_cons_self ..))
  refine ⟨first, others, rfl, ?_⟩
  rcases safeRd_cases rd first others with ⟨hq, heq⟩ | ⟨hq, heq⟩
  · rw [heq]
    exact ⟨hq.sameOrigin, fun _ => rfl, fun h => absurd hq h, fun _ => Or.inl hq, fun _ => hq.exposed⟩
  · rw [heq, pathPart_literalPrefix first hcut]
    refine ⟨horigin, fun h => absurd h hq, fun _ => rfl, ?_⟩
    simp only [hq, false_or, matchesPath_some_iff, List.mem_cons, exists_eq_or_imp,
      plainPart_match_iff]

theorem safeRd_spec_sample :
    validatePatterns ["/docs/**".toList] = .ok ["/docs/**".toList] ∧
      ∃ first others, ["/docs/**".toList] = first :: others ∧
        SameOrigin (safeRd "/docs/a?page=2".toList (some ["/docs/**".toList])) ∧
        (Qualifies "/docs/a?page=2".toList ["/docs/**".toList] →
          safeRd "/docs/a?page=2".toList (some ["/docs/**".toList]) = "/docs/a?page=2".toList) ∧
        (¬ Qualifies "/docs/a?page=2".toList ["/docs/**".toList] →
          safeRd "/docs/a?page=2".toList (some ["/docs/**".toList]) = literalPrefix first) ∧
        (matchesPath (some ["/docs/**".toList])
            (pathPart (safeRd "/docs/a?page=2".toList (some ["/docs/**".toList]))) = true ↔
          Qualifies "/docs/a?page=2".toList ["/docs/**".toList] ∨ OnlyStars first ∨
            matchesPath (some others) (plainPart first) = true) :=
  ⟨by decide, safeRd_spec _ ["/docs/**".toList] _ (by decide)⟩

/-- The list `/assets/*.js` sends its visitors to `/assets/`, which it does not expose. -/
theorem assets_prefix_unexposed : ¬ ∀ rd raws accepted, validatePatterns raws = .ok accepted →
    matchesPath (some accepted) (pathPart (safeRd rd (some accepted))) = true := by
  intro h
  have hexposed := h [] ["/assets/*.js".toList] ["/assets/*.js".toList] (by decide)
  revert hexposed
  decide

end Hyproxy.ReturnPath

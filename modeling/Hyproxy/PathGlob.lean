import Hyproxy.DotSegments
import Hyproxy.Text
import Mathlib.Data.Bool.AllAny
import Mathlib.Data.List.Forall2

/-!
The allowlist of a public resource (`policy/pathglob.py`): glob patterns, their
translation to anchored regular expressions, the matcher and the checks made
when a list is saved. The data plane forwards the path it was asked for, so the
allowlist bounds what a normalising backend serves only for some spellings:
the last section says for which.
-/
namespace Hyproxy.PathGlob

open DotSegments Text

abbrev Pattern := List Char

def maxPatternLength : ℕ := 512

def maxPatterns : ℕ := 64

/-- The pieces of regular expression that `_translate` emits: `.*`, `[^/]*` and
an escaped character. -/
inductive Atom
  | dotStar
  | notSlashStar
  | literal (c : Char)
  deriving Repr, DecidableEq

def translate : Pattern → List Atom
  | [] => []
  | [c] => [if c = '*' then .notSlashStar else .literal c]
  | c :: next :: rest =>
    if c = '*' then
      if next = '*' then .dotStar :: translate rest
      else .notSlashStar :: translate (next :: rest)
    else .literal c :: translate (next :: rest)

/-- A starred character class followed by the rest of the expression. -/
def starMatch (cls : Char → Bool) (next : List Char → Bool) : List Char → Bool
  | [] => next []
  | c :: rest => next (c :: rest) || (cls c && starMatch cls next rest)

/-- `rx.match` of the expression between `\A` and `\Z`; the dot of Python's
`re` is every character but a line feed. -/
def regexMatch : List Atom → List Char → Bool
  | [], path => path.isEmpty
  | .literal _ :: _, [] => false
  | .literal c :: rest, d :: path => c == d && regexMatch rest path
  | .notSlashStar :: rest, path => starMatch (· != '/') (regexMatch rest) path
  | .dotStar :: rest, path => starMatch (· != '\n') (regexMatch rest) path

def compilePatterns (patterns : List Pattern) : List (List Atom) := patterns.map translate

/-- `matches`: the path is exposed by one of the patterns; no patterns expose nothing. -/
def matchesPath (patterns : Option (List Pattern)) (path : List Char) : Bool :=
  match patterns with
  | none => false
  | some ps => (compilePatterns ps).any (fun rx => regexMatch rx path)

inductive PatternError
  | empty
  | tooLong
  | nulByte
  | noLeadingSlash
  | doubleSlash
  | backslash
  | dotDotSegment
  | wholeHost
  | tooManyPatterns
  | noPatterns
  deriving Repr, DecidableEq

def PatternError.message : PatternError → String
  | .empty => "pattern is empty"
  | .tooLong => "pattern is longer than 512 characters"
  | .nulByte => "pattern contains a NUL byte"
  | .noLeadingSlash => "pattern must start with '/'"
  | .doubleSlash => "pattern must not start with '//'"
  | .backslash => "pattern must not contain a backslash"
  | .dotDotSegment => "pattern must not contain a '..' segment"
  | .wholeHost => "pattern would expose the whole host; list the paths to publish instead"
  | .tooManyPatterns => "at most 64 patterns are allowed"
  | .noPatterns => "at least one path pattern is required"

def validatePattern (pattern : Pattern) : Except PatternError Pattern :=
  let p := strip pattern
  if p = [] then .error .empty
  else if maxPatternLength < p.length then .error .tooLong
  else if '\x00' ∈ p then .error .nulByte
  else if ¬ "/".toList <+: p then .error .noLeadingSlash
  else if "//".toList <+: p then .error .doubleSlash
  else if '\\' ∈ p then .error .backslash
  else if "..".toList ∈ segments p then .error .dotDotSegment
  else if p = "/*".toList ∨ p = "/**".toList ∨ p = "/".toList then .error .wholeHost
  else .ok p

/-- The loop of `validate_patterns`: the patterns kept so far are also the seen ones. -/
def validateLoop : List Pattern → List Pattern → Except PatternError (List Pattern)
  | [], out => .ok out
  | raw :: rest, out =>
    match validatePattern raw with
    | .error e => .error e
    | .ok p => validateLoop rest (if p ∈ out then out else out ++ [p])

def validatePatterns (patterns : List Pattern) : Except PatternError (List Pattern) :=
  if maxPatterns < patterns.length then .error .tooManyPatterns
  else
    match validateLoop patterns [] with
    | .error e => .error e
    | .ok [] => .error .noPatterns
    | .ok out => .ok out

theorem starMatch_iff (cls : Char → Bool) (next : List Char → Bool) (path : List Char) :
    starMatch cls next path = true ↔
      ∃ taken rest, path = taken ++ rest ∧ (∀ c ∈ taken, cls c = true) ∧ next rest = true := by
  induction path with
  | nil =>
    constructor
    · intro h
      exact ⟨[], [], rfl, by simp, h⟩
    · rintro ⟨taken, rest, heq, -, h⟩
      obtain ⟨-, rfl⟩ := List.append_eq_nil_iff.mp heq.symm
      exact h
  | cons c path ih =>
    rw [starMatch, Bool.or_eq_true, Bool.and_eq_true, ih]
    constructor
    · rintro (h | ⟨hc, taken, rest, rfl, hcls, h⟩)
      · exact ⟨[], c :: path, rfl, by simp, h⟩
      · exact ⟨c :: taken, rest, rfl, by simpa using ⟨hc, hcls⟩, h⟩
    · rintro ⟨taken, rest, heq, hcls, h⟩
      cases taken with
      | nil => exact Or.inl (by rw [heq]; exact h)
      | cons d taken =>
        obtain ⟨rfl, rfl⟩ := List.cons.inj heq
        exact Or.inr ⟨hcls c (by simp), taken, rest, rfl, fun d hd => hcls d (by simp [hd]), h⟩

theorem matchesPath_some_iff (patterns : List Pattern) (path : List Char) :
    matchesPath (some patterns) path = true ↔
      ∃ p ∈ patterns, regexMatch (translate p) path = true := by
  simp [matchesPath, compilePatterns]

/-- What every accepted pattern is: stripped, bounded, rooted and without `..`. -/
structure Valid (p : Pattern) : Prop where
  length_le : p.length ≤ maxPatternLength
  no_nul : '\x00' ∉ p
  rooted : "/".toList <+: p
  not_double : ¬ "//".toList <+: p
  no_backslash : '\\' ∉ p
  no_dotDot : "..".toList ∉ segments p
  not_whole : p ≠ "/*".toList ∧ p ≠ "/**".toList ∧ p ≠ "/".toList

theorem validatePattern_ok_iff (raw p : Pattern) :
    validatePattern raw = .ok p ↔ strip raw = p ∧ Valid p := by
  unfold validatePattern
  constructor
  · intro h
    simp only at h
    repeat' split at h
    all_goals first
      | contradiction
      | skip
    obtain rfl : strip raw = p := by simpa using h
    refine ⟨rfl, ?_⟩
    constructor <;> simp_all
  · rintro ⟨rfl, hv⟩
    have hne : strip raw ≠ [] := by
      intro h
      have := hv.rooted
      rw [h] at this
      exact absurd this (by decide)
    have hwhole : ¬ (strip raw = "/*".toList ∨ strip raw = "/**".toList ∨
        strip raw = "/".toList) := by
      simpa only [not_or] using hv.not_whole
    simp only
    rw [if_neg hne, if_neg (Nat.not_lt.mpr hv.length_le), if_neg hv.no_nul,
      if_neg (not_not.mpr hv.rooted), if_neg hv.not_double, if_neg hv.no_backslash,
      if_neg hv.no_dotDot, if_neg hwhole]

theorem validateLoop_ok (raws out accepted : List Pattern)
    (hok : validateLoop raws out = .ok accepted) (hout : ∀ p ∈ out, Valid p) (hnodup : out.Nodup) :
    (∀ p ∈ accepted, Valid p) ∧ accepted.Nodup ∧ accepted.length ≤ out.length + raws.length := by
  induction raws generalizing out with
  | nil =>
    obtain rfl : out = accepted := by simpa [validateLoop] using hok
    exact ⟨hout, hnodup, by simp⟩
  | cons raw rest ih =>
    rw [validateLoop] at hok
    split at hok
    · cases hok
    · rename_i p hp
      have hvalid := ((validatePattern_ok_iff raw p).mp hp).2
      by_cases hmem : p ∈ out
      · rw [if_pos hmem] at hok
        obtain ⟨h1, h2, h3⟩ := ih out hok hout hnodup
        exact ⟨h1, h2, by rw [List.length_cons]; omega⟩
      · rw [if_neg hmem] at hok
        obtain ⟨h1, h2, h3⟩ := ih (out ++ [p]) hok
          (by simpa [or_imp, forall_and] using ⟨hout, hvalid⟩)
          (List.nodup_append.mpr ⟨hnodup, by simp, by
            intro a ha b hb
            rw [List.mem_singleton] at hb
            rintro rfl
            exact hmem (hb ▸ ha)⟩)
        refine ⟨h1, h2, ?_⟩
        simp only [List.length_append, List.length_cons, List.length_nil] at h3 ⊢
        omega

/-- An accepted allowlist is not empty, has no duplicates and holds valid patterns only. -/
theorem validatePatterns_ok (raws accepted : List Pattern)
    (hok : validatePatterns raws = .ok accepted) :
    accepted ≠ [] ∧ (∀ p ∈ accepted, Valid p) ∧ accepted.Nodup ∧
      accepted.length ≤ maxPatterns := by
  unfold validatePatterns at hok
  split at hok
  · cases hok
  · rename_i hlen
    split at hok
    · cases hok
    · cases hok
    · rename_i out hne hloop
      obtain rfl : out = accepted := by simpa using hok
      obtain ⟨hvalid, hnodup, hle⟩ := validateLoop_ok raws [] out hloop (by simp) List.nodup_nil
      refine ⟨?_, hvalid, hnodup, ?_⟩
      · rintro rfl
        exact hne rfl
      · rw [List.length_nil, Nat.zero_add] at hle
        omega

theorem validatePatterns_singleton (p : Pattern) (hstrip : strip p = p) (hvalid : Valid p) :
    validatePatterns [p] = .ok [p] := by
  have hp : validatePattern p = .ok p := (validatePattern_ok_iff p p).mpr ⟨hstrip, hvalid⟩
  simp [validatePatterns, validateLoop, hp, maxPatterns]

theorem translate_rooted (p : Pattern) (hroot : "/".toList <+: p) :
    ∃ rest, translate p = .literal '/' :: rest := by
  obtain ⟨tail, rfl⟩ := hroot
  cases tail with
  | nil => exact ⟨[], by decide⟩
  | cons c rest => exact ⟨translate (c :: rest), by simp [translate]⟩

/-- An accepted list exposes rooted paths only. -/
theorem rooted_of_matchesPath (raws accepted : List Pattern) (path : List Char)
    (hok : validatePatterns raws = .ok accepted)
    (hmatch : matchesPath (some accepted) path = true) : path.head? = some '/' := by
  obtain ⟨p, hp, hrx⟩ := (matchesPath_some_iff accepted path).mp hmatch
  have hvalid := (validatePatterns_ok raws accepted hok).2.1 p hp
  obtain ⟨rest, htr⟩ := translate_rooted p hvalid.rooted
  rw [htr] at hrx
  cases path with
  | nil => simp [regexMatch] at hrx
  | cons c tail =>
    rw [regexMatch, Bool.and_eq_true, beq_iff_eq] at hrx
    rw [← hrx.1, List.head?_cons]

/-- The pattern that tells a path from its normal form: dot segments stay, with a
star where `..` is refused, and every other segment becomes a star. -/
def globSegment (seg : Segment) : Segment :=
  if seg = ".".toList then ".".toList
  else if seg = "..".toList then ".*".toList
  else "*".toList

def separatingPattern (segs : List Segment) : Pattern := absolute (segs.map globSegment)

theorem globSegment_cases (seg : Segment) :
    (seg = ".".toList ∧ globSegment seg = ".".toList) ∨
      (seg = "..".toList ∧ globSegment seg = ".*".toList) ∨
      (¬ IsDot seg ∧ globSegment seg = "*".toList) := by
  by_cases h1 : seg = ".".toList
  · subst h1
    exact Or.inl ⟨rfl, by decide⟩
  · by_cases h2 : seg = "..".toList
    · subst h2
      exact Or.inr (Or.inl ⟨rfl, by decide⟩)
    · exact Or.inr (Or.inr ⟨not_or.mpr ⟨h1, h2⟩, by rw [globSegment, if_neg h1, if_neg h2]⟩)

def globAtoms (seg : Segment) : List Atom :=
  if seg = ".".toList then [.literal '.']
  else if seg = "..".toList then [.literal '.', .notSlashStar]
  else [.notSlashStar]

theorem translate_separatingPattern (seg : Segment) (segs : List Segment) :
    translate (separatingPattern (seg :: segs)) =
      .literal '/' :: (globAtoms seg ++ translate (separatingPattern segs)) := by
  have hnext : separatingPattern segs = [] ∨
      ∃ tail, separatingPattern segs = '/' :: tail := by
    cases segs with
    | nil => exact Or.inl rfl
    | cons next more => exact Or.inr ⟨_, by rw [separatingPattern, List.map_cons, absolute_cons]⟩
  have hcons : separatingPattern (seg :: segs) =
      '/' :: (globSegment seg ++ separatingPattern segs) := by
    rw [separatingPattern, List.map_cons, absolute_cons]
    rfl
  rw [hcons]
  rcases globSegment_cases seg with ⟨rfl, hg⟩ | ⟨rfl, hg⟩ | ⟨hdot, hg⟩
  all_goals
    rw [hg]
    rcases hnext with hnext | ⟨tail, hnext⟩ <;> rw [hnext]
  all_goals try (simp [translate, globAtoms]; done)
  all_goals
    rw [IsDot, not_or] at hdot
    rw [globAtoms, if_neg hdot.1, if_neg hdot.2]
    simp [translate]

/-- The segments that the pattern of `seg` matches. -/
def Fits (seg s : Segment) : Prop :=
  '/' ∉ s ∧ (seg = ".".toList → s = ".".toList) ∧ (seg = "..".toList → s.head? = some '.')

theorem regexMatch_literal_iff (c : Char) (atoms : List Atom) (path : List Char) :
    regexMatch (.literal c :: atoms) path = true ↔
      ∃ rest, path = c :: rest ∧ regexMatch atoms rest = true := by
  cases path with
  | nil => simp [regexMatch]
  | cons d rest =>
    rw [regexMatch, Bool.and_eq_true, beq_iff_eq]
    constructor
    · rintro ⟨rfl, h⟩
      exact ⟨rest, rfl, h⟩
    · rintro ⟨tail, heq, h⟩
      obtain ⟨rfl, rfl⟩ := List.cons.inj heq
      exact ⟨rfl, h⟩

theorem regexMatch_star_iff (atoms : List Atom) (path : List Char) :
    regexMatch (.notSlashStar :: atoms) path = true ↔
      ∃ s rest, path = s ++ rest ∧ '/' ∉ s ∧ regexMatch atoms rest = true := by
  rw [regexMatch, starMatch_iff]
  have hcls : ∀ s : List Char, (∀ c ∈ s, (c != '/') = true) ↔ '/' ∉ s := by
    intro s
    simp only [bne_iff_ne, ne_eq]
    exact ⟨fun h hmem => h '/' hmem rfl, fun h c hc heq => h (heq ▸ hc)⟩
  simp only [hcls]

theorem regexMatch_glob_iff (seg : Segment) (atoms : List Atom) (path : List Char) :
    regexMatch (globAtoms seg ++ atoms) path = true ↔
      ∃ s rest, path = s ++ rest ∧ Fits seg s ∧ regexMatch atoms rest = true := by
  unfold globAtoms Fits
  split
  · rename_i hseg
    subst hseg
    rw [List.singleton_append, regexMatch_literal_iff]
    constructor
    · rintro ⟨rest, rfl, h⟩
      exact ⟨['.'], rest, rfl, by decide, h⟩
    · rintro ⟨s, rest, rfl, ⟨-, hs, -⟩, h⟩
      exact ⟨rest, by rw [hs rfl]; rfl, h⟩
  · split
    · rename_i hseg
      subst hseg
      rw [List.cons_append, List.singleton_append, regexMatch_literal_iff]
      constructor
      · rintro ⟨tail, rfl, h⟩
        obtain ⟨s, rest, rfl, hs, h⟩ := (regexMatch_star_iff atoms tail).mp h
        refine ⟨'.' :: s, rest, rfl, ⟨?_, fun h => absurd h (by decide), fun _ => rfl⟩, h⟩
        simpa using hs
      · rintro ⟨s, rest, rfl, ⟨hs, -, hhead⟩, h⟩
        obtain ⟨tail, rfl⟩ := List.head?_eq_some_iff.mp (hhead rfl)
        refine ⟨tail ++ rest, rfl, (regexMatch_star_iff atoms _).mpr ⟨tail, rest, rfl, ?_, h⟩⟩
        exact fun hmem => hs (List.mem_cons_of_mem _ hmem)
    · rename_i h1 h2
      rw [List.singleton_append, regexMatch_star_iff]
      simp only [h1, h2, false_implies, and_true]

theorem separatingPattern_matches (segs : List Segment) (hfree : ∀ s ∈ segs, '/' ∉ s) :
    regexMatch (translate (separatingPattern segs)) (absolute segs) = true := by
  induction segs with
  | nil => rfl
  | cons seg rest ih =>
    rw [translate_separatingPattern, absolute_cons, regexMatch_literal_iff]
    refine ⟨_, rfl, (regexMatch_glob_iff seg _ _).mpr ⟨seg, absolute rest, rfl, ?_, ?_⟩⟩
    · exact ⟨hfree seg (by simp), id, fun h => by rw [h]; rfl⟩
    · exact ih (fun s hs => hfree s (List.mem_cons_of_mem _ hs))

theorem fits_of_separatingPattern (segs : List Segment) (path : List Char)
    (h : regexMatch (translate (separatingPattern segs)) path = true) :
    ∃ outs, path = absolute outs ∧ (∀ s ∈ outs, '/' ∉ s) ∧ List.Forall₂ Fits segs outs := by
  induction segs generalizing path with
  | nil =>
    have hnil : path = [] := by simpa [separatingPattern, translate, regexMatch] using h
    exact ⟨[], hnil, by simp, List.Forall₂.nil⟩
  | cons seg rest ih =>
    rw [translate_separatingPattern, regexMatch_literal_iff] at h
    obtain ⟨tail, rfl, h⟩ := h
    obtain ⟨s, more, rfl, hs, h⟩ := (regexMatch_glob_iff seg _ tail).mp h
    obtain ⟨outs, rfl, hfree, houts⟩ := ih more h
    refine ⟨s :: outs, by rw [absolute_cons], ?_, List.Forall₂.cons hs houts⟩
    simpa using ⟨hs.1, hfree⟩

theorem fits_getLast (segs outs : List Segment) (h : List.Forall₂ Fits segs outs) (seg : Segment)
    (hlast : segs.getLast? = some seg) : ∃ s, outs.getLast? = some s ∧ Fits seg s := by
  induction h with
  | nil => simp at hlast
  | @cons a b l₁ l₂ hab htail ih =>
    cases htail with
    | nil =>
      obtain rfl : a = seg := by simpa using hlast
      exact ⟨b, rfl, hab⟩
    | cons hcd hmore =>
      rw [List.getLast?_cons_cons] at hlast ⊢
      exact ih hlast

/-- The normal form of a path with a dot segment has fewer segments, or ends in an
empty one where the path ends in a dot. -/
theorem not_fits_resolve (segs : List Segment) (hdot : ∃ s ∈ segs, IsDot s) :
    ¬ List.Forall₂ Fits segs (resolve [] segs) := by
  intro hfits
  have hlen := hfits.length_eq
  by_cases hlast : ∃ s ∈ segs.getLast?, IsDot s
  · have hempty := resolve_getLast_of_dot [] segs hlast
    obtain ⟨seg, hseg, hsegdot⟩ := hlast
    obtain ⟨s, hs, hfit⟩ := fits_getLast segs _ hfits seg hseg
    obtain rfl : [] = s := by simpa [hempty] using hs
    rcases hsegdot with rfl | rfl
    · exact absurd (hfit.2.1 rfl) (by decide)
    · exact absurd (hfit.2.2 rfl) (by decide)
  · have hlt := resolve_length_lt [] segs hdot (fun s hs hsdot => hlast ⟨s, hs, hsdot⟩)
    rw [List.length_nil, Nat.zero_add] at hlt
    omega

theorem separatingPattern_rejects (segs : List Segment) (hfree : ∀ s ∈ segs, '/' ∉ s)
    (hdot : ∃ s ∈ segs, IsDot s) :
    regexMatch (translate (separatingPattern segs)) (absolute (resolve [] segs)) = false := by
  rw [← Bool.not_eq_true]
  intro h
  obtain ⟨outs, heq, houts, hfits⟩ := fits_of_separatingPattern segs _ h
  have hres := resolve_slashFree [] segs (by simp) hfree
  obtain rfl := absolute_injective _ outs hres houts heq
  exact not_fits_resolve segs hdot hfits

theorem globSegment_mem (seg : Segment) :
    globSegment seg ∈ [".".toList, ".*".toList, "*".toList] := by
  rcases globSegment_cases seg with ⟨-, h⟩ | ⟨-, h⟩ | ⟨-, h⟩ <;> rw [h] <;> decide

theorem globSegment_slashFree (segs : List Segment) : ∀ g ∈ segs.map globSegment, '/' ∉ g := by
  intro g hg
  obtain ⟨seg, -, rfl⟩ := List.mem_map.mp hg
  have h : ∀ g ∈ [".".toList, ".*".toList, "*".toList], '/' ∉ g := by decide
  exact h _ (globSegment_mem seg)

theorem separatingPattern_chars (segs : List Segment) :
    ∀ c ∈ separatingPattern segs, c ∈ ['/', '.', '*'] := by
  intro c hc
  obtain ⟨g, hg, hc⟩ := List.mem_flatMap.mp hc
  obtain ⟨seg, -, rfl⟩ := List.mem_map.mp hg
  have h : ∀ g ∈ [".".toList, ".*".toList, "*".toList], ∀ c ∈ '/' :: g,
      c ∈ ['/', '.', '*'] := by simp
  exact h _ (globSegment_mem seg) c hc

theorem separatingPattern_length (segs : List Segment) :
    (separatingPattern segs).length ≤ 3 * segs.length := by
  induction segs with
  | nil => simp [separatingPattern]
  | cons seg rest ih =>
    have h : ∀ g ∈ [".".toList, ".*".toList, "*".toList], g.length ≤ 2 := by decide
    have hseg := h _ (globSegment_mem seg)
    have hcons : separatingPattern (seg :: rest) =
        '/' :: (globSegment seg ++ separatingPattern rest) := by
      rw [separatingPattern, List.map_cons, absolute_cons]
      rfl
    rw [hcons]
    simp only [List.length_cons, List.length_append]
    omega

theorem separatingPattern_segments (segs : List Segment) :
    segments (separatingPattern segs) = [] :: segs.map globSegment := by
  have h := segments_absolute [] (segs.map globSegment)
    (by simpa using globSegment_slashFree segs)
  simpa [separatingPattern] using h

theorem separatingPattern_valid (segs : List Segment) (hlen : segs.length ≤ 170)
    (hdot : ∃ s ∈ segs, IsDot s) : Valid (separatingPattern segs) := by
  have hchars := separatingPattern_chars segs
  have hsegs := separatingPattern_segments segs
  have hmem : ∃ g ∈ segs.map globSegment, g ≠ "*".toList ∧ g ≠ "**".toList ∧ g ≠ [] := by
    obtain ⟨s, hs, hsdot⟩ := hdot
    refine ⟨globSegment s, List.mem_map_of_mem hs, ?_⟩
    rcases hsdot with rfl | rfl <;> decide
  obtain ⟨first, rest, rfl⟩ : ∃ first rest, segs = first :: rest := by
    obtain ⟨s, hs, -⟩ := hdot
    exact List.exists_cons_of_ne_nil (List.ne_nil_of_mem hs)
  refine ⟨?_, ?_, ?_, ?_, ?_, ?_, ?_⟩
  · have h := separatingPattern_length (first :: rest)
    unfold maxPatternLength
    omega
  · exact fun h => absurd (hchars _ h) (by decide)
  · exact ⟨_, by rw [separatingPattern, List.map_cons, absolute_cons]; rfl⟩
  · rintro ⟨tail, htail⟩
    have hsplit : segments (separatingPattern (first :: rest)) = [] :: [] :: segments tail := by
      rw [← htail, show "//".toList ++ tail = '/' :: '/' :: tail by rfl, segments_slash,
        segments_slash]
    rw [hsegs] at hsplit
    obtain ⟨-, hsplit⟩ := List.cons.inj hsplit
    have hfirst := (List.cons.inj hsplit).1
    have hg := globSegment_mem first
    rw [hfirst] at hg
    exact absurd hg (by decide)
  · exact fun h => absurd (hchars _ h) (by decide)
  · rw [hsegs]
    intro h
    rcases List.mem_cons.mp h with h | h
    · exact absurd h (by decide)
    · obtain ⟨seg, -, hseg⟩ := List.mem_map.mp h
      have hg := globSegment_mem seg
      rw [hseg] at hg
      exact absurd hg (by decide)
  · obtain ⟨g, hg, h1, h2, h3⟩ := hmem
    have hother : ∀ word ∈ ["*".toList, "**".toList, []],
        separatingPattern (first :: rest) ≠ '/' :: word := by
      intro word hword heq
      rw [heq, segments_slash] at hsegs
      have hsingle : segments word = [word] := by
        have h : ∀ w ∈ ["*".toList, "**".toList, []], segments w = [w] := by decide
        exact h word hword
      rw [hsingle] at hsegs
      rw [← (List.cons.inj hsegs).2, List.mem_singleton] at hg
      subst hg
      simp only [List.mem_cons, List.not_mem_nil, or_false] at hword
      rcases hword with hword | hword | hword
      · exact h1 hword
      · exact h2 hword
      · exact h3 hword
    exact ⟨hother "*".toList (by simp), hother "**".toList (by simp), hother [] (by simp)⟩

/-- Whatever accepted list exposes the path also exposes its normal form. -/
def Contained (path : List Char) : Prop :=
  ∀ raws accepted, validatePatterns raws = .ok accepted →
    matchesPath (some accepted) path = true →
      matchesPath (some accepted) (removeDotSegments path) = true

theorem contained_of_dotFree (path : List Char) (h : DotFree path ∨ path.head? ≠ some '/') :
    Contained path := by
  intro raws accepted hok hmatch
  rcases h with hdot | hroot
  · rw [removeDotSegments_dotFree path hdot]
    exact hmatch
  · exact absurd (rooted_of_matchesPath raws accepted path hok hmatch) hroot

theorem not_contained_of_dot (segs : List Segment) (hfree : ∀ s ∈ segs, '/' ∉ s)
    (hlen : segs.length ≤ 170) (hdot : ∃ s ∈ segs, IsDot s) : ¬ Contained (absolute segs) := by
  intro hcontained
  have hstrip : strip (separatingPattern segs) = separatingPattern segs := by
    refine strip_eq_self _ (fun c hc => ?_)
    have h : ∀ c ∈ ['/', '.', '*'], isSpace c = false :=
      List.all_iff_forall_prop.mp (by decide)
    exact h c (separatingPattern_chars segs c hc)
  have hvalid := separatingPattern_valid segs hlen hdot
  have hmatch : matchesPath (some [separatingPattern segs]) (absolute segs) = true :=
    (matchesPath_some_iff _ _).mpr ⟨_, by simp, separatingPattern_matches segs hfree⟩
  have h := hcontained _ _ (validatePatterns_singleton _ hstrip hvalid) hmatch
  rw [removeDotSegments_absolute segs hfree, matchesPath_some_iff] at h
  obtain ⟨p, hp, hrx⟩ := h
  rw [List.mem_singleton] at hp
  subst hp
  rw [separatingPattern_rejects segs hfree hdot] at hrx
  cases hrx

/-- The allowlist contains the normal form of every path without a dot segment, and, up
to the number of segments that a pattern has room for, of no other rooted path. -/
theorem publicPaths_contained_iff_dotFree (path : List Char) :
    (DotFree path ∨ path.head? ≠ some '/' → Contained path) ∧
      ((segments path).length ≤ 171 →
        (Contained path ↔ DotFree path ∨ path.head? ≠ some '/')) := by
  refine ⟨contained_of_dotFree path, fun hlen => ⟨fun hcontained => ?_, contained_of_dotFree path⟩⟩
  by_contra hnot
  rw [not_or, not_not] at hnot
  obtain ⟨hdot, hroot⟩ := hnot
  obtain ⟨seg, segs, hsplit, hpath⟩ := path_eq_absolute path
  have hfree : ∀ s ∈ seg :: segs, '/' ∉ s := hsplit ▸ segments_slashFree path
  obtain rfl : seg = [] := by
    cases seg with
    | nil => rfl
    | cons c tail =>
      rw [hpath, List.cons_append, List.head?_cons, Option.some.injEq] at hroot
      exact absurd (by simp [hroot]) (hfree (c :: tail) (by simp))
  rw [List.nil_append] at hpath
  rw [hsplit, List.length_cons] at hlen
  subst hpath
  refine not_contained_of_dot segs (fun s hs => hfree s (List.mem_cons_of_mem _ hs)) (by omega) ?_
    hcontained
  by_contra hnone
  refine hdot (fun s hs => ?_)
  rw [hsplit] at hs
  rcases List.mem_cons.mp hs with rfl | hs
  · decide
  · exact fun h => hnone ⟨s, hs, h⟩

/-- The list `/docs/**` is accepted, and `/docs/../admin` passes it. -/
theorem docs_dotDot_not_contained : ¬ Contained "/docs/../admin".toList := by
  intro h
  have hok : validatePatterns ["/docs/**".toList] = .ok ["/docs/**".toList] := by decide
  have hescape := h _ _ hok (by decide)
  revert hescape
  decide

end Hyproxy.PathGlob

import Hyproxy.PathGlob
import Hyproxy.PyRegex
import Mathlib.Computability.Language

/-!
What a pattern of the allowlist means: a language, read off the pattern from left
to right. `_translate` writes an expression that matches the same paths, as long
as they have no line feed, which a dot does not match. A pattern of stars alone
after the first slash is the whole host.
-/
namespace Hyproxy.GlobLanguage

open PathGlob
open PyRegex (Item Matches Single compile escape)

def atomSource : Atom → List Char
  | .dotStar => ".*".toList
  | .notSlashStar => "[^/]*".toList
  | .literal c => escape c

/-- `_translate` -/
def source (p : Pattern) : List Char :=
  "\\A".toList ++ (translate p).flatMap atomSource ++ "\\Z".toList

def atomItem : Atom → Item
  | .dotStar => .many .dot
  | .notSlashStar => .many (.notOne '/')
  | .literal c => .one (.char c)

/-- `rx.match` for one of the compiled patterns -/
def EngineMatches (patterns : Option (List Pattern)) (path : List Char) : Prop :=
  ∃ p ∈ patterns.getD [], ∃ items, compile (source p) = some items ∧ Matches items true path

/-- The texts within one segment of a path -/
def segmentText : Language Char := {s | '/' ∉ s}

def language : Pattern → Language Char
  | [] => 1
  | '*' :: '*' :: rest => ⊤ * language rest
  | '*' :: rest => segmentText * language rest
  | c :: rest => {[c]} * language rest

/-! ### The language of a pattern -/

theorem language_double (rest : Pattern) : language ('*' :: '*' :: rest) = ⊤ * language rest := by
  rw [language]

theorem language_single (rest : Pattern) (h : rest.head? ≠ some '*') :
    language ('*' :: rest) = segmentText * language rest := by
  cases rest with
  | nil => simp [language]
  | cons c rest =>
    rw [language]
    rintro more heq
    obtain ⟨rfl, -⟩ := List.cons.inj heq
    exact h rfl

theorem language_literal (c : Char) (rest : Pattern) (h : c ≠ '*') :
    language (c :: rest) = {[c]} * language rest := by
  rw [language]
  · rintro more heq
    exact absurd heq h
  · exact h

theorem translate_double (rest : Pattern) :
    translate ('*' :: '*' :: rest) = .dotStar :: translate rest := rfl

theorem translate_single (rest : Pattern) (h : rest.head? ≠ some '*') :
    translate ('*' :: rest) = .notSlashStar :: translate rest := by
  cases rest with
  | nil => rfl
  | cons c rest =>
    have hc : c ≠ '*' := fun heq => h (by rw [heq]; rfl)
    rw [PathGlob.translate, if_pos rfl, if_neg hc]

theorem translate_literal (c : Char) (rest : Pattern) (h : c ≠ '*') :
    translate (c :: rest) = .literal c :: translate rest := by
  cases rest with
  | nil => simp [PathGlob.translate, h]
  | cons next rest => rw [PathGlob.translate, if_neg h]

/-- Reading a pattern: a pair of stars, a star that has no other after it, or a character. -/
theorem pattern_induction (motive : Pattern → Prop) (nil : motive [])
    (double : ∀ rest, motive rest → motive ('*' :: '*' :: rest))
    (single : ∀ rest, rest.head? ≠ some '*' → motive rest → motive ('*' :: rest))
    (literal : ∀ c rest, c ≠ '*' → motive rest → motive (c :: rest)) (p : Pattern) : motive p := by
  induction hlen : p.length using Nat.strong_induction_on generalizing p with
  | _ n ih =>
    cases p with
    | nil => exact nil
    | cons c rest =>
      rw [List.length_cons] at hlen
      by_cases hc : c = '*'
      · subst hc
        cases rest with
        | nil => exact single [] (by simp) nil
        | cons next rest =>
          rw [List.length_cons] at hlen
          by_cases hnext : next = '*'
          · subst hnext
            exact double rest (ih rest.length (by omega) rest rfl)
          · exact single (next :: rest) (by simpa using hnext)
              (ih (next :: rest).length (by rw [List.length_cons]; omega) (next :: rest) rfl)
      · exact literal c rest hc (ih rest.length (by omega) rest rfl)

theorem regexMatch_dotStar_iff (atoms : List Atom) (path : List Char) :
    regexMatch (.dotStar :: atoms) path = true ↔
      ∃ s rest, path = s ++ rest ∧ '\n' ∉ s ∧ regexMatch atoms rest = true := by
  rw [regexMatch, starMatch_iff]
  have hcls : ∀ s : List Char, (∀ c ∈ s, (c != '\n') = true) ↔ '\n' ∉ s := by
    intro s
    simp only [bne_iff_ne, ne_eq]
    exact ⟨fun h hmem => h '\n' hmem rfl, fun h c hc heq => h (heq ▸ hc)⟩
  simp only [hcls]

/-- The expression matches the paths of the language. -/
theorem regexMatch_iff_language (p : Pattern) (path : List Char) (hpath : '\n' ∉ path) :
    regexMatch (translate p) path = true ↔ path ∈ language p := by
  induction p using pattern_induction generalizing path with
  | nil => simp [PathGlob.translate, regexMatch, language, Language.mem_one]
  | double rest ih =>
    rw [translate_double, regexMatch_dotStar_iff, language_double, Language.mem_mul]
    constructor
    · rintro ⟨s, tail, rfl, -, h⟩
      exact ⟨s, trivial, tail, (ih tail fun hmem => hpath (by simp [hmem])).mp h, rfl⟩
    · rintro ⟨s, -, tail, h, rfl⟩
      rw [List.mem_append, not_or] at hpath
      exact ⟨s, tail, rfl, hpath.1, (ih tail hpath.2).mpr h⟩
  | single rest hrest ih =>
    rw [translate_single rest hrest, regexMatch_star_iff, language_single rest hrest,
      Language.mem_mul]
    constructor
    · rintro ⟨s, tail, rfl, hs, h⟩
      exact ⟨s, hs, tail, (ih tail fun hmem => hpath (by simp [hmem])).mp h, rfl⟩
    · rintro ⟨s, hs, tail, h, rfl⟩
      rw [List.mem_append, not_or] at hpath
      exact ⟨s, tail, rfl, hs, (ih tail hpath.2).mpr h⟩
  | literal c rest hc ih =>
    rw [translate_literal c rest hc, regexMatch_literal_iff, language_literal c rest hc,
      Language.mem_mul]
    constructor
    · rintro ⟨tail, rfl, h⟩
      exact ⟨[c], rfl, tail, (ih tail fun hmem => hpath (by simp [hmem])).mp h, rfl⟩
    · rintro ⟨s, hs, tail, h, rfl⟩
      obtain rfl : s = [c] := hs
      rw [List.mem_append, not_or] at hpath
      exact ⟨tail, rfl, (ih tail hpath.2).mpr h⟩

/-! ### The text of the expression -/

theorem escape_head (c : Char) (rest : List Char) : (escape c ++ rest).head? ≠ some '*' := by
  unfold escape
  split_ifs with hc
  · simp
  · intro h
    obtain rfl : c = '*' := by simpa using h
    exact hc (by decide)

theorem source_head (atoms : List Atom) :
    (atoms.flatMap atomSource ++ "\\Z".toList).head? ≠ some '*' := by
  cases atoms with
  | nil => decide
  | cons a rest =>
    rw [List.flatMap_cons, List.append_assoc]
    cases a with
    | dotStar => exact fun h => absurd (Option.some.inj h) (by decide)
    | notSlashStar => exact fun h => absurd (Option.some.inj h) (by decide)
    | literal c => exact escape_head c _

theorem parseItem_atom (a : Atom) (rest : List Char) (h : rest.head? ≠ some '*') :
    PyRegex.parseItem (atomSource a ++ rest) = some (atomItem a, rest) := by
  cases a with
  | dotStar => exact PyRegex.parseItem_single _ ('*' :: rest) .dot rfl
  | notSlashStar => exact PyRegex.parseItem_single _ ('*' :: rest) (.notOne '/') rfl
  | literal c =>
    rw [atomSource, PyRegex.parseItem_single _ rest (.char c) (PyRegex.parseSingle_escape c rest),
      PyRegex.quantify_one _ rest h]
    rfl

theorem atomSource_length (a : Atom) : 0 < (atomSource a).length := by
  cases a with
  | dotStar => decide
  | notSlashStar => decide
  | literal c =>
    rw [atomSource, escape]
    split_ifs <;> simp

theorem parse_atoms (atoms : List Atom) (fuel : ℕ)
    (hfuel : (atoms.flatMap atomSource ++ "\\Z".toList).length ≤ fuel) :
    PyRegex.parse fuel (atoms.flatMap atomSource ++ "\\Z".toList) =
      some (atoms.map atomItem ++ [.finish]) := by
  induction atoms generalizing fuel with
  | nil =>
    obtain ⟨fuel, rfl⟩ : ∃ n, fuel = n + 1 := ⟨fuel - 1, by simp at hfuel; omega⟩
    rw [List.flatMap_nil, List.nil_append, PyRegex.parse_item fuel _ [] .finish rfl]
    cases fuel <;> rfl
  | cons a rest ih =>
    have hlength := atomSource_length a
    rw [List.flatMap_cons, List.append_assoc] at hfuel ⊢
    rw [List.length_append] at hfuel
    obtain ⟨fuel, rfl⟩ : ∃ n, fuel = n + 1 := ⟨fuel - 1, by omega⟩
    rw [PyRegex.parse_item fuel _ _ _ (parseItem_atom a _ (source_head rest)), ih fuel (by omega)]
    rfl

theorem compile_source (p : Pattern) :
    compile (source p) = some (.start :: ((translate p).map atomItem ++ [.finish])) := by
  have hsource : source p = '\\' :: 'A' :: ((translate p).flatMap atomSource ++ "\\Z".toList) := by
    rw [source, List.append_assoc]
    rfl
  rw [compile, hsource, List.length_cons, List.length_cons, PyRegex.parse_item _ _ _ .start rfl,
    parse_atoms _ _ (Nat.le_succ _)]
  rfl

/-! ### What the expression matches -/

theorem matches_atoms_iff (atoms : List Atom) (first : Bool) (path : List Char) :
    Matches (atoms.map atomItem ++ [.finish]) first path ↔ regexMatch atoms path = true := by
  induction atoms generalizing first path with
  | nil => simp [Matches, regexMatch]
  | cons a rest ih =>
    rw [List.map_cons, List.cons_append]
    cases a with
    | dotStar =>
      rw [regexMatch, starMatch_iff]
      simp only [atomItem, Matches, ih, Single.accepts]
    | notSlashStar =>
      rw [regexMatch, starMatch_iff]
      simp only [atomItem, Matches, ih, Single.accepts]
    | literal c =>
      rw [regexMatch_literal_iff]
      simp only [atomItem, Matches, ih, Single.accepts, beq_iff_eq]
      constructor
      · rintro ⟨d, tail, rfl, rfl, h⟩
        exact ⟨tail, rfl, h⟩
      · rintro ⟨tail, rfl, h⟩
        exact ⟨c, tail, rfl, rfl, h⟩

theorem engineMatches_iff (patterns : Option (List Pattern)) (path : List Char) :
    EngineMatches patterns path ↔ ∃ p ∈ patterns.getD [], regexMatch (translate p) path = true := by
  unfold EngineMatches
  simp only [compile_source, Option.some.injEq, exists_eq_left', Matches, true_and,
    matches_atoms_iff]

theorem matchesPath_iff (patterns : Option (List Pattern)) (path : List Char) :
    matchesPath patterns path = true ↔
      ∃ p ∈ patterns.getD [], regexMatch (translate p) path = true := by
  cases patterns with
  | none => simp [matchesPath]
  | some ps => exact matchesPath_some_iff ps path

/-- A path without line feeds is exposed when it is in the language of one of the patterns: every
pattern compiles, and the matcher answers as the engine does. -/
theorem matchesPath_iff_language (patterns : Option (List Pattern)) (path : List Char)
    (hpath : '\n' ∉ path) :
    (∀ p ∈ patterns.getD [], (compile (source p)).isSome) ∧
      (EngineMatches patterns path ↔ ∃ p ∈ patterns.getD [], path ∈ language p) ∧
        (matchesPath patterns path = true ↔ EngineMatches patterns path) := by
  refine ⟨fun p _ => by rw [compile_source]; rfl, ?_, ?_⟩
  · simp only [engineMatches_iff, regexMatch_iff_language _ path hpath]
  · rw [matchesPath_iff, engineMatches_iff]

theorem matchesPath_iff_language_sample :
    matchesPath (some ["/docs/**".toList, "/a.b/*.js".toList]) "/a.b/app.js".toList = true ∧
      ((∀ p ∈ (some ["/docs/**".toList, "/a.b/*.js".toList]).getD [], (compile (source p)).isSome) ∧
        (EngineMatches (some ["/docs/**".toList, "/a.b/*.js".toList]) "/a.b/app.js".toList ↔
          ∃ p ∈ (some ["/docs/**".toList, "/a.b/*.js".toList]).getD [],
            "/a.b/app.js".toList ∈ language p) ∧
        (matchesPath (some ["/docs/**".toList, "/a.b/*.js".toList]) "/a.b/app.js".toList = true ↔
          EngineMatches (some ["/docs/**".toList, "/a.b/*.js".toList]) "/a.b/app.js".toList)) :=
  ⟨by decide, matchesPath_iff_language _ _ (by decide)⟩

/-! ### Patterns that expose the whole host -/

/-- The characters of the path of a request: `pchar` and the slash. -/
def pathChar (c : Char) : Bool :=
  ('A' ≤ c && c ≤ 'Z') || ('a' ≤ c && c ≤ 'z') || ('0' ≤ c && c ≤ '9') ||
    "/-._~%!$&\x27()*+,;=:@".toList.contains c

structure RequestPath (path : List Char) : Prop where
  rooted : path.head? = some '/'
  chars : path.all pathChar = true

theorem RequestPath.no_lineFeed {path : List Char} (h : RequestPath path) : '\n' ∉ path := by
  intro hmem
  exact absurd (List.all_eq_true.mp h.chars '\n' hmem) (by decide)

/-- The empty rest of a path fits stars only. -/
theorem stars_of_nil_mem (p : Pattern) (h : [] ∈ language p) : ∀ c ∈ p, c = '*' := by
  induction p using pattern_induction with
  | nil => exact fun c hc => absurd hc List.not_mem_nil
  | double rest ih =>
    rw [language_double, Language.mem_mul] at h
    obtain ⟨s, -, tail, htail, heq⟩ := h
    obtain ⟨-, rfl⟩ := List.append_eq_nil_iff.mp heq
    simpa using ih htail
  | single rest hrest ih =>
    rw [language_single rest hrest, Language.mem_mul] at h
    obtain ⟨s, -, tail, htail, heq⟩ := h
    obtain ⟨-, rfl⟩ := List.append_eq_nil_iff.mp heq
    simpa using ih htail
  | literal c rest hc ih =>
    rw [language_literal c rest hc, Language.mem_mul] at h
    obtain ⟨s, hs, tail, -, heq⟩ := h
    obtain rfl : s = [c] := hs
    cases heq

theorem nil_mem_stars (n : ℕ) : [] ∈ language (List.replicate n '*') := by
  induction n using Nat.twoStepInduction with
  | zero => rfl
  | one => exact Language.mem_mul.mpr ⟨[], List.not_mem_nil, [], rfl, rfl⟩
  | more n ih _ =>
    rw [List.replicate_succ, List.replicate_succ, language_double]
    exact Language.mem_mul.mpr ⟨[], trivial, [], ih, rfl⟩

/-- Two stars, and more, are the language of all texts. -/
theorem language_stars (n : ℕ) (h : 2 ≤ n) (text : List Char) :
    text ∈ language (List.replicate n '*') := by
  obtain ⟨n, rfl⟩ : ∃ m, n = m + 2 := ⟨n - 2, by omega⟩
  rw [List.replicate_succ, List.replicate_succ, language_double]
  exact Language.mem_mul.mpr ⟨text, trivial, [], nil_mem_stars n, List.append_nil text⟩

theorem rooted_mem_iff (tail rest : List Char) :
    '/' :: rest ∈ language ('/' :: tail) ↔ rest ∈ language tail := by
  rw [language_literal '/' tail (by decide), Language.mem_mul]
  constructor
  · rintro ⟨s, hs, more, hmore, heq⟩
    obtain rfl : s = ['/'] := hs
    obtain ⟨-, rfl⟩ := List.cons.inj heq
    exact hmore
  · intro h
    exact ⟨['/'], rfl, rest, h, rfl⟩

theorem valid_rooted (p : Pattern) (h : Valid p) : ∃ tail, p = '/' :: tail := by
  obtain ⟨tail, htail⟩ := h.rooted
  exact ⟨tail, htail.symm⟩

/-- An accepted pattern that is a slash and stars has three of them, or more. -/
theorem valid_stars (n : ℕ) (h : Valid ('/' :: List.replicate n '*')) : 2 ≤ n := by
  obtain ⟨hone, -, hnone⟩ := h.not_whole
  by_contra hfew
  obtain rfl | rfl : n = 0 ∨ n = 1 := by omega
  · exact hnone rfl
  · exact hone rfl

theorem matchesPath_singleton_iff (p : Pattern) (path : List Char) (hpath : '\n' ∉ path) :
    matchesPath (some [p]) path = true ↔ path ∈ language p := by
  rw [matchesPath_some_iff]
  simp [regexMatch_iff_language p path hpath]

theorem stars_expose (n : ℕ) (h : 2 ≤ n) (path : List Char) (hpath : RequestPath path) :
    matchesPath (some ['/' :: List.replicate n '*']) path = true := by
  rw [matchesPath_singleton_iff _ _ hpath.no_lineFeed]
  obtain ⟨rest, rfl⟩ := List.head?_eq_some_iff.mp hpath.rooted
  exact (rooted_mem_iff _ rest).mpr (language_stars n h rest)

/-- An accepted pattern leaves a path of the host unexposed when not all that follows its slash are
stars, and only then. -/
theorem narrower_iff (raw p : Pattern) (hok : validatePattern raw = .ok p) :
    (∃ path, RequestPath path ∧ matchesPath (some [p]) path = false) ↔ ∃ c ∈ p.tail, c ≠ '*' := by
  have hvalid := ((validatePattern_ok_iff raw p).mp hok).2
  obtain ⟨tail, rfl⟩ := valid_rooted p hvalid
  rw [List.tail_cons]
  constructor
  · rintro ⟨path, hpath, hmatch⟩
    by_contra hstars
    simp only [not_exists, not_and, not_not] at hstars
    obtain ⟨n, rfl⟩ : ∃ n, tail = List.replicate n '*' :=
      ⟨tail.length, List.eq_replicate_of_mem hstars⟩
    rw [stars_expose n (valid_stars n hvalid) path hpath] at hmatch
    cases hmatch
  · rintro ⟨c, hc, hne⟩
    refine ⟨"/".toList, ⟨rfl, by decide⟩, ?_⟩
    rw [← Bool.not_eq_true, matchesPath_singleton_iff _ _ (by decide)]
    intro hmem
    exact hne (stars_of_nil_mem tail ((rooted_mem_iff tail []).mp hmem) c hc)

theorem narrower_iff_sample :
    validatePattern "/docs/**".toList = .ok "/docs/**".toList ∧
      ((∃ path, RequestPath path ∧ matchesPath (some ["/docs/**".toList]) path = false) ↔
        ∃ c ∈ "/docs/**".toList.tail, c ≠ '*') :=
  ⟨by decide, narrower_iff "/docs/**".toList _ (by decide)⟩

/-- `/***` is accepted, and exposes every path. -/
theorem three_stars_expose : ¬ ∀ raw p, validatePattern raw = .ok p →
    ∃ path, RequestPath path ∧ matchesPath (some [p]) path = false := by
  intro h
  obtain ⟨path, hpath, hmatch⟩ := h "/***".toList "/***".toList (by decide)
  have hexposed := stars_expose 3 (by decide) path hpath
  rw [show '/' :: List.replicate 3 '*' = "/***".toList from rfl, hmatch] at hexposed
  cases hexposed

end Hyproxy.GlobLanguage

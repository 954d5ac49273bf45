import Mathlib.Data.Nat.Notation
import Mathlib.Tactic.Common
import Mathlib.Tactic.SplitIfs

/-!
The expressions of Python's `re` without groups, alternatives and counted
repetitions: the text of an expression, what it compiles to, and when
`Pattern.match` succeeds. Other expressions do not compile here.
-/
namespace Hyproxy.PyRegex

/-- What stands for one character. -/
inductive Single
  | dot
  | notOne (c : Char)
  | char (c : Char)
  deriving Repr, DecidableEq

inductive Item
  | start
  | finish
  | one (s : Single)
  | many (s : Single)
  deriving Repr, DecidableEq

def Single.accepts : Single → Char → Bool
  | .dot, d => d != '\n'
  | .notOne c, d => d != c
  | .char c, d => d == c

/-- The items match a part of the text from a position that is its beginning, or is not. -/
def Matches : List Item → Bool → List Char → Prop
  | [], _, _ => True
  | .start :: items, first, text => first = true ∧ Matches items first text
  | .finish :: items, first, text => text = [] ∧ Matches items first text
  | .one s :: items, _, text =>
    ∃ c rest, text = c :: rest ∧ s.accepts c = true ∧ Matches items false rest
  | .many s :: items, first, text =>
    ∃ taken rest, text = taken ++ rest ∧ (∀ c ∈ taken, s.accepts c = true) ∧
      Matches items (first && taken.isEmpty) rest

/-- A character that does not stand for itself. -/
def special (c : Char) : Bool := ".^$*+?\x7b[\\|()".toList.contains c

def asciiAlnum (c : Char) : Bool :=
  ('A' ≤ c && c ≤ 'Z') || ('a' ≤ c && c ≤ 'z') || ('0' ≤ c && c ≤ '9')

/-- A backslash before a letter or a digit has a meaning of its own. -/
def parseSingle : List Char → Option (Single × List Char)
  | [] => none
  | '\\' :: c :: rest => if asciiAlnum c then none else some (.char c, rest)
  | '[' :: '^' :: c :: ']' :: rest =>
    if c = '\\' ∨ c = ']' then none else some (.notOne c, rest)
  | '.' :: rest => some (.dot, rest)
  | c :: rest => if special c then none else some (.char c, rest)

/-- A star belongs to the character before it. -/
def quantify (s : Single) : List Char → Item × List Char
  | '*' :: rest => (.many s, rest)
  | rest => (.one s, rest)

def parseItem : List Char → Option (Item × List Char)
  | '\\' :: 'A' :: rest => some (.start, rest)
  | '\\' :: 'Z' :: rest => some (.finish, rest)
  | text => (parseSingle text).map fun found => quantify found.1 found.2

def parse : ℕ → List Char → Option (List Item)
  | _, [] => some []
  | 0, _ :: _ => none
  | fuel + 1, c :: text =>
    (parseItem (c :: text)).bind fun found => (parse fuel found.2).map (found.1 :: ·)

def compile (text : List Char) : Option (List Item) := parse text.length text

def escaped : List Char := "()[]\x7b\x7d?*+-|^$\\.&~# \t\n\r\x0b\x0c".toList

/-- `re.escape` of one character -/
def escape (c : Char) : List Char := if escaped.contains c then ['\\', c] else [c]

theorem parseSingle_escape (c : Char) (rest : List Char) :
    parseSingle (escape c ++ rest) = some (.char c, rest) := by
  unfold escape
  by_cases hc : escaped.contains c = true
  · have halnum : asciiAlnum c = false := by
      have h : escaped.all (fun d => !asciiAlnum d) = true := by decide
      simpa using List.all_eq_true.mp h c (List.contains_iff_mem.mp hc)
    rw [if_pos hc, List.cons_append, List.singleton_append, parseSingle, halnum]
    rfl
  · have hnot : ∀ d, escaped.contains d = true → c ≠ d := by
      rintro d hd rfl
      exact hc hd
    have hspecial : special c = false := by
      rw [← Bool.not_eq_true]
      intro hs
      have h : ".^$*+?\x7b[\\|()".toList.all (fun d => escaped.contains d) = true := by decide
      exact hc (List.all_eq_true.mp h c (List.contains_iff_mem.mp hs))
    rw [if_neg hc, List.singleton_append]
    have hbackslash := hnot '\\' (by decide)
    have hbracket := hnot '[' (by decide)
    have hdot := hnot '.' (by decide)
    unfold parseSingle
    split <;> simp_all

theorem parseSingle_anchor (c : Char) (rest : List Char) (h : asciiAlnum c = true) :
    parseSingle ('\\' :: c :: rest) = none := by
  rw [parseSingle, if_pos h]

theorem quantify_one (s : Single) (rest : List Char) (h : rest.head? ≠ some '*') :
    quantify s rest = (.one s, rest) := by
  unfold quantify
  split
  · exact absurd rfl h
  · rfl

/-- What stands for a character is no anchor. -/
theorem parseItem_single (text rest : List Char) (s : Single)
    (h : parseSingle text = some (s, rest)) : parseItem text = some (quantify s rest) := by
  unfold parseItem
  split
  · rw [parseSingle_anchor _ _ (by decide)] at h
    cases h
  · rw [parseSingle_anchor _ _ (by decide)] at h
    cases h
  · rw [h]
    rfl

theorem parse_item (fuel : ℕ) (text rest : List Char) (item : Item)
    (h : parseItem text = some (item, rest)) :
    parse (fuel + 1) text = (parse fuel rest).map (item :: ·) := by
  cases text with
  | nil => cases h
  | cons c text => rw [parse, h, Option.bind_some]

end Hyproxy.PyRegex

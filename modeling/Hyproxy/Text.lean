import Mathlib.Data.List.DropRight
import Mathlib.Tactic.Common

/-!
The string operations both services use, over lists of characters: trimming on
both sides, Python's and Go's notions of white space, and cutting a text at the
first separator.
-/
namespace Hyproxy.Text

/-- The code points for which `str.isspace` holds. -/
def isSpace (c : Char) : Bool :=
  let n := c.toNat
  (9 ≤ n && n ≤ 13) || (28 ≤ n && n ≤ 32) || n == 0x85 || n == 0xA0 || n == 0x1680 ||
    (0x2000 ≤ n && n ≤ 0x200A) || n == 0x2028 || n == 0x2029 || n == 0x202F || n == 0x205F ||
    n == 0x3000

/-- `textproto.isASCIISpace` -/
def isAsciiSpace (c : Char) : Bool := c == ' ' || c == '\t' || c == '\n' || c == '\r'

def trim (drop : Char → Bool) (s : List Char) : List Char := (s.dropWhile drop).rdropWhile drop

/-- `str.strip()` -/
def strip : List Char → List Char := trim isSpace

/-- `textproto.TrimString` -/
def trimString : List Char → List Char := trim isAsciiSpace

/-- `strings.Cut`: the text before the first separator and the text after it. -/
def cut (sep : Char) (s : List Char) : List Char × List Char :=
  (s.takeWhile (· ≠ sep), (s.dropWhile (· ≠ sep)).drop 1)

theorem trim_eq_self (drop : Char → Bool) (s : List Char) (hhead : ∀ c ∈ s.head?, drop c = false)
    (hlast : ∀ c ∈ s.getLast?, drop c = false) : trim drop s = s := by
  unfold trim
  have hdrop : s.dropWhile drop = s := by
    cases s with
    | nil => rfl
    | cons c rest => exact List.dropWhile_cons_of_neg (by simp [hhead c rfl])
  rw [hdrop, List.rdropWhile_eq_self_iff]
  intro hne
  simp [hlast _ (List.getLast?_eq_some_getLast hne)]

theorem trim_ends (drop : Char → Bool) (s : List Char) :
    (∀ c ∈ (trim drop s).head?, drop c = false) ∧
      ∀ c ∈ (trim drop s).getLast?, drop c = false := by
  constructor
  · intro c hc
    obtain ⟨dropped, hbegins⟩ := List.rdropWhile_prefix drop (s.dropWhile drop)
    have hhead := List.head?_dropWhile_not drop s
    rw [trim] at hc
    rw [← hbegins, List.head?_append, Option.mem_def.mp hc] at hhead
    exact hhead
  · intro c hc
    have hne : trim drop s ≠ [] := by
      intro hnil
      rw [hnil] at hc
      cases hc
    rw [List.getLast?_eq_some_getLast hne] at hc
    obtain rfl := Option.some.inj hc
    exact Bool.eq_false_iff.mpr (List.rdropWhile_last_not drop (s.dropWhile drop) hne)

theorem trim_trim (drop : Char → Bool) (s : List Char) : trim drop (trim drop s) = trim drop s :=
  trim_eq_self drop _ (trim_ends drop s).1 (trim_ends drop s).2

theorem strip_eq_self (s : List Char) (hs : ∀ c ∈ s, isSpace c = false) : strip s = s :=
  trim_eq_self isSpace s (fun c hc => hs c (List.mem_of_mem_head? hc))
    (fun c hc => hs c (List.mem_of_mem_getLast? hc))

theorem cut_append (sep : Char) (left right : List Char) (hleft : sep ∉ left) :
    cut sep (left ++ sep :: right) = (left, right) := by
  induction left with
  | nil => simp [cut]
  | cons c rest ih =>
    rw [List.mem_cons, not_or] at hleft
    have hc : c ≠ sep := Ne.symm hleft.1
    simpa [cut, hc] using ih hleft.2

theorem cut_of_not_mem (sep : Char) (s : List Char) (hs : sep ∉ s) : cut sep s = (s, []) := by
  induction s with
  | nil => rfl
  | cons c rest ih =>
    rw [List.mem_cons, not_or] at hs
    have hc : c ≠ sep := Ne.symm hs.1
    simpa [cut, hc] using ih hs.2

theorem mem_of_mem_splitOn (s : List Char) (sep : Char) :
    ∀ part ∈ s.splitOn sep, ∀ c ∈ part, c ∈ s := by
  induction s with
  | nil => simp
  | cons d rest ih =>
    rw [List.splitOn_cons_eq_if_modifyHead]
    intro part hpart c hc
    split at hpart
    · rcases List.mem_cons.mp hpart with rfl | hpart
      · cases hc
      · exact List.mem_cons_of_mem _ (ih part hpart c hc)
    · obtain ⟨head, tail, hsplit⟩ := List.exists_cons_of_ne_nil (List.splitOn_ne_nil sep rest)
      rw [hsplit] at ih hpart
      rcases List.mem_cons.mp hpart with rfl | hpart
      · rcases List.mem_cons.mp hc with rfl | hc
        · simp
        · exact List.mem_cons_of_mem _ (ih head (by simp) c hc)
      · exact List.mem_cons_of_mem _ (ih part (by simp [hpart]) c hc)

/-! ### Lower case in ASCII -/

theorem toLower_cases (c : Char) :
    (65 ≤ c.toNat ∧ c.toNat ≤ 90 ∧ c.toLower.toNat = c.toNat + 32) ∨
      (¬ (65 ≤ c.toNat ∧ c.toNat ≤ 90) ∧ c.toLower = c) := by
  unfold Char.toLower
  split
  · rename_i hupper
    have hlow : 65 ≤ c.val.toNat := hupper.1
    have hhigh : c.val.toNat ≤ 90 := hupper.2
    refine Or.inl ⟨hlow, hhigh, ?_⟩
    change (c.val + ('a'.val - 'A'.val)).toNat = c.val.toNat + 32
    rw [UInt32.toNat_add, show ('a'.val - 'A'.val).toNat = 32 by decide]
    omega
  · rename_i hupper
    exact Or.inr ⟨fun h => hupper ⟨h.1, h.2⟩, rfl⟩

theorem toLower_toLower (c : Char) : c.toLower.toLower = c.toLower := by
  rcases toLower_cases c with ⟨hlow, -, hlower⟩ | ⟨-, hlower⟩
  · rcases toLower_cases c.toLower with ⟨-, hhigh, -⟩ | ⟨-, hsame⟩
    · omega
    · exact hsame
  · rw [hlower, hlower]

end Hyproxy.Text

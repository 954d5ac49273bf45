import Hyproxy.Text

/-!
The lower case of a text in Python (`str.lower`). A table gives the lower case of each
character; only the capital sigma is written by its place in a word, which other tables tell.
-/
namespace Hyproxy.LetterCase

structure Tables where
  lowerChar : Char → List Char
  cased : Char → Bool
  ignorable : Char → Bool

variable (T : Tables)

/-- A sigma ends a word when a letter comes before it and none behind it. The text before it is
read from its end. -/
def endsWord (before rest : List Char) : Bool :=
  (before.dropWhile T.ignorable).head?.any T.cased &&
    !(rest.dropWhile T.ignorable).head?.any T.cased

def lowerAt (before : List Char) (c : Char) (rest : List Char) : List Char :=
  if c = 'Σ' then [if endsWord T before rest then 'ς' else 'σ'] else T.lowerChar c

def lowerFrom (before : List Char) : List Char → List Char
  | [] => []
  | c :: rest => lowerAt T before c rest ++ lowerFrom (c :: before) rest

def lower (s : List Char) : List Char := lowerFrom T [] s

/-- What the tables say of all characters: lower case stays, and no text comes to have other
characters of ASCII than letters. -/
structure Tables.Standard : Prop where
  ascii : ∀ c, c.toNat < 0x80 → T.lowerChar c = [c.toLower]
  outside : ∀ c, 0x80 ≤ c.toNat → T.lowerChar c ≠ [] ∧
    ∀ d ∈ T.lowerChar c, 0x80 ≤ d.toNat ∨ (97 ≤ d.toNat ∧ d.toNat ≤ 122)
  lowered : ∀ c, ∀ d ∈ T.lowerChar c, d ≠ 'Σ' ∧ T.lowerChar d = [d]
  sigma : T.lowerChar 'σ' = ['σ'] ∧ T.lowerChar 'ς' = ['ς']
  percent : T.cased '%' = false ∧ T.ignorable '%' = false

/-- A character that is in lower case. -/
def Lowered (c : Char) : Prop := c ≠ 'Σ' ∧ T.lowerChar c = [c]

variable {T}

theorem mem_lowerAt (h : T.Standard) (before rest : List Char) (c d : Char)
    (hd : d ∈ lowerAt T before c rest) : Lowered T d := by
  unfold lowerAt at hd
  split_ifs at hd with hsigma hends
  · rw [List.mem_singleton.mp hd]
    exact ⟨by decide, h.sigma.2⟩
  · rw [List.mem_singleton.mp hd]
    exact ⟨by decide, h.sigma.1⟩
  · exact h.lowered c d hd

theorem mem_lowerFrom (h : T.Standard) (before s : List Char) :
    ∀ d ∈ lowerFrom T before s, Lowered T d := by
  induction s generalizing before with
  | nil => simp [lowerFrom]
  | cons c rest ih =>
    intro d hd
    rcases List.mem_append.mp hd with hd | hd
    · exact mem_lowerAt h before rest c d hd
    · exact ih (c :: before) d hd

theorem mem_lowerFrom_cases (before s : List Char) (d : Char) (hd : d ∈ lowerFrom T before s) :
    d = 'σ' ∨ d = 'ς' ∨ ∃ c ∈ s, d ∈ T.lowerChar c := by
  induction s generalizing before with
  | nil => cases hd
  | cons c rest ih =>
    rcases List.mem_append.mp hd with hd | hd
    · unfold lowerAt at hd
      split_ifs at hd
      · exact Or.inr (Or.inl (List.mem_singleton.mp hd))
      · exact Or.inl (List.mem_singleton.mp hd)
      · exact Or.inr (Or.inr ⟨c, List.mem_cons_self, hd⟩)
    · rcases ih _ hd with hsmall | hfinal | ⟨e, he, hmem⟩
      · exact Or.inl hsmall
      · exact Or.inr (Or.inl hfinal)
      · exact Or.inr (Or.inr ⟨e, List.mem_cons_of_mem c he, hmem⟩)

theorem mem_lower (h : T.Standard) (s : List Char) : ∀ d ∈ lower T s, Lowered T d :=
  mem_lowerFrom h [] s

theorem lowerFrom_eq_self (before s : List Char) (hs : ∀ c ∈ s, Lowered T c) :
    lowerFrom T before s = s := by
  induction s generalizing before with
  | nil => rfl
  | cons c rest ih =>
    have hc := hs c List.mem_cons_self
    rw [lowerFrom, lowerAt, if_neg hc.1, hc.2, List.singleton_append,
      ih _ fun d hd => hs d (List.mem_cons_of_mem c hd)]

theorem lower_eq_self (s : List Char) (hs : ∀ c ∈ s, Lowered T c) : lower T s = s :=
  lowerFrom_eq_self [] s hs

theorem lower_lower (h : T.Standard) (s : List Char) : lower T (lower T s) = lower T s :=
  lower_eq_self _ (mem_lower h s)

theorem lowerAt_ascii (h : T.Standard) (before rest : List Char) (c : Char)
    (hc : c.toNat < 0x80) : lowerAt T before c rest = [c.toLower] := by
  have hsigma : c ≠ 'Σ' := by
    rintro rfl
    exact absurd hc (by decide)
  rw [lowerAt, if_neg hsigma, h.ascii c hc]

/-- A character of ASCII that is no capital is in lower case. -/
theorem lowered_ascii (h : T.Standard) (c : Char) (hc : c.toNat < 0x80) (hlow : c.toLower = c) :
    Lowered T c := by
  refine ⟨?_, by rw [h.ascii c hc, hlow]⟩
  rintro rfl
  exact absurd hc (by decide)

/-! ### Characters of ASCII that are no letters -/

def Plain (d : Char) : Prop :=
  d.toNat < 0x80 ∧ ¬ (65 ≤ d.toNat ∧ d.toNat ≤ 90) ∧ ¬ (97 ≤ d.toNat ∧ d.toNat ≤ 122)

instance (d : Char) : Decidable (Plain d) := inferInstanceAs (Decidable (_ ∧ _ ∧ _))

theorem count_lowerAt (h : T.Standard) (before rest : List Char) (c d : Char) (hd : Plain d) :
    (lowerAt T before c rest).count d = [c].count d := by
  by_cases hc : c.toNat < 0x80
  · rw [lowerAt_ascii h before rest c hc]
    rcases Text.toLower_cases c with ⟨hlow, hhigh, hlower⟩ | ⟨-, hsame⟩
    · have hne : c ≠ d := fun heq => hd.2.1 ⟨heq ▸ hlow, heq ▸ hhigh⟩
      have hlowne : c.toLower ≠ d := by
        intro heq
        rw [heq] at hlower
        exact hd.2.2 ⟨by omega, by omega⟩
      rw [List.count_singleton, List.count_singleton, if_neg (by simpa using hlowne),
        if_neg (by simpa using hne)]
    · rw [hsame]
  · have hzero : ∀ l : List Char, (∀ e ∈ l, 0x80 ≤ e.toNat ∨ (97 ≤ e.toNat ∧ e.toNat ≤ 122)) →
        l.count d = 0 := by
      intro l hl
      refine List.count_eq_zero.mpr fun hmem => ?_
      rcases hl d hmem with hhigh | hletter
      · exact absurd hd.1 (by omega)
      · exact hd.2.2 hletter
    rw [hzero [c] (by simp; omega)]
    refine hzero _ ?_
    unfold lowerAt
    split_ifs with hsigma hends
    · simp
    · simp
    · exact (h.outside c (by omega)).2

theorem count_lowerFrom (h : T.Standard) (before s : List Char) (d : Char) (hd : Plain d) :
    (lowerFrom T before s).count d = s.count d := by
  induction s generalizing before with
  | nil => rfl
  | cons c rest ih =>
    rw [lowerFrom, List.count_append, count_lowerAt h before rest c d hd, ih,
      ← List.count_append, List.singleton_append]

theorem count_lower (h : T.Standard) (s : List Char) (d : Char) (hd : Plain d) :
    (lower T s).count d = s.count d := count_lowerFrom h [] s d hd

theorem mem_lower_iff (h : T.Standard) (s : List Char) (d : Char) (hd : Plain d) :
    d ∈ lower T s ↔ d ∈ s := by
  rw [← List.count_pos_iff, ← List.count_pos_iff, count_lower h s d hd]

/-! ### Parts of a text -/

theorem lowerAt_ne_nil (h : T.Standard) (before rest : List Char) (c : Char) :
    lowerAt T before c rest ≠ [] := by
  by_cases hc : c.toNat < 0x80
  · rw [lowerAt_ascii h before rest c hc]
    exact List.cons_ne_nil _ _
  · unfold lowerAt
    split_ifs
    · exact List.cons_ne_nil _ _
    · exact List.cons_ne_nil _ _
    · exact (h.outside c (by omega)).1

theorem lowerFrom_eq_nil_iff (h : T.Standard) (before s : List Char) :
    lowerFrom T before s = [] ↔ s = [] := by
  cases s with
  | nil => simp [lowerFrom]
  | cons c rest => simp [lowerFrom, lowerAt_ne_nil h]

theorem lower_eq_nil_iff (h : T.Standard) (s : List Char) : lower T s = [] ↔ s = [] :=
  lowerFrom_eq_nil_iff h [] s

/-- The front of a text in ASCII. -/
theorem lowerFrom_ascii (h : T.Standard) (before front more : List Char)
    (hfront : ∀ c ∈ front, c.toNat < 0x80) :
    lowerFrom T before (front ++ more) =
      front.map Char.toLower ++ lowerFrom T (front.reverse ++ before) more := by
  induction front generalizing before with
  | nil => rfl
  | cons c rest ih =>
    rw [List.cons_append, lowerFrom, lowerAt_ascii h _ _ c (hfront c List.mem_cons_self),
      ih _ fun d hd => hfront d (List.mem_cons_of_mem c hd), List.reverse_cons, List.append_assoc]
    rfl

theorem lower_ascii (h : T.Standard) (s : List Char) (hs : ∀ c ∈ s, c.toNat < 0x80) :
    lower T s = s.map Char.toLower := by
  have hall := lowerFrom_ascii h [] s [] hs
  rwa [List.append_nil, lowerFrom, List.append_nil] at hall

/-- Neither a percent sign nor what is beyond it counts for the end of a word. -/
theorem head_percent (h : T.Standard) (s more : List Char) :
    ((s ++ '%' :: more).dropWhile T.ignorable).head?.any T.cased =
      (s.dropWhile T.ignorable).head?.any T.cased := by
  induction s with
  | nil => simp [h.percent.1, h.percent.2]
  | cons c rest ih =>
    cases hc : T.ignorable c with
    | true => simpa [hc] using ih
    | false => simp [hc]

theorem endsWord_percent (h : T.Standard) (before rest more : List Char) :
    endsWord T before (rest ++ '%' :: more) = endsWord T before rest := by
  rw [endsWord, head_percent h rest more, endsWord]

theorem lowerFrom_percent (h : T.Standard) (before s more : List Char) :
    lowerFrom T (before ++ '%' :: more) s = lowerFrom T before s := by
  induction s generalizing before with
  | nil => rfl
  | cons c rest ih =>
    have hcontext : lowerAt T (before ++ '%' :: more) c rest = lowerAt T before c rest := by
      rw [lowerAt, endsWord, head_percent h before more, lowerAt, endsWord]
    rw [lowerFrom, lowerFrom, hcontext, ← List.cons_append, ih]

theorem lower_percent (h : T.Standard) (s more : List Char) :
    lower T (s ++ '%' :: more) = lower T s ++ '%' :: lower T more := by
  have hfrom : ∀ before, lowerFrom T before (s ++ '%' :: more) =
      lowerFrom T before s ++ '%' :: lowerFrom T ('%' :: (s.reverse ++ before)) more := by
    induction s with
    | nil =>
      intro before
      change lowerAt T before '%' more ++ lowerFrom T ('%' :: before) more = _
      rw [lowerAt_ascii h before more '%' (by decide)]
      rfl
    | cons c rest ih =>
      intro before
      have hcontext : lowerAt T before c (rest ++ '%' :: more) = lowerAt T before c rest := by
        rw [lowerAt, endsWord_percent h, lowerAt]
      rw [List.cons_append, lowerFrom, hcontext, ih, lowerFrom, List.append_assoc,
        List.reverse_cons, List.append_assoc]
      rfl
  have hmore : lowerFrom T ('%' :: s.reverse) more = lower T more :=
    lowerFrom_percent h [] more s.reverse
  rw [lower, hfrom, List.append_nil, hmore]
  rfl

end Hyproxy.LetterCase

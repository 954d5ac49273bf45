import Mathlib.Data.List.Basic
import Mathlib.Tactic.Common

/-!
Percent encoding of byte strings. A byte is a character below 256, so that an
escaped text and the bytes it stands for are lists of the same kind. A text is
well escaped when every percent sign starts a triple with two hexadecimal
digits; only such a text has a decoding.
-/
namespace Hyproxy.PercentCoding

def hexValue (c : Char) : Option ℕ :=
  if '0' ≤ c ∧ c ≤ '9' then some (c.toNat - '0'.toNat)
  else if 'a' ≤ c ∧ c ≤ 'f' then some (c.toNat - 'a'.toNat + 10)
  else if 'A' ≤ c ∧ c ≤ 'F' then some (c.toNat - 'A'.toNat + 10)
  else none

def hexDigit (n : ℕ) : Char := "0123456789ABCDEF".toList.getD n '0'

def IsByte (c : Char) : Prop := c.toNat < 256

instance : DecidablePred IsByte := fun c => by
  unfold IsByte
  infer_instance

/-- The triple that stands for one byte. -/
def escapeByte (c : Char) : List Char := ['%', hexDigit (c.toNat / 16), hexDigit (c.toNat % 16)]

def escape (keep : Char → Bool) (s : List Char) : List Char :=
  s.flatMap (fun c => if keep c then [c] else escapeByte c)

/-- Strict decoding: a percent sign without two hexadecimal digits is an error. -/
def unescape : List Char → Option (List Char)
  | [] => some []
  | c :: rest =>
    if c = '%' then
      match rest with
      | a :: b :: tail =>
        match hexValue a, hexValue b with
        | some hi, some lo => (unescape tail).map (Char.ofNat (16 * hi + lo) :: ·)
        | _, _ => none
      | _ => none
    else (unescape rest).map (c :: ·)

@[simp] theorem unescape_nil : unescape [] = some [] := rfl

theorem unescape_plain (c : Char) (rest : List Char) (hc : c ≠ '%') :
    unescape (c :: rest) = (unescape rest).map (c :: ·) := by
  rcases rest with _ | ⟨a, _ | ⟨b, tail⟩⟩ <;> simp [unescape, hc]

theorem unescape_triple (a b : Char) (tail : List Char) (hi lo : ℕ) (ha : hexValue a = some hi)
    (hb : hexValue b = some lo) :
    unescape ('%' :: a :: b :: tail) = (unescape tail).map (Char.ofNat (16 * hi + lo) :: ·) := by
  rw [unescape, if_pos rfl]
  simp only [ha, hb]

/-- A text that decodes is empty, or starts with a plain character or a full triple. -/
theorem unescape_isSome_cases (c : Char) (rest : List Char)
    (h : (unescape (c :: rest)).isSome) :
    (c ≠ '%' ∧ (unescape rest).isSome) ∨
      ∃ a b tail hi lo, c = '%' ∧ rest = a :: b :: tail ∧ hexValue a = some hi ∧
        hexValue b = some lo ∧ (unescape tail).isSome := by
  by_cases hc : c = '%'
  · subst hc
    right
    rcases rest with _ | ⟨a, _ | ⟨b, tail⟩⟩
    · simp [unescape] at h
    · simp [unescape] at h
    · rw [unescape, if_pos rfl] at h
      split at h
      · rename_i hi lo ha hb
        exact ⟨a, b, tail, hi, lo, rfl, rfl, ha, hb, by simpa using h⟩
      · cases h
  · rw [unescape_plain c rest hc, Option.isSome_map] at h
    exact Or.inl ⟨hc, h⟩

theorem hexValue_lt (c : Char) (n : ℕ) (hc : hexValue c = some n) : n < 16 := by
  unfold hexValue at hc
  have hle : ∀ hi : Char, c ≤ hi → c.toNat ≤ hi.toNat := fun _ h => h
  have h9 := hle '9'
  have hf := hle 'f'
  have hF := hle 'F'
  simp only [Char.reduceToNat] at h9 hf hF hc
  split_ifs at hc with h1 h2 h3
  · have := h9 h1.2
    simp only [Option.some.injEq] at hc
    omega
  · have := hf h2.2
    simp only [Option.some.injEq] at hc
    omega
  · have := hF h3.2
    simp only [Option.some.injEq] at hc
    omega

theorem toNat_ofNat (n : ℕ) (hn : n < 0xD800 ∨ (0xDFFF < n ∧ n < 0x110000)) :
    (Char.ofNat n).toNat = n := by
  rw [Char.ofNat, dif_pos hn]
  rfl

theorem hexValue_hexDigit (n : ℕ) (hn : n < 16) : hexValue (hexDigit n) = some n := by
  have h : ∀ n < 16, hexValue (hexDigit n) = some n := by decide
  exact h n hn

theorem unescape_escapeByte (c : Char) (rest : List Char) (hc : IsByte c) :
    unescape (escapeByte c ++ rest) = (unescape rest).map (c :: ·) := by
  unfold IsByte at hc
  have hhi := hexValue_hexDigit (c.toNat / 16) (by omega)
  have hlo := hexValue_hexDigit (c.toNat % 16) (by omega)
  have hsum : 16 * (c.toNat / 16) + c.toNat % 16 = c.toNat := Nat.div_add_mod c.toNat 16
  rw [escapeByte, List.cons_append, List.cons_append, List.cons_append, List.nil_append,
    unescape_triple _ _ rest _ _ hhi hlo, hsum, Char.ofNat_toNat]

/-- Decoding undoes encoding when the percent sign itself is not kept. -/
theorem unescape_escape (keep : Char → Bool) (s : List Char) (hkeep : keep '%' = false)
    (hs : ∀ c ∈ s, IsByte c) : unescape (escape keep s) = some s := by
  induction s with
  | nil => rfl
  | cons c rest ih =>
    have hrest : unescape (escape keep rest) = some rest :=
      ih (fun d hd => hs d (List.mem_cons_of_mem _ hd))
    have hcons : escape keep (c :: rest) =
        (if keep c then [c] else escapeByte c) ++ escape keep rest := by
      simp [escape]
    rw [hcons]
    split
    · rename_i hc
      have hne : c ≠ '%' := by
        rintro rfl
        rw [hkeep] at hc
        cases hc
      rw [List.singleton_append, unescape_plain c _ hne, hrest]
      rfl
    · rw [unescape_escapeByte c _ (hs c (by simp)), hrest]
      rfl

theorem unescape_append (left right : List Char) (out : List Char)
    (hleft : unescape left = some out) :
    unescape (left ++ right) = (unescape right).map (out ++ ·) := by
  fun_induction unescape left generalizing out with
  | case1 =>
    obtain rfl : [] = out := by simpa using hleft
    simp
  | case2 a b tail hi lo ha hb ih =>
    obtain ⟨more, hmore, rfl⟩ := Option.map_eq_some_iff.mp hleft
    rw [List.cons_append, List.cons_append, List.cons_append,
      unescape_triple a b _ hi lo hb ha, ih more hmore]
    cases unescape right <;> rfl
  | case3 => cases hleft
  | case4 => cases hleft
  | case5 c rest hc ih =>
    obtain ⟨more, hmore, rfl⟩ := Option.map_eq_some_iff.mp hleft
    rw [List.cons_append, unescape_plain c _ hc, ih more hmore]
    cases unescape right <;> rfl

theorem unescape_bytes (s out : List Char) (hs : ∀ c ∈ s, IsByte c)
    (h : unescape s = some out) : ∀ c ∈ out, IsByte c := by
  fun_induction unescape s generalizing out with
  | case1 =>
    obtain rfl : [] = out := by simpa using h
    simp
  | case2 a b tail hi lo hlo hhi ih =>
    obtain ⟨more, hmore, rfl⟩ := Option.map_eq_some_iff.mp h
    have htail := ih more (fun c hc => hs c (by simp [hc])) hmore
    have hlt : 16 * hi + lo < 256 := by
      have := hexValue_lt _ _ hlo
      have := hexValue_lt _ _ hhi
      omega
    intro c hc
    rcases List.mem_cons.mp hc with rfl | hc
    · rw [IsByte, toNat_ofNat _ (Or.inl (by omega))]
      exact hlt
    · exact htail c hc
  | case3 => cases h
  | case4 => cases h
  | case5 c rest hc ih =>
    obtain ⟨more, hmore, rfl⟩ := Option.map_eq_some_iff.mp h
    have htail := ih more (fun d hd => hs d (by simp [hd])) hmore
    intro d hd
    rcases List.mem_cons.mp hd with rfl | hd
    · exact hs _ (by simp)
    · exact htail d hd

/-- A decodable text may be cut before a character that is no hexadecimal digit. -/
theorem unescape_isSome_of_append (left : List Char) (d : Char) (right : List Char)
    (hd : hexValue d = none) (h : (unescape (left ++ d :: right)).isSome) :
    (unescape left).isSome := by
  fun_induction unescape left with
  | case1 => rfl
  | case2 a b tail hi lo ha hb ih =>
    rw [Option.isSome_map]
    rw [List.cons_append, List.cons_append, List.cons_append,
      unescape_triple a b _ hi lo hb ha, Option.isSome_map] at h
    exact ih h
  | case3 a b tail hnone =>
    rw [List.cons_append, List.cons_append, List.cons_append] at h
    rcases unescape_isSome_cases _ _ h with ⟨hne, -⟩ | ⟨a', b', tail', hi, lo, -, heq, ha, hb, -⟩
    · exact absurd rfl hne
    · simp only [List.cons.injEq] at heq
      obtain ⟨rfl, rfl, -⟩ := heq
      exact (hnone hi lo ha hb).elim
  | case4 rest hshort =>
    rw [List.cons_append] at h
    rcases unescape_isSome_cases _ _ h with ⟨hne, -⟩ | ⟨a', b', tail', hi, lo, -, heq, ha, hb, -⟩
    · exact absurd rfl hne
    · match rest, hshort with
      | [], _ => simp_all
      | [x], _ => simp_all
      | x :: y :: more, hshort => exact absurd rfl (hshort x y more)
  | case5 c rest hc ih =>
    rw [Option.isSome_map]
    rw [List.cons_append, unescape_plain c _ hc, Option.isSome_map] at h
    exact ih h

end Hyproxy.PercentCoding

import Hyproxy.AuthzCheck
import Hyproxy.Utf8

/-!
Texts through UTF-8 and back. What a text is encoded as decodes to the text, and an
ASCII character among any bytes is still there when they are decoded.
-/
namespace Hyproxy.Utf8Texts

open AuthzCheck (utf8)
open PercentCoding Utf8

theorem byte_toNat (n : ℕ) (hn : n < 256) : (Char.ofNat n).toNat = n :=
  toNat_ofNat n (Or.inl (by omega))

theorem utf8_cons (c : Char) (rest : List Char) : utf8 (c :: rest) = utf8 [c] ++ utf8 rest := by
  simp [utf8]

/-- The bytes of a character, by the length of its encoding. -/
theorem utf8_cases (c : Char) :
    (c.toNat < 0x80 ∧ utf8 [c] = [c]) ∨
    (0x80 ≤ c.toNat ∧ c.toNat < 0x800 ∧
      utf8 [c] = [Char.ofNat (c.toNat / 64 + 0xC0), Char.ofNat (c.toNat % 64 + 0x80)]) ∨
    (0x800 ≤ c.toNat ∧ c.toNat < 0x10000 ∧
      utf8 [c] = [Char.ofNat (c.toNat / 4096 + 0xE0), Char.ofNat (c.toNat / 64 % 64 + 0x80),
        Char.ofNat (c.toNat % 64 + 0x80)]) ∨
    (0x10000 ≤ c.toNat ∧ 
      utf8 [c] = [Char.ofNat (c.toNat / 262144 + 0xF0), Char.ofNat (c.toNat / 4096 % 64 + 0x80),
        Char.ofNat (c.toNat / 64 % 64 + 0x80), Char.ofNat (c.toNat % 64 + 0x80)]) := by
  have hv : c.val.toNat = c.toNat := rfl
  have hmax : c.toNat < 0x110000 := by
    rcases c.valid with h | h
    · omega
    · omega
  simp only [utf8, List.flatMap_cons, List.flatMap_nil, List.append_nil, String.utf8EncodeChar, hv]
  split_ifs with hone htwo hthree
  · left
    refine ⟨by omega, ?_⟩
    simp [Nat.mod_eq_of_lt (show c.toNat < 256 by omega)]
  · right; left
    refine ⟨by omega, by omega, ?_⟩
    simp
    constructor <;> congr 1 <;> omega
  · right; right; left
    refine ⟨by omega, by omega, ?_⟩
    simp
    refine ⟨?_, ?_, ?_⟩ <;> congr 1 <;> omega
  · right; right; right
    refine ⟨by omega, ?_⟩
    simp
    refine ⟨?_, ?_, ?_, ?_⟩ <;> congr 1 <;> omega

theorem lead_two (n : ℕ) (hlow : 0x80 ≤ n) (hhigh : n < 0x800) :
    lead (n / 64 + 0xC0) = some (1, 0x80, 0xBF) := by
  rw [lead, if_pos (by omega)]

/-- What the first byte of three announces allows the second one. -/
theorem lead_three (n : ℕ) (hlow : 0x800 ≤ n) (hhigh : n < 0x10000)
    (hvalid : n < 0xD800 ∨ 0xDFFF < n) :
    ∃ lo hi, lead (n / 4096 + 0xE0) = some (2, lo, hi) ∧
      lo ≤ n / 64 % 64 + 0x80 ∧ n / 64 % 64 + 0x80 ≤ hi := by
  unfold lead
  split_ifs
  · omega
  · exact ⟨0xA0, 0xBF, rfl, by omega, by omega⟩
  · exact ⟨0x80, 0x9F, rfl, by omega, by omega⟩
  · exact ⟨0x80, 0xBF, rfl, by omega, by omega⟩
  all_goals omega

theorem lead_four (n : ℕ) (hlow : 0x10000 ≤ n) (hhigh : n < 0x110000) :
    ∃ lo hi, lead (n / 262144 + 0xF0) = some (3, lo, hi) ∧
      lo ≤ n / 4096 % 64 + 0x80 ∧ n / 4096 % 64 + 0x80 ≤ hi := by
  unfold lead
  split_ifs
  any_goals omega
  · exact ⟨0x90, 0xBF, rfl, by omega, by omega⟩
  · exact ⟨0x80, 0xBF, rfl, by omega, by omega⟩
  · exact ⟨0x80, 0x8F, rfl, by omega, by omega⟩

theorem char_valid (c : Char) : c.toNat < 0xD800 ∨ (0xDFFF < c.toNat ∧ c.toNat < 0x110000) :=
  c.valid

/-- A complete sequence decodes to its code point. -/
theorem decodeLoop_sequence (maximal : Bool) (fuel n lo hi : ℕ) (b : Char) (more rest : List Char)
    (hb : 0x80 ≤ b.toNat) (hlead : lead b.toNat = some (n, lo, hi))
    (hpresent : present lo hi n (more ++ rest) = n) (hlength : more.length = n) :
    decodeLoop maximal (fuel + 1) (b :: (more ++ rest)) =
      Char.ofNat (codePoint b.toNat n more) :: decodeLoop maximal fuel rest := by
  have htake : codePoint b.toNat n (more ++ rest) = codePoint b.toNat n more := by
    simp [codePoint, ← hlength]
  rw [decodeLoop, if_neg (by omega), hlead]
  simp only [hpresent, if_pos, htake]
  rw [← hlength, List.drop_left]

theorem decodeLoop_char (maximal : Bool) (fuel : ℕ) (c : Char) (rest : List Char) :
    decodeLoop maximal (fuel + 1) (utf8 [c] ++ rest) = c :: decodeLoop maximal fuel rest := by
  have hvalid := char_valid c
  rcases utf8_cases c with ⟨hlow, hbytes⟩ | ⟨hlow, hhigh, hbytes⟩ | ⟨hlow, hhigh, hbytes⟩ |
    ⟨hlow, hbytes⟩
  · rw [hbytes, List.singleton_append, decodeLoop, if_pos hlow]
  · have hfirst := byte_toNat (c.toNat / 64 + 0xC0) (by omega)
    have hlast := byte_toNat (c.toNat % 64 + 0x80) (by omega)
    rw [hbytes, List.cons_append, decodeLoop_sequence maximal fuel 1 0x80 0xBF _ _ rest (by omega)
      (by rw [hfirst]; exact lead_two _ hlow hhigh) (by simp [present, hlast]; omega) rfl]
    have hpoint : codePoint (c.toNat / 64 + 0xC0) 1 [Char.ofNat (c.toNat % 64 + 0x80)] =
        c.toNat := by
      simp only [codePoint, List.take_succ_cons, List.take_zero, List.foldl_cons, List.foldl_nil,
        hlast, reduceIte]
      omega
    rw [hfirst, hpoint, Char.ofNat_toNat]
  · obtain ⟨lo, hi, hlead, hlo, hhi⟩ := lead_three c.toNat hlow hhigh (by omega)
    have hfirst := byte_toNat (c.toNat / 4096 + 0xE0) (by omega)
    have hsecond := byte_toNat (c.toNat / 64 % 64 + 0x80) (by omega)
    have hlast := byte_toNat (c.toNat % 64 + 0x80) (by omega)
    have hpresent : ∀ tail, present lo hi 2 (Char.ofNat (c.toNat / 64 % 64 + 0x80) ::
        Char.ofNat (c.toNat % 64 + 0x80) :: tail) = 2 := by
      intro tail
      rw [present, hsecond, if_pos ⟨hlo, hhi⟩, present, hlast, if_pos (by omega), present]
    rw [hbytes, List.cons_append, decodeLoop_sequence maximal fuel 2 lo hi _ _ rest (by omega)
      (by rw [hfirst]; exact hlead) (hpresent rest) rfl]
    have hpoint : codePoint (c.toNat / 4096 + 0xE0) 2
        [Char.ofNat (c.toNat / 64 % 64 + 0x80), Char.ofNat (c.toNat % 64 + 0x80)] = c.toNat := by
      simp only [codePoint, List.take_succ_cons, List.take_zero, List.foldl_cons, List.foldl_nil,
        hsecond, hlast, reduceIte, Nat.reduceEqDiff]
      omega
    rw [hfirst, hpoint, Char.ofNat_toNat]
  · obtain ⟨lo, hi, hlead, hlo, hhi⟩ := lead_four c.toNat hlow (by omega)
    have hfirst := byte_toNat (c.toNat / 262144 + 0xF0) (by omega)
    have hsecond := byte_toNat (c.toNat / 4096 % 64 + 0x80) (by omega)
    have hthird := byte_toNat (c.toNat / 64 % 64 + 0x80) (by omega)
    have hlast := byte_toNat (c.toNat % 64 + 0x80) (by omega)
    have hpresent : ∀ tail, present lo hi 3 (Char.ofNat (c.toNat / 4096 % 64 + 0x80) ::
        Char.ofNat (c.toNat / 64 % 64 + 0x80) :: Char.ofNat (c.toNat % 64 + 0x80) :: tail) = 3 := by
      intro tail
      rw [present, hsecond, if_pos ⟨hlo, hhi⟩, present, hthird, if_pos (by omega), present, hlast,
        if_pos (by omega), present]
    rw [hbytes, List.cons_append, decodeLoop_sequence maximal fuel 3 lo hi _ _ rest (by omega)
      (by rw [hfirst]; exact hlead) (hpresent rest) rfl]
    have hpoint : codePoint (c.toNat / 262144 + 0xF0) 3
        [Char.ofNat (c.toNat / 4096 % 64 + 0x80), Char.ofNat (c.toNat / 64 % 64 + 0x80),
          Char.ofNat (c.toNat % 64 + 0x80)] = c.toNat := by
      simp only [codePoint, List.take_succ_cons, List.take_zero, List.foldl_cons, List.foldl_nil,
        hsecond, hthird, hlast, reduceIte, Nat.reduceEqDiff]
      omega
    rw [hfirst, hpoint, Char.ofNat_toNat]

theorem length_utf8_char (c : Char) : 1 ≤ (utf8 [c]).length := by
  rcases utf8_cases c with ⟨-, hbytes⟩ | ⟨-, -, hbytes⟩ | ⟨-, -, hbytes⟩ | ⟨-, hbytes⟩ <;>
    simp [hbytes]

theorem decodeLoop_utf8 (maximal : Bool) (fuel : ℕ) (s : List Char)
    (hfuel : (utf8 s).length ≤ fuel) : decodeLoop maximal fuel (utf8 s) = s := by
  induction s generalizing fuel with
  | nil => cases fuel <;> rfl
  | cons c rest ih =>
    have hone := length_utf8_char c
    rw [utf8_cons, List.length_append] at hfuel
    obtain ⟨more, rfl⟩ : ∃ more, fuel = more + 1 := ⟨fuel - 1, by omega⟩
    rw [utf8_cons, decodeLoop_char, ih more (by omega)]

/-- Decoding undoes encoding. -/
theorem decode_utf8 (maximal : Bool) (s : List Char) : decode maximal (utf8 s) = s :=
  decodeLoop_utf8 maximal _ s (Nat.le_refl _)

/-! ### ASCII characters of any bytes -/

theorem mem_drop_present (lo hi n : ℕ) (s : List Char) (c : Char) (hc : c ∈ s)
    (hlow : c.toNat < 0x80) (hlo : 0x80 ≤ lo) : c ∈ s.drop (present lo hi n s) := by
  induction n generalizing lo hi s with
  | zero => simpa [present] using hc
  | succ n ih =>
    cases s with
    | nil => cases hc
    | cons d rest =>
      rw [present]
      split
      · rename_i hd
        rcases List.mem_cons.mp hc with rfl | hc
        · omega
        · exact ih 0x80 0xBF rest hc (Nat.le_refl _)
      · exact hc

theorem mem_decodeLoop (maximal : Bool) (fuel : ℕ) (s : List Char) (c : Char)
    (hfuel : s.length ≤ fuel) (hc : c ∈ s) (hlow : c.toNat < 0x80) :
    c ∈ decodeLoop maximal fuel s := by
  induction fuel generalizing s with
  | zero =>
    obtain rfl : s = [] := by simpa using hfuel
    cases hc
  | succ fuel ih =>
    cases s with
    | nil => cases hc
    | cons b rest =>
      rw [List.length_cons] at hfuel
      have hdrop : ∀ n, (rest.drop n).length ≤ fuel := fun n => by
        rw [List.length_drop]
        omega
      rw [decodeLoop]
      split
      · rcases List.mem_cons.mp hc with rfl | hc
        · simp
        · exact List.mem_cons_of_mem _ (ih rest (by omega) hc)
      · rename_i hb
        rcases List.mem_cons.mp hc with rfl | hc
        · omega
        split
        · exact List.mem_cons_of_mem _ (ih rest (by omega) hc)
        · rename_i n lo hi hlead
          have hmem := mem_drop_present lo hi n rest c hc hlow (lead_low _ _ _ _ hlead)
          split
          · rename_i hpresent
            rw [hpresent] at hmem
            exact List.mem_cons_of_mem _ (ih _ (hdrop n) hmem)
          · refine List.mem_cons_of_mem _ (ih _ (hdrop _) ?_)
            split
            · exact hmem
            · exact hc

/-- No decoder swallows an ASCII character. -/
theorem mem_decode (maximal : Bool) (s : List Char) (c : Char) (hc : c ∈ s)
    (hlow : c.toNat < 0x80) : c ∈ decode maximal s :=
  mem_decodeLoop maximal _ s c (Nat.le_refl _) hc hlow

end Hyproxy.Utf8Texts

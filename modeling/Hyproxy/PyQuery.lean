import Hyproxy.UrlQuery
import Hyproxy.Utf8
import Mathlib.Data.List.Forall2

/-!
Query strings in Python. `parse_qsl` decodes runs of ASCII characters as UTF-8,
leaves broken escapes and other characters alone, and a mapping built from its
pairs keeps the last value of a repeated key. Where the text of a key or a value
is ASCII, it is the same text that Go decodes.
-/
namespace Hyproxy.PyQuery

open PercentCoding Text UrlQuery Utf8

/-- `_unquote_impl`: a percent sign without two hexadecimal digits stays. -/
def unquoteBytes : List Char → List Char
  | c :: a :: b :: tail =>
    match c == '%', hexValue a, hexValue b with
    | true, some hi, some lo => Char.ofNat (16 * hi + lo) :: unquoteBytes tail
    | _, _, _ => c :: unquoteBytes (a :: b :: tail)
  | short => short

def isAscii (c : Char) : Bool := c.toNat < 0x80

def unquoteLoop : ℕ → List Char → List Char
  | 0, _ => []
  | _ + 1, [] => []
  | fuel + 1, c :: rest =>
    if isAscii c then
      decode true (unquoteBytes ((c :: rest).takeWhile isAscii)) ++
        unquoteLoop fuel ((c :: rest).dropWhile isAscii)
    else c :: unquoteLoop fuel rest

/-- `unquote`, run by run; every round takes at least one character. -/
def unquote (s : List Char) : List Char := unquoteLoop s.length s

def qslParam (part : List Char) : Option Param :=
  if part = [] then none
  else some (unquote (plusToSpace (cut '=' part).1), unquote (plusToSpace (cut '=' part).2))

/-- `parse_qsl` with blank values kept. -/
def parseQsl (query : List Char) : List Param := (query.splitOn '&').filterMap qslParam

/-- `query_params.get`: the last value of the key. -/
def getLast (query key : List Char) : Option (List Char) := (valuesOf (parseQsl query) key).getLast?

theorem unquoteBytes_plain (c : Char) (rest : List Char) (hc : c ≠ '%') :
    unquoteBytes (c :: rest) = c :: unquoteBytes rest := by
  rcases rest with _ | ⟨a, _ | ⟨b, tail⟩⟩
  · rfl
  · rfl
  · rw [unquoteBytes]
    simp [hc]

theorem unescape_eq_unquoteBytes (s : List Char) (h : (unescape s).isSome) :
    unescape s = some (unquoteBytes s) := by
  fun_induction unescape s with
  | case1 => rfl
  | case2 a b tail hi lo hlo hhi ih =>
    rw [Option.isSome_map] at h
    rw [ih h, unquoteBytes]
    simp [hhi, hlo]
  | case3 => cases h
  | case4 => cases h
  | case5 c rest hc ih =>
    rw [Option.isSome_map] at h
    rw [ih h, unquoteBytes_plain c rest hc]
    rfl

theorem ascii_of_unescape (s out : List Char) (h : unescape s = some out) (hout : Ascii out) :
    Ascii s := by
  fun_induction unescape s generalizing out with
  | case1 => simp [Ascii]
  | case2 a b tail hi lo hlo hhi ih =>
    obtain ⟨more, hmore, rfl⟩ := Option.map_eq_some_iff.mp h
    have htail := ih more hmore (fun c hc => hout c (List.mem_cons_of_mem _ hc))
    have hhex : ∀ c n, hexValue c = some n → c.toNat < 0x80 := by
      intro c n hc
      have hle : ∀ hi : Char, c ≤ hi → c.toNat ≤ hi.toNat := fun _ h => h
      have h9 := hle '9'
      have hf := hle 'f'
      have hF := hle 'F'
      simp only [Char.reduceToNat] at h9 hf hF
      unfold hexValue at hc
      split_ifs at hc with h1 h2 h3
      · have := h9 h1.2
        omega
      · have := hf h2.2
        omega
      · have := hF h3.2
        omega
    intro c hc
    simp only [List.mem_cons] at hc
    rcases hc with rfl | rfl | rfl | hc
    · decide
    · exact hhex _ _ hhi
    · exact hhex _ _ hlo
    · exact htail c hc
  | case3 => cases h
  | case4 => cases h
  | case5 c rest hc ih =>
    obtain ⟨more, hmore, rfl⟩ := Option.map_eq_some_iff.mp h
    have hrest := ih more hmore (fun d hd => hout d (List.mem_cons_of_mem _ hd))
    intro d hd
    rcases List.mem_cons.mp hd with rfl | hd
    · exact hout _ (by simp)
    · exact hrest d hd

theorem unquote_ascii (s : List Char) (hs : Ascii s) :
    unquote s = decode true (unquoteBytes s) := by
  cases s with
  | nil => rfl
  | cons c rest =>
    have hall : ∀ d ∈ c :: rest, isAscii d = true := fun d hd => by simpa [isAscii] using hs d hd
    have htake : (c :: rest).takeWhile isAscii = c :: rest := List.takeWhile_eq_self_iff.mpr hall
    have hdrop : (c :: rest).dropWhile isAscii = [] := List.dropWhile_eq_nil_iff.mpr hall
    rw [unquote, List.length_cons, unquoteLoop, if_pos (hall c (by simp)), htake, hdrop]
    cases rest.length <;> simp [unquoteLoop]

theorem ascii_of_unquoteLoop (fuel : ℕ) (s : List Char) (hfuel : s.length ≤ fuel)
    (h : Ascii (unquoteLoop fuel s)) : Ascii s := by
  induction fuel generalizing s with
  | zero =>
    obtain rfl : s = [] := List.length_eq_zero_iff.mp (by omega)
    simp [Ascii]
  | succ fuel ih =>
    cases s with
    | nil => simp [Ascii]
    | cons c rest =>
      rw [unquoteLoop] at h
      split at h
      · rename_i hc
        have hdrop : ((c :: rest).dropWhile isAscii).length ≤ fuel := by
          rw [List.dropWhile_cons_of_pos hc]
          have := (List.dropWhile_suffix isAscii (l := rest)).length_le
          rw [List.length_cons] at hfuel
          omega
        have hlate := ih _ hdrop (fun d hd => h d (List.mem_append_right _ hd))
        intro d hd
        rw [← List.takeWhile_append_dropWhile (p := isAscii) (l := c :: rest)] at hd
        rcases List.mem_append.mp hd with hd | hd
        · simpa [isAscii] using List.mem_takeWhile_imp hd
        · exact hlate d hd
      · rename_i hc
        exact absurd (h c (by simp)) (by simpa [isAscii] using hc)

/-- Where a decodable text stands for ASCII, Python and Go read the same. -/
theorem unquote_eq_iff (s t : List Char) (hs : (unescape s).isSome) (ht : Ascii t) :
    unquote s = t ↔ unescape s = some t := by
  constructor
  · rintro rfl
    have hascii := ascii_of_unquoteLoop s.length s (Nat.le_refl _) ht
    rw [unquote_ascii s hascii] at ht ⊢
    have hbytes := (decode_eq_ascii_iff true (unquoteBytes s) _ ht).mp rfl
    rw [unescape_eq_unquoteBytes s hs, ← hbytes]
  · intro h
    have hascii := ascii_of_unescape s t h ht
    have hbytes : unquoteBytes s = t := by
      rw [unescape_eq_unquoteBytes s hs] at h
      exact Option.some.inj h
    rw [unquote_ascii s hascii, hbytes]
    exact decode_ascii true t ht

theorem plusToSpace_decodes (s : List Char) (h : (unescape s).isSome) :
    (unescape (plusToSpace s)).isSome := by
  fun_induction unescape s with
  | case1 => rfl
  | case2 a b tail hi lo hlo hhi ih =>
    rw [Option.isSome_map] at h
    have hplus : ∀ c n, hexValue c = some n → ¬ c = '+' := by
      rintro c n hc rfl
      exact absurd hc (by simp [hexValue])
    have hmap : plusToSpace ('%' :: a :: b :: tail) = '%' :: a :: b :: plusToSpace tail := by
      simp [plusToSpace, hplus a hi hhi, hplus b lo hlo]
    rw [hmap, unescape_triple a b _ hi lo hhi hlo, Option.isSome_map]
    exact ih h
  | case3 => cases h
  | case4 => cases h
  | case5 c rest hc ih =>
    rw [Option.isSome_map] at h
    have hmap : plusToSpace (c :: rest) = (if c = '+' then ' ' else c) :: plusToSpace rest := rfl
    have hne : (if c = '+' then ' ' else c) ≠ '%' := by
      split
      · decide
      · exact hc
    rw [hmap, unescape_plain _ _ hne, Option.isSome_map]
    exact ih h

theorem decodes_of_append (left right : List Char) (sep : Char) (hhex : hexValue sep = none)
    (hpct : sep ≠ '%') (h : (unescape (left ++ sep :: right)).isSome) :
    (unescape left).isSome ∧ (unescape right).isSome := by
  have hleft := unescape_isSome_of_append left sep right hhex h
  obtain ⟨out, hout⟩ := Option.isSome_iff_exists.mp hleft
  rw [unescape_append left _ out hout, Option.isSome_map, unescape_plain _ _ hpct,
    Option.isSome_map] at h
  exact ⟨hleft, h⟩

theorem splitOn_decodes (s : List Char) (sep : Char) (hhex : hexValue sep = none)
    (hpct : sep ≠ '%') (h : (unescape s).isSome) :
    ∀ part ∈ s.splitOn sep, (unescape part).isSome := by
  induction hn : s.length using Nat.strong_induction_on generalizing s with
  | _ n ih =>
    by_cases hsep : sep ∈ s
    · obtain ⟨left, right, rfl, hleft⟩ := List.eq_append_cons_of_mem hsep
      obtain ⟨hl, hr⟩ := decodes_of_append left right sep hhex hpct h
      rw [List.splitOn_append_cons_self_of_not_mem hleft]
      intro part hpart
      rcases List.mem_cons.mp hpart with rfl | hpart
      · exact hl
      · refine ih right.length ?_ right hr rfl part hpart
        simp only [List.length_append, List.length_cons] at hn
        omega
    · rw [List.splitOn_eq_singleton hsep]
      simpa using h

theorem cut_decodes (part : List Char) (h : (unescape part).isSome) :
    (unescape (cut '=' part).1).isSome ∧ (unescape (cut '=' part).2).isSome := by
  by_cases hsep : '=' ∈ part
  · obtain ⟨left, right, rfl, hleft⟩ := List.eq_append_cons_of_mem hsep
    rw [cut_append '=' left right hleft]
    exact decodes_of_append left right '=' (by decide) (by decide) h
  · rw [cut_of_not_mem '=' part hsep]
    exact ⟨h, rfl⟩

/-- Two readings of one parameter that cannot be told apart by ASCII texts. -/
def Agree (go py : Param) : Prop :=
  (∀ t, Ascii t → (py.1 = t ↔ go.1 = t)) ∧ (∀ t, Ascii t → (py.2 = t ↔ go.2 = t))

theorem agree_part (part : List Char) (hne : part ≠ []) (hsemi : ';' ∉ part)
    (h : (unescape part).isSome) :
    ∃ go py, parseParam part = some go ∧ qslParam part = some py ∧ Agree go py := by
  obtain ⟨hkey, hvalue⟩ := cut_decodes part h
  have hkey' := plusToSpace_decodes _ hkey
  have hvalue' := plusToSpace_decodes _ hvalue
  obtain ⟨key, hk⟩ := Option.isSome_iff_exists.mp hkey'
  obtain ⟨value, hv⟩ := Option.isSome_iff_exists.mp hvalue'
  refine ⟨(key, value), _, ?_, if_neg hne, ?_, ?_⟩
  · simp [parseParam, hsemi, hne, queryUnescape, hk, hv]
  · intro t ht
    rw [unquote_eq_iff _ t hkey' ht, hk, Option.some.injEq]
  · intro t ht
    rw [unquote_eq_iff _ t hvalue' ht, hv, Option.some.injEq]

/-- On a clean query both languages read the same parameters, one by one. -/
theorem agree_of_clean (query : List Char) (hclean : Clean query) :
    List.Forall₂ Agree (params query) (parseQsl query) := by
  have hparts : ∀ part ∈ query.splitOn '&', ';' ∉ part ∧ (unescape part).isSome :=
    fun part hpart => ⟨fun h => hclean.1 (Text.mem_of_mem_splitOn query '&' part hpart _ h),
      splitOn_decodes query '&' (by decide) (by decide) hclean.2 part hpart⟩
  unfold params parseQsl
  generalize query.splitOn '&' = parts at hparts
  induction parts with
  | nil => exact List.Forall₂.nil
  | cons part rest ih =>
    have hrest := ih (fun p hp => hparts p (List.mem_cons_of_mem _ hp))
    by_cases hne : part = []
    · subst hne
      simpa [List.filterMap_cons, parseParam, qslParam] using hrest
    · obtain ⟨hsemi, hsome⟩ := hparts part (by simp)
      obtain ⟨go, py, hgo, hpy, hagree⟩ := agree_part part hne hsemi hsome
      rw [List.filterMap_cons_some hgo, List.filterMap_cons_some hpy]
      exact List.Forall₂.cons hagree hrest

theorem agree_valuesOf (gos pys : List Param) (h : List.Forall₂ Agree gos pys) (key : List Char)
    (hkey : Ascii key) :
    List.Forall₂ (fun go py => ∀ t, Ascii t → (py = t ↔ go = t)) (valuesOf gos key)
      (valuesOf pys key) := by
  induction h with
  | nil => exact List.Forall₂.nil
  | @cons go py gos pys hagree _ ih =>
    unfold valuesOf at ih ⊢
    by_cases hk : go.1 = key
    · have hk' : py.1 = key := (hagree.1 key hkey).mpr hk
      rw [List.filter_cons_of_pos (by simpa using hk), List.filter_cons_of_pos (by simpa using hk')]
      exact List.Forall₂.cons hagree.2 ih
    · have hk' : ¬ py.1 = key := fun h => hk ((hagree.1 key hkey).mp h)
      rw [List.filter_cons_of_neg (by simpa using hk), List.filter_cons_of_neg (by simpa using hk')]
      exact ih

theorem forall₂_getLast {R : List Char → List Char → Prop} (left right : List (List Char))
    (h : List.Forall₂ R left right) :
    (left.getLast? = none ∧ right.getLast? = none) ∨
      ∃ a b, left.getLast? = some a ∧ right.getLast? = some b ∧ R a b := by
  induction h with
  | nil => exact Or.inl ⟨rfl, rfl⟩
  | @cons a b left right hab htail ih =>
    right
    cases htail with
    | nil => exact ⟨a, b, rfl, rfl, hab⟩
    | cons hcd hmore =>
      rw [List.getLast?_cons_cons, List.getLast?_cons_cons]
      rcases ih with ⟨hnone, -⟩ | h
      · simp at hnone
      · exact h

/-- The value that Python takes for a key is the last one that Go reads. -/
theorem getLast_eq_iff (query key t : List Char) (hclean : Clean query) (hkey : Ascii key)
    (ht : Ascii t) :
    getLast query key = some t ↔ (valuesOf (params query) key).getLast? = some t := by
  have hvalues := agree_valuesOf _ _ (agree_of_clean query hclean) key hkey
  unfold getLast
  rcases forall₂_getLast _ _ hvalues with ⟨h1, h2⟩ | ⟨a, b, h1, h2, hab⟩
  · rw [h1, h2]
  · rw [h1, h2, Option.some.injEq, Option.some.injEq]
    exact hab t ht

end Hyproxy.PyQuery

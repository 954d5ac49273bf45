import Hyproxy.PercentCoding
import Mathlib.Tactic.SplitIfs

/-!
Dictionaries of strings as JSON, in the form of Python's `json.dumps` without white space. All
that is written is ASCII, and a text is written by one dictionary only: a string can be read back
character by character.
-/
namespace Hyproxy.JsonTexts

open PercentCoding (hexValue)

abbrev Text := List Char

def hexDigit (n : ℕ) : Char := "0123456789abcdef".toList.getD n '0'

/-- The letter behind the backslash, for the characters that have one. -/
def shortEscape (c : Char) : Option Char :=
  if c = '"' then some '"'
  else if c = '\\' then some '\\'
  else if c = '\n' then some 'n'
  else if c = '\r' then some 'r'
  else if c = '\t' then some 't'
  else if c.toNat = 12 then some 'f'
  else if c.toNat = 8 then some 'b'
  else none

def unitEscape (n : ℕ) : Text :=
  ['\\', 'u', hexDigit (n / 4096), hexDigit (n / 256 % 16), hexDigit (n / 16 % 16),
    hexDigit (n % 16)]

/-- A character outside ASCII is written as its units in UTF-16. -/
def escape (c : Char) : Text :=
  match shortEscape c with
  | some letter => ['\\', letter]
  | none =>
    if ' ' ≤ c ∧ c ≤ '~' then [c]
    else if c.toNat < 0x10000 then unitEscape c.toNat
    else unitEscape (0xD800 + (c.toNat - 0x10000) / 1024) ++
      unitEscape (0xDC00 + (c.toNat - 0x10000) % 1024)

def quote (s : Text) : Text := '"' :: (s.flatMap escape ++ ['"'])

abbrev Fields := List (Text × Text)

def item (field : Text × Text) : Text := quote field.1 ++ ':' :: quote field.2

def items : Fields → Text
  | [] => []
  | field :: rest => item field ++ rest.flatMap fun next => ',' :: item next

/-- `json.dumps` -/
def dumps (fields : Fields) : Text := '\x7b' :: (items fields ++ ['\x7d'])

/-- `str.encode()`, for texts in ASCII -/
def encode (s : Text) : List UInt8 := s.map fun c => UInt8.ofNat c.toNat

/-! ### Reading a string back -/

def unitValue (a b c d : Char) : ℕ :=
  (hexValue a).getD 0 * 4096 + (hexValue b).getD 0 * 256 + (hexValue c).getD 0 * 16 +
    (hexValue d).getD 0

def longChar (letter : Char) : Char :=
  if letter = 'n' then '\n'
  else if letter = 'r' then '\r'
  else if letter = 't' then '\t'
  else if letter = 'f' then Char.ofNat 12
  else if letter = 'b' then Char.ofNat 8
  else letter

/-- The first character of a string that was written. -/
def readChar : Text → Option Char
  | '\\' :: 'u' :: a :: b :: c :: d :: rest =>
    if 0xD800 ≤ unitValue a b c d ∧ unitValue a b c d < 0xDC00 then
      match rest with
      | _ :: _ :: a' :: b' :: c' :: d' :: _ =>
        some (Char.ofNat (0x10000 + (unitValue a b c d - 0xD800) * 1024 +
          (unitValue a' b' c' d' - 0xDC00)))
      | _ => none
    else some (Char.ofNat (unitValue a b c d))
  | '\\' :: letter :: _ => some (longChar letter)
  | c :: _ => some c
  | [] => none

theorem hexValue_hexDigit (n : ℕ) (hn : n < 16) : hexValue (hexDigit n) = some n := by
  have hall : ∀ i : Fin 16, hexValue (hexDigit i) = some i.val := by decide
  exact hall ⟨n, hn⟩

theorem unitValue_unit (n : ℕ) (hn : n < 0x10000) :
    unitValue (hexDigit (n / 4096)) (hexDigit (n / 256 % 16)) (hexDigit (n / 16 % 16))
      (hexDigit (n % 16)) = n := by
  rw [unitValue, hexValue_hexDigit _ (by omega), hexValue_hexDigit _ (by omega),
    hexValue_hexDigit _ (by omega), hexValue_hexDigit _ (by omega)]
  simp only [Option.getD_some]
  omega

theorem readChar_unit (n : ℕ) (rest : Text) (hn : n < 0x10000)
    (hlow : n < 0xD800 ∨ 0xDC00 ≤ n) : readChar (unitEscape n ++ rest) = some (Char.ofNat n) := by
  simp only [unitEscape, List.cons_append, List.nil_append, readChar, unitValue_unit n hn]
  rw [if_neg (by omega)]

theorem readChar_pair (n : ℕ) (rest : Text) (hlow : 0x10000 ≤ n) (hn : n < 0x110000) :
    readChar (unitEscape (0xD800 + (n - 0x10000) / 1024) ++
      unitEscape (0xDC00 + (n - 0x10000) % 1024) ++ rest) = some (Char.ofNat n) := by
  have hhigh := unitValue_unit (0xD800 + (n - 0x10000) / 1024) (by omega)
  have hlast := unitValue_unit (0xDC00 + (n - 0x10000) % 1024) (by omega)
  simp only [unitEscape, List.cons_append, List.nil_append, readChar, hhigh, hlast]
  have hsum : 0x10000 + (0xD800 + (n - 0x10000) / 1024 - 0xD800) * 1024 +
      (0xDC00 + (n - 0x10000) % 1024 - 0xDC00) = n := by omega
  rw [if_pos (by omega), hsum]

theorem shortEscape_spec (c letter : Char) (h : shortEscape c = some letter) :
    letter ≠ 'u' ∧ longChar letter = c := by
  unfold shortEscape at h
  split_ifs at h with h1 h2 h3 h4 h5 h6 h7 <;> obtain rfl := Option.some.inj h
  · exact ⟨by decide, h1.symm⟩
  · exact ⟨by decide, h2.symm⟩
  · exact ⟨by decide, h3.symm⟩
  · exact ⟨by decide, h4.symm⟩
  · exact ⟨by decide, h5.symm⟩
  · exact ⟨by decide, by rw [← Char.ofNat_toNat c, h6]; rfl⟩
  · exact ⟨by decide, by rw [← Char.ofNat_toNat c, h7]; rfl⟩

theorem readChar_letter (letter : Char) (rest : Text) (h : letter ≠ 'u') :
    readChar ('\\' :: letter :: rest) = some (longChar letter) := by
  unfold readChar
  split
  · rename_i heq
    injection heq with _ heq
    injection heq with heq _
    exact absurd heq h
  · rename_i heq
    injection heq with _ heq
    injection heq with heq _
    rw [heq]
  · rename_i hnot heq
    injection heq with hslash htail
    exact absurd htail.symm (hnot _ _ hslash.symm)
  · rename_i heq
    cases heq

theorem readChar_plain (c : Char) (rest : Text) (h : c ≠ '\\') : readChar (c :: rest) = some c := by
  unfold readChar
  split
  · rename_i heq
    injection heq with heq _
    exact absurd heq h
  · rename_i heq
    injection heq with heq _
    exact absurd heq h
  · rename_i heq
    injection heq with heq _
    rw [heq]
  · rename_i heq
    cases heq

theorem toNat_scalar (c : Char) :
    c.toNat < 0xD800 ∨ (0xDFFF < c.toNat ∧ c.toNat < 0x110000) :=
  c.valid

theorem shortEscape_none (c : Char) (h : shortEscape c = none) : c ≠ '"' ∧ c ≠ '\\' := by
  constructor
  · rintro rfl
    cases h
  · rintro rfl
    cases h

theorem readChar_escape (c : Char) (rest : Text) : readChar (escape c ++ rest) = some c := by
  have hscalar := toNat_scalar c
  unfold escape
  cases hshort : shortEscape c with
  | some letter =>
    obtain ⟨hunit, hlong⟩ := shortEscape_spec c letter hshort
    exact (readChar_letter letter rest hunit).trans (congrArg some hlong)
  | none =>
    simp only
    split_ifs with hplain hunit
    · exact readChar_plain c rest (shortEscape_none c hshort).2
    · rw [readChar_unit c.toNat rest hunit (by omega), Char.ofNat_toNat]
    · rw [readChar_pair c.toNat rest (by omega) (by omega), Char.ofNat_toNat]

theorem escape_head (c : Char) : ∃ d tail, escape c = d :: tail ∧ d ≠ '"' := by
  unfold escape
  cases hshort : shortEscape c with
  | some letter => exact ⟨_, _, rfl, by decide⟩
  | none =>
    simp only
    split_ifs with hplain hunit
    · exact ⟨c, [], rfl, (shortEscape_none c hshort).1⟩
    · exact ⟨_, _, rfl, by decide⟩
    · exact ⟨_, _, rfl, by decide⟩

/-! ### Dictionaries that are written alike -/

theorem escape_inj (c d : Char) (left right : Text) (h : escape c ++ left = escape d ++ right) :
    c = d ∧ left = right := by
  have hread := readChar_escape c left
  rw [h, readChar_escape, Option.some.injEq] at hread
  subst hread
  exact ⟨rfl, List.append_cancel_left h⟩

theorem quote_inj (s t left right : Text) (h : quote s ++ left = quote t ++ right) :
    s = t ∧ left = right := by
  simp only [quote, List.cons_append, List.append_assoc, List.cons.injEq, true_and,
    List.nil_append] at h
  induction s generalizing t with
  | nil =>
    cases t with
    | nil => exact ⟨rfl, (List.cons.inj h).2⟩
    | cons d t =>
      obtain ⟨first, tail, hescape, hne⟩ := escape_head d
      rw [List.flatMap_cons, hescape] at h
      exact absurd (List.cons.inj h).1.symm hne
  | cons c s ih =>
    cases t with
    | nil =>
      obtain ⟨first, tail, hescape, hne⟩ := escape_head c
      rw [List.flatMap_cons, hescape] at h
      exact absurd (List.cons.inj h).1 hne
    | cons d t =>
      rw [List.flatMap_cons, List.flatMap_cons, List.append_assoc, List.append_assoc] at h
      obtain ⟨rfl, hrest⟩ := escape_inj c d _ _ h
      obtain ⟨rfl, hend⟩ := ih t hrest
      exact ⟨rfl, hend⟩

theorem item_inj (p q : Text × Text) (left right : Text) (h : item p ++ left = item q ++ right) :
    p = q ∧ left = right := by
  simp only [item, List.append_assoc, List.cons_append] at h
  obtain ⟨hkey, hrest⟩ := quote_inj _ _ _ _ h
  obtain ⟨hvalue, hend⟩ := quote_inj _ _ _ _ (List.cons.inj hrest).2
  exact ⟨Prod.ext hkey hvalue, hend⟩

theorem tail_inj (p q : Fields)
    (h : (p.flatMap fun next => ',' :: item next) ++ ['\x7d'] =
      (q.flatMap fun next => ',' :: item next) ++ ['\x7d']) : p = q := by
  induction p generalizing q with
  | nil =>
    cases q with
    | nil => rfl
    | cons next q => exact absurd (List.cons.inj h).1 (by decide)
  | cons field p ih =>
    cases q with
    | nil => exact absurd (List.cons.inj h).1 (by decide)
    | cons next q =>
      rw [List.flatMap_cons, List.flatMap_cons, List.append_assoc, List.append_assoc] at h
      obtain ⟨rfl, hrest⟩ := item_inj field next _ _ (List.cons.inj h).2
      rw [ih q hrest]

theorem dumps_inj (p q : Fields) (h : dumps p = dumps q) : p = q := by
  have hitems := (List.cons.inj h).2
  cases p with
  | nil =>
    cases q with
    | nil => rfl
    | cons next q => exact absurd (List.cons.inj hitems).1 (by decide)
  | cons field p =>
    cases q with
    | nil => exact absurd (List.cons.inj hitems).1 (by decide)
    | cons next q =>
      rw [items, items, List.append_assoc, List.append_assoc] at hitems
      obtain ⟨rfl, hrest⟩ := item_inj field next _ _ hitems
      rw [tail_inj p q hrest]

/-! ### ASCII -/

theorem hexDigit_ascii (n : ℕ) : (hexDigit n).toNat < 0x80 := by
  rcases Nat.lt_or_ge n 16 with hn | hn
  · have hall : ∀ i : Fin 16, (hexDigit i).toNat < 0x80 := by decide
    exact hall ⟨n, hn⟩
  · have hnone : "0123456789abcdef".toList[n]? = none := List.getElem?_eq_none hn
    rw [hexDigit, List.getD_eq_getElem?_getD, hnone]
    decide

theorem unitEscape_ascii (n : ℕ) : ∀ c ∈ unitEscape n, c.toNat < 0x80 := by
  intro c hc
  simp only [unitEscape, List.mem_cons, List.not_mem_nil, or_false] at hc
  rcases hc with rfl | rfl | rfl | rfl | rfl | rfl
  · decide
  · decide
  all_goals exact hexDigit_ascii _

theorem shortEscape_ascii (c letter : Char) (h : shortEscape c = some letter) :
    letter.toNat < 0x80 := by
  unfold shortEscape at h
  split_ifs at h <;> obtain rfl := Option.some.inj h <;> decide

theorem escape_ascii (c : Char) : ∀ d ∈ escape c, d.toNat < 0x80 := by
  unfold escape
  cases hshort : shortEscape c with
  | some letter =>
    intro d hd
    rcases List.mem_cons.mp hd with rfl | hd
    · decide
    · rw [List.mem_singleton.mp hd]
      exact shortEscape_ascii c letter hshort
  | none =>
    simp only
    split_ifs with hplain hunit
    · intro d hd
      rw [List.mem_singleton.mp hd]
      exact Nat.lt_of_le_of_lt (show c.toNat ≤ '~'.toNat from hplain.2) (by decide)
    · exact unitEscape_ascii _
    · intro d hd
      rcases List.mem_append.mp hd with hd | hd
      · exact unitEscape_ascii _ d hd
      · exact unitEscape_ascii _ d hd

theorem item_ascii (field : Text × Text) : ∀ c ∈ item field, c.toNat < 0x80 := by
  have hquote : ∀ s : Text, ∀ c ∈ quote s, c.toNat < 0x80 := by
    intro s c hc
    rcases List.mem_cons.mp hc with rfl | hc
    · decide
    · rcases List.mem_append.mp hc with hc | hc
      · obtain ⟨d, -, hd⟩ := List.mem_flatMap.mp hc
        exact escape_ascii d c hd
      · rw [List.mem_singleton.mp hc]
        decide
  intro c hc
  rcases List.mem_append.mp hc with hc | hc
  · exact hquote _ c hc
  · rcases List.mem_cons.mp hc with rfl | hc
    · decide
    · exact hquote _ c hc

theorem dumps_ascii (fields : Fields) : ∀ c ∈ dumps fields, c.toNat < 0x80 := by
  intro c hc
  rcases List.mem_cons.mp hc with rfl | hc
  · decide
  rcases List.mem_append.mp hc with hc | hc
  · cases fields with
    | nil => cases hc
    | cons field rest =>
      rcases List.mem_append.mp hc with hc | hc
      · exact item_ascii field c hc
      · obtain ⟨next, -, hnext⟩ := List.mem_flatMap.mp hc
        rcases List.mem_cons.mp hnext with rfl | hnext
        · decide
        · exact item_ascii next c hnext
  · rw [List.mem_singleton.mp hc]
    decide

theorem encode_inj (s t : Text) (hs : ∀ c ∈ s, c.toNat < 0x80) (ht : ∀ c ∈ t, c.toNat < 0x80)
    (h : encode s = encode t) : s = t := by
  have hback : ∀ s : Text, (∀ c ∈ s, c.toNat < 0x80) →
      (encode s).map (fun byte => Char.ofNat byte.toNat) = s := by
    intro s hs
    rw [encode, List.map_map]
    refine (List.map_congr_left fun c hc => ?_).trans (List.map_id s)
    have hlow := hs c hc
    simp only [Function.comp_apply, UInt8.toNat_ofNat', id_eq]
    rw [Nat.mod_eq_of_lt (by omega), Char.ofNat_toNat]
  rw [← hback s hs, h, hback t ht]

theorem encode_dumps_inj (p q : Fields) (h : encode (dumps p) = encode (dumps q)) : p = q :=
  dumps_inj p q (encode_inj _ _ (dumps_ascii p) (dumps_ascii q) h)

end Hyproxy.JsonTexts

import Hyproxy.JsonTexts
import Mathlib.Data.Int.Notation

/-!
JSON values, written as Python's `json.dumps` does without white space and read as `json.loads`
does. What was written is read back, up to the order in which a dictionary that has a key twice
keeps it. Numbers are integers: a text with a fraction or an exponent is not read.
-/
namespace Hyproxy.JsonValues

open JsonTexts (Text escape hexDigit longChar quote shortEscape unitEscape)
open PercentCoding (hexValue)

inductive Json
  | null
  | bool (b : Bool)
  | int (n : ℤ)
  | str (s : Text)
  | arr (items : List Json)
  | obj (fields : List (Text × Json))
  deriving Repr

abbrev Fields := List (Text × Json)

/-! ### Writing -/

def natText (n : ℕ) : Text := Nat.toDigits 10 n

def intText (n : ℤ) : Text := if n < 0 then '-' :: natText n.natAbs else natText n.natAbs

mutual

def write : Json → Text
  | .null => "null".toList
  | .bool true => "true".toList
  | .bool false => "false".toList
  | .int n => intText n
  | .str s => quote s
  | .arr items => '[' :: writeItems items
  | .obj fields => '\x7b' :: writeFields fields

/-- The elements of an array, with the bracket behind them. -/
def writeItems : List Json → Text
  | [] => [']']
  | v :: rest => write v ++ writeMoreItems rest

def writeMoreItems : List Json → Text
  | [] => [']']
  | v :: rest => ',' :: (write v ++ writeMoreItems rest)

/-- The fields of an object, with the brace behind them. -/
def writeFields : List (Text × Json) → Text
  | [] => ['\x7d']
  | (key, v) :: rest => quote key ++ ':' :: (write v ++ writeMoreFields rest)

def writeMoreFields : List (Text × Json) → Text
  | [] => ['\x7d']
  | (key, v) :: rest => ',' :: (quote key ++ ':' :: (write v ++ writeMoreFields rest))

end

/-! ### Reading -/

def isBlank (c : Char) : Bool := c = ' ' || c = '\t' || c = '\n' || c = '\r'

def skip (s : Text) : Text := s.dropWhile isBlank

/-- The unit of four hexadecimal digits. -/
def unit (a b c d : Char) : Option ℕ := do
  let a ← hexValue a
  let b ← hexValue b
  let c ← hexValue c
  let d ← hexValue d
  some (a * 4096 + b * 256 + c * 16 + d)

def isShort (letter : Char) : Bool := "\"\\/bfnrt".toList.contains letter

/-- The rest of a string behind its opening quote, and what follows the closing one. Half of a
surrogate pair is not read. -/
def readString : Text → Option (Text × Text)
  | '"' :: rest => some ([], rest)
  | '\\' :: 'u' :: a :: b :: c :: d :: rest => do
    let high ← unit a b c d
    if 0xD800 ≤ high ∧ high < 0xDC00 then
      match rest with
      | '\\' :: 'u' :: a :: b :: c :: d :: rest => do
        let low ← unit a b c d
        if 0xDC00 ≤ low ∧ low < 0xE000 then do
          let (s, rest) ← readString rest
          some (Char.ofNat (0x10000 + (high - 0xD800) * 1024 + (low - 0xDC00)) :: s, rest)
        else none
      | _ => none
    else if 0xDC00 ≤ high ∧ high < 0xE000 then none
    else do
      let (s, rest) ← readString rest
      some (Char.ofNat high :: s, rest)
  | '\\' :: letter :: rest =>
    if isShort letter then do
      let (s, rest) ← readString rest
      some (longChar letter :: s, rest)
    else none
  | c :: rest =>
    if ' ' ≤ c ∧ c ≠ '\\' then do
      let (s, rest) ← readString rest
      some (c :: s, rest)
    else none
  | [] => none

/-- The number may not go on with a fraction or an exponent. -/
def isPart (s : Text) : Bool := s.head?.any fun c => c = '.' || c = 'e' || c = 'E'

def readNat (s : Text) : Option (ℕ × Text) :=
  match s.takeWhile Char.isDigit, s.dropWhile Char.isDigit with
  | [], _ => none
  | digits, rest =>
    if isPart rest || (digits.head? = some '0' && digits ≠ ['0']) then none
    else some (Nat.ofDigitChars 10 digits 0, rest)

def readInt : Text → Option (ℤ × Text)
  | '-' :: rest => (readNat rest).map fun (n, rest) => (-n, rest)
  | s => (readNat s).map fun (n, rest) => (n, rest)

/-- A value for a key, in the place of an earlier one. -/
def setField (fields : Fields) (key : Text) (v : Json) : Fields :=
  if fields.any fun field => field.1 = key then
    fields.map fun field => if field.1 = key then (key, v) else field
  else fields ++ [(key, v)]

/-- `dict.update` -/
def update (fields more : Fields) : Fields :=
  more.foldl (fun fields p => setField fields p.1 p.2) fields

/-- The dictionary of a list of pairs. -/
def dict (pairs : Fields) : Fields := update [] pairs

mutual

def readValue : ℕ → Text → Option (Json × Text)
  | 0, _ => none
  | _ + 1, 'n' :: 'u' :: 'l' :: 'l' :: rest => some (.null, rest)
  | _ + 1, 't' :: 'r' :: 'u' :: 'e' :: rest => some (.bool true, rest)
  | _ + 1, 'f' :: 'a' :: 'l' :: 's' :: 'e' :: rest => some (.bool false, rest)
  | _ + 1, '"' :: rest => (readString rest).map fun (s, rest) => (.str s, rest)
  | fuel + 1, '[' :: rest =>
    match skip rest with
    | ']' :: rest => some (.arr [], rest)
    | s => (readItems fuel s).map fun (items, rest) => (.arr items, rest)
  | fuel + 1, '\x7b' :: rest =>
    match skip rest with
    | '\x7d' :: rest => some (.obj [], rest)
    | s => (readFields fuel s).map fun (fields, rest) => (.obj (dict fields), rest)
  | _ + 1, s => (readInt s).map fun (n, rest) => (.int n, rest)

def readItems : ℕ → Text → Option (List Json × Text)
  | 0, _ => none
  | fuel + 1, s => do
    let (v, rest) ← readValue fuel s
    match skip rest with
    | ',' :: rest => do
      let (items, rest) ← readItems fuel (skip rest)
      some (v :: items, rest)
    | ']' :: rest => some ([v], rest)
    | _ => none

def readFields : ℕ → Text → Option (Fields × Text)
  | 0, _ => none
  | fuel + 1, '"' :: rest => do
    let (key, rest) ← readString rest
    match skip rest with
    | ':' :: rest => do
      let (v, rest) ← readValue fuel (skip rest)
      match skip rest with
      | ',' :: rest => do
        let (fields, rest) ← readFields fuel (skip rest)
        some ((key, v) :: fields, rest)
      | '\x7d' :: rest => some ([(key, v)], rest)
      | _ => none
    | _ => none
  | _ + 1, _ => none

end

/-- `json.loads` -/
def read (s : Text) : Option Json := do
  let (v, rest) ← readValue (s.length + 1) (skip s)
  if skip rest = [] then some v else none

example : (read "\x7b\"a\": [1, -20], \"b\": \"x\\u00e9\", \"a\": null\x7d".toList).map write =
    some "\x7b\"a\":null,\"b\":\"x\\u00e9\"\x7d".toList := by decide +kernel

/-! ### Strings -/

theorem readString_letter (letter : Char) (rest : Text) (hu : letter ≠ 'u')
    (h : isShort letter = true) : readString ('\\' :: letter :: rest) =
      (readString rest).map fun p => (longChar letter :: p.1, p.2) := by
  rw [readString.eq_def]
  split
  · rename_i heq
    injection heq with heq _
    cases heq
  · rename_i heq
    injection heq with _ heq
    injection heq with heq _
    exact absurd heq hu
  · rename_i heq
    injection heq with _ heq
    injection heq with hletter hrest
    subst hletter hrest
    rw [if_pos h]
    cases readString rest <;> rfl
  · rename_i hnot heq
    injection heq with hslash htail
    exact absurd htail.symm (hnot _ _ hslash.symm)
  · rename_i heq
    cases heq

theorem readString_plain (c : Char) (rest : Text) (hquote : c ≠ '"') (hslash : c ≠ '\\')
    (h : ' ' ≤ c) :
    readString (c :: rest) = (readString rest).map fun p => (c :: p.1, p.2) := by
  rw [readString.eq_def]
  split
  · rename_i heq
    injection heq with heq _
    exact absurd heq hquote
  · rename_i heq
    injection heq with heq _
    exact absurd heq hslash
  · rename_i heq
    injection heq with heq _
    exact absurd heq hslash
  · rename_i heq
    injection heq with hc hrest
    subst hc hrest
    rw [if_pos ⟨h, hslash⟩]
    cases readString rest <;> rfl
  · rename_i heq
    cases heq

theorem unit_hexDigits (n : ℕ) (hn : n < 0x10000) :
    unit (hexDigit (n / 4096)) (hexDigit (n / 256 % 16)) (hexDigit (n / 16 % 16))
      (hexDigit (n % 16)) = some n := by
  have hsum : n / 4096 * 4096 + n / 256 % 16 * 256 + n / 16 % 16 * 16 + n % 16 = n := by omega
  simp only [unit, JsonTexts.hexValue_hexDigit (n / 4096) (by omega),
    JsonTexts.hexValue_hexDigit (n / 256 % 16) (by omega),
    JsonTexts.hexValue_hexDigit (n / 16 % 16) (by omega),
    JsonTexts.hexValue_hexDigit (n % 16) (by omega), Option.bind_eq_bind, Option.bind_some, hsum]

theorem readString_scalar (a b c d : Char) (n : ℕ) (rest : Text) (h : unit a b c d = some n)
    (hhigh : ¬ (0xD800 ≤ n ∧ n < 0xDC00)) (hlow : ¬ (0xDC00 ≤ n ∧ n < 0xE000)) :
    readString ('\\' :: 'u' :: a :: b :: c :: d :: rest) =
      (readString rest).map fun p => (Char.ofNat n :: p.1, p.2) := by
  rw [readString, h, Option.bind_eq_bind, Option.bind_some, if_neg hhigh, if_neg hlow]
  cases readString rest <;> rfl

theorem readString_surrogates (a b c d a' b' c' d' : Char) (high low : ℕ) (rest : Text)
    (h : unit a b c d = some high) (h' : unit a' b' c' d' = some low)
    (hhigh : 0xD800 ≤ high ∧ high < 0xDC00) (hlow : 0xDC00 ≤ low ∧ low < 0xE000) :
    readString ('\\' :: 'u' :: a :: b :: c :: d :: '\\' :: 'u' :: a' :: b' :: c' :: d' :: rest) =
      (readString rest).map fun p =>
        (Char.ofNat (0x10000 + (high - 0xD800) * 1024 + (low - 0xDC00)) :: p.1, p.2) := by
  rw [readString, h, Option.bind_eq_bind, Option.bind_some, if_pos hhigh]
  simp only [h', Option.bind_some, if_pos hlow]
  cases readString rest <;> rfl

theorem readString_unit (n : ℕ) (rest : Text) (hn : n < 0x10000)
    (hscalar : n < 0xD800 ∨ 0xE000 ≤ n) : readString (unitEscape n ++ rest) =
      (readString rest).map fun p => (Char.ofNat n :: p.1, p.2) :=
  readString_scalar _ _ _ _ n rest (unit_hexDigits n hn) (by omega) (by omega)

theorem readString_pair (n : ℕ) (rest : Text) (hlow : 0x10000 ≤ n) (hn : n < 0x110000) :
    readString (unitEscape (0xD800 + (n - 0x10000) / 1024) ++
      unitEscape (0xDC00 + (n - 0x10000) % 1024) ++ rest) =
      (readString rest).map fun p => (Char.ofNat n :: p.1, p.2) := by
  have hsum : 0x10000 + (0xD800 + (n - 0x10000) / 1024 - 0xD800) * 1024 +
      (0xDC00 + (n - 0x10000) % 1024 - 0xDC00) = n := by omega
  have hpair := readString_surrogates _ _ _ _ _ _ _ _ (0xD800 + (n - 0x10000) / 1024)
    (0xDC00 + (n - 0x10000) % 1024) rest (unit_hexDigits _ (by omega)) (unit_hexDigits _ (by omega))
    (by omega) (by omega)
  rw [hsum] at hpair
  exact hpair

theorem readString_escape (c : Char) (rest : Text) :
    readString (escape c ++ rest) = (readString rest).map fun p => (c :: p.1, p.2) := by
  have hscalar := JsonTexts.toNat_scalar c
  unfold escape
  cases hshort : shortEscape c with
  | some letter =>
    obtain ⟨hu, hlong⟩ := JsonTexts.shortEscape_spec c letter hshort
    have hletter : isShort letter = true := by
      unfold shortEscape at hshort
      split_ifs at hshort <;> obtain rfl := Option.some.inj hshort <;> decide
    exact (readString_letter letter rest hu hletter).trans (by rw [hlong])
  | none =>
    simp only
    split_ifs with hplain hunit
    · obtain ⟨hquote, hslash⟩ := JsonTexts.shortEscape_none c hshort
      exact readString_plain c rest hquote hslash hplain.1
    · rw [readString_unit c.toNat rest hunit (by omega), Char.ofNat_toNat]
    · rw [readString_pair c.toNat rest (by omega) (by omega), Char.ofNat_toNat]

/-- A string is read back. -/
theorem readString_quoted (s rest : Text) :
    readString (s.flatMap escape ++ '"' :: rest) = some (s, rest) := by
  induction s with
  | nil => rfl
  | cons c s ih =>
    rw [List.flatMap_cons, List.append_assoc, readString_escape, ih]
    rfl

/-! ### Numbers -/

/-- What can follow a value that was written. -/
def Ends (rest : Text) : Prop := ∀ c ∈ rest.head?, c = ',' ∨ c = ']' ∨ c = '\x7d'

theorem natText_digits (n : ℕ) : ∀ c ∈ natText n, c.isDigit = true :=
  fun _ hc => Nat.isDigit_of_mem_toDigits (by decide) (by decide) hc

theorem natText_head (n : ℕ) (h : (natText n).head? = some '0') : natText n = ['0'] := by
  induction n using Nat.strongRecOn with
  | ind n ih =>
    rcases Nat.lt_or_ge n 10 with hn | hn
    · rw [natText, Nat.toDigits_of_lt_base hn] at h ⊢
      rw [Option.some.inj h]
    · rw [natText, Nat.toDigits_of_base_le (by decide) hn,
        List.head?_append_of_ne_nil _ Nat.toDigits_ne_nil] at h
      have hzero := congrArg (fun digits => Nat.ofDigitChars 10 digits 0) (ih (n / 10) (by omega) h)
      simp only [natText, Nat.ofDigitChars_ten_toDigits] at hzero
      have : n / 10 = 0 := hzero
      omega

theorem span_digits (n : ℕ) (rest : Text) (h : Ends rest) :
    (natText n ++ rest).takeWhile Char.isDigit = natText n ∧
      (natText n ++ rest).dropWhile Char.isDigit = rest := by
  have hstop : rest.takeWhile Char.isDigit = [] ∧ rest.dropWhile Char.isDigit = rest := by
    cases rest with
    | nil => exact ⟨rfl, rfl⟩
    | cons c rest =>
      rcases h c rfl with rfl | rfl | rfl <;> exact ⟨rfl, rfl⟩
  rw [List.takeWhile_append_of_pos (natText_digits n), List.dropWhile_append_of_pos
    (natText_digits n), hstop.1, hstop.2, List.append_nil]
  exact ⟨rfl, rfl⟩

theorem readNat_natText (n : ℕ) (rest : Text) (h : Ends rest) :
    readNat (natText n ++ rest) = some (n, rest) := by
  obtain ⟨htake, hdrop⟩ := span_digits n rest h
  have hpart : isPart rest = false := by
    cases rest with
    | nil => rfl
    | cons c rest => rcases h c rfl with rfl | rfl | rfl <;> rfl
  have hzero : ((natText n).head? = some '0' && natText n ≠ ['0']) = false := by
    by_cases hhead : (natText n).head? = some '0'
    · simp [natText_head n hhead]
    · simp [hhead]
  rw [readNat, htake, hdrop]
  cases hdigits : natText n with
  | nil => exact absurd hdigits Nat.toDigits_ne_nil
  | cons d digits =>
    rw [hdigits] at hzero
    simp only [hpart, hzero, Bool.or_self, Bool.false_eq_true, if_false]
    rw [← hdigits, natText, Nat.ofDigitChars_ten_toDigits]

theorem readInt_intText (n : ℤ) (rest : Text) (h : Ends rest) :
    readInt (intText n ++ rest) = some (n, rest) := by
  unfold intText
  split_ifs with hneg
  · rw [List.cons_append, readInt, readNat_natText _ _ h]
    simp only [Option.map_some, Option.some.injEq, Prod.mk.injEq, and_true]
    omega
  · have hnat : ((n.natAbs : ℕ) : ℤ) = n := by omega
    have hread := readNat_natText n.natAbs rest h
    rw [readInt.eq_def]
    split
    · rename_i tail heq
      cases hdigits : natText n.natAbs with
      | nil => exact absurd hdigits Nat.toDigits_ne_nil
      | cons d digits =>
        rw [hdigits, List.cons_append] at heq
        have hd := natText_digits n.natAbs d (by rw [hdigits]; exact List.mem_cons_self ..)
        rw [(List.cons.inj heq).1] at hd
        cases hd
    · rw [hread]
      exact congrArg (fun m : ℤ => some (m, rest)) hnat

/-! ### Values -/

mutual

/-- No object has a key twice. -/
def distinct : Json → Bool
  | .arr items => distinctItems items
  | .obj fields => decide (fields.map Prod.fst).Nodup && distinctFields fields
  | _ => true

def distinctItems : List Json → Bool
  | [] => true
  | v :: rest => distinct v && distinctItems rest

def distinctFields : List (Text × Json) → Bool
  | [] => true
  | (_, v) :: rest => distinct v && distinctFields rest

end

mutual

def size : Json → ℕ
  | .arr items => sizeItems items + 1
  | .obj fields => sizeFields fields + 1
  | _ => 1

def sizeItems : List Json → ℕ
  | [] => 0
  | v :: rest => size v + sizeItems rest + 1

def sizeFields : List (Text × Json) → ℕ
  | [] => 0
  | (_, v) :: rest => size v + sizeFields rest + 1

end

theorem setField_new (fields : Fields) (key : Text) (v : Json) (h : key ∉ fields.map Prod.fst) :
    setField fields key v = fields ++ [(key, v)] := by
  refine if_neg fun hany => h ?_
  obtain ⟨field, hfield, hkey⟩ := List.any_eq_true.mp hany
  exact List.mem_map.mpr ⟨field, hfield, of_decide_eq_true hkey⟩

/-- A dictionary without a key twice is the list of its fields. -/
theorem dict_nodup (pairs : Fields) (h : (pairs.map Prod.fst).Nodup) : dict pairs = pairs := by
  have hfold : ∀ left right : Fields, ((left ++ right).map Prod.fst).Nodup →
      right.foldl (fun fields p => setField fields p.1 p.2) left = left ++ right := by
    intro left right hnodup
    induction right generalizing left with
    | nil => exact (List.append_nil left).symm
    | cons p right ih =>
      have hnew : p.1 ∉ left.map Prod.fst := by
        rw [List.map_append, List.nodup_append] at hnodup
        exact fun hmem => hnodup.2.2 p.1 hmem p.1 (List.mem_cons_self ..) rfl
      rw [List.foldl_cons, setField_new left p.1 p.2 hnew]
      exact (ih (left ++ [p]) (by rwa [← List.append_cons])).trans (List.append_cons left p right).symm
  exact hfold [] pairs h

theorem natText_cons (n : ℕ) : ∃ c tail, natText n = c :: tail ∧ c.isDigit = true := by
  cases hdigits : natText n with
  | nil => exact absurd hdigits Nat.toDigits_ne_nil
  | cons c tail =>
    exact ⟨c, tail, rfl, natText_digits n c (by rw [hdigits]; exact List.mem_cons_self ..)⟩

/-- The first character of a value. -/
theorem write_head (v : Json) : ∃ c tail, write v = c :: tail ∧ isBlank c = false ∧ c ≠ ']' := by
  cases v with
  | null => exact ⟨_, _, rfl, rfl, by decide⟩
  | bool b => cases b <;> exact ⟨_, _, rfl, rfl, by decide⟩
  | str s => exact ⟨_, _, rfl, rfl, by decide⟩
  | arr items => exact ⟨_, _, by rw [write], rfl, by decide⟩
  | obj fields => exact ⟨_, _, by rw [write], rfl, by decide⟩
  | int n =>
    rw [write, intText]
    split_ifs
    · exact ⟨_, _, rfl, rfl, by decide⟩
    · obtain ⟨c, tail, heq, hdigit⟩ := natText_cons n.natAbs
      refine ⟨c, tail, heq, ?_, ?_⟩
      · simp only [isBlank, Bool.or_eq_false_iff, decide_eq_false_iff_not]
        refine ⟨⟨⟨?_, ?_⟩, ?_⟩, ?_⟩ <;> (rintro rfl; cases hdigit)
      · rintro rfl
        cases hdigit

theorem skip_write (v : Json) (rest : Text) : skip (write v ++ rest) = write v ++ rest := by
  obtain ⟨c, tail, heq, hblank, -⟩ := write_head v
  rw [heq, List.cons_append]
  exact List.dropWhile_cons_of_neg (by rw [hblank]; decide)

theorem skip_cons (c : Char) (rest : Text) (h : isBlank c = false) : skip (c :: rest) = c :: rest :=
  List.dropWhile_cons_of_neg (by rw [h]; decide)

theorem readValue_number (fuel : ℕ) (c : Char) (tail : Text) (h : c.isDigit = true ∨ c = '-') :
    readValue (fuel + 1) (c :: tail) =
      (readInt (c :: tail)).map fun (n, rest) => (.int n, rest) := by
  have hne : ∀ d : Char, d.isDigit = false → d ≠ '-' → c ≠ d := by
    rintro d hdigit hminus rfl
    rcases h with h | h
    · rw [hdigit] at h
      cases h
    · exact hminus h
  rw [readValue.eq_def]
  split
  · rename_i heq
    cases heq
  · rename_i heq
    exact absurd (List.cons.inj heq).1 (hne _ rfl (by decide))
  · rename_i heq
    exact absurd (List.cons.inj heq).1 (hne _ rfl (by decide))
  · rename_i heq
    exact absurd (List.cons.inj heq).1 (hne _ rfl (by decide))
  · rename_i heq
    exact absurd (List.cons.inj heq).1 (hne _ rfl (by decide))
  · rename_i heq
    exact absurd (List.cons.inj heq).1 (hne _ rfl (by decide))
  · rename_i heq
    exact absurd (List.cons.inj heq).1 (hne _ rfl (by decide))
  · rfl

theorem ends_comma (rest : Text) : Ends (',' :: rest) :=
  fun _ hc => Or.inl (Option.some.inj hc).symm

theorem ends_bracket (rest : Text) : Ends (']' :: rest) :=
  fun _ hc => Or.inr (Or.inl (Option.some.inj hc).symm)

theorem ends_brace (rest : Text) : Ends ('\x7d' :: rest) :=
  fun _ hc => Or.inr (Or.inr (Option.some.inj hc).symm)

theorem readValue_obj (fields : Fields) (fuel : ℕ) (rest : Text)
    (h : fields ≠ [] → readFields fuel (writeFields fields ++ rest) = some (fields, rest)) :
    readValue (fuel + 1) (write (.obj fields) ++ rest) = some (.obj (dict fields), rest) := by
  cases fields with
  | nil =>
    rw [write, writeFields, List.cons_append, readValue]
    rfl
  | cons p more =>
    have hstart : skip (writeFields (p :: more) ++ rest) = writeFields (p :: more) ++ rest :=
      skip_cons '"' _ rfl
    rw [write, List.cons_append, readValue, hstart]
    split
    · rename_i heq
      rw [writeFields] at heq
      exact absurd (List.cons.inj heq).1 (by decide)
    · rw [h (List.cons_ne_nil _ _)]
      rfl

mutual

/-- A value is read back from what it was written as, whatever follows it. -/
theorem readValue_write : ∀ (v : Json) (fuel : ℕ) (rest : Text), distinct v = true →
    size v ≤ fuel → Ends rest → readValue fuel (write v ++ rest) = some (v, rest)
  | v, 0, _, _, hsize, _ => by cases v <;> exact absurd hsize (by simp [size])
  | .null, _ + 1, _, _, _, _ => rfl
  | .bool true, _ + 1, _, _, _, _ => rfl
  | .bool false, _ + 1, _, _, _, _ => rfl
  | .int n, fuel + 1, rest, _, _, hends => by
    have hnumber : ∃ c tail, intText n ++ rest = c :: tail ∧ (c.isDigit = true ∨ c = '-') := by
      unfold intText
      split_ifs
      · exact ⟨_, _, rfl, Or.inr rfl⟩
      · obtain ⟨c, tail, heq, hdigit⟩ := natText_cons n.natAbs
        exact ⟨c, tail ++ rest, by rw [heq]; rfl, Or.inl hdigit⟩
    obtain ⟨c, tail, heq, hc⟩ := hnumber
    have hread := readInt_intText n rest hends
    rw [write, heq, readValue_number fuel c tail hc, ← heq, hread]
    rfl
  | .str s, fuel + 1, rest, _, _, _ => by
    have hread := readString_quoted s rest
    simp only [write, quote, List.cons_append, List.append_assoc, List.nil_append, readValue, hread,
      Option.map_some]
  | .arr [], _ + 1, rest, _, _, _ => by
    rw [write, writeItems, List.cons_append, readValue]
    rfl
  | .arr (v :: items), fuel + 1, rest, hdistinct, hsize, hends => by
    have hitems := readItems_write v items fuel rest hdistinct (by rw [size] at hsize; omega)
    obtain ⟨c, tail, heq, hblank, hbracket⟩ := write_head v
    rw [write, List.cons_append, readValue]
    have hstart : writeItems (v :: items) ++ rest = c :: (tail ++ writeMoreItems items ++ rest) := by
      rw [writeItems, heq]
      rfl
    rw [hstart, skip_cons c _ hblank, ← hstart]
    split
    · rename_i heq'
      rw [hstart] at heq'
      exact absurd (List.cons.inj heq').1 hbracket
    · rw [hitems]
      rfl
  | .obj [], fuel + 1, rest, _, _, _ => readValue_obj [] fuel rest fun h => absurd rfl h
  | .obj ((key, v) :: fields), fuel + 1, rest, hdistinct, hsize, _ => by
    rw [distinct, Bool.and_eq_true, decide_eq_true_eq] at hdistinct
    have hfields := readFields_write key v fields fuel rest hdistinct.2
      (by rw [size] at hsize; omega)
    rw [readValue_obj _ fuel rest fun _ => hfields, dict_nodup _ hdistinct.1]

theorem readItems_write : ∀ (v : Json) (items : List Json) (fuel : ℕ) (rest : Text),
    distinctItems (v :: items) = true → sizeItems (v :: items) ≤ fuel →
    readItems fuel (writeItems (v :: items) ++ rest) = some (v :: items, rest)
  | v, items, 0, _, _, hsize => by
    rw [sizeItems] at hsize
    omega
  | v, [], fuel + 1, rest, hdistinct, hsize => by
    rw [distinctItems, Bool.and_eq_true] at hdistinct
    rw [sizeItems] at hsize
    have hv := readValue_write v fuel (']' :: rest) hdistinct.1 (by omega) (ends_bracket rest)
    rw [writeItems, writeMoreItems, List.append_assoc, readItems]
    simp only [List.cons_append, List.nil_append, hv, Option.bind_eq_bind, Option.bind_some]
    rfl
  | v, w :: items, fuel + 1, rest, hdistinct, hsize => by
    rw [distinctItems, Bool.and_eq_true] at hdistinct
    rw [sizeItems] at hsize
    have hmore := readItems_write w items fuel rest hdistinct.2 (by omega)
    have hv := readValue_write v fuel (',' :: (write w ++ writeMoreItems items ++ rest)) hdistinct.1
      (by omega) (ends_comma _)
    rw [writeItems, writeMoreItems, List.append_assoc, List.cons_append, readItems, hv]
    rw [writeItems] at hmore
    simp only [Option.bind_eq_bind, Option.bind_some, skip_cons ',' _ rfl]
    rw [List.append_assoc, skip_write w, ← List.append_assoc, hmore]
    rfl

theorem readFields_write : ∀ (key : Text) (v : Json) (fields : List (Text × Json)) (fuel : ℕ)
    (rest : Text), distinctFields ((key, v) :: fields) = true →
    sizeFields ((key, v) :: fields) ≤ fuel →
    readFields fuel (writeFields ((key, v) :: fields) ++ rest) = some ((key, v) :: fields, rest)
  | key, v, fields, 0, _, _, hsize => by
    rw [sizeFields] at hsize
    omega
  | key, v, [], fuel + 1, rest, hdistinct, hsize => by
    rw [distinctFields, Bool.and_eq_true] at hdistinct
    rw [sizeFields] at hsize
    have hv := readValue_write v fuel ('\x7d' :: rest) hdistinct.1 (by omega) (ends_brace rest)
    have hkey := readString_quoted key (':' :: (write v ++ '\x7d' :: rest))
    rw [writeFields, writeMoreFields, quote]
    simp only [List.cons_append, List.nil_append, List.append_assoc, readFields, hkey,
      Option.bind_eq_bind, Option.bind_some, skip_cons ':' _ rfl, skip_write v, hv]
    rfl
  | key, v, (key', w) :: fields, fuel + 1, rest, hdistinct, hsize => by
    rw [distinctFields, Bool.and_eq_true] at hdistinct
    rw [sizeFields] at hsize
    have hmore := readFields_write key' w fields fuel rest hdistinct.2 (by omega)
    have hv := readValue_write v fuel (',' :: (writeFields ((key', w) :: fields) ++ rest))
      hdistinct.1 (by omega) (ends_comma _)
    have hkey := readString_quoted key
      (':' :: (write v ++ ',' :: (writeFields ((key', w) :: fields) ++ rest)))
    have hstart : skip (writeFields ((key', w) :: fields) ++ rest) =
        writeFields ((key', w) :: fields) ++ rest := skip_cons '"' _ rfl
    have htext : writeMoreFields ((key', w) :: fields) =
        ',' :: writeFields ((key', w) :: fields) := rfl
    rw [writeFields, htext, quote]
    simp only [List.cons_append, List.nil_append, List.append_assoc, readFields, hkey,
      Option.bind_eq_bind, Option.bind_some, skip_cons ':' _ rfl, skip_write v, hv,
      skip_cons ',' _ rfl, hstart, hmore]

end

mutual

theorem size_write : ∀ v : Json, size v ≤ (write v).length
  | .null => by decide
  | .bool true => by decide
  | .bool false => by decide
  | .str s => by simp [size, write, quote]
  | .int n => by
    obtain ⟨c, tail, heq, -⟩ := write_head (.int n)
    rw [heq, List.length_cons]
    exact Nat.le_add_left 1 _
  | .arr [] => by decide
  | .arr (v :: items) => by
    have hv := size_write v
    have hitems := size_moreItems items
    rw [size, sizeItems, write, writeItems, List.length_cons, List.length_append]
    omega
  | .obj [] => by decide
  | .obj ((key, v) :: fields) => by
    have hv := size_write v
    have hfields := size_moreFields fields
    rw [size, sizeFields, write, writeFields, List.length_cons, List.length_append,
      List.length_cons, List.length_append]
    omega

theorem size_moreItems : ∀ items : List Json, sizeItems items < (writeMoreItems items).length
  | [] => by decide
  | v :: items => by
    have hv := size_write v
    have hitems := size_moreItems items
    rw [sizeItems, writeMoreItems, List.length_cons, List.length_append]
    omega

theorem size_moreFields :
    ∀ fields : List (Text × Json), sizeFields fields < (writeMoreFields fields).length
  | [] => by decide
  | (key, v) :: fields => by
    have hv := size_write v
    have hfields := size_moreFields fields
    rw [sizeFields, writeMoreFields, List.length_cons, List.length_append, List.length_cons,
      List.length_append]
    omega

end

/-- What was written is read back. -/
theorem read_write (v : Json) (h : distinct v = true) : read (write v) = some v := by
  have hsize := size_write v
  have hvalue := readValue_write v ((write v).length + 1) [] h (by omega)
    (fun c hc => by cases hc)
  have hskip := skip_write v []
  rw [List.append_nil] at hvalue hskip
  rw [read, hskip, hvalue]
  rfl

/-- Of a key that is written twice the last value is read. -/
theorem read_write_obj (fields : Fields) (h : distinctFields fields = true) :
    read (write (.obj fields)) = some (.obj (dict fields)) := by
  have hsize := size_write (.obj fields)
  have hvalue := readValue_obj fields (write (.obj fields)).length [] fun hne => by
    obtain ⟨⟨key, v⟩, more, rfl⟩ := List.exists_cons_of_ne_nil hne
    exact readFields_write key v more _ [] h (by rw [size] at hsize; omega)
  have hskip := skip_write (.obj fields) []
  rw [List.append_nil] at hvalue hskip
  rw [read, hskip, hvalue]
  rfl

/-! ### Dictionaries -/

theorem setField_keys (fields : Fields) (key : Text) (v : Json) (h : (fields.map Prod.fst).Nodup) :
    ((setField fields key v).map Prod.fst).Nodup := by
  unfold setField
  split_ifs with hany
  · have hkeys : (fields.map fun field => if field.1 = key then (key, v) else field).map Prod.fst =
        fields.map Prod.fst := by
      rw [List.map_map]
      refine List.map_congr_left fun field _ => ?_
      rw [Function.comp_apply]
      split_ifs with hkey
      · exact hkey.symm
      · rfl
    rwa [hkeys]
  · rw [List.map_append, List.nodup_append]
    refine ⟨h, List.nodup_cons.mpr ⟨List.not_mem_nil, List.nodup_nil⟩, fun a ha b hb heq => hany ?_⟩
    obtain ⟨field, hfield, rfl⟩ := List.mem_map.mp ha
    obtain rfl := List.mem_singleton.mp hb
    exact List.any_eq_true.mpr ⟨field, hfield, decide_eq_true heq⟩

theorem lookup_cons (p : Text × Json) (fields : Fields) (name : Text) :
    (p :: fields).lookup name = if name = p.1 then some p.2 else fields.lookup name := by
  rw [show p = (p.1, p.2) from rfl, List.lookup_cons]
  by_cases hname : name = p.1
  · rw [beq_iff_eq.mpr hname, if_pos hname]
  · rw [beq_eq_false_iff_ne.mpr hname, if_neg hname]

theorem lookup_none (fields : Fields) (name : Text) (h : name ∉ fields.map Prod.fst) :
    fields.lookup name = none := by
  refine List.lookup_eq_none_iff.mpr fun field hfield => ?_
  rw [bne_iff_ne]
  exact fun heq => h (List.mem_map.mpr ⟨field, hfield, heq.symm⟩)

theorem lookup_replace (fields : Fields) (key name : Text) (v : Json)
    (h : name = key → key ∈ fields.map Prod.fst) :
    (fields.map fun field => if field.1 = key then (key, v) else field).lookup name =
      if name = key then some v else fields.lookup name := by
  induction fields with
  | nil => rw [if_neg fun hname => absurd (h hname) List.not_mem_nil, List.map_nil]
  | cons field fields ih =>
    rw [List.map_cons, lookup_cons, lookup_cons field]
    by_cases hfield : field.1 = key
    · rw [if_pos hfield, hfield]
      split_ifs with hname
      · rfl
      · rw [ih fun heq => absurd heq hname, if_neg hname]
    · have hmore : name = key → key ∈ fields.map Prod.fst := fun hname =>
        (List.mem_cons.mp (h hname)).resolve_left fun heq => hfield heq.symm
      rw [if_neg hfield, ih hmore]
      split_ifs with hname hkey
      · exact absurd (hname.symm.trans hkey) hfield
      · rfl
      · rfl
      · rfl

theorem lookup_setField (fields : Fields) (key name : Text) (v : Json) :
    (setField fields key v).lookup name = if name = key then some v else fields.lookup name := by
  unfold setField
  split_ifs with hany hname hname
  · obtain ⟨field, hfield, hkey⟩ := List.any_eq_true.mp hany
    rw [lookup_replace fields key name v fun _ =>
      List.mem_map.mpr ⟨field, hfield, of_decide_eq_true hkey⟩, if_pos hname]
  · rw [lookup_replace fields key name v fun heq => absurd heq hname, if_neg hname]
  · have hnone : fields.lookup name = none := lookup_none fields name fun hmem => by
      obtain ⟨field, hfield, hkey⟩ := List.mem_map.mp hmem
      exact hany (List.any_eq_true.mpr ⟨field, hfield, decide_eq_true (hkey.trans hname)⟩)
    rw [List.lookup_append, hnone, lookup_cons, if_pos hname, Option.none_or]
  · rw [List.lookup_append, lookup_cons, if_neg hname]
    exact Option.or_none

theorem update_keys (fields more : Fields) (h : (fields.map Prod.fst).Nodup) :
    ((update fields more).map Prod.fst).Nodup := by
  induction more generalizing fields with
  | nil => exact h
  | cons p more ih => exact ih _ (setField_keys fields p.1 p.2 h)

/-- The last of the new values of a key counts, and before it the old one. -/
theorem lookup_update (fields more : Fields) (name : Text) :
    (update fields more).lookup name = (more.reverse.lookup name).or (fields.lookup name) := by
  induction more generalizing fields with
  | nil => exact Option.none_or.symm
  | cons p more ih =>
    have hstep := ih (setField fields p.1 p.2)
    rw [lookup_setField] at hstep
    rw [List.reverse_cons, List.lookup_append, lookup_cons, Option.or_assoc]
    refine hstep.trans (congrArg _ ?_)
    split_ifs <;> rfl

theorem lookup_reverse (fields : Fields) (name : Text) (h : (fields.map Prod.fst).Nodup) :
    fields.reverse.lookup name = fields.lookup name := by
  induction fields with
  | nil => rfl
  | cons field fields ih =>
    obtain ⟨hkey, hnodup⟩ := List.nodup_cons.mp h
    rw [List.reverse_cons, List.lookup_append, ih hnodup, lookup_cons, lookup_cons field]
    split_ifs with hname
    · rw [lookup_none fields name (hname ▸ hkey), Option.none_or]
    · exact Option.or_none

theorem distinctFields_iff (fields : Fields) :
    distinctFields fields = true ↔ ∀ p ∈ fields, distinct p.2 = true := by
  induction fields with
  | nil => simp [distinctFields]
  | cons p fields ih =>
    obtain ⟨key, v⟩ := p
    rw [distinctFields, Bool.and_eq_true, ih, List.forall_mem_cons]

theorem distinctFields_setField (fields : Fields) (key : Text) (v : Json)
    (h : distinctFields fields = true) (hv : distinct v = true) :
    distinctFields (setField fields key v) = true := by
  rw [distinctFields_iff] at h ⊢
  intro p hp
  unfold setField at hp
  split_ifs at hp
  · obtain ⟨field, hfield, rfl⟩ := List.mem_map.mp hp
    split_ifs
    · exact hv
    · exact h field hfield
  · rcases List.mem_append.mp hp with hp | hp
    · exact h p hp
    · rw [List.mem_singleton.mp hp]
      exact hv

theorem distinctFields_update (fields more : Fields) (h : distinctFields fields = true)
    (hmore : distinctFields more = true) : distinctFields (update fields more) = true := by
  induction more generalizing fields with
  | nil => exact h
  | cons p more ih =>
    obtain ⟨hp, hrest⟩ := List.forall_mem_cons.mp ((distinctFields_iff _).mp hmore)
    exact ih _ (distinctFields_setField fields p.1 p.2 h hp) ((distinctFields_iff _).mpr hrest)

/-! ### Printable characters -/

def Printable (s : Text) : Prop := ∀ c ∈ s, ' ' ≤ c ∧ c ≤ '~'

theorem printable_of_all (s : Text)
    (h : (s.all fun c => decide (' '.val ≤ c.val) && decide (c.val ≤ '~'.val)) = true) :
    Printable s := by
  intro c hc
  have hchar := List.all_eq_true.mp h c hc
  rw [Bool.and_eq_true, decide_eq_true_eq, decide_eq_true_eq] at hchar
  exact hchar

theorem Printable.append {s t : Text} (hs : Printable s) (ht : Printable t) : Printable (s ++ t) :=
  fun c hc => (List.mem_append.mp hc).elim (hs c) (ht c)

theorem Printable.cons {c : Char} {s : Text} (hc : ' ' ≤ c ∧ c ≤ '~') (hs : Printable s) :
    Printable (c :: s) :=
  fun d hd => (List.mem_cons.mp hd).elim (fun h => h ▸ hc) (hs d)

theorem hexDigit_printable (n : ℕ) : ' ' ≤ hexDigit n ∧ hexDigit n ≤ '~' := by
  rcases Nat.lt_or_ge n 16 with hn | hn
  · have hall : ∀ i : Fin 16, ' ' ≤ hexDigit i ∧ hexDigit i ≤ '~' := by decide
    exact hall ⟨n, hn⟩
  · have hnone : "0123456789abcdef".toList[n]? = none := List.getElem?_eq_none hn
    rw [hexDigit, List.getD_eq_getElem?_getD, hnone]
    decide

theorem unitEscape_printable (n : ℕ) : Printable (unitEscape n) := by
  intro c hc
  simp only [unitEscape, List.mem_cons, List.not_mem_nil, or_false] at hc
  rcases hc with rfl | rfl | rfl | rfl | rfl | rfl
  · decide
  · decide
  all_goals exact hexDigit_printable _

theorem escape_printable (c : Char) : Printable (escape c) := by
  unfold escape
  cases hshort : shortEscape c with
  | some letter =>
    refine Printable.cons (by decide) (Printable.cons ?_ fun _ h => absurd h List.not_mem_nil)
    unfold shortEscape at hshort
    split_ifs at hshort <;> obtain rfl := Option.some.inj hshort <;> decide
  | none =>
    simp only
    split_ifs with hplain hunit
    · exact Printable.cons hplain fun _ h => absurd h List.not_mem_nil
    · exact unitEscape_printable _
    · exact (unitEscape_printable _).append (unitEscape_printable _)

theorem quote_printable (s : Text) : Printable (quote s) := by
  refine Printable.cons (by decide) (Printable.append (fun c hc => ?_) fun c hc => ?_)
  · obtain ⟨d, -, hd⟩ := List.mem_flatMap.mp hc
    exact escape_printable d c hd
  · rw [List.mem_singleton.mp hc]
    decide

theorem natText_printable (n : ℕ) : Printable (natText n) := by
  intro c hc
  have hdigit := natText_digits n c hc
  rw [Char.isDigit, Bool.and_eq_true, decide_eq_true_eq, decide_eq_true_eq] at hdigit
  exact ⟨UInt32.le_trans (show ' '.val ≤ '0'.val by decide) hdigit.1,
    UInt32.le_trans hdigit.2 (show '9'.val ≤ '~'.val by decide)⟩

mutual

/-- A value is written on one line. -/
theorem write_printable : ∀ v : Json, Printable (write v)
  | .null => printable_of_all _ rfl
  | .bool true => printable_of_all _ rfl
  | .bool false => printable_of_all _ rfl
  | .str s => quote_printable s
  | .int n => by
    rw [write, intText]
    split_ifs
    · exact Printable.cons (by decide) (natText_printable _)
    · exact natText_printable _
  | .arr [] => printable_of_all _ rfl
  | .arr (v :: items) =>
    Printable.cons (by decide) ((write_printable v).append (moreItems_printable items))
  | .obj [] => printable_of_all _ rfl
  | .obj ((key, v) :: fields) =>
    Printable.cons (by decide) ((quote_printable key).append (Printable.cons (by decide)
      ((write_printable v).append (moreFields_printable fields))))

theorem moreItems_printable : ∀ items : List Json, Printable (writeMoreItems items)
  | [] => printable_of_all _ rfl
  | v :: items =>
    Printable.cons (by decide) ((write_printable v).append (moreItems_printable items))

theorem moreFields_printable : ∀ fields : List (Text × Json), Printable (writeMoreFields fields)
  | [] => printable_of_all _ rfl
  | (key, v) :: fields =>
    Printable.cons (by decide) ((quote_printable key).append (Printable.cons (by decide)
      ((write_printable v).append (moreFields_printable fields))))

end

end Hyproxy.JsonValues

import Hyproxy.JsonTexts
import Hyproxy.RouteTables

/-!
Addresses of the internet protocol and their texts, as Go's `net` reads them. Two byte strings
stand for one address when they agree after an address of four bytes is written as one of sixteen;
every address has a text.
-/
namespace Hyproxy.IpTexts

open JsonTexts (hexDigit hexValue_hexDigit)
open PercentCoding (hexValue)
open RouteTables (Network to4)

abbrev Text := List Char

structure Address where
  bytes : List ℕ
  size : bytes.length = 4 ∨ bytes.length = 16
  byte : ∀ b ∈ bytes, b < 256

def v4InV6Prefix : List ℕ := List.replicate 10 0 ++ [255, 255]

/-- `IP.To16`, where it is not nil -/
def to16 (ip : List ℕ) : List ℕ := if ip.length = 4 then v4InV6Prefix ++ ip else ip

/-- `IP.Equal` -/
def equal (ip x : List ℕ) : Bool :=
  if ip.length = x.length then ip == x
  else if ip.length = 4 ∧ x.length = 16 then x.take 12 == v4InV6Prefix && ip == x.drop 12
  else if ip.length = 16 ∧ x.length = 4 then ip.take 12 == v4InV6Prefix && ip.drop 12 == x
  else false

/-! ### Texts -/

def digit (c : Char) : Bool := '0' ≤ c && c ≤ '9'

/-- A field of an address of four bytes: no sign, and no zero in front. -/
def octet (s : Text) : Option ℕ :=
  if s = [] ∨ !s.all digit ∨ (1 < s.length ∧ s.head? = some '0') then none
  else some (s.foldl (fun n c => 10 * n + (c.toNat - '0'.toNat)) 0) |>.filter (· ≤ 255)

def parseIPv4 (s : Text) : Option (List ℕ) :=
  if (s.splitOn '.').length = 4 then (s.splitOn '.').mapM octet else none

/-- The groups of an address of sixteen bytes: how many more there may be, the bytes so far, and
where among them the ellipsis was. The last two groups may be written as four bytes. -/
def parseGroups : ℕ → List ℕ → Option ℕ → Text → Option (List ℕ × Option ℕ)
  | 0, ip, ellipsis, s => if s = [] then some (ip, ellipsis) else none
  | n + 1, ip, ellipsis, s =>
    let digits := s.takeWhile fun c => (hexValue c).isSome
    let value := (digits.filterMap hexValue).foldl (fun n d => 16 * n + d) 0
    if digits = [] ∨ 4 < digits.length then none
    else
      match s.dropWhile fun c => (hexValue c).isSome with
      | [] => some (ip ++ [value / 256, value % 256], ellipsis)
      | '.' :: _ =>
        if ellipsis = none ∧ ip.length ≠ 12 ∨ 16 < ip.length + 4 then none
        else (parseIPv4 s).map fun fields => (ip ++ fields, ellipsis)
      | [':'] => none
      | ':' :: ':' :: rest =>
        if ellipsis.isSome then none
        else if rest = [] then some (ip ++ [value / 256, value % 256], some (ip.length + 2))
        else parseGroups n (ip ++ [value / 256, value % 256]) (some (ip.length + 2)) rest
      | ':' :: rest => parseGroups n (ip ++ [value / 256, value % 256]) ellipsis rest
      | _ => none

/-- The ellipsis stands for at least one group. -/
def expand : List ℕ × Option ℕ → Option (List ℕ)
  | (ip, none) => if ip.length < 16 then none else some ip
  | (ip, some at_) =>
    if ip.length < 16 then
      some (ip.take at_ ++ List.replicate (16 - ip.length) 0 ++ ip.drop at_)
    else none

/-- Without a zone. -/
def parseIPv6 : Text → Option (List ℕ)
  | [':', ':'] => some (List.replicate 16 0)
  | ':' :: ':' :: rest => (parseGroups 8 [] (some 0) rest).bind expand
  | s => (parseGroups 8 [] none s).bind expand

/-- `net.ParseIP`; an address of four bytes is given as one of sixteen. -/
def parseIP (s : Text) : Option (List ℕ) :=
  match s.find? fun c => c == '.' || c == ':' || c == '%' with
  | some '.' => (parseIPv4 s).map to16
  | some ':' => if '%' ∈ s then none else parseIPv6 s
  | _ => none

def groupText (g : ℕ × ℕ) : Text :=
  [hexDigit (g.1 / 16), hexDigit (g.1 % 16), hexDigit (g.2 / 16), hexDigit (g.2 % 16)]

def groupsText : List (ℕ × ℕ) → Text
  | [] => []
  | [g] => groupText g
  | g :: next :: rest => groupText g ++ ':' :: groupsText (next :: rest)

def pairs : List ℕ → List (ℕ × ℕ)
  | a :: b :: rest => (a, b) :: pairs rest
  | _ => []

/-- An address with all groups written out. -/
def text (ip : List ℕ) : Text := groupsText (pairs (to16 ip))

/-! ### Equal addresses -/

theorem prefix_length : v4InV6Prefix.length = 12 := rfl

theorem to16_prefix (x ip : List ℕ) :
    x.take 12 = v4InV6Prefix ∧ ip = x.drop 12 ↔ v4InV6Prefix ++ ip = x := by
  constructor
  · rintro ⟨hbegins, rfl⟩
    rw [← hbegins, List.take_append_drop]
  · rintro rfl
    exact ⟨List.take_left' prefix_length, (List.drop_left' prefix_length).symm⟩

theorem to16_four (a : List ℕ) (ha : a.length = 4) : to16 a = v4InV6Prefix ++ a := if_pos ha

theorem to16_sixteen (a : List ℕ) (ha : a.length = 16) : to16 a = a := if_neg (by omega)

theorem equal_iff (a b : Address) : equal a.bytes b.bytes = true ↔ to16 a.bytes = to16 b.bytes := by
  rcases a.size with ha | ha <;> rcases b.size with hb | hb
  · rw [equal, if_pos (ha.trans hb.symm), beq_iff_eq, to16_four _ ha, to16_four _ hb,
      List.append_cancel_left_eq]
  · rw [equal, if_neg (by omega), if_pos ⟨ha, hb⟩, Bool.and_eq_true, beq_iff_eq, beq_iff_eq,
      to16_prefix, to16_four _ ha, to16_sixteen _ hb]
  · rw [equal, if_neg (by omega), if_neg (by omega), if_pos ⟨ha, hb⟩, Bool.and_eq_true, beq_iff_eq,
      beq_iff_eq, eq_comm (b := b.bytes), to16_prefix, to16_sixteen _ ha, to16_four _ hb]
    exact eq_comm
  · rw [equal, if_pos (ha.trans hb.symm), beq_iff_eq, to16_sixteen _ ha, to16_sixteen _ hb]

theorem to4_to16 (a : Address) : to4 (to16 a.bytes) = to4 a.bytes := by
  rcases a.size with ha | ha
  · have hlength : (v4InV6Prefix ++ a.bytes).length = 16 := by
      rw [List.length_append, ha]
      rfl
    have hbegins : (v4InV6Prefix ++ a.bytes).take 12 = v4InV6Prefix :=
      List.take_left' prefix_length
    rw [to16_four _ ha, to4, if_pos ⟨hlength, hbegins⟩, List.drop_left' prefix_length, to4,
      if_neg (by omega)]
  · rw [to16_sixteen _ ha]

/-- A network has an address or does not, however the address is written. -/
theorem contains_congr (n : Network) (a b : Address) (h : to16 a.bytes = to16 b.bytes) :
    n.contains a.bytes = n.contains b.bytes := by
  have hsame : to4 a.bytes = to4 b.bytes := by rw [← to4_to16 a, ← to4_to16 b, h]
  unfold Network.contains
  rw [hsame]

/-! ### Every address has a text -/

def Group (g : ℕ × ℕ) : Prop := g.1 < 256 ∧ g.2 < 256

theorem group_digits (g : ℕ × ℕ) (hg : Group g) : (groupText g).filterMap hexValue =
    [g.1 / 16, g.1 % 16, g.2 / 16, g.2 % 16] ∧
      ∀ c ∈ groupText g, (hexValue c).isSome = true := by
  have hvalues : ∀ n ∈ [g.1 / 16, g.1 % 16, g.2 / 16, g.2 % 16],
      hexValue (hexDigit n) = some n := by
    intro n hn
    refine hexValue_hexDigit n ?_
    obtain ⟨hhigh, hlow⟩ := hg
    simp only [List.mem_cons, List.not_mem_nil, or_false] at hn
    omega
  simp only [List.forall_mem_cons] at hvalues
  obtain ⟨h1, h2, h3, h4, -⟩ := hvalues
  constructor
  · simp [groupText, h1, h2, h3, h4]
  · simp [groupText, h1, h2, h3, h4]

/-- The first group of a text. -/
theorem takeWhile_group (g : ℕ × ℕ) (hg : Group g) (tail : Text)
    (htail : ∀ c ∈ tail.head?, hexValue c = none) :
    (groupText g ++ tail).takeWhile (fun c => (hexValue c).isSome) = groupText g ∧
      (groupText g ++ tail).dropWhile (fun c => (hexValue c).isSome) = tail := by
  obtain ⟨-, hdigits⟩ := group_digits g hg
  have htake : tail.takeWhile (fun c => (hexValue c).isSome) = [] ∧
      tail.dropWhile (fun c => (hexValue c).isSome) = tail := by
    cases tail with
    | nil => exact ⟨rfl, rfl⟩
    | cons c rest =>
      have hc := htail c rfl
      simp [hc]
  rw [List.takeWhile_append_of_pos hdigits, List.dropWhile_append_of_pos hdigits, htake.1, htake.2,
    List.append_nil]
  exact ⟨rfl, rfl⟩

theorem group_value (g : ℕ × ℕ) (hg : Group g) :
    ((groupText g).filterMap hexValue).foldl (fun n d => 16 * n + d) 0 = 256 * g.1 + g.2 := by
  rw [(group_digits g hg).1]
  simp only [List.foldl_cons, List.foldl_nil]
  omega

theorem groupsText_head (g : ℕ × ℕ) (rest : List (ℕ × ℕ)) (hg : Group g) :
    ∃ c more, groupsText (g :: rest) = c :: more ∧ c ≠ ':' := by
  have hdigit := (group_digits g hg).2 (hexDigit (g.1 / 16)) List.mem_cons_self
  have hne : hexDigit (g.1 / 16) ≠ ':' := by
    intro heq
    rw [heq] at hdigit
    exact absurd hdigit (by decide)
  cases rest with
  | nil => exact ⟨_, _, rfl, hne⟩
  | cons next rest => exact ⟨_, _, rfl, hne⟩

theorem parseGroups_text (groups : List (ℕ × ℕ)) (hgroups : ∀ g ∈ groups, Group g)
    (hne : groups ≠ []) (n : ℕ) (hn : groups.length ≤ n) (ip : List ℕ) :
    parseGroups n ip none (groupsText groups) =
      some (ip ++ groups.flatMap fun g => [g.1, g.2], none) := by
  induction groups generalizing n ip with
  | nil => exact absurd rfl hne
  | cons g rest ih =>
    obtain ⟨hg, hrest⟩ := List.forall_mem_cons.mp hgroups
    have hbytes : (256 * g.1 + g.2) / 256 = g.1 ∧ (256 * g.1 + g.2) % 256 = g.2 := by
      have hlow := hg.2
      omega
    have hlength : ¬ (groupText g = [] ∨ 4 < (groupText g).length) := by
      simp [groupText]
    cases n with
    | zero => exact absurd hn (by simp)
    | succ n =>
      cases rest with
      | nil =>
        obtain ⟨htake, hdrop⟩ := takeWhile_group g hg [] (by simp)
        rw [List.append_nil] at htake hdrop
        rw [groupsText, parseGroups]
        simp only [htake, hdrop, if_neg hlength, group_value g hg, hbytes]
        simp
      | cons next rest =>
        obtain ⟨htake, hdrop⟩ := takeWhile_group g hg (':' :: groupsText (next :: rest))
          (fun c hc => by obtain rfl := Option.some.inj hc; decide)
        have hmore := ih hrest (by simp) n (by simpa using hn) (ip ++ [g.1, g.2])
        obtain ⟨c, more, hcons, hc⟩ := groupsText_head next rest (hrest next List.mem_cons_self)
        rw [groupsText, parseGroups]
        simp only [htake, hdrop, if_neg hlength, group_value g hg, hbytes]
        rw [hcons] at hmore ⊢
        simp [hc, hmore]

theorem pairs_flatMap : ∀ (bytes : List ℕ), bytes.length % 2 = 0 →
    ((pairs bytes).flatMap fun g => [g.1, g.2]) = bytes
  | [], _ => rfl
  | [_], h => absurd h (by simp)
  | a :: b :: rest, h => by
    have hrest : rest.length % 2 = 0 := by
      simp only [List.length_cons] at h
      omega
    rw [pairs, List.flatMap_cons, pairs_flatMap rest hrest]
    rfl

theorem pairs_length : ∀ bytes : List ℕ, (pairs bytes).length = bytes.length / 2
  | [] => rfl
  | [_] => by simp [pairs]
  | a :: b :: rest => by
    rw [pairs, List.length_cons, pairs_length rest, List.length_cons, List.length_cons]
    omega

theorem pairs_group : ∀ bytes : List ℕ, (∀ b ∈ bytes, b < 256) → ∀ g ∈ pairs bytes, Group g
  | [], _, g, hg => absurd hg List.not_mem_nil
  | [_], _, g, hg => absurd hg List.not_mem_nil
  | a :: b :: rest, h, g, hg => by
    obtain ⟨ha, h⟩ := List.forall_mem_cons.mp h
    obtain ⟨hb, h⟩ := List.forall_mem_cons.mp h
    rcases List.mem_cons.mp hg with rfl | hg
    · exact ⟨ha, hb⟩
    · exact pairs_group rest h g hg

theorem groupsText_digits (groups : List (ℕ × ℕ)) (hgroups : ∀ g ∈ groups, Group g) :
    ∀ c ∈ groupsText groups, (hexValue c).isSome = true ∨ c = ':' := by
  induction groups with
  | nil => exact fun c hc => absurd hc List.not_mem_nil
  | cons g rest ih =>
    obtain ⟨hg, hrest⟩ := List.forall_mem_cons.mp hgroups
    intro c hc
    cases rest with
    | nil => exact .inl ((group_digits g hg).2 c hc)
    | cons next rest =>
      rw [groupsText, List.mem_append, List.mem_cons] at hc
      rcases hc with hc | rfl | hc
      · exact .inl ((group_digits g hg).2 c hc)
      · exact .inr rfl
      · exact ih hrest c hc

theorem to16_length (a : Address) : (to16 a.bytes).length = 16 := by
  rcases a.size with ha | ha
  · rw [to16_four _ ha, List.length_append, prefix_length, ha]
  · rw [to16_sixteen _ ha, ha]

theorem prefix_byte : ∀ b ∈ v4InV6Prefix, b < 256 := by
  decide

theorem to16_byte (a : Address) : ∀ b ∈ to16 a.bytes, b < 256 := by
  rcases a.size with ha | ha
  · rw [to16_four _ ha]
    intro b hb
    rcases List.mem_append.mp hb with hb | hb
    · exact prefix_byte b hb
    · exact a.byte b hb
  · rw [to16_sixteen _ ha]
    exact a.byte

theorem find_group (g : ℕ × ℕ) (hg : Group g) (rest : Text) :
    (groupText g ++ ':' :: rest).find? (fun c => c == '.' || c == ':' || c == '%') = some ':' := by
  have hnone : (groupText g).find? (fun c => c == '.' || c == ':' || c == '%') = none := by
    refine List.find?_eq_none.mpr fun c hc hspecial => ?_
    have hdigit := (group_digits g hg).2 c hc
    simp only [Bool.or_eq_true, beq_iff_eq] at hspecial
    rcases hspecial with (rfl | rfl) | rfl <;> exact absurd hdigit (by decide)
  rw [List.find?_append, hnone, Option.none_or]
  rfl

theorem parseIPv6_group (c : Char) (more : Text) (hc : c ≠ ':') :
    parseIPv6 (c :: more) = (parseGroups 8 [] none (c :: more)).bind expand := by
  rw [parseIPv6]
  · exact fun h => hc (List.cons.inj h).1
  · exact fun rest h => hc (List.cons.inj h).1

/-- An address is read from its text. -/
theorem parseIP_text (a : Address) : parseIP (text a.bytes) = some (to16 a.bytes) := by
  have hlength := to16_length a
  have hgroups := pairs_group _ (to16_byte a)
  have hcount : (pairs (to16 a.bytes)).length = 8 := by
    rw [pairs_length, hlength]
  have hread : (parseGroups 8 [] none (text a.bytes)).bind expand = some (to16 a.bytes) := by
    have hne : pairs (to16 a.bytes) ≠ [] := List.ne_nil_of_length_pos (by omega)
    rw [text, parseGroups_text _ hgroups hne 8 (by omega), pairs_flatMap _ (by omega),
      List.nil_append, Option.bind_some, expand, if_neg (by omega)]
  have hpercent : '%' ∉ text a.bytes := by
    intro h
    rcases groupsText_digits _ hgroups _ h with h | h
    · exact absurd h (by decide)
    · exact absurd h (by decide)
  obtain ⟨g, next, rest, hpairs⟩ : ∃ g next rest, pairs (to16 a.bytes) = g :: next :: rest := by
    match hp : pairs (to16 a.bytes) with
    | [] => rw [hp] at hcount; exact absurd hcount (by decide)
    | [_] => rw [hp] at hcount; exact absurd hcount (by simp)
    | g :: next :: rest => exact ⟨g, next, rest, rfl⟩
  rw [hpairs] at hgroups
  have hg := hgroups g List.mem_cons_self
  have hfind : (text a.bytes).find? (fun c => c == '.' || c == ':' || c == '%') = some ':' := by
    rw [text, hpairs, groupsText]
    exact find_group g hg _
  obtain ⟨c, more, hcons, hc⟩ := groupsText_head g (next :: rest) hg
  have htext : text a.bytes = c :: more := by rw [text, hpairs, hcons]
  rw [parseIP, hfind]
  simp only [if_neg hpercent]
  rw [← hread, htext, parseIPv6_group c more hc]

example : parseIP "2001:db8::ff00:42:8329".toList = some [0x20, 0x01, 0x0d, 0xb8, 0, 0, 0, 0, 0, 0,
    0xff, 0, 0, 0x42, 0x83, 0x29] := by
  decide

end Hyproxy.IpTexts

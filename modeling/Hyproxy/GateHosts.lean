import Hyproxy.PublicHosts

/-!
The gate of a public resource finds the resource by the forwarded host, which is
the raw `Host` value that the data plane has already accepted and routed. The gate
strips final dots before the port, the data plane after it; and the gate reads
each byte as a character where the data plane decodes UTF-8.
-/
namespace Hyproxy.GateHosts

open AuthzCheck (Resource)
open PublicHosts (lower lowerChar rstripDots upper_toNat)
open Routing
open Text (cut isSpace strip)
open Utf8 (Ascii codePoint decode decodeLoop lead present)

/-- The host that `_resource_for_request` reads off `X-Forwarded-Host`, a byte for a character. -/
def forwardedHost (forwarded : List Char) : Option (List Char) :=
  let host := rstripDots (lower (strip (cut ',' forwarded).1))
  let bare :=
    if host.head? = some '[' then (cut ']' host).1.dropWhile (· = '[')
    else if host.count ':' = 1 then (cut ':' host).1
    else host
  if bare = [] then none else some bare

/-- The row that the gate serves under a host. The column ignores case, as `lower` does. -/
def gateResource (resources : List Resource) (host : List Char) : Option Resource :=
  resources.find? fun r =>
    r.publicHost.map lower == some (lower host) && r.enabled && r.publicAccess

/-- `_resource_for_request` -/
def resourceForRequest (resources : List Resource) (forwarded : List Char) : Option Resource :=
  (forwardedHost forwarded).bind (gateResource resources)

/-! ### The bytes of an accepted name -/

/-- What an accepted name is made of: the last five are the bytes of a dotted capital I and of the
Kelvin sign, whose lower case is ASCII. -/
def HostByte (c : Char) : Prop :=
  (45 ≤ c.toNat ∧ c.toNat ≤ 46) ∨ (48 ≤ c.toNat ∧ c.toNat ≤ 57) ∨ (65 ≤ c.toNat ∧ c.toNat ≤ 90) ∨
    (97 ≤ c.toNat ∧ c.toNat ≤ 122) ∨ c.toNat = 0xC4 ∨ c.toNat = 0xB0 ∨ c.toNat = 0xE2 ∨
    c.toNat = 0x84 ∨ c.toNat = 0xAA

theorem toNat_of_ofNat (n m : ℕ) (hm : m ≠ 0) (h : (Char.ofNat n).toNat = m) : n = m := by
  by_cases hvalid : n.isValidChar
  · rwa [Char.ofNat, dif_pos hvalid] at h
  · rw [Char.ofNat, dif_neg hvalid] at h
    exact absurd h.symm hm

/-- Two code points outside ASCII have a lower case in it, and each has one encoding. -/
theorem codePoint_cases (b n lo hi : ℕ) (rest : List Char) (hlead : lead b = some (n, lo, hi))
    (hpresent : present lo hi n rest = n)
    (hpoint : codePoint b n rest = 0x130 ∨ codePoint b n rest = 0x212A) :
    (b = 0xC4 ∧ ∃ c tail, rest = c :: tail ∧ n = 1 ∧ c.toNat = 0xB0) ∨
      (b = 0xE2 ∧ ∃ c d tail, rest = c :: d :: tail ∧ n = 2 ∧ c.toNat = 0x84 ∧ d.toNat = 0xAA) := by
  unfold lead at hlead
  split_ifs at hlead
  all_goals
    simp only [Option.some.injEq, Prod.mk.injEq] at hlead
    obtain ⟨rfl, rfl, rfl⟩ := hlead
  · obtain ⟨c, t, rfl, hc, hc', -⟩ := Utf8.present_one _ _ _ _ hpresent
    simp [codePoint] at hpoint
    exact Or.inl ⟨by omega, c, t, rfl, rfl, by omega⟩
  all_goals
    obtain ⟨c, t, rfl, hc, hc', hpresent⟩ := Utf8.present_one _ _ _ _ hpresent
    obtain ⟨d, t, rfl, hd, hd', hpresent⟩ := Utf8.present_one _ _ _ _ hpresent
    try obtain ⟨e, t, rfl, he, he', -⟩ := Utf8.present_one _ _ _ _ hpresent
    simp [codePoint] at hpoint
    try omega
  exact Or.inr ⟨by omega, c, d, t, rfl, rfl, by omega, by omega⟩

theorem decodeLoop_bytes (fuel : ℕ) (s : List Char) (hfuel : s.length ≤ fuel)
    (hs : ∀ c ∈ decodeLoop false fuel s, c.toNat < 0x80 ∨ c.toNat = 0x130 ∨ c.toNat = 0x212A) :
    ∀ c ∈ s, (c.toNat < 0x80 ∧ c ∈ decodeLoop false fuel s) ∨ c.toNat = 0xC4 ∨ c.toNat = 0xB0 ∨
      c.toNat = 0xE2 ∨ c.toNat = 0x84 ∨ c.toNat = 0xAA := by
  induction fuel generalizing s with
  | zero =>
    obtain rfl := List.eq_nil_of_length_eq_zero (Nat.le_zero.mp hfuel)
    exact fun c hc => absurd hc List.not_mem_nil
  | succ fuel ih =>
    cases s with
    | nil => exact fun c hc => absurd hc List.not_mem_nil
    | cons b rest =>
      have hrep : ¬ (Utf8.replacement.toNat < 0x80 ∨ Utf8.replacement.toNat = 0x130 ∨
        Utf8.replacement.toNat = 0x212A) := by decide
      rw [decodeLoop] at hs ⊢
      by_cases hb : b.toNat < 0x80
      · rw [if_pos hb] at hs ⊢
        rw [List.forall_mem_cons] at hs ⊢
        refine ⟨Or.inl ⟨hb, List.mem_cons_self ..⟩, fun c hc => ?_⟩
        exact (ih rest (by simpa using hfuel) hs.2 c hc).imp_left
          (fun h => ⟨h.1, List.mem_cons_of_mem _ h.2⟩)
      · rw [if_neg hb] at hs ⊢
        cases hlead : lead b.toNat with
        | none =>
          rw [hlead] at hs
          exact absurd (hs _ (List.mem_cons_self ..)) hrep
        | some announced =>
          obtain ⟨n, lo, hi⟩ := announced
          rw [hlead] at hs
          simp only at hs ⊢
          by_cases hpresent : present lo hi n rest = n
          · rw [if_pos hpresent] at hs ⊢
            rw [List.forall_mem_cons] at hs
            have hhigh := Utf8.codePoint_not_ascii _ _ _ _ rest hlead hpresent
            have hpoint := hs.1.resolve_left (by omega)
            have hcases := codePoint_cases _ _ _ _ rest hlead hpresent
              (hpoint.imp (toNat_of_ofNat _ _ (by decide)) (toNat_of_ofNat _ _ (by decide)))
            rcases hcases with ⟨hfirst, c, tail, rfl, rfl, hc⟩ | ⟨hfirst, c, d, tail, rfl, rfl, hc, hd⟩
            · rw [List.forall_mem_cons, List.forall_mem_cons]
              refine ⟨by omega, by omega, fun e he => ?_⟩
              exact (ih tail (by simp at hfuel; omega) hs.2 e he).imp_left
                (fun h => ⟨h.1, List.mem_cons_of_mem _ h.2⟩)
            · rw [List.forall_mem_cons, List.forall_mem_cons, List.forall_mem_cons]
              refine ⟨by omega, by omega, by omega, fun e he => ?_⟩
              exact (ih tail (by simp at hfuel; omega) hs.2 e he).imp_left
                (fun h => ⟨h.1, List.mem_cons_of_mem _ h.2⟩)
          · rw [if_neg hpresent] at hs
            exact absurd (hs _ (List.mem_cons_self ..)) hrep

theorem lowerRune_cases (d : Char) (hd : lowerRune d = '.' ∨ hostChar (lowerRune d) = true) :
    (d.toNat < 0x80 ∧ HostByte d) ∨ d.toNat = 0x130 ∨ d.toNat = 0x212A := by
  unfold HostByte
  by_cases hupper : 'A' ≤ d ∧ d ≤ 'Z'
  · have hletter := upper_toNat d hupper
    exact Or.inl (by omega)
  · by_cases hspecial : d.toNat = 0x130 ∨ d.toNat = 0x212A
    · exact Or.inr hspecial
    · rw [not_or] at hspecial
      rw [lowerRune, if_neg hupper, if_neg hspecial.1, if_neg hspecial.2] at hd
      rcases hd with rfl | hd
      · exact Or.inl (by decide)
      · have hrange := PublicHosts.hostChar_toNat d hd
        exact Or.inl (by omega)

theorem normalizeName_bytes (name h : List Char) (hok : normalizeName name = some h) :
    h = toLower name ∧ ∀ c ∈ name, HostByte c := by
  have hchars := normalizeName_chars name h hok
  unfold normalizeName at hok
  split_ifs at hok
  obtain rfl := Option.some.inj hok
  refine ⟨rfl, fun c hc => ?_⟩
  have hpoints : ∀ d ∈ decode false name,
      (d.toNat < 0x80 ∧ HostByte d) ∨ d.toNat = 0x130 ∨ d.toNat = 0x212A :=
    fun d hd => lowerRune_cases d (hchars _ (List.mem_map_of_mem hd))
  rcases decodeLoop_bytes name.length name (Nat.le_refl _)
    (fun d hd => (hpoints d hd).imp_left And.left) c hc with ⟨hlow, hmem⟩ | hbyte
  · rcases hpoints c hmem with hpoint | hpoint
    · exact hpoint.2
    · omega
  · unfold HostByte
    omega

theorem trimDot_cases (host : List Char) :
    (trimDot host = host ∧ host.getLast? ≠ some '.') ∨ host = trimDot host ++ ['.'] := by
  unfold trimDot
  split_ifs with hdot
  · obtain ⟨front, rfl⟩ := List.getLast?_eq_some_iff.mp hdot
    exact Or.inr (by rw [List.dropLast_concat])
  · exact Or.inl ⟨rfl, hdot⟩

/-- The last label of an accepted name is not empty. -/
theorem normalizeName_getLast (name h : List Char) (hok : normalizeName name = some h) :
    h ≠ [] ∧ h.getLast? ≠ some '.' := by
  unfold normalizeName at hok
  split_ifs at hok with hlength hlabels
  obtain rfl := Option.some.inj hok
  constructor
  · intro hnil
    rw [hnil] at hlabels
    exact absurd hlabels (by decide)
  · intro hlast
    obtain ⟨front, hfront⟩ := List.getLast?_eq_some_iff.mp hlast
    rw [hfront, List.splitOn_append_cons_self] at hlabels
    have hempty := List.all_eq_true.mp hlabels [] (List.mem_append_right _ (by decide))
    exact absurd hempty (by decide)

theorem cutLast_some (raw name port : List Char) (hcut : cutLast raw = some (name, port)) :
    raw = name ++ ':' :: port := by
  unfold cutLast at hcut
  split_ifs at hcut with hcolon
  obtain ⟨rfl, rfl⟩ := Prod.mk.inj (Option.some.inj hcut)
  have hmem : ':' ∈ raw.reverse.dropWhile (· ≠ ':') :=
    PublicHosts.mem_dropWhile _ _ _ (List.mem_reverse.mpr hcolon) (by decide)
  cases hdrop : raw.reverse.dropWhile (· ≠ ':') with
  | nil =>
    rw [hdrop] at hmem
    cases hmem
  | cons c rest =>
    have hhead : c = ':' := by
      have hnot := List.head?_dropWhile_not (· ≠ ':') raw.reverse
      rw [hdrop] at hnot
      simpa using hnot
    have hsplit := List.takeWhile_append_dropWhile (p := (· ≠ ':')) (l := raw.reverse)
    rw [hdrop, hhead] at hsplit
    have hreverse := congrArg List.reverse hsplit
    simpa using hreverse.symm

/-! ### The gate's reading -/

/-- `str.lower` of a byte read as Latin-1 -/
def lowerByte (c : Char) : Char :=
  if ('A' ≤ c ∧ c ≤ 'Z') ∨ (0xC0 ≤ c.toNat ∧ c.toNat ≤ 0xDE ∧ c.toNat ≠ 0xD7) then
    Char.ofNat (c.toNat + 32)
  else c

theorem lowerChar_byte (c : Char) (hc : HostByte c) : lowerChar c = [lowerByte c] := by
  unfold HostByte at hc
  unfold lowerChar lowerByte
  split_ifs
  · rfl
  · omega
  · omega
  · rfl

theorem lower_bytes (s : List Char) (hs : ∀ c ∈ s, HostByte c) : lower s = s.map lowerByte := by
  induction s with
  | nil => rfl
  | cons c rest ih =>
    rw [List.forall_mem_cons] at hs
    have htail := ih hs.2
    unfold lower at htail ⊢
    rw [List.flatMap_cons, lowerChar_byte c hs.1, htail, List.map_cons, List.singleton_append]

theorem lowerByte_cases (c : Char) (hc : HostByte c) :
    lowerByte c = c ∨ (lowerByte c).toNat = c.toNat + 32 ∧
      (65 ≤ c.toNat ∧ c.toNat ≤ 90 ∨ 0xC0 ≤ c.toNat) := by
  unfold HostByte at hc
  unfold lowerByte
  split_ifs with hupper
  · have hletter : 65 ≤ c.toNat ∧ c.toNat ≤ 90 ∨ 0xC0 ≤ c.toNat :=
      hupper.imp (upper_toNat c) And.left
    exact Or.inr ⟨PercentCoding.toNat_ofNat _ (Or.inl (by omega)), hletter⟩
  · exact Or.inl rfl

/-- The lower case of a byte is no separator, unless the byte is a dot. -/
theorem lowerByte_ne (c d : Char) (hc : HostByte c) (hd : d.toNat = 46 ∨ d.toNat = 58 ∨ d.toNat = 91)
    (hne : c ≠ '.') : lowerByte c ≠ d := by
  rintro rfl
  unfold HostByte at hc
  rcases lowerByte_cases c hc with hsame | hplus
  · rw [hsame] at hd
    have hdot : c.toNat = '.'.toNat := by
      have hvalue : '.'.toNat = 46 := rfl
      omega
    exact hne (Char.toNat_inj.mp hdot)
  · omega

/-- Lowering a byte once more changes nothing. -/
theorem lowerChar_lowerByte (c : Char) (hc : HostByte c) :
    lowerChar (lowerByte c) = [lowerByte c] := by
  have hrange : ¬ (65 ≤ (lowerByte c).toNat ∧ (lowerByte c).toNat ≤ 90) ∧
      ¬ (0xC0 ≤ (lowerByte c).toNat ∧ (lowerByte c).toNat ≤ 0xDE) ∧ (lowerByte c).toNat < 0x130 := by
    unfold HostByte at hc
    unfold lowerByte
    split_ifs with hupper
    · have hletter : 65 ≤ c.toNat ∧ c.toNat ≤ 90 ∨ 0xC0 ≤ c.toNat := hupper.imp (upper_toNat c) And.left
      rw [PercentCoding.toNat_ofNat _ (Or.inl (by omega))]
      omega
    · rw [not_or] at hupper
      have hletter : ¬ (65 ≤ c.toNat ∧ c.toNat ≤ 90) := hupper.1
      omega
  rw [lowerChar, if_neg, if_neg (by omega), if_neg (by omega)]
  rintro (hupper | hlatin)
  · exact hrange.1 (upper_toNat _ hupper)
  · exact hrange.2.1 ⟨hlatin.1, hlatin.2.1⟩

theorem lower_lowered (s : List Char) (hs : ∀ c ∈ s, HostByte c) :
    lower (s.map lowerByte) = s.map lowerByte := by
  induction s with
  | nil => rfl
  | cons c rest ih =>
    rw [List.forall_mem_cons] at hs
    have htail := ih hs.2
    unfold lower at htail ⊢
    rw [List.map_cons, List.flatMap_cons, lowerChar_lowerByte c hs.1, htail, List.singleton_append]

theorem lowerByte_ascii (c : Char) (hc : HostByte c) :
    ((lowerByte c).toNat < 0x80 ↔ c.toNat < 0x80) ∧ (c.toNat < 0x80 → lowerByte c = lowerRune c) := by
  constructor
  · unfold HostByte at hc
    rcases lowerByte_cases c hc with hsame | hplus
    · rw [hsame]
    · omega
  · intro hlow
    unfold lowerByte lowerRune
    by_cases hupper : 'A' ≤ c ∧ c ≤ 'Z'
    · rw [if_pos (Or.inl hupper), if_pos hupper]
    · rw [if_neg (not_or.mpr ⟨hupper, by omega⟩), if_neg hupper, if_neg (by omega), if_neg (by omega)]

theorem strip_bytes (s : List Char) (hs : ∀ c ∈ s, HostByte c ∨ c.toNat = 58) :
    strip (cut ',' s).1 = s := by
  have hcomma : ',' ∉ s := by
    intro hmem
    rcases hs _ hmem with hbyte | hcolon
    · exact absurd hbyte (by unfold HostByte; decide)
    · exact absurd hcolon (by decide)
  rw [Text.cut_of_not_mem ',' s hcomma]
  refine Text.strip_eq_self s (fun c hc => ?_)
  have hrange := hs c hc
  unfold HostByte at hrange
  rw [← Bool.not_eq_true]
  intro hspace
  simp only [isSpace, Bool.or_eq_true, Bool.and_eq_true, decide_eq_true_iff, beq_iff_eq] at hspace
  omega

theorem lowerByte_not_mem (s : List Char) (hs : ∀ c ∈ s, HostByte c) (d : Char)
    (hd : d.toNat = 58 ∨ d.toNat = 91) : d ∉ s.map lowerByte := by
  intro hmem
  obtain ⟨c, hc, hlower⟩ := List.mem_map.mp hmem
  by_cases hdot : c = '.'
  · subst hdot
    have hvalue : (lowerByte '.').toNat = 46 := by decide
    rw [hlower] at hvalue
    omega
  · exact lowerByte_ne c d (hs c hc) (Or.inr hd) hdot hlower

theorem forwardedHost_name (s : List Char) (hs : ∀ c ∈ s, HostByte c) :
    forwardedHost s = if rstripDots (s.map lowerByte) = [] then none
      else some (rstripDots (s.map lowerByte)) := by
  have hsub : ∀ d, d ∈ rstripDots (s.map lowerByte) → d ∈ s.map lowerByte := fun d hd =>
    (List.rdropWhile_prefix _ _).mem hd
  have hbracket : (rstripDots (s.map lowerByte)).head? ≠ some '[' := fun hhead =>
    lowerByte_not_mem s hs '[' (Or.inr rfl) (hsub _ (List.mem_of_mem_head? hhead))
  have hcolon : (rstripDots (s.map lowerByte)).count ':' = 0 :=
    List.count_eq_zero.mpr fun hmem => lowerByte_not_mem s hs ':' (Or.inl rfl) (hsub _ hmem)
  rw [forwardedHost, strip_bytes s (fun c hc => Or.inl (hs c hc)), lower_bytes s hs]
  simp only [if_neg hbracket, hcolon]
  rfl

theorem port_range (port : List Char) (hport : isPort port = true) :
    port ≠ [] ∧ ∀ c ∈ port, 48 ≤ c.toNat ∧ c.toNat ≤ 57 := by
  simp only [isPort, Bool.and_eq_true, decide_eq_true_iff, List.all_eq_true] at hport
  exact ⟨hport.1.1, hport.2⟩

theorem forwardedHost_port (name port : List Char) (hs : ∀ c ∈ name, HostByte c)
    (hport : isPort port = true) :
    forwardedHost (name ++ ':' :: port) = if name.map lowerByte = [] then none
      else some (name.map lowerByte) := by
  obtain ⟨hne, hdigits⟩ := port_range port hport
  have hportBytes : ∀ c ∈ port, HostByte c := fun c hc => Or.inr (Or.inl (hdigits c hc))
  have hsame : port.map lowerByte = port := by
    refine (List.map_congr_left fun c hc => ?_).trans (List.map_id port)
    have hrange := hdigits c hc
    exact (lowerByte_cases c (hportBytes c hc)).resolve_right (by omega)
  have hlower : lower (name ++ ':' :: port) = name.map lowerByte ++ ':' :: port := by
    have hsplit : lower (name ++ ':' :: port) = lower name ++ (lowerChar ':' ++ lower port) := by
      unfold lower
      rw [List.flatMap_append, List.flatMap_cons]
    rw [hsplit, lower_bytes name hs, lower_bytes port hportBytes, hsame]
    rfl
  have hstrip : rstripDots (name.map lowerByte ++ ':' :: port) = name.map lowerByte ++ ':' :: port := by
    refine List.rdropWhile_eq_self_iff.mpr fun hnil hdot => ?_
    have hlast : (name.map lowerByte ++ ':' :: port).getLast hnil = port.getLast hne := by
      rw [List.getLast_append_of_ne_nil _ (List.cons_ne_nil _ _), List.getLast_cons hne]
    rw [hlast, decide_eq_true_iff] at hdot
    have hrange := hdigits _ (List.getLast_mem hne)
    rw [hdot] at hrange
    exact absurd hrange (by decide)
  have hbracket : (name.map lowerByte ++ ':' :: port).head? ≠ some '[' := by
    intro hhead
    rcases List.mem_append.mp (List.mem_of_mem_head? hhead) with hmem | hmem
    · exact lowerByte_not_mem name hs '[' (Or.inr rfl) hmem
    · rcases List.mem_cons.mp hmem with hcolon | hmem
      · exact absurd hcolon (by decide)
      · exact absurd (hdigits _ hmem) (by decide)
  have hnone : ':' ∉ name.map lowerByte := lowerByte_not_mem name hs ':' (Or.inl rfl)
  have hcount : (name.map lowerByte ++ ':' :: port).count ':' = 1 := by
    have hzero : port.count ':' = 0 := List.count_eq_zero.mpr fun hmem =>
      absurd (hdigits _ hmem) (by decide)
    rw [List.count_append, List.count_cons_self, List.count_eq_zero.mpr hnone, hzero]
  have hbytes : ∀ c ∈ name ++ ':' :: port, HostByte c ∨ c.toNat = 58 := by
    intro c hc
    rcases List.mem_append.mp hc with hc | hc
    · exact Or.inl (hs c hc)
    · rcases List.mem_cons.mp hc with rfl | hc
      · exact Or.inr rfl
      · exact Or.inl (hportBytes c hc)
  rw [forwardedHost, strip_bytes _ hbytes, hlower, hstrip]
  simp only [if_neg hbracket, if_pos hcount, Text.cut_append ':' _ port hnone]

/-! ### Agreement -/

theorem trimDot_mem (name : List Char) (h : List Char) (hok : normalizeName (trimDot name) = some h) :
    ∀ c ∈ name, HostByte c := by
  have hbytes := (normalizeName_bytes _ h hok).2
  rcases trimDot_cases name with ⟨hsame, -⟩ | hdot
  · rwa [hsame] at hbytes
  · rw [hdot]
    intro c hc
    rcases List.mem_append.mp hc with hc | hc
    · exact hbytes c hc
    · obtain rfl := List.mem_singleton.mp hc
      exact Or.inl (by decide)

theorem ascii_trimDot (name : List Char) (hlow : Ascii name) : Ascii (trimDot name) := by
  intro c hc
  unfold trimDot at hc
  split_ifs at hc
  · exact hlow c (List.dropLast_subset _ hc)
  · exact hlow c hc

/-- In ASCII both readings lower one name. -/
theorem lowered_eq (name h : List Char) (hok : normalizeName (trimDot name) = some h)
    (hlow : Ascii name) : (trimDot name).map lowerByte = h := by
  obtain ⟨hh, hbytes⟩ := normalizeName_bytes _ h hok
  have hascii := ascii_trimDot name hlow
  rw [hh, toLower, Utf8.decode_ascii false _ hascii]
  exact List.map_congr_left fun c hc => (lowerByte_ascii c (hbytes c hc)).2 (hascii c hc)

/-- A byte above ASCII stays above it, so that no accepted host contains it. -/
theorem lowered_high (name h : List Char) (hok : normalizeName (trimDot name) = some h) (c : Char)
    (hc : c ∈ name) (hhigh : ¬ c.toNat < 0x80) : lowerByte c ∉ h := by
  intro hmem
  have hlow := PublicHosts.host_ascii h (normalizeName_chars _ h hok) _ hmem
  exact hhigh ((lowerByte_ascii c (trimDot_mem name h hok c hc)).1.mp hlow)

/-- Without a port the gate strips the dot that the data plane strips. -/
theorem forwardedHost_bare_iff (name h : List Char) (hok : normalizeName (trimDot name) = some h) :
    forwardedHost name = some h ↔ Ascii name := by
  have hbytes := trimDot_mem name h hok
  obtain ⟨hne, hlast⟩ := normalizeName_getLast _ h hok
  rw [forwardedHost_name name hbytes]
  constructor
  · intro heq c hc
    by_contra hhigh
    split_ifs at heq
    refine lowered_high name h hok c hc hhigh (Option.some.inj heq ▸ ?_)
    refine PublicHosts.mem_rdropWhile _ _ _ (List.mem_map_of_mem hc) (decide_eq_false fun hdot => ?_)
    have hvalue := (lowerByte_ascii c (hbytes c hc)).1
    rw [hdot] at hvalue
    exact hhigh (hvalue.mp (by decide))
  · intro hlow
    have hlowered := lowered_eq name h hok hlow
    have hkeep : rstripDots h = h := by
      refine List.rdropWhile_eq_self_iff.mpr fun hnil hdot => hlast ?_
      rw [List.getLast?_eq_some_getLast hnil, of_decide_eq_true hdot]
    have hstripped : rstripDots (name.map lowerByte) = h := by
      rcases trimDot_cases name with ⟨hsame, -⟩ | hdot
      · rw [hsame] at hlowered
        rw [hlowered, hkeep]
      · have hdotted : name.map lowerByte = h ++ ['.'] := by
          rw [hdot, List.map_append, hlowered]
          rfl
        rw [hdotted, rstripDots, List.rdropWhile_concat_pos _ _ _ (by decide)]
        exact hkeep
    rw [hstripped, if_neg hne]

/-- Behind a port the gate keeps the dot. -/
theorem forwardedHost_port_iff (name port h : List Char)
    (hok : normalizeName (trimDot name) = some h) (hport : isPort port = true) :
    forwardedHost (name ++ ':' :: port) = some h ↔
      Ascii (name ++ ':' :: port) ∧ name.getLast? ≠ some '.' := by
  have hbytes := trimDot_mem name h hok
  obtain ⟨hne, hlast⟩ := normalizeName_getLast _ h hok
  rw [forwardedHost_port name port hbytes hport]
  constructor
  · intro heq
    split_ifs at heq
    have hname := Option.some.inj heq
    have hlow : Ascii name := by
      intro c hc
      by_contra hhigh
      exact lowered_high name h hok c hc hhigh (hname ▸ List.mem_map_of_mem hc)
    refine ⟨?_, fun hdot => ?_⟩
    · intro c hc
      rcases List.mem_append.mp hc with hc | hc
      · exact hlow c hc
      · rcases List.mem_cons.mp hc with rfl | hc
        · decide
        · have hrange := (port_range port hport).2 c hc
          omega
    · obtain ⟨front, rfl⟩ := List.getLast?_eq_some_iff.mp hdot
      rw [List.map_append] at hname
      exact hlast (by rw [← hname, List.map_singleton, List.getLast?_concat]; rfl)
  · rintro ⟨hlow, hdot⟩
    have hlowered := lowered_eq name h hok fun c hc => hlow c (List.mem_append_left _ hc)
    rw [trimDot, if_neg hdot] at hlowered
    rw [hlowered, if_neg hne]

theorem forwardedHost_iff (raw h : List Char) (hok : normalizeHost raw = some h) :
    forwardedHost raw = some h ↔
      Ascii raw ∧ ∀ name port, cutLast raw = some (name, port) → name.getLast? ≠ some '.' := by
  unfold normalizeHost at hok
  split_ifs at hok
  cases hcut : cutLast raw with
  | none =>
    rw [hcut] at hok
    rw [forwardedHost_bare_iff raw h hok]
    exact (and_iff_left fun name port hsome => by cases hsome).symm
  | some parts =>
    obtain ⟨name, port⟩ := parts
    rw [hcut] at hok
    simp only at hok
    split_ifs at hok with hport
    have hraw := cutLast_some raw name port hcut
    rw [hraw, forwardedHost_port_iff name port h hok hport]
    refine and_congr_right fun _ => ⟨fun hdot _ _ hsome => ?_, fun hall => hall name port rfl⟩
    obtain ⟨rfl, rfl⟩ := Prod.mk.inj (Option.some.inj hsome)
    exact hdot

/-- What the gate looks up is in lower case. -/
theorem lower_forwardedHost (raw h host : List Char) (hok : normalizeHost raw = some h)
    (hhost : forwardedHost raw = some host) : lower host = host := by
  have hlower : ∀ s t : List Char, (∀ c ∈ s, HostByte c) → t <+: s.map lowerByte → lower t = t := by
    intro s t hs hprefix
    obtain ⟨n, rfl⟩ : ∃ n, t = (s.take n).map lowerByte :=
      ⟨t.length, by rw [List.map_take]; exact List.prefix_iff_eq_take.mp hprefix⟩
    exact lower_lowered _ fun c hc => hs c (List.mem_of_mem_take hc)
  unfold normalizeHost at hok
  split_ifs at hok
  cases hcut : cutLast raw with
  | none =>
    rw [hcut] at hok
    have hbytes := trimDot_mem raw h hok
    rw [forwardedHost_name raw hbytes] at hhost
    split_ifs at hhost
    obtain rfl := Option.some.inj hhost
    exact hlower raw _ hbytes (List.rdropWhile_prefix _ _)
  | some parts =>
    obtain ⟨name, port⟩ := parts
    rw [hcut] at hok
    simp only at hok
    split_ifs at hok with hport
    have hbytes := trimDot_mem name h hok
    rw [cutLast_some raw name port hcut, forwardedHost_port name port hbytes hport] at hhost
    split_ifs at hhost
    obtain rfl := Option.some.inj hhost
    exact hlower name _ hbytes (List.prefix_refl _)

theorem lower_host (h : List Char) (hchars : ∀ c ∈ h, c = '.' ∨ hostChar c = true) : lower h = h := by
  induction h with
  | nil => rfl
  | cons c rest ih =>
    rw [List.forall_mem_cons] at hchars
    have htail := ih hchars.2
    have hone : lowerChar c = [c] := by
      have hrange : 45 ≤ c.toNat ∧ c.toNat ≤ 57 ∨ 97 ≤ c.toNat ∧ c.toNat ≤ 122 := by
        rcases hchars.1 with rfl | hchar
        · decide
        · have htoNat := PublicHosts.hostChar_toNat c hchar
          omega
      rw [lowerChar, if_neg, if_neg (by omega), if_neg (by omega)]
      rintro (hupper | hlatin)
      · have hletter := upper_toNat c hupper
        omega
      · omega
    unfold lower at htail ⊢
    rw [List.flatMap_cons, hone, htail, List.singleton_append]

/-- The gate finds the resources of the host that was routed exactly when the raw value is ASCII
and has no dot right before a port. -/
theorem gate_agrees_iff (raw h : List Char) (hok : normalizeHost raw = some h) :
    (∀ resources, resourceForRequest resources raw = gateResource resources h) ↔
      Ascii raw ∧ ∀ name port, cutLast raw = some (name, port) → name.getLast? ≠ some '.' := by
  rw [← forwardedHost_iff raw h hok]
  constructor
  · intro hall
    have hone := hall [⟨0, some h, [], true, true, none⟩]
    have hfound : gateResource [⟨0, some h, [], true, true, none⟩] h =
        some ⟨0, some h, [], true, true, none⟩ := by
      simp [gateResource]
    rw [hfound] at hone
    obtain ⟨host, hhost, hrow⟩ := Option.bind_eq_some_iff.mp hone
    have hsame := List.find?_some hrow
    simp only [Bool.and_true, beq_iff_eq, Option.map_some, Option.some.injEq] at hsame
    rw [lower_forwardedHost raw h host hok hhost,
      lower_host h (normalizeHost_chars raw h hok)] at hsame
    rw [hhost, hsame]
  · intro hhost resources
    rw [resourceForRequest, hhost]
    rfl

theorem gate_agrees_sample :
    resourceForRequest [⟨7, some "app.local.test".toList, [], true, true, none⟩]
        "App.Local.Test:8443".toList =
      gateResource [⟨7, some "app.local.test".toList, [], true, true, none⟩]
        "app.local.test".toList :=
  (gate_agrees_iff "App.Local.Test:8443".toList "app.local.test".toList (by decide)).mpr
    ⟨by decide, fun name port hcut => by
      obtain ⟨rfl, -⟩ := Prod.mk.inj (Option.some.inj hcut)
      decide⟩ _

/-- The data plane routes a name with a dot before its port, and the gate does not find it. -/
theorem dotted_port_not_found :
    normalizeHost "app.local.test.:8443".toList = some "app.local.test".toList ∧
      resourceForRequest [⟨7, some "app.local.test".toList, [], true, true, none⟩]
        "app.local.test.:8443".toList = none ∧
      gateResource [⟨7, some "app.local.test".toList, [], true, true, none⟩]
        "app.local.test".toList ≠ none := by
  decide

end Hyproxy.GateHosts

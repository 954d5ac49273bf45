import Hyproxy.GateHosts
import Hyproxy.StaticHosts

/-!
The grammar of `NormalizeHost`. An accepted value is a name of dot-separated labels,
with an optional port and at most one final dot; what is returned is the name in
lower case, which is itself accepted and returned as it is.
-/
namespace Hyproxy.HostGrammar

open GateHosts (HostByte cutLast_some normalizeName_bytes)
open Routing
open StaticHosts (PlainHost normalizeHost_self_iff normalizeName_some_iff)

/-- The checks of the loop over the labels. -/
def acceptsLabel (label : List Char) : Bool :=
  if label = [] ∨ 63 < label.length then false
  else if label.any fun c => !hostChar c then false
  else if label.head? = some '-' ∨ label.getLast? = some '-' then false
  else true

/-- `NormalizeHost` from the removal of the final dot on. -/
def nameResult (host : List Char) : List Char × Bool :=
  if trimDot host = [] ∨ 253 < (trimDot host).length then ([], false)
  else if ((toLower (trimDot host)).splitOn '.').all acceptsLabel then
    (toLower (trimDot host), true)
  else ([], false)

/-- `NormalizeHost` with both of its results. -/
def hostResult (raw : List Char) : List Char × Bool :=
  if raw = [] ∨ 255 < raw.length then ([], false)
  else if raw.head? = some '[' then ([], false)
  else
    match cutLast raw with
    | none => nameResult raw
    | some (host, port) =>
      if port = [] ∨ 5 < port.length then ([], false)
      else if port.any fun c => c < '0' || '9' < c then ([], false)
      else nameResult host

/-- One to five decimal digits. -/
structure Port (port : List Char) : Prop where
  ne_nil : port ≠ []
  length_le : port.length ≤ 5
  digits : ∀ c ∈ port, '0' ≤ c ∧ c ≤ '9'

structure Label (label : List Char) : Prop where
  ne_nil : label ≠ []
  length_le : label.length ≤ 63
  chars : ∀ c ∈ label, ('a' ≤ c ∧ c ≤ 'z') ∨ ('0' ≤ c ∧ c ≤ '9') ∨ c = '-'
  first : label.head? ≠ some '-'
  last : label.getLast? ≠ some '-'

/-- `front` is `raw` without the port that it ends in, if it ends in one. -/
def WithoutPort (raw front : List Char) : Prop :=
  (∃ port, Port port ∧ raw = front ++ ':' :: port) ∨
    ((¬ ∃ front port, Port port ∧ raw = front ++ ':' :: port) ∧ front = raw)

/-- `name` is `host` without the dot that it ends in, if it ends in one. -/
def WithoutDot (host name : List Char) : Prop :=
  host = name ++ ['.'] ∨ ((¬ ∃ front, host = front ++ ['.']) ∧ name = host)

/-- What `NormalizeHost` accepts, and what it makes of it. -/
structure Accepted (raw h : List Char) : Prop where
  ne_nil : raw ≠ []
  length_le : raw.length ≤ 255
  no_bracket : raw.head? ≠ some '['
  parts : ∃ host name, WithoutPort raw host ∧ WithoutDot host name ∧ name.length ≤ 253 ∧
    h = toLower name ∧ ∀ label ∈ h.splitOn '.', Label label

theorem isPort_iff (port : List Char) : isPort port = true ↔ Port port := by
  simp only [isPort, Bool.and_eq_true, decide_eq_true_iff, List.all_eq_true, and_assoc]
  constructor
  · rintro ⟨hne, hlength, hdigits⟩
    exact ⟨hne, hlength, hdigits⟩
  · exact fun h => ⟨h.ne_nil, h.length_le, h.digits⟩

theorem isLabel_iff (label : List Char) : isLabel label = true ↔ Label label := by
  have hchar : ∀ c, hostChar c = true ↔
      ('a' ≤ c ∧ c ≤ 'z') ∨ ('0' ≤ c ∧ c ≤ '9') ∨ c = '-' := by
    intro c
    simp only [hostChar, Bool.or_eq_true, Bool.and_eq_true, decide_eq_true_iff]
    tauto
  simp only [isLabel, Bool.and_eq_true, decide_eq_true_iff, List.all_eq_true, hchar, and_assoc]
  constructor
  · rintro ⟨hne, hlength, hchars, hfirst, hlast⟩
    exact ⟨hne, hlength, hchars, hfirst, hlast⟩
  · exact fun h => ⟨h.ne_nil, h.length_le, h.chars, h.first, h.last⟩

theorem acceptsLabel_eq (label : List Char) : acceptsLabel label = isLabel label := by
  unfold acceptsLabel
  rw [Bool.eq_iff_iff, isLabel_iff]
  split_ifs with hlength hchars hhyphen
  · simp only [false_iff]
    intro h
    rcases hlength with hnil | hlong
    · exact h.ne_nil hnil
    · exact absurd h.length_le (by omega)
  · simp only [false_iff]
    intro h
    have hall := (isLabel_iff label).mpr h
    simp only [isLabel, Bool.and_eq_true] at hall
    obtain ⟨c, hc, hbad⟩ := List.any_eq_true.mp hchars
    rw [List.all_eq_true.mp hall.1.1.2 c hc] at hbad
    cases hbad
  · simp only [false_iff]
    intro h
    rcases hhyphen with hfirst | hlast
    · exact h.first hfirst
    · exact h.last hlast
  · rw [not_or] at hlength hhyphen
    have hall : label.all hostChar = true := by
      simpa only [List.any_eq_true, not_exists, not_and, Bool.not_eq_true, Bool.not_eq_false',
        List.all_eq_true] using hchars
    refine iff_of_true rfl ((isLabel_iff label).mp ?_)
    simp [isLabel, hlength.1, hall, hhyphen.1, hhyphen.2]
    omega

/-- What the code returns where the model has an optional host. -/
def both : Option (List Char) → List Char × Bool
  | none => ([], false)
  | some h => (h, true)

theorem nameResult_eq (host : List Char) :
    nameResult host = both (normalizeName (trimDot host)) := by
  have hlabels : acceptsLabel = isLabel := funext acceptsLabel_eq
  unfold nameResult normalizeName
  rw [hlabels]
  split_ifs <;> rfl

theorem hostResult_eq (raw : List Char) : hostResult raw = both (normalizeHost raw) := by
  unfold hostResult normalizeHost
  by_cases hlength : raw = [] ∨ 255 < raw.length
  · rw [if_pos hlength, if_pos hlength]
    rfl
  rw [if_neg hlength, if_neg hlength]
  by_cases hbracket : raw.head? = some '['
  · rw [if_pos hbracket, if_pos hbracket]
    rfl
  rw [if_neg hbracket, if_neg hbracket]
  cases cutLast raw with
  | none => exact nameResult_eq raw
  | some parts =>
    obtain ⟨host, port⟩ := parts
    simp only
    by_cases hport : isPort port = true
    · have hdigits := (isPort_iff port).mp hport
      have hlong : ¬ (port = [] ∨ 5 < port.length) := by
        rw [not_or]
        exact ⟨hdigits.ne_nil, Nat.not_lt.mpr hdigits.length_le⟩
      have hnone : ¬ (port.any fun c => c < '0' || '9' < c) = true := by
        simp only [List.any_eq_true, Bool.or_eq_true, decide_eq_true_iff, not_exists, not_and,
          not_or, Char.not_lt]
        exact fun c hc => hdigits.digits c hc
      rw [if_neg hlong, if_neg hnone, if_pos hport, nameResult_eq]
    · rw [if_neg hport]
      split_ifs with hlong hany
      · rfl
      · rfl
      · refine absurd ((isPort_iff port).mpr ?_) hport
        rw [not_or] at hlong
        simp only [List.any_eq_true, Bool.or_eq_true, decide_eq_true_iff, not_exists, not_and,
          not_or, Char.not_lt] at hany
        exact ⟨hlong.1, by omega, hany⟩

theorem not_mem_port (port : List Char) (h : Port port) : ':' ∉ port := fun hmem =>
  absurd (h.digits ':' hmem) (by decide)

theorem cutLast_append (front port : List Char) (h : ':' ∉ port) :
    cutLast (front ++ ':' :: port) = some (front, port) := by
  have hreverse : (front ++ ':' :: port).reverse = port.reverse ++ ':' :: front.reverse := by simp
  have hcut := Text.cut_append ':' port.reverse front.reverse (by simpa using h)
  obtain ⟨htake, hdrop⟩ := Prod.mk.inj hcut
  rw [cutLast, if_pos (by simp), hreverse, htake, hdrop, List.reverse_reverse, List.reverse_reverse]

theorem withoutPort_of_port (front port : List Char) (h : Port port) (host : List Char) :
    WithoutPort (front ++ ':' :: port) host ↔ host = front := by
  constructor
  · rintro (⟨port', hport', heq⟩ | ⟨hnone, -⟩)
    · have hcut := cutLast_append front port (not_mem_port port h)
      rw [heq, cutLast_append host port' (not_mem_port port' hport')] at hcut
      exact (Prod.mk.inj (Option.some.inj hcut)).1
    · exact absurd ⟨front, port, h, rfl⟩ hnone
  · rintro rfl
    exact Or.inl ⟨port, h, rfl⟩

theorem withoutPort_of_none (raw : List Char)
    (h : ¬ ∃ front port, Port port ∧ raw = front ++ ':' :: port)
    (host : List Char) : WithoutPort raw host ↔ host = raw := by
  constructor
  · rintro (⟨port, hport, heq⟩ | ⟨-, heq⟩)
    · exact absurd ⟨host, port, hport, heq⟩ h
    · exact heq
  · exact fun heq => Or.inr ⟨h, heq⟩

theorem withoutDot_iff (host name : List Char) : WithoutDot host name ↔ name = trimDot host := by
  have hlast : host.getLast? = some '.' ↔ ∃ front, host = front ++ ['.'] :=
    List.getLast?_eq_some_iff
  unfold WithoutDot trimDot
  by_cases hdot : host.getLast? = some '.'
  · obtain ⟨front, rfl⟩ := hlast.mp hdot
    rw [if_pos hdot, List.dropLast_concat]
    constructor
    · rintro (heq | ⟨hnone, -⟩)
      · exact (List.append_cancel_right heq).symm
      · exact absurd ⟨front, rfl⟩ hnone
    · rintro rfl
      exact Or.inl rfl
  · rw [if_neg hdot]
    constructor
    · rintro (heq | ⟨-, heq⟩)
      · exact absurd (hlast.mpr ⟨name, heq⟩) hdot
      · exact heq
    · exact fun heq => Or.inr ⟨mt hlast.mpr hdot, heq⟩

/-- What the grammar says of a name whose port is gone. -/
theorem normalizeName_iff (host h : List Char) :
    normalizeName (trimDot host) = some h ↔
      ∃ name, WithoutDot host name ∧ name.length ≤ 253 ∧ h = toLower name ∧
        ∀ label ∈ h.splitOn '.', Label label := by
  simp only [normalizeName_some_iff, withoutDot_iff, exists_eq_left, isLabel_iff]
  constructor
  · rintro ⟨-, hlength, rfl, hlabels⟩
    exact ⟨hlength, rfl, hlabels⟩
  · rintro ⟨hlength, rfl, hlabels⟩
    refine ⟨fun hnil => ?_, hlength, rfl, hlabels⟩
    rw [hnil] at hlabels
    exact (hlabels [] (by decide)).ne_nil rfl

theorem mem_trimDot (host : List Char) (c : Char) (hc : c ∈ host) (hdot : c ≠ '.') :
    c ∈ trimDot host := by
  rcases GateHosts.trimDot_cases host with ⟨heq, -⟩ | heq
  · rwa [heq]
  · rw [heq, List.mem_append, List.mem_singleton] at hc
    exact hc.resolve_right hdot

/-- A colon that no port follows is in no name. -/
theorem normalizeName_colon (raw h : List Char) (hcolon : ':' ∈ raw) :
    normalizeName (trimDot raw) ≠ some h := by
  intro hok
  have hbyte := (normalizeName_bytes _ h hok).2 ':' (mem_trimDot raw ':' hcolon (by decide))
  revert hbyte
  unfold HostByte
  decide

theorem normalizeHost_iff (raw h : List Char) : normalizeHost raw = some h ↔ Accepted raw h := by
  have hparts : Accepted raw h ↔ (¬ (raw = [] ∨ 255 < raw.length)) ∧ ¬ raw.head? = some '[' ∧
      ∃ host, WithoutPort raw host ∧ normalizeName (trimDot host) = some h := by
    simp only [normalizeName_iff]
    constructor
    · rintro ⟨hne, hlength, hbracket, host, name, hport, hname⟩
      exact ⟨by rw [not_or]; exact ⟨hne, by omega⟩, hbracket, host, hport, name, hname⟩
    · rintro ⟨hraw, hbracket, host, hport, name, hname⟩
      rw [not_or] at hraw
      exact ⟨hraw.1, by omega, hbracket, host, name, hport, hname⟩
  rw [hparts]
  unfold normalizeHost
  split_ifs with hraw hbracket
  · simp [hraw]
  · simp [hbracket]
  · simp only [hraw, hbracket, not_false_eq_true, true_and]
    by_cases hport : ∃ front port, Port port ∧ raw = front ++ ':' :: port
    · obtain ⟨front, port, hdigits, rfl⟩ := hport
      simp only [cutLast_append front port (not_mem_port port hdigits),
        (isPort_iff port).mpr hdigits, if_true, withoutPort_of_port front port hdigits,
        exists_eq_left]
    · simp only [withoutPort_of_none raw hport, exists_eq_left]
      cases hcut : cutLast raw with
      | none => exact Iff.rfl
      | some parts =>
        obtain ⟨front, port⟩ := parts
        have heq := cutLast_some raw front port hcut
        have hdigits : ¬ isPort port = true := fun h =>
          hport ⟨front, port, (isPort_iff port).mp h, heq⟩
        simp only [if_neg hdigits]
        exact iff_of_false (by simp) (normalizeName_colon raw h (by rw [heq]; simp))

theorem length_decodeLoop (maximal : Bool) (fuel : ℕ) (s : List Char) :
    (Utf8.decodeLoop maximal fuel s).length ≤ s.length := by
  induction fuel generalizing s with
  | zero => exact Nat.zero_le _
  | succ fuel ih =>
    cases s with
    | nil => exact Nat.le_refl _
    | cons c rest =>
      have hdrop : ∀ n, (Utf8.decodeLoop maximal fuel (rest.drop n)).length ≤ rest.length :=
        fun n => (ih _).trans (by rw [List.length_drop]; exact Nat.sub_le _ _)
      rw [Utf8.decodeLoop]
      split
      · simpa using ih rest
      · split
        · simpa using ih rest
        · split
          · simpa using hdrop _
          · simpa using hdrop _

/-- What is returned is a plain host. -/
theorem plainHost_of_normalizeHost (raw h : List Char) (hok : normalizeHost raw = some h) :
    PlainHost h := by
  obtain ⟨host, name, -, -, hlength, rfl, hlabels⟩ := ((normalizeHost_iff raw h).mp hok).parts
  refine ⟨?_, fun label hlabel => (isLabel_iff label).mpr (hlabels label hlabel)⟩
  have hshorter := length_decodeLoop false name.length name
  rw [toLower, List.length_map]
  exact hshorter.trans hlength

/-- `NormalizeHost` accepts its grammar and nothing else; a rejection returns no text, and what is
returned for an accepted value is accepted and returned as it is. -/
theorem hostResult_accepts :
    (∀ raw h, hostResult raw = (h, true) ↔ Accepted raw h) ∧
      (∀ raw, (hostResult raw).2 = false → hostResult raw = ([], false)) ∧
      ∀ raw h, hostResult raw = (h, true) → hostResult h = (h, true) := by
  have haccepted : ∀ raw h, hostResult raw = (h, true) ↔ normalizeHost raw = some h := by
    intro raw h
    rw [hostResult_eq]
    cases normalizeHost raw <;> simp [both]
  refine ⟨fun raw h => (haccepted raw h).trans (normalizeHost_iff raw h), fun raw hrejected => ?_,
    fun raw h hok => ?_⟩
  · rw [hostResult_eq] at hrejected ⊢
    cases hhost : normalizeHost raw with
    | none => rfl
    | some h =>
      rw [hhost] at hrejected
      cases hrejected
  · rw [haccepted] at hok ⊢
    exact (normalizeHost_self_iff h).mpr (plainHost_of_normalizeHost raw h hok)

/-- The Kelvin sign is a capital letter of the grammar, and a byte that is no text is not. -/
example : hostResult ([Char.ofNat 0xE2, Char.ofNat 0x84, Char.ofNat 0xAA] ++ ".Test.:443".toList) =
      ("k.test".toList, true) ∧
    hostResult ([Char.ofNat 0xFF] ++ ".test".toList) = ([], false) := by decide

end Hyproxy.HostGrammar

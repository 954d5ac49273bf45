import Hyproxy.PercentCoding
import Hyproxy.Text
import Mathlib.Tactic.SplitIfs

/-!
The generic grammar of URIs with an authority: scheme, user information, host, port, and what comes
behind the authority. A text has at most one splitting by this grammar.
-/
namespace Hyproxy.UriParts

open PercentCoding (unescape)

abbrev Text := List Char

def genDelims : Text := ":/?#[]@".toList

def subDelims : Text := "!$&\x27()*+,;=".toList

/-- The reserved characters. -/
def reserved (c : Char) : Bool := genDelims.contains c || subDelims.contains c

def unreserved (c : Char) : Bool := c.isAlphanum || "-._~".toList.contains c

/-- A character that ends the authority. -/
def ends (c : Char) : Bool := "/?#".toList.contains c

structure Parts where
  scheme : Text
  userinfo : Option Text
  host : Text
  port : Option Text
  rest : Text
  deriving Repr, DecidableEq

def Parts.hostPort (parts : Parts) : Text :=
  match parts.port with
  | none => parts.host
  | some port => parts.host ++ ':' :: port

def Parts.authority (parts : Parts) : Text :=
  match parts.userinfo with
  | none => parts.hostPort
  | some userinfo => userinfo ++ '@' :: parts.hostPort

def Parts.text (parts : Parts) : Text :=
  parts.scheme ++ ':' :: '/' :: '/' :: (parts.authority ++ parts.rest)

/-- Unreserved and escaped characters, subordinate delimiters and colons. -/
def IsUserinfo (s : Text) : Prop :=
  (unescape s).isSome ∧ ∀ c ∈ s, unreserved c ∨ c = '%' ∨ c = ':' ∨ subDelims.contains c

/-- An address in brackets, or a name; a name may have any character but the general delimiters. -/
def IsHost (s : Text) : Prop :=
  (∀ c ∈ s, genDelims.contains c = false) ∨
    ∃ address, s = '[' :: (address ++ [']']) ∧ ∀ c ∈ address, c = ':' ∨ genDelims.contains c = false

structure Parts.WellFormed (parts : Parts) : Prop where
  scheme : ∃ c more, parts.scheme = c :: more ∧ c.isAlpha = true ∧
    ∀ d ∈ more, d.isAlphanum = true ∨ d = '+' ∨ d = '-' ∨ d = '.'
  userinfo : ∀ userinfo, parts.userinfo = some userinfo → IsUserinfo userinfo
  host : IsHost parts.host
  port : ∀ port, parts.port = some port → ∀ c ∈ port, c.isDigit = true
  rest : parts.rest = [] ∨ ∃ c more, parts.rest = c :: more ∧ ends c = true

/-- The parts are a splitting of the text. -/
def Splits (text : Text) (parts : Parts) : Prop := parts.WellFormed ∧ parts.text = text

/-! ### Characters of the parts -/

theorem genDelim_false (keep : Char → Bool) (hkeep : genDelims.all (fun d => !keep d) = true)
    (c : Char) (hc : keep c = true) : genDelims.contains c = false := by
  rw [← Bool.not_eq_true, List.contains_iff_mem]
  intro hmem
  have hnot := List.all_eq_true.mp hkeep c hmem
  rw [hc] at hnot
  cases hnot

theorem ends_false (c : Char) (hc : genDelims.contains c = false) : ends c = false := by
  rw [← Bool.not_eq_true, ends, List.contains_iff_mem] at *
  refine fun hmem => hc ?_
  have hall : "/?#".toList.all (fun d => genDelims.contains d) = true := by decide
  exact List.contains_iff_mem.mp (List.all_eq_true.mp hall c hmem)

theorem mem_userinfo (s : Text) (h : IsUserinfo s) (c : Char) (hc : c ∈ s) :
    c = ':' ∨ genDelims.contains c = false := by
  rcases h.2 c hc with hplain | rfl | rfl | hsub
  · exact Or.inr (genDelim_false unreserved (by decide) c hplain)
  · exact Or.inr (by decide)
  · exact Or.inl rfl
  · exact Or.inr (genDelim_false (fun d => subDelims.contains d) (by decide) c hsub)

theorem mem_host (s : Text) (h : IsHost s) (c : Char) (hc : c ∈ s) :
    c = '[' ∨ c = ']' ∨ c = ':' ∨ genDelims.contains c = false := by
  rcases h with hname | ⟨address, rfl, haddress⟩
  · exact Or.inr (Or.inr (Or.inr (hname c hc)))
  · rcases List.mem_cons.mp hc with rfl | hc
    · exact Or.inl rfl
    · rcases List.mem_append.mp hc with hc | hc
      · exact Or.inr (Or.inr (haddress c hc))
      · exact Or.inr (Or.inl (List.mem_singleton.mp hc))

theorem mem_hostPort (parts : Parts) (h : parts.WellFormed) (c : Char) (hc : c ∈ parts.hostPort) :
    c = '[' ∨ c = ']' ∨ c = ':' ∨ genDelims.contains c = false := by
  unfold Parts.hostPort at hc
  split at hc
  · exact mem_host _ h.host c hc
  · rename_i port hport
    rcases List.mem_append.mp hc with hc | hc
    · exact mem_host _ h.host c hc
    · rcases List.mem_cons.mp hc with rfl | hc
      · exact Or.inr (Or.inr (Or.inl rfl))
      · have hdigit := h.port port hport c hc
        exact Or.inr (Or.inr (Or.inr (genDelim_false Char.isDigit (by decide) c hdigit)))

theorem at_not_mem_hostPort (parts : Parts) (h : parts.WellFormed) : '@' ∉ parts.hostPort := by
  intro hmem
  rcases mem_hostPort parts h '@' hmem with hc | hc | hc | hc
  all_goals exact absurd hc (by decide)

theorem mem_authority (parts : Parts) (h : parts.WellFormed) (c : Char) (hc : c ∈ parts.authority) :
    ends c = false := by
  have hhost : ∀ d ∈ parts.hostPort, ends d = false := by
    intro d hd
    rcases mem_hostPort parts h d hd with rfl | rfl | rfl | hd
    · decide
    · decide
    · decide
    · exact ends_false d hd
  unfold Parts.authority at hc
  split at hc
  · exact hhost c hc
  · rename_i userinfo huserinfo
    rcases List.mem_append.mp hc with hc | hc
    · rcases mem_userinfo _ (h.userinfo userinfo huserinfo) c hc with rfl | hc
      · decide
      · exact ends_false c hc
    · rcases List.mem_cons.mp hc with rfl | hc
      · decide
      · exact hhost c hc

/-! ### At most one splitting -/

theorem scheme_unique {p q : Parts} (hp : p.WellFormed) (hq : q.WellFormed)
    (h : p.text = q.text) :
    p.scheme = q.scheme ∧ p.authority ++ p.rest = q.authority ++ q.rest := by
  have hcut : ∀ parts : Parts, parts.WellFormed → Text.cut ':' parts.text =
      (parts.scheme, '/' :: '/' :: (parts.authority ++ parts.rest)) := by
    intro parts hparts
    refine Text.cut_append ':' _ _ fun hmem => ?_
    obtain ⟨c, more, hscheme, halpha, hmore⟩ := hparts.scheme
    rw [hscheme] at hmem
    rcases List.mem_cons.mp hmem with rfl | hmem
    · exact absurd halpha (by decide)
    · rcases hmore ':' hmem with hc | hc | hc | hc
      all_goals exact absurd hc (by decide)
  have heq := hcut p hp
  rw [h, hcut q hq] at heq
  obtain ⟨hscheme, hrest⟩ := Prod.mk.inj heq
  exact ⟨hscheme.symm, (List.cons.inj (List.cons.inj hrest).2).2.symm⟩

theorem authority_unique {p q : Parts} (hp : p.WellFormed) (hq : q.WellFormed)
    (h : p.authority ++ p.rest = q.authority ++ q.rest) :
    p.authority = q.authority ∧ p.rest = q.rest := by
  have htake : ∀ parts : Parts, parts.WellFormed →
      (parts.authority ++ parts.rest).takeWhile (fun c => !ends c) = parts.authority := by
    intro parts hparts
    rw [List.takeWhile_append_of_pos fun c hc => by rw [mem_authority parts hparts c hc]; rfl]
    rcases hparts.rest with hrest | ⟨c, more, hrest, hc⟩
    · rw [hrest, List.takeWhile_nil, List.append_nil]
    · rw [hrest, List.takeWhile_cons_of_neg (by simp [hc]), List.append_nil]
  have hauthority : p.authority = q.authority := by
    rw [← htake p hp, h, htake q hq]
  rw [hauthority] at h
  exact ⟨hauthority, List.append_cancel_left h⟩

theorem userinfo_unique {p q : Parts} (hp : p.WellFormed) (hq : q.WellFormed)
    (h : p.authority = q.authority) : p.userinfo = q.userinfo ∧ p.hostPort = q.hostPort := by
  have hcut : ∀ (parts : Parts) (userinfo : Text), parts.WellFormed →
      parts.userinfo = some userinfo → '@' ∈ parts.authority ∧
        Text.cut '@' parts.authority = (userinfo, parts.hostPort) := by
    intro parts userinfo hparts huserinfo
    have hauthority : parts.authority = userinfo ++ '@' :: parts.hostPort := by
      rw [Parts.authority, huserinfo]
    rw [hauthority]
    refine ⟨by simp, Text.cut_append '@' _ _ fun hmem => ?_⟩
    rcases mem_userinfo _ (hparts.userinfo userinfo huserinfo) '@' hmem with hc | hc <;>
      revert hc <;> decide
  have hnone : ∀ parts : Parts, parts.WellFormed → parts.userinfo = none →
      '@' ∉ parts.authority ∧ parts.authority = parts.hostPort := by
    intro parts hparts huserinfo
    have hauthority : parts.authority = parts.hostPort := by rw [Parts.authority, huserinfo]
    rw [hauthority]
    exact ⟨at_not_mem_hostPort parts hparts, rfl⟩
  cases hup : p.userinfo with
  | none =>
    obtain ⟨hpnot, hpauthority⟩ := hnone p hp hup
    cases huq : q.userinfo with
    | none => exact ⟨rfl, by rw [← hpauthority, h, (hnone q hq huq).2]⟩
    | some other => exact absurd (h ▸ (hcut q other hq huq).1) hpnot
  | some userinfo =>
    obtain ⟨hpmem, hpcut⟩ := hcut p userinfo hp hup
    cases huq : q.userinfo with
    | none => exact absurd (h ▸ hpmem) (hnone q hq huq).1
    | some other =>
      rw [h, (hcut q other hq huq).2] at hpcut
      obtain ⟨hsame, hhost⟩ := Prod.mk.inj hpcut
      exact ⟨congrArg some hsame.symm, hhost.symm⟩

def portTail (port : Option Text) : Text := (port.map (':' :: ·)).getD []

theorem portTail_inj (a b : Option Text) (h : portTail a = portTail b) : a = b := by
  cases a with
  | none =>
    cases b with
    | none => rfl
    | some b => cases h
  | some a =>
    cases b with
    | none => cases h
    | some b => exact congrArg some (List.cons.inj h).2

theorem hostPort_eq (parts : Parts) : parts.hostPort = parts.host ++ portTail parts.port := by
  unfold Parts.hostPort
  cases parts.port with
  | none => exact (List.append_nil _).symm
  | some port => rfl

/-- A name is what comes before the first colon. -/
theorem name_cut (host : Text) (port : Option Text)
    (h : ∀ c ∈ host, genDelims.contains c = false) :
    (host ++ portTail port).takeWhile (fun c => c != ':') = host := by
  have hcolon : ∀ c ∈ host, (c != ':') = true := by
    intro c hc
    refine bne_iff_ne.mpr ?_
    rintro rfl
    exact absurd (h ':' hc) (by decide)
  rw [List.takeWhile_append_of_pos hcolon]
  cases port with
  | none => exact List.append_nil _
  | some port => exact List.append_nil _

/-- An address ends at the first closing bracket. -/
theorem address_cut (address : Text) (port : Option Text)
    (h : ∀ c ∈ address, c = ':' ∨ genDelims.contains c = false) :
    Text.cut ']' (('[' :: (address ++ [']'])) ++ portTail port) =
      ('[' :: address, portTail port) := by
  have hclose : ']' ∉ '[' :: address := by
    intro hmem
    rcases List.mem_cons.mp hmem with hc | hmem
    · revert hc
      decide
    · rcases h ']' hmem with hc | hc <;> revert hc <;> decide
  have hsplit : ('[' :: (address ++ [']'])) ++ portTail port =
      ('[' :: address) ++ ']' :: portTail port := by simp
  rw [hsplit, Text.cut_append ']' _ _ hclose]

theorem host_unique {p q : Parts} (hp : p.WellFormed) (hq : q.WellFormed)
    (h : p.hostPort = q.hostPort) : p.host = q.host ∧ p.port = q.port := by
  rw [hostPort_eq, hostPort_eq] at h
  have hmixed : ∀ (name address : Text) (a b : Option Text),
      (∀ c ∈ name, genDelims.contains c = false) →
        name ++ portTail a ≠ ('[' :: (address ++ [']'])) ++ portTail b := by
    intro name address a b hname heq
    cases name with
    | cons c more =>
      have hopen : genDelims.contains '[' = false := (List.cons.inj heq).1 ▸ hname c (by simp)
      exact absurd hopen (by decide)
    | nil =>
      cases a with
      | none => cases heq
      | some port => exact absurd (List.cons.inj heq).1 (by decide)
  rcases hp.host with hpname | ⟨paddress, hpaddress, hpchars⟩
  · rcases hq.host with hqname | ⟨qaddress, hqaddress, hqchars⟩
    · have hhost : p.host = q.host := by
        rw [← name_cut p.host p.port hpname, h, name_cut q.host q.port hqname]
      rw [hhost] at h
      exact ⟨hhost, portTail_inj _ _ (List.append_cancel_left h)⟩
    · rw [hqaddress] at h
      exact absurd h (hmixed _ _ _ _ hpname)
  · rcases hq.host with hqname | ⟨qaddress, hqaddress, hqchars⟩
    · rw [hpaddress] at h
      exact absurd h.symm (hmixed _ _ _ _ hqname)
    · have hcut := address_cut paddress p.port hpchars
      rw [← hpaddress, h, hqaddress, address_cut qaddress q.port hqchars] at hcut
      obtain ⟨hopen, hport⟩ := Prod.mk.inj hcut
      refine ⟨?_, portTail_inj _ _ hport.symm⟩
      rw [hpaddress, hqaddress, (List.cons.inj hopen).2]

theorem splits_unique {text : Text} {p q : Parts} (hp : Splits text p) (hq : Splits text q) :
    p = q := by
  obtain ⟨hscheme, htail⟩ := scheme_unique hp.1 hq.1 (hp.2.trans hq.2.symm)
  obtain ⟨hauthority, hrest⟩ := authority_unique hp.1 hq.1 htail
  obtain ⟨huserinfo, hhostPort⟩ := userinfo_unique hp.1 hq.1 hauthority
  obtain ⟨hhost, hport⟩ := host_unique hp.1 hq.1 hhostPort
  cases p
  cases q
  simp_all

end Hyproxy.UriParts

import Hyproxy.Utf8
import Mathlib.Tactic.SplitIfs

/-!
The host of a request. `normalizeHost` reads the attacker-controlled `Host` value
and accepts what can be a DNS name or an IPv4 literal, in lower case and without
a port or a final dot; a table resolves what it accepts.
-/
namespace Hyproxy.Routing

/-- `unicode.ToLower`, apart from characters that it keeps outside ASCII: no host has them. -/
def lowerRune (c : Char) : Char :=
  if 'A' ≤ c ∧ c ≤ 'Z' then Char.ofNat (c.toNat + 32)
  else if c.toNat = 0x130 then 'i'
  else if c.toNat = 0x212A then 'k'
  else c

/-- `strings.ToLower` -/
def toLower (s : List Char) : List Char := (Utf8.decode false s).map lowerRune

def hostChar (c : Char) : Bool :=
  c = '-' || ('0' ≤ c && c ≤ '9') || ('a' ≤ c && c ≤ 'z')

def isLabel (label : List Char) : Bool :=
  label ≠ [] && decide (label.length ≤ 63) && label.all hostChar && label.head? ≠ some '-' &&
    label.getLast? ≠ some '-'

def isPort (port : List Char) : Bool :=
  port ≠ [] && decide (port.length ≤ 5) && port.all fun c => '0' ≤ c && c ≤ '9'

/-- The text before the last colon and the text after it, if there is one. -/
def cutLast (s : List Char) : Option (List Char × List Char) :=
  if ':' ∈ s then
    some (((s.reverse.dropWhile (· ≠ ':')).drop 1).reverse, (s.reverse.takeWhile (· ≠ ':')).reverse)
  else none

/-- `strings.TrimSuffix(host, ".")` -/
def trimDot (host : List Char) : List Char :=
  if host.getLast? = some '.' then host.dropLast else host

/-- `NormalizeHost` once the port is removed. -/
def normalizeName (host : List Char) : Option (List Char) :=
  if host = [] ∨ 253 < host.length then none
  else if ((toLower host).splitOn '.').all isLabel then some (toLower host)
  else none

def normalizeHost (raw : List Char) : Option (List Char) :=
  if raw = [] ∨ 255 < raw.length then none
  else if raw.head? = some '[' then none
  else
    match cutLast raw with
    | none => normalizeName (trimDot raw)
    | some (host, port) => if isPort port then normalizeName (trimDot host) else none

/-- What a lookup finds. -/
inductive Kind (Route : Type)
  | none
  | auth
  | app (host : List Char) (route : Route)
  deriving Repr, DecidableEq

/-- The table of one snapshot. -/
structure Table (Route : Type) where
  authHost : List Char
  routes : List (List Char × Route)
  deriving Repr, DecidableEq

def Table.lookup {Route : Type} (t : Table Route) (rawHost : List Char) : Kind Route :=
  match normalizeHost rawHost with
  | none => .none
  | some host =>
    if host = t.authHost then .auth
    else
      match t.routes.lookup host with
      | none => .none
      | some route => .app host route

theorem mem_splitOn (s : List Char) (sep c : Char) (hc : c ∈ s) (hne : c ≠ sep) :
    ∃ part ∈ s.splitOn sep, c ∈ part := by
  induction s with
  | nil => cases hc
  | cons d rest ih =>
    rw [List.splitOn_cons_eq_if_modifyHead]
    rcases List.mem_cons.mp hc with rfl | hc
    · rw [if_neg (by simpa using hne)]
      cases hsplit : rest.splitOn sep with
      | nil => exact (List.splitOn_ne_nil _ _ hsplit).elim
      | cons part parts => exact ⟨c :: part, by simp, by simp⟩
    · obtain ⟨part, hpart, hmem⟩ := ih hc
      split_ifs
      · exact ⟨part, List.mem_cons_of_mem _ hpart, hmem⟩
      · cases hsplit : rest.splitOn sep with
        | nil => exact (List.splitOn_ne_nil _ _ hsplit).elim
        | cons first parts =>
          rw [hsplit] at hpart
          rcases List.mem_cons.mp hpart with rfl | hpart
          · exact ⟨d :: part, by simp, List.mem_cons_of_mem _ hmem⟩
          · exact ⟨part, by simp [hpart], hmem⟩

theorem normalizeName_chars (host h : List Char) (hok : normalizeName host = some h) :
    ∀ c ∈ h, c = '.' ∨ hostChar c = true := by
  unfold normalizeName at hok
  split_ifs at hok with hlength hlabels
  obtain rfl := Option.some.inj hok
  intro c hc
  by_cases hdot : c = '.'
  · exact Or.inl hdot
  · obtain ⟨label, hlabel, hmem⟩ := mem_splitOn _ '.' c hc hdot
    have hvalid := List.all_eq_true.mp hlabels label hlabel
    simp only [isLabel, Bool.and_eq_true] at hvalid
    exact Or.inr (List.all_eq_true.mp hvalid.1.1.2 c hmem)

/-- An accepted host has only lower-case letters, digits, hyphens and dots. -/
theorem normalizeHost_chars (raw h : List Char) (hok : normalizeHost raw = some h) :
    ∀ c ∈ h, c = '.' ∨ hostChar c = true := by
  unfold normalizeHost at hok
  split_ifs at hok
  cases hcut : cutLast raw with
  | none =>
    rw [hcut] at hok
    exact normalizeName_chars _ h hok
  | some parts =>
    rw [hcut] at hok
    simp only at hok
    split_ifs at hok
    exact normalizeName_chars _ h hok

theorem normalizeHost_nul (raw h : List Char) (hok : normalizeHost raw = some h) : '\x00' ∉ h := by
  intro hmem
  rcases normalizeHost_chars raw h hok _ hmem with hdot | hchar
  · exact absurd hdot (by decide)
  · exact absurd hchar (by decide)

/-- A request is an app's when its host is that of a route, and not the auth host. -/
theorem lookup_app_iff {α : Type} (t : Table α) (raw host : List Char) (route : α) :
    t.lookup raw = .app host route ↔
      normalizeHost raw = some host ∧ host ≠ t.authHost ∧ t.routes.lookup host = some route := by
  unfold Table.lookup
  cases normalizeHost raw with
  | none => simp
  | some name =>
    simp only [Option.some.injEq]
    split_ifs with hauth
    · exact iff_of_false (by simp) fun h => h.2.1 (h.1 ▸ hauth)
    · cases hroute : t.routes.lookup name with
      | none =>
        refine iff_of_false (by simp) ?_
        rintro ⟨rfl, -, hfound⟩
        rw [hroute] at hfound
        cases hfound
      | some found =>
        simp only [Kind.app.injEq]
        constructor
        · rintro ⟨rfl, rfl⟩
          exact ⟨rfl, hauth, hroute⟩
        · rintro ⟨rfl, -, hfound⟩
          rw [hroute] at hfound
          exact ⟨rfl, Option.some.inj hfound⟩

/-- A request that is an app's has a route of the table. -/
theorem lookup_app {α : Type} (t : Table α) (raw host : List Char) (route : α)
    (h : t.lookup raw = .app host route) : t.routes.lookup host = some route :=
  ((lookup_app_iff t raw host route).mp h).2.2

end Hyproxy.Routing

import Hyproxy.BrowserUrl

/-!
How `urllib.parse.urlsplit` reads a URL: its scheme, its network location, and what of it is
the host and what the user name. It refuses brackets that do not pair, and by tables that are
a parameter what is no address inside them and what normalizes to a delimiter.
-/
namespace Hyproxy.PyUrl

open BrowserUrl (Text control visible asciiAlpha schemeChar IsScheme)
open Text (cut)

/-- The fields of a `SplitResult`; `rest` is the path, the query and the fragment. -/
structure Split where
  scheme : Text
  netloc : Text
  rest : Text
  deriving Repr, DecidableEq

def splitScheme (url : Text) : Text × Text :=
  if ':' ∈ url ∧ url.head?.any asciiAlpha = true ∧ (cut ':' url).1.all schemeChar = true then
    ((cut ':' url).1.map Char.toLower, (cut ':' url).2)
  else ([], url)

def endsNetloc (c : Char) : Bool := c == '/' || c == '?' || c == '#'

/-- `_splitnetloc` behind two slashes -/
def splitNetloc : Text → Text × Text
  | '/' :: '/' :: more =>
    (more.takeWhile fun c => !endsNetloc c, more.dropWhile fun c => !endsNetloc c)
  | url => ([], url)

def unpaired (netloc : Text) : Bool := netloc.contains '[' != netloc.contains ']'

/-- The text without the control characters and spaces at its start, and without tabs and
newlines. -/
def stripped (url : Text) : Text := (url.dropWhile control).filter visible

def urlsplit (refused : Text → Bool) (url : Text) : Option Split :=
  let front := splitScheme (stripped url)
  let back := splitNetloc front.2
  if unpaired back.1 || refused back.1 then none else some ⟨front.1, back.1, back.2⟩

/-- The host of `_hostinfo`, without the port -/
def hostInfo (netloc : Text) : Text :=
  let info := netloc.rtakeWhile (· ≠ '@')
  if '[' ∈ info then (cut ']' (cut '[' info).2).1 else (cut ':' info).1

/-- `hostname`: lower case, up to the zone of an address -/
def hostname (lower : Text → Text) (netloc : Text) : Option Text :=
  if hostInfo netloc = [] then none
  else some (lower (cut '%' (hostInfo netloc)).1 ++ (hostInfo netloc).dropWhile (· ≠ '%'))

/-- `username`, where none is empty -/
def username (netloc : Text) : Text :=
  if '@' ∈ netloc then (cut ':' (netloc.rdropWhile (· ≠ '@')).dropLast).1 else []

theorem append_cut (sep : Char) (s : Text) (hs : sep ∈ s) :
    s = (cut sep s).1 ++ sep :: (cut sep s).2 := by
  obtain ⟨left, right, rfl, hleft⟩ := List.eq_append_cons_of_mem hs
  rw [Text.cut_append sep left right hleft]

theorem splitScheme_spec (url : Text) (h : (splitScheme url).1 ≠ []) :
    ∃ raw, IsScheme raw ∧ url = raw ++ ':' :: (splitScheme url).2 ∧
      (splitScheme url).1 = raw.map Char.toLower := by
  unfold splitScheme at h ⊢
  split at h
  · rename_i hscheme
    rw [if_pos hscheme]
    have hurl := append_cut ':' url hscheme.1
    have hraw : (cut ':' url).1 ≠ [] := by
      intro hnil
      rw [hnil] at h
      exact h rfl
    refine ⟨(cut ':' url).1, ⟨?_, List.all_eq_true.mp hscheme.2.2⟩, hurl, rfl⟩
    rw [← List.head?_append_of_ne_nil _ hraw, ← hurl]
    exact hscheme.2.1
  · exact absurd rfl h

theorem splitScheme_append (raw more : Text) (h : IsScheme raw) :
    splitScheme (raw ++ ':' :: more) = (raw.map Char.toLower, more) := by
  have hcolon : ':' ∉ raw := fun hmem => absurd (h.chars ':' hmem) (by decide)
  rw [splitScheme, Text.cut_append ':' raw more hcolon, if_pos]
  refine ⟨by simp, ?_, List.all_eq_true.mpr h.chars⟩
  rw [h.head?]
  exact h.letter

theorem splitNetloc_spec (more : Text) (h : (splitNetloc more).1 ≠ []) :
    more = "//".toList ++ ((splitNetloc more).1 ++ (splitNetloc more).2) ∧
      (∀ c ∈ (splitNetloc more).1, endsNetloc c = false) ∧
      ∀ c ∈ (splitNetloc more).2.head?, endsNetloc c = true := by
  unfold splitNetloc at h ⊢
  split
  · rename_i tail
    refine ⟨?_, fun c hc => ?_, fun c hc => ?_⟩
    · rw [List.takeWhile_append_dropWhile]
      rfl
    · simpa using List.mem_takeWhile_imp hc
    · have hhead := List.head?_dropWhile_not (fun c => !endsNetloc c) tail
      rw [Option.mem_def.mp hc] at hhead
      simpa using hhead
  · rename_i hno
    split at h
    · exact absurd rfl (hno _)
    · exact absurd rfl h

theorem splitNetloc_append (netloc : Text) (h : ∀ c ∈ netloc, endsNetloc c = false) :
    splitNetloc ("//".toList ++ netloc) = (netloc, []) := by
  have hall : ∀ c ∈ netloc, (!endsNetloc c) = true := fun c hc => by simp [h c hc]
  change (netloc.takeWhile _, netloc.dropWhile _) = (netloc, [])
  rw [List.takeWhile_eq_self_iff.mpr hall, List.dropWhile_eq_nil_iff.mpr hall]

/-- How a text is written whose scheme and network location are read. -/
theorem urlsplit_spec (refused : Text → Bool) (url : Text) (parts : Split)
    (h : urlsplit refused url = some parts) (hscheme : parts.scheme ≠ [])
    (hnetloc : parts.netloc ≠ []) :
    ∃ raw, IsScheme raw ∧ parts.scheme = raw.map Char.toLower ∧
      stripped url = raw ++ ':' :: ("//".toList ++ (parts.netloc ++ parts.rest)) ∧
      (∀ c ∈ parts.netloc, endsNetloc c = false) ∧
      ∀ c ∈ parts.rest.head?, endsNetloc c = true := by
  simp only [urlsplit] at h
  split at h
  · cases h
  · obtain rfl := Option.some.inj h
    obtain ⟨raw, hraw, hurl, hlower⟩ := splitScheme_spec (stripped url) hscheme
    obtain ⟨hmore, hplain, hends⟩ := splitNetloc_spec _ hnetloc
    exact ⟨raw, hraw, hlower, hurl.trans (by rw [← hmore]), hplain, hends⟩

theorem stripped_eq_self (url : Text) (h : ∀ c ∈ url, control c = false) : stripped url = url := by
  have hdrop : url.dropWhile control = url := by
    cases url with
    | nil => rfl
    | cons c rest => exact List.dropWhile_cons_of_neg (by simp [h c (by simp)])
  rw [stripped, hdrop, BrowserUrl.filter_visible url h]

theorem urlsplit_append (refused : Text → Bool) (raw netloc : Text) (parts : Split)
    (hraw : IsScheme raw) (hnetloc : ∀ c ∈ netloc, endsNetloc c = false)
    (hurl : ∀ c ∈ raw ++ ':' :: ("//".toList ++ netloc), control c = false)
    (h : urlsplit refused (raw ++ ':' :: ("//".toList ++ netloc)) = some parts) :
    parts = ⟨raw.map Char.toLower, netloc, []⟩ := by
  simp only [urlsplit, stripped_eq_self _ hurl, splitScheme_append raw _ hraw,
    splitNetloc_append netloc hnetloc] at h
  split at h
  · cases h
  · exact (Option.some.inj h).symm

end Hyproxy.PyUrl

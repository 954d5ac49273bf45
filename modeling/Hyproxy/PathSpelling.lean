import Hyproxy.PolicyEngine
import Hyproxy.RequestTarget
import Hyproxy.Utf8Texts

/-!
The policy engine compares the path of a request as text, while a backend
decodes and normalises it. Two targets are spellings of one path when they agree
after decoding the unreserved characters and removing the dot segments. The
main result says for which rules the decision cannot tell spellings apart: those
where every rule that can fire fires at every path. A client may put any number of
dot segments in front of a path, and on a path that is longer than every rule's
the engine sees nothing else.
-/
namespace Hyproxy.PathSpelling

open AuthzCheck (utf8)
open DotSegments PercentCoding PolicyEngine RequestTarget

/-- Percent-decoding of unreserved characters; every other triple stays. -/
def decodeUnreserved : List Char → List Char
  | c :: a :: b :: tail =>
    match c == '%', hexValue a, hexValue b with
    | true, some hi, some lo =>
      if unreserved (Char.ofNat (16 * hi + lo)) then
        Char.ofNat (16 * hi + lo) :: decodeUnreserved tail
      else c :: decodeUnreserved (a :: b :: tail)
    | _, _, _ => c :: decodeUnreserved (a :: b :: tail)
  | short => short

def normalForm (path : List Char) : List Char := removeDotSegments (decodeUnreserved path)

theorem decodeUnreserved_plain (c : Char) (rest : List Char) (hc : c ≠ '%') :
    decodeUnreserved (c :: rest) = c :: decodeUnreserved rest := by
  rcases rest with _ | ⟨a, _ | ⟨b, tail⟩⟩
  · rfl
  · rfl
  · rw [decodeUnreserved]
    simp [hc]

/-- The path after this many dots, each with its slash. -/
def dotted : ℕ → List Char → List Char
  | 0, x => x
  | n + 1, x => '.' :: '/' :: dotted n x

theorem dotted_append (n : ℕ) (x : List Char) : dotted n x = dotted n [] ++ x := by
  induction n with
  | zero => rfl
  | succ n ih => rw [dotted, dotted, ih, List.cons_append, List.cons_append]

theorem length_dotted (n : ℕ) (x : List Char) : (dotted n x).length = 2 * n + x.length := by
  induction n with
  | zero => rw [dotted, Nat.mul_zero, Nat.zero_add]
  | succ n ih =>
    rw [dotted, List.length_cons, List.length_cons, ih]
    omega

theorem normalForm_dotted (n : ℕ) (x : List Char) : normalForm (dotted n x) = normalForm x := by
  induction n with
  | zero => rfl
  | succ n ih =>
    rw [dotted, normalForm, decodeUnreserved_plain '.' _ (by decide),
      decodeUnreserved_plain '/' _ (by decide), removeDotSegments_dot]
    exact ih

theorem utf8_ascii (c : Char) (rest : List Char) (hc : c.toNat < 0x80) :
    utf8 (c :: rest) = c :: utf8 rest := by
  rw [Utf8Texts.utf8_cons]
  rcases Utf8Texts.utf8_cases c with ⟨-, hbytes⟩ | ⟨hlow, -⟩ | ⟨hlow, -⟩ | ⟨hlow, -⟩
  · rw [hbytes, List.singleton_append]
  all_goals omega

theorem utf8_dotted (n : ℕ) (x : List Char) : utf8 (dotted n x) = dotted n (utf8 x) := by
  induction n with
  | zero => rfl
  | succ n ih => rw [dotted, utf8_ascii '.' _ (by decide), utf8_ascii '/' _ (by decide), ih, dotted]

theorem utf8_of_ascii (x : List Char) (hx : Utf8.Ascii x) : utf8 x = x := by
  induction x with
  | nil => rfl
  | cons c rest ih =>
    rw [utf8_ascii c rest (hx c (List.mem_cons_self ..)),
      ih fun d hd => hx d (List.mem_cons_of_mem _ hd)]

/-- The bytes of a text are its ASCII characters and bytes above them. -/
theorem mem_utf8 (x : List Char) (b : Char) (hb : b ∈ utf8 x) :
    IsByte b ∧ (b.toNat < 0x80 → b ∈ x) := by
  induction x with
  | nil => cases hb
  | cons c rest ih =>
    rw [Utf8Texts.utf8_cons, List.mem_append] at hb
    rcases hb with hb | hb
    · have hmax : c.toNat < 0x110000 := by
        have hvalid := Utf8Texts.char_valid c
        omega
      have hhigh : ∀ n, 0x80 ≤ n → n < 256 →
          IsByte (Char.ofNat n) ∧ ((Char.ofNat n).toNat < 0x80 → Char.ofNat n ∈ c :: rest) := by
        intro n hlow hbyte
        rw [IsByte, Utf8Texts.byte_toNat n hbyte]
        exact ⟨hbyte, fun h => absurd h (by omega)⟩
      rcases Utf8Texts.utf8_cases c with ⟨hlow, hbytes⟩ | ⟨hlow, hup, hbytes⟩ |
        ⟨hlow, hup, hbytes⟩ | ⟨hlow, hbytes⟩
      · rw [hbytes, List.mem_singleton] at hb
        rw [hb, IsByte]
        exact ⟨by omega, fun _ => List.mem_cons_self ..⟩
      all_goals
        rw [hbytes] at hb
        simp only [List.mem_cons, List.not_mem_nil, or_false] at hb
      · rcases hb with rfl | rfl <;> exact hhigh _ (by omega) (by omega)
      · rcases hb with rfl | rfl | rfl <;> exact hhigh _ (by omega) (by omega)
      · rcases hb with rfl | rfl | rfl | rfl <;> exact hhigh _ (by omega) (by omega)
    · obtain ⟨hbyte, hmem⟩ := ih hb
      exact ⟨hbyte, fun hlow => List.mem_cons_of_mem _ (hmem hlow)⟩

/-- The characters of a path under check. -/
theorem asked_chars (x : List Char) (hx : Asked x) (c : Char) (hc : c ∈ x) :
    0x20 < c.toNat ∧ c.toNat ≠ 0x7f ∧ c ≠ '?' := by
  rcases hx with ⟨-, hwell⟩ | hrootless
  · have hvalid : validPathChar c = true := List.all_eq_true.mp hwell.1 c hc
    obtain ⟨-, hprint, hquestion⟩ := validPathChar_plain c hvalid
    have hspace : c.toNat ≠ 0x20 := by
      intro heq
      have hchar : c = ' ' := Char.toNat_inj.mp heq
      rw [hchar] at hvalid
      exact absurd hvalid (by decide)
    exact ⟨by omega, by omega, hquestion⟩
  · exact hrootless.chars c hc

theorem utf8_chars (x : List Char) (hx : Asked x) (b : Char) (hb : b ∈ utf8 x) :
    0x20 < b.toNat ∧ b.toNat ≠ 0x7f ∧ b ≠ '?' := by
  obtain ⟨-, hmem⟩ := mem_utf8 x b hb
  by_cases hlow : b.toNat < 0x80
  · exact asked_chars x hx b (hmem hlow)
  · refine ⟨by omega, by omega, ?_⟩
    intro heq
    rw [heq] at hlow
    exact hlow (by decide)

/-- A target for such a path. -/
def targetOf (x : List Char) (hx : Asked x) : Target :=
  Target.ofBytes (utf8 x) (fun b hb => (mem_utf8 x b hb).1) (utf8_chars x hx)

theorem asked_targetOf (x : List Char) (hx : Asked x) :
    ∃ u, (targetOf x hx).url = some u ∧ u.asked = x := by
  have hraw : (targetOf x hx).rawPath = utf8 x := rfl
  rcases id hx with ⟨hroot, hwell⟩ | hrootless
  · have hplain := utf8_of_ascii x (ascii_of_wellEscaped x hwell)
    rw [hplain] at hraw
    obtain ⟨u, hu, hasked⟩ := asked_ofBytes_rooted (targetOf x hx) (by rw [hraw]; exact hroot)
      (by rw [hraw]; exact hwell)
    exact ⟨u, hu, hasked.trans hraw⟩
  · obtain ⟨c, rest, hcons⟩ := List.exists_cons_of_ne_nil hrootless.nonempty
    have hne : utf8 x ≠ [] := by
      intro hnil
      have hback := Utf8Texts.decode_utf8 false x
      rw [hnil] at hback
      exact hrootless.nonempty hback.symm
    have hroot : ¬ Rooted (utf8 x) := by
      rintro ⟨tail, htail⟩
      have hback := Utf8Texts.decode_utf8 false x
      rw [htail, ← List.nil_append ('/' :: tail), Utf8.decode_append false [] tail '/' (by decide)]
        at hback
      exact hrootless.rootless ⟨_, hback.symm⟩
    obtain ⟨u, hu, hasked⟩ := asked_ofBytes_rootless (targetOf x hx)
      (List.cons_ne_nil _ _) (by rw [hraw]; exact hne) (by rw [hraw]; exact hroot)
    refine ⟨u, hu, ?_⟩
    rw [hasked, hraw, Utf8Texts.decode_utf8]

theorem asked_dotted (n : ℕ) (x : List Char) (hx : Asked x) : Asked (dotted (n + 1) x) := by
  refine Or.inr ⟨by simp [dotted], ?_, fun c hc => ?_⟩
  · rintro ⟨rest, heq⟩
    exact absurd (List.cons.inj heq).1 (by decide)
  · have hmem : ∀ m, c ∈ dotted m x → c = '.' ∨ c = '/' ∨ c ∈ x := by
      intro m
      induction m with
      | zero => exact fun h => Or.inr (Or.inr h)
      | succ m ih =>
        intro h
        rw [dotted, List.mem_cons, List.mem_cons] at h
        rcases h with h | h | h
        · exact Or.inl h
        · exact Or.inr (Or.inl h)
        · exact ih h
    rcases hmem (n + 1) hc with rfl | rfl | h
    · decide
    · decide
    · exact asked_chars x hx c h

/-- The path condition holds everywhere: none is set, or one allowed path is the slash. -/
def Unscoped (allowedPaths : Option (List (List Char))) : Prop :=
  ∀ allowed ∈ allowedPaths, "/".toList ∈ allowed

/-- Some path a client can ask for meets the condition through this allowed path. -/
def Reachable (allowedPaths : Option (List (List Char))) : Prop :=
  ∃ allowed ∈ allowedPaths, ∃ a ∈ allowed, rstripSlash a = [] ∨ Asked (rstripSlash a)

theorem pathsMatch_of_unscoped (allowedPaths : Option (List (List Char))) (x : List Char)
    (h : Unscoped allowedPaths) : pathsMatch allowedPaths x = true := by
  cases allowedPaths with
  | none => rfl
  | some allowed => exact List.any_eq_true.mpr ⟨_, h allowed rfl, by simp [pathAllowed]⟩

theorem asked_slash (b : List Char) (hb : Asked b) : Asked (b ++ "/".toList) := by
  rcases hb with ⟨⟨rest, rfl⟩, hvalid, hescaped⟩ | hrootless
  · obtain ⟨out, hout⟩ := Option.isSome_iff_exists.mp hescaped
    refine Or.inl ⟨⟨rest ++ "/".toList, rfl⟩, ?_, ?_⟩
    · exact (validEncoded_append _ _).mpr ⟨hvalid, by decide⟩
    · rw [unescape_append _ _ out hout, Option.isSome_map]
      decide
  · refine Or.inr ⟨by simp, ?_, fun c hc => ?_⟩
    · rintro ⟨rest, heq⟩
      obtain ⟨c, tail, rfl⟩ := List.exists_cons_of_ne_nil hrootless.nonempty
      exact hrootless.rootless ⟨tail, by rw [(List.cons.inj heq).1]⟩
    · rcases List.mem_append.mp hc with hc | hc
      · exact hrootless.chars c hc
      · rw [List.mem_singleton.mp hc]
        decide

theorem pathsMatch_of_reachable (allowedPaths : Option (List (List Char)))
    (h : Reachable allowedPaths) : ∃ x, Asked x ∧ pathsMatch allowedPaths x = true := by
  obtain ⟨allowed, hsome, a, ha, hstrip⟩ := h
  obtain rfl : allowedPaths = some allowed := hsome
  refine ⟨rstripSlash a ++ "/".toList, ?_, List.any_eq_true.mpr ⟨a, ha, by simp [pathAllowed]⟩⟩
  rcases hstrip with hstrip | hasked
  · rw [hstrip]
    exact Or.inl ⟨⟨[], rfl⟩, by decide, by decide⟩
  · exact asked_slash _ hasked

theorem pathAllowed_split (a x : List Char) (ha : a ≠ "/".toList) (h : pathAllowed a x = true) :
    ∃ tail, x = rstripSlash a ++ tail ∧ (tail = [] ∨ ∃ more, tail = '/' :: more) := by
  simp only [pathAllowed, Bool.or_eq_true, beq_iff_eq, List.isPrefixOf_iff_prefix] at h
  rcases h with (rfl | ⟨more, hmore⟩) | hslash
  · refine ⟨x.rtakeWhile (· = '/'), List.rdropWhile_append_rtakeWhile.symm, ?_⟩
    cases hcut : x.rtakeWhile (· = '/') with
    | nil => exact Or.inl rfl
    | cons c more =>
      have hc : c ∈ x.rtakeWhile (· = '/') := by rw [hcut]; simp
      have hslash : c = '/' := by simpa using List.mem_rtakeWhile_imp hc
      exact Or.inr ⟨more, by rw [hslash]⟩
  · exact ⟨'/' :: more, by rw [← hmore]; simp, Or.inr ⟨more, rfl⟩⟩
  · exact absurd hslash ha

/-- What stands before a slash in a path under check could be asked about itself. -/
theorem asked_of_split (b tail : List Char) (hne : b ≠ []) (hx : Asked (b ++ tail))
    (htail : tail = [] ∨ ∃ more, tail = '/' :: more) : Asked b := by
  obtain ⟨c, r, hcons⟩ := List.exists_cons_of_ne_nil hne
  rcases hx with ⟨⟨rest, hrest⟩, hvalid, hescaped⟩ | hrootless
  · refine Or.inl ⟨⟨r, ?_⟩, ((validEncoded_append _ tail).mp hvalid).1, ?_⟩
    · rw [hcons, List.cons_append] at hrest
      rw [hcons, (List.cons.inj hrest).1]
    · rcases htail with rfl | ⟨more, rfl⟩
      · rwa [List.append_nil] at hescaped
      · exact unescape_isSome_of_append b '/' more (by decide) hescaped
  · refine Or.inr ⟨hne, ?_, fun d hd => hrootless.chars d (List.mem_append_left _ hd)⟩
    rintro ⟨rest, hrest⟩
    exact hrootless.rootless ⟨rest ++ tail, by rw [hrest, List.cons_append]⟩

/-- A rule that matches a path a client can ask for is unscoped or reachable. -/
theorem unscoped_or_reachable (allowedPaths : Option (List (List Char))) (x : List Char)
    (hx : Asked x) (hmatch : pathsMatch allowedPaths x = true) :
    Unscoped allowedPaths ∨ Reachable allowedPaths := by
  cases allowedPaths with
  | none => exact Or.inl (fun allowed h => by cases h)
  | some allowed =>
    obtain ⟨a, ha, hpath⟩ := List.any_eq_true.mp hmatch
    by_cases hslash : a = "/".toList
    · exact Or.inl (fun l hl => by cases hl; exact hslash ▸ ha)
    · obtain ⟨tail, heq, htail⟩ := pathAllowed_split a x hslash hpath
      refine Or.inr ⟨allowed, rfl, a, ha, ?_⟩
      by_cases hstrip : rstripSlash a = []
      · exact Or.inl hstrip
      · exact Or.inr (asked_of_split _ tail hstrip (heq ▸ hx) htail)

variable {Role Resource : Type}

/-- At least the length of every allowed path of the rules. -/
def junkLength (rules : List (PolicyRule Role Resource)) : ℕ :=
  (rules.flatMap (fun r => r.allowedPaths.getD [])).flatten.length

theorem length_le_junkLength (rules : List (PolicyRule Role Resource))
    (r : PolicyRule Role Resource) (hr : r ∈ rules) (allowed : List (List Char))
    (hallowed : r.allowedPaths = some allowed) (a : List Char) (ha : a ∈ allowed) :
    a.length ≤ junkLength rules := by
  refine (List.sublist_flatten_of_mem ?_).length_le
  exact List.mem_flatMap.mpr ⟨r, hr, by rw [hallowed]; exact ha⟩

/-- An allowed path that is not longer than the dots sees only them. -/
theorem pathAllowed_dotted (a x : List Char) (n : ℕ) (hlen : a.length ≤ n) :
    pathAllowed a (dotted (n + 1) x) = pathAllowed a (dotted (n + 1) []) := by
  have hlong : ∀ y, ¬ dotted (n + 1) y = a := by
    intro y heq
    have hlength := length_dotted (n + 1) y
    rw [heq] at hlength
    omega
  have hshort : (rstripSlash a ++ "/".toList).length ≤ (dotted (n + 1) []).length := by
    have hle : (rstripSlash a).length ≤ a.length := (List.rdropWhile_prefix _ a).length_le
    have hone : "/".toList.length = 1 := rfl
    rw [length_dotted, List.length_append, hone, List.length_nil]
    omega
  have hprefix : rstripSlash a ++ "/".toList <+: dotted (n + 1) x ↔
      rstripSlash a ++ "/".toList <+: dotted (n + 1) [] := by
    rw [dotted_append (n + 1) x]
    refine ⟨fun h => ?_, fun h => h.trans (List.prefix_append _ x)⟩
    exact List.prefix_of_prefix_length_le h (List.prefix_append _ x) hshort
  rw [Bool.eq_iff_iff]
  simp only [pathAllowed, Bool.or_eq_true, beq_iff_eq, List.isPrefixOf_iff_prefix, hlong, hprefix]

theorem fires_dotted (rules : List (PolicyRule Role Resource)) (s : Subject Role Resource)
    (action : Action) (x : List Char) :
    Fires rules s (dotted (junkLength rules + 1) x) action ↔
      Fires rules s (dotted (junkLength rules + 1) []) action := by
  have hmatch : ∀ r ∈ rules, pathsMatch r.allowedPaths (dotted (junkLength rules + 1) x) =
      pathsMatch r.allowedPaths (dotted (junkLength rules + 1) []) := by
    intro r hr
    cases hallowed : r.allowedPaths with
    | none => rfl
    | some allowed =>
      rw [Bool.eq_iff_iff]
      simp only [pathsMatch, List.any_eq_true]
      refine exists_congr fun a => and_congr_right fun ha => ?_
      rw [pathAllowed_dotted a x _ (length_le_junkLength rules r hr allowed hallowed a ha)]
  refine exists_congr fun r => and_congr_right fun hr => ?_
  rw [hmatch r hr]

/-- A path that no allowed path but the slash matches. -/
def junk (n : ℕ) : List Char := List.replicate (n + 1) 'a'

theorem asked_junk (n : ℕ) : Asked (junk n) := by
  refine Or.inr ⟨by simp [junk], ?_, fun c hc => ?_⟩
  · rintro ⟨rest, heq⟩
    rw [junk, List.replicate_succ] at heq
    exact absurd (List.cons.inj heq).1 (by decide)
  · rw [List.eq_of_mem_replicate hc]
    decide

theorem pathAllowed_junk (a : List Char) (n : ℕ) (hlen : a.length ≤ n)
    (h : pathAllowed a (junk n) = true) : a = "/".toList := by
  simp only [pathAllowed, Bool.or_eq_true, beq_iff_eq, List.isPrefixOf_iff_prefix] at h
  rcases h with (h | h) | h
  · have hlength : (junk n).length = a.length := congrArg List.length h
    rw [junk, List.length_replicate] at hlength
    omega
  · have hslash : '/' ∈ junk n := h.subset (List.mem_append_right _ (List.mem_cons_self ..))
    exact absurd (List.eq_of_mem_replicate hslash) (by decide)
  · exact h

/-- An active rule with this action fires at every path. -/
def Blanket (rules : List (PolicyRule Role Resource)) (s : Subject Role Resource)
    (action : Action) : Prop :=
  ∃ r ∈ rules, r.action = action ∧ Active r s ∧ Unscoped r.allowedPaths

/-- An active rule with this action fires at some path that names it. -/
def Scoped (rules : List (PolicyRule Role Resource)) (s : Subject Role Resource)
    (action : Action) : Prop :=
  ∃ r ∈ rules, r.action = action ∧ Active r s ∧ Reachable r.allowedPaths

theorem fires_of_blanket (rules : List (PolicyRule Role Resource)) (s : Subject Role Resource)
    (action : Action) (x : List Char) (h : Blanket rules s action) : Fires rules s x action := by
  obtain ⟨r, hr, hact, hactive, hun⟩ := h
  exact ⟨r, hr, hact, hactive, pathsMatch_of_unscoped _ x hun⟩

theorem blanket_or_scoped_of_fires (rules : List (PolicyRule Role Resource))
    (s : Subject Role Resource) (action : Action) (x : List Char) (hx : Asked x)
    (h : Fires rules s x action) : Blanket rules s action ∨ Scoped rules s action := by
  obtain ⟨r, hr, hact, hactive, hmatch⟩ := h
  rcases unscoped_or_reachable _ x hx hmatch with hun | hreach
  · exact Or.inl ⟨r, hr, hact, hactive, hun⟩
  · exact Or.inr ⟨r, hr, hact, hactive, hreach⟩

theorem fires_iff_blanket (rules : List (PolicyRule Role Resource)) (s : Subject Role Resource)
    (action : Action) (x : List Char) (hx : Asked x) (hscoped : ¬ Scoped rules s action) :
    Fires rules s x action ↔ Blanket rules s action :=
  ⟨fun h => (blanket_or_scoped_of_fires rules s action x hx h).resolve_right hscoped,
    fires_of_blanket rules s action x⟩

theorem fires_junk_iff (rules : List (PolicyRule Role Resource)) (s : Subject Role Resource)
    (action : Action) :
    Fires rules s (junk (junkLength rules)) action ↔ Blanket rules s action := by
  refine ⟨?_, fires_of_blanket rules s action _⟩
  rintro ⟨r, hr, hact, hactive, hmatch⟩
  refine ⟨r, hr, hact, hactive, fun allowed hallowed => ?_⟩
  rw [hallowed] at hmatch
  obtain ⟨a, ha, hpath⟩ := List.any_eq_true.mp hmatch
  exact pathAllowed_junk a _ (length_le_junkLength rules r hr allowed hallowed a ha) hpath ▸ ha

theorem exists_fires_of_scoped (rules : List (PolicyRule Role Resource))
    (s : Subject Role Resource) (action : Action) (h : Scoped rules s action) :
    ∃ x, Asked x ∧ Fires rules s x action := by
  obtain ⟨r, hr, hact, hactive, hreach⟩ := h
  obtain ⟨x, hx, hmatch⟩ := pathsMatch_of_reachable _ hreach
  exact ⟨x, hx, r, hr, hact, hactive, hmatch⟩

/-- What `f` reads off the path under check is the same for any two targets that
spell one path. -/
def SpellingFree {α : Type} (f : List Char → α) : Prop :=
  ∀ (t₁ t₂ : Target) (u₁ u₂ : Url), t₁.url = some u₁ → t₂.url = some u₂ →
    normalForm t₁.rawPath = normalForm t₂.rawPath → f u₁.asked = f u₂.asked

theorem dotted_of_spellingFree {α : Type} (f : List Char → α) (h : SpellingFree f) (n : ℕ)
    (x : List Char) (hx : Asked x) : f x = f (dotted (n + 1) x) := by
  have hx' := asked_dotted n x hx
  obtain ⟨u₁, hu₁, hasked₁⟩ := asked_targetOf x hx
  obtain ⟨u₂, hu₂, hasked₂⟩ := asked_targetOf _ hx'
  have hform : normalForm (targetOf x hx).rawPath =
      normalForm (targetOf _ hx').rawPath := by
    show normalForm (utf8 x) = normalForm (utf8 (dotted (n + 1) x))
    rw [utf8_dotted, normalForm_dotted]
  have hequal := h _ _ u₁ u₂ hu₁ hu₂ hform
  rwa [hasked₁, hasked₂] at hequal

variable [DecidableEq Role] [DecidableEq Resource]

/-- What is read off the decision is independent of the spelling only when it is the same for
every path. -/
theorem spellingFree_iff {α : Type} (g : Decision → α) (rules : List (PolicyRule Role Resource))
    (s : Subject Role Resource) :
    SpellingFree (fun x => g (evaluate rules s x)) ↔
      ∀ x y, Asked x → Asked y → g (evaluate rules s x) = g (evaluate rules s y) := by
  constructor
  · intro hfree x y hx hy
    have hdots : ∀ z, evaluate rules s (dotted (junkLength rules + 1) z) =
        evaluate rules s (dotted (junkLength rules + 1) []) := fun z =>
      evaluate_congr rules s _ _ (fires_dotted rules s .deny z)
        fun _ => fires_dotted rules s .allow z
    have hx' := dotted_of_spellingFree _ hfree (junkLength rules) x hx
    have hy' := dotted_of_spellingFree _ hfree (junkLength rules) y hy
    simp only [hdots] at hx' hy'
    exact hx'.trans hy'.symm
  · intro h t₁ t₂ u₁ u₂ hu₁ hu₂ _
    exact h _ _ (asked_of_url t₁ u₁ hu₁) (asked_of_url t₂ u₂ hu₂)

theorem evaluate_eq_of_blanket (rules : List (PolicyRule Role Resource))
    (s : Subject Role Resource)
    (hrules : Blanket rules s .deny ∨ (¬ Scoped rules s .deny ∧
      (Blanket rules s .allow ∨ ¬ Scoped rules s .allow)))
    (x₁ x₂ : List Char) (hx₁ : Asked x₁) (hx₂ : Asked x₂) :
    evaluate rules s x₁ = evaluate rules s x₂ := by
  rcases hrules with hdeny | ⟨hdeny, hallow⟩
  · have h₁ := fires_of_blanket rules s .deny x₁ hdeny
    have h₂ := fires_of_blanket rules s .deny x₂ hdeny
    exact evaluate_congr rules s x₁ x₂ (iff_of_true h₁ h₂) (fun h => absurd h₂ h)
  · refine evaluate_congr rules s x₁ x₂ ?_ (fun _ => ?_)
    · rw [fires_iff_blanket rules s .deny x₁ hx₁ hdeny,
        fires_iff_blanket rules s .deny x₂ hx₂ hdeny]
    · rcases hallow with hallow | hallow
      · exact iff_of_true (fires_of_blanket rules s .allow x₁ hallow)
          (fires_of_blanket rules s .allow x₂ hallow)
      · rw [fires_iff_blanket rules s .allow x₁ hx₁ hallow,
          fires_iff_blanket rules s .allow x₂ hx₂ hallow]

/-- The decision with its reason is independent of the spelling exactly when a
blanket deny decides everything, or no deny is scoped and either a blanket allow
decides the rest or no allow is scoped. -/
theorem evaluate_spellingFree_iff (rules : List (PolicyRule Role Resource))
    (s : Subject Role Resource) :
    SpellingFree (evaluate rules s) ↔
      Blanket rules s .deny ∨ (¬ Scoped rules s .deny ∧
        (Blanket rules s .allow ∨ ¬ Scoped rules s .allow)) := by
  refine (spellingFree_iff id rules s).trans ⟨fun hsame => ?_, evaluate_eq_of_blanket rules s⟩
  have hjunk : ∀ x, Asked x →
      evaluate rules s x = evaluate rules s (junk (junkLength rules)) :=
    fun x hx => hsame x _ hx (asked_junk _)
  by_cases hblanket : Blanket rules s .deny
  · exact Or.inl hblanket
  · have hscoped : ¬ Scoped rules s .deny := by
      intro hscoped
      obtain ⟨x, hx, hfires⟩ := exists_fires_of_scoped rules s .deny hscoped
      have hdenied := hjunk x hx
      rw [(evaluate_eq_explicitDeny_iff rules s x).mpr hfires] at hdenied
      exact hblanket ((fires_junk_iff rules s .deny).mp
        ((evaluate_eq_explicitDeny_iff rules s _).mp hdenied.symm))
    refine Or.inr ⟨hscoped, ?_⟩
    by_cases hallow : Scoped rules s .allow
    · obtain ⟨x, hx, hfires⟩ := exists_fires_of_scoped rules s .allow hallow
      have hdeny : ¬ Fires rules s x .deny :=
        mt (fires_iff_blanket rules s .deny x hx hscoped).mp hblanket
      have hallowed := hjunk x hx
      rw [(evaluate_eq_allow_iff rules s x).mpr ⟨hdeny, hfires⟩] at hallowed
      exact Or.inl ((fires_junk_iff rules s .allow).mp
        ((evaluate_eq_allow_iff rules s _).mp hallowed.symm).2)
    · exact Or.inr hallow

theorem allowed_iff (rules : List (PolicyRule Role Resource)) (s : Subject Role Resource)
    (x : List Char) :
    (evaluate rules s x).allowed = true ↔
      ¬ Fires rules s x .deny ∧ Fires rules s x .allow := by
  rcases evaluate_cases rules s x with ⟨h, he⟩ | ⟨h, h', he⟩ | ⟨h, h', he⟩ <;> simp [*]

/-- The verdict alone is independent of the spelling exactly when every path that an
allow matches is denied, or a blanket allow stands and no deny can fire. -/
theorem allowed_spellingFree_iff (rules : List (PolicyRule Role Resource))
    (s : Subject Role Resource) :
    SpellingFree (fun x => (evaluate rules s x).allowed) ↔
      (∀ x, Asked x → Fires rules s x .allow → Fires rules s x .deny) ∨
      (Blanket rules s .allow ∧ ¬ Blanket rules s .deny ∧ ¬ Scoped rules s .deny) := by
  refine (spellingFree_iff Decision.allowed rules s).trans ⟨fun hsame => ?_, ?_⟩
  · by_cases hnever : ∀ x, Asked x → Fires rules s x .allow → Fires rules s x .deny
    · exact Or.inl hnever
    · simp only [not_forall] at hnever
      obtain ⟨x, hx, hallow, hdeny⟩ := hnever
      have hall : ∀ y, Asked y → ¬ Fires rules s y .deny ∧ Fires rules s y .allow := by
        intro y hy
        rw [← allowed_iff, ← hsame x y hx hy, allowed_iff]
        exact ⟨hdeny, hallow⟩
      have hjunk := hall _ (asked_junk (junkLength rules))
      rw [fires_junk_iff, fires_junk_iff] at hjunk
      refine Or.inr ⟨hjunk.2, hjunk.1, fun hscoped => ?_⟩
      obtain ⟨y, hy, hfires⟩ := exists_fires_of_scoped rules s .deny hscoped
      exact (hall y hy).1 hfires
  · rintro (hnever | ⟨hallow, hdeny, hscoped⟩)
    · have hfalse : ∀ x, Asked x → (evaluate rules s x).allowed = false := by
        intro x hx
        rw [← Bool.not_eq_true, allowed_iff]
        exact fun ⟨hd, ha⟩ => hd (hnever x hx ha)
      intro x y hx hy
      rw [hfalse x hx, hfalse y hy]
    · have htrue : ∀ x, Asked x → (evaluate rules s x).allowed = true := by
        intro x hx
        rw [allowed_iff, fires_iff_blanket rules s .deny x hx hscoped]
        exact ⟨hdeny, fires_of_blanket rules s .allow x hallow⟩
      intro x y hx hy
      rw [htrue x hx, htrue y hy]

/-- For which rules the answer, with or without its reason, cannot be changed by
spelling the path in another way. -/
theorem decision_spellingFree_iff (rules : List (PolicyRule Role Resource))
    (s : Subject Role Resource) :
    (SpellingFree (evaluate rules s) ↔
      Blanket rules s .deny ∨ (¬ Scoped rules s .deny ∧
        (Blanket rules s .allow ∨ ¬ Scoped rules s .allow))) ∧
    (SpellingFree (fun x => (evaluate rules s x).allowed) ↔
      (∀ x, Asked x → Fires rules s x .allow → Fires rules s x .deny) ∨
      (Blanket rules s .allow ∧ ¬ Blanket rules s .deny ∧ ¬ Scoped rules s .deny)) :=
  ⟨evaluate_spellingFree_iff rules s, allowed_spellingFree_iff rules s⟩

/-- A deny on `/admin` beside an allow on everything: `/admin/x` is refused, and the
same path asked for as `/%61dmin/x` is allowed. -/
theorem admin_deny_respelled :
    ¬ ∀ (rules : List (PolicyRule ℕ ℕ)) (s : Subject ℕ ℕ),
      SpellingFree (fun x => (evaluate rules s x).allowed) := by
  intro h
  have hfree := h [⟨1, 1, .deny, none, some ["/admin".toList], [], true⟩,
    ⟨1, 1, .allow, none, none, [], true⟩] ⟨[1], 1, 443, 0⟩
  have hplain : Asked "/admin/x".toList := Or.inl ⟨⟨_, rfl⟩, by decide +kernel, by decide +kernel⟩
  have hcoded : Asked "/%61dmin/x".toList :=
    Or.inl ⟨⟨_, rfl⟩, by decide +kernel, by decide +kernel⟩
  obtain ⟨u₁, hu₁, hx₁⟩ := asked_targetOf _ hplain
  obtain ⟨u₂, hu₂, hx₂⟩ := asked_targetOf _ hcoded
  have hform : normalForm (targetOf _ hplain).rawPath =
      normalForm (targetOf _ hcoded).rawPath := by
    show normalForm (utf8 "/admin/x".toList) = normalForm (utf8 "/%61dmin/x".toList)
    decide +kernel
  have hequal := hfree _ _ u₁ u₂ hu₁ hu₂ hform
  rw [hx₁, hx₂] at hequal
  exact absurd hequal (by decide)

end Hyproxy.PathSpelling

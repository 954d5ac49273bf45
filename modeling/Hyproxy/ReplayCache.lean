import Mathlib.Data.Int.Notation
import Mathlib.Data.List.Induction
import Mathlib.Data.List.Nodup

/-!
A cache of keys seen, each kept until it expires and is collected. An item that
passes its other checks is accepted when its key is new to the cache. No key is
accepted twice exactly when no collection falls between two items of one key and
takes the row of the first.
-/

namespace Hyproxy.ReplayCache

open scoped List

variable {ι κ α : Type}

/-- A key is stored if it is new: `INSERT` with `ON CONFLICT DO NOTHING`. -/
def checkAndStore [DecidableEq κ] (seen : List (κ × ℤ)) (key : κ) (expiresAt : ℤ) :
    Bool × List (κ × ℤ) :=
  if key ∈ seen.map Prod.fst then (false, seen) else (true, (key, expiresAt) :: seen)

def gc (seen : List (κ × ℤ)) (now : ℤ) : List (κ × ℤ) :=
  seen.filter fun row => decide (now < row.2)

/-- What passes the checks on a request at a time, under which key it is stored, and until
when. -/
structure Protocol (ι κ α : Type) where
  check : ι → ℤ → Option α
  key : α → κ
  expiry : ℤ → ℤ

/-- The cache, and what has been accepted. -/
structure State (κ α : Type) where
  seen : List (κ × ℤ)
  accepted : List α
  deriving Repr, DecidableEq

inductive Event (ι : Type)
  | verify (i : ι) (now : ℤ)
  | gc (now : ℤ)
  deriving Repr, DecidableEq

def verify [DecidableEq κ] (P : Protocol ι κ α) (s : State κ α) (i : ι) (now : ℤ) : State κ α :=
  match P.check i now with
  | none => s
  | some a =>
    let (fresh, seen) := checkAndStore s.seen (P.key a) (P.expiry now)
    ⟨seen, if fresh then a :: s.accepted else s.accepted⟩

def step [DecidableEq κ] (P : Protocol ι κ α) (s : State κ α) : Event ι → State κ α
  | .verify i now => verify P s i now
  | .gc now => { s with seen := gc s.seen now }

def initial : State κ α := ⟨[], []⟩

def after [DecidableEq κ] (P : Protocol ι κ α) (events : List (Event ι)) : State κ α :=
  events.foldl (step P) initial

def Event.time? : Event ι → Option ℤ
  | .verify _ now => some now
  | .gc _ => none

/-- The requests read times that do not go back. A collection reads any time. -/
def Timely (events : List (Event ι)) : Prop := (events.filterMap Event.time?).Pairwise (· ≤ ·)

/-- An item of the key passes its other checks at the time. -/
def Presented (P : Protocol ι κ α) (events : List (Event ι)) (key : κ) (t : ℤ) : Prop :=
  ∃ i a, .verify i t ∈ events ∧ P.check i t = some a ∧ P.key a = key

/-- A collection reads a time at which the row that an item stores has expired. -/
def Lapsed (P : Protocol ι κ α) (events : List (Event ι)) (key : κ) : Prop :=
  ∃ i t a g, [.verify i t, .gc g] <+ events ∧ P.check i t = some a ∧ P.key a = key ∧
    P.expiry t ≤ g

/-- After such a collection another item of the key passes its other checks. -/
def Forgotten (P : Protocol ι κ α) (events : List (Event ι)) : Prop :=
  ∃ i t a g j u b, [.verify i t, .gc g, .verify j u] <+ events ∧ P.check i t = some a ∧
    P.check j u = some b ∧ P.key a = P.key b ∧ P.expiry t ≤ g

/-! ### A row until its item no longer passes -/

def later (clock now : ℤ) : ℤ := if clock ≤ now then now else clock

/-- A key is in the cache until its item no longer passes. -/
def Kept (seen : List (κ × ℤ)) (clock : ℤ) (key : κ) (last : ℤ) : Prop :=
  (∃ row ∈ seen, row.1 = key ∧ last < row.2) ∨ last < clock

theorem le_later (clock now : ℤ) : clock ≤ later clock now ∧ now ≤ later clock now := by
  unfold later
  split_ifs <;> omega

theorem kept_gc (seen : List (κ × ℤ)) (clock now last : ℤ) (key : κ)
    (h : Kept seen clock key last) : Kept (gc seen now) (later clock now) key last := by
  obtain ⟨hclock, hnow⟩ := le_later clock now
  rcases h with ⟨row, hrow, hkey, hlast⟩ | hpassed
  · by_cases hlive : now < row.2
    · exact Or.inl ⟨row, List.mem_filter.mpr ⟨hrow, decide_eq_true hlive⟩, hkey, hlast⟩
    · exact Or.inr (by omega)
  · exact Or.inr (by omega)

theorem kept_mono (seen seen' : List (κ × ℤ)) (clock clock' last : ℤ) (key : κ)
    (h : Kept seen clock key last) (hseen : ∀ row ∈ seen, row ∈ seen') (hclock : clock ≤ clock') :
    Kept seen' clock' key last := by
  rcases h with ⟨row, hrow, hkey, hlast⟩ | hpassed
  · exact Or.inl ⟨row, hseen row hrow, hkey, hlast⟩
  · exact Or.inr (by omega)

theorem mem_of_kept (seen : List (κ × ℤ)) (clock now last : ℤ) (key : κ)
    (h : Kept seen clock key last) (hclock : clock ≤ now) (hlast : now ≤ last) :
    key ∈ seen.map Prod.fst := by
  rcases h with ⟨row, hrow, hkey, _⟩ | hpassed
  · exact hkey ▸ List.mem_map_of_mem hrow
  · omega

/-! ### One event more -/

theorem snoc_sublist_snoc {β : Type} (l xs : List β) (x y : β) :
    l ++ [x] <+ xs ++ [y] ↔ l ++ [x] <+ xs ∨ x = y ∧ l <+ xs := by
  rw [← List.reverse_sublist, List.reverse_concat, List.reverse_concat, List.cons_sublist_cons',
    ← List.reverse_concat, List.reverse_sublist, List.reverse_sublist]

variable (P : Protocol ι κ α) (events : List (Event ι)) (key : κ)

theorem presented_gc (t g : ℤ) :
    Presented P (events ++ [.gc g]) key t ↔ Presented P events key t := by
  simp [Presented]

theorem presented_verify (t u : ℤ) (j : ι) :
    Presented P (events ++ [.verify j u]) key t ↔
      Presented P events key t ∨ t = u ∧ ∃ b, P.check j u = some b ∧ P.key b = key := by
  constructor
  · rintro ⟨i, a, hmem, hcheck, hkey⟩
    rcases List.mem_append.mp hmem with hmem | hmem
    · exact .inl ⟨i, a, hmem, hcheck, hkey⟩
    · cases List.mem_singleton.mp hmem
      exact .inr ⟨rfl, a, hcheck, hkey⟩
  · rintro (⟨i, a, hmem, hcheck, hkey⟩ | ⟨rfl, b, hcheck, hkey⟩)
    · exact ⟨i, a, List.mem_append_left _ hmem, hcheck, hkey⟩
    · exact ⟨j, b, List.mem_append_right _ (List.mem_singleton_self _), hcheck, hkey⟩

theorem presented_passed {j : ι} {u : ℤ} {b : α} (hcheck : P.check j u = some b) (t : ℤ) :
    Presented P (events ++ [.verify j u]) key t ↔
      Presented P events key t ∨ t = u ∧ key = P.key b := by
  rw [presented_verify, hcheck]
  constructor
  · rintro (ht | ⟨rfl, b', hb', rfl⟩)
    · exact .inl ht
    · obtain rfl := Option.some.inj hb'
      exact .inr ⟨rfl, rfl⟩
  · rintro (ht | ⟨rfl, rfl⟩)
    · exact .inl ht
    · exact .inr ⟨rfl, b, rfl, rfl⟩

theorem lapsed_verify (u : ℤ) (j : ι) :
    Lapsed P (events ++ [.verify j u]) key ↔ Lapsed P events key := by
  have hsub : ∀ i t g, [.verify i t, .gc g] <+ events ++ [Event.verify j u] ↔
      [.verify i t, .gc g] <+ events := by
    intro i t g
    simpa using snoc_sublist_snoc [.verify i t] events (.gc g) (Event.verify j u)
  simp only [Lapsed, hsub]

theorem lapsed_gc (g : ℤ) :
    Lapsed P (events ++ [.gc g]) key ↔
      Lapsed P events key ∨ ∃ t, Presented P events key t ∧ P.expiry t ≤ g := by
  have hsub : ∀ i t g', [.verify i t, .gc g'] <+ events ++ [Event.gc g] ↔
      [.verify i t, .gc g'] <+ events ∨ g' = g ∧ Event.verify i t ∈ events := by
    intro i t g'
    simpa using snoc_sublist_snoc [.verify i t] events (.gc g') (Event.gc g)
  constructor
  · rintro ⟨i, t, a, g', hrun, hcheck, hkey, hexpired⟩
    rcases (hsub i t g').mp hrun with hrun | ⟨rfl, hmem⟩
    · exact .inl ⟨i, t, a, g', hrun, hcheck, hkey, hexpired⟩
    · exact .inr ⟨t, ⟨i, a, hmem, hcheck, hkey⟩, hexpired⟩
  · rintro (⟨i, t, a, g', hrun, hcheck, hkey, hexpired⟩ | ⟨t, ⟨i, a, hmem, hcheck, hkey⟩, hexpired⟩)
    · exact ⟨i, t, a, g', (hsub i t g').mpr (.inl hrun), hcheck, hkey, hexpired⟩
    · exact ⟨i, t, a, g, (hsub i t g).mpr (.inr ⟨rfl, hmem⟩), hcheck, hkey, hexpired⟩

theorem forgotten_gc (g : ℤ) : Forgotten P (events ++ [.gc g]) ↔ Forgotten P events := by
  have hsub : ∀ i t g' j u, [.verify i t, .gc g', .verify j u] <+ events ++ [Event.gc g] ↔
      [.verify i t, .gc g', .verify j u] <+ events := by
    intro i t g' j u
    simpa using snoc_sublist_snoc [.verify i t, .gc g'] events (.verify j u) (Event.gc g)
  simp only [Forgotten, hsub]

theorem forgotten_verify (u : ℤ) (j : ι) :
    Forgotten P (events ++ [.verify j u]) ↔
      Forgotten P events ∨ ∃ b, P.check j u = some b ∧ Lapsed P events (P.key b) := by
  have hsub : ∀ i t g j' u', [.verify i t, .gc g, .verify j' u'] <+ events ++ [Event.verify j u] ↔
      [.verify i t, .gc g, .verify j' u'] <+ events ∨
        (j' = j ∧ u' = u) ∧ [.verify i t, .gc g] <+ events := by
    intro i t g j' u'
    simpa using snoc_sublist_snoc [.verify i t, .gc g] events (.verify j' u') (Event.verify j u)
  constructor
  · rintro ⟨i, t, a, g, j', u', b, hrun, hcheck, hagain, hkey, hexpired⟩
    rcases (hsub i t g j' u').mp hrun with hbefore | ⟨⟨rfl, rfl⟩, hbefore⟩
    · exact .inl ⟨i, t, a, g, j', u', b, hbefore, hcheck, hagain, hkey, hexpired⟩
    · exact .inr ⟨b, hagain, i, t, a, g, hbefore, hcheck, hkey, hexpired⟩
  · rintro (⟨i, t, a, g, j', u', b, hrun, hrest⟩ |
      ⟨b, hagain, i, t, a, g, hrun, hcheck, hkey, hexpired⟩)
    · exact ⟨i, t, a, g, j', u', b, (hsub i t g j' u').mpr (.inl hrun), hrest⟩
    · exact ⟨i, t, a, g, j, u, b, (hsub i t g j u).mpr (.inr ⟨⟨rfl, rfl⟩, hrun⟩), hcheck, hagain,
        hkey, hexpired⟩

theorem remembered_passed {j : ι} {u : ℤ} {b : α} (hcheck : P.check j u = some b)
    (h : ¬ Forgotten P events) (hkey : ¬ Lapsed P events (P.key b)) :
    ¬ Forgotten P (events ++ [.verify j u]) := by
  rw [forgotten_verify, hcheck]
  rintro (hf | ⟨b', hb', hlapsed⟩)
  · exact h hf
  · obtain rfl := Option.some.inj hb'
    exact hkey hlapsed

theorem timely_snoc (e : Event ι) : Timely (events ++ [e]) ↔
    Timely events ∧ ∀ u ∈ e.time?, ∀ t ∈ events.filterMap Event.time?, t ≤ u := by
  cases e <;> simp [Timely, Event.time?, List.filterMap_cons, List.pairwise_append]

theorem le_of_presented (t u : ℤ) (j : ι) (htimely : Timely (events ++ [.verify j u]))
    (h : Presented P events key t) : t ≤ u := by
  obtain ⟨i, a, hmem, -, -⟩ := h
  exact ((timely_snoc events _).mp htimely).2 u rfl t (List.mem_filterMap.mpr ⟨_, hmem, rfl⟩)

variable [DecidableEq κ]

theorem after_snoc (e : Event ι) : after P (events ++ [e]) = step P (after P events) e := by
  rw [after, List.foldl_append, List.foldl_cons, List.foldl_nil, ← after]

theorem after_none {j : ι} {u : ℤ} (hcheck : P.check j u = none) :
    after P (events ++ [.verify j u]) = after P events := by
  rw [after_snoc, step, verify, hcheck]

theorem after_seen {j : ι} {u : ℤ} {b : α} (hcheck : P.check j u = some b)
    (hseen : P.key b ∈ (after P events).seen.map Prod.fst) :
    after P (events ++ [.verify j u]) = after P events := by
  rw [after_snoc]
  simp [step, verify, hcheck, checkAndStore, hseen]

theorem after_new {j : ι} {u : ℤ} {b : α} (hcheck : P.check j u = some b)
    (hnew : P.key b ∉ (after P events).seen.map Prod.fst) :
    after P (events ++ [.verify j u]) =
      ⟨(P.key b, P.expiry u) :: (after P events).seen, b :: (after P events).accepted⟩ := by
  rw [after_snoc]
  simp only [step, verify, hcheck, checkAndStore, if_neg hnew, if_true]

/-! ### Runs -/

/-- A key that was presented is stored, or its row has lapsed; each row is of a presentation;
and the keys that were accepted are those that were presented. -/
structure Inv : Prop where
  stored : ∀ k t, Presented P events k t → k ∈ (after P events).seen.map Prod.fst ∨ Lapsed P events k
  rows : ∀ row ∈ (after P events).seen, ∃ t, Presented P events row.1 t ∧ row.2 = P.expiry t
  accepted : ∀ k, k ∈ (after P events).accepted.map P.key ↔ ∃ t, Presented P events k t

theorem inv_gc (g : ℤ) (h : Inv P events) : Inv P (events ++ [.gc g]) where
  stored k t ht := by
    rw [presented_gc] at ht
    rw [lapsed_gc, after_snoc]
    rcases h.stored k t ht with hseen | hlapsed
    · obtain ⟨row, hrow, rfl⟩ := List.mem_map.mp hseen
      obtain ⟨u, hu, hexpiry⟩ := h.rows row hrow
      by_cases hlive : g < row.2
      · exact .inl (List.mem_map_of_mem (List.mem_filter.mpr ⟨hrow, decide_eq_true hlive⟩))
      · exact .inr (.inr ⟨u, hu, by omega⟩)
    · exact .inr (.inl hlapsed)
  rows row hrow := by
    rw [after_snoc] at hrow
    obtain ⟨t, ht, hexpiry⟩ := h.rows row (List.mem_of_mem_filter hrow)
    exact ⟨t, (presented_gc P events _ t g).mpr ht, hexpiry⟩
  accepted k := by
    simp only [after_snoc, presented_gc]
    exact h.accepted k

theorem inv_seen {j : ι} {u : ℤ} {b : α} (hcheck : P.check j u = some b)
    (hseen : P.key b ∈ (after P events).seen.map Prod.fst) (h : Inv P events) :
    Inv P (events ++ [.verify j u]) := by
  have hafter := after_seen P events hcheck hseen
  have hpresented := fun k t => presented_passed P events k hcheck t
  refine ⟨fun k t ht => ?_, fun row hrow => ?_, fun k => ?_⟩
  · rw [hafter, lapsed_verify]
    rcases (hpresented k t).mp ht with ht | ⟨-, rfl⟩
    · exact h.stored k t ht
    · exact .inl hseen
  · rw [hafter] at hrow
    obtain ⟨t, ht, hexpiry⟩ := h.rows row hrow
    exact ⟨t, (hpresented _ t).mpr (.inl ht), hexpiry⟩
  · rw [hafter, h.accepted k]
    refine ⟨fun ⟨t, ht⟩ => ⟨t, (hpresented k t).mpr (.inl ht)⟩, fun ⟨t, ht⟩ => ?_⟩
    rcases (hpresented k t).mp ht with ht | ⟨-, rfl⟩
    · exact ⟨t, ht⟩
    · obtain ⟨row, hrow, hkey⟩ := List.mem_map.mp hseen
      obtain ⟨t', ht', -⟩ := h.rows row hrow
      exact ⟨t', hkey ▸ ht'⟩

theorem inv_new {j : ι} {u : ℤ} {b : α} (hcheck : P.check j u = some b)
    (hseen : P.key b ∉ (after P events).seen.map Prod.fst) (h : Inv P events) :
    Inv P (events ++ [.verify j u]) := by
  have hafter := after_new P events hcheck hseen
  have hpresented := fun k t => presented_passed P events k hcheck t
  have hnow : Presented P (events ++ [.verify j u]) (P.key b) u :=
    (hpresented _ u).mpr (.inr ⟨rfl, rfl⟩)
  refine ⟨fun k t ht => ?_, fun row hrow => ?_, fun k => ?_⟩
  · rw [hafter, lapsed_verify]
    rcases (hpresented k t).mp ht with ht | ⟨-, rfl⟩
    · exact (h.stored k t ht).imp_left (List.mem_cons_of_mem _)
    · exact .inl List.mem_cons_self
  · rw [hafter] at hrow
    rcases List.mem_cons.mp hrow with rfl | hrow
    · exact ⟨u, hnow, rfl⟩
    · obtain ⟨t, ht, hexpiry⟩ := h.rows row hrow
      exact ⟨t, (hpresented _ t).mpr (.inl ht), hexpiry⟩
  · rw [hafter, List.map_cons, List.mem_cons, h.accepted k]
    constructor
    · rintro (rfl | ⟨t, ht⟩)
      · exact ⟨u, hnow⟩
      · exact ⟨t, (hpresented k t).mpr (.inl ht)⟩
    · rintro ⟨t, ht⟩
      rcases (hpresented k t).mp ht with ht | ⟨-, hkey⟩
      · exact .inr ⟨t, ht⟩
      · exact .inl hkey

theorem inv_verify (j : ι) (u : ℤ) (h : Inv P events) : Inv P (events ++ [.verify j u]) := by
  cases hcheck : P.check j u with
  | none =>
    have hafter := after_none P events hcheck
    refine ⟨?_, ?_, ?_⟩ <;> simp only [hafter, presented_verify, lapsed_verify, hcheck,
      reduceCtorEq, false_and, exists_false, and_false, or_false]
    exacts [h.stored, h.rows, h.accepted]
  | some b =>
    by_cases hseen : P.key b ∈ (after P events).seen.map Prod.fst
    · exact inv_seen P events hcheck hseen h
    · exact inv_new P events hcheck hseen h

theorem inv_run : Inv P events := by
  induction events using List.reverseRecOn with
  | nil =>
    refine ⟨?_, ?_, ?_⟩ <;> simp [Presented, after, initial]
  | append_singleton events e ih =>
    cases e with
    | gc g => exact inv_gc P events g ih
    | verify j u => exact inv_verify P events j u ih

theorem nodup_of_not_forgotten (h : ¬ Forgotten P events) :
    ((after P events).accepted.map P.key).Nodup := by
  induction events using List.reverseRecOn with
  | nil => exact List.nodup_nil
  | append_singleton events e ih =>
    cases e with
    | gc g =>
      rw [after_snoc]
      exact ih fun hf => h ((forgotten_gc P events g).mpr hf)
    | verify j u =>
      have hold := ih fun hf => h ((forgotten_verify P events u j).mpr (.inl hf))
      cases hcheck : P.check j u with
      | none => rwa [after_none P events hcheck]
      | some b =>
        by_cases hseen : P.key b ∈ (after P events).seen.map Prod.fst
        · rwa [after_seen P events hcheck hseen]
        · rw [after_new P events hcheck hseen, List.map_cons]
          refine List.nodup_cons.mpr ⟨fun hmem => ?_, hold⟩
          -- A key accepted before is stored unless its row has lapsed, which is forgetting.
          obtain ⟨t, ht⟩ := ((inv_run P events).accepted _).mp hmem
          rcases (inv_run P events).stored _ t ht with hstored | hlapsed
          · exact hseen hstored
          · exact h ((forgotten_verify P events u j).mpr (.inr ⟨b, hcheck, hlapsed⟩))

/-- While no key is accepted twice, each row is as old as the first presentation of its key, and
a key that has lapsed is not stored. -/
structure Early : Prop where
  first : ∀ row ∈ (after P events).seen, ∀ t, Presented P events row.1 t → row.2 ≤ P.expiry t
  gone : ∀ k, Lapsed P events k → k ∉ (after P events).seen.map Prod.fst
  remembered : ¬ Forgotten P events

theorem early_gc (g : ℤ) (h : Early P events) : Early P (events ++ [.gc g]) where
  first row hrow t ht := by
    rw [after_snoc] at hrow
    exact h.first row (List.mem_of_mem_filter hrow) t ((presented_gc P events _ t g).mp ht)
  gone k hk := by
    rw [after_snoc]
    intro hmem
    obtain ⟨row, hrow, rfl⟩ := List.mem_map.mp hmem
    obtain ⟨hrow, hlive⟩ := List.mem_filter.mp hrow
    rcases (lapsed_gc P events _ g).mp hk with hk | ⟨t, ht, hexpired⟩
    · exact h.gone _ hk (List.mem_map_of_mem hrow)
    · have hfirst := h.first row hrow t ht
      have hlive := of_decide_eq_true hlive
      omega
  remembered := by
    rw [forgotten_gc]
    exact h.remembered

theorem early_seen (hmono : ∀ t u, t ≤ u → P.expiry t ≤ P.expiry u) {j : ι} {u : ℤ} {b : α}
    (hcheck : P.check j u = some b) (hseen : P.key b ∈ (after P events).seen.map Prod.fst)
    (htimely : Timely (events ++ [.verify j u])) (h : Early P events) :
    Early P (events ++ [.verify j u]) := by
  have hafter := after_seen P events hcheck hseen
  refine ⟨fun row hrow t ht => ?_, fun k hk => ?_, ?_⟩
  · rw [hafter] at hrow
    rcases (presented_passed P events _ hcheck t).mp ht with ht | ⟨rfl, -⟩
    · exact h.first row hrow t ht
    · obtain ⟨t', ht', hexpiry⟩ := (inv_run P events).rows row hrow
      rw [hexpiry]
      exact hmono t' t (le_of_presented P events _ t' t j htimely ht')
  · rw [hafter]
    exact h.gone k ((lapsed_verify P events k u j).mp hk)
  · exact remembered_passed P events hcheck h.remembered fun hlapsed => h.gone _ hlapsed hseen

/-- A key that is accepted for the first time was not presented before. -/
theorem early_new {j : ι} {u : ℤ} {b : α} (hcheck : P.check j u = some b)
    (hseen : P.key b ∉ (after P events).seen.map Prod.fst)
    (hfirst : ∀ t, ¬ Presented P events (P.key b) t) (h : Early P events) :
    Early P (events ++ [.verify j u]) := by
  have hafter := after_new P events hcheck hseen
  have hpresented := fun k t => presented_passed P events k hcheck t
  have hunlapsed : ¬ Lapsed P events (P.key b) := by
    rintro ⟨i, t, a, g, hrun, ha, hkey, -⟩
    exact hfirst t ⟨i, a, hrun.subset List.mem_cons_self, ha, hkey⟩
  refine ⟨fun row hrow t ht => ?_, fun k hk => ?_, ?_⟩
  · rw [hafter] at hrow
    rcases List.mem_cons.mp hrow with rfl | hrow
    · rcases (hpresented _ t).mp ht with ht | ⟨rfl, -⟩
      · exact absurd ht (hfirst t)
      · exact Int.le_refl _
    · obtain ⟨t', ht', -⟩ := (inv_run P events).rows row hrow
      rcases (hpresented _ t).mp ht with ht | ⟨rfl, hkey⟩
      · exact h.first row hrow t ht
      · exact absurd (hkey ▸ ht') (hfirst t')
  · rw [lapsed_verify] at hk
    rw [hafter, List.map_cons, List.mem_cons, not_or]
    refine ⟨?_, h.gone k hk⟩
    rintro rfl
    exact hunlapsed hk
  · exact remembered_passed P events hcheck h.remembered hunlapsed

theorem early_verify (hmono : ∀ t u, t ≤ u → P.expiry t ≤ P.expiry u) (j : ι) (u : ℤ)
    (htimely : Timely (events ++ [.verify j u]))
    (hnodup : ((after P (events ++ [.verify j u])).accepted.map P.key).Nodup)
    (h : Early P events) : Early P (events ++ [.verify j u]) := by
  cases hcheck : P.check j u with
  | none =>
    have hafter := after_none P events hcheck
    refine ⟨?_, ?_, ?_⟩ <;> simp only [hafter, presented_verify, lapsed_verify, forgotten_verify,
      hcheck, reduceCtorEq, false_and, exists_false, and_false, or_false]
    exacts [h.first, h.gone, h.remembered]
  | some b =>
    by_cases hseen : P.key b ∈ (after P events).seen.map Prod.fst
    · exact early_seen P events hmono hcheck hseen htimely h
    · refine early_new P events hcheck hseen (fun t ht => ?_) h
      have hafter := after_new P events hcheck hseen
      rw [hafter, List.map_cons, List.nodup_cons] at hnodup
      exact hnodup.1 (((inv_run P events).accepted _).mpr ⟨t, ht⟩)

theorem accepted_suffix (e : Event ι) :
    (after P events).accepted <:+ (after P (events ++ [e])).accepted := by
  cases e with
  | gc g =>
    rw [after_snoc]
    exact List.suffix_rfl
  | verify j u =>
    cases hcheck : P.check j u with
    | none => simp only [after_none P events hcheck, List.suffix_rfl]
    | some b =>
      by_cases hseen : P.key b ∈ (after P events).seen.map Prod.fst
      · simp only [after_seen P events hcheck hseen, List.suffix_rfl]
      · rw [after_new P events hcheck hseen]
        exact List.suffix_cons ..

theorem early_of_nodup (hmono : ∀ t u, t ≤ u → P.expiry t ≤ P.expiry u) (htimely : Timely events)
    (hnodup : ((after P events).accepted.map P.key).Nodup) : Early P events := by
  induction events using List.reverseRecOn with
  | nil =>
    refine ⟨?_, ?_, ?_⟩ <;> simp [Lapsed, Forgotten, after, initial]
  | append_singleton events e ih =>
    have hbefore := ih ((timely_snoc events e).mp htimely).1
      (hnodup.sublist ((accepted_suffix P events e).sublist.map P.key))
    cases e with
    | gc g => exact early_gc P events g hbefore
    | verify j u => exact early_verify P events hmono j u htimely hnodup hbefore

/-- In every run of requests at times that do not go back, no key is accepted twice exactly when
no key is forgotten between two items that pass. -/
theorem accepted_once_iff (hmono : ∀ t u, t ≤ u → P.expiry t ≤ P.expiry u) (htimely : Timely events) :
    ((after P events).accepted.map P.key).Nodup ↔ ¬ Forgotten P events := by
  constructor
  · exact fun hnodup => (early_of_nodup P events hmono htimely hnodup).remembered
  · exact nodup_of_not_forgotten P events

end Hyproxy.ReplayCache

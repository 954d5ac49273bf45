import Mathlib.Data.List.Infix
import Mathlib.Tactic.Common
import Mathlib.Tactic.SplitIfs

/-!
A stream that is cut into pieces, each element with its place. A list of elements of the stream is
made of whole pieces in order, with part of one more at its end, exactly when every element either
comes next in the stream or jumps from one boundary of pieces to another.
-/
namespace Hyproxy.PlacedStreams

variable {α : Type*}

/-- Some of the pieces in order, and part of a later one. -/
def Kept (pieces : List (List α)) (l : List α) : Prop :=
  ∃ kept part, l = kept.flatten ++ part ∧
    (part = [] ∧ kept.Sublist pieces ∨ ∃ last, (kept ++ [last]).Sublist pieces ∧ part <+: last)

/-- The same after a first piece that is not left out. -/
def Plays (init : List α) (pieces : List (List α)) (l : List α) : Prop :=
  l <+: init ∨ ∃ rest, l = init ++ rest ∧ Kept pieces rest

/-- The pieces with the places of their elements, when the first is at `start`. -/
def place : ℕ → List (List α) → List (List (α × ℕ))
  | _, [] => []
  | start, f :: rest => f.zipIdx start :: place (start + f.length) rest

/-- Where pieces start and end. -/
def bounds : ℕ → List (List α) → List ℕ
  | start, [] => [start]
  | start, f :: rest => start :: bounds (start + f.length) rest

/-- After the place `e`, each element comes next, or jumps ahead between boundaries. -/
def Steps (b : List ℕ) : ℕ → List (α × ℕ) → Prop
  | _, [] => True
  | e, x :: rest => (x.2 = e ∨ (e ∈ b ∧ e ≤ x.2 ∧ x.2 ∈ b)) ∧ Steps b (x.2 + 1) rest

/-- The place after a list that starts after `e`. -/
def stop : ℕ → List (α × ℕ) → ℕ
  | e, [] => e
  | _, x :: rest => stop (x.2 + 1) rest

/-! ### Pieces -/

theorem kept_nil (l : List α) : Kept [] l ↔ l = [] := by
  constructor
  · rintro ⟨kept, part, rfl, ⟨rfl, hsub⟩ | ⟨last, hsub, -⟩⟩
    · rw [List.sublist_nil.mp hsub]
      rfl
    · exact absurd (List.sublist_nil.mp hsub) (by simp)
  · rintro rfl
    exact ⟨[], [], rfl, .inl ⟨rfl, List.Sublist.refl _⟩⟩

theorem kept_cons (f : List α) (pieces : List (List α)) (l : List α) :
    Kept (f :: pieces) l ↔
      l <+: f ∨ Kept pieces l ∨ ∃ rest, l = f ++ rest ∧ Kept pieces rest := by
  constructor
  · rintro ⟨kept, part, rfl, ⟨rfl, hsub⟩ | ⟨last, hsub, hpart⟩⟩
    · rcases List.sublist_cons_iff.mp hsub with hmore | ⟨rest, rfl, hmore⟩
      · exact .inr (.inl ⟨kept, [], rfl, .inl ⟨rfl, hmore⟩⟩)
      · refine .inr (.inr ⟨rest.flatten ++ [], ?_, rest, [], rfl, .inl ⟨rfl, hmore⟩⟩)
        rw [List.flatten_cons, List.append_assoc]
    · rcases List.sublist_cons_iff.mp hsub with hmore | ⟨rest, hrest, hmore⟩
      · exact .inr (.inl ⟨kept, part, rfl, .inr ⟨last, hmore, hpart⟩⟩)
      · cases kept with
        | nil =>
          obtain ⟨rfl, -⟩ := List.cons.inj hrest
          exact .inl hpart
        | cons first kept =>
          obtain ⟨rfl, rfl⟩ := List.cons.inj hrest
          refine .inr (.inr ⟨kept.flatten ++ part, ?_, kept, part, rfl, .inr ⟨last, hmore, hpart⟩⟩)
          rw [List.flatten_cons, List.append_assoc]
  · rintro (hpart | ⟨kept, part, rfl, h⟩ | ⟨_, rfl, kept, part, rfl, h⟩)
    · exact ⟨[], l, rfl, .inr ⟨f, (List.nil_sublist pieces).cons_cons f, hpart⟩⟩
    · refine ⟨kept, part, rfl, h.imp (And.imp_right fun hsub => hsub.cons f) ?_⟩
      exact fun ⟨last, hsub, hpart⟩ => ⟨last, hsub.cons f, hpart⟩
    · refine ⟨f :: kept, part, by rw [List.flatten_cons, List.append_assoc], ?_⟩
      refine h.imp (And.imp_right fun hsub => hsub.cons_cons f) ?_
      exact fun ⟨last, hsub, hpart⟩ => ⟨last, hsub.cons_cons f, hpart⟩

instance decidableKept [DecidableEq α] :
    ∀ (pieces : List (List α)) (l : List α), Decidable (Kept pieces l)
  | [], l => decidable_of_iff (l = []) (kept_nil l).symm
  | f :: pieces, l =>
    have := decidableKept pieces l
    have := decidableKept pieces (l.drop f.length)
    decidable_of_iff (l <+: f ∨ Kept pieces l ∨ f <+: l ∧ Kept pieces (l.drop f.length)) <| by
      have hwhole : (∃ rest, l = f ++ rest ∧ Kept pieces rest) ↔
          f <+: l ∧ Kept pieces (l.drop f.length) := by
        constructor
        · rintro ⟨rest, rfl, hrest⟩
          exact ⟨List.prefix_append f rest, by rwa [List.drop_left]⟩
        · rintro ⟨⟨rest, rfl⟩, hrest⟩
          rw [List.drop_left] at hrest
          exact ⟨rest, rfl, hrest⟩
      rw [kept_cons, hwhole]

instance decidablePlays [DecidableEq α] (init : List α) (pieces : List (List α)) (l : List α) :
    Decidable (Plays init pieces l) :=
  decidable_of_iff (l <+: init ∨ init <+: l ∧ Kept pieces (l.drop init.length)) <| by
    refine or_congr_right ?_
    constructor
    · rintro ⟨⟨rest, rfl⟩, hrest⟩
      rw [List.drop_left] at hrest
      exact ⟨rest, rfl, hrest⟩
    · rintro ⟨rest, rfl, hrest⟩
      exact ⟨List.prefix_append init rest, by rwa [List.drop_left]⟩

theorem kept_empty (pieces : List (List α)) : Kept pieces [] :=
  ⟨[], [], rfl, .inl ⟨rfl, List.nil_sublist pieces⟩⟩

/-- Places may be forgotten. -/
theorem Plays.map {β : Type*} (f : α → β) {init : List α} {pieces : List (List α)} {l : List α}
    (h : Plays init pieces l) : Plays (init.map f) (pieces.map (List.map f)) (l.map f) := by
  rcases h with hbegins | ⟨_, rfl, kept, part, rfl, hkept⟩
  · exact .inl (hbegins.map f)
  · refine .inr ⟨(kept.flatten ++ part).map f, List.map_append, kept.map (List.map f), part.map f,
      by rw [List.map_append, List.map_flatten], ?_⟩
    rcases hkept with ⟨rfl, hsub⟩ | ⟨last, hsub, hpart⟩
    · exact .inl ⟨rfl, hsub.map (List.map f)⟩
    · refine .inr ⟨last.map f, ?_, hpart.map f⟩
      have hmap := hsub.map (List.map f)
      rwa [List.map_append] at hmap

/-! ### Steps -/

theorem steps_append (b : List ℕ) (e : ℕ) (left right : List (α × ℕ)) :
    Steps b e (left ++ right) ↔ Steps b e left ∧ Steps b (stop e left) right := by
  induction left generalizing e with
  | nil => simp [Steps, stop]
  | cons x rest ih => rw [List.cons_append, Steps, ih, Steps, stop, and_assoc]

theorem stop_append (e : ℕ) (left right : List (α × ℕ)) :
    stop e (left ++ right) = stop (stop e left) right := by
  induction left generalizing e with
  | nil => rfl
  | cons x rest ih => rw [List.cons_append, stop, ih, stop]

theorem stop_zipIdx (e : ℕ) (f : List α) : stop e (f.zipIdx e) = e + f.length := by
  induction f generalizing e with
  | nil => rfl
  | cons y f ih =>
    rw [List.zipIdx_cons, stop, ih, List.length_cons]
    omega

theorem steps_zipIdx (b : List ℕ) (e : ℕ) (f : List α) : Steps b e (f.zipIdx e) := by
  induction f generalizing e with
  | nil => trivial
  | cons y f ih => exact ⟨.inl rfl, ih (e + 1)⟩

theorem stop_le (e q : ℕ) (l : List (α × ℕ)) (he : e ≤ q) (hl : ∀ x ∈ l, x.2 < q) :
    stop e l ≤ q := by
  induction l generalizing e with
  | nil => exact he
  | cons x rest ih =>
    obtain ⟨hx, hrest⟩ := List.forall_mem_cons.mp hl
    exact ih (x.2 + 1) hx hrest

theorem next_ge (b : List ℕ) (e : ℕ) (x : α × ℕ) (h : x.2 = e ∨ (e ∈ b ∧ e ≤ x.2 ∧ x.2 ∈ b)) :
    e ≤ x.2 := by
  rcases h with heq | ⟨-, hle, -⟩
  · exact heq.ge
  · exact hle

theorem steps_ge (b : List ℕ) (e : ℕ) (l : List (α × ℕ)) (h : Steps b e l) : ∀ x ∈ l, e ≤ x.2 := by
  induction l generalizing e with
  | nil => exact fun x hx => absurd hx List.not_mem_nil
  | cons x rest ih =>
    obtain ⟨hx, hrest⟩ := h
    have hle := next_ge b e x hx
    refine List.forall_mem_cons.mpr ⟨hle, fun y hy => ?_⟩
    have hy := ih (x.2 + 1) hrest y hy
    omega

/-- Boundaries before the place do not matter. -/
theorem steps_mono (b c : List ℕ) (e : ℕ) (l : List (α × ℕ)) (hsub : ∀ n ∈ b, e ≤ n → n ∈ c)
    (h : Steps b e l) : Steps c e l := by
  induction l generalizing e with
  | nil => trivial
  | cons x rest ih =>
    obtain ⟨hx, hrest⟩ := h
    have hle := next_ge b e x hx
    refine ⟨hx.imp id fun ⟨he, hle, hx⟩ => ⟨hsub e he le_rfl, hle, hsub x.2 hx hle⟩, ?_⟩
    exact ih (x.2 + 1) (fun n hn hx => hsub n hn (by omega)) hrest

/-- Inside a piece, the elements come one after the other up to its end. -/
theorem inside_of_steps (b : List ℕ) (e : ℕ) (f : List α) (l : List (α × ℕ))
    (hb : ∀ n ∈ b, n < e ∨ e + f.length ≤ n)
    (hl : ∀ x ∈ l, x ∈ f.zipIdx e ∨ e + f.length ≤ x.2) (h : Steps b e l) :
    l <+: f.zipIdx e ∨ ∃ rest, l = f.zipIdx e ++ rest ∧ Steps b (e + f.length) rest := by
  induction f generalizing e l with
  | nil => exact .inr ⟨l, rfl, h⟩
  | cons y f ih =>
    cases l with
    | nil => exact .inl List.nil_prefix
    | cons x rest =>
      obtain ⟨hx, hrest⟩ := h
      obtain ⟨hmem, hmore⟩ := List.forall_mem_cons.mp hl
      simp only [List.length_cons] at hb hmem hmore
      have hplace : x.2 = e := by
        refine hx.resolve_right fun ⟨he, _, _⟩ => ?_
        have he := hb e he
        omega
      have hfirst : x = (y, e) := by
        rcases hmem with hmem | hmem
        · rcases List.mem_cons.mp hmem with rfl | hmem
          · rfl
          · have hlater := List.le_snd_of_mem_zipIdx hmem
            omega
        · omega
      subst hfirst
      have hbounds : ∀ n ∈ b, n < e + 1 ∨ e + 1 + f.length ≤ n := by
        intro n hn
        have hn := hb n hn
        omega
      have hplaces : ∀ x ∈ rest, x ∈ f.zipIdx (e + 1) ∨ e + 1 + f.length ≤ x.2 := by
        intro z hz
        have hlater := steps_ge b (e + 1) rest hrest z hz
        rcases hmore z hz with hmem | hmem
        · rcases List.mem_cons.mp hmem with rfl | hmem
          · omega
          · exact .inl hmem
        · exact .inr (by omega)
      rcases ih (e + 1) rest hbounds hplaces hrest with hbegins | ⟨more, rfl, hsteps⟩
      · exact .inl (List.cons_prefix_cons.mpr ⟨rfl, hbegins⟩)
      · refine .inr ⟨more, rfl, ?_⟩
        rw [List.length_cons, show e + (f.length + 1) = e + 1 + f.length by omega]
        exact hsteps

/-! ### Boundaries -/

theorem start_mem_bounds (start : ℕ) (pieces : List (List α)) : start ∈ bounds start pieces := by
  cases pieces with
  | nil => exact List.mem_singleton_self start
  | cons f rest => exact List.mem_cons_self

theorem bounds_ge (start : ℕ) (pieces : List (List α)) : ∀ n ∈ bounds start pieces, start ≤ n := by
  induction pieces generalizing start with
  | nil => exact fun n hn => (List.mem_singleton.mp hn).ge
  | cons f rest ih =>
    refine List.forall_mem_cons.mpr ⟨le_rfl, fun n hn => ?_⟩
    have hn := ih (start + f.length) n hn
    omega

theorem place_ge (start : ℕ) (pieces : List (List α)) :
    ∀ x ∈ (place start pieces).flatten, start ≤ x.2 := by
  induction pieces generalizing start with
  | nil => exact fun x hx => absurd hx List.not_mem_nil
  | cons f rest ih =>
    intro x hx
    rw [place, List.flatten_cons, List.mem_append] at hx
    rcases hx with hx | hx
    · exact List.le_snd_of_mem_zipIdx hx
    · have hx := ih (start + f.length) x hx
      omega

theorem place_flatten (start : ℕ) (pieces : List (List α)) :
    (place start pieces).flatten = pieces.flatten.zipIdx start := by
  induction pieces generalizing start with
  | nil => rfl
  | cons f rest ih => rw [place, List.flatten_cons, ih, List.flatten_cons, List.zipIdx_append]

theorem place_map (start : ℕ) (pieces : List (List α)) :
    (place start pieces).map (List.map Prod.fst) = pieces := by
  induction pieces generalizing start with
  | nil => rfl
  | cons f rest ih => rw [place, List.map_cons, ih, List.zipIdx_map_fst]

theorem steps_of_prefix (b : List ℕ) (e : ℕ) (f : List α) (l : List (α × ℕ))
    (h : l <+: f.zipIdx e) : Steps b e l := by
  obtain ⟨rest, hrest⟩ := h
  have hsteps := steps_zipIdx b e f
  rw [← hrest, steps_append] at hsteps
  exact hsteps.1

theorem steps_of_kept (start : ℕ) (pieces : List (List α)) (l : List (α × ℕ))
    (h : Kept (place start pieces) l) : Steps (bounds start pieces) start l := by
  induction pieces generalizing start l with
  | nil =>
    rw [(kept_nil l).mp h]
    trivial
  | cons f rest ih =>
    have hmono : ∀ n ∈ bounds (start + f.length) rest, start + f.length ≤ n →
        n ∈ bounds start (f :: rest) := fun n hn _ => List.mem_cons_of_mem start hn
    rcases (kept_cons _ _ l).mp h with hpart | hkept | ⟨more, rfl, hkept⟩
    · exact steps_of_prefix _ start f l hpart
    · have hsteps := steps_mono _ _ _ l hmono (ih (start + f.length) l hkept)
      cases l with
      | nil => trivial
      | cons x l =>
        obtain ⟨hx, hl⟩ := hsteps
        have hnext : start + f.length ∈ bounds start (f :: rest) :=
          List.mem_cons_of_mem start (start_mem_bounds _ rest)
        refine ⟨.inr ⟨List.mem_cons_self, ?_⟩, hl⟩
        rcases hx with heq | ⟨-, hle, hx⟩
        · exact ⟨by omega, heq ▸ hnext⟩
        · exact ⟨by omega, hx⟩
    · rw [steps_append, stop_zipIdx]
      exact ⟨steps_zipIdx _ start f, steps_mono _ _ _ more hmono (ih (start + f.length) more hkept)⟩

theorem kept_of_steps (start : ℕ) (pieces : List (List α)) (l : List (α × ℕ))
    (hl : ∀ x ∈ l, x ∈ (place start pieces).flatten) (h : Steps (bounds start pieces) start l) :
    Kept (place start pieces) l := by
  induction pieces generalizing start l with
  | nil =>
    rw [List.eq_nil_iff_forall_not_mem.mpr fun x hx => List.not_mem_nil (hl x hx)]
    exact kept_empty _
  | cons f rest ih =>
    have hlater : ∀ more : List (α × ℕ), (∀ x ∈ more, x ∈ (place start (f :: rest)).flatten) →
        Steps (bounds (start + f.length) rest) (start + f.length) more →
        Kept (place (start + f.length) rest) more := by
      intro more hmore hsteps
      refine ih (start + f.length) more (fun x hx => ?_) hsteps
      have hmem := hmore x hx
      rw [place, List.flatten_cons, List.mem_append] at hmem
      refine hmem.resolve_left fun hf => ?_
      have hge := steps_ge _ _ more hsteps x hx
      have hlt := List.snd_lt_add_of_mem_zipIdx hf
      omega
    have hback : ∀ n ∈ bounds start (f :: rest), start + f.length ≤ n →
        n ∈ bounds (start + f.length) rest := by
      intro n hn hle
      rcases List.mem_cons.mp hn with rfl | hn
      · have hempty : n + f.length = n := by omega
        rw [hempty]
        exact start_mem_bounds n rest
      · exact hn
    rw [place, kept_cons]
    cases l with
    | nil => exact .inl List.nil_prefix
    | cons x more =>
      obtain ⟨hx, hmore⟩ := h
      by_cases hjump : start + f.length ≤ x.2
      · refine .inr (.inl (hlater (x :: more) hl ⟨.inr ⟨start_mem_bounds _ rest, hjump, ?_⟩, ?_⟩))
        · rcases hx with heq | ⟨-, -, hx⟩
          · exact hback x.2 (heq ▸ start_mem_bounds start (f :: rest)) hjump
          · exact hback x.2 hx hjump
        · exact steps_mono _ _ (x.2 + 1) more (fun n hn hle => hback n hn (by omega)) hmore
      · have hplace : x.2 = start := by
          refine hx.elim id fun ⟨_, _, hx⟩ => ?_
          rcases List.mem_cons.mp hx with heq | hx
          · exact heq
          · exact absurd (bounds_ge _ rest x.2 hx) hjump
        have hsteps : Steps (bounds (start + f.length) rest) start (x :: more) := by
          refine ⟨.inl hplace, steps_mono _ _ (x.2 + 1) more (fun n hn hle => ?_) hmore⟩
          refine (List.mem_cons.mp hn).resolve_left fun heq => ?_
          omega
        have hplaces : ∀ z ∈ x :: more, z ∈ f.zipIdx start ∨ start + f.length ≤ z.2 := by
          intro z hz
          have hmem := hl z hz
          rw [place, List.flatten_cons, List.mem_append] at hmem
          exact hmem.imp id (place_ge _ rest z)
        rcases inside_of_steps _ start f (x :: more) (fun n hn => .inr (bounds_ge _ rest n hn))
          hplaces hsteps with hbegins | ⟨later, heq, hsteps⟩
        · exact .inl hbegins
        · refine .inr (.inr ⟨later, heq, hlater later (fun z hz => hl z ?_) hsteps⟩)
          rw [heq]
          exact List.mem_append_right _ hz

/-- Over the elements of a stream, which cannot be taken for one another, whole pieces are steps
that come next or go from boundary to boundary. -/
theorem plays_iff (init : List α) (pieces : List (List α)) (l : List (α × ℕ))
    (hl : ∀ x ∈ l, x ∈ (init ++ pieces.flatten).zipIdx) :
    Plays init.zipIdx (place init.length pieces) l ↔ Steps (bounds init.length pieces) 0 l := by
  have hplaces : ∀ x ∈ l, x ∈ init.zipIdx ∨ x ∈ (place init.length pieces).flatten := by
    intro x hx
    have hmem := hl x hx
    rwa [List.zipIdx_append, Nat.zero_add, ← place_flatten, List.mem_append] at hmem
  constructor
  · rintro (hbegins | ⟨rest, rfl, hkept⟩)
    · exact steps_of_prefix _ 0 init l hbegins
    · rw [steps_append, stop_zipIdx, Nat.zero_add]
      exact ⟨steps_zipIdx _ 0 init, steps_of_kept init.length pieces rest hkept⟩
  · intro h
    have hlater : ∀ x ∈ l, x ∈ init.zipIdx ∨ 0 + init.length ≤ x.2 := by
      intro x hx
      rw [Nat.zero_add]
      exact (hplaces x hx).imp id (place_ge _ pieces x)
    have hbounds : ∀ n ∈ bounds init.length pieces, n < 0 ∨ 0 + init.length ≤ n := by
      intro n hn
      have hn := bounds_ge _ pieces n hn
      omega
    rcases inside_of_steps _ 0 init l hbounds hlater h with hbegins | ⟨rest, rfl, hsteps⟩
    · exact .inl hbegins
    · rw [Nat.zero_add] at hsteps
      refine .inr ⟨rest, rfl, kept_of_steps init.length pieces rest (fun x hx => ?_) hsteps⟩
      refine (hplaces x (List.mem_append_right _ hx)).resolve_left fun hinit => ?_
      have hge := steps_ge _ _ rest hsteps x hx
      have hlt := List.snd_lt_add_of_mem_zipIdx hinit
      omega

/-- A run of the stream that is added to elements from before it: it comes next, or there is a
boundary on both sides of what is left out. -/
theorem steps_next (b : List ℕ) (stream : List α) (before chunk rest l : List (α × ℕ))
    (hstream : stream.zipIdx = before ++ (chunk ++ rest)) (hl : ∀ x ∈ l, x ∈ before) :
    Steps b 0 (l ++ chunk) ↔ Steps b 0 l ∧
      ∀ x ∈ chunk.head?, x.2 = stop 0 l ∨ (stop 0 l ∈ b ∧ x.2 ∈ b) := by
  obtain ⟨left, right, -, rfl, hright⟩ := List.zipIdx_eq_append_iff.mp hstream
  obtain ⟨piece, -, -, rfl, -⟩ := List.zipIdx_eq_append_iff.mp hright.symm
  rw [steps_append]
  refine and_congr_right fun _ => ?_
  cases piece with
  | nil => exact ⟨fun _ x hx => absurd hx (by simp), fun _ => trivial⟩
  | cons y piece =>
    have hle : stop 0 l ≤ 0 + left.length :=
      stop_le 0 _ l (Nat.zero_le _) fun x hx => List.snd_lt_add_of_mem_zipIdx (hl x hx)
    constructor
    · rintro ⟨hy, -⟩ x hx
      obtain rfl := Option.some.inj hx
      exact hy.imp id fun ⟨he, _, hy⟩ => ⟨he, hy⟩
    · intro h
      refine ⟨(h (y, 0 + left.length) rfl).imp id fun ⟨he, hy⟩ => ⟨he, hle, hy⟩, ?_⟩
      exact steps_zipIdx b (0 + left.length + 1) piece

/-- A run that is added ends where the rest of the stream starts. -/
theorem stop_next (stream : List α) (before chunk rest l : List (α × ℕ))
    (hstream : stream.zipIdx = before ++ (chunk ++ rest)) (hne : chunk ≠ []) :
    stop 0 (l ++ chunk) = stream.length - rest.length := by
  have hlength := congrArg List.length hstream
  obtain ⟨left, right, -, rfl, hright⟩ := List.zipIdx_eq_append_iff.mp hstream
  obtain ⟨piece, -, -, rfl, -⟩ := List.zipIdx_eq_append_iff.mp hright.symm
  have hstop : stop (stop 0 l) (piece.zipIdx (0 + left.length)) =
      stop (0 + left.length) (piece.zipIdx (0 + left.length)) := by
    cases piece with
    | nil => exact absurd rfl hne
    | cons y piece => rfl
  rw [stop_append, hstop, stop_zipIdx]
  simp only [List.length_append, List.length_zipIdx] at hlength
  omega

/-- The first of what is left of the stream has the place where that starts. -/
theorem place_of_head (stream : List α) (before rest : List (α × ℕ))
    (hstream : stream.zipIdx = before ++ rest) (x : α × ℕ) (hx : x ∈ rest.head?) :
    x.2 = stream.length - rest.length := by
  have hlength := congrArg List.length hstream
  obtain ⟨left, right, -, rfl, rfl⟩ := List.zipIdx_eq_append_iff.mp hstream
  simp only [List.length_append, List.length_zipIdx] at hlength
  cases right with
  | nil => cases hx
  | cons y right =>
    obtain rfl := Option.some.inj hx
    rw [List.length_zipIdx]
    simp only
    omega

/-- Elements from before the rest of the stream end before it starts. -/
theorem stop_le_rest (stream : List α) (before rest l : List (α × ℕ))
    (hstream : stream.zipIdx = before ++ rest) (hl : ∀ x ∈ l, x ∈ before) :
    stop 0 l ≤ stream.length - rest.length := by
  have hlength := congrArg List.length hstream
  obtain ⟨left, right, -, rfl, rfl⟩ := List.zipIdx_eq_append_iff.mp hstream
  simp only [List.length_append, List.length_zipIdx] at hlength ⊢
  refine stop_le 0 _ l (Nat.zero_le _) fun x hx => ?_
  have hlt := List.snd_lt_add_of_mem_zipIdx (hl x hx)
  omega

end Hyproxy.PlacedStreams

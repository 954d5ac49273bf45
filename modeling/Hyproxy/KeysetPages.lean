import Mathlib.Data.List.Sort
import Mathlib.Order.Basic

/-!
Pagination by key. A page has the rows with the largest keys below a cursor; it is read together
with one row more, which tells whether another page follows. Who goes from page to page, while
rows with larger keys come in, sees every row that was there at first, once and in order.
-/
namespace Hyproxy.KeysetPages

variable {Row Item κ : Type} [LinearOrder κ]

structure Page (Item κ : Type) where
  items : List Item
  nextCursor : Option κ
  deriving Repr, DecidableEq

/-- Larger keys first. -/
def descending (key : Row → κ) (rows : List Row) : List Row :=
  rows.mergeSort fun a b => decide (key b ≤ key a)

def below (key : Row → κ) (cursor : Option κ) (row : Row) : Bool :=
  match cursor with
  | none => true
  | some bound => decide (key row < bound)

/-- `ORDER BY key DESC LIMIT limit + 1`, of the rows below the cursor. -/
def query (key : Row → κ) (keep : Row → Bool) (cursor : Option κ) (limit : ℕ) (rows : List Row) :
    List Row :=
  (descending key (rows.filter fun row => keep row && below key cursor row)).take (limit + 1)

def pageOf (key : Row → κ) (out : Row → Item) (limit : ℕ) (found : List Row) : Page Item κ :=
  let shown := found.take limit
  { items := shown.map out
    nextCursor := if limit < found.length then shown.getLast?.map key else none }

/-- The pages that are read from the request with this number on, until no cursor comes back. -/
def follow (page : ℕ → Option κ → Page Item κ) : ℕ → ℕ → Option κ → Option (List (Page Item κ))
  | 0, _, _ => none
  | fuel + 1, i, cursor =>
    match (page i cursor).nextCursor with
    | none => some [page i cursor]
    | some next => (follow page fuel (i + 1) (some next)).map (page i cursor :: ·)

def Decreasing (key : Row → κ) (rows : List Row) : Prop := rows.Pairwise fun a b => key b < key a

/-! ### The order of the rows -/

theorem descending_perm (key : Row → κ) (rows : List Row) : (descending key rows).Perm rows :=
  List.mergeSort_perm _ _

theorem descending_decreasing (key : Row → κ) (rows : List Row) (h : (rows.map key).Nodup) :
    Decreasing key (descending key rows) := by
  have hsorted : (descending key rows).Pairwise fun a b => decide (key b ≤ key a) = true := by
    refine List.pairwise_mergeSort (fun a b c hab hbc => ?_) (fun a b => ?_) rows
    · rw [decide_eq_true_iff] at hab hbc ⊢
      exact hbc.trans hab
    · rw [Bool.or_eq_true, decide_eq_true_iff, decide_eq_true_iff]
      exact le_total _ _
  have hdistinct : (descending key rows).Pairwise fun a b => key a ≠ key b := by
    rw [← List.pairwise_map]
    exact ((descending_perm key rows).map key).nodup_iff.mpr h
  refine (hsorted.and hdistinct).imp fun {a b} hab => ?_
  exact lt_of_le_of_ne (of_decide_eq_true hab.1) hab.2.symm

theorem descending_eq (key : Row → κ) (rows sorted : List Row) (h : rows.Perm sorted)
    (hsorted : Decreasing key sorted) : descending key rows = sorted := by
  have hnodup : (rows.map key).Nodup := by
    refine (h.map key).nodup_iff.mpr (List.pairwise_map.mpr (hsorted.imp fun {a b} hab => ?_))
    exact hab.ne'
  refine List.Perm.eq_of_pairwise (fun a b _ _ hab hba => ?_)
    (descending_decreasing key rows hnodup) hsorted ((descending_perm key rows).trans h)
  exact absurd hab (lt_asymm hba)

/-- What is below a row of a decreasing list comes behind it. -/
theorem filter_below (key : Row → κ) (front rest : List Row) (last : Row)
    (h : Decreasing key (front ++ last :: rest)) :
    (front ++ last :: rest).filter (fun row => decide (key row < key last)) = rest := by
  obtain ⟨-, hrest, hfront⟩ := List.pairwise_append.mp h
  have hnone : front.filter (fun row => decide (key row < key last)) = [] := by
    refine List.filter_eq_nil_iff.mpr fun row hrow => ?_
    rw [decide_eq_true_iff]
    exact lt_asymm (hfront row hrow last List.mem_cons_self)
  have hall : rest.filter (fun row => decide (key row < key last)) = rest := by
    refine List.filter_eq_self.mpr fun row hrow => ?_
    exact decide_eq_true (List.rel_of_pairwise_cons hrest hrow)
  rw [List.filter_append, hnone, List.filter_cons_of_neg (by simp), hall, List.nil_append]

/-! ### Following the cursors -/

section Follow

variable (key : Row → κ) (keep : Row → Bool) (out : Row → Item) (limit : ℕ)
  (tables : ℕ → List Row)

def page (i : ℕ) (cursor : Option κ) : Page Item κ :=
  pageOf key out limit (query key keep cursor limit (tables i))

/-- What is left to be read: now it is what the query finds, and later what it finds below the
keys of these rows. -/
structure Left (i : ℕ) (cursor : Option κ) (rows : List Row) : Prop where
  decreasing : Decreasing key rows
  now : ((tables i).filter fun row => keep row && below key cursor row).Perm rows
  later : ∀ j, i < j → ∀ last ∈ rows,
    ((tables j).filter fun row => keep row && below key (some (key last)) row).Perm
      (rows.filter fun row => decide (key row < key last))

variable {key keep tables}

theorem Left.query {i : ℕ} {cursor : Option κ} {rows : List Row}
    (h : Left key keep tables i cursor rows) :
    query key keep cursor limit (tables i) = rows.take (limit + 1) := by
  rw [KeysetPages.query, descending_eq key _ rows h.now h.decreasing]

/-- The rows behind the last one of a page are left to the next request. -/
theorem Left.next {i : ℕ} {cursor : Option κ} {front rest : List Row} {last : Row}
    (h : Left key keep tables i cursor (front ++ last :: rest)) :
    Left key keep tables (i + 1) (some (key last)) rest := by
  have hbelow := filter_below key front rest last h.decreasing
  have hdecreasing := (List.pairwise_append.mp h.decreasing).2.1
  refine ⟨(List.pairwise_cons.mp hdecreasing).2, ?_, fun j hj row hrow => ?_⟩
  · rw [← hbelow]
    exact h.later (i + 1) (Nat.lt_succ_self i) last (by simp)
  · have hlater := h.later j (by omega) row (by simp [hrow])
    have hlt : key row < key last := List.rel_of_pairwise_cons hdecreasing hrow
    have hsame : (front ++ last :: rest).filter (fun other => decide (key other < key row)) =
        rest.filter fun other => decide (key other < key row) := by
      conv_rhs => rw [← hbelow]
      rw [List.filter_filter]
      refine List.filter_congr fun other _ => ?_
      by_cases hother : key other < key row
      · simp [hother, hother.trans hlt]
      · simp [hother]
    rwa [hsame] at hlater

theorem Left.follow (hlimit : 0 < limit) {i : ℕ} {cursor : Option κ} {rows : List Row}
    (h : Left key keep tables i cursor rows) (fuel : ℕ) (hfuel : rows.length < fuel) :
    ∃ pages, follow (page key keep out limit tables) fuel i cursor = some pages ∧
      pages.flatMap Page.items = rows.map out := by
  induction fuel generalizing i cursor rows with
  | zero => exact absurd hfuel (Nat.not_lt_zero _)
  | succ fuel ih =>
    have hpage : page key keep out limit tables i cursor =
        pageOf key out limit (rows.take (limit + 1)) := by rw [page, h.query]
    by_cases hmore : limit < rows.length
    · obtain ⟨front, last, hsplit⟩ : ∃ front last, rows.take limit = front ++ [last] := by
        refine ⟨_, _, (List.dropLast_append_getLast (l := rows.take limit) ?_).symm⟩
        rw [← List.length_pos_iff, List.length_take]
        omega
      have hrows : rows = front ++ last :: rows.drop limit := by
        conv_lhs => rw [← List.take_append_drop limit rows, hsplit]
        rw [List.append_assoc, List.singleton_append]
      have hshown : (rows.take (limit + 1)).take limit = front ++ [last] := by
        rw [List.take_take, Nat.min_eq_left (Nat.le_succ limit), hsplit]
      have hcount : limit < (rows.take (limit + 1)).length := by
        rw [List.length_take]
        omega
      have hleft : Left key keep tables (i + 1) (some (key last)) (rows.drop limit) := by
        rw [hrows] at h
        exact h.next
      obtain ⟨pages, hpages, hitems⟩ := ih hleft (by rw [List.length_drop]; omega)
      have hcursor : (page key keep out limit tables i cursor).nextCursor = some (key last) := by
        rw [hpage]
        simp only [pageOf, hshown, if_pos hcount, List.getLast?_concat, Option.map_some]
      have hfound : (page key keep out limit tables i cursor).items =
          (front ++ [last]).map out := by
        rw [hpage]
        simp only [pageOf, hshown]
      refine ⟨page key keep out limit tables i cursor :: pages, ?_, ?_⟩
      · rw [KeysetPages.follow]
        simp only [hcursor, hpages, Option.map_some]
      · rw [List.flatMap_cons, hfound, hitems, ← List.map_append, List.append_assoc,
          List.singleton_append, ← hrows]
    · have hall : rows.take (limit + 1) = rows := List.take_of_length_le (by omega)
      have hshown : rows.take limit = rows := List.take_of_length_le (by omega)
      have hcursor : (page key keep out limit tables i cursor).nextCursor = none := by
        rw [hpage]
        simp only [pageOf, hall, if_neg hmore]
      have hfound : (page key keep out limit tables i cursor).items = rows.map out := by
        rw [hpage]
        simp only [pageOf, hall, hshown]
      refine ⟨[page key keep out limit tables i cursor], ?_, ?_⟩
      · rw [KeysetPages.follow]
        simp only [hcursor]
      · rw [List.flatMap_cons, List.flatMap_nil, List.append_nil, hfound]

end Follow

/-- A table that only gets rows with keys above those that it has at first. -/
structure Grows (key : Row → κ) (tables : ℕ → List Row) : Prop where
  distinct : ((tables 0).map key).Nodup
  later : ∀ i, ∃ more, (tables i).Perm (tables 0 ++ more) ∧
    ∀ row ∈ more, ∀ old ∈ tables 0, key old < key row

theorem Grows.left (key : Row → κ) (keep : Row → Bool) (tables : ℕ → List Row)
    (h : Grows key tables) :
    Left key keep tables 0 none (descending key ((tables 0).filter keep)) := by
  have hperm := descending_perm key ((tables 0).filter keep)
  refine ⟨descending_decreasing key _ ?_, ?_, fun j _ last hlast => ?_⟩
  · exact h.distinct.sublist (List.filter_sublist.map key)
  · simp only [below, Bool.and_true]
    exact hperm.symm
  · obtain ⟨more, htable, hlarger⟩ := h.later j
    have hold : last ∈ tables 0 := (List.mem_filter.mp (hperm.mem_iff.mp hlast)).1
    have hnone : more.filter (fun row => keep row && below key (some (key last)) row) = [] := by
      refine List.filter_eq_nil_iff.mpr fun row hrow => ?_
      simp [below, (hlarger row hrow last hold).le]
    refine (htable.filter _).trans ?_
    rw [List.filter_append, hnone, List.append_nil]
    refine List.Perm.trans ?_ (hperm.filter _).symm
    rw [List.filter_filter]
    exact List.Perm.of_eq (List.filter_congr fun row _ => by simp [below, Bool.and_comm])

/-- All rows that are there at first and pass the filter are read, once and in order. -/
theorem Grows.follow (key : Row → κ) (keep : Row → Bool) (out : Row → Item) (limit : ℕ)
    (tables : ℕ → List Row) (h : Grows key tables) (hlimit : 0 < limit) :
    ∃ fuel pages rows, follow (page key keep out limit tables) fuel 0 none = some pages ∧
      rows.Perm ((tables 0).filter keep) ∧ Decreasing key rows ∧
        pages.flatMap Page.items = rows.map out := by
  have hleft := h.left key keep tables
  obtain ⟨pages, hpages, hitems⟩ := hleft.follow out limit hlimit _ (Nat.lt_succ_self _)
  exact ⟨_, pages, _, hpages, descending_perm key _, hleft.decreasing, hitems⟩

end Hyproxy.KeysetPages

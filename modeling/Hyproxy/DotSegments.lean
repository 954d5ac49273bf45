import Mathlib.Data.List.Basic
import Mathlib.Tactic.Common

/-!
Slash-separated paths and the removal of dot segments (RFC 3986, section
5.2.4). `removeDotSegments` follows the two-buffer loop of the RFC, step by
step; an absolute path is a list of slash-free segments, and on it the loop
is the stack machine `resolve`. Nothing here knows who sends or serves a path.
-/
namespace Hyproxy.DotSegments

abbrev Segment := List Char

/-- The absolute path with these segments: a slash before every one of them. -/
def absolute (segs : List Segment) : List Char := segs.flatMap (fun seg => '/' :: seg)

def segments (path : List Char) : List Segment := path.splitOn '/'

def IsDot (seg : Segment) : Prop := seg = ".".toList ∨ seg = "..".toList

instance : DecidablePred IsDot := fun seg => by
  unfold IsDot
  infer_instance

/-- No complete segment of the path is `.` or `..`. -/
def DotFree (path : List Char) : Prop := ∀ seg ∈ segments path, ¬ IsDot seg

instance : DecidablePred DotFree := fun path => by
  unfold DotFree
  infer_instance

/-- The last segment of the output buffer and the slash before it, if any, go. -/
def dropLastSegment (out : List Char) : List Char :=
  ((out.reverse.dropWhile (· ≠ '/')).drop 1).reverse

def firstSegment : List Char → List Char
  | [] => []
  | c :: rest => c :: rest.takeWhile (· ≠ '/')

def afterSegment : List Char → List Char
  | [] => []
  | _ :: rest => rest.dropWhile (· ≠ '/')

/-- Rules A to E of the RFC, with the input and the output buffer. -/
def removeDotLoop : ℕ → List Char → List Char → List Char
  | 0, _, out => out
  | fuel + 1, inp, out =>
    if inp = [] then out
    else if "../".toList <+: inp then removeDotLoop fuel (inp.drop 3) out
    else if "./".toList <+: inp then removeDotLoop fuel (inp.drop 2) out
    else if "/./".toList <+: inp then removeDotLoop fuel (inp.drop 2) out
    else if inp = "/.".toList then removeDotLoop fuel "/".toList out
    else if "/../".toList <+: inp then removeDotLoop fuel (inp.drop 3) (dropLastSegment out)
    else if inp = "/..".toList then removeDotLoop fuel "/".toList (dropLastSegment out)
    else if inp = ".".toList ∨ inp = "..".toList then removeDotLoop fuel [] out
    else removeDotLoop fuel (afterSegment inp) (out ++ firstSegment inp)

/-- Every round shortens the input, so its length bounds the rounds. -/
def removeDotSegments (path : List Char) : List Char :=
  removeDotLoop path.length path []

/-- What the loop does to the segments of an absolute path. -/
def resolve (outs : List Segment) : List Segment → List Segment
  | [] => outs
  | [seg] =>
    if seg = ".".toList then outs ++ [[]]
    else if seg = "..".toList then outs.dropLast ++ [[]]
    else outs ++ [seg]
  | seg :: next :: rest =>
    if seg = ".".toList then resolve outs (next :: rest)
    else if seg = "..".toList then resolve outs.dropLast (next :: rest)
    else resolve (outs ++ [seg]) (next :: rest)

@[simp] theorem absolute_nil : absolute [] = [] := rfl

@[simp] theorem absolute_cons (seg : Segment) (rest : List Segment) :
    absolute (seg :: rest) = '/' :: (seg ++ absolute rest) := by
  simp [absolute]

@[simp] theorem absolute_append (left right : List Segment) :
    absolute (left ++ right) = absolute left ++ absolute right := by
  simp [absolute]

theorem segments_slashFree (path : List Char) : ∀ seg ∈ segments path, '/' ∉ seg := by
  unfold segments
  induction path with
  | nil => simp
  | cons c rest ih =>
    rw [List.splitOn_cons_eq_if_modifyHead]
    split
    · intro seg hseg
      rcases List.mem_cons.mp hseg with rfl | hseg
      · simp
      · exact ih seg hseg
    · rename_i hc
      obtain ⟨head, tail, hsplit⟩ := List.exists_cons_of_ne_nil (List.splitOn_ne_nil '/' rest)
      rw [hsplit] at ih ⊢
      intro seg hseg
      simp only [List.modifyHead_cons, List.mem_cons] at hseg
      rcases hseg with rfl | hseg
      · have hne : ¬ '/' = c := fun h => hc (by simpa using h.symm)
        simp only [List.mem_cons, not_or]
        exact ⟨hne, ih head (by simp)⟩
      · exact ih seg (by simp [hseg])

@[simp] theorem segments_slash (path : List Char) :
    segments ('/' :: path) = [] :: segments path := by
  unfold segments
  rw [List.splitOn_cons_eq_if_modifyHead]
  simp

theorem segments_absolute (seg : Segment) (segs : List Segment)
    (hfree : ∀ s ∈ seg :: segs, '/' ∉ s) :
    segments (seg ++ absolute segs) = seg :: segs := by
  induction segs generalizing seg with
  | nil =>
    simpa [segments] using List.splitOn_eq_singleton (hfree seg (by simp))
  | cons next rest ih =>
    have hrest : ∀ s ∈ next :: rest, '/' ∉ s := fun s hs => hfree s (List.mem_cons_of_mem _ hs)
    rw [absolute_cons]
    unfold segments at ih ⊢
    rw [List.splitOn_append_cons_self_of_not_mem (hfree seg (by simp)), ih next hrest]

/-- Every path is its first segment followed by the absolute rest. -/
theorem path_eq_absolute (path : List Char) :
    ∃ seg rest, segments path = seg :: rest ∧ path = seg ++ absolute rest := by
  unfold segments
  induction path with
  | nil => exact ⟨[], [], by simp, by simp⟩
  | cons c tail ih =>
    obtain ⟨seg, rest, hsplit, htail⟩ := ih
    rw [List.splitOn_cons_eq_if_modifyHead, hsplit]
    by_cases hc : c = '/'
    · subst hc
      refine ⟨[], seg :: rest, by simp, ?_⟩
      simp only [List.nil_append, absolute_cons]
      rw [← htail]
    · refine ⟨c :: seg, rest, by simp [hc], ?_⟩
      rw [List.cons_append, ← htail]

theorem absolute_injective (left right : List Segment)
    (hleft : ∀ s ∈ left, '/' ∉ s) (hright : ∀ s ∈ right, '/' ∉ s)
    (heq : absolute left = absolute right) : left = right := by
  have hl := segments_absolute [] left (by simpa using hleft)
  have hr := segments_absolute [] right (by simpa using hright)
  rw [List.nil_append] at hl hr
  rw [heq, hr] at hl
  exact (List.cons.inj hl).2.symm

theorem slash_prefix_iff (word seg : Segment) (rest : List Segment) (hword : '/' ∉ word)
    (hfree : ∀ s ∈ seg :: rest, '/' ∉ s) :
    word ++ ['/'] <+: seg ++ absolute rest ↔ seg = word ∧ rest ≠ [] := by
  constructor
  · rintro ⟨tail, heq⟩
    have hsplit := segments_absolute seg rest hfree
    rw [← heq, List.append_assoc, List.singleton_append] at hsplit
    unfold segments at hsplit
    rw [List.splitOn_append_cons_self_of_not_mem hword] at hsplit
    obtain ⟨hseg, hrest⟩ := List.cons.inj hsplit
    exact ⟨hseg.symm, by rw [← hrest]; exact List.splitOn_ne_nil '/' tail⟩
  · rintro ⟨rfl, hne⟩
    obtain ⟨next, more, rfl⟩ := List.exists_cons_of_ne_nil hne
    exact ⟨next ++ absolute more, by simp⟩

theorem append_absolute_eq_iff (word seg : Segment) (rest : List Segment) (hword : '/' ∉ word)
    (hfree : ∀ s ∈ seg :: rest, '/' ∉ s) :
    seg ++ absolute rest = word ↔ seg = word ∧ rest = [] := by
  constructor
  · intro heq
    have hsplit := segments_absolute seg rest hfree
    rw [heq, segments, List.splitOn_eq_singleton hword] at hsplit
    obtain ⟨hseg, hrest⟩ := List.cons.inj hsplit
    exact ⟨hseg.symm, hrest.symm⟩
  · rintro ⟨rfl, rfl⟩
    simp

theorem takeWhile_segment (seg : Segment) (rest : List Segment) (hseg : '/' ∉ seg) :
    (seg ++ absolute rest).takeWhile (· ≠ '/') = seg := by
  induction seg with
  | nil => cases rest <;> simp
  | cons c tail ih =>
    simp only [List.mem_cons, not_or] at hseg
    have hc : c ≠ '/' := Ne.symm hseg.1
    simpa [hc] using ih hseg.2

theorem dropWhile_segment (seg : Segment) (rest : List Segment) (hseg : '/' ∉ seg) :
    (seg ++ absolute rest).dropWhile (· ≠ '/') = absolute rest := by
  induction seg with
  | nil => cases rest <;> simp
  | cons c tail ih =>
    simp only [List.mem_cons, not_or] at hseg
    have hc : c ≠ '/' := Ne.symm hseg.1
    simpa [hc] using ih hseg.2

theorem dropLastSegment_absolute (outs : List Segment) (hfree : ∀ s ∈ outs, '/' ∉ s) :
    dropLastSegment (absolute outs) = absolute outs.dropLast := by
  rcases List.eq_nil_or_concat outs with rfl | ⟨init, seg, rfl⟩
  · rfl
  · have hseg : '/' ∉ seg.reverse := by simpa using hfree seg (by simp)
    have hdrop : (seg.reverse ++ '/' :: (absolute init).reverse).dropWhile (· ≠ '/') =
        '/' :: (absolute init).reverse := by
      have hpos : ∀ c ∈ seg.reverse, decide (c ≠ '/') = true :=
        fun c hc => by simpa using fun h : c = '/' => hseg (h ▸ hc)
      rw [List.dropWhile_append_of_pos hpos]
      simp
    unfold dropLastSegment
    rw [List.concat_eq_append, absolute_append, List.reverse_append, absolute_cons, absolute_nil,
      List.append_nil, List.reverse_cons, List.append_assoc, List.singleton_append, hdrop]
    simp

/-- One round on an absolute path consumes its first segment. -/
theorem removeDotLoop_absolute_cons (fuel : ℕ) (seg : Segment) (rest : List Segment)
    (out : List Char) (hfree : ∀ s ∈ seg :: rest, '/' ∉ s) :
    removeDotLoop (fuel + 1) (absolute (seg :: rest)) out =
      if seg = ".".toList then
        removeDotLoop fuel (absolute (if rest = [] then [[]] else rest)) out
      else if seg = "..".toList then
        removeDotLoop fuel (absolute (if rest = [] then [[]] else rest)) (dropLastSegment out)
      else removeDotLoop fuel (absolute rest) (out ++ '/' :: seg) := by
  have hone := slash_prefix_iff ['.'] seg rest (by decide) hfree
  have htwo := slash_prefix_iff ['.', '.'] seg rest (by decide) hfree
  have hone' := append_absolute_eq_iff ['.'] seg rest (by decide) hfree
  have htwo' := append_absolute_eq_iff ['.', '.'] seg rest (by decide) hfree
  have hseg : '/' ∉ seg := hfree seg (by simp)
  simp only [List.cons_append, List.nil_append] at hone htwo
  have hdot : "/".toList = ['/'] ∧ ".".toList = ['.'] ∧ "..".toList = ['.', '.'] ∧
      "./".toList = ['.', '/'] ∧ "../".toList = ['.', '.', '/'] ∧ "/.".toList = ['/', '.'] ∧
      "/..".toList = ['/', '.', '.'] ∧ "/./".toList = ['/', '.', '/'] ∧
      "/../".toList = ['/', '.', '.', '/'] := by decide
  obtain ⟨e1, e2, e3, e4, e5, e6, e7, e8, e9⟩ := hdot
  rw [removeDotLoop, absolute_cons, e1, e2, e3, e4, e5, e6, e7, e8, e9]
  simp only [List.cons_prefix_cons, List.cons.injEq, reduceCtorEq, if_false, hone, htwo, hone',
    htwo', show ('.' = '/') = False by decide, show ('/' = '.') = False by decide, false_and,
    true_and, or_self]
  by_cases h1 : seg = ['.']
  · subst h1
    by_cases hrest : rest = []
    · subst hrest
      simp
    · simp [hrest]
  · by_cases h2 : seg = ['.', '.']
    · subst h2
      by_cases hrest : rest = []
      · subst hrest
        simp
      · simp [hrest]
    · simp only [h1, h2, false_and, if_false]
      rw [afterSegment, firstSegment, takeWhile_segment seg rest hseg,
        dropWhile_segment seg rest hseg]

theorem resolve_cons (outs : List Segment) (seg : Segment) (rest : List Segment) :
    resolve outs (seg :: rest) =
      if seg = ".".toList then resolve outs (if rest = [] then [[]] else rest)
      else if seg = "..".toList then resolve outs.dropLast (if rest = [] then [[]] else rest)
      else resolve (outs ++ [seg]) rest := by
  cases rest with
  | nil => simp [resolve]
  | cons next more => simp [resolve]

theorem removeDotLoop_nil (fuel : ℕ) (out : List Char) : removeDotLoop fuel [] out = out := by
  cases fuel <;> simp [removeDotLoop]

/-- On the segments of an absolute path the loop is the stack machine. -/
theorem removeDotLoop_absolute (fuel : ℕ) (segs outs : List Segment)
    (hsegs : ∀ s ∈ segs, '/' ∉ s) (houts : ∀ s ∈ outs, '/' ∉ s)
    (hfuel : (absolute segs).length ≤ fuel) :
    removeDotLoop fuel (absolute segs) (absolute outs) = absolute (resolve outs segs) := by
  induction fuel generalizing segs outs with
  | zero =>
    cases segs with
    | nil => rfl
    | cons seg rest => simp at hfuel
  | succ fuel ih =>
    cases segs with
    | nil => simp [removeDotLoop_nil, resolve]
    | cons seg rest =>
      have hlen : seg.length + (absolute rest).length ≤ fuel := by
        simp only [absolute_cons, List.length_cons, List.length_append] at hfuel
        omega
      have hnext : ∀ s ∈ (if rest = [] then [[]] else rest), '/' ∉ s := by
        split
        · simp
        · exact fun s hs => hsegs s (List.mem_cons_of_mem _ hs)
      have hshort : 0 < seg.length →
          (absolute (if rest = [] then [[]] else rest)).length ≤ fuel := by
        intro hpos
        split
        · simp
          omega
        · omega
      rw [removeDotLoop_absolute_cons fuel seg rest _ hsegs, resolve_cons]
      split
      · rename_i hdot
        exact ih _ outs hnext houts (hshort (by simp [hdot]))
      · split
        · rename_i hdot
          rw [dropLastSegment_absolute outs houts]
          exact ih _ outs.dropLast hnext
            (fun s hs => houts s (List.dropLast_subset outs hs)) (hshort (by simp [hdot]))
        · have hpush : absolute outs ++ '/' :: seg = absolute (outs ++ [seg]) := by simp
          rw [hpush]
          refine ih rest (outs ++ [seg]) (fun s hs => hsegs s (List.mem_cons_of_mem _ hs)) ?_
            (by omega)
          intro s hs
          rcases List.mem_append.mp hs with hs | hs
          · exact houts s hs
          · rw [List.mem_singleton] at hs
            exact hs ▸ hsegs seg (by simp)

/-- More fuel than characters changes nothing. -/
theorem removeDotLoop_succ (fuel : ℕ) (inp out : List Char) (h : inp.length ≤ fuel) :
    removeDotLoop (fuel + 1) inp out = removeDotLoop fuel inp out := by
  induction fuel generalizing inp out with
  | zero =>
    obtain rfl : inp = [] := by simpa using h
    rfl
  | succ fuel ih =>
    conv_lhs => rw [removeDotLoop]
    conv_rhs => rw [removeDotLoop]
    by_cases hempty : inp = []
    · rw [if_pos hempty, if_pos hempty]
    · have hpos : 0 < inp.length := List.length_pos_of_ne_nil hempty
      have hdrop : ∀ n out, 0 < n →
          removeDotLoop (fuel + 1) (inp.drop n) out = removeDotLoop fuel (inp.drop n) out := by
        intro n out hn
        refine ih _ out ?_
        rw [List.length_drop]
        omega
      have hroot : ∀ out, 2 ≤ inp.length →
          removeDotLoop (fuel + 1) "/".toList out = removeDotLoop fuel "/".toList out := by
        intro out hlength
        refine ih _ out ?_
        show 1 ≤ fuel
        omega
      have hafter : ∀ out, removeDotLoop (fuel + 1) (afterSegment inp) out =
          removeDotLoop fuel (afterSegment inp) out := by
        intro out
        refine ih _ out ?_
        cases inp with
        | nil => exact Nat.zero_le _
        | cons c rest =>
          have hle := (List.dropWhile_suffix (fun d : Char => decide (d ≠ '/')) (l := rest)).length_le
          rw [List.length_cons] at h
          rw [afterSegment]
          omega
      have hnil := ih [] out (Nat.zero_le _)
      rw [if_neg hempty, if_neg hempty, hdrop 3 out (by omega), hdrop 2 out (by omega),
        hdrop 3 (dropLastSegment out) (by omega), hafter, hnil]
      by_cases hB : inp = "/.".toList
      · rw [hroot out (by rw [hB]; decide)]
        by_cases hC : inp = "/..".toList
        · rw [hroot (dropLastSegment out) (by rw [hC]; decide)]
        · simp only [if_neg hC]
      · simp only [if_neg hB]
        by_cases hC : inp = "/..".toList
        · rw [hroot (dropLastSegment out) (by rw [hC]; decide)]
        · simp only [if_neg hC]

/-- A dot and a slash in front of a path go. -/
theorem removeDotSegments_dot (path : List Char) :
    removeDotSegments ('.' :: '/' :: path) = removeDotSegments path := by
  have hup : ¬ "../".toList <+: '.' :: '/' :: path := by
    intro h
    exact absurd (List.cons_prefix_cons.mp (List.cons_prefix_cons.mp h).2).1 (by decide)
  have hhere : "./".toList <+: '.' :: '/' :: path := ⟨path, rfl⟩
  rw [removeDotSegments, List.length_cons, List.length_cons, removeDotLoop, if_neg (by simp),
    if_neg hup, if_pos hhere]
  exact removeDotLoop_succ path.length path [] (Nat.le_refl _)

theorem removeDotSegments_absolute (segs : List Segment) (hfree : ∀ s ∈ segs, '/' ∉ s) :
    removeDotSegments (absolute segs) = absolute (resolve [] segs) := by
  simpa [removeDotSegments] using
    removeDotLoop_absolute (absolute segs).length segs [] hfree (by simp) (Nat.le_refl _)

theorem removeDotLoop_dotFree (fuel : ℕ) (segs : List Segment) (out : List Char)
    (hfree : ∀ s ∈ segs, '/' ∉ s) (hdot : ∀ s ∈ segs, ¬ IsDot s)
    (hfuel : (absolute segs).length ≤ fuel) :
    removeDotLoop fuel (absolute segs) out = out ++ absolute segs := by
  induction segs generalizing fuel out with
  | nil => simp [removeDotLoop_nil]
  | cons seg rest ih =>
    have hseg : ¬ IsDot seg := hdot seg (by simp)
    unfold IsDot at hseg
    rw [not_or] at hseg
    simp only [absolute_cons, List.length_cons, List.length_append] at hfuel
    obtain ⟨more, rfl⟩ : ∃ more, fuel = more + 1 := ⟨fuel - 1, by omega⟩
    rw [removeDotLoop_absolute_cons more seg rest out hfree, if_neg hseg.1, if_neg hseg.2,
      ih more (out ++ '/' :: seg) (fun s hs => hfree s (List.mem_cons_of_mem _ hs))
        (fun s hs => hdot s (List.mem_cons_of_mem _ hs)) (by omega)]
    simp

/-- The first round on a path that does not start with a slash moves its first
segment to the output, unless that segment is a dot segment. -/
theorem removeDotLoop_rootless (fuel : ℕ) (seg : Segment) (rest : List Segment) (out : List Char)
    (hne : seg ≠ []) (hfree : ∀ s ∈ seg :: rest, '/' ∉ s) (hdot : ¬ IsDot seg) :
    removeDotLoop (fuel + 1) (seg ++ absolute rest) out =
      removeDotLoop fuel (absolute rest) (out ++ seg) := by
  obtain ⟨c, tail, rfl⟩ := List.exists_cons_of_ne_nil hne
  have hseg : '/' ∉ c :: tail := hfree _ (by simp)
  have hc : ¬ c = '/' := fun h => hseg (by simp [h])
  have hone := slash_prefix_iff ".".toList (c :: tail) rest (by decide) hfree
  have htwo := slash_prefix_iff "..".toList (c :: tail) rest (by decide) hfree
  have hone' := append_absolute_eq_iff ".".toList (c :: tail) rest (by decide) hfree
  have htwo' := append_absolute_eq_iff "..".toList (c :: tail) rest (by decide) hfree
  unfold IsDot at hdot
  rw [not_or] at hdot
  have hslash : ∀ word : List Char, ¬ '/' :: word <+: c :: tail ++ absolute rest := by
    intro word h
    exact hc (List.cons_prefix_cons.mp h).1.symm
  have hslash' : ∀ word : List Char, ¬ c :: tail ++ absolute rest = '/' :: word := by
    intro word h
    exact hc (List.cons.inj h).1
  have hA : ¬ "../".toList <+: c :: tail ++ absolute rest := fun h => hdot.2 (htwo.mp h).1
  have hA' : ¬ "./".toList <+: c :: tail ++ absolute rest := fun h => hdot.1 (hone.mp h).1
  have hB : ¬ "/./".toList <+: c :: tail ++ absolute rest := hslash _
  have hB' : ¬ c :: tail ++ absolute rest = "/.".toList := hslash' _
  have hC : ¬ "/../".toList <+: c :: tail ++ absolute rest := hslash _
  have hC' : ¬ c :: tail ++ absolute rest = "/..".toList := hslash' _
  have hD : ¬ (c :: tail ++ absolute rest = ".".toList ∨ c :: tail ++ absolute rest = "..".toList) :=
    fun h => h.elim (fun h => hdot.1 (hone'.mp h).1) (fun h => hdot.2 (htwo'.mp h).1)
  rw [removeDotLoop, if_neg (by simp), if_neg hA, if_neg hA', if_neg hB, if_neg hB', if_neg hC,
    if_neg hC', if_neg hD]
  have htail : '/' ∉ tail := fun h => hseg (List.mem_cons_of_mem _ h)
  rw [List.cons_append, afterSegment, firstSegment, takeWhile_segment tail rest htail,
    dropWhile_segment tail rest htail]

/-- A path without dot segments, rooted or not, is its own normal form. -/
theorem removeDotSegments_dotFree (path : List Char) (hdot : DotFree path) :
    removeDotSegments path = path := by
  obtain ⟨seg, rest, hsplit, hpath⟩ := path_eq_absolute path
  have hfree : ∀ s ∈ seg :: rest, '/' ∉ s := hsplit ▸ segments_slashFree path
  have hdots : ∀ s ∈ seg :: rest, ¬ IsDot s := fun s hs => hdot s (hsplit ▸ hs)
  have hrest : ∀ s ∈ rest, '/' ∉ s := fun s hs => hfree s (List.mem_cons_of_mem _ hs)
  have hrestDot : ∀ s ∈ rest, ¬ IsDot s := fun s hs => hdots s (List.mem_cons_of_mem _ hs)
  rw [hpath, removeDotSegments]
  by_cases hseg : seg = []
  · subst hseg
    simpa using removeDotLoop_dotFree (absolute rest).length rest [] hrest hrestDot (Nat.le_refl _)
  · have hpos : 0 < seg.length := List.length_pos_of_ne_nil hseg
    obtain ⟨fuel, hfuel⟩ : ∃ fuel, (seg ++ absolute rest).length = fuel + 1 :=
      ⟨(seg ++ absolute rest).length - 1, by simp; omega⟩
    rw [List.length_append] at hfuel
    rw [List.length_append, hfuel, removeDotLoop_rootless fuel seg rest [] hseg hfree
      (hdots seg (by simp)), List.nil_append,
      removeDotLoop_dotFree fuel rest seg hrest hrestDot (by omega)]

theorem resolve_slashFree (outs segs : List Segment) (houts : ∀ s ∈ outs, '/' ∉ s)
    (hsegs : ∀ s ∈ segs, '/' ∉ s) : ∀ s ∈ resolve outs segs, '/' ∉ s := by
  fun_induction resolve outs segs with
  | case1 => exact houts
  | case2 outs => simpa [or_imp, forall_and] using houts
  | case3 outs hne =>
    intro s hs
    rcases List.mem_append.mp hs with hs | hs
    · exact houts s (List.dropLast_subset outs hs)
    · simp_all
  | case4 outs seg hdot hdots => simpa [or_imp, forall_and] using ⟨houts, hsegs seg (by simp)⟩
  | case5 outs next rest ih =>
    exact ih houts (fun s hs => hsegs s (List.mem_cons_of_mem _ hs))
  | case6 outs next rest hne ih =>
    exact ih (fun s hs => houts s (List.dropLast_subset outs hs))
      (fun s hs => hsegs s (List.mem_cons_of_mem _ hs))
  | case7 outs seg next rest hdot hdots ih =>
    refine ih ?_ (fun s hs => hsegs s (List.mem_cons_of_mem _ hs))
    simpa [or_imp, forall_and] using ⟨houts, hsegs seg (by simp)⟩

theorem resolve_length_le (outs segs : List Segment) :
    (resolve outs segs).length ≤ outs.length + segs.length := by
  fun_induction resolve outs segs <;> simp_all <;> omega

/-- A dot segment that is not the last one costs at least its own place. -/
theorem resolve_length_lt (outs segs : List Segment) (hdot : ∃ s ∈ segs, IsDot s)
    (hlast : ∀ s ∈ segs.getLast?, ¬ IsDot s) :
    (resolve outs segs).length < outs.length + segs.length := by
  induction segs generalizing outs with
  | nil => simp at hdot
  | cons seg rest ih =>
    cases rest with
    | nil =>
      obtain ⟨s, hs, hsdot⟩ := hdot
      rw [List.mem_singleton] at hs
      exact absurd hsdot (hlast s (by simp [hs]))
    | cons next more =>
      have hlast' : ∀ s ∈ (next :: more).getLast?, ¬ IsDot s := by
        simpa only [List.getLast?_cons_cons] using hlast
      have hle := resolve_length_le outs (next :: more)
      have hle' := resolve_length_le outs.dropLast (next :: more)
      rw [resolve]
      simp only [List.length_cons, List.length_dropLast] at hle hle' ⊢
      split
      · omega
      · split
        · omega
        · rename_i h1 h2
          have hrest : ∃ s ∈ next :: more, IsDot s := by
            obtain ⟨s, hs, hsdot⟩ := hdot
            rcases List.mem_cons.mp hs with rfl | hs
            · exact absurd hsdot (not_or.mpr ⟨h1, h2⟩)
            · exact ⟨s, hs, hsdot⟩
          have := ih (outs ++ [seg]) hrest hlast'
          simp only [List.length_append, List.length_cons, List.length_nil] at this
          omega

/-- A path that ends in a dot segment names a directory. -/
theorem resolve_getLast_of_dot (outs segs : List Segment)
    (hlast : ∃ s ∈ segs.getLast?, IsDot s) : (resolve outs segs).getLast? = some [] := by
  fun_induction resolve outs segs with
  | case1 => simp at hlast
  | case2 => simp
  | case3 => simp
  | case4 outs seg hdot hdots =>
    obtain ⟨s, hs, hsdot⟩ := hlast
    obtain rfl : s = seg := by simpa using hs.symm
    exact absurd hsdot (not_or.mpr ⟨hdot, hdots⟩)
  | case5 outs next rest ih =>
    exact ih (by simpa only [List.getLast?_cons_cons] using hlast)
  | case6 outs next rest hne ih =>
    exact ih (by simpa only [List.getLast?_cons_cons] using hlast)
  | case7 outs seg next rest hdot hdots ih =>
    exact ih (by simpa only [List.getLast?_cons_cons] using hlast)

end Hyproxy.DotSegments

import Hyproxy.RequestTarget
import Hyproxy.Text
import Mathlib.Data.Char
import Mathlib.Data.List.Dedup
import Mathlib.Data.List.Lex
import Mathlib.Data.List.Nodup

/-!
Query strings in Go. `parseQuery` skips what it cannot decode and every part
with a semicolon; a reverse proxy sends a query on as it is when nothing would
be skipped, and otherwise writes the parsed parameters anew, sorted by key. The
values of one key keep their order either way.
-/
namespace Hyproxy.UrlQuery

open PercentCoding RequestTarget Text

abbrev Param := List Char × List Char

def plusToSpace (s : List Char) : List Char := s.map (fun c => if c = '+' then ' ' else c)

def queryUnescape (s : List Char) : Option (List Char) := unescape (plusToSpace s)

def parseParam (part : List Char) : Option Param :=
  if ';' ∈ part ∨ part = [] then none
  else
    match queryUnescape (cut '=' part).1, queryUnescape (cut '=' part).2 with
    | some key, some value => some (key, value)
    | _, _ => none

def params (query : List Char) : List Param := (query.splitOn '&').filterMap parseParam

/-- `parseQuery` under the limit `urlmaxqueryparams`; zero lifts it. -/
def parseQuery (maxParams : ℕ) (query : List Char) : List Param :=
  if maxParams ≠ 0 ∧ maxParams < query.count '&' + 1 then [] else params query

def valuesOf (ps : List Param) (key : List Char) : List (List Char) :=
  (ps.filter (fun p => p.1 = key)).map Prod.snd

/-- `Values.Get`: the first value of the key, or nothing. -/
def getFirst (ps : List Param) (key : List Char) : List Char := (valuesOf ps key).head?.getD []

def queryEscape (s : List Char) : List Char :=
  s.flatMap (fun c => if c = ' ' then ['+'] else if unreserved c then [c] else escapeByte c)

def sortedKeys (ps : List Param) : List (List Char) :=
  (ps.map Prod.fst).dedup.mergeSort (fun a b => decide (a ≤ b))

def encodeParam (p : Param) : List Char := queryEscape p.1 ++ '=' :: queryEscape p.2

/-- The parameters by key, in the order in which `Values.Encode` writes them. -/
def grouped (ps : List Param) : List Param :=
  (sortedKeys ps).flatMap (fun key => (valuesOf ps key).map (fun value => (key, value)))

def encode (ps : List Param) : List Char := ['&'].intercalate ((grouped ps).map encodeParam)

/-- Nothing in the query would be skipped or misread. -/
def Clean (query : List Char) : Prop := ';' ∉ query ∧ (unescape query).isSome

instance (query : List Char) : Decidable (Clean query) := by
  unfold Clean
  infer_instance

def cleanQueryParams (maxParams : ℕ) (query : List Char) : List Char :=
  if Clean query then query else encode (parseQuery maxParams query)

theorem escaped_char (s : List Char) (hs : ∀ c ∈ s, IsByte c) :
    ∀ c ∈ queryEscape s, unreserved c = true ∨ c = '+' ∨ c = '%' := by
  intro c hc
  obtain ⟨d, hd, hc⟩ := List.mem_flatMap.mp hc
  split at hc
  · simp_all
  · split at hc
    · simp_all
    · have hhex : ∀ n < 16, unreserved (hexDigit n) = true := by decide
      have hbyte := hs d hd
      unfold IsByte at hbyte
      simp only [escapeByte, List.mem_cons, List.not_mem_nil, or_false] at hc
      rcases hc with rfl | rfl | rfl
      · exact Or.inr (Or.inr rfl)
      · exact Or.inl (hhex _ (by omega))
      · exact Or.inl (hhex _ (by omega))

theorem queryEscape_free (s : List Char) (hs : ∀ c ∈ s, IsByte c) (sep : Char)
    (hsep : sep ∈ ['&', '=', ';']) : sep ∉ queryEscape s := by
  intro hmem
  have htable : ∀ d ∈ ['&', '=', ';'], ¬ (unreserved d = true ∨ d = '+' ∨ d = '%') :=
    List.all_iff_forall_prop.mp (by decide)
  exact htable sep hsep (escaped_char s hs sep hmem)

theorem plusToSpace_append (left right : List Char) :
    plusToSpace (left ++ right) = plusToSpace left ++ plusToSpace right := by
  simp [plusToSpace]

theorem plusToSpace_escapeByte (c : Char) (hc : IsByte c) :
    plusToSpace (escapeByte c) = escapeByte c := by
  have hhex : ∀ n < 16, ¬ hexDigit n = '+' := by decide
  unfold IsByte at hc
  simp [plusToSpace, escapeByte, hhex (c.toNat / 16) (by omega), hhex (c.toNat % 16) (by omega)]

theorem queryUnescape_queryEscape (s : List Char) (hs : ∀ c ∈ s, IsByte c) :
    queryUnescape (queryEscape s) = some s := by
  unfold queryUnescape
  induction s with
  | nil => rfl
  | cons c rest ih =>
    have hrest := ih (fun d hd => hs d (List.mem_cons_of_mem _ hd))
    have hc : IsByte c := hs c (by simp)
    have hcons : queryEscape (c :: rest) =
        (if c = ' ' then ['+'] else if unreserved c then [c] else escapeByte c) ++
          queryEscape rest := by
      simp [queryEscape]
    rw [hcons, plusToSpace_append]
    split
    · rename_i hspace
      rw [show plusToSpace ['+'] = [' '] by decide, List.singleton_append,
        unescape_plain _ _ (by decide), hrest, hspace]
      rfl
    · split
      · rename_i hun
        have hplus : c ≠ '+' ∧ c ≠ '%' := by
          constructor <;> rintro rfl <;> revert hun <;> decide
        rw [show plusToSpace [c] = [c] by simp [plusToSpace, hplus.1], List.singleton_append,
          unescape_plain _ _ hplus.2, hrest]
        rfl
      · rw [plusToSpace_escapeByte c hc, unescape_escapeByte c _ hc, hrest]
        rfl

/-- A byte pair that was written reads back. -/
theorem parseParam_encodeParam (p : Param) (hkey : ∀ c ∈ p.1, IsByte c)
    (hvalue : ∀ c ∈ p.2, IsByte c) :
    parseParam (encodeParam p) = some p ∧ '&' ∉ encodeParam p ∧ ';' ∉ encodeParam p := by
  have hfree : ∀ sep ∈ ['&', ';'], sep ∉ encodeParam p := by
    intro sep hsep
    unfold encodeParam
    rw [List.mem_append, List.mem_cons, not_or, not_or]
    have hne : sep ≠ '=' := by
      rintro rfl
      revert hsep
      decide
    have hsep' : sep ∈ ['&', '=', ';'] := by
      simp only [List.mem_cons, List.not_mem_nil, or_false] at hsep ⊢
      tauto
    exact ⟨queryEscape_free p.1 hkey sep hsep', hne, queryEscape_free p.2 hvalue sep hsep'⟩
  refine ⟨?_, hfree _ (by simp), hfree _ (by simp)⟩
  have hcut : cut '=' (encodeParam p) = (queryEscape p.1, queryEscape p.2) :=
    cut_append '=' _ _ (queryEscape_free p.1 hkey '=' (by simp))
  have hne : encodeParam p ≠ [] := by simp [encodeParam]
  have hsemi : ';' ∉ encodeParam p := hfree _ (by simp)
  simp [parseParam, hne, hsemi, hcut, queryUnescape_queryEscape _ hkey,
    queryUnescape_queryEscape _ hvalue]

def Bytes (ps : List Param) : Prop :=
  ∀ p ∈ ps, (∀ c ∈ p.1, IsByte c) ∧ ∀ c ∈ p.2, IsByte c

theorem params_intercalate (ps : List Param) (hbytes : Bytes ps) :
    params (['&'].intercalate (ps.map encodeParam)) = ps := by
  by_cases hnil : ps = []
  · subst hnil
    rfl
  · have hfree : ∀ part ∈ ps.map encodeParam, '&' ∉ part := by
      intro part hpart
      obtain ⟨p, hp, rfl⟩ := List.mem_map.mp hpart
      exact (parseParam_encodeParam p (hbytes p hp).1 (hbytes p hp).2).2.1
    have hread : ∀ p ∈ ps, (parseParam ∘ encodeParam) p = some p := fun p hp =>
      (parseParam_encodeParam p (hbytes p hp).1 (hbytes p hp).2).1
    rw [params, List.splitOn_intercalate '&' hfree (by simpa using hnil), List.filterMap_map,
      List.filterMap_congr hread]
    exact List.filterMap_some

theorem valuesOf_flatMap (ps : List Param) (keys : List (List Char)) (hnodup : keys.Nodup)
    (key : List Char) :
    valuesOf (keys.flatMap (fun k => (valuesOf ps k).map (fun value => (k, value)))) key =
      if key ∈ keys then valuesOf ps key else [] := by
  induction keys with
  | nil => rfl
  | cons k rest ih =>
    obtain ⟨hk, hrest⟩ := List.nodup_cons.mp hnodup
    have hone : ∀ values : List (List Char), valuesOf (values.map (fun value => (k, value))) key =
        if k = key then values else [] := by
      intro values
      by_cases heq : k = key
      · simp [valuesOf, heq, List.filter_map, Function.comp_def]
      · simp [valuesOf, heq]
    have hsplit : ∀ left right, valuesOf (left ++ right) key =
        valuesOf left key ++ valuesOf right key := by
      intro left right
      simp [valuesOf]
    rw [List.flatMap_cons, hsplit, hone, ih hrest]
    by_cases hkey : k = key
    · subst hkey
      simp [hk]
    · have hkey' : ¬ key = k := fun h => hkey h.symm
      simp [hkey, hkey']

theorem valuesOf_grouped (ps : List Param) (key : List Char) :
    valuesOf (grouped ps) key = valuesOf ps key := by
  have hperm : (sortedKeys ps).Perm (ps.map Prod.fst).dedup := List.mergeSort_perm _ _
  rw [grouped, valuesOf_flatMap ps _ (hperm.nodup_iff.mpr (List.nodup_dedup _)) key]
  split
  · rfl
  · rename_i hkey
    rw [hperm.mem_iff, List.mem_dedup] at hkey
    have hnone : ps.filter (fun p => p.1 = key) = [] := by
      rw [List.filter_eq_nil_iff]
      intro p hp
      simp only [decide_eq_true_eq]
      rintro rfl
      exact hkey (List.mem_map_of_mem hp)
    rw [valuesOf, hnone]
    rfl

theorem queryUnescape_bytes (s out : List Char) (hs : ∀ c ∈ s, IsByte c)
    (h : queryUnescape s = some out) : ∀ c ∈ out, IsByte c := by
  refine unescape_bytes _ out (fun c hc => ?_) h
  obtain ⟨d, hd, rfl⟩ := List.mem_map.mp hc
  split
  · decide
  · exact hs d hd

theorem params_bytes (query : List Char) (hquery : ∀ c ∈ query, IsByte c) :
    Bytes (params query) := by
  intro p hp
  obtain ⟨part, hpart, hparse⟩ := List.mem_filterMap.mp hp
  have hbytes : ∀ c ∈ part, IsByte c := fun c hc =>
    hquery c (Text.mem_of_mem_splitOn query '&' part hpart c hc)
  unfold parseParam at hparse
  split at hparse
  · cases hparse
  · split at hparse
    · rename_i key value hkey hvalue
      obtain rfl := Option.some.inj hparse
      refine ⟨queryUnescape_bytes _ key (fun c hc => hbytes c ?_) hkey,
        queryUnescape_bytes _ value (fun c hc => hbytes c ?_) hvalue⟩
      · exact (List.takeWhile_prefix _).subset hc
      · exact (List.dropWhile_suffix _).subset (List.drop_subset 1 _ hc)
    · cases hparse

theorem grouped_bytes (ps : List Param) (hbytes : Bytes ps) : Bytes (grouped ps) := by
  intro p hp
  obtain ⟨key, -, hp⟩ := List.mem_flatMap.mp hp
  obtain ⟨value, hvalue, rfl⟩ := List.mem_map.mp hp
  obtain ⟨q, hq, rfl⟩ := List.mem_map.mp hvalue
  obtain ⟨hmem, hkey⟩ := List.mem_filter.mp hq
  have hkey' : q.1 = key := by simpa using hkey
  exact ⟨hkey' ▸ (hbytes q hmem).1, (hbytes q hmem).2⟩

/-- The proxy keeps every value of every key, in order. -/
theorem valuesOf_cleanQueryParams (maxParams : ℕ) (query : List Char)
    (hquery : ∀ c ∈ query, IsByte c) (hlimit : parseQuery maxParams query = params query)
    (key : List Char) :
    valuesOf (params (cleanQueryParams maxParams query)) key = valuesOf (params query) key := by
  unfold cleanQueryParams
  split
  · rfl
  · rw [hlimit, encode, params_intercalate _ (grouped_bytes _ (params_bytes query hquery)),
      valuesOf_grouped]

theorem queryEscape_decodes (s : List Char) (hs : ∀ c ∈ s, IsByte c) :
    (unescape (queryEscape s)).isSome := by
  induction s with
  | nil => rfl
  | cons c rest ih =>
    have hrest := ih (fun d hd => hs d (List.mem_cons_of_mem _ hd))
    have hcons : queryEscape (c :: rest) =
        (if c = ' ' then ['+'] else if unreserved c then [c] else escapeByte c) ++
          queryEscape rest := by
      simp [queryEscape]
    rw [hcons]
    split
    · rw [List.singleton_append, unescape_plain _ _ (by decide), Option.isSome_map]
      exact hrest
    · split
      · rename_i hun
        have hpct : c ≠ '%' := by
          rintro rfl
          revert hun
          decide
        rw [List.singleton_append, unescape_plain _ _ hpct, Option.isSome_map]
        exact hrest
      · rw [unescape_escapeByte c _ (hs c (by simp)), Option.isSome_map]
        exact hrest

theorem unescape_isSome_append (left right : List Char) (hleft : (unescape left).isSome)
    (hright : (unescape right).isSome) : (unescape (left ++ right)).isSome := by
  obtain ⟨out, hout⟩ := Option.isSome_iff_exists.mp hleft
  rw [unescape_append left right out hout, Option.isSome_map]
  exact hright

theorem clean_intercalate (ps : List Param) (hbytes : Bytes ps) :
    Clean (['&'].intercalate (ps.map encodeParam)) := by
  induction ps with
  | nil => exact ⟨by simp, rfl⟩
  | cons p rest ih =>
    obtain ⟨hsemi, hsome⟩ := ih (fun q hq => hbytes q (List.mem_cons_of_mem _ hq))
    obtain ⟨hkey, hvalue⟩ := hbytes p (by simp)
    have hfree := (parseParam_encodeParam p hkey hvalue).2.2
    have hdecodes : (unescape (encodeParam p)).isSome := by
      refine unescape_isSome_append _ _ (queryEscape_decodes p.1 hkey) ?_
      rw [unescape_plain _ _ (by decide), Option.isSome_map]
      exact queryEscape_decodes p.2 hvalue
    cases rest with
    | nil =>
      rw [List.map_singleton, List.intercalate_singleton]
      exact ⟨hfree, hdecodes⟩
    | cons q more =>
      rw [List.map_cons, List.map_cons, List.intercalate_cons_cons, ← List.map_cons]
      refine ⟨?_, ?_⟩
      · simp only [List.mem_append, List.mem_singleton, not_or]
        exact ⟨⟨hfree, by decide⟩, hsemi⟩
      · exact unescape_isSome_append _ _
          (unescape_isSome_append _ _ hdecodes (by decide)) hsome

theorem clean_cleanQueryParams (maxParams : ℕ) (query : List Char)
    (hquery : ∀ c ∈ query, IsByte c) : Clean (cleanQueryParams maxParams query) := by
  unfold cleanQueryParams
  split
  · assumption
  · refine clean_intercalate _ (grouped_bytes _ ?_)
    unfold parseQuery
    split
    · intro p hp
      cases hp
    · exact params_bytes query hquery

end Hyproxy.UrlQuery

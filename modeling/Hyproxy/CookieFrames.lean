import Hyproxy.Cookies

/-!
The cookie pairs of a header as they are written, and what becomes of them where one cookie is
removed: the others are read and written again, so a pair stays only when it is written the way
the library writes it.
-/
namespace Hyproxy.CookieFrames

open Cookies HttpHeader Text

/-- The pairs of one line, without the white space around them. -/
def pieces (line : List Char) : List (List Char) :=
  (((trimString line).splitOn ';').map trimString).filter (· ≠ [])

/-- The cookie pairs of a header, in the order in which they are written. -/
def pairs (lines : List (List Char)) : List (List Char) := lines.flatMap pieces

/-- The name in a pair. -/
def pairName (pair : List Char) : List Char := trimString (cut '=' pair).1

/-- A pair that the library writes as it is: a name that is a token, and either a value of plain
characters without a space or a comma, or one between double quotes. -/
def Plain (pair : List Char) : Prop :=
  ∃ name raw, pair = name ++ '=' :: raw ∧ isToken name = true ∧
    ((raw.all validCookieValueByte = true ∧ ' ' ∉ raw ∧ ',' ∉ raw) ∨
      ∃ value, raw = '"' :: (value ++ ['"']) ∧ value.all validCookieValueByte = true)

/-- A pair that was read and is written again. -/
def rewritten (pair : List Char) : Option (List Char) := (readPart pair).map Cookie.toText

/-! ### Reading the pairs -/

theorem readPart_trimString (part : List Char) : readPart (trimString part) = readPart part := by
  have htrim : trimString (trimString part) = trimString part := trim_trim isAsciiSpace part
  rw [readPart, htrim, ← readPart]

theorem readPart_nil (part : List Char) (h : trimString part = []) : readPart part = none := by
  rw [readPart, h]
  rfl

theorem cookiePairs_eq (lines : List (List Char)) :
    cookiePairs lines = (pairs lines).filterMap readPart := by
  have hparts : ∀ parts : List (List Char),
      parts.filterMap readPart = ((parts.map trimString).filter (· ≠ [])).filterMap readPart := by
    intro parts
    induction parts with
    | nil => rfl
    | cons part rest ih =>
      by_cases hempty : trimString part = []
      · rw [List.filterMap_cons_none (readPart_nil part hempty), List.map_cons,
          List.filter_cons_of_neg (by simpa using hempty), ih]
      · rw [List.map_cons, List.filter_cons_of_pos (by simpa using hempty), List.filterMap_cons,
          List.filterMap_cons, readPart_trimString, ih]
  rw [cookiePairs, pairs, List.filterMap_flatMap]
  exact List.flatMap_congr fun line _ => hparts _

theorem mem_pairs (lines : List (List Char)) (pair : List Char) (h : pair ∈ pairs lines) :
    trimString pair = pair := by
  obtain ⟨line, -, hline⟩ := List.mem_flatMap.mp h
  obtain ⟨part, -, rfl⟩ := List.mem_map.mp (List.mem_of_mem_filter hline)
  exact trim_trim isAsciiSpace part

theorem readPart_name (pair : List Char) (htrim : trimString pair = pair) (c : Cookie)
    (h : readPart pair = some c) : c.name = pairName pair := by
  simp only [readPart, htrim] at h
  split_ifs at h
  obtain ⟨p, -, rfl⟩ := Option.map_eq_some_iff.mp h
  rfl

/-! ### What is written as it is -/

theorem rewritten_pair (name raw : List Char) (hname : isToken name = true)
    (hraw : ∀ d ∈ raw.getLast?, isAsciiSpace d = false) (value : List Char) (quoted : Bool)
    (hparse : parseCookieValue raw = some (value, quoted)) :
    rewritten (name ++ '=' :: raw) = some (name ++ '=' :: sanitizeCookieValue value quoted) := by
  rw [rewritten, (readPart_pair name raw hname hraw).1, hparse]
  simp only [Option.map_some, Cookie.toText, if_pos hname]

theorem sanitize_valid (value : List Char) (quoted : Bool)
    (hvalid : value.all validCookieValueByte = true) : sanitizeCookieValue value quoted =
      if value.any (fun c => c == ' ' || c == ',') || quoted then '"' :: (value ++ ['"'])
      else value := by
  have hfilter : value.filter validCookieValueByte = value :=
    List.filter_eq_self.mpr (List.all_eq_true.mp hvalid)
  rw [sanitizeCookieValue, hfilter]

/-- A pair is written as it is exactly when it is plain. -/
theorem rewritten_iff (pair : List Char) : rewritten pair = some pair ↔ Plain pair := by
  constructor
  · intro h
    obtain ⟨c, hread, htext⟩ := Option.map_eq_some_iff.mp h
    have hc := wf_of_readPart pair c hread
    rw [toText_eq c hc, sanitize_valid c.value c.quoted hc.valid] at htext
    refine ⟨c.name, _, htext.symm, hc.token, ?_⟩
    split_ifs with hquotes
    · exact .inr ⟨c.value, rfl, hc.valid⟩
    · simp only [Bool.or_eq_true, List.any_eq_true, beq_iff_eq, not_or] at hquotes
      exact .inl ⟨hc.valid, fun h => hquotes.1 ⟨' ', h, .inl rfl⟩,
        fun h => hquotes.1 ⟨',', h, .inr rfl⟩⟩
  · rintro ⟨name, raw, rfl, hname, ⟨hvalid, hspace, hcomma⟩ | ⟨value, rfl, hvalid⟩⟩
    · have hlast : ∀ d ∈ raw.getLast?, isAsciiSpace d = false := by
        intro d hd
        have hmem := List.mem_of_mem_getLast? hd
        refine (validCookieValueByte_plain d (List.all_eq_true.mp hvalid d hmem)).2.2 ?_
        rintro rfl
        exact hspace hmem
      have hquotes : ¬ (raw.any (fun c => c == ' ' || c == ',') || false) = true := by
        simp only [Bool.or_false, List.any_eq_true, Bool.or_eq_true, beq_iff_eq]
        rintro ⟨c, hc, rfl | rfl⟩
        · exact hspace hc
        · exact hcomma hc
      rw [rewritten_pair name raw hname hlast raw false (parseCookieValue_plain raw hvalid),
        sanitize_valid raw false hvalid, if_neg hquotes]
    · have hlast : ∀ d ∈ ('"' :: (value ++ ['"'])).getLast?, isAsciiSpace d = false := by
        intro d hd
        rw [← List.cons_append, List.getLast?_concat] at hd
        obtain rfl := Option.some.inj hd
        decide
      rw [rewritten_pair name _ hname hlast value true (parseCookieValue_quoted value hvalid),
        sanitize_valid value true hvalid, if_pos (Bool.or_true _)]

/-! ### The frame -/

theorem filterMap_eq_self (f : List Char → Option (List Char)) (texts : List (List Char)) :
    texts.filterMap f = texts ↔ ∀ t ∈ texts, f t = some t := by
  induction texts with
  | nil => simp
  | cons t rest ih =>
    rw [List.forall_mem_cons, ← ih]
    cases hf : f t with
    | none =>
      rw [List.filterMap_cons_none hf]
      have hlength := List.length_filterMap_le f rest
      refine iff_of_false (fun h => ?_) (by simp)
      rw [h, List.length_cons] at hlength
      omega
    | some u => rw [List.filterMap_cons_some hf, List.cons.injEq, Option.some.injEq]

theorem pairs_keptLines (cookies : List Cookie) (hwf : ∀ c ∈ cookies, Wf c) :
    pairs (keptLines cookies) = cookies.map Cookie.toText := by
  have hends := texts_ends cookies hwf
  cases cookies with
  | nil => rfl
  | cons c cookies =>
    rw [keptLines, if_neg (List.cons_ne_nil c cookies), pairs, List.flatMap_singleton, pieces]
    rw [List.map_cons] at hends ⊢
    have hsame : ∀ t ∈ c.toText :: cookies.map Cookie.toText, trimString t = t :=
      fun t ht => trim_eq_self _ _ (hends t ht).1 (hends t ht).2.1
    have hspace : ((cookies.map Cookie.toText).map fun t => ' ' :: t).map trimString =
        cookies.map Cookie.toText := by
      rw [List.map_map]
      refine (List.map_congr_left fun t ht => ?_).trans (List.map_id _)
      exact (trimString_space t).trans (hsame t (List.mem_cons_of_mem _ ht))
    rw [split_join _ _ hends, List.map_cons, hsame c.toText List.mem_cons_self, hspace]
    exact List.filter_eq_self.mpr fun t ht => by simpa using (hends t ht).2.2.1

/-- The cookies of other names, read from the pairs of other names. -/
theorem others_eq (lines : List (List Char)) (name : List Char) :
    ((cookiePairs lines).filter (fun c => c.name ≠ name)).map Cookie.toText =
      ((pairs lines).filter (fun pair => pairName pair ≠ name)).filterMap rewritten := by
  have htrim := mem_pairs lines
  rw [cookiePairs_eq]
  generalize pairs lines = texts at htrim
  induction texts with
  | nil => rfl
  | cons t rest ih =>
    obtain ⟨ht, hrest⟩ := List.forall_mem_cons.mp htrim
    have ih := ih hrest
    cases hread : readPart t with
    | none =>
      have hnone : rewritten t = none := by rw [rewritten, hread, Option.map_none]
      rw [List.filterMap_cons_none hread, ih, List.filter_cons]
      split_ifs
      · rw [List.filterMap_cons_none hnone]
      · rfl
    | some c =>
      have hname := readPart_name t ht c hread
      have hsome : rewritten t = some c.toText := by rw [rewritten, hread, Option.map_some]
      rw [List.filterMap_cons_some hread, List.filter_cons, List.filter_cons, hname]
      split_ifs
      · rw [List.map_cons, ih, List.filterMap_cons_some hsome]
      · exact ih

/-- Where one cookie is removed, the others stay byte by byte and in order exactly when each of
them is written the way the library writes it. -/
theorem extractCookie_frame (maxNum : ℕ) (h : Header) (name : List Char) (hname : name ≠ [])
    (hstrip : Strips maxNum (h "Cookie".toList) name) :
    pairs ((extractCookie maxNum h name).2 "Cookie".toList) =
        (pairs (h "Cookie".toList)).filter (fun pair => pairName pair ≠ name) ↔
      ∀ pair ∈ pairs (h "Cookie".toList), pairName pair ≠ name → Plain pair := by
  have hwf : ∀ c ∈ (cookiePairs (h "Cookie".toList)).filter (fun c => c.name ≠ name), Wf c :=
    fun c hc => wf_of_mem_cookiePairs _ c (List.mem_of_mem_filter hc)
  rw [extractCookie_lines maxNum h name hname hstrip, pairs_keptLines _ hwf, others_eq,
    filterMap_eq_self]
  simp only [List.mem_filter, rewritten_iff, decide_eq_true_eq, and_imp]

def cookieHeader (line : List Char) : Header :=
  fun key => if key = "Cookie".toList then [line] else []

def plainLine : List Char := "gw=1.s; app_pref=dark; q=\"a b\"; e=\"\"".toList

theorem extractCookie_frame_plain :
    pairs ((extractCookie 3000 (cookieHeader plainLine) "gw".toList).2 "Cookie".toList) =
      ["app_pref=dark".toList, "q=\"a b\"".toList, "e=\"\"".toList] := by
  have hstrip : Strips 3000 (cookieHeader plainLine "Cookie".toList) "gw".toList :=
    ⟨.inr (by decide), by decide⟩
  have hpairs : pairs (cookieHeader plainLine "Cookie".toList) =
      ["gw=1.s".toList, "app_pref=dark".toList, "q=\"a b\"".toList, "e=\"\"".toList] := by
    decide
  refine ((extractCookie_frame 3000 (cookieHeader plainLine) "gw".toList (by decide) hstrip).mpr
    ?_).trans ?_
  · rw [hpairs]
    simp only [List.forall_mem_cons]
    refine ⟨fun h => absurd (by decide) h, fun _ => ?_, fun _ => ?_, fun _ => ?_, by simp⟩
    · exact ⟨"app_pref".toList, "dark".toList, rfl, by decide, .inl (by decide)⟩
    · exact ⟨"q".toList, "\"a b\"".toList, rfl, by decide,
        .inr ⟨"a b".toList, rfl, by decide⟩⟩
    · exact ⟨"e".toList, "\"\"".toList, rfl, by decide, .inr ⟨[], rfl, by decide⟩⟩
  · rw [hpairs]
    decide

def mixedLine : List Char :=
  "gw=1.s; prefs=\x7b\"theme\":\"dark\"\x7d; greeting=hello world".toList

/-- A value with double quotes inside is dropped, one with a space is put between double quotes. -/
theorem cookies_changed :
    Strips 3000 (cookieHeader mixedLine "Cookie".toList) "gw".toList ∧
      (pairs (cookieHeader mixedLine "Cookie".toList)).filter
          (fun pair => pairName pair ≠ "gw".toList) =
        ["prefs=\x7b\"theme\":\"dark\"\x7d".toList, "greeting=hello world".toList] ∧
      pairs ((extractCookie 3000 (cookieHeader mixedLine) "gw".toList).2 "Cookie".toList) =
        ["greeting=\"hello world\"".toList] :=
  ⟨⟨.inr (by decide), by decide⟩, by decide, by decide⟩

end Hyproxy.CookieFrames

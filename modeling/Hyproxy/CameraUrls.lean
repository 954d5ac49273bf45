import Hyproxy.LocationHeader
import Hyproxy.UriParts

/-!
The URL that the RTSP bridge dials: host, port and path are those of the connection's row, and the
credentials of the viewer are percent encoded. For the log the credentials are struck out.
-/
namespace Hyproxy.CameraUrls

open AuthzCheck (quote utf8)
open PercentCoding
open UriParts

abbrev Text := List Char

structure ResourceConnection where
  hostname : Text
  port : ℕ
  params : List (Text × Text)
  deriving Repr, DecidableEq

def pathParam : Text := "path".toList

def streamPath (connection : ResourceConnection) : Text :=
  match (connection.params.lookup pathParam).getD [] with
  | [] => "/".toList
  | '/' :: more => '/' :: more
  | raw => '/' :: raw

def buildRtspUrl (connection : ResourceConnection) (username password : Text) : Text :=
  let userinfo :=
    if username ≠ [] ∨ password ≠ [] then quote username ++ ':' :: quote password ++ "@".toList
    else []
  "rtsp://".toList ++ userinfo ++ connection.hostname ++ ':' :: (toString connection.port).toList ++
    streamPath connection

/-- `str.partition`, none when the separator is not found. -/
def partition (sep : Text) : Text → Option (Text × Text)
  | [] => none
  | c :: rest =>
    if sep.isPrefixOf (c :: rest) then some ([], (c :: rest).drop sep.length)
    else (partition sep rest).map fun parts => (c :: parts.1, parts.2)

/-- What comes behind the last separator, if there is one. -/
def rpartition (sep : Char) (s : Text) : Option Text :=
  if sep ∈ s then some (s.reverse.takeWhile fun c => c != sep).reverse else none

def redact (url : Text) : Text :=
  match partition "://".toList url with
  | none => url
  | some (scheme, rest) =>
    match rpartition '@' rest with
    | none => url
    | some hostpart => scheme ++ "://***:***@".toList ++ hostpart

/-- The name and the password that a user information stands for. -/
def credentials : Option Text → Option (Text × Text)
  | none => some ([], [])
  | some userinfo =>
    match unescape (Text.cut ':' userinfo).1, unescape (Text.cut ':' userinfo).2 with
    | some username, some password => some (Utf8.decode true username, Utf8.decode true password)
    | _, _ => none

/-! ### Credentials -/

theorem unreserved_plain (c : Char) (hc : RequestTarget.unreserved c = true) :
    UriParts.unreserved c = true := by
  simp only [RequestTarget.unreserved, Bool.or_eq_true, Bool.and_eq_true, decide_eq_true_eq,
    beq_iff_eq] at hc
  rcases hc with (((((hc | hc) | hc) | rfl) | rfl) | rfl) | rfl
  · have hlower : c.isLower = true :=
      (Bool.and_eq_true _ _).mpr ⟨decide_eq_true hc.1, decide_eq_true hc.2⟩
    have hletter : c.isAlpha = true := (Bool.or_eq_true _ _).mpr (Or.inr hlower)
    simp [UriParts.unreserved, Char.isAlphanum, hletter]
  · have hupper : c.isUpper = true := decide_eq_true hc
    have hletter : c.isAlpha = true := (Bool.or_eq_true _ _).mpr (Or.inl hupper)
    simp [UriParts.unreserved, Char.isAlphanum, hletter]
  · have hdigit : c.isDigit = true :=
      (Bool.and_eq_true _ _).mpr ⟨decide_eq_true hc.1, decide_eq_true hc.2⟩
    simp [UriParts.unreserved, Char.isAlphanum, hdigit]
  all_goals decide

theorem mem_quote (s : Text) (c : Char) (hc : c ∈ quote s) :
    UriParts.unreserved c = true ∨ c = '%' := by
  obtain ⟨b, hb, hc⟩ := List.mem_flatMap.mp hc
  split_ifs at hc with hplain
  · rw [List.mem_singleton.mp hc]
    exact Or.inl (unreserved_plain b hplain)
  · have htriple := LocationHeader.escapeByte_triple b (LocationHeader.isByte_utf8 s b hb) c hc
    have hall := LocationHeader.triple_all (fun d => UriParts.unreserved d || d == '%') (by decide)
      c htriple
    simpa using hall

theorem unescape_quote (s : Text) : unescape (quote s) = some (utf8 s) :=
  unescape_escape _ _ (by decide) (LocationHeader.isByte_utf8 s)

theorem colon_not_mem_quote (s : Text) : ':' ∉ quote s := by
  intro hmem
  rcases mem_quote s ':' hmem with hc | hc <;> revert hc <;> decide

theorem isUserinfo_quote (username password : Text) :
    IsUserinfo (quote username ++ ':' :: quote password) := by
  constructor
  · rw [unescape_append _ _ _ (unescape_quote username), unescape_plain ':' _ (by decide),
      unescape_quote]
    rfl
  · intro c hc
    have hquote : ∀ s, c ∈ quote s →
        UriParts.unreserved c ∨ c = '%' ∨ c = ':' ∨ subDelims.contains c :=
      fun s hmem => (mem_quote s c hmem).imp_right Or.inl
    rcases List.mem_append.mp hc with hc | hc
    · exact hquote username hc
    · rcases List.mem_cons.mp hc with rfl | hc
      · exact Or.inr (Or.inr (Or.inl rfl))
      · exact hquote password hc

theorem credentials_quote (username password : Text) :
    credentials (some (quote username ++ ':' :: quote password)) = some (username, password) := by
  rw [credentials, Text.cut_append ':' _ _ (colon_not_mem_quote username)]
  simp only [unescape_quote, Utf8Texts.decode_utf8]

/-! ### The URL and its parts -/

/-- The user information of the URL; without credentials there is none. -/
def userinfo (username password : Text) : Option Text :=
  if username ≠ [] ∨ password ≠ [] then some (quote username ++ ':' :: quote password) else none

def parts (connection : ResourceConnection) (username password : Text) : Parts :=
  ⟨"rtsp".toList, userinfo username password, connection.hostname,
    some (toString connection.port).toList, streamPath connection⟩

theorem streamPath_slash (connection : ResourceConnection) :
    ∃ more, streamPath connection = '/' :: more := by
  unfold streamPath
  split <;> exact ⟨_, rfl⟩

theorem parts_text (connection : ResourceConnection) (username password : Text) :
    (parts connection username password).text = buildRtspUrl connection username password := by
  unfold buildRtspUrl parts userinfo
  split_ifs <;> simp [Parts.text, Parts.authority, Parts.hostPort]

theorem parts_wellFormed (connection : ResourceConnection) (username password : Text)
    (hhost : ∀ c ∈ connection.hostname, reserved c = false) :
    (parts connection username password).WellFormed where
  scheme := by
    have hmore : "tsp".toList.all Char.isAlphanum = true := by decide
    exact ⟨'r', "tsp".toList, rfl, by decide, fun d hd => Or.inl (List.all_eq_true.mp hmore d hd)⟩
  userinfo s hs := by
    unfold parts userinfo at hs
    split_ifs at hs
    obtain rfl := Option.some.inj hs
    exact isUserinfo_quote username password
  host := Or.inl fun c hc => (Bool.or_eq_false_iff.mp (hhost c hc)).1
  port s hs c hc := by
    obtain rfl := Option.some.inj hs
    have hdigits : (toString connection.port).toList = Nat.toDigits 10 connection.port :=
      Nat.toList_repr
    rw [hdigits] at hc
    exact Nat.isDigit_of_mem_toDigits (by decide) (by decide) hc
  rest := by
    obtain ⟨more, hmore⟩ := streamPath_slash connection
    exact Or.inr ⟨'/', more, hmore, by decide⟩

theorem credentials_userinfo (username password : Text) :
    credentials (userinfo username password) = some (username, password) := by
  unfold userinfo
  split_ifs with hsome
  · exact credentials_quote username password
  · rw [not_or, not_not, not_not] at hsome
    rw [hsome.1, hsome.2]
    rfl

/-! ### The log -/

theorem partition_rtsp (more : Text) :
    partition "://".toList ("rtsp://".toList ++ more) = some ("rtsp".toList, more) := by
  simp [partition]

theorem takeWhile_stop (sep : Char) (left right : Text) :
    (left ++ sep :: right).takeWhile (fun c => c != sep) = left.takeWhile fun c => c != sep := by
  induction left with
  | nil => simp
  | cons c rest ih =>
    rw [List.cons_append, List.takeWhile_cons, List.takeWhile_cons, ih]

/-- What comes before the last separator is struck out. -/
theorem rpartition_append (sep : Char) (front back : Text) :
    rpartition sep (front ++ sep :: back) =
      some (back.reverse.takeWhile fun c => c != sep).reverse := by
  have hmem : sep ∈ front ++ sep :: back := by simp
  have hreverse : (front ++ sep :: back).reverse = back.reverse ++ sep :: front.reverse := by simp
  rw [rpartition, if_pos hmem, hreverse, takeWhile_stop]

theorem redact_credentials (connection : ResourceConnection) (username password : Text)
    (h : username ≠ [] ∨ password ≠ []) :
    redact (buildRtspUrl connection username password) =
      "rtsp://***:***@".toList ++
        ((connection.hostname ++ ':' :: (toString connection.port).toList ++
          streamPath connection).reverse.takeWhile fun c => c != '@').reverse := by
  have hurl : buildRtspUrl connection username password = "rtsp://".toList ++
      ((quote username ++ ':' :: quote password) ++ '@' :: (connection.hostname ++
        ':' :: (toString connection.port).toList ++ streamPath connection)) := by
    unfold buildRtspUrl
    split_ifs
    simp
  have hstruck : "rtsp".toList ++ "://***:***@".toList = "rtsp://***:***@".toList := by decide
  simp only [redact, hurl, partition_rtsp, rpartition_append, hstruck]

/-- The URL has one splitting: the host, the port and the path of the row, and a user information
that stands for the credentials. What is logged is the same for all credentials. -/
theorem rtsp_url_confined (connection : ResourceConnection)
    (hhost : ∀ c ∈ connection.hostname, reserved c = false) (username password : Text) :
    (∃ userinfo, credentials userinfo = some (username, password) ∧
      ∀ other, Splits (buildRtspUrl connection username password) other ↔
        other = ⟨"rtsp".toList, userinfo, connection.hostname,
          some (toString connection.port).toList, streamPath connection⟩) ∧
    ∀ username' password', (username ≠ [] ∨ password ≠ []) → (username' ≠ [] ∨ password' ≠ []) →
      redact (buildRtspUrl connection username password) =
        redact (buildRtspUrl connection username' password') := by
  have hsplits : Splits (buildRtspUrl connection username password)
      (parts connection username password) :=
    ⟨parts_wellFormed connection username password hhost, parts_text connection username password⟩
  refine ⟨⟨userinfo username password, credentials_userinfo username password, fun other => ?_⟩,
    fun username' password' h h' => ?_⟩
  · constructor
    · exact fun hother => splits_unique hother hsplits
    · rintro rfl
      exact hsplits
  · rw [redact_credentials connection username password h,
      redact_credentials connection username' password' h']

def sampleCamera : ResourceConnection :=
  ⟨"cam".toList, 554, [(pathParam, "live@x://y".toList)]⟩

theorem rtsp_url_confined_camera :
    (∃ userinfo, credentials userinfo = some ("ops".toList, "p@ss/w".toList) ∧
      Splits (buildRtspUrl sampleCamera "ops".toList "p@ss/w".toList) ⟨"rtsp".toList, userinfo,
        "cam".toList, some (toString 554).toList, streamPath sampleCamera⟩) ∧
    redact (buildRtspUrl sampleCamera "ops".toList "p@ss/w".toList) =
      redact (buildRtspUrl sampleCamera [] "x".toList) := by
  have hplain : sampleCamera.hostname.all (fun c => !reserved c) = true := by decide
  have hhost : ∀ c ∈ sampleCamera.hostname, reserved c = false := by
    intro c hc
    simpa using List.all_eq_true.mp hplain c hc
  obtain ⟨⟨userinfo, hcredentials, hsplits⟩, hredact⟩ :=
    rtsp_url_confined sampleCamera hhost "ops".toList "p@ss/w".toList
  refine ⟨⟨userinfo, hcredentials, (hsplits _).mpr rfl⟩, hredact [] "x".toList ?_ ?_⟩
  · exact Or.inl (by decide)
  · exact Or.inr (by decide)

end Hyproxy.CameraUrls

import Hyproxy.Text
import Mathlib.Data.Bool.AllAny

/-!
Header maps of Go's `net/http` and what `httputil.ReverseProxy` does to them on
the way out. A header maps a name in canonical form to its values in order;
`Set`, `Del` and `Get` put the name they are given into that form first.
-/
namespace Hyproxy.HttpHeader

open Text

abbrev Header := List Char → List (List Char)

/-- `validHeaderFieldByte`, also `isToken` on one byte. -/
def tokenByte (c : Char) : Bool :=
  ('a' ≤ c && c ≤ 'z') || ('A' ≤ c && c ≤ 'Z') || ('0' ≤ c && c ≤ '9') ||
    "!#$%&'*+-.^_`|~".toList.contains c

def canonicalLoop : Bool → List Char → List Char
  | _, [] => []
  | upper, c :: rest =>
    (if upper then c.toUpper else c.toLower) :: canonicalLoop (c == '-') rest

/-- `CanonicalMIMEHeaderKey`: a name that is no token stays as it is. -/
def canonicalHeaderKey (name : List Char) : List Char :=
  if name.all tokenByte then canonicalLoop true name else name

def del (h : Header) (name : List Char) : Header :=
  fun key => if key = canonicalHeaderKey name then [] else h key

def set (h : Header) (name value : List Char) : Header :=
  fun key => if key = canonicalHeaderKey name then [value] else h key

def get (h : Header) (name : List Char) : List Char :=
  (h (canonicalHeaderKey name)).head?.getD []

/-- The options of the `Connection` header, one for each nonempty item. -/
def connectionOptions (h : Header) : List (List Char) :=
  (h "Connection".toList).flatMap
    (fun field => ((field.splitOn ',').map trimString).filter (· ≠ []))

def hopHeaders : List (List Char) :=
  ["Connection".toList, "Proxy-Connection".toList, "Keep-Alive".toList,
    "Proxy-Authenticate".toList, "Proxy-Authorization".toList, "Te".toList, "Trailer".toList,
    "Transfer-Encoding".toList, "Upgrade".toList]

def removeHopByHopHeaders (h : Header) : Header :=
  hopHeaders.foldl del ((connectionOptions h).foldl del h)

/-- `httpguts.HeaderValuesContainsToken`; tokens compare without case. -/
def headerValuesContainsToken (values : List (List Char)) (token : List Char) : Bool :=
  values.any (fun value => (value.splitOn ',').any
    (fun item => (trim (fun c => c == ' ' || c == '\t') item).map Char.toLower ==
      token.map Char.toLower))

def upgradeType (h : Header) : List Char :=
  if headerValuesContainsToken (h "Connection".toList) "Upgrade".toList then get h "Upgrade".toList
  else []

def isPrint (s : List Char) : Bool := s.all (fun c => ' ' ≤ c && c ≤ '~')

/-- The facts about the inbound request that `SetXForwarded` writes. -/
structure Inbound where
  clientIP : List Char
  host : List Char
  tls : Bool
  deriving Repr, DecidableEq

def setXForwarded (h : Header) (inbound : Inbound) : Header :=
  let prior := h "X-Forwarded-For".toList
  let h := set h "X-Forwarded-For".toList
    (if prior = [] then inbound.clientIP
      else ", ".toList.intercalate prior ++ ", ".toList ++ inbound.clientIP)
  let h := set h "X-Forwarded-Host".toList inbound.host
  set h "X-Forwarded-Proto".toList (if inbound.tls then "https".toList else "http".toList)

/-- The `Rewrite` function of `newReverseProxy`, as far as headers go. -/
def rewrite (h : Header) (inbound : Inbound) : Header :=
  set (setXForwarded h inbound) "X-Forwarded-Host".toList inbound.host

/-- The headers that `ReverseProxy.ServeHTTP` sends on, or none where the client asks
to switch to an unprintable protocol. -/
def proxyHeader (h : Header) (inbound : Inbound) : Option Header :=
  let upType := upgradeType h
  if !isPrint upType then none
  else
    let out := removeHopByHopHeaders h
    let out := if headerValuesContainsToken (h "Te".toList) "trailers".toList then
      set out "Te".toList "trailers".toList else out
    let out := if upType ≠ [] then
      set (set out "Connection".toList "Upgrade".toList) "Upgrade".toList upType else out
    let out := ["Forwarded".toList, "X-Forwarded-For".toList, "X-Forwarded-Host".toList,
      "X-Forwarded-Proto".toList].foldl del out
    let out := rewrite out inbound
    some (if out "User-Agent".toList = [] then set out "User-Agent".toList [] else out)

theorem foldl_del (names : List (List Char)) (h : Header) (key : List Char) :
    (names.foldl del h) key = if key ∈ names.map canonicalHeaderKey then [] else h key := by
  induction names generalizing h with
  | nil => simp
  | cons name rest ih =>
    rw [List.foldl_cons, ih]
    by_cases hrest : key ∈ rest.map canonicalHeaderKey
    · rw [if_pos hrest, if_pos (by simp [List.mem_map.mp hrest])]
    · rw [if_neg hrest, del]
      by_cases hname : key = canonicalHeaderKey name
      · rw [if_pos hname, if_pos (by simp [hname])]
      · rw [if_neg hname, if_neg (by simpa [hname] using hrest)]

/-- The names a reverse proxy writes or removes whatever the client sends. -/
def managedHeaders : List (List Char) :=
  hopHeaders ++ ["Forwarded".toList, "X-Forwarded-For".toList, "X-Forwarded-Host".toList,
    "X-Forwarded-Proto".toList, "User-Agent".toList]

theorem managedHeaders_canonical : ∀ name ∈ managedHeaders, canonicalHeaderKey name = name := by
  decide

theorem set_unmanaged (h : Header) (name value key : List Char) (hname : name ∈ managedHeaders)
    (hkey : key ∉ managedHeaders) : set h name value key = h key := by
  refine if_neg ?_
  rw [managedHeaders_canonical name hname]
  rintro rfl
  exact hkey hname

theorem foldl_del_unmanaged (names : List (List Char)) (h : Header) (key : List Char)
    (hnames : ∀ name ∈ names, name ∈ managedHeaders) (hkey : key ∉ managedHeaders) :
    (names.foldl del h) key = h key := by
  rw [foldl_del, if_neg]
  intro hmem
  obtain ⟨name, hname, heq⟩ := List.mem_map.mp hmem
  rw [managedHeaders_canonical name (hnames name hname)] at heq
  exact hkey (heq ▸ hnames name hname)

theorem rewrite_unmanaged (h : Header) (inbound : Inbound) (key : List Char)
    (hkey : key ∉ managedHeaders) : rewrite h inbound key = h key := by
  unfold rewrite setXForwarded
  simp only
  rw [set_unmanaged _ _ _ _ (by decide) hkey, set_unmanaged _ _ _ _ (by decide) hkey,
    set_unmanaged _ _ _ _ (by decide) hkey, set_unmanaged _ _ _ _ (by decide) hkey]

/-- Every other header arrives as it is, unless the client's `Connection` header names it. -/
theorem proxyHeader_other (h out : Header) (inbound : Inbound) (key : List Char)
    (hout : proxyHeader h inbound = some out) (hkey : key ∉ managedHeaders) :
    out key = if key ∈ (connectionOptions h).map canonicalHeaderKey then [] else h key := by
  have hset : ∀ (b : Prop) [Decidable b] (g : Header) (name value : List Char),
      name ∈ managedHeaders → (if b then set g name value else g) key = g key := by
    intro b _ g name value hname
    split
    · exact set_unmanaged g name value key hname hkey
    · rfl
  have hpair : ∀ (b : Prop) [Decidable b] (g : Header) (value : List Char),
      (if b then set (set g "Connection".toList "Upgrade".toList) "Upgrade".toList value
        else g) key = g key := by
    intro b _ g value
    split
    · rw [set_unmanaged _ _ _ _ (by decide) hkey, set_unmanaged _ _ _ _ (by decide) hkey]
    · rfl
  unfold proxyHeader at hout
  simp only at hout
  split at hout
  · cases hout
  · rw [Option.some.injEq] at hout
    rw [← hout, hset _ _ _ _ (by decide), rewrite_unmanaged _ _ _ hkey,
      foldl_del_unmanaged _ _ _ (by decide) hkey, hpair, hset _ _ _ _ (by decide),
      removeHopByHopHeaders, foldl_del_unmanaged hopHeaders _ _ (by decide) hkey, foldl_del]

theorem proxyHeader_of_no_upgrade (h : Header) (inbound : Inbound)
    (hup : headerValuesContainsToken (h "Connection".toList) "Upgrade".toList = false) :
    ∃ out, proxyHeader h inbound = some out := by
  have hnone : upgradeType h = [] := by
    rw [upgradeType, hup]
    rfl
  have hprint : isPrint (upgradeType h) = true := by
    rw [hnone]
    rfl
  exact ⟨_, if_neg (by rw [hprint]; decide)⟩

end Hyproxy.HttpHeader

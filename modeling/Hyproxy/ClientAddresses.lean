import Hyproxy.HostGrammar
import Hyproxy.Mediation

/-!
The address of a client. The data plane takes it from the connection and asks the control plane
about it; the control plane takes it from the header `X-Forwarded-For` of what is forwarded to it
(`core/netutil.py`). Both find the same address, and a client has no say in it. The services bind
their sessions to this address, and the administration looks whether it is one of the local network.
-/
namespace Hyproxy.ClientAddresses

open DataPlane (Ground Outgoing Request Server checkRequest serveApp serveProxy_forward)
open HostGrammar (cutLast_append)
open HttpHeader
open Routing (cutLast)
open RouteTables (RouteSet serveHTTP)
open Text (cut cut_of_not_mem strip strip_eq_self)

abbrev Text := List Char

/-! ### The address of a connection -/

/-- `net.SplitHostPort`; none is an error. -/
def splitHostPort (hostport : Text) : Option (Text × Text) :=
  match cutLast hostport with
  | none => none
  | some (front, port) =>
    if front.head? = some '[' then
      let host := (front.drop 1).dropLast
      if front.getLast? = some ']' ∧ '[' ∉ host ∧ ']' ∉ host ∧ '[' ∉ port ∧ ']' ∉ port then
        some (host, port)
      else none
    else if ':' ∈ front ∨ '[' ∈ hostport ∨ ']' ∈ hostport then none
    else some (front, port)

/-- `net.JoinHostPort`, which makes the text of the address that a connection comes from. -/
def joinHostPort (host port : Text) : Text :=
  if ':' ∈ host then '[' :: host ++ "]:".toList ++ port else host ++ ':' :: port

def clientIP (remoteAddr : Text) : Text :=
  match splitHostPort remoteAddr with
  | none => remoteAddr
  | some (host, _) => host

/-- The text of an address, with its zone if it has one. -/
structure IsAddress (host : Text) : Prop where
  nonempty : host ≠ []
  unbracketed : '[' ∉ host ∧ ']' ∉ host
  single : ',' ∉ host
  unspaced : ∀ c ∈ host, Text.isSpace c = false

theorem not_mem_digits (port : Text) (hport : ∀ c ∈ port, c.isDigit = true) (c : Char)
    (hc : c.isDigit = false) : c ∉ port := fun hmem => by
  rw [hport c hmem] at hc
  cases hc

theorem splitHostPort_join (host port : Text) (hhost : IsAddress host)
    (hport : ∀ c ∈ port, c.isDigit = true) :
    splitHostPort (joinHostPort host port) = some (host, port) := by
  have hcolon := not_mem_digits port hport ':' rfl
  have hopen := not_mem_digits port hport '[' rfl
  have hclose := not_mem_digits port hport ']' rfl
  obtain ⟨hopen', hclose'⟩ := hhost.unbracketed
  unfold joinHostPort
  by_cases hv6 : ':' ∈ host
  · have hsplit : '[' :: host ++ "]:".toList ++ port = ('[' :: host ++ [']']) ++ ':' :: port := by
      simp
    have hmiddle : (('[' :: host ++ [']']).drop 1).dropLast = host := by simp
    have hlast : ('[' :: host ++ [']']).getLast? = some ']' := List.getLast?_concat
    rw [if_pos hv6, hsplit, splitHostPort, cutLast_append _ _ hcolon]
    simp only
    rw [if_pos (by rfl), hmiddle, if_pos ⟨hlast, hopen', hclose', hopen, hclose⟩]
  · have hhead : host.head? ≠ some '[' := fun h => hopen' (List.mem_of_head? h)
    have hnone : ∀ c, c ∉ host → c ∉ port → c ≠ ':' → c ∉ host ++ ':' :: port := by
      intro c hc hc' hne hmem
      rcases List.mem_append.mp hmem with hmem | hmem
      · exact hc hmem
      · exact (List.mem_cons.mp hmem).elim hne hc'
    rw [if_neg hv6, splitHostPort, cutLast_append _ _ hcolon]
    simp only
    rw [if_neg hhead, if_neg]
    rintro (h | h | h)
    · exact hv6 h
    · exact hnone '[' hopen' hopen (by decide) h
    · exact hnone ']' hclose' hclose (by decide) h

theorem clientIP_join (host port : Text) (hhost : IsAddress host)
    (hport : ∀ c ∈ port, c.isDigit = true) : clientIP (joinHostPort host port) = host := by
  rw [clientIP, splitHostPort_join host port hhost hport]

/-! ### What is forwarded -/

/-- What the headers of a forwarded request say of its connection. -/
structure Tells (h : Header) (inbound : Inbound) : Prop where
  address : h "X-Forwarded-For".toList = [inbound.clientIP]
  host : h "X-Forwarded-Host".toList = [inbound.host]
  proto : h "X-Forwarded-Proto".toList = [if inbound.tls then "https".toList else "http".toList]
  forwarded : h "Forwarded".toList = []

theorem set_other (h : Header) (name value key : Text) (hname : name ∈ managedHeaders)
    (hkey : key ≠ name) : set h name value key = h key :=
  if_neg (by rwa [managedHeaders_canonical name hname])

theorem set_same (h : Header) (name value : Text) (hname : name ∈ managedHeaders) :
    set h name value name = [value] := if_pos (managedHeaders_canonical name hname).symm

theorem rewrite_tells (h : Header) (inbound : Inbound) (hprior : h "X-Forwarded-For".toList = [])
    (hforwarded : h "Forwarded".toList = []) : Tells (rewrite h inbound) inbound := by
  unfold rewrite setXForwarded
  simp only [hprior, if_true]
  constructor
  · rw [set_other _ _ _ _ (by decide) (by decide), set_other _ _ _ _ (by decide) (by decide),
      set_other _ _ _ _ (by decide) (by decide), set_same _ _ _ (by decide)]
  · exact set_same _ _ _ (by decide)
  · rw [set_other _ _ _ _ (by decide) (by decide), set_same _ _ _ (by decide)]
  · rw [set_other _ _ _ _ (by decide) (by decide), set_other _ _ _ _ (by decide) (by decide),
      set_other _ _ _ _ (by decide) (by decide), set_other _ _ _ _ (by decide) (by decide),
      hforwarded]

/-- `ReverseProxy` removes what the client sends of these headers before it rewrites them. -/
theorem rewrite_removed_tells (h : Header) (inbound : Inbound) :
    Tells (rewrite (["Forwarded".toList, "X-Forwarded-For".toList, "X-Forwarded-Host".toList,
      "X-Forwarded-Proto".toList].foldl del h) inbound) inbound := by
  apply rewrite_tells
  · rw [foldl_del, if_pos (by decide)]
  · rw [foldl_del, if_pos (by decide)]

theorem Tells.agent {h : Header} {inbound : Inbound} (htells : Tells h inbound) (b : Prop)
    [Decidable b] (value : Text) :
    Tells (if b then set h "User-Agent".toList value else h) inbound := by
  split_ifs
  · constructor
    · rw [set_other _ _ _ _ (by decide) (by decide), htells.address]
    · rw [set_other _ _ _ _ (by decide) (by decide), htells.host]
    · rw [set_other _ _ _ _ (by decide) (by decide), htells.proto]
    · rw [set_other _ _ _ _ (by decide) (by decide), htells.forwarded]
  · exact htells

/-- Nothing that the client sends is left in these headers. -/
theorem proxyHeader_tells (h out : Header) (inbound : Inbound)
    (hout : proxyHeader h inbound = some out) : Tells out inbound := by
  unfold proxyHeader at hout
  simp only at hout
  split at hout
  · cases hout
  · rw [← Option.some.inj hout]
    exact (rewrite_removed_tells _ inbound).agent _ []

/-- Whatever is forwarded, and to whichever upstream, tells of its connection. -/
theorem serveHTTP_tells (blocked : Request → Bool) (srv : Server) (rs : RouteSet)
    (cp : DataPlane.ControlPlane) (cache : DataPlane.AuthzCache) (now : ℤ) (r : Request)
    (ground : Ground) (out : Outgoing)
    (h : (serveHTTP blocked srv rs cp cache now r).1 = some (.forward ground out)) :
    Tells out.header r.inbound := by
  unfold serveHTTP at h
  split_ifs at h
  cases hlookup : rs.table.lookup r.host with
  | none =>
    rw [hlookup] at h
    cases h
  | auth =>
    rw [hlookup] at h
    have hserved := Option.some.inj h
    unfold RouteTables.serveAuthHost at hserved
    split_ifs at hserved
    obtain ⟨-, -, hheader, -⟩ := serveProxy_forward srv _ _ _ r _ out hserved
    exact proxyHeader_tells _ _ _ hheader
  | app host route =>
    rw [hlookup] at h
    exact proxyHeader_tells _ _ _ (DataPlane.serveApp_passes srv cp cache now r host route.toRoute
      ground out (Option.some.inj h)).header

/-! ### What the services make of it -/

/-- `ip_address` and `ip_network`, where none is a `ValueError`, and `in`. -/
structure IpAddresses (Ip Net : Type) where
  ipAddress : Text → Option Ip
  ipNetwork : Text → Option Net
  within : Ip → Net → Bool

structure Settings where
  trustForwardedFor : Bool
  adminLanCidrs : Text
  deriving Repr, DecidableEq

/-- `request.headers.get` -/
def header (h : Header) (name : Text) : Text := (h name).head?.getD []

/-- `peer` is the address of the socket, which is the proxy's. -/
def resolveClientIp (s : Settings) (h : Header) (peer : Text) : Text :=
  if s.trustForwardedFor then
    let first := strip (cut ',' (header h "X-Forwarded-For".toList)).1
    if first ≠ [] then first else peer
  else peer

inductive LanCheck
  | passes
  | forbidden
  | raised
  deriving Repr, DecidableEq

variable {Ip Net : Type} (p : IpAddresses Ip Net)

/-- `_lan_networks` -/
def lanNetworks (cidrs : Text) : Option (List Net) :=
  (((cidrs.splitOn ',').map strip).filter (· ≠ [])).mapM p.ipNetwork

/-- The check of `require_lan_client` on the text of an address. -/
def lanCheck (s : Settings) (ip : Text) : LanCheck :=
  if s.adminLanCidrs = [] then .passes
  else
    match p.ipAddress ip with
    | none => .forbidden
    | some addr =>
      match lanNetworks p s.adminLanCidrs with
      | none => .raised
      | some nets => if nets.any fun net => p.within addr net then .passes else .forbidden

def requireLanClient (s : Settings) (h : Header) (peer : Text) : LanCheck :=
  lanCheck p s (resolveClientIp s h peer)

theorem resolveClientIp_tells (s : Settings) (hs : s.trustForwardedFor = true) (h : Header)
    (inbound : Inbound) (peer : Text) (htells : Tells h inbound)
    (haddr : IsAddress inbound.clientIP) : resolveClientIp s h peer = inbound.clientIP := by
  have hfirst : strip (cut ',' (header h "X-Forwarded-For".toList)).1 = inbound.clientIP := by
    rw [header, htells.address]
    exact (congrArg (fun c => strip c.1) (cut_of_not_mem ',' _ haddr.single)).trans
      (strip_eq_self _ haddr.unspaced)
  rw [resolveClientIp, if_pos hs]
  simp only [hfirst]
  exact if_pos haddr.nonempty

/-- The services find the address that the connection comes from; it is the one that the data plane
names in its own questions, whatever the client puts into its headers. -/
theorem known_address (blocked : Request → Bool) (srv : Server) (rs : RouteSet)
    (cp : DataPlane.ControlPlane) (cache : DataPlane.AuthzCache) (now : ℤ) (r : Request)
    (ground : Ground) (out : Outgoing) (s : Settings) (peer host port : Text)
    (hs : s.trustForwardedFor = true) (hhost : IsAddress host)
    (hport : ∀ c ∈ port, c.isDigit = true) (hr : r.clientIP = clientIP (joinHostPort host port))
    (h : (serveHTTP blocked srv rs cp cache now r).1 = some (.forward ground out)) :
    resolveClientIp s out.header peer = host ∧
      requireLanClient p s out.header peer = lanCheck p s host ∧
      ∀ (r' : Request) (app : List Char) (route : DataPlane.Route),
        (checkRequest srv r' app route).sourceIP = resolveClientIp s out.header peer ↔
          r'.clientIP = host := by
  have hip : r.clientIP = host := hr.trans (clientIP_join host port hhost hport)
  have htells := serveHTTP_tells blocked srv rs cp cache now r ground out h
  have hresolved : resolveClientIp s out.header peer = host :=
    (resolveClientIp_tells s hs out.header r.inbound peer htells (by rwa [← hip] at hhost)).trans hip
  refine ⟨hresolved, by rw [requireLanClient, hresolved], fun r' app route => ?_⟩
  rw [hresolved]
  rfl

/-- A client from outside names an address of the local network, and wants the header dropped. -/
def spoofing : Request where
  method := "GET".toList
  host := "auth.example.org".toList
  url := ⟨"/gateway/start".toList, [], [], false, [], []⟩
  header := fun key =>
    if key = "X-Forwarded-For".toList then ["10.0.0.7".toList]
    else if key = "Connection".toList then ["X-Forwarded-For".toList]
    else []
  clientIP := clientIP (joinHostPort "2001:db8::7".toList "55555".toList)
  tls := true

/-- A control plane that does not answer. -/
def silent : DataPlane.ControlPlane := ⟨fun _ => none, fun _ => none, fun _ => none⟩

def sampleRoutes : RouteSet := ⟨⟨"auth.example.org".toList, []⟩, []⟩

theorem spoofing_forwarded :
    ∃ out, (serveHTTP (fun _ => false) IdentityHeaders.sampleServer sampleRoutes silent [] 0
      spoofing).1 = some (.forward .gate out) := by
  obtain ⟨header, hheader⟩ := proxyHeader_of_no_upgrade
    (DataPlane.stripIdentityHeaders spoofing.header) spoofing.inbound (by decide)
  obtain ⟨out, hout, -⟩ := DataPlane.serveProxy_of_header IdentityHeaders.sampleServer .controlPlane
    .gate spoofing _ header hheader
  exact ⟨out, congrArg some hout⟩

/-- One network, and two addresses. -/
def sampleAddresses : IpAddresses Text Text where
  ipAddress := fun text =>
    if text = "10.0.0.7".toList ∨ text = "2001:db8::7".toList then some text else none
  ipNetwork := fun text => if text = "10.0.0.0/8".toList then some "10.".toList else none
  within := fun addr net => net.isPrefixOf addr

def lanSettings : Settings := ⟨true, "10.0.0.0/8".toList⟩

/-- The gateway knows the address from outside, refuses it what is for the local network alone,
and it is the address that a question about the same client names. -/
theorem known_address_sample :
    ∃ out, (serveHTTP (fun _ => false) IdentityHeaders.sampleServer sampleRoutes silent [] 0
        spoofing).1 = some (.forward .gate out) ∧
      resolveClientIp lanSettings out.header "127.0.0.1".toList = "2001:db8::7".toList ∧
      requireLanClient sampleAddresses lanSettings out.header "127.0.0.1".toList = .forbidden ∧
      (checkRequest IdentityHeaders.sampleServer { spoofing with host := "app.example.org".toList }
        "app.example.org".toList ⟨443, none, false, false, false, false, false⟩).sourceIP =
          resolveClientIp lanSettings out.header "127.0.0.1".toList := by
  obtain ⟨out, hout⟩ := spoofing_forwarded
  have hunspaced : ("2001:db8::7".toList.all fun c => !Text.isSpace c) = true := by decide
  have hdigits : ("55555".toList.all Char.isDigit) = true := by decide
  have hhost : IsAddress "2001:db8::7".toList :=
    ⟨by decide, by decide, by decide, fun c hc => by
      simpa using List.all_eq_true.mp hunspaced c hc⟩
  obtain ⟨hresolved, hlan, hasked⟩ := known_address sampleAddresses (fun _ => false)
    IdentityHeaders.sampleServer sampleRoutes silent [] 0 spoofing .gate out lanSettings
    "127.0.0.1".toList "2001:db8::7".toList "55555".toList rfl hhost
    (List.all_eq_true.mp hdigits) rfl hout
  refine ⟨out, hout, hresolved, ?_, (hasked _ _ _).mpr rfl⟩
  rw [hlan]
  decide

end Hyproxy.ClientAddresses

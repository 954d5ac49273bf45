import Hyproxy.AuditDetails
import Hyproxy.AuditedRequests
import Hyproxy.OutsideCalls
import Hyproxy.Text

/-!
The requests for downloads: a user asks for one, an administrator approves it, which sends it to
qBittorrent, or denies it. Each request is one transaction on its row, and the row is locked from
the check of its status on.
-/
namespace Hyproxy.Downloads

open AuditDetails (Detail validateDetail)
open AuditedRequests (uuidText)
open OutsideCalls

abbrev Text := List Char

inductive Target
  | shows
  | movies
  deriving Repr, DecidableEq

def Target.text : Target → Text
  | .shows => "shows".toList
  | .movies => "movies".toList

inductive Status
  | pending
  | approved
  | denied
  deriving Repr, DecidableEq

def Status.text : Status → Text
  | .pending => "pending".toList
  | .approved => "approved".toList
  | .denied => "denied".toList

structure DownloadRequest where
  userId : ℕ
  magnet : Text
  target : Target
  status : Status
  createdAt : ℤ
  reviewedBy : Option ℕ
  reviewedAt : Option ℤ
  submittedAt : Option ℤ
  error : Option Text
  deriving Repr, DecidableEq

structure Settings where
  qbitSavepathShows : Text
  qbitSavepathMovies : Text

/-! ### Magnet links -/

def hexDigit (c : Char) : Bool :=
  ('0' ≤ c && c ≤ '9') || ('a' ≤ c && c ≤ 'f') || ('A' ≤ c && c ≤ 'F')

def base32Digit (c : Char) : Bool :=
  ('a' ≤ c && c ≤ 'z') || ('A' ≤ c && c ≤ 'Z') || ('2' ≤ c && c ≤ '7')

/-- `$` -/
def atEnd (s : Text) : Bool := s == [] || s == ['\n']

/-- `(?:&\S*)?$` -/
def moreParams : Text → Bool
  | '&' :: more => atEnd (more.dropWhile fun c => !Text.isSpace c)
  | s => atEnd s

/-- `[digit]{count}` and then the other parameters. -/
def infoHash (digit : Char → Bool) (count : ℕ) (s : Text) : Bool :=
  (s.take count).length == count && (s.take count).all digit && moreParams (s.drop count)

/-- `MAGNET_RE.match` -/
def isMagnet (s : Text) : Bool :=
  "magnet:?xt=urn:btih:".toList.isPrefixOf s &&
    (infoHash hexDigit 40 (s.drop 20) || infoHash base32Digit 32 (s.drop 20))

/-! ### qBittorrent -/

/-- The fields of the form, the constant ones included. -/
def fields (magnet savepath : Text) : List (String × Text) :=
  [("urls", magnet), ("autoTMM", "false".toList), ("savepath", savepath), ("rename", []),
    ("category", []), ("stopped", "false".toList), ("stopCondition", "None".toList),
    ("contentLayout", "Original".toList), ("dlLimit", "0".toList), ("upLimit", "0".toList)]

/-- What the request to qBittorrent comes to: an `httpx.HTTPError` of some class, a response, or
another exception. -/
inductive Post
  | httpError (className : Text)
  | response (statusCode : ℕ) (text : Text)
  | other
  deriving Repr, DecidableEq

/-- Success, a `QbitError` with its text, or none for another exception. -/
def addTorrent : Post → Option (Except Text Unit)
  | .httpError className => some (.error ("qbittorrent unreachable: ".toList ++ className))
  | .response statusCode text =>
    if statusCode ≠ 200 ∨ Text.strip text = "Fails.".toList then
      some (.error ("qbittorrent rejected torrent (status ".toList ++
        (toString statusCode).toList ++ ")".toList))
    else some (.ok ())
  | .other => none

/-! ### The requests -/

inductive Operation
  | create (magnet : Text) (target : Target) (isAdmin : Bool) (createdAt : ℤ)
  | approve
  | deny
  deriving Repr, DecidableEq

/-- A request about the row with this identifier; a creation draws it. `now` is the clock when the
decision is written. -/
structure Request where
  id : ℕ
  authed : ℕ
  now : ℤ
  operation : Operation
  deriving Repr, DecidableEq

/-- The status code, with the detail of a failure or the row that is shown. -/
inductive Answer
  | failed (statusCode : ℕ) (detail : Text)
  | row (statusCode : ℕ) (out : DownloadRequest)
  deriving Repr, DecidableEq

/-- Where a transaction stands. After a flush the details of the audit event are checked. -/
inductive Point
  | start
  | submit (row : DownloadRequest)
  | flush (row : DownloadRequest) (detail : Detail) (answer : Answer)
  | finish (answer : Answer)
  deriving Repr, DecidableEq

def savepath (cfg : Settings) (row : DownloadRequest) : Text :=
  match row.target with
  | .shows => cfg.qbitSavepathShows
  | .movies => cfg.qbitSavepathMovies

def created : Operation → ℕ
  | .create .. => 201
  | _ => 200

def entityDetail (r : Request) (row : DownloadRequest) : Detail :=
  [("entity_id", .str (uuidText r.id)), ("target", .str row.target.text)]

/-- The first part of `_submit`: a request that cannot be sent stays pending. -/
def submit (cfg : Settings) (row : DownloadRequest) : Point :=
  if savepath cfg row = [] ∨ isMagnet row.magnet = false then
    let error :=
      if savepath cfg row = [] then "savepath not configured".toList else "invalid magnet".toList
    .flush { row with error := some error } []
      (.failed 503 ("download target unavailable: ".toList ++ error))
  else .submit row

def approved (r : Request) (row : DownloadRequest) : DownloadRequest :=
  { row with
    status := .approved
    reviewedBy := some r.authed
    reviewedAt := some r.now
    submittedAt := some r.now
    error := none }

/-- The second part of `_submit`. -/
def submitted (r : Request) (row : DownloadRequest) (outcome : Post) : Option Point :=
  match addTorrent outcome with
  | none => none
  | some (.error text) =>
    some (.flush { row with error := some text }
      (entityDetail r row ++ [("reason", .str (text.take 256))])
      (.failed 502 "qbittorrent submission failed".toList))
  | some (.ok ()) =>
    some (.flush (approved r row) (entityDetail r row)
      (.row (created r.operation) (approved r row)))

/-- `_pending_or_error` -/
def pendingOrError (next : DownloadRequest → Point) : Option DownloadRequest → Point
  | none => .finish (.failed 404 "request not found".toList)
  | some row =>
    if row.status ≠ .pending then
      .finish (.failed 409 ("request already ".toList ++ row.status.text))
    else next row

def denied (r : Request) (row : DownloadRequest) : DownloadRequest :=
  { row with
    status := .denied
    reviewedBy := some r.authed
    reviewedAt := some r.now }

def denyRow (r : Request) (row : DownloadRequest) : Point :=
  .flush (denied r row) (entityDetail r row) (.row 200 (denied r row))

def newRow (r : Request) (magnet : Text) (target : Target) (createdAt : ℤ) : DownloadRequest :=
  ⟨r.authed, magnet, target, .pending, createdAt, none, none, none, none⟩

/-- The first statement of `create_download`, `approve_download` and `deny_download`. -/
def firstStatement (cfg : Settings) (r : Request) :
    Stand DownloadRequest (List (String × Text)) Post Point Answer :=
  match r.operation with
  | .create magnet target isAdmin createdAt =>
    let row := newRow r magnet target createdAt
    .insert row (if isAdmin then submit cfg row else .finish (.row 201 row))
  | .approve => .lock (pendingOrError (submit cfg))
  | .deny => .lock (pendingOrError (denyRow r))

def stand (cfg : Settings) (r : Request) :
    Point → Stand DownloadRequest (List (String × Text)) Post Point Answer
  | .start => firstStatement cfg r
  | .submit row => .call (fields row.magnet (savepath cfg row)) (submitted r row)
  | .flush row detail answer =>
    .write row (if validateDetail detail = .ok () then some (.finish answer) else none)
  | .finish answer => .answer answer

def program (cfg : Settings) :
    Program ℕ DownloadRequest Request (List (String × Text)) Post Point Answer :=
  ⟨Request.id, fun _ => .start, stand cfg⟩

end Hyproxy.Downloads

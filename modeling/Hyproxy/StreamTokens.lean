import Hyproxy.CameraUrls
import Hyproxy.RtspStreams
import Hyproxy.SealedTokens

/-!
What the streams of the RTSP bridge show. The broker seals the URL of a camera into the token; the
bridge reads the token with the same codec. Every stream of a run is that of the camera that its
viewer was allowed to see when the token was minted, with the credentials that were typed then.
-/
namespace Hyproxy.StreamTokens

open BlockModes (BlockCipher encryptBlocks)
open CameraUrls (buildRtspUrl)
open DataPlane (Ground Outgoing gatewayCookie)
open JsonTexts (encode)
open JsonValues (Json distinct intText write)
open RtspGrants
open RtspStreams (CollisionFree Inv connect_cases inv_after inv_step rtspConsume_map)
open Runs
open SealedTokens (chars decryptToken decryptToken_mintToken loadCypherKey)
open Utf8 (Ascii decode_eq_ascii_iff)

abbrev Text := List Char

abbrev Bytes := List UInt8

/-! ### The broker -/

/-- What a request for a stream resolves to: the row of the camera, what the viewer has typed, and
`str(user_id)`. -/
structure View where
  connection : CameraUrls.ResourceConnection
  rtspUsername : Text
  rtspPassword : Text
  userId : Text
  deriving Repr, DecidableEq

def View.url (v : View) : Text := buildRtspUrl v.connection v.rtspUsername v.rtspPassword

def truthy : Json → Bool
  | .null => false
  | .bool b => b
  | .int n => n != 0
  | .str s => !s.isEmpty
  | .arr items => !items.isEmpty
  | .obj fields => !fields.isEmpty

/-- `str`, for what is no list and no dictionary -/
def str : Json → Option Text
  | .str s => some s
  | .int n => some (intText n)
  | .bool true => some "True".toList
  | .bool false => some "False".toList
  | .null => some "None".toList
  | _ => none

/-- `int`, for numbers -/
def int : Json → Option ℤ
  | .int n => some n
  | .bool true => some 1
  | .bool false => some 0
  | _ => none

variable (cipher : BlockCipher Bytes)

variable {User Ip : Type} [DecidableEq User] [DecidableEq Ip]

/-- The token was minted for the user and the address of a later connect, in time. -/
def Viewed (cfg : Config Ip) (past : List (Event User Ip)) (token : Text) : Prop :=
  ∃ before c rest m expiresAt, past = before ++ .connect c :: rest ∧ Event.mint m ∈ before ∧
    token = mintToken m.iv m.ct ∧ issueStream cfg m = .ok (token, expiresAt) ∧
    c.live (jsonText (gatewayCookie cfg.srv c.request)) = some m.user ∧
    cfg.inet (jsonText c.request.clientIP) = cfg.inet m.sourceIP ∧ c.now < expiresAt

/-- The mint that a row goes back to. -/
def Minted (cfg : Config Ip) (past : List (Event User Ip)) (row : RtspGrant User Ip) : Prop :=
  ∃ m, Event.mint m ∈ past ∧ issueStream cfg m = .ok (mintToken m.iv m.ct, row.expiresAt) ∧
    row.tokenHash = cfg.sha256Hex (mintToken m.iv m.ct) ∧ row.user = m.user ∧
    cfg.inet m.sourceIP = some row.sourceIP

/-- What every run keeps of rows, of requests on their way and of streams. -/
structure Held (cfg : Config Ip) (past : List (Event User Ip)) (s : State User Ip) : Prop where
  rows : ∀ row ∈ s.rows, Minted cfg past row
  inFlight : ∀ f ∈ s.inFlight, Viewed cfg past (bridgeToken f.query)
  streams : ∀ stream ∈ s.streams, Viewed cfg past stream.token ∧
    cfg.decryptToken stream.token = some stream.payload

end Hyproxy.StreamTokens

import Hyproxy.AccountEffects
import Hyproxy.AccountKeys
import Hyproxy.AccountSteps
import Hyproxy.Accounts
import Hyproxy.AdminSessions
import Hyproxy.Administration
import Hyproxy.Attempts
import Hyproxy.AuditAborts
import Hyproxy.AuditDetails
import Hyproxy.AuditShipping
import Hyproxy.AuditedRequests
import Hyproxy.AuthzCheck
import Hyproxy.BlockModes
import Hyproxy.BotFilter
import Hyproxy.BoundedMaps
import Hyproxy.BrowserUrl
import Hyproxy.BruteForce
import Hyproxy.CacheProvenance
import Hyproxy.CameraUrls
import Hyproxy.CertReload
import Hyproxy.ChangeJournal
import Hyproxy.ChangePictures
import Hyproxy.ClientAddresses
import Hyproxy.CodeFlow
import Hyproxy.CodeReplay
import Hyproxy.CodeSpending
import Hyproxy.Connections
import Hyproxy.ConsumedOnce
import Hyproxy.CookieFrames
import Hyproxy.CookieStripping
import Hyproxy.Cookies
import Hyproxy.CutOffs
import Hyproxy.DataPlane
import Hyproxy.DecisionCache
import Hyproxy.DotSegments
import Hyproxy.DownloadReview
import Hyproxy.Downloads
import Hyproxy.Dpop
import Hyproxy.EdgeRuns
import Hyproxy.FactorMoves
import Hyproxy.FactorTransactions
import Hyproxy.GateHosts
import Hyproxy.GateThrottle
import Hyproxy.GatewayLogin
import Hyproxy.GivenIdentities
import Hyproxy.GlobLanguage
import Hyproxy.GrantTables
import Hyproxy.HeaderReading
import Hyproxy.HostGrammar
import Hyproxy.HostScope
import Hyproxy.HostStability
import Hyproxy.HttpHeader
import Hyproxy.HtuCanonical
import Hyproxy.HtuForms
import Hyproxy.IdentityHeaders
import Hyproxy.IdleTimeout
import Hyproxy.IpTexts
import Hyproxy.Journals
import Hyproxy.JsonTexts
import Hyproxy.JsonValues
import Hyproxy.KeyRotation
import Hyproxy.KeysetPages
import Hyproxy.LetterCase
import Hyproxy.LivePlayer
import Hyproxy.LocationHeader
import Hyproxy.LogFiles
import Hyproxy.LogRotate
import Hyproxy.Login
import Hyproxy.LoginReplay
import Hyproxy.LoginStateLocks
import Hyproxy.LoginStateUse
import Hyproxy.LostSecrets
import Hyproxy.Mediation
import Hyproxy.MirroredConnections
import Hyproxy.OneSession
import Hyproxy.Origins
import Hyproxy.OutsideCalls
import Hyproxy.PasskeyAdministration
import Hyproxy.PasskeyBootstrap
import Hyproxy.Passkeys
import Hyproxy.PasswordChanges
import Hyproxy.PathGlob
import Hyproxy.PathPrefixes
import Hyproxy.PathSpelling
import Hyproxy.PercentCoding
import Hyproxy.PlacedStreams
import Hyproxy.PolicyEngine
import Hyproxy.ProofErrors
import Hyproxy.PublicAccess
import Hyproxy.PublicGate
import Hyproxy.PublicHosts
import Hyproxy.PublicRevocation
import Hyproxy.PublicVisits
import Hyproxy.PyQuery
import Hyproxy.PyRegex
import Hyproxy.PyUrl
import Hyproxy.ReadCommitted
import Hyproxy.RecentStepUps
import Hyproxy.RecoveryBatches
import Hyproxy.RecoveryCodes
import Hyproxy.RedirectGuards
import Hyproxy.RefreshInvariant
import Hyproxy.RefreshLedger
import Hyproxy.RefreshRotation
import Hyproxy.RefreshTokens
import Hyproxy.RejectedRequests
import Hyproxy.RejectionRecords
import Hyproxy.ReplayCache
import Hyproxy.RequestTarget
import Hyproxy.ReturnPath
import Hyproxy.ReturnUrls
import Hyproxy.Revocation
import Hyproxy.RotationFailures
import Hyproxy.RotationSuffix
import Hyproxy.RouteIntegrity
import Hyproxy.RouteMaps
import Hyproxy.RouteOrder
import Hyproxy.RouteOwners
import Hyproxy.RouteSwaps
import Hyproxy.RouteTables
import Hyproxy.Routing
import Hyproxy.RowDiscipline
import Hyproxy.RowLocks
import Hyproxy.RtspGrants
import Hyproxy.RtspStreams
import Hyproxy.Runs
import Hyproxy.SealedBlobs
import Hyproxy.SealedConnections
import Hyproxy.SealedTokens
import Hyproxy.SecondFactor
import Hyproxy.SecretWrites
import Hyproxy.SelfAddresses
import Hyproxy.SessionArtifacts
import Hyproxy.SessionLife
import Hyproxy.Sessions
import Hyproxy.SignIns
import Hyproxy.SigningKeys
import Hyproxy.SingleUse
import Hyproxy.SpaAuth
import Hyproxy.StaleAllows
import Hyproxy.StaticHosts
import Hyproxy.StepUp
import Hyproxy.StreamSlots
import Hyproxy.StreamTokens
import Hyproxy.Tasks
import Hyproxy.Text
import Hyproxy.Throttle
import Hyproxy.ThrottleAssertion
import Hyproxy.ThrottleLedger
import Hyproxy.ThrottleTransactions
import Hyproxy.TimeWindows
import Hyproxy.TokenFamilies
import Hyproxy.TokenOperations
import Hyproxy.TunnelTokens
import Hyproxy.Tunnels
import Hyproxy.TwoPasskeys
import Hyproxy.UriParts
import Hyproxy.UrlQuery
import Hyproxy.Utf8
import Hyproxy.Utf8Texts
import Hyproxy.VerdictCaching
import Hyproxy.Viewers
import Hyproxy.WholeFragments
import Hyproxy.WindowChanges

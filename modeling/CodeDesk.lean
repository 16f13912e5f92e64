import CodeDesk.Auth.SecretsAtRest
import CodeDesk.Auth.Trusted
import CodeDesk.Auth.TwoFactor
import CodeDesk.Client.ExitShortcut
import CodeDesk.Client.KeyboardGrab
import CodeDesk.Client.Password
import CodeDesk.Client.UiSessions
import CodeDesk.Clipboard.Multi
import CodeDesk.Clipboard.PasteContainment
import CodeDesk.Conn.Approval
import CodeDesk.Conn.Backoff
import CodeDesk.Conn.Confinement
import CodeDesk.Conn.Factors
import CodeDesk.Conn.Following
import CodeDesk.Conn.Identity
import CodeDesk.Conn.Keys
import CodeDesk.Conn.RemovalLog
import CodeDesk.Conn.Rotation
import CodeDesk.Conn.Scope
import CodeDesk.Conn.Sessions
import CodeDesk.Fs.Delegation
import CodeDesk.Fs.EntryPaths
import CodeDesk.Fs.Errors
import CodeDesk.Fs.WriteRuns
import CodeDesk.Net.Fidelity
import CodeDesk.Net.Honest
import CodeDesk.Net.Proxy
import CodeDesk.Net.Secrecy
import CodeDesk.Privacy.Ownership
import CodeDesk.Rendezvous.Gating
import CodeDesk.Rendezvous.Lookups
import CodeDesk.Rendezvous.Online
import CodeDesk.Rendezvous.Sinks
import CodeDesk.Secure.Agreement
import CodeDesk.Secure.Rendezvous
import CodeDesk.Secure.Secrecy
import CodeDesk.Server.Counter
import CodeDesk.Server.Delay
import CodeDesk.Server.Frames
import CodeDesk.Server.Pairing
import CodeDesk.Server.Service
import CodeDesk.Server.Transparency
import CodeDesk.Settings.Sync
import CodeDesk.Settings.Version
import CodeDesk.Terminal.Reaping
import CodeDesk.Terminal.Redraw
import CodeDesk.Tls.Consent

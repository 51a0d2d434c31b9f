import CrossHostOps.ResumeDestination
import CrossHostOps.ResumeDownload
import CrossHostOps.ByteExact
import CrossHostOps.CopyHandler
import CrossHostOps.Navigate
import CrossHostOps.Passthrough
import CrossHostOps.UploadBinary
import CrossHostOps.RawCommand
import CrossHostOps.CookedCommand
import CrossHostOps.Tunnel
import CrossHostOps.LocalExec
import CrossHostOps.DirectExec
import CrossHostOps.AuditPairs
import CrossHostOps.Confirmed
import CrossHostOps.ExecCommand
import CrossHostOps.CopyVerdicts
import CrossHostOps.PoolWakeups
import CrossHostOps.ListedNames
import CrossHostOps.ListCalls
import CrossHostOps.WriteBack
import CrossHostOps.AtomicWrite
import CrossHostOps.ConfigUpdate
import CrossHostOps.AuthorizedKeys
import CrossHostOps.TokenStore
import CrossHostOps.Handshakes
import CrossHostOps.ExecReturn
import CrossHostOps.UploadFeeder
import CrossHostOps.RecursiveDownload
import CrossHostOps.HashOrder
import CrossHostOps.LocalPaths
import CrossHostOps.ProxyBridge
import CrossHostOps.LocalStdin
import CrossHostOps.ExecStdin
import CrossHostOps.ShellCache
import CrossHostOps.VaultRekey
import CrossHostOps.ExecSeparator
import CrossHostOps.Totp
import CrossHostOps.Globs
import CrossHostOps.CivilDates
import CrossHostOps.RawSession
import CrossHostOps.ReverseNodes

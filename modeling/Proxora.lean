import Proxora.Ecma.Text
import Proxora.Ecma.Regex
import Proxora.Ecma.SlashPattern
import Proxora.Ecma.Uri
import Proxora.Ecma.Url
import Proxora.Ecma.SearchParams
import Proxora.Ecma.Value
import Proxora.Steps
import Proxora.Permissions
import Proxora.GuestScope
import Proxora.FederationAccess
import Proxora.ReadOnlyShare
import Proxora.Database
import Proxora.HostRemoval
import Proxora.UserUpdate
import Proxora.ProxmoxHttp
import Proxora.ProxmoxClient
import Proxora.PathIntegrity
import Proxora.FederationProxy
import Proxora.GuestActions
import Proxora.CommandCheck
import Proxora.BackupFiles
import Proxora.OrphanCleanup
import Proxora.BackupActions
import Proxora.BackupJobs
import Proxora.GuestEndpoints
import Proxora.CheckedPath
import Proxora.PeerShares
import Proxora.Runs
import Proxora.RestoreJobs
import Proxora.InventoryCache
import Proxora.HostStates
import Proxora.Files
import Proxora.GuestPaths
import Proxora.GuestUpload
import Proxora.UploadSound
import Proxora.UploadFailures
import Proxora.UploadRaces
import Proxora.UploadResume
import Proxora.PeerUpdates
import Proxora.ReconnectLoop
import Proxora.RecoveryCodes
import Proxora.UpdateCache
import Proxora.KeyedRows
import Proxora.HostClients
import Proxora.ClientCoherence
import Proxora.HostCaches
import Proxora.Alarms
import Proxora.AlertWatch
import Proxora.ProxmoxTasks
import Proxora.BackupWatch
import Proxora.Dialogues
import Proxora.HostDialogue
import Proxora.GuestDelete
import Proxora.ForcedRestore
import Proxora.DocumentedScope
import Proxora.PermissionPrecedence
import Proxora.ShareLadder
import Proxora.TaskVerdicts
import Proxora.RateLimit
import Proxora.LoginGuesses
import Proxora.SuitePaths
import Proxora.CookieParsing
import Proxora.SuiteCookies
import Proxora.SuiteConfinement
import Proxora.SuiteHeaders
import Proxora.IniSections
import Proxora.Ecma.Lines
import Proxora.Ecma.UrlPath
import Proxora.Ecma.UrlParser
import Proxora.WireguardConf
import Proxora.WireguardInterface
import Proxora.Ecma.Captures
import Proxora.Ecma.Words
import Proxora.BackupVolumes
import Proxora.GuestPurge
import Proxora.VolumeDeletes
import Proxora.BackupRuns
import Proxora.BackupSchedules
import Proxora.UploadSidecars
import Proxora.ReadModifyWrite
import Proxora.GuestNetworks
import Proxora.Administration
import Proxora.VncBridge
import Proxora.VncChunks
import Proxora.MountPoints
import Proxora.VolumeUsage
import Proxora.SafeNext
import Proxora.Ecma.IpAddress
import Proxora.Ecma.IpText
import Proxora.Ecma.Numbers
import Proxora.Ecma.Doubles
import Proxora.Ecma.UrlHost
import Proxora.WebhookTargets
import Proxora.ImageTargets
import Proxora.SftpTargets
import Proxora.WireguardStorage
import Proxora.DiskSpecs
import Proxora.GuestConfigForm
import Proxora.SocketEntries
import Proxora.UploadSocket
import Proxora.GuestPathAlgebra
import Proxora.ShellQuoting
import Proxora.SuggestedAddresses
import Proxora.Ecma.Base64
import Proxora.Ecma.Utf8
import Proxora.GuestListing
import Proxora.GuestAgentFiles
import Proxora.AgentTransfer
import Proxora.Ecma.LineBreaks
import Proxora.SmtpReplies
import Proxora.SmtpMail
import Proxora.SftpDownload
import Proxora.Tilings
import Proxora.SftpUpload
import Proxora.GuestIdentity
import Proxora.CrlfLines
import Proxora.Ecma.Int32
import Proxora.AddressBlocks
import Proxora.WireguardCidrs
import Proxora.ClientAllowedIps
import Proxora.Ecma.SafeIntegers
import Proxora.Loops
import Proxora.NextVmid
import Proxora.BitLists
import Proxora.Totp
import Proxora.RateWindows
import Proxora.Rewriting
import Proxora.EmbedRewriting
import Proxora.SuiteEmbeds
import Proxora.Ecma.Counts
import Proxora.VersionOrder
import Proxora.Histories
import Proxora.Ecma.Maps
import Proxora.TransferTickets
import Proxora.TemplateVersions
import Proxora.LxcTemplates
import Proxora.IsoImages
import Proxora.CyclicWindows
import Proxora.DiskRotation
import Proxora.AsyncPool
import Proxora.VncInput
import Proxora.AccessPreview
import Proxora.WriteChain
import Proxora.RestorePersistence
import Proxora.Sessions
import Proxora.UploadExchange
import Proxora.PeerSync
import Proxora.Framing
import Proxora.TermBridge
import Proxora.UpdateSignal
import Proxora.SmtpSession
import Proxora.Pairing
import Proxora.LoginFactors
import Proxora.TransferDesk
import Proxora.GuestFileFormat
import Proxora.GuestFileTidy

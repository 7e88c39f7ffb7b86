import OneToThree.Lib.Machine
import OneToThree.Lib.Program
import OneToThree.Lib.Service
import OneToThree.Lib.Outline
import OneToThree.Lib.Knowledge
import OneToThree.Lib.Transactions
import OneToThree.Lib.InsMap
import OneToThree.Lib.Base64
import OneToThree.Lib.Json
import OneToThree.Lib.IpText
import OneToThree.Lib.Scan
import OneToThree.Lib.FileTree
import OneToThree.Lib.Paging
import OneToThree.Media.FsObjectStore
import OneToThree.Media.ObjectMap
import OneToThree.Ws.RateTier
import OneToThree.Ws.RateBudgets
import OneToThree.Ws.FrameOrder
import OneToThree.Lib.Newest
import OneToThree.Lib.StableSort
import OneToThree.Ratchet.Kdf
import OneToThree.Ratchet.X3dh
import OneToThree.Ratchet.DoubleRatchet
import OneToThree.Ratchet.Skipped
import OneToThree.Ratchet.Delivery
import OneToThree.Ratchet.OtpLedger
import OneToThree.Ratchet.Session
import OneToThree.Ratchet.SessionManager
import OneToThree.Ratchet.Bounds
import OneToThree.Ratchet.SendKeys
import OneToThree.Trust.TrustStore
import OneToThree.Trust.SendPath
import OneToThree.Trust.Corruption
import OneToThree.Trust.SafetyNumber
import OneToThree.Trust.PinnedKey
import OneToThree.Vault.VaultBlob
import OneToThree.Group.Wrap
import OneToThree.Group.Server
import OneToThree.Group.Client
import OneToThree.Group.Network
import OneToThree.Group.Epochs
import OneToThree.Group.Stamps
import OneToThree.Group.LateUploads
import OneToThree.Group.Reconverge
import OneToThree.Group.SectorWrap
import OneToThree.Group.SectorFrame
import OneToThree.Group.EpochLabel
import OneToThree.Group.RingAppends
import OneToThree.Group.Retention
import OneToThree.Messages.DecryptRow
import OneToThree.Messages.BatchRows
import OneToThree.Messages.RowByRow
import OneToThree.Messages.ReadReceipts
import OneToThree.Messages.ReceiptQueue
import OneToThree.Messages.PendingPull
import OneToThree.Messages.Realtime
import OneToThree.Messages.Server
import OneToThree.Messages.Sentinels
import OneToThree.Messages.NoirPlaintext
import OneToThree.Messages.Delivered
import OneToThree.Messages.Editor
import OneToThree.Messages.Unread
import OneToThree.Messages.ChatStore
import OneToThree.Messages.Fanout
import OneToThree.Ws.Registry
import OneToThree.Ws.Session
import OneToThree.Ws.Revocation
import OneToThree.Devices.Rendezvous
import OneToThree.Devices.Attach
import OneToThree.Devices.Prekeys
import OneToThree.Devices.OneTime
import OneToThree.Devices.Identity
import OneToThree.Devices.Sessions
import OneToThree.Devices.Master
import OneToThree.Devices.RevokedKeys
import OneToThree.Guest.Server
import OneToThree.Guest.Knocks
import OneToThree.Guest.Seats
import OneToThree.Guest.Admissions
import OneToThree.Chats.Members
import OneToThree.Chats.Owner
import OneToThree.Chats.OneTimeCode
import OneToThree.Chats.ChatList
import OneToThree.Chats.Direct
import OneToThree.Chats.Unique
import OneToThree.Chats.Polls
import OneToThree.Chats.Tallies
import OneToThree.Folders.ChatFolders
import OneToThree.Folders.Reload
import OneToThree.Call.SdpMunge
import OneToThree.Call.Hook
import OneToThree.Call.Links
import OneToThree.Call.Signals
import OneToThree.Call.Moves
import OneToThree.Call.Rest
import OneToThree.Call.Provenance
import OneToThree.Call.Recipients
import OneToThree.Call.AuthCache
import OneToThree.Call.Silence
import OneToThree.Call.RelayFrames
import OneToThree.Call.Rooms
import OneToThree.Call.SessionKey
import OneToThree.Call.FreshKey
import OneToThree.Call.Membership
import OneToThree.Auth.Challenges
import OneToThree.Auth.SingleUse
import OneToThree.Auth.Handles
import OneToThree.Auth.DisplayNames
import OneToThree.Auth.Lockout
import OneToThree.Auth.Guesses
import OneToThree.Group.Departures
import OneToThree.Group.Joins
import OneToThree.Outbox.Queue
import OneToThree.Outbox.Delivery
import OneToThree.Outbox.Order
import OneToThree.Outbox.Accounts
import OneToThree.GroupCall.Manager
import OneToThree.GroupCall.Release
import OneToThree.GroupCall.Sfu
import OneToThree.GroupCall.RelayAudio
import OneToThree.GroupCall.Replay
import OneToThree.Media.Eviction
import OneToThree.Media.UploadLimits
import OneToThree.LinkPreview.Ssrf
import OneToThree.LinkPreview.Fetch
import OneToThree.Settings.Registry
import OneToThree.Settings.Cache
import OneToThree.Lib.JsonText
import OneToThree.Lib.JsonUnits
import OneToThree.Lib.CodePoints
import OneToThree.Lib.SplitText
import OneToThree.Lib.PercentText
import OneToThree.Lib.JsonMembers
import OneToThree.Ws.Frames
import OneToThree.Ws.OutboundQueue
import OneToThree.Media.SectorRing
import OneToThree.Media.StickerPacks
import OneToThree.Media.Recorder
import OneToThree.Media.LocalUrl
import OneToThree.Media.Avatars
import OneToThree.Media.MessageMedia
import OneToThree.Media.MessageMediaKept
import OneToThree.Media.AttachmentEnvelope
import OneToThree.Lite.EnvFile
import OneToThree.Lite.Installer
import OneToThree.Lite.Reruns

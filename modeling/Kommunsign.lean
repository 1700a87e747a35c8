import Kommunsign.Crypto.Base64
import Kommunsign.Crypto.SensitiveData
import Kommunsign.Evidence.Receipt
import Kommunsign.Properties.ActorSettings
import Kommunsign.Properties.ApprovedRuns
import Kommunsign.Properties.ArchiveContents
import Kommunsign.Properties.AuditChain
import Kommunsign.Properties.AuditExport
import Kommunsign.Properties.AuditPayloads
import Kommunsign.Properties.AuthAttempts
import Kommunsign.Properties.BankIdSessions
import Kommunsign.Properties.BrowserSessions
import Kommunsign.Properties.CaseCompletion
import Kommunsign.Properties.ClaimedJobs
import Kommunsign.Properties.ClientNetworks
import Kommunsign.Properties.DeclinedSigners
import Kommunsign.Properties.DefaultHostnames
import Kommunsign.Properties.DocumentsReady
import Kommunsign.Properties.DomainLifecycle
import Kommunsign.Properties.DownloadGrants
import Kommunsign.Properties.EmailOutcomes
import Kommunsign.Properties.ErasedCopies
import Kommunsign.Properties.EvidenceText
import Kommunsign.Properties.FrejaResponses
import Kommunsign.Properties.GallringRecovery
import Kommunsign.Properties.GallringRuns
import Kommunsign.Properties.GroupRoles
import Kommunsign.Properties.IdempotentCalls
import Kommunsign.Properties.IdentifiedSigners
import Kommunsign.Properties.InvitationExpiry
import Kommunsign.Properties.InvitationReplays
import Kommunsign.Properties.JobLeases
import Kommunsign.Properties.KeyRotation
import Kommunsign.Properties.LastDocuments
import Kommunsign.Properties.ListingPages
import Kommunsign.Properties.NextRevisions
import Kommunsign.Properties.ObjectStorage
import Kommunsign.Properties.PersonalNumbers
import Kommunsign.Properties.PrivacyLifecycle
import Kommunsign.Properties.ProvisionedOnce
import Kommunsign.Properties.PublishedPackages
import Kommunsign.Properties.QueuedExecutions
import Kommunsign.Properties.RepeatedGallring
import Kommunsign.Properties.ResolverCache
import Kommunsign.Properties.RetentionDecisions
import Kommunsign.Properties.ScimFrames
import Kommunsign.Properties.ScimPages
import Kommunsign.Properties.SignedSigners
import Kommunsign.Properties.SigningInTime
import Kommunsign.Properties.SigningManifests
import Kommunsign.Properties.SigningTurns
import Kommunsign.Properties.SourceBytes
import Kommunsign.Properties.StatedTimes
import Kommunsign.Properties.StatusUpdates
import Kommunsign.Properties.SubjectSearch
import Kommunsign.Properties.SwedishTime
import Kommunsign.Properties.TenantActivation
import Kommunsign.Properties.TimestampAttribution
import Kommunsign.Properties.WebhookDeliveries
import Kommunsign.Properties.WebhookDestinations
import Kommunsign.Properties.ZipArchives
import Kommunsign.Services.CompactJws

import TamForge.Activities.Proofs.Uploads
import TamForge.Agents.Proofs.HalfPoints
import TamForge.Agents.Proofs.RunHistory
import TamForge.Agents.Proofs.Tools
import TamForge.Auth.Proofs.ClientRetries
import TamForge.Auth.Proofs.Credentials
import TamForge.Auth.Proofs.Families
import TamForge.Capture.Proofs.DurationLimit
import TamForge.Capture.Proofs.Gapless
import TamForge.Capture.Proofs.HandoffOrder
import TamForge.Capture.Proofs.Sessions
import TamForge.Cards.Proofs.Importing
import TamForge.Cards.Proofs.Scheduling
import TamForge.Coverage.Proofs.Progress
import TamForge.Evidence.Proofs.Accounting
import TamForge.Evidence.Proofs.Histories
import TamForge.Exports.Proofs.Projection
import TamForge.Exports.Proofs.Restore
import TamForge.Interviews.Proofs.Redaction
import TamForge.Interviews.Reference
import TamForge.Interviews.Timeline
import TamForge.Jobs.Proofs.LeaseExpiry
import TamForge.Learning.Proofs.BuildDay
import TamForge.Learning.Proofs.RealTime
import TamForge.Memory.Proofs.Context
import TamForge.Memory.Proofs.Decisions
import TamForge.Notes.Proofs.Labels
import TamForge.Notifications.Proofs.Stream
import TamForge.Operations.BackupPolicy
import TamForge.Practice.Proofs.Sessions
import TamForge.Recordings.Proofs.TrackManifests
import TamForge.Reports.Proofs.SentAndStored
import TamForge.Reports.Proofs.Timeliness
import TamForge.Reviews.Proofs.Agreement
import TamForge.Reviews.Proofs.Replay
import TamForge.Reviews.Proofs.Subsets
import TamForge.Roadmaps.Proofs.Diffing
import TamForge.Roadmaps.Proofs.Ownership
import TamForge.Roadmaps.Proofs.PackagePaths
import TamForge.Roadmaps.Proofs.Recovery
import TamForge.Roadmaps.Proofs.Reporting
import TamForge.Roadmaps.Proofs.Validations
import TamForge.Roadmaps.Proofs.ZipDirectory
import TamForge.Speech.Proofs.Fluency
import TamForge.Speech.Proofs.Occupancy
import TamForge.Speech.Proofs.Pronunciation
import TamForge.Speech.Proofs.Turns
import TamForge.Today.Proofs.Handoffs
import TamForge.Transcripts.Proofs.Payload
import TamForge.Transcripts.Proofs.Retries
import TamForge.Workers.Proofs.PublishOnce
import TamForge.Workspaces.Proofs.Northstar

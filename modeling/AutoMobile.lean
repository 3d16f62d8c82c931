import AutoMobile.AndroidInputText
import AutoMobile.BarrierLockChecks
import AutoMobile.BindingRegistryFencing
import AutoMobile.BootAdmissionLimit
import AutoMobile.BundleZipTiling
import AutoMobile.CaptureFrameRoundTrip
import AutoMobile.CheckPatternExact
import AutoMobile.CoordinatorExclusion
import AutoMobile.DeviceClaimExclusion
import AutoMobile.EmulatorPortExclusion
import AutoMobile.FailedTrackArrivals
import AutoMobile.GestureOwnershipRuns
import AutoMobile.GestureRouterOutcomes
import AutoMobile.GrpcFraming
import AutoMobile.HierarchyDiffLaws
import AutoMobile.KeyedSerialRuns
import AutoMobile.LineFramerFrames
import AutoMobile.MultiDeviceCycles
import AutoMobile.NetworkRuleTickets
import AutoMobile.OcclusionGeometry
import AutoMobile.PersistedEvents
import AutoMobile.PlanMigratorPlans
import AutoMobile.PrototypeChannelRuns
import AutoMobile.PrototypeCommitOrder
import AutoMobile.PrototypeDataUpsert
import AutoMobile.PushOutboxDelivery
import AutoMobile.ReleaseEpochHistory
import AutoMobile.ResourceSubscriptionCalls
import AutoMobile.RtpPacketization
import AutoMobile.SdkEventBroadcasterRuns
import AutoMobile.SdkEventBufferRuns
import AutoMobile.SecretRedactor
import AutoMobile.SequenceAlignment
import AutoMobile.SessionBrokerCapacity
import AutoMobile.SessionLivenessRuns
import AutoMobile.SocketAdmissionRuns
import AutoMobile.SpecRevisionRuns
import AutoMobile.SseParserRuns
import AutoMobile.StorageSubscriptions
import AutoMobile.VideoServerStreamPushes
import AutoMobile.VideoStreamRoundTrip

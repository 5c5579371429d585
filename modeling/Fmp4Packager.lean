import Fmp4Packager.SegmentIndex
import Fmp4Packager.HeaderRoundTrip
import Fmp4Packager.CuesTruncation
import Fmp4Packager.EbmlArithmetic
import Fmp4Packager.ScanChildren
import Fmp4Packager.InitRoundTrip
import Fmp4Packager.FieldLimits
import Fmp4Packager.EarliestTime
import Fmp4Packager.SyncFlags
import Fmp4Packager.KeyframeFilter
import Fmp4Packager.Demuxer
import Fmp4Packager.EndOfFile
import Fmp4Packager.FailedReopen
import Fmp4Packager.AudioPartition
import Fmp4Packager.AudioAlignment
import Fmp4Packager.EncodeBatches
import Fmp4Packager.SeekReplay
import Fmp4Packager.FrameFallback
import Fmp4Packager.RequestHistory
import Fmp4Packager.BoundaryOrder
import Fmp4Packager.CacheBounds
import Fmp4Packager.HttpReader
import Fmp4Packager.ManifestAgreement
import Fmp4Packager.SegmentContinuity
import Fmp4Packager.TimeOrigin
import Fmp4Packager.AudioPreroll
import Fmp4Packager.AudioTimeline
import Fmp4Packager.UnsignedTimes
import Fmp4Packager.EsdsDescriptors
import Fmp4Packager.BoxTrees
import Fmp4Packager.SizeDecoding
import Fmp4Packager.ScanSafety
import Fmp4Packager.SessionTable
import Fmp4Packager.General.ThreadPool
import Fmp4Packager.Handlers
import Fmp4Packager.HandlerSteps
import Fmp4Packager.SessionLeases
import Fmp4Packager.SectionHistory
import Fmp4Packager.TruthfulReplies
import Fmp4Packager.Playback
import Fmp4Packager.ConsistentReplies
import Fmp4Packager.CuePlaylist
import Fmp4Packager.PlayedAudio
import Fmp4Packager.CueIndex
import Fmp4Packager.PlayedTimes
import Fmp4Packager.HandlerProgress

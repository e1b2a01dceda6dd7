import Replay.Container
import Replay.Metadata.View
import Replay.Proofs.ByteAccounting
import Replay.Proofs.CallOrder
import Replay.Proofs.CutLayouts
import Replay.Proofs.DeclaredLength
import Replay.Proofs.ErrorPlace
import Replay.Proofs.EventProgress
import Replay.Proofs.FrameFields
import Replay.Proofs.GameFields
import Replay.Proofs.MetadataConversion
import Replay.Proofs.MetadataNesting
import Replay.Proofs.MetadataParsing
import Replay.Proofs.PackedFlags
import Replay.Proofs.PayloadLength
import Replay.Proofs.Prediction
import Replay.Proofs.SilentEnd
import Replay.Proofs.SinkFailure
import Replay.Proofs.SizeEntries
import Replay.Proofs.SkippedFrames
import Replay.Proofs.SlotConsistency
import Replay.Proofs.Truncation
import Replay.Proofs.UnknownEvents
import Replay.Proofs.UnsteadySource
import Replay.Proofs.WrittenText

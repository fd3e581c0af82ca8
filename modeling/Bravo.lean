import Bravo.Recovery.Consensus
import Bravo.Recovery.Atomicity
import Bravo.Recovery.Gap
import Bravo.Journal.Published
import Bravo.Updater.RecordedRun
import Bravo.Updater.Transaction
import Bravo.Serial.Finalized
import Bravo.Serial.Pairing
import Bravo.Recovery.Frozen
import Bravo.Timing.Publication
import Bravo.Timing.Receipts
import Bravo.Timing.CrashRecovery
import Bravo.Helper.AlwaysRestores
import Bravo.Campaign.Resumable
import Bravo.Pair.AllOrNothing
import Bravo.Serial.Delivery
import Bravo.TurnSafe.Completeness
import Bravo.Trace.Digest
import Bravo.Trace.CommitOracle
import Bravo.Updater.Stacked
import Bravo.Relocalizer.Sound
import Bravo.Types.Landmark
import Bravo.Types.Quaternion
import Bravo.Updater.FixedChart
import Bravo.Relocalizer.Attempt
import Bravo.Serial.PairSelector
import Bravo.Filter.ImuSelection
import Bravo.Filter.PreviewLive
import Bravo.Strict.Exact
import Bravo.Sequence.Worker
import Bravo.TimingMath.Campaign
import Bravo.Schema.Jsonl
import Bravo.Helper.Packets
import Bravo.Schema.ParameterReader
import Bravo.Sequence.Alignment
import Bravo.Shadow.Projection
import Bravo.Campaign.Passage
import Bravo.Replay.BuildId
import Bravo.Filter.SummedPropagation
import Bravo.Filter.CloneWindow

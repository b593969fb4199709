import NimbleFix.Proof.AccuracyClock
import NimbleFix.Proof.Backpressure
import NimbleFix.Proof.Callbacks
import NimbleFix.Proof.CombinedSaves
import NimbleFix.Proof.CompileTermination
import NimbleFix.Proof.CoreHistory
import NimbleFix.Proof.DayCut
import NimbleFix.Proof.DrainMerge
import NimbleFix.Proof.FrameExtraction
import NimbleFix.Proof.GatherWrites
import NimbleFix.Proof.Ha
import NimbleFix.Proof.MessageTransform
import NimbleFix.Proof.PeekAgreement
import NimbleFix.Proof.RequiredFields
import NimbleFix.Proof.ResendPlan
import NimbleFix.Proof.ResendRequests
import NimbleFix.Proof.ResetStop
import NimbleFix.Proof.RestartNumbers
import NimbleFix.Proof.ReusedView
import NimbleFix.Proof.RoutingExpression
import NimbleFix.Proof.RoutingTable
import NimbleFix.Proof.RuleMerge
import NimbleFix.Proof.RunningChecksum
import NimbleFix.Proof.Schedule
import NimbleFix.Proof.SendingTime
import NimbleFix.Proof.SpscQueue
import NimbleFix.Proof.StoreAgreement
import NimbleFix.Proof.TemplateAgreement
import NimbleFix.Proof.Timer
import NimbleFix.Proof.TimerWheel
import NimbleFix.Proof.WideNumbers

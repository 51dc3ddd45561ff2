import RepublicAgent.Message.FileNames
import RepublicAgent.Receiver.ReadBack
import RepublicAgent.Receiver.ByteOffsets
import RepublicAgent.Receiver.WrapAssert
import RepublicAgent.Receiver.Finality
import RepublicAgent.Receiver.FinishRace
import RepublicAgent.Receiver.Isolation
import RepublicAgent.Receiver.LiveReferences
import RepublicAgent.Channel.WriteWatch
import RepublicAgent.Channel.ReceiveHang
import RepublicAgent.Channel.Fifo
import RepublicAgent.Channel.LoopEnd
import RepublicAgent.Channel.ConnectionLoop
import RepublicAgent.Channel.Checksum
import RepublicAgent.Sender.ControlDrain
import RepublicAgent.Sender.DataPlane
import RepublicAgent.Sender.FastDone
import RepublicAgent.Sender.FinishArray
import RepublicAgent.Sender.HostTraffic
import RepublicAgent.Sender.PriorityQueues
import RepublicAgent.Sender.PushTransfer
import RepublicAgent.Sender.ReceiverCount
import RepublicAgent.Sender.ReleaseCheck
import RepublicAgent.Sender.RepeatedPush
import RepublicAgent.Sender.SendQuota
import RepublicAgent.Sender.SeqEnd
import RepublicAgent.Service.AppLifeCycle
import RepublicAgent.Service.ControllerCalls
import RepublicAgent.Service.DeleteCount
import RepublicAgent.Service.FileUse
import RepublicAgent.Service.PatchData
import RepublicAgent.Service.PathArbitration
import RepublicAgent.Service.PullProtocol
import RepublicAgent.Service.ReaderWakeUp
import RepublicAgent.Service.Registration
import RepublicAgent.Completion.Progress

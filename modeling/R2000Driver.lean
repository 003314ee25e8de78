import R2000Driver.LittleEndian
import R2000Driver.Data
import R2000Driver.PacketExtraction
import R2000Driver.Lists
import R2000Driver.ScanFactories
import R2000Driver.WirePacket
import R2000Driver.ExtractionLoop
import R2000Driver.Links
import R2000Driver.ExtractionTermination
import R2000Driver.TcpReassembly
import R2000Driver.UdpAssembly
import R2000Driver.DeviceScans
import R2000Driver.HttpGet
import R2000Driver.HttpSegments
import R2000Driver.HttpResponse
import R2000Driver.AsyncCommands
import R2000Driver.CommandCallbacks
import R2000Driver.EndpointCache
import R2000Driver.CommandInterference
import R2000Driver.FactoryAgreement
import R2000Driver.StatusWatcher
import R2000Driver.DatagramIsolation
import R2000Driver.LinkLoop
import R2000Driver.ConnectionLost
import R2000Driver.Commands
import R2000Driver.ExecutionModes
import R2000Driver.LastWrite
import R2000Driver.ReadWriteBuilders
import R2000Driver.BuilderSettings
import R2000Driver.JoinedText
import R2000Driver.RequestLine
import R2000Driver.CallerTexts
import R2000Driver.GetParameters
import R2000Driver.DataLinkBuilder
import R2000Driver.LinkConfiguration
import R2000Driver.ConditionVariable
import R2000Driver.IoServiceTask
import R2000Driver.Worker
import R2000Driver.ConnectionCallbacks
import R2000Driver.ScanWaiters
import R2000Driver.PacketBounds
import R2000Driver.ReadSizing
import R2000Driver.LinkIterations
import R2000Driver.FactoryInvariant
import R2000Driver.ScanCompleteness
import R2000Driver.IntegerLoops
import R2000Driver.PayloadDecoding
import R2000Driver.ScanOutputConfig
import R2000Driver.DeviceStatus
import R2000Driver.PeriodicTask
import R2000Driver.PromptTask
import R2000Driver.StallMonitor
import R2000Driver.WatcherTiming
import R2000Driver.LinkLifetime
import R2000Driver.LinkShutdown
import R2000Driver.WorkerShutdown
import R2000Driver.Operations
import R2000Driver.DeviceLifetime
import R2000Driver.DeviceShutdown
import R2000Driver.ScanOrder
import R2000Driver.ScanDelivery
import R2000Driver.LinkBuildResults
import R2000Driver.StatusAnswers
import R2000Driver.NoisyStream

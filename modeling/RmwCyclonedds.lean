import RmwCyclonedds.Library.ByteOrder
import RmwCyclonedds.Library.Extent
import RmwCyclonedds.Library.Cdr
import RmwCyclonedds.Bytewise
import RmwCyclonedds.TypeSupport.Memory
import RmwCyclonedds.Serialization.Registration
import RmwCyclonedds.Serialization.Cursor
import RmwCyclonedds.Serialization.Projection
import RmwCyclonedds.Serialization.Serialize
import RmwCyclonedds.Serialization.SizeBound
import RmwCyclonedds.Serialization.Bounds
import RmwCyclonedds.Serialization.CDRWriter
import RmwCyclonedds.Serialization.SerializedSize
import RmwCyclonedds.Library.Traced
import RmwCyclonedds.Serialization.MaxBound
import RmwCyclonedds.Serialization.Deserialize
import RmwCyclonedds.Serialization.RoundTrip
import RmwCyclonedds.Serialization.Accepted
import RmwCyclonedds.Serialization.CDRReader
import RmwCyclonedds.Serialization.Shortcut
import RmwCyclonedds.Serialization.Sizing
import RmwCyclonedds.Serialization.KeyPart
import RmwCyclonedds.Serialization.NonKey
import RmwCyclonedds.Serialization.ExtractKey
import RmwCyclonedds.Serialization.ExtractedKey
import RmwCyclonedds.Serialization.KeyReader
import RmwCyclonedds.Serdata.SerdataRmw
import RmwCyclonedds.Serdata.Construction
import RmwCyclonedds.Serdata.Keys
import RmwCyclonedds.Serialization.BigEndianKey
import RmwCyclonedds.Serialization.Requests
import RmwCyclonedds.Serdata.KeyHash
import RmwCyclonedds.Serdata.RequestKeys
import RmwCyclonedds.Serdata.SharedMemory
import RmwCyclonedds.Serdata.ToSample
import RmwCyclonedds.Library.Search
import RmwCyclonedds.Names.Demangle
import RmwCyclonedds.Names.TypeName
import RmwCyclonedds.Library.Runs
import RmwCyclonedds.Node.Callbacks
import RmwCyclonedds.Node.Domains
import RmwCyclonedds.Library.Topic
import RmwCyclonedds.Node.Services
import RmwCyclonedds.Library.Sweep
import RmwCyclonedds.Node.WaitSet
import RmwCyclonedds.Node.WaitSetCache
import RmwCyclonedds.Node.WaitSetThreads
import RmwCyclonedds.Node.TakeSequence
import RmwCyclonedds.TypeSupport.SelfContained
import RmwCyclonedds.TypeSupport.DynamicType
import RmwCyclonedds.Serialization.Typesupports
import RmwCyclonedds.Serialization.LengthChecks
import RmwCyclonedds.Library.InStep
import RmwCyclonedds.Serialization.Print
import RmwCyclonedds.Serialization.KeyWalk
import RmwCyclonedds.Serdata.Callbacks
import RmwCyclonedds.Serialization.FixedKey
import RmwCyclonedds.Serdata.KeyhashBuffer
import RmwCyclonedds.Serialization.LongestKey
import RmwCyclonedds.Serdata.KeyhashRule
import RmwCyclonedds.Node.SequenceIds
import RmwCyclonedds.Node.WaitSetRelease
import RmwCyclonedds.Serdata.Reassembly
import RmwCyclonedds.Serdata.LazySerialization
import RmwCyclonedds.Node.MatchedEndpoints
import RmwCyclonedds.Node.ResponseIsolation
import RmwCyclonedds.Node.TakeLoan
import RmwCyclonedds.Node.FailedQueries
import RmwCyclonedds.Library.Ledger
import RmwCyclonedds.Node.EndpointCreation
import RmwCyclonedds.Names.Totality
import RmwCyclonedds.Names.ServiceType
import RmwCyclonedds.Library.Xml
import RmwCyclonedds.Node.DomainConfig
import RmwCyclonedds.Node.QosRoundTrip
import RmwCyclonedds.Node.ClientServiceIds
import RmwCyclonedds.TypeSupport.TypeObject
import RmwCyclonedds.Serialization.ObjectCache
import RmwCyclonedds.Serialization.CacheHits
import RmwCyclonedds.Serialization.PrintPrefix
import RmwCyclonedds.Serialization.BulkKey
import RmwCyclonedds.Serialization.Stride
import RmwCyclonedds.Library.Instances
import RmwCyclonedds.Node.Discovery
import RmwCyclonedds.Node.DiscoveryThread
import RmwCyclonedds.Node.GraphCache
import RmwCyclonedds.Node.DiscoveryStop
import RmwCyclonedds.Serdata.SerializedMessage
import RmwCyclonedds.Node.Take
import RmwCyclonedds.Node.Relay
import RmwCyclonedds.Node.Relayed
import RmwCyclonedds.Library.Simulation
import RmwCyclonedds.Node.RequestWrapper
import RmwCyclonedds.Node.WireServices
import RmwCyclonedds.Node.WireRefinement
import RmwCyclonedds.Library.Holdings
import RmwCyclonedds.Node.Handles
import RmwCyclonedds.Node.HandleRuns

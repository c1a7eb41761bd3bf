import Agentd.ByteString
import Agentd.FaultyTransactions
import Agentd.CertificateFields
import Agentd.DataserviceRecords
import Agentd.DataserviceStore
import Agentd.DataserviceQueue
import Agentd.DataserviceBlocks
import Agentd.DataserviceRequests
import Agentd.DataserviceAtomicity
import Agentd.LinkedKeys
import Agentd.ProcessQueueRefinement
import Agentd.DataserviceEffects
import Agentd.ProcessQueueRuns
import Agentd.PendingOrCanonized
import Agentd.BlockchainInvariant
import Agentd.ArtifactHistory
import Agentd.CanonizedRecords
import Agentd.ChildContexts
import Agentd.CapabilityConfinement
import Agentd.CanonizationService
import Agentd.CanonizationSystem
import Agentd.PublishedBlocks
import Agentd.BlockAcceptance
import Agentd.RootContextDatabase
import Agentd.ChildContextSlots
import Agentd.ResponseCorrelation
import Agentd.NestedCalls
import Agentd.IncrementalParsing
import Agentd.IpcPackets
import Agentd.PacketDelivery
import Agentd.RequestCodec
import Agentd.StoredRecords
import Agentd.ResponseCodec
import Agentd.BlockAssertions
import Agentd.TransitionRuns
import Agentd.CanonizationRounds
import Agentd.BlockContents
import Agentd.ReachableStores
import Agentd.QueueProgress
import Agentd.RoundTurns
import Agentd.RoundDiscipline
import Agentd.ChainTip
import Agentd.NotificationFibers
import Agentd.AssertionEntries
import Agentd.AssertionAnswers
import Agentd.TwinTrees
import Agentd.ContextBijection
import Agentd.DataEndpointClients
import Agentd.EndpointSurvival
import Agentd.NotificationEndpoint
import Agentd.AssertionTrips
import Agentd.AssertionBookkeeping
import Agentd.ClientProtocol
import Agentd.ClientRequests
import Agentd.RequestedContexts
import Agentd.ResponseAccounts
import Agentd.RequestAccounts
import Agentd.AnsweredOnce
import Agentd.ProtocolFiber
import Agentd.SessionIvs
import Agentd.HandshakeSteps
import Agentd.SessionAuthentication
import Agentd.ControlFidelity
import Agentd.ClientAuthority
import Agentd.AuthorizedRequests
import Agentd.FragmentedStreams
import Agentd.TypedIpc
import Agentd.IpcCodecs
import Agentd.ConfigBlock
import Agentd.StreamFronts
import Agentd.ConfigFields
import Agentd.ConfigRoundTrip
import Agentd.EntityReader
import Agentd.EntityStreams
import Agentd.EntityRuns
import Agentd.EntityLoading
import Agentd.ClientAnswers
import Agentd.ClientTraversal
import Agentd.ExtendedApi
import Agentd.ExtendedApiInvariant
import Agentd.ExtendedApiCorrelation
import Agentd.ReservedIds
import Agentd.QueueLookups
import Agentd.FailedForwards
import Agentd.FatalRequests
import Agentd.HandleDiscipline
import Agentd.BlockEffects
import Agentd.SignedBlocks
import Agentd.BlockLimits
import Agentd.EndpointFiber
import Agentd.RefusedContexts
import Agentd.TranslatedRequests
import Agentd.InvalidatedValues
import Agentd.StaleViews
import Agentd.ViewIndependence
import Agentd.AuthedPackets
import Agentd.AuthedReads
import Agentd.ConfigFolding
import Agentd.KeptSettings
import Agentd.ConfigNumbers
import Agentd.CStrings
import Agentd.PathDirname
import Agentd.ServicePrivileges
import Agentd.OrderedChannels
import Agentd.ClientSession
import Agentd.HandshakeAgreement
import Agentd.LinkedSession
import Agentd.SessionAgreement
import Agentd.ProcessControl
import Agentd.Supervision
import Agentd.DescriptorTables
import Agentd.DescriptorHandoff
import Agentd.IndexedStreams
import Agentd.RandomService
import Agentd.AttestationRounds
import Agentd.ConnectionHandoff
import Agentd.ServiceConfiguration

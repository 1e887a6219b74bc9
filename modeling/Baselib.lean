import Baselib.Core.UriResolveTheorems
import Baselib.Tasks.ExecutionQueueInvariants
import Baselib.Tasks.ExecutionQueueWaiters
import Baselib.Tasks.ExecutionQueueNotify
import Baselib.Security.AuthorizationCacheTheorems
import Baselib.Data.FilesystemMetadataPaths
import Baselib.Transfer.ChunksTransmitterCommit
import Baselib.Transfer.ChunksSendRecvAuthentication
import Baselib.Transfer.ChunksSendRecvDelivery
import Baselib.Transfer.SymlinkTarget
import Baselib.Transfer.FileTransfer
import Baselib.Transfer.FilesUnpackagerTheorems
import Baselib.Tasks.MultiOperationTaskTheorems
import Baselib.Messaging.BlockTransferServerTheorems
import Baselib.Messaging.BlockServerOutgoingTheorems
import Baselib.Rest.MessagingBridgeResponse
import Baselib.Messaging.DataChunkStorageSingleFileMap
import Baselib.Tasks.TaskCancellationTheorems
import Baselib.Async.AsyncExecutorCalls
import Baselib.Messaging.BrokerBackendProcessingTheorems
import Baselib.Messaging.ConversationProcessingTaskTheorems
import Baselib.Messaging.TcpBlockTransferCommonTheorems
import Baselib.Tasks.TcpServerDrain
import Baselib.Rest.MessagingBridgeInsertion
import Baselib.HttpServer.ConnectionTheorems
import Baselib.Http.RequestRoundTrip
import Baselib.Tasks.TcpSslSocketTheorems
import Baselib.Data.DataModelObjectRoundTrip
import Baselib.Core.StringConversionsTheorems
import Baselib.Http.HeaderListMap
import Baselib.Messaging.ProxyClientsStateTheorems
import Baselib.Messaging.ProxySmallBlocksTheorems
import Baselib.Http.SimpleHttpResponseAcceptance
import Baselib.Data.DataBlockRoundTrip
import Baselib.Messaging.MessagingUtilsTheorems
import Baselib.Messaging.RotatingDispatch
import Baselib.Core.SerializationUtilsTheorems
import Baselib.Core.StringTemplateResolverTheorems
import Baselib.Transfer.DirsTimestamps
import Baselib.Tasks.RetryableWrapperTaskTheorems
import Baselib.Tasks.TimerTaskTheorems
import Baselib.Messaging.AsyncSharedStateBlocks
import Baselib.Security.AuthorizationServiceRestToken
import Baselib.Transfer.ChunksSendRecvReconnect
import Baselib.Core.BoostJsonTheorems
import Baselib.Core.ThreadPoolLifetime
import Baselib.Messaging.MessagingClientChannel
import Baselib.Data.ServerErrorHelpersTheorems
import Baselib.Tasks.ExecuteQueueDrain
import Baselib.Core.IcmpHeader
import Baselib.Core.NetUtils
import Baselib.Core.FileEncoding
import Baselib.Core.WatchdogTheorems
import Baselib.Tasks.ScanDirectoryTaskTheorems
import Baselib.Core.PathUtils
import Baselib.Core.Pool
import Baselib.Core.Transaction
import Baselib.Http.ResponseRoundTrip

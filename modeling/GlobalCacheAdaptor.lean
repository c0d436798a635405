import GlobalCacheAdaptor.Lib.Run
import GlobalCacheAdaptor.Lib.Ledger
import GlobalCacheAdaptor.Lib.Wire
import GlobalCacheAdaptor.Lib.OrdMap
import GlobalCacheAdaptor.Lib.Extents
import GlobalCacheAdaptor.Lib.Tokens
import GlobalCacheAdaptor.Lib.Slots
import GlobalCacheAdaptor.Lib.Regex
import GlobalCacheAdaptor.Lib.Handles
import GlobalCacheAdaptor.ServerAdaptor.SaDef
import GlobalCacheAdaptor.ServerAdaptor.ObjectName
import GlobalCacheAdaptor.ServerAdaptor.MsgModule
import GlobalCacheAdaptor.ServerAdaptor.NetworkModule
import GlobalCacheAdaptor.ServerAdaptor.ExecClass
import GlobalCacheAdaptor.ServerAdaptor.ClassApi
import GlobalCacheAdaptor.ServerAdaptor.ClassIsolation
import GlobalCacheAdaptor.ServerAdaptor.OmapReply
import GlobalCacheAdaptor.ServerAdaptor.BatchReply
import GlobalCacheAdaptor.ServerAdaptor.ListSnaps
import GlobalCacheAdaptor.ServerAdaptor.CounterCas
import GlobalCacheAdaptor.ServerAdaptor.Throttle
import GlobalCacheAdaptor.ServerAdaptor.Admission
import GlobalCacheAdaptor.ServerAdaptor.OpQueue
import GlobalCacheAdaptor.ServerAdaptor.QueueCapacity
import GlobalCacheAdaptor.ServerAdaptor.LimitWrite
import GlobalCacheAdaptor.ServerAdaptor.OsaInit
import GlobalCacheAdaptor.ClientAdaptor.NodeId
import GlobalCacheAdaptor.ClientAdaptor.NodeAddr
import GlobalCacheAdaptor.ClientAdaptor.Objecter
import GlobalCacheAdaptor.ClientAdaptor.Placement
import GlobalCacheAdaptor.ClientAdaptor.NodeView
import GlobalCacheAdaptor.ClientAdaptor.DataLocation
import GlobalCacheAdaptor.ClientAdaptor.DataObject
import GlobalCacheAdaptor.ClientAdaptor.InFlight
import GlobalCacheAdaptor.ClientAdaptor.WakeUp
import GlobalCacheAdaptor.ClientAdaptor.Prefetch
import GlobalCacheAdaptor.ClientAdaptor.PrefetchName
import GlobalCacheAdaptor.ClientAdaptor.WriteOrder
import GlobalCacheAdaptor.CephProxy.MonText
import GlobalCacheAdaptor.CephProxy.DfTable
import GlobalCacheAdaptor.CephProxy.PoolUsage
import GlobalCacheAdaptor.CephProxy.StripeUnit
import GlobalCacheAdaptor.CephProxy.RbdWrapper
import GlobalCacheAdaptor.CephProxy.PoolScale
import GlobalCacheAdaptor.CephProxy.RadosWorker
import GlobalCacheAdaptor.CephProxy.IoCtxTable
import GlobalCacheAdaptor.CephProxy.ProxyCtx
import GlobalCacheAdaptor.CephProxy.Sgl
import GlobalCacheAdaptor.CephProxy.FreeSlots
import GlobalCacheAdaptor.CephProxy.RadosWrapper
import GlobalCacheAdaptor.CephProxy.Gather
import GlobalCacheAdaptor.CephProxy.Guards
import GlobalCacheAdaptor.CephProxy.ReadOp
import GlobalCacheAdaptor.CephProxy.ReadDelivery
import GlobalCacheAdaptor.CephProxy.OmapIter
import GlobalCacheAdaptor.Messenger.TlsSend
import GlobalCacheAdaptor.ServerAdaptor.ClassHandler
import GlobalCacheAdaptor.ServerAdaptor.ClassTable
import GlobalCacheAdaptor.ServerAdaptor.ClassLoading
import GlobalCacheAdaptor.ServerAdaptor.ClassMethods
import GlobalCacheAdaptor.ServerAdaptor.StopThread
import GlobalCacheAdaptor.ServerAdaptor.CopyupGate
import GlobalCacheAdaptor.ServerAdaptor.Restart
import GlobalCacheAdaptor.ClientAdaptor.SnapRollback
import GlobalCacheAdaptor.Messenger.TlsChannel
import GlobalCacheAdaptor.ClientAdaptor.GcConnections
import GlobalCacheAdaptor.ClientAdaptor.SnapRequests
import GlobalCacheAdaptor.ClientAdaptor.PluginLife
import GlobalCacheAdaptor.CephProxy.XattrIter
import GlobalCacheAdaptor.CephProxy.WorkerStop

import OneHelpers.Core.SparseArray
import OneHelpers.Core.Pieces
import OneHelpers.Core.PriorityQueue
import OneHelpers.Core.KeyedList
import OneHelpers.Core.Paging
import OneHelpers.Core.Executor
import OneHelpers.Core.Text
import OneHelpers.Core.Uri
import OneHelpers.Core.BitTable
import OneHelpers.Core.Bimap
import OneHelpers.Core.Path
import OneHelpers.Storage.KeyValueHelper
import OneHelpers.Storage.KeyValueAdapter
import OneHelpers.Storage.KeyValueRefinement
import OneHelpers.Storage.WebDAV
import OneHelpers.Storage.WebDAVSessions
import OneHelpers.Storage.WebDAVEndpoint
import OneHelpers.Storage.Readdir
import OneHelpers.Storage.NullDevice
import OneHelpers.Storage.FlatOpScheduler
import OneHelpers.Storage.DeleteObjects
import OneHelpers.Storage.PosixWrite
import OneHelpers.Storage.GlusterFSOptions
import OneHelpers.Storage.NullDeviceFactory
import OneHelpers.Storage.Listxattr
import OneHelpers.Storage.Xattr
import OneHelpers.Storage.WebDAVXattr
import OneHelpers.Storage.Flags
import OneHelpers.Storage.Retry
import OneHelpers.Storage.GlusterFSPaths
import OneHelpers.Buffering.BufferedFileHandle
import OneHelpers.Buffering.WriteBufferRuns
import OneHelpers.Buffering.MemoryLimitGuard
import OneHelpers.Buffering.ReadCacheRuns
import OneHelpers.Communication.Messages
import OneHelpers.Communication.Status
import OneHelpers.Communication.Inbox
import OneHelpers.Communication.Sequencer
import OneHelpers.Communication.SequencerControl
import OneHelpers.Communication.Streaming
import OneHelpers.Communication.StreamRuns
import OneHelpers.Communication.Codec
import OneHelpers.Communication.Handshake
import OneHelpers.Communication.ConnectionPool
import OneHelpers.Communication.Communicator
import OneHelpers.Communication.Retrier
import OneHelpers.Communication.ClientBootstrap
import OneHelpers.Storage.Flags

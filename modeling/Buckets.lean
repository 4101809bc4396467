import Buckets.ObjectDelete
import Buckets.RegistryRuns
import Buckets.PlacementRuns
import Buckets.PlacementDisks
import Buckets.Versioning
import Buckets.VersioningCache
import Buckets.AtomicWriters
import Buckets.MigrationCheckpoint
import Buckets.TopologyRuns
import Buckets.RingLookupN
import Buckets.UploadEnd
import Buckets.ChunkDirectory
import Buckets.PutMetadata
import Buckets.MultidiskQuorum
import Buckets.MetadataCache
import Buckets.ResponseReaders
import Buckets.ReplicationQueue
import Buckets.EndpointExpansion
import Buckets.FormatFile
import Buckets.TokenBucket
import Buckets.ResponseHeader
import Buckets.ReadonlyPolicy
import Buckets.Base64Pairs
import Buckets.Siphash
import Buckets.Xxhash
import Buckets.Blake2b
import Buckets.ErasureRepair
import Buckets.ConnClose
import Buckets.ResponseEnd
import Buckets.ListingBuffer
import Buckets.QueryParams
import Buckets.ShortPlacement
import Buckets.TlsConn
import Buckets.XmlEscape
import Buckets.UrlDecodeInplace
import Buckets.BatchDispatch

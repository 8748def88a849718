import InfluxCloud.Cluster.Basic
import InfluxCloud.Cluster.ShardGroupList
import InfluxCloud.Cluster.ShardMapping
import InfluxCloud.Cluster.MapShards
import InfluxCloud.Cluster.WriteToShard
import InfluxCloud.Cluster.WritePoints
import InfluxCloud.Cluster.Tlv
import InfluxCloud.Cluster.Service
import InfluxCloud.Cluster.WritePath
import InfluxCloud.Cluster.Lifecycle
import InfluxCloud.Cluster.Serve

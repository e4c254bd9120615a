import ValkeyOperator.Valkey.ClusterNodes
import ValkeyOperator.Valkey.RollHash
import ValkeyOperator.Cluster.Rolling
import ValkeyOperator.Node.LiveConfig
import ValkeyOperator.Node.Reclaim
import ValkeyOperator.Cluster.Verified
import ValkeyOperator.Cluster.Migrations
import ValkeyOperator.Cluster.Degraded
import ValkeyOperator.Cluster.Settled
import ValkeyOperator.Cluster.Teardown
import ValkeyOperator.Cluster.Takeover
import ValkeyOperator.Cluster.FreeSlots
import ValkeyOperator.Cluster.ACLMatch
import ValkeyOperator.Cluster.AuthReload
import ValkeyOperator.Cluster.NetworkPolicy
import ValkeyOperator.Cluster.Effects
import ValkeyOperator.Backup.Deletion
import ValkeyOperator.Backup.Verdicts
import ValkeyOperator.Backup.Fires
import ValkeyOperator.Backup.Retention
import ValkeyOperator.Cluster.VersionWindow
import ValkeyOperator.Restore.Adoption
import ValkeyOperator.Restore.SlotMap
import ValkeyOperator.Restore.Destinations
import ValkeyOperator.Restore.Loading
import ValkeyOperator.Restore.Agreement
import ValkeyOperator.Restore.Numbering
import ValkeyOperator.Restore.Mirror

import ValkeyOperator.Cluster.Api

/-! The backup resource (`perconavalkeybackup_types.go`), as its controller reads
and writes it. -/

namespace ValkeyOperator.Backup
open Text Api

inductive BackupState where
  | new
  | starting
  | running
  | succeeded
  | failed
  | error
deriving DecidableEq

inductive SlotCoverage where
  | complete
  | partialCover
deriving DecidableEq

inductive BackupConsistency where
  | strict
  | bestEffort
deriving DecidableEq

structure ShardBackupStatus where
  shardIndex : Int
  slotRange : Str
  rdbObject : Str
  sizeBytes : Int
  checksum : Str
deriving DecidableEq

/-- What the user adds to the container of the backup Job. -/
structure ContainerOptions where
  args : List Str := []
  env : List EnvVar := []
deriving DecidableEq

structure BackupSpec where
  clusterName : Str
  storageName : Str := []
  /-- none when it is not set -/
  consistency : Option BackupConsistency := none
  containerOptions : Option ContainerOptions := none
deriving DecidableEq

/-- Times are microseconds. -/
structure BackupStatus where
  state : BackupState := .new
  stateDescription : Str := []
  destination : Str := []
  storageName : Str := []
  s3 : Option StorageCoordinates := none
  gcs : Option StorageCoordinates := none
  azure : Option StorageCoordinates := none
  shards : List ShardBackupStatus := []
  slotCoverage : Option SlotCoverage := none
  start : Option Int := none
  completed : Option Int := none
  valkeyVersion : Str := []
deriving DecidableEq

structure PerconaValkeyBackup where
  name : Str
  ns : Str := []
  uid : Nat := 0
  finalizers : List Str := []
  deleting : Bool := false
  spec : BackupSpec
  status : BackupStatus := {}
deriving DecidableEq

def setState (bk : PerconaValkeyBackup) (state : BackupState) (description : Str) :
    PerconaValkeyBackup :=
  { bk with status := { bk.status with state := state, stateDescription := description } }

def isTerminalState : BackupState → Bool
  | .succeeded | .failed | .error => true
  | _ => false

def isTerminal (bk : PerconaValkeyBackup) : Bool := isTerminalState bk.status.state

end ValkeyOperator.Backup

import ValkeyOperator.Cluster.Api

/-! The environment of a backup Job (`pkg/backup/jobenv.go`): the settings of one
storage and one backup set as name and value pairs, empty ones left out, in name
order. -/

namespace ValkeyOperator.Backup
open Text Api

structure JobEnvParams where
  cluster : Str
  backup : Str
  spec : Option BackupStorageSpec := none
  filesystemRoot : Str := []
  mode : Str := []
  crVersion : Str := []
  consistency : Str := []
  engineVersion : Str := []
  seedNode : Str := []
  authUser : Str := []
  tlsEnabled : Bool := false
  tlsCAFile : Str := []
  downloadDst : Str := []

def storageTypeName : BackupStorageType → Str
  | .s3 => "s3"
  | .gcs => "gcs"
  | .azure => "azure"
  | .filesystem => "filesystem"

def storageEnv (p : JobEnvParams) : List (Str × Str) :=
  match p.spec with
  | none => []
  | some spec =>
    ("VALKEY_BACKUP_STORAGE_TYPE", storageTypeName spec.type) ::
      match spec.type with
      | .s3 =>
        match spec.s3 with
        | none => []
        | some c =>
          [("VALKEY_BACKUP_S3_BUCKET", c.bucket),
            ("VALKEY_BACKUP_S3_PREFIX", c.keyPrefix),
            ("VALKEY_BACKUP_S3_REGION", c.region),
            ("VALKEY_BACKUP_S3_ENDPOINT", c.endpointURL)]
      | .gcs =>
        match spec.gcs with
        | none => []
        | some c =>
          [("VALKEY_BACKUP_GCS_BUCKET", c.bucket),
            ("VALKEY_BACKUP_GCS_PREFIX", c.keyPrefix)]
      | .azure =>
        match spec.azure with
        | none => []
        | some c =>
          [("VALKEY_BACKUP_AZURE_CONTAINER", c.bucket),
            ("VALKEY_BACKUP_AZURE_PREFIX", c.keyPrefix)]
      | .filesystem => [("VALKEY_BACKUP_FS_ROOT", p.filesystemRoot)]

def manifestEnv (p : JobEnvParams) : List (Str × Str) :=
  [("VALKEY_BACKUP_MODE", p.mode), ("VALKEY_BACKUP_CR_VERSION", p.crVersion),
    ("VALKEY_BACKUP_CONSISTENCY", p.consistency),
    ("VALKEY_BACKUP_ENGINE_VERSION", p.engineVersion)]

def connEnv (p : JobEnvParams) : List (Str × Str) :=
  [("VALKEY_BACKUP_SEED_NODE".toList, p.seedNode), ("VALKEY_BACKUP_AUTH_USER".toList, p.authUser)] ++
    if p.tlsEnabled then
      [("VALKEY_BACKUP_TLS".toList, "true".toList),
        ("VALKEY_BACKUP_TLS_CA_FILE".toList, p.tlsCAFile)]
    else []

def jobEnv (p : JobEnvParams) : List EnvVar :=
  let kv := [("VALKEY_BACKUP_CLUSTER".toList, p.cluster), ("VALKEY_BACKUP_NAME".toList, p.backup)] ++
    storageEnv p ++ manifestEnv p ++ connEnv p ++
    [("VALKEY_BACKUP_DOWNLOAD_DST".toList, p.downloadDst)]
  ((kv.filter fun e => e.2 ≠ []).insertionSort fun a b => a.1 ≤ b.1).map
    fun e => { name := e.1, value := e.2 }

end ValkeyOperator.Backup

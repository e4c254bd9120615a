import ValkeyOperator.Backup.JobEnv
import ValkeyOperator.Backup.Store

/-! Which store a configuration leads to (`pkg/backup/config.go`, `destination.go`), and
how the sidecar reads its configuration back from its environment
(`cmd/valkey-backup/main.go`, `config_env.go`).

The environment a Job is given is decoded to the place it was written for, except for a
filesystem, whose root the callers do not pass on. -/

namespace ValkeyOperator.Backup
open Text Api

variable {p : JobEnvParams} {env env' : List EnvVar} {name : Str}

/-! ## Destinations -/

def parseBucketDest (scheme dest : Str) : Except Err Destination :=
  let rest := trim '/' (trimPrefix dest scheme)
  if rest = [] then
    .error { msg := "backup destination " ++ quote dest ++ " has no bucket/container" }
  else
    let (bucket, path) := cut '/' rest
    if bucket = [] then
      .error ⟨"backup destination " ++ quote dest ++ " has an empty bucket/container", false⟩
    else .ok ⟨scheme, bucket, trim '/' (path.getD [])⟩

def parseDestination (dest : Str) : Except Err Destination :=
  if hasPrefix dest schemeS3 then parseBucketDest schemeS3 dest
  else if hasPrefix dest schemeGCS then parseBucketDest schemeGCS dest
  else if hasPrefix dest schemeAzure then parseBucketDest schemeAzure dest
  else if hasPrefix dest schemePVC then .ok ⟨schemePVC, [], trim '/' (trimPrefix dest schemePVC)⟩
  else
    .error ⟨"unrecognised backup destination " ++ quote dest ++
      " (want one of s3:// gs:// azure:// pvc/)", false⟩

/-! ## Stores -/

structure StorageConfig where
  type : BackupStorageType
  s3 : Option StorageCoordinates := none
  gcs : Option StorageCoordinates := none
  azure : Option StorageCoordinates := none
  filesystemRoot : Str := []
deriving DecidableEq

/-- What of a configuration a restore has to keep: the backend, the bucket, container or
directory, and the prefix of its keys. Endpoint and account are those of the opened store. -/
structure Place where
  type : BackupStorageType
  bucket : Str
  keyPrefix : Str := []
deriving DecidableEq

/-- The place of a bucket; nothing is configured without coordinates. -/
def bucketPlace (type : BackupStorageType) (coordinates : Option StorageCoordinates) : Place where
  type := type
  bucket := (coordinates.map (·.bucket)).getD []
  keyPrefix := (coordinates.map (·.keyPrefix)).getD []

def StorageConfig.place (cfg : StorageConfig) : Place :=
  match cfg.type with
  | .s3 => bucketPlace .s3 cfg.s3
  | .gcs => bucketPlace .gcs cfg.gcs
  | .azure => bucketPlace .azure cfg.azure
  | .filesystem => ⟨.filesystem, cfg.filesystemRoot, []⟩

/-- Which bucket or container a client of a cloud talks to. -/
structure StoreId where
  kind : CloudKind
  bucket : Str
  endpoint : Str := []
  account : Str := []
deriving DecidableEq

/-- An opened store: that of a cloud with the prefix of its keys, or a directory. -/
inductive OpenedStore where
  | cloud (id : StoreId) (keyPrefix : Str)
  | directory (root : Str)

/-- The first setting that is not empty. -/
def firstSet (values : List Str) : Str := (values.find? (· ≠ [])).getD []

/-- What the constructors of the cloud backends share. -/
def newCloudStore (backend spec bucket : String) (identify : StorageCoordinates → Except Err StoreId) :
    Option StorageCoordinates → Except Err OpenedStore
  | none => .error { msg := backend.toList ++ " backend: nil " ++ spec.toList }
  | some c =>
    if c.bucket = [] then
      .error { msg := backend.toList ++ " backend: empty " ++ bucket.toList }
    else (identify c).map (.cloud · c.keyPrefix)

section Stores
-- the credentials by their names, and what the cloud's library itself looks up
variable (vars : Str → Str)

def newS3Store : Option StorageCoordinates → Except Err OpenedStore :=
  newCloudStore "s3" "S3 spec" "bucket" fun c => .ok
    { kind := .s3, bucket := c.bucket
      endpoint := firstSet [c.endpointURL, vars "AWS_ENDPOINT_URL_S3", vars "AWS_ENDPOINT_URL"] }

def newGCSStore : Option StorageCoordinates → Except Err OpenedStore :=
  newCloudStore "gcs" "GCS spec" "bucket" fun c => .ok
    { kind := .gcs, bucket := c.bucket, endpoint := vars "STORAGE_EMULATOR_HOST" }

def newAzureStore : Option StorageCoordinates → Except Err OpenedStore :=
  newCloudStore "azure" "Azure spec" "container" fun c =>
    let account := vars "AZURE_STORAGE_ACCOUNT"
    if account = [] ∨ vars "AZURE_STORAGE_KEY" = [] then
      .error { msg := "azure backend: missing AZURE_STORAGE_ACCOUNT/AZURE_STORAGE_KEY credentials" }
    else .ok { kind := .azure, bucket := c.bucket, account := account }

def newFilesystemStore (root : Str) : Except Err OpenedStore :=
  if root = [] then .error { msg := "filesystem backend: empty FilesystemRoot" }
  else .ok (.directory root)

/-- The store of a configuration; whether the cloud accepts the credentials is not known here. -/
def newStore (cfg : StorageConfig) : Except Err OpenedStore :=
  let opened := match cfg.type with
    | .s3 => newS3Store vars cfg.s3
    | .gcs => newGCSStore vars cfg.gcs
    | .azure => newAzureStore vars cfg.azure
    | .filesystem => newFilesystemStore cfg.filesystemRoot
  opened.mapError (Err.wrap ("backup: construct " ++ quote (storageTypeName cfg.type) ++ " store"))

end Stores

/-! ## The environment of the sidecar -/

/-- The value of a variable; of two with one name the last counts, an absent one is
empty. The credentials mounted beside these have the names of the cloud SDKs. -/
def getenv (env : List EnvVar) (name : Str) : Str :=
  ((env.reverse.find? fun e => e.name = name).map (·.value)).getD []

def getenvOrDefault (env : List EnvVar) (name default : Str) : Str :=
  if getenv env name = [] then default else getenv env name

def s3SpecFromEnv (env : List EnvVar) : StorageCoordinates where
  bucket := getenv env "VALKEY_BACKUP_S3_BUCKET"
  keyPrefix := getenv env "VALKEY_BACKUP_S3_PREFIX"
  region := getenv env "VALKEY_BACKUP_S3_REGION"
  endpointURL := getenv env "VALKEY_BACKUP_S3_ENDPOINT"

def gcsSpecFromEnv (env : List EnvVar) : StorageCoordinates where
  bucket := getenv env "VALKEY_BACKUP_GCS_BUCKET"
  keyPrefix := getenv env "VALKEY_BACKUP_GCS_PREFIX"

def azureSpecFromEnv (env : List EnvVar) : StorageCoordinates where
  bucket := getenv env "VALKEY_BACKUP_AZURE_CONTAINER"
  keyPrefix := getenv env "VALKEY_BACKUP_AZURE_PREFIX"

def storageTypeFromName (name : Str) : Option BackupStorageType :=
  [.s3, .gcs, .azure, .filesystem].find? fun type => storageTypeName type = name

def storageConfigFromEnv (env : List EnvVar) : Except Err StorageConfig :=
  let name := getenv env "VALKEY_BACKUP_STORAGE_TYPE"
  match storageTypeFromName (name.map Char.toLower) with
  | some .s3 => .ok { type := .s3, s3 := some (s3SpecFromEnv env) }
  | some .gcs => .ok { type := .gcs, gcs := some (gcsSpecFromEnv env) }
  | some .azure => .ok { type := .azure, azure := some (azureSpecFromEnv env) }
  | some .filesystem =>
    .ok { type := .filesystem, filesystemRoot := getenv env "VALKEY_BACKUP_FS_ROOT" }
  | none => .error { msg := "unknown or empty VALKEY_BACKUP_STORAGE_TYPE=" ++ quote name }

/-- The variables of a storage, of whichever backend. -/
def storageNames : List Str :=
  "VALKEY_BACKUP_STORAGE_TYPE" ::
    (["VALKEY_BACKUP_S3_BUCKET".toList, "VALKEY_BACKUP_S3_PREFIX",
        "VALKEY_BACKUP_S3_REGION", "VALKEY_BACKUP_S3_ENDPOINT"] ++
      (["VALKEY_BACKUP_GCS_BUCKET".toList, "VALKEY_BACKUP_GCS_PREFIX"] ++
        (["VALKEY_BACKUP_AZURE_CONTAINER".toList, "VALKEY_BACKUP_AZURE_PREFIX"] ++
          ["VALKEY_BACKUP_FS_ROOT".toList])))

theorem storageConfigFromEnv_congr (h : ∀ name ∈ storageNames, getenv env name = getenv env' name) :
    storageConfigFromEnv env = storageConfigFromEnv env' := by
  simp only [storageNames, List.forall_mem_append, List.forall_mem_cons] at h
  obtain ⟨htype, ⟨hs3, hs3prefix, hregion, hendpoint, -⟩, ⟨hgcs, hgcsprefix, -⟩,
    ⟨hazure, hazureprefix, -⟩, hroot, -⟩ := h
  unfold storageConfigFromEnv s3SpecFromEnv gcsSpecFromEnv azureSpecFromEnv
  rw [htype, hs3, hs3prefix, hregion, hendpoint, hgcs, hgcsprefix, hazure, hazureprefix, hroot]

/-! ## Reading back what was written -/

/-- Of two entries of a name the later one counts. -/
theorem getenv_append (h : ∃ e ∈ env', e.name = name) :
    getenv (env ++ env') name = getenv env' name := by
  obtain ⟨e, he, hname⟩ := h
  have hfound : (env'.reverse.find? fun e => e.name = name).isSome = true :=
    List.find?_isSome.mpr ⟨e, List.mem_reverse.mpr he, decide_eq_true hname⟩
  unfold getenv
  rw [List.reverse_append, List.find?_append, Option.or_of_isSome hfound]

theorem find_unset (h : ∀ e ∈ env, e.name ≠ name) :
    (env.reverse.find? fun e => e.name = name) = none :=
  List.find?_eq_none.mpr fun e he => by simpa using h e (List.mem_reverse.mp he)

theorem getenv_append_right (h : ∀ e ∈ env, e.name ≠ name) :
    getenv (env ++ env') name = getenv env' name := by
  unfold getenv
  rw [List.reverse_append, List.find?_append, find_unset h, Option.or_none]

theorem getenv_append_left (h : ∀ e ∈ env', e.name ≠ name) :
    getenv (env ++ env') name = getenv env name := by
  unfold getenv
  rw [List.reverse_append, List.find?_append, find_unset h, Option.none_or]

theorem getenv_of_not_mem (h : ∀ e ∈ env, e.name ≠ name) : getenv env name = [] := by
  unfold getenv
  rw [find_unset h]
  rfl

/-- The pairs of a Job before the empty ones are dropped and the rest is sorted. -/
def jobPairs (p : JobEnvParams) : List (Str × Str) :=
  [("VALKEY_BACKUP_CLUSTER".toList, p.cluster), ("VALKEY_BACKUP_NAME", p.backup)] ++
    storageEnv p ++ manifestEnv p ++ connEnv p ++
    [("VALKEY_BACKUP_DOWNLOAD_DST".toList, p.downloadDst)]

theorem mem_jobEnv {e : EnvVar} :
    e ∈ jobEnv p ↔ e.value ≠ [] ∧ e.valueFrom = [] ∧ (e.name, e.value) ∈ jobPairs p := by
  unfold jobEnv
  rw [List.mem_map]
  constructor
  · rintro ⟨pair, hpair, rfl⟩
    have hmem := List.mem_filter.mp ((List.mem_insertionSort _).mp hpair)
    exact ⟨of_decide_eq_true hmem.2, rfl, hmem.1⟩
  · rintro ⟨hvalue, hfrom, hpair⟩
    refine ⟨(e.name, e.value), (List.mem_insertionSort _).mpr (List.mem_filter.mpr ⟨hpair, ?_⟩), ?_⟩
    · exact decide_eq_true hvalue
    · cases e
      cases hfrom
      rfl

/-- All variables of a Job in the order they are set in. -/
def jobNames : List Str :=
  ["VALKEY_BACKUP_CLUSTER".toList, "VALKEY_BACKUP_NAME"] ++ storageNames ++
    ["VALKEY_BACKUP_MODE".toList, "VALKEY_BACKUP_CR_VERSION",
      "VALKEY_BACKUP_CONSISTENCY", "VALKEY_BACKUP_ENGINE_VERSION"] ++
    ["VALKEY_BACKUP_SEED_NODE".toList, "VALKEY_BACKUP_AUTH_USER",
      "VALKEY_BACKUP_TLS", "VALKEY_BACKUP_TLS_CA_FILE"] ++
    ["VALKEY_BACKUP_DOWNLOAD_DST".toList]

theorem storageEnv_names (p : JobEnvParams) :
    ((storageEnv p).map Prod.fst).Sublist storageNames := by
  unfold storageEnv
  split
  · exact List.nil_sublist _
  · rename_i spec _
    rw [List.map_cons]
    refine .cons_cons _ ?_
    cases spec.type with
    | s3 =>
      cases spec.s3 with
      | none => exact List.nil_sublist _
      | some c => exact List.sublist_append_left _ _
    | gcs =>
      refine .trans ?_ (List.sublist_append_right _ _)
      cases spec.gcs with
      | none => exact List.nil_sublist _
      | some c => exact List.sublist_append_left _ _
    | azure =>
      refine .trans ?_ ((List.sublist_append_right _ _).trans (List.sublist_append_right _ _))
      cases spec.azure with
      | none => exact List.nil_sublist _
      | some c => exact List.sublist_append_left _ _
    | filesystem =>
      exact (List.sublist_append_right _ _).trans
        ((List.sublist_append_right _ _).trans (List.sublist_append_right _ _))

theorem connEnv_names (p : JobEnvParams) :
    ((connEnv p).map Prod.fst).Sublist
      ["VALKEY_BACKUP_SEED_NODE", "VALKEY_BACKUP_AUTH_USER",
        "VALKEY_BACKUP_TLS", "VALKEY_BACKUP_TLS_CA_FILE"] := by
  unfold connEnv
  cases p.tlsEnabled
  · exact .cons_cons _ (.cons_cons _ (List.nil_sublist _))
  · exact .refl _

theorem jobNames_nodup : jobNames.Nodup :=
  -- compared behind what all of them begin with
  .of_map (·.drop 14) (by decide +kernel)

theorem jobPairs_names (p : JobEnvParams) : ((jobPairs p).map Prod.fst).Sublist jobNames := by
  unfold jobPairs jobNames
  rw [List.map_append, List.map_append, List.map_append, List.map_append]
  exact ((((List.Sublist.refl _).append (storageEnv_names p)).append (.refl _)).append
    (connEnv_names p)).append (.refl _)

theorem jobPairs_nodup (p : JobEnvParams) : ((jobPairs p).map Prod.fst).Nodup :=
  jobNames_nodup.sublist (jobPairs_names p)

theorem getenv_jobEnv {value : Str} (h : (name, value) ∈ jobPairs p) :
    getenv (jobEnv p) name = value := by
  have hunique : ∀ e ∈ jobEnv p, e.name = name → e.value = value := by
    intro e he hname
    have hpair := (mem_jobEnv.mp he).2.2
    exact congrArg Prod.snd (List.inj_on_of_nodup_map (jobPairs_nodup p) hpair h hname)
  by_cases hvalue : value = []
  · rw [hvalue]
    refine getenv_of_not_mem fun e he hname => ?_
    exact (mem_jobEnv.mp he).1 ((hunique e he hname).trans hvalue)
  · have hmem : (⟨name, value, []⟩ : EnvVar) ∈ jobEnv p := mem_jobEnv.mpr ⟨hvalue, rfl, h⟩
    obtain ⟨e, hfind⟩ : ∃ e, ((jobEnv p).reverse.find? fun e => e.name = name) = some e := by
      rw [← Option.isSome_iff_exists, List.find?_isSome]
      exact ⟨_, List.mem_reverse.mpr hmem, decide_eq_true rfl⟩
    have hname : e.name = name := by simpa using List.find?_some hfind
    unfold getenv
    rw [hfind]
    exact hunique e (List.mem_reverse.mp (List.mem_of_find?_eq_some hfind)) hname

theorem jobEnv_name {e : EnvVar} (h : e ∈ jobEnv p) : e.name ∈ jobNames :=
  (jobPairs_names p).subset (List.mem_map_of_mem (f := Prod.fst) (mem_jobEnv.mp h).2.2)

theorem jobPairs_of_storage {pair : Str × Str} (h : pair ∈ storageEnv p) : pair ∈ jobPairs p := by
  unfold jobPairs
  simp only [List.mem_append]
  exact .inl (.inl (.inl (.inr h)))

theorem storageEnv_of_jobPairs {pair : Str × Str} (h : pair ∈ jobPairs p)
    (hname : pair.1 ∈ storageNames) : pair ∈ storageEnv p := by
  obtain ⟨hrest, -, hdst⟩ := List.nodup_append.mp jobNames_nodup
  obtain ⟨hrest, -, hconn⟩ := List.nodup_append.mp hrest
  obtain ⟨hrest, -, hmanifest⟩ := List.nodup_append.mp hrest
  obtain ⟨-, -, hset⟩ := List.nodup_append.mp hrest
  have hstorage : pair.1 ∈ ["VALKEY_BACKUP_CLUSTER".toList, "VALKEY_BACKUP_NAME"] ++
      storageNames := List.mem_append_right _ hname
  unfold jobPairs at h
  rcases List.mem_append.mp h with h | h
  · rcases List.mem_append.mp h with h | h
    · rcases List.mem_append.mp h with h | h
      · rcases List.mem_append.mp h with h | h
        · exact absurd rfl (hset _ (List.mem_map_of_mem (f := Prod.fst) h) _ hname)
        · exact h
      · exact absurd rfl (hmanifest _ hstorage _ (List.mem_map_of_mem (f := Prod.fst) h))
    · have hmem := (connEnv_names p).subset (List.mem_map_of_mem (f := Prod.fst) h)
      exact absurd rfl (hconn _ (List.mem_append_left _ hstorage) _ hmem)
  · have hmem := List.mem_map_of_mem (f := Prod.fst) h
    exact absurd rfl (hdst _ (List.mem_append_left _ (List.mem_append_left _ hstorage)) _ hmem)

theorem getenv_storage (p : JobEnvParams) (hname : name ∈ storageNames) :
    getenv (jobEnv p) name = ((storageEnv p).lookup name).getD [] := by
  cases hlookup : (storageEnv p).lookup name with
  | some value =>
    obtain ⟨before, behind, heq, -⟩ := List.lookup_eq_some_iff.mp hlookup
    have hmem : (name, value) ∈ storageEnv p := by rw [heq]; simp
    exact getenv_jobEnv (jobPairs_of_storage hmem)
  | none =>
    refine getenv_of_not_mem fun e he hsame => ?_
    have hmem := storageEnv_of_jobPairs (mem_jobEnv.mp he).2.2 (hsame ▸ hname)
    exact bne_iff_ne.mp (List.lookup_eq_none_iff.mp hlookup _ hmem) hsame.symm

/-- The configuration of a named storage. -/
def storageConfig (spec : BackupStorageSpec) (filesystemRoot : Str) : StorageConfig where
  type := spec.type
  s3 := spec.s3
  gcs := spec.gcs
  azure := spec.azure
  filesystemRoot := filesystemRoot

theorem storageTypeFromName_of_name (type : BackupStorageType) :
    storageTypeFromName ((storageTypeName type).map Char.toLower) = some type := by
  cases type <;> decide

/-- What a Job is told of a storage: the type and what its own sub-object says, without the
name of the Secret. -/
def jobConfig (spec : BackupStorageSpec) (filesystemRoot : Str) : StorageConfig :=
  match spec.type with
  | .s3 =>
    let c := spec.s3.getD { bucket := [] }
    { type := .s3, s3 := some { c with credentialsSecret := [] } }
  | .gcs =>
    let c := spec.gcs.getD { bucket := [] }
    { type := .gcs, gcs := some { bucket := c.bucket, keyPrefix := c.keyPrefix } }
  | .azure =>
    let c := spec.azure.getD { bucket := [] }
    { type := .azure, azure := some { bucket := c.bucket, keyPrefix := c.keyPrefix } }
  | .filesystem => { type := .filesystem, filesystemRoot := filesystemRoot }

theorem storageConfigFromEnv_eq {spec : BackupStorageSpec} (h : p.spec = some spec) :
    storageConfigFromEnv (jobEnv p) = .ok (jobConfig spec p.filesystemRoot) := by
  have htype : getenv (jobEnv p) "VALKEY_BACKUP_STORAGE_TYPE" =
      storageTypeName spec.type := by
    rw [getenv_storage p List.mem_cons_self, storageEnv, h, List.lookup_cons_self]
    rfl
  unfold storageConfigFromEnv
  rw [htype]
  dsimp only
  rw [storageTypeFromName_of_name]
  have hstorage : ∀ {name : Str}, name ∈ storageNames → getenv (jobEnv p) name =
      ((storageEnv { p with spec := some spec }).lookup name).getD [] := fun hname => by
    rw [getenv_storage p hname, ← h]
  unfold jobConfig
  cases hbackend : spec.type with
  | s3 =>
    unfold s3SpecFromEnv
    rw [hstorage (by simp [storageNames]), hstorage (by simp [storageNames]),
      hstorage (by simp [storageNames]), hstorage (by simp [storageNames]), storageEnv]
    simp only [hbackend]
    cases spec.s3 <;> rfl
  | gcs =>
    unfold gcsSpecFromEnv
    rw [hstorage (by simp [storageNames]), hstorage (by simp [storageNames]), storageEnv]
    simp only [hbackend]
    cases spec.gcs <;> rfl
  | azure =>
    unfold azureSpecFromEnv
    rw [hstorage (by simp [storageNames]), hstorage (by simp [storageNames]), storageEnv]
    simp only [hbackend]
    cases spec.azure <;> rfl
  | filesystem =>
    rw [hstorage (by simp [storageNames]), storageEnv]
    simp only [hbackend]
    rfl

theorem jobConfig_place (spec : BackupStorageSpec) (filesystemRoot : Str) :
    (jobConfig spec filesystemRoot).place = (storageConfig spec filesystemRoot).place := by
  unfold jobConfig StorageConfig.place bucketPlace storageConfig
  cases spec.type with
  | s3 => cases spec.s3 <;> rfl
  | gcs => cases spec.gcs <;> rfl
  | azure => cases spec.azure <;> rfl
  | filesystem => rfl

/-- What a Job is given for a storage leads it to the place of that storage. -/
theorem storageConfigFromEnv_jobEnv {spec : BackupStorageSpec} (h : p.spec = some spec) :
    ∃ cfg, storageConfigFromEnv (jobEnv p) = .ok cfg ∧
      cfg.place = (storageConfig spec p.filesystemRoot).place :=
  ⟨_, storageConfigFromEnv_eq h, jobConfig_place spec p.filesystemRoot⟩

theorem storageConfigFromEnv_none (h : p.spec = none) (cfg : StorageConfig) :
    storageConfigFromEnv (jobEnv p) ≠ .ok cfg := by
  have htype : getenv (jobEnv p) "VALKEY_BACKUP_STORAGE_TYPE" = [] := by
    rw [getenv_storage p List.mem_cons_self, storageEnv, h]
    rfl
  unfold storageConfigFromEnv
  rw [htype]
  exact nofun

end ValkeyOperator.Backup

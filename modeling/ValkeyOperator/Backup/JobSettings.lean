import ValkeyOperator.Backup.Config
import ValkeyOperator.Lib.Stages

/-! From the settings of a Job to the keys of its store (`pkg/backup/jobenv.go`,
`cmd/valkey-backup/main.go`, and the key functions of `s3.go`, `gcs.go` and `azure.go`).

The controller and the sidecar share the names of the variables only. An empty setting is
not set, and a variable that is not set reads as empty, so every setting arrives. The store
that is opened with them roots keys under the prefix and strips it from what it lists. -/

namespace ValkeyOperator.Backup
open Text Api

/-! ## What the sidecar reads -/

/-- The sub-object of the type. -/
def StorageConfig.coordinates (cfg : StorageConfig) : Option StorageCoordinates :=
  match cfg.type with
  | .s3 => cfg.s3
  | .gcs => cfg.gcs
  | .azure => cfg.azure
  | .filesystem => none

theorem jobConfig_type (spec : BackupStorageSpec) (filesystemRoot : Str) :
    (jobConfig spec filesystemRoot).type = spec.type := by
  unfold jobConfig
  cases spec.type <;> rfl

/-- The sub-object of the type arrives with its bucket or container and its prefix, that of
S3 with region and endpoint as well, which the others do not have. -/
theorem jobConfig_coordinates {spec : BackupStorageSpec} {filesystemRoot : Str}
    {c : StorageCoordinates} (h : (storageConfig spec filesystemRoot).coordinates = some c) :
    ∃ told, (jobConfig spec filesystemRoot).coordinates = some told ∧ told.bucket = c.bucket ∧
      told.keyPrefix = c.keyPrefix ∧
      (spec.type = .s3 → told.region = c.region ∧ told.endpointURL = c.endpointURL) := by
  unfold jobConfig
  unfold StorageConfig.coordinates storageConfig at h
  cases htype : spec.type with
  | s3 =>
    simp only [htype] at h
    rw [h]
    exact ⟨_, rfl, rfl, rfl, fun _ => ⟨rfl, rfl⟩⟩
  | gcs =>
    simp only [htype] at h
    rw [h]
    exact ⟨_, rfl, rfl, rfl, nofun⟩
  | azure =>
    simp only [htype] at h
    rw [h]
    exact ⟨_, rfl, rfl, rfl, nofun⟩
  | filesystem =>
    simp only [htype] at h
    cases h

theorem getenv_cluster (p : JobEnvParams) :
    getenv (jobEnv p) "VALKEY_BACKUP_CLUSTER" = p.cluster :=
  getenv_jobEnv (by simp [jobPairs])

theorem getenv_backup (p : JobEnvParams) :
    getenv (jobEnv p) "VALKEY_BACKUP_NAME" = p.backup :=
  getenv_jobEnv (by simp [jobPairs])

/-! ## Backup-sets -/

def storeBackend (id : StoreId) (root : Str) : Backend := cloudStore id.kind root fun _ => 0

/-- A backup-set in a store, under the prefix of its keys. -/
structure SetLocation where
  store : StoreId
  root : Str
  cluster : Str
  backup : Str
deriving DecidableEq

def SetLocation.backend (l : SetLocation) : Backend := storeBackend l.store l.root

/-- The set of these names in the store of a configuration. A directory is one of the process
that opens it. -/
def setIn (vars : Str → Str) (cfg : StorageConfig) (cluster backup : Str) :
    Except Err SetLocation := do
  match ← newStore vars cfg with
  | .directory root => .error { msg := "directory " ++ quote root }
  | .cloud store root =>
    pure { store := store, root := root, cluster := cluster, backup := backup }

/-- The set that the sidecar works on in an environment. -/
def locate (env : List EnvVar) : Except Err SetLocation := do
  setIn (getenv env) (← storageConfigFromEnv env) (getenv env "VALKEY_BACKUP_CLUSTER")
    (getenv env "VALKEY_BACKUP_NAME")

theorem locate_names {env : List EnvVar} {l : SetLocation} (h : locate env = .ok l) :
    l.cluster = getenv env "VALKEY_BACKUP_CLUSTER" ∧
      l.backup = getenv env "VALKEY_BACKUP_NAME" := by
  obtain ⟨cfg, -, h⟩ := Staged.bind_eq_ok.mp h
  obtain ⟨opened, -, h⟩ := Staged.bind_eq_ok.mp h
  cases opened with
  | directory root => cases h
  | cloud store root =>
    cases h
    exact ⟨rfl, rfl⟩

/-- The variables of a mounted Secret. -/
def secretEnv (secret : List (Str × Str)) : List EnvVar :=
  secret.map fun e => { name := e.1, value := e.2 }

/-- What a store is opened with besides its configuration. -/
def storeVars : List Str :=
  ["AWS_ENDPOINT_URL_S3", "AWS_ENDPOINT_URL", "STORAGE_EMULATOR_HOST",
    "AZURE_STORAGE_ACCOUNT", "AZURE_STORAGE_KEY"]

theorem storeVars_not_job : ∀ name ∈ storeVars, name ∉ jobNames := by decide +kernel

/-- The type and all coordinates of a storage are those of the configuration. -/
def SameStore (spec : BackupStorageSpec) (cfg : StorageConfig) : Prop :=
  spec.type = cfg.type ∧
    ∃ c, (storageConfig spec []).coordinates = some c ∧ cfg.coordinates = some c

section SameStore

variable {spec : BackupStorageSpec} {cfg : StorageConfig}

theorem SameStore.place (h : SameStore spec cfg) : (storageConfig spec []).place = cfg.place := by
  obtain ⟨htype, c, hspec, hcfg⟩ := h
  unfold StorageConfig.coordinates at hspec hcfg
  unfold StorageConfig.place
  have htype' : (storageConfig spec []).type = cfg.type := htype
  rw [htype'] at hspec ⊢
  cases hcases : cfg.type with
  | filesystem =>
    rw [hcases] at hcfg
    cases hcfg
  | _ =>
    rw [hcases] at hspec hcfg
    dsimp only at hspec hcfg ⊢
    rw [hspec, hcfg]

/-- A store is opened with what a Job is told as with the whole configuration. -/
theorem SameStore.newStore (h : SameStore spec cfg) {vars vars' : Str → Str}
    (hvars : ∀ name ∈ storeVars, vars name = vars' name) :
    newStore vars (jobConfig spec []) = newStore vars' cfg := by
  obtain ⟨htype, c, hspec, hcfg⟩ := h
  have hs3 := hvars _ (.head _)
  have haws := hvars _ (.tail _ (.head _))
  have hgcs := hvars _ (.tail _ (.tail _ (.head _)))
  have haccount := hvars _ (.tail _ (.tail _ (.tail _ (.head _))))
  have hkey := hvars _ (.tail _ (.tail _ (.tail _ (.tail _ (.head _)))))
  unfold StorageConfig.coordinates storageConfig at hspec
  unfold StorageConfig.coordinates at hcfg
  unfold jobConfig Backup.newStore
  dsimp only at hspec
  rw [htype] at hspec ⊢
  cases hcases : cfg.type with
  | s3 =>
    rw [hcases] at hspec hcfg
    dsimp only at hspec hcfg ⊢
    rw [hspec, hcfg]
    simp only [newS3Store, newCloudStore, Option.getD_some, hs3, haws]
  | gcs =>
    rw [hcases] at hspec hcfg
    dsimp only at hspec hcfg ⊢
    rw [hspec, hcfg]
    simp only [newGCSStore, newCloudStore, Option.getD_some, hgcs]
  | azure =>
    rw [hcases] at hspec hcfg
    dsimp only at hspec hcfg ⊢
    rw [hspec, hcfg]
    simp only [newAzureStore, newCloudStore, Option.getD_some, haccount, hkey]
  | filesystem =>
    rw [hcases] at hcfg
    cases hcfg

/-- A Job whose Secret has none of its variables, and what the store is opened with elsewhere,
works on the set of that configuration. -/
theorem SameStore.locate {p : JobEnvParams} (h : SameStore spec cfg) (hspec : p.spec = some spec)
    (hroot : p.filesystemRoot = []) {secret : List EnvVar} {vars : Str → Str}
    (hapart : ∀ e ∈ secret, e.name ∉ jobNames)
    (hvars : ∀ name ∈ storeVars, getenv secret name = vars name) :
    locate (secret ++ jobEnv p) = setIn vars cfg p.cluster p.backup := by
  have hjob : ∀ name ∈ jobNames, getenv (secret ++ jobEnv p) name = getenv (jobEnv p) name := by
    intro name hname
    refine getenv_append_right fun e he hsame => hapart e he (hsame ▸ hname)
  have hnames : ∀ name ∈ storageNames, name ∈ jobNames := by
    intro name hname
    simp [jobNames, hname]
  have hvars' : ∀ name ∈ storeVars, getenv (secret ++ jobEnv p) name = vars name := by
    intro name hname
    rw [getenv_append_left fun e he hsame => ?_, hvars name hname]
    exact storeVars_not_job name hname (hsame ▸ jobEnv_name he)
  have hconfig : storageConfigFromEnv (secret ++ jobEnv p) = .ok (jobConfig spec []) := by
    rw [storageConfigFromEnv_congr fun name hname => hjob name (hnames name hname),
      storageConfigFromEnv_eq hspec, hroot]
  unfold Backup.locate setIn
  rw [hconfig, hjob _ (by decide), hjob _ (by decide), getenv_cluster, getenv_backup]
  change (Backup.newStore _ (jobConfig spec []) >>= _) = _
  rw [h.newStore hvars']

end SameStore

/-! ## Keys under the prefix -/

/-- No slash at either end. -/
structure Canonical (key : Str) : Prop where
  first : key.head? ≠ some '/'
  last : key.getLast? ≠ some '/'

instance (key : Str) : Decidable (Canonical key) :=
  decidable_of_iff (key.head? ≠ some '/' ∧ key.getLast? ≠ some '/')
    ⟨fun h => ⟨h.1, h.2⟩, fun h => ⟨h.first, h.last⟩⟩

theorem joinKey_nil (root : Str) : joinKey [root, []] = trim '/' root := by
  by_cases h : trim '/' root = []
  · simp [joinKey, h, show trim '/' [] = [] from rfl, join]
  · simp [joinKey, h, show trim '/' [] = [] from rfl, join]

/-- Rooting and stripping give a key back unless it is empty and there is a prefix. -/
theorem stripPrefix_fullKey_iff (kind : CloudKind) (root : Str) (readSize : Nat → Nat) {key : Str}
    (h : Canonical key) :
    (cloudStore kind root readSize).stripPrefix ((cloudStore kind root readSize).fullKey key) = key ↔
      key ≠ [] ∨ trim '/' root = [] := by
  rw [cloudStore_fullKey]
  cases key with
  | nil =>
    rw [joinKey_nil]
    by_cases htrim : trim '/' root = []
    · rw [htrim]
      exact iff_of_true (cloudStore_stripPrefix_rootless kind readSize htrim h.first) (.inr rfl)
    · have hlong : ¬ rootDir root <+: trim '/' root := by
        rw [rootDir, if_neg htrim]
        intro hprefix
        have hle := hprefix.length_le
        rw [List.length_append, List.length_singleton] at hle
        omega
      rw [cloudStore_stripPrefix_eq kind readSize htrim, trimPrefix_of_not hlong]
      simp
  | cons a t =>
    have ha : a ≠ '/' := fun heq => h.first (congrArg some heq)
    rw [joinKey_rooted root ⟨a, t, rfl, ha⟩, trimRight_eq_self h.last,
      cloudStore_stripPrefix kind root readSize ha]
    simp

/-- Every setting of a storage and both names arrive, and the store that is opened gives
the keys back that it was handed. -/
theorem jobEnv_roundTrip {p : JobEnvParams} {spec : BackupStorageSpec} (hspec : p.spec = some spec) :
    (∃ cfg, storageConfigFromEnv (jobEnv p) = .ok cfg ∧ cfg.type = spec.type ∧
      (∀ c, (storageConfig spec p.filesystemRoot).coordinates = some c →
        ∃ told, cfg.coordinates = some told ∧ told.bucket = c.bucket ∧
          told.keyPrefix = c.keyPrefix ∧
          (spec.type = .s3 → told.region = c.region ∧ told.endpointURL = c.endpointURL)) ∧
      (spec.type = .filesystem → cfg.filesystemRoot = p.filesystemRoot)) ∧
    (getenv (jobEnv p) "VALKEY_BACKUP_CLUSTER" = p.cluster ∧
      getenv (jobEnv p) "VALKEY_BACKUP_NAME" = p.backup) ∧
    ∀ (kind : CloudKind) (root : Str) (readSize : Nat → Nat) (key : Str), Canonical key →
      ((cloudStore kind root readSize).stripPrefix ((cloudStore kind root readSize).fullKey key) =
        key ↔ key ≠ [] ∨ trim '/' root = []) := by
  refine ⟨⟨_, storageConfigFromEnv_eq hspec, jobConfig_type _ _, fun c hc => jobConfig_coordinates hc,
    fun htype => ?_⟩, ⟨getenv_cluster p, getenv_backup p⟩,
    fun kind root readSize key h => stripPrefix_fullKey_iff kind root readSize h⟩
  rw [jobConfig, htype]

/-- An S3 storage without a region and a prefix with slashes of its own. -/
theorem jobEnv_roundTrip_s3 :
    let c : StorageCoordinates :=
      { bucket := "b", keyPrefix := "/team//a/", endpointURL := "http://s3" }
    let p : JobEnvParams :=
      { cluster := "prod", backup := "nightly", spec := some { type := .s3, s3 := some c } }
    (∃ cfg, storageConfigFromEnv (jobEnv p) = .ok cfg ∧ cfg.type = .s3) ∧
      (s3Store c.keyPrefix id).stripPrefix ((s3Store c.keyPrefix id).fullKey "prod/nightly") =
        "prod/nightly" := by
  intro c p
  have hspec : p.spec = some { type := .s3, s3 := some c } := rfl
  obtain ⟨⟨cfg, hcfg, htype, -⟩, -, hkeys⟩ := jobEnv_roundTrip hspec
  have hcanonical : Canonical "prod/nightly" := by decide +kernel
  exact ⟨⟨cfg, hcfg, htype⟩,
    (hkeys .s3 c.keyPrefix id "prod/nightly" hcanonical).mpr (.inl (by decide +kernel))⟩

/-- The empty key is rooted at the prefix itself, which is no key under the prefix. -/
theorem stripPrefix_fullKey_empty :
    Canonical [] ∧ ∀ kind ∈ [CloudKind.s3, .gcs, .azure],
      (cloudStore kind "backups" id).stripPrefix
        ((cloudStore kind "backups" id).fullKey []) = "backups" ∧
      "backups".toList ≠ [] := by
  decide +kernel

end ValkeyOperator.Backup

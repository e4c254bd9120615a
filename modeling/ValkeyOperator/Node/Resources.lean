import ValkeyOperator.Backup.JobEnv

/-! The pod template of a node (`valkeynode/valkeynode_resources.go`).

Everything a pod is started with is rendered from the ValkeyNode. The user's
container patches go through the strategic merge of the Kubernetes library, which
stands here as a parameter `merge`. -/

namespace ValkeyOperator.Node
open Text Valkey Api

def portClient : Int := 6379
def portBus : Int := 16379
def portExporter : Int := 9121
def envPodIP : Str := "POD_IP"
def dataMountPath : Str := "/data"
def configVolName : Str := "valkey-config"
def configMountPath : Str := "/config"
def aclVolName : Str := "users-acl"
def aclMountPath : Str := "/config/users"
def aclFilePath : Str := "/config/users/users.acl"
def tlsVolName : Str := "valkey-tls"
def tlsMountPath : Str := "/etc/valkey/tls"
def dhParamsVolName : Str := "valkey-tls-dhparams"
def dhParamsMountPath : Str := "/etc/valkey/tls-dhparams"
def tlsFile (key : String) : Str := tlsMountPath ++ '/' :: key.toList
def defaultValkeyFSGroup : Int := 998

/-! ## The server container -/

/-- The managed variables first, then the user's, which cannot redefine them. -/
def mergeServerEnv (managed : List EnvVar) (envMap : StrMap) (extra : List EnvVar) :
    List EnvVar :=
  let keys := (envMap.keys.insertionSort (· ≤ ·)).filter (· ≠ envPodIP)
  managed ++ (keys.map fun k => { name := k, value := envMap.get k }) ++
    extra.filter (·.name ≠ envPodIP)

def valkeyCliArgs (node : ValkeyNode) : List Str :=
  ["valkey-cli".toList, "-p", itoa portClient] ++
    match node.spec.tls with
    | none => []
    | some _ =>
      ["--tls", "--cacert", tlsFile "ca.crt", "--cert", tlsFile "tls.crt",
        "--key", tlsFile "tls.key"]

/-- The same bare PING for startup, liveness and readiness. -/
def buildProbes (node : ValkeyNode) : List (List Str) :=
  let ping := valkeyCliArgs node ++ ["PING".toList]
  [ping, ping, ping]

/-- The external address if one is set, else the pod's own. -/
def announceArgs (node : ValkeyNode) : List Str :=
  if node.spec.announceHost = [] then
    ["--cluster-announce-ip", "$(POD_IP)"]
  else
    ["--cluster-announce-ip".toList, node.spec.announceHost] ++
      match node.spec.announcePort with
      | none => []
      | some port => if port > 0 then ["--cluster-announce-port", itoa port] else []

def appendOnlyOff : List Str := ["--appendonly", "no"]

def serverCommand (node : ValkeyNode) : List Str :=
  ["valkey-server".toList, configMountPath ++ "/valkey.conf"] ++ announceArgs node ++
    (if node.spec.aclSecretName ≠ [] then ["--aclfile".toList, aclFilePath] else []) ++
    (if node.spec.restoreFrom.isSome then appendOnlyOff else [])

def dhParamsSecretName (node : ValkeyNode) : Str :=
  match node.spec.tls with
  | none => []
  | some t => t.dhParamsSecret.getD []

def dataMount (node : ValkeyNode) : List VolumeMount :=
  if node.spec.persistence.isSome then [⟨nodePVCName node.name, dataMountPath, false⟩] else []

def buildServerContainer (node : ValkeyNode) : Container where
  name := "server"
  image := node.spec.image
  resources := node.spec.resources
  command := serverCommand node
  env := mergeServerEnv [{ name := envPodIP, value := [], valueFrom := "status.podIP" }]
    node.spec.env node.spec.extraEnvVars
  ports := [("client", portClient), ("cluster-bus", portBus)]
  probes := buildProbes node
  volumeMounts := [⟨configVolName, configMountPath, true⟩] ++ dataMount node ++
    (if node.spec.aclSecretName ≠ [] then [⟨aclVolName, aclMountPath, true⟩] else []) ++
    (if node.spec.tls.isSome then [⟨tlsVolName, tlsMountPath, true⟩] else []) ++
    (if dhParamsSecretName node ≠ [] then [⟨dhParamsVolName, dhParamsMountPath, true⟩] else [])
  securityContext := node.spec.containerSecurityContext

/-! ## The exporter sidecar -/

def exporterPort (node : ValkeyNode) : Int := node.spec.exporter.port.getD portExporter

def exporterTLSEnabled (node : ValkeyNode) : Bool := node.spec.exporter.tls.getD false

def exporterScrapeArgs (node : ValkeyNode) : List Str × List VolumeMount :=
  let scrapeTLS := node.spec.tls.isSome
  let serveTLS := exporterTLSEnabled node
  let port := itoa portClient
  ((if scrapeTLS then
      ["--redis.addr=rediss://localhost:" ++ port,
        "--tls-ca-cert-file=" ++ tlsFile "ca.crt"]
    else ["--redis.addr=redis://localhost:" ++ port]) ++
    ["--web.listen-address=:" ++ itoa (exporterPort node)] ++
    (if serveTLS then
      ["--tls-server-cert-file=" ++ tlsFile "tls.crt",
        "--tls-server-key-file=" ++ tlsFile "tls.key"]
    else []),
    if scrapeTLS || serveTLS then [⟨tlsVolName, tlsMountPath, true⟩] else [])

/-- User and password of the exporter; the password comes from the cluster's
Secret. -/
def exporterCredEnv (node : ValkeyNode) : List EnvVar :=
  [{ name := "REDIS_USER", value := "_exporter" },
    { name := "REDIS_PASSWORD", value := []
      valueFrom := "internal-" ++ nodeCluster node.name node.labels ++
        "-system-passwords/_exporter" }]

def defaultExporterImage : Str := "oliver006/redis_exporter:v1.80.0"

def exporterDefaultResources : Raw := "requests: cpu 50m, memory 64Mi"

def buildExporterSidecar (node : ValkeyNode) : Option Container :=
  if !node.spec.exporter.enabled then none
  else
    some
      { name := "metrics-exporter"
        image := if node.spec.exporter.image = [] then defaultExporterImage
          else node.spec.exporter.image
        args := (exporterScrapeArgs node).1
        env := exporterCredEnv node
        ports := [("metrics", exporterPort node)]
        volumeMounts := (exporterScrapeArgs node).2
        securityContext := node.spec.containerSecurityContext
        probes := [[(if exporterTLSEnabled node then "https://:".toList else "http://:") ++
          itoa (exporterPort node) ++ "/"]]
        resources := if node.spec.exporter.resources = [] then exporterDefaultResources
          else node.spec.exporter.resources }

/-! ## User patches -/

/-- Applies a strategic-merge patch. -/
abbrev Merge := Container → Container → Except Err Container

variable (merge : Merge)

/-- Of several patches with one name the last counts. -/
def patchFor (patches : List Container) (name : Str) : Option Container :=
  patches.reverse.find? fun c => c.name == name

def mergeOne (patches : List Container) (c : Container) : Except Err Container :=
  match patchFor patches c.name with
  | none => .ok c
  | some patch =>
    match merge c patch with
    | .ok merged => .ok merged
    | .error e => .error (Err.wrap ("merge container " ++ c.name) e)

/-- Patch the containers by name; patches that match none are added. -/
def mergeContainerPatch (base patches : List Container) : Except Err (List Container) :=
  match base.mapM (mergeOne merge patches) with
  | .error e => .error e
  | .ok merged =>
    .ok (merged ++ patches.filter fun p => !(base.map (·.name)).contains p.name)

def buildContainers (node : ValkeyNode) : Except Err (List Container) :=
  mergeContainerPatch merge (buildServerContainer node :: (buildExporterSidecar node).toList)
    node.spec.containers

/-! ## Volumes and init containers -/

structure Volume where
  name : Str
  /-- `configMap/…` or `secret/…` -/
  source : Str
deriving DecidableEq

def configMapName (node : ValkeyNode) : Str :=
  if node.spec.serverConfigMapName ≠ [] then node.spec.serverConfigMapName
  else resourceName node.name

def buildVolumes (node : ValkeyNode) : List Volume :=
  let secret := fun (vol name : Str) =>
    if name ≠ [] then [Volume.mk vol ("secret/" ++ name)] else []
  [⟨configVolName, "configMap/" ++ configMapName node⟩] ++
    secret aclVolName node.spec.aclSecretName ++
    secret tlsVolName ((node.spec.tls.map (·.secretName)).getD []) ++
    secret dhParamsVolName (dhParamsSecretName node)

def restoreSeedName : Str := "restore-seed"

def buildRestoreSeedContainer (node : ValkeyNode) (src : RestoreSource) : Container where
  name := restoreSeedName
  image := node.spec.image
  command := ["/valkey-backup", "--download",
    "--shard=" ++ itoa src.shardIndex]
  env := Backup.jobEnv { cluster := src.clusterName, backup := src.backupName,
                         spec := src.storageSpec }
  envFrom := if src.credentialsSecret ≠ [] then [src.credentialsSecret] else []
  volumeMounts := dataMount node
  securityContext := node.spec.containerSecurityContext

def buildInitContainers (node : ValkeyNode) : List Container :=
  match node.spec.restoreFrom with
  | none => []
  | some src => [buildRestoreSeedContainer node src]

/-! ## The template -/

structure PodTemplate where
  labels : StrMap
  annotations : StrMap
  containers : List Container
  initContainers : List Container
  imagePullSecrets : Raw
  nodeSelector : Raw
  affinity : Raw
  tolerations : Raw
  topologySpreadConstraints : Raw
  volumes : List Volume
  securityContext : PodSecurityContext
  serviceAccountName : Str
  automountServiceAccountToken : Option Bool
deriving DecidableEq

def podSecurityContext (node : ValkeyNode) : PodSecurityContext :=
  match node.spec.podSecurityContext with
  | none => { fsGroup := some defaultValkeyFSGroup }
  | some src => if src.fsGroup.isSome then src else { src with fsGroup := some defaultValkeyFSGroup }

/-- Record a non-empty hash. -/
def applyHash (key hash : Str) (annotations : StrMap) : StrMap :=
  if hash = [] then annotations else annotations.insert key hash

def templateAnnotations (node : ValkeyNode) : StrMap :=
  applyHash annTLSHash (node.annotations.get annTLSHash)
    (applyHash annServerConfigHash node.spec.serverConfigHash ∅)

def buildPodTemplate (node : ValkeyNode) (labels : StrMap) : Except Err PodTemplate :=
  match buildContainers merge node with
  | .error e => .error e
  | .ok containers =>
    .ok
      { labels := labels
        annotations := templateAnnotations node
        containers := containers
        initContainers := buildInitContainers node
        imagePullSecrets := node.spec.imagePullSecrets
        nodeSelector := node.spec.nodeSelector
        affinity := node.spec.affinity
        tolerations := node.spec.tolerations
        topologySpreadConstraints := node.spec.topologySpreadConstraints
        volumes := buildVolumes node
        securityContext := podSecurityContext node
        serviceAccountName := node.spec.serviceAccountName
        automountServiceAccountToken := node.spec.automountServiceAccountToken }

/-- The template of the workload the node's controller applies. -/
def render (node : ValkeyNode) : Except Err PodTemplate :=
  buildPodTemplate merge node (ownedLabels node.name node.labels)

variable {merge}

/-- A container comes out as it was, or as its patch leaves it. -/
theorem mergeOne_eq_ok {patches : List Container} {c out : Container}
    (h : mergeOne merge patches c = .ok out) :
    (patchFor patches c.name = none ∧ out = c) ∨
      ∃ patch, patchFor patches c.name = some patch ∧ merge c patch = .ok out := by
  unfold mergeOne at h
  split at h
  · rename_i hnone
    cases h
    exact .inl ⟨hnone, rfl⟩
  · rename_i patch hpatch
    split at h
    · rename_i merged hmerged
      cases h
      exact .inr ⟨patch, hpatch, hmerged⟩
    · cases h

theorem templateAnnotations_configHash (node : ValkeyNode) :
    (templateAnnotations node).get annServerConfigHash = node.spec.serverConfigHash := by
  have hne : annServerConfigHash ≠ annTLSHash := by decide
  have hconfig : (applyHash annServerConfigHash node.spec.serverConfigHash ∅).get
      annServerConfigHash = node.spec.serverConfigHash := by
    unfold applyHash
    split
    · rename_i hempty
      rw [hempty]
      rfl
    · unfold StrMap.get
      rw [AList.lookup_insert]
      rfl
  unfold templateAnnotations
  rw [applyHash]
  split
  · exact hconfig
  · unfold StrMap.get at hconfig ⊢
    rw [AList.lookup_insert_ne hne, hconfig]

theorem render_configHash {node : ValkeyNode} {template : PodTemplate}
    (h : render merge node = .ok template) :
    template.annotations.get annServerConfigHash = node.spec.serverConfigHash := by
  unfold render buildPodTemplate at h
  split at h
  · cases h
  · cases h
    exact templateAnnotations_configHash node

end ValkeyOperator.Node

import ValkeyOperator.Backup.Config
import ValkeyOperator.Backup.Types
import ValkeyOperator.Lib.Stages
import ValkeyOperator.Restore.Phases

/-! Where a restore takes its data from (`perconavalkeyrestore/source.go`).

The source is a backup of the same namespace or an inline copy of what its status says.
Either gives the names of the backup-set and the configuration of the store that the
manifest is read from. -/

namespace ValkeyOperator.Restore
open Text Valkey Api
open Backup

/-- A resolved source with the store it is in. -/
structure LocatedSource extends ResolvedSource where
  config : StorageConfig

def backupStateText : BackupState → Str
  | .new => []
  | .starting => "Starting"
  | .running => "Running"
  | .succeeded => "Succeeded"
  | .failed => "Failed"
  | .error => "Error"

/-- The last two of the components that are not blank. -/
def lastTwoPathComponents (p : Str) : Option (Str × Str) :=
  match (((p.splitOn '/').map trimSpace).filter (· ≠ [])).reverse with
  | last :: penultimate :: _ => some (penultimate, last)
  | _ => none

def parseSourceDestination (destination : Str) : Except Err Destination :=
  match parseDestination destination with
  | .error e => .error (e.wrap "parse backup destination")
  | .ok dest => .ok dest

def destinationIdentity (destination : Str) : Except Err (Str × Str) := do
  let dest ← parseSourceDestination destination
  match lastTwoPathComponents dest.path with
  | some names => .ok names
  | none =>
    .error ⟨"backup destination " ++ quote destination ++
      " lacks a <cluster>/<backup> suffix", false⟩

def storageConfigFromSource (src : BackupSource) (dest : Destination) :
    Except Err StorageConfig :=
  if dest.scheme = schemeS3 then .ok { type := .s3, s3 := src.s3 }
  else if dest.scheme = schemeGCS then .ok { type := .gcs, gcs := src.gcs }
  else if dest.scheme = schemeAzure then .ok { type := .azure, azure := src.azure }
  else if dest.scheme = schemePVC then .ok { type := .filesystem, filesystemRoot := dest.path }
  else .error { msg := "unsupported backup destination scheme " ++ quote dest.scheme }

def sourceFromDestination (cluster backup : Str) (bs : BackupSource) :
    Except Err LocatedSource := do
  let dest ← parseSourceDestination bs.destination
  let cfg ← storageConfigFromSource bs dest
  pure { cluster := cluster, backup := backup, storageName := bs.storageName, config := cfg }

/-- The backup of that name as it is read, if it is there. -/
def getBackup (backups : Except Err (List PerconaValkeyBackup)) (ns name : Str) :
    Except Err PerconaValkeyBackup := do
  match (← backups).find? fun bk => bk.ns = ns ∧ bk.name = name with
  | some bk => .ok bk
  | none => .error ⟨"perconavalkeybackups " ++ quote name ++ " not found", true⟩

def resolveFromBackupName (backups : Except Err (List PerconaValkeyBackup))
    (rst : PerconaValkeyRestore) : Except Err LocatedSource :=
  let key := objectKey rst.ns rst.spec.backupName
  match getBackup backups rst.ns rst.spec.backupName with
  | .error e => .error (e.wrap ("get referenced backup " ++ key))
  | .ok bk =>
    if bk.status.destination = [] then
      .error ⟨"referenced backup " ++ key ++ " has no resolved destination (state " ++
        quote (backupStateText bk.status.state) ++ ") — not yet a restorable set", false⟩
    else
      sourceFromDestination bk.spec.clusterName bk.name
        { destination := bk.status.destination
          storageName := bk.status.storageName
          s3 := bk.status.s3
          gcs := bk.status.gcs
          azure := bk.status.azure }

def resolveFromBackupSource (bs : BackupSource) : Except Err LocatedSource := do
  let (cluster, backup) ← destinationIdentity bs.destination
  sourceFromDestination cluster backup bs

def resolveSource (backups : Except Err (List PerconaValkeyBackup)) (rst : PerconaValkeyRestore) :
    Except Err LocatedSource :=
  match decide (rst.spec.backupName ≠ []), rst.spec.backupSource with
  | true, none => resolveFromBackupName backups rst
  | false, some bs => resolveFromBackupSource bs
  | _, _ => .error { msg := "exactly one of spec.backupName or spec.backupSource must be set" }

/-! ## A resolved source has a name -/

theorem sourceFromDestination_backup {cluster backup : Str} {bs : BackupSource}
    {src : LocatedSource} (h : sourceFromDestination cluster backup bs = .ok src) :
    src.backup = backup := by
  obtain ⟨dest, -, h⟩ := Staged.bind_eq_ok.mp h
  obtain ⟨cfg, -, h⟩ := Staged.bind_eq_ok.mp h
  cases h
  rfl

theorem lastTwoPathComponents_last {p : Str} {names : Str × Str}
    (h : lastTwoPathComponents p = some names) : names.2 ≠ [] := by
  unfold lastTwoPathComponents at h
  split at h
  · rename_i last penultimate rest heq
    cases h
    have hmem : last ∈ ((p.splitOn '/').map trimSpace).filter (· ≠ []) :=
      List.mem_reverse.mp (heq ▸ List.mem_cons_self)
    exact of_decide_eq_true (List.mem_filter.mp hmem).2
  · cases h

theorem resolveFromBackupName_backup {backups : Except Err (List PerconaValkeyBackup)}
    {rst : PerconaValkeyRestore} {src : LocatedSource}
    (h : resolveFromBackupName backups rst = .ok src) : src.backup = rst.spec.backupName := by
  unfold resolveFromBackupName at h
  dsimp only at h
  split at h
  · cases h
  · rename_i bk hbackup
    obtain ⟨listed, -, hfind⟩ := Staged.bind_eq_ok.mp hbackup
    split at hfind
    · rename_i found hfound
      cases hfind
      have hname : bk.ns = rst.ns ∧ bk.name = rst.spec.backupName := by
        simpa using List.find?_some hfound
      split at h
      · cases h
      · rw [sourceFromDestination_backup h, hname.2]
    · cases hfind

/-- Whichever way a source is given, the backup-set it names has a name. -/
theorem resolveSource_backup {backups : Except Err (List PerconaValkeyBackup)}
    {rst : PerconaValkeyRestore} {src : LocatedSource} (h : resolveSource backups rst = .ok src) :
    src.backup ≠ [] := by
  unfold resolveSource at h
  split at h
  · rename_i hname _
    rw [resolveFromBackupName_backup h]
    exact of_decide_eq_true hname
  · obtain ⟨names, hnames, h⟩ := Staged.bind_eq_ok.mp h
    obtain ⟨dest, -, hnames⟩ := Staged.bind_eq_ok.mp hnames
    rw [sourceFromDestination_backup h]
    split at hnames
    · rename_i found hfound
      cases hnames
      exact lastTwoPathComponents_last hfound
    · cases hnames
  · cases h

end ValkeyOperator.Restore

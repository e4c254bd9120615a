import ValkeyOperator.Lib.Text

/-! Object keys of a backup-set (`pkg/backup/keys.go`, `destination.go`).

A set of cluster `c` and backup `n` lives under `c/n/`: the manifest directly
in it, every shard's dump in a directory of its own. The keys are relative to a
store; `joinKey` roots them under the store's configured directory. -/

namespace ValkeyOperator.Backup
open Text

def manifestFilename : Str := "manifest.json"

def rdbFilename : Str := "dump.rdb"

/-- The per-shard directory component `shard-<i>`. -/
def shardName (shardIndex : Int) : Str := "shard-" ++ itoa shardIndex

def setPrefix (cluster backup : Str) : Str := Path.joinAll [cluster, backup]

def manifestKey (cluster backup : Str) : Str :=
  Path.joinAll [setPrefix cluster backup, manifestFilename]

def shardPrefix (cluster backup : Str) (shardIndex : Int) : Str :=
  Path.joinAll [setPrefix cluster backup, shardName shardIndex]

def shardRDBKey (cluster backup : Str) (shardIndex : Int) : Str :=
  Path.joinAll [shardPrefix cluster backup shardIndex, rdbFilename]

def shardRDBRelKey (shardIndex : Int) : Str := Path.joinAll [shardName shardIndex, rdbFilename]

/-- Join key segments with `/`, dropping the slashes at their edges and the
segments that are empty without them. -/
def joinKey (segments : List Str) : Str :=
  join ['/'] ((segments.map (trim '/')).filter (· ≠ []))

def schemeS3 : Str := "s3://"
def schemeGCS : Str := "gs://"
def schemeAzure : Str := "azure://"
def schemePVC : Str := "pvc/"

structure Destination where
  scheme : Str
  bucket : Str
  path : Str
deriving DecidableEq

def Destination.text (d : Destination) : Str :=
  if d.scheme = schemePVC then schemePVC ++ d.path
  else if d.path = [] then d.scheme ++ d.bucket
  else d.scheme ++ d.bucket ++ '/' :: d.path

def formatDestination (scheme bucketOrContainer keyPrefix cluster backup : Str) : Str :=
  let setPath := joinKey [keyPrefix, setPrefix cluster backup]
  if scheme = schemePVC then Destination.text ⟨scheme, [], joinKey [bucketOrContainer, setPath]⟩
  else Destination.text ⟨scheme, bucketOrContainer, setPath⟩

/-- A Kubernetes object name, as far as keys depend on it: one proper path
component. -/
structure ObjectName where
  val : Str
  proper : Path.Proper val

theorem setPrefix_eq (c n : ObjectName) : setPrefix c.val n.val = c.val ++ '/' :: n.val := by
  have h : ∀ x ∈ [c.val] ++ [n.val], Path.Proper x := by simp [c.proper, n.proper]
  have := Path.joinAll_pair (by simp) (by simp) h
  simpa [setPrefix, Path.join_cons] using this

theorem manifestFilename_proper : Path.Proper manifestFilename :=
  ⟨by decide, by decide, by decide, by decide⟩

theorem rdbFilename_proper : Path.Proper rdbFilename :=
  ⟨by decide, by decide, by decide, by decide⟩

theorem manifestKey_eq (c n : ObjectName) :
    manifestKey c.val n.val = setPrefix c.val n.val ++ '/' :: manifestFilename := by
  have h : ∀ x ∈ [c.val, n.val] ++ [manifestFilename], Path.Proper x := by
    simp [c.proper, n.proper, manifestFilename_proper]
  have := Path.joinAll_pair (by simp) (by simp) h
  simpa [manifestKey, setPrefix_eq, Path.join_cons] using this

theorem shardName_proper (shardIndex : Int) : Path.Proper (shardName shardIndex) := by
  have hdigits : ∀ n : Nat, '/' ∉ Nat.toDigits 10 n := fun n hslash => by
    have := Nat.isDigit_of_mem_toDigits (b := 10) (by decide) (by decide) hslash
    exact absurd this (by decide)
  have hitoa : '/' ∉ itoa shardIndex := by
    unfold itoa
    split
    · simp [hdigits]
    · exact hdigits _
  have hhead : (shardName shardIndex).head? = some 's' := rfl
  have hne : ∀ s : Str, s.head? ≠ some 's' → shardName shardIndex ≠ s := fun s hs heq =>
    hs (heq ▸ hhead)
  have hslash : '/' ∉ "shard-".toList := by decide
  exact ⟨hne _ (by decide), List.not_mem_append hslash hitoa, hne _ (by decide), hne _ (by decide)⟩

theorem shardRDBKey_eq (c n : ObjectName) (shardIndex : Int) :
    shardRDBKey c.val n.val shardIndex =
      setPrefix c.val n.val ++ '/' :: (shardName shardIndex ++ '/' :: rdbFilename) := by
  have hrdb := rdbFilename_proper
  have hshard := shardName_proper shardIndex
  have hdir : ∀ x ∈ [c.val, n.val] ++ [shardName shardIndex], Path.Proper x := by
    simp [c.proper, n.proper, hshard]
  have hfile : ∀ x ∈ [c.val, n.val, shardName shardIndex] ++ [rdbFilename], Path.Proper x := by
    simp [c.proper, n.proper, hshard, hrdb]
  have hprefix : shardPrefix c.val n.val shardIndex =
      join ['/'] [c.val, n.val, shardName shardIndex] := by
    have := Path.joinAll_pair (by simp) (by simp) hdir
    simpa [shardPrefix, setPrefix_eq, Path.join_cons] using this
  have := Path.joinAll_pair (by simp) (by simp) hfile
  rw [shardRDBKey, hprefix]
  simpa [setPrefix_eq, Path.join_cons] using this

/-- No dump is kept where the manifest is, whatever the names are. -/
theorem shardRDBKey_ne_manifestKey (cluster backup : Str) (shardIndex : Int) :
    shardRDBKey cluster backup shardIndex ≠ manifestKey cluster backup := by
  obtain ⟨d, hd⟩ := Path.joinAll_ends_proper (shardPrefix cluster backup shardIndex)
    rdbFilename_proper
  obtain ⟨d', hd'⟩ := Path.joinAll_ends_proper (setPrefix cluster backup) manifestFilename_proper
  intro heq
  rw [shardRDBKey, hd, manifestKey, hd'] at heq
  have hlast := congrArg List.getLast? heq
  have hrdb : rdbFilename.getLast? = some 'b' := by decide
  have hmanifest : manifestFilename.getLast? = some 'n' := by decide
  rw [List.getLast?_append, List.getLast?_append, hrdb, hmanifest] at hlast
  simp at hlast

/-! ## Rooting a key under a configured directory -/

/-- The directory a store keeps its objects in, with its trailing slash; empty
when nothing but slashes is configured. -/
def rootDir (root : Str) : Str := if trim '/' root = [] then [] else trim '/' root ++ ['/']

/-- A key whose first character is not a slash is rooted by prepending the
directory; slashes at its end are lost. -/
theorem joinKey_rooted (root : Str) {key : Str} (h : ∃ a t, key = a :: t ∧ a ≠ '/') :
    joinKey [root, key] = rootDir root ++ trimRight '/' key := by
  obtain ⟨a, t, rfl, ha⟩ := h
  have hkey : trim '/' (a :: t) = trimRight '/' (a :: t) := by
    rw [trim, trimLeft_cons_ne ha]
  have hne : trimRight '/' (a :: t) ≠ [] := by
    have := trimRight_append (c := '/') (s := [a]) (by simp [ha]) t
    simp at this
    simp [this]
  by_cases hr : trim '/' root = []
  · simp [joinKey, rootDir, hkey, hne, hr, join]
  · simp [joinKey, rootDir, hkey, hne, hr, Path.join_cons]

end ValkeyOperator.Backup

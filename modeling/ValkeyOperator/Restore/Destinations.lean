import ValkeyOperator.Backup.Jobs
import ValkeyOperator.Restore.Source

/-! Destinations, written by the backup controller and read by the restore controller
(`pkg/backup/destination.go`, `perconavalkeyrestore/source.go`).

The path of a destination is the configured prefix without the slashes at its edges, and
behind it the names of the cluster and of the backup. Whatever is in the prefix, the last
two components are these names: a Kubernetes name has neither slashes nor white space. -/

namespace ValkeyOperator.Restore
open Text Valkey Api
open Backup

/-! ## Names of Kubernetes objects -/

def isAlphanumeric (c : Char) : Bool := c.isLower || c.isDigit

def isDNS1123Label (label : Str) : Bool :=
  label.all (fun c => isAlphanumeric c || c == '-') && label.head?.any isAlphanumeric &&
    label.getLast?.any isAlphanumeric

/-- What is admitted as the name of an object. -/
def isDNS1123Subdomain (name : Str) : Bool :=
  decide (name.length ≤ 253) && (name.splitOn '.').all isDNS1123Label

theorem graphic_of_isAlphanumeric {c : Char} (h : isAlphanumeric c = true) :
    0x30 ≤ c.toNat ∧ c.toNat ≤ 0x7e := by
  rcases Bool.or_eq_true_iff.mp h with h | h
  · have := toNat_of_isLower h
    omega
  · have := toNat_of_isDigit h
    omega

section Names

variable {name : Str}

theorem labels_of_subdomain (h : isDNS1123Subdomain name = true) :
    ∀ label ∈ name.splitOn '.', isDNS1123Label label = true :=
  List.all_eq_true.mp (Bool.and_eq_true_iff.mp h).2

theorem join_labels (name : Str) : join ['.'] (name.splitOn '.') = name :=
  List.intercalate_splitOn '.'

theorem char_of_subdomain (h : isDNS1123Subdomain name = true) {c : Char} (hc : c ∈ name) :
    isAlphanumeric c = true ∨ c = '-' ∨ c = '.' := by
  rw [← join_labels name] at hc
  rcases mem_join_char hc with rfl | ⟨label, hlabel, hc⟩
  · exact .inr (.inr rfl)
  · have hlabel := labels_of_subdomain h label hlabel
    rw [isDNS1123Label, Bool.and_assoc, Bool.and_eq_true_iff] at hlabel
    have := List.all_eq_true.mp hlabel.1 c hc
    rw [Bool.or_eq_true_iff, beq_iff_eq] at this
    exact this.imp_right .inl

theorem head_of_subdomain (h : isDNS1123Subdomain name = true) :
    ∃ c rest, name = c :: rest ∧ isAlphanumeric c = true := by
  obtain ⟨label, labels, hsplit⟩ := List.exists_cons_of_ne_nil (List.splitOn_ne_nil '.' name)
  have hlabel := labels_of_subdomain h label (hsplit ▸ List.mem_cons_self)
  rw [isDNS1123Label, Bool.and_eq_true_iff, Bool.and_eq_true_iff] at hlabel
  obtain ⟨c, hc, halnum⟩ := (Option.any_eq_true _ _).mp hlabel.1.2
  obtain ⟨rest, rfl⟩ := List.head?_eq_some_iff.mp hc
  have hname := join_labels name
  rw [hsplit] at hname
  exact ⟨c, _, hname.symm.trans (join_char_cons '.' (c :: rest) labels), halnum⟩

theorem slash_not_mem_subdomain (h : isDNS1123Subdomain name = true) : '/' ∉ name := by
  intro hslash
  rcases char_of_subdomain h hslash with halnum | hdash | hdot
  · exact absurd halnum (by decide)
  · exact absurd hdash (by decide)
  · exact absurd hdot (by decide)

theorem proper_of_subdomain (h : isDNS1123Subdomain name = true) : Path.Proper name := by
  obtain ⟨c, rest, rfl, halnum⟩ := head_of_subdomain h
  have hdot : c ≠ '.' := by
    rintro rfl
    exact absurd halnum (by decide)
  exact ⟨List.cons_ne_nil _ _, slash_not_mem_subdomain h, fun heq => hdot (List.cons.inj heq).1,
    fun heq => hdot (List.cons.inj heq).1⟩

theorem trimSpace_of_subdomain (h : isDNS1123Subdomain name = true) : trimSpace name = name := by
  refine trimSpace_eq_self fun c hc => isSpace_of_graphic ?_
  rcases char_of_subdomain h hc with halnum | rfl | rfl
  · have := graphic_of_isAlphanumeric halnum
    omega
  · decide
  · decide

end Names

/-! ## The path of a backup-set -/

section Path

variable (root : Str) (c n : ObjectName)

theorem setPath_getLast? : (c.val ++ '/' :: n.val).getLast? ≠ some '/' := by
  rw [List.getLast?_append_of_ne_nil _ (List.cons_ne_nil _ _),
    List.getLast?_cons_of_ne_nil n.proper.nonempty]
  exact fun h => n.proper.no_slash (List.mem_of_getLast? h)

theorem joinKey_set :
    joinKey [root, setPrefix c.val n.val] = rootDir root ++ (c.val ++ '/' :: n.val) := by
  obtain ⟨a, rest, hc⟩ := List.exists_cons_of_ne_nil c.proper.nonempty
  have ha : a ≠ '/' := fun heq => c.proper.no_slash (by rw [hc, heq]; exact List.mem_cons_self)
  rw [setPrefix_eq, joinKey_rooted root ⟨a, rest ++ '/' :: n.val, by rw [hc]; rfl, ha⟩,
    trimRight_eq_self (setPath_getLast? c n)]

theorem joinKey_set_ne_nil : joinKey [root, setPrefix c.val n.val] ≠ [] := by
  rw [joinKey_set]
  simp

theorem joinKey_set_head? : (joinKey [root, setPrefix c.val n.val]).head? ≠ some '/' := by
  rw [joinKey_set, rootDir]
  split
  · obtain ⟨a, rest, hc⟩ := List.exists_cons_of_ne_nil c.proper.nonempty
    rw [hc]
    exact fun h => c.proper.no_slash (by rw [hc, ← Option.some.inj h]; exact List.mem_cons_self)
  · rename_i hroot
    obtain ⟨a, rest, htrim⟩ := List.exists_cons_of_ne_nil hroot
    have := trim_head? '/' root
    rw [htrim] at this ⊢
    exact this

theorem joinKey_set_getLast? : (joinKey [root, setPrefix c.val n.val]).getLast? ≠ some '/' := by
  rw [joinKey_set, List.getLast?_append_of_ne_nil _ (by simp)]
  exact setPath_getLast? c n

/-- Behind the components of the prefix come the two names. -/
theorem splitOn_joinKey_set :
    ∃ front, (joinKey [root, setPrefix c.val n.val]).splitOn '/' = front ++ [c.val, n.val] := by
  have hnames : (c.val ++ '/' :: n.val).splitOn '/' = [c.val, n.val] := by
    rw [List.splitOn_append_cons_self, List.splitOn_eq_singleton c.proper.no_slash,
      List.splitOn_eq_singleton n.proper.no_slash]
    rfl
  rw [joinKey_set, rootDir]
  split
  · exact ⟨[], hnames⟩
  · refine ⟨(trim '/' root).splitOn '/', ?_⟩
    rw [List.append_assoc, List.singleton_append, List.splitOn_append_cons_self, hnames]

end Path

theorem lastTwoPathComponents_of_split {p a b : Str} {front : List Str}
    (h : p.splitOn '/' = front ++ [a, b]) (ha : trimSpace a = a) (hb : trimSpace b = b)
    (ha' : a ≠ []) (hb' : b ≠ []) : lastTwoPathComponents p = some (a, b) := by
  rw [lastTwoPathComponents, h, List.map_append, List.filter_append, List.reverse_append]
  simp [ha, hb, ha', hb']

theorem destinationIdentity_of_parse {text : Str} {dest : Destination} {names : Str × Str}
    (h : parseDestination text = .ok dest) (hnames : lastTwoPathComponents dest.path = some names) :
    destinationIdentity text = .ok names := by
  unfold destinationIdentity parseSourceDestination
  rw [h]
  dsimp only [bind, Except.bind]
  rw [hnames]

/-! ## Reading a destination back -/

/-- The schemes with a bucket. -/
def objectStoreSchemes : List Str := [schemeS3, schemeGCS, schemeAzure]

theorem parseDestination_scheme {scheme : Str} (h : scheme ∈ objectStoreSchemes) (rest : Str) :
    parseDestination (scheme ++ rest) = parseBucketDest scheme (scheme ++ rest) := by
  have hself : ∀ s : Str, hasPrefix (s ++ rest) s = true := fun s =>
    hasPrefix_iff.mpr (List.prefix_append s rest)
  have hgcs : hasPrefix (schemeGCS ++ rest) schemeS3 = false := rfl
  have hazure : hasPrefix (schemeAzure ++ rest) schemeS3 = false := rfl
  have hazure' : hasPrefix (schemeAzure ++ rest) schemeGCS = false := rfl
  unfold parseDestination
  simp only [objectStoreSchemes, List.mem_cons, List.not_mem_nil, or_false] at h
  rcases h with rfl | rfl | rfl
  · rw [if_pos (hself _)]
  · rw [if_neg (by simp [hgcs]), if_pos (hself _)]
  · rw [if_neg (by simp [hazure]), if_neg (by simp [hazure']), if_pos (hself _)]

theorem parseBucketDest_text (scheme : Str) {bucket path : Str} (hbucket : bucket ≠ [])
    (hslash : '/' ∉ bucket) (hpath : path ≠ []) (hfirst : path.head? ≠ some '/')
    (hlast : path.getLast? ≠ some '/') :
    parseBucketDest scheme (scheme ++ (bucket ++ '/' :: path)) = .ok ⟨scheme, bucket, path⟩ := by
  obtain ⟨a, rest, rfl⟩ := List.exists_cons_of_ne_nil hbucket
  have htrim : trim '/' (a :: rest ++ '/' :: path) = a :: rest ++ '/' :: path := by
    refine trim_eq_self (fun h => hslash ?_) ?_
    · rw [← Option.some.inj h]
      exact List.mem_cons_self
    · rw [List.getLast?_append_of_ne_nil _ (List.cons_ne_nil _ _),
        List.getLast?_cons_of_ne_nil hpath]
      exact hlast
  unfold parseBucketDest
  dsimp only
  rw [trimPrefix_append, htrim, if_neg (by simp), cut_append hslash]
  dsimp only
  rw [if_neg hbucket, Option.getD_some, trim_eq_self hfirst hlast]

theorem formatDestination_eq {scheme bucket keyPrefix : Str} (h : scheme ∈ objectStoreSchemes)
    (c n : ObjectName) :
    formatDestination scheme bucket keyPrefix c.val n.val =
      scheme ++ (bucket ++ '/' :: joinKey [keyPrefix, setPrefix c.val n.val]) := by
  have hscheme : scheme ≠ schemePVC := by
    rintro rfl
    exact absurd h (by decide +kernel)
  unfold formatDestination Destination.text
  dsimp only
  rw [if_neg hscheme, if_neg hscheme, if_neg (joinKey_set_ne_nil keyPrefix c n), List.append_assoc]

section RoundTrip

variable {scheme bucket cluster backup : Str} (hscheme : scheme ∈ objectStoreSchemes)
  (hbucket : bucket ≠ []) (hslash : '/' ∉ bucket) (keyPrefix : Str)
  (hcluster : isDNS1123Subdomain cluster = true) (hbackup : isDNS1123Subdomain backup = true)

include hscheme hbucket hslash hcluster hbackup

theorem parseDestination_formatDestination :
    parseDestination (formatDestination scheme bucket keyPrefix cluster backup) =
      .ok ⟨scheme, bucket, joinKey [keyPrefix, setPrefix cluster backup]⟩ := by
  let c : ObjectName := ⟨cluster, proper_of_subdomain hcluster⟩
  let n : ObjectName := ⟨backup, proper_of_subdomain hbackup⟩
  rw [formatDestination_eq hscheme c n, parseDestination_scheme hscheme]
  exact parseBucketDest_text scheme hbucket hslash (joinKey_set_ne_nil keyPrefix c n)
    (joinKey_set_head? keyPrefix c n) (joinKey_set_getLast? keyPrefix c n)

theorem destinationIdentity_formatDestination :
    destinationIdentity (formatDestination scheme bucket keyPrefix cluster backup) =
      .ok (cluster, backup) := by
  let c : ObjectName := ⟨cluster, proper_of_subdomain hcluster⟩
  let n : ObjectName := ⟨backup, proper_of_subdomain hbackup⟩
  obtain ⟨front, hsplit⟩ := splitOn_joinKey_set keyPrefix c n
  have hnames := lastTwoPathComponents_of_split hsplit (trimSpace_of_subdomain hcluster)
    (trimSpace_of_subdomain hbackup) c.proper.nonempty n.proper.nonempty
  exact destinationIdentity_of_parse
    (parseDestination_formatDestination hscheme hbucket hslash keyPrefix hcluster hbackup) hnames

/-- A recorded destination parses back to what it was made of, and names the cluster and
the backup. -/
theorem destination_roundTrip :
    parseDestination (formatDestination scheme bucket keyPrefix cluster backup) =
        .ok ⟨scheme, bucket, joinKey [keyPrefix, setPrefix cluster backup]⟩ ∧
      destinationIdentity (formatDestination scheme bucket keyPrefix cluster backup) =
        .ok (cluster, backup) :=
  ⟨parseDestination_formatDestination hscheme hbucket hslash keyPrefix hcluster hbackup,
    destinationIdentity_formatDestination hscheme hbucket hslash keyPrefix hcluster hbackup⟩

end RoundTrip

/-- A prefix with slashes and blanks of its own. -/
theorem destination_roundTrip_nested :
    destinationIdentity (formatDestination schemeGCS "bucket" "/a// b/ /"
        "prod.eu" "nightly-1") = .ok ("prod.eu", "nightly-1") :=
  (destination_roundTrip (by decide +kernel) (by decide +kernel) (by decide +kernel) _
    (by decide +kernel) (by decide +kernel)).2

end ValkeyOperator.Restore

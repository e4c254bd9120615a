import ValkeyOperator.Lib.Stages
import ValkeyOperator.Valkey.UsersACL

/-! The users.acl file of a cluster (`perconavalkeycluster/acl.go`).

Disabled users have no line, and neither has one whose name is reserved; a user
whose password is missing stops the rendering. -/

namespace ValkeyOperator.Cluster
open Text Valkey

/-- Reading a Secret: an error, no such Secret, or its data. -/
abbrev SecretReader := Str → Except Err (Option (GoMap Str Str))

def systemUserPrefix : Str := "_"

section Rendering
variable (sha256 : Digest) (secret : SecretReader)

def fetchUserPasswordHashes (u : UserACLSpec) : Except Err (List Str) :=
  let who := "user " ++ quote u.name ++ ": "
  let secretName := u.passwordSecret.name
  if secretName = [] then .error { msg := who ++ "passwordSecret.name is empty" }
  else
    let keys := if u.passwordSecret.keys = [] then [u.name] else u.passwordSecret.keys
    match secret secretName with
    | .error e => .error (e.wrap (who ++ "get password Secret " ++ quote secretName))
    | .ok none => .error
        { msg := who ++ "password Secret " ++ quote secretName ++ " not found" }
    | .ok (some data) => keys.mapM fun key =>
        match data.lookup key with
        | some (c :: rest) => .ok (hashACLPassword sha256 (c :: rest))
        | _ => .error { msg := who ++ "password Secret " ++ quote secretName ++
            " missing key " ++ quote key }

/-- The users that have a line. -/
def renderedUsers (users : List UserACLSpec) : List UserACLSpec :=
  users.filter fun u => u.enabled && !hasPrefix u.name systemUserPrefix

/-- Neither a reset nor an absent password needs the Secret. -/
def userHashes (u : UserACLSpec) : Except Err (List Str) :=
  if !u.resetpass && !u.nopass then fetchUserPasswordHashes sha256 secret u else .ok []

def buildUserDefinedACLLines (users : List UserACLSpec) : Except Err (List Str) :=
  (renderedUsers users).mapM fun u => do
    let pwHashes ← userHashes sha256 secret u
    pure (buildUserACL u pwHashes)

/-- What `reconcileUsersACL` writes into the Secret. -/
def usersACLContent (exporterEnabled : Bool) (passwords : GoMap Str Str) (requirepass : Str)
    (users : List UserACLSpec) : Except Err Str := do
  let userLines ← buildUserDefinedACLLines sha256 secret users
  pure (renderUsersACL sha256 exporterEnabled passwords userLines requirepass)

variable {sha256 secret}

theorem userHashes_ok {u : UserACLSpec} {hashes : List Str}
    (h : userHashes sha256 secret u = .ok hashes) :
    ∀ hash ∈ hashes, ∃ password, hash = hashACLPassword sha256 password := by
  intro hash hmem
  unfold userHashes fetchUserPasswordHashes at h
  dsimp only at h
  split at h
  · split at h
    · cases h
    · split at h
      · cases h
      · cases h
      · obtain ⟨key, -, hkey⟩ := (Staged.mapM_eq_ok h).2 hash hmem
        split at hkey
        · cases hkey
          exact ⟨_, rfl⟩
        · cases hkey
  · cases h
    cases hmem

/-- No line of the file beside the operator's defines one of its users when every
user that has a line is harmless. -/
theorem claims_userLines_iff {users : List UserACLSpec} {userLines : List Str}
    (h : buildUserDefinedACLLines sha256 secret users = .ok userLines) :
    (∀ line ∈ userLines, ¬ AnyClaims line) ↔ ∀ u ∈ renderedUsers users, Harmless u := by
  obtain ⟨hleft, hright⟩ := Staged.mapM_eq_ok h
  have hline : ∀ u line, (do
      let pwHashes ← userHashes sha256 secret u
      pure (buildUserACL u pwHashes)) = Except.ok line → (¬ AnyClaims line ↔ Harmless u) := by
    intro u line hline
    obtain ⟨hashes, hhashes, hpure⟩ := Staged.bind_eq_ok.mp hline
    cases hpure
    rw [anyClaims_buildUserACL u (userHashes_ok hhashes), not_not]
  constructor
  · intro hnone u hu
    obtain ⟨line, hmem, heq⟩ := hleft u hu
    exact (hline u line heq).mp (hnone line hmem)
  · intro hharmless line hmem
    obtain ⟨u, hu, heq⟩ := hright line hmem
    exact (hline u line heq).mpr (hharmless u hu)

theorem trimSpace_userLines {users : List UserACLSpec} {userLines : List Str}
    (h : buildUserDefinedACLLines sha256 secret users = .ok userLines) :
    ∀ line ∈ userLines, trimSpace line ≠ [] := by
  intro line hmem
  obtain ⟨u, -, heq⟩ := (Staged.mapM_eq_ok h).2 line hmem
  obtain ⟨hashes, -, hpure⟩ := Staged.bind_eq_ok.mp heq
  cases hpure
  exact trimSpace_buildUserACL u hashes

end Rendering

/-- Two lists of users leave the operator's users alone, each with its one line,
exactly when all their users are harmless. -/
theorem usersACL_noninterference_iff {sha256 : Digest} {secret : SecretReader}
    {exporterEnabled : Bool} {passwords : GoMap Str Str} {requirepass : Str}
    {users users' : List UserACLSpec} {file file' : Str}
    (h : usersACLContent sha256 secret exporterEnabled passwords requirepass users = .ok file)
    (h' : usersACLContent sha256 secret exporterEnabled passwords requirepass users' = .ok file') :
    (∀ name ∈ reservedUsers, definitions name file = definitions name file' ∧
      (definitions name file).length = occurrences exporterEnabled name) ↔
    (∀ u ∈ renderedUsers users, Harmless u) ∧ ∀ u ∈ renderedUsers users', Harmless u := by
  obtain ⟨userLines, hlines, hfile⟩ := Staged.bind_eq_ok.mp h
  obtain ⟨userLines', hlines', hfile'⟩ := Staged.bind_eq_ok.mp h'
  cases hfile
  cases hfile'
  have honce := occurrences_iff sha256 exporterEnabled passwords requirepass userLines
    (trimSpace_userLines hlines)
  have honce' := occurrences_iff sha256 exporterEnabled passwords requirepass userLines'
    (trimSpace_userLines hlines')
  rw [claims_userLines_iff hlines] at honce
  rw [claims_userLines_iff hlines'] at honce'
  constructor
  · intro hsame
    refine ⟨honce.mp fun name hname => (hsame name hname).2, honce'.mp fun name hname => ?_⟩
    obtain ⟨heq, hlength⟩ := hsame name hname
    rw [← heq, hlength]
  · rintro ⟨hharmless, hharmless'⟩ name hname
    refine ⟨?_, honce.mpr hharmless name hname⟩
    rw [definitions_of_not_claims _ _ _ _ ((claims_userLines_iff hlines).mpr hharmless) hname,
      definitions_of_not_claims _ _ _ _ ((claims_userLines_iff hlines').mpr hharmless') hname]

def appUser (permissions : String) : UserACLSpec :=
  { name := "app", nopass := true, keys := some { readWrite := ["app:*"] },
    permissions := permissions.toList }

theorem usersACL_noninterference_app :
    let file := renderUsersACL checksum true ∅ [buildUserACL (appUser "+@read") []] []
    usersACLContent checksum (fun _ => .ok none) true ∅ [] [appUser "+@read"] = .ok file ∧
      ∀ name ∈ reservedUsers,
        definitions name file = definitions name (renderUsersACL checksum true ∅ [] []) ∧
          (definitions name file).length = occurrences true name :=
  ⟨rfl, (@usersACL_noninterference_iff checksum (fun _ => .ok none) true ∅ [] [appUser "+@read"]
    [] _ _ rfl rfl).mpr (by decide +kernel)⟩

/-- Permissions with a line break redefine a system user, and an entry may be
named like the default user. -/
theorem usersACL_operator_redefined :
    let users := [appUser "+@read\nuser _operator on nopass ~* &* +@all",
      { name := "default", nopass := true, permissions := "~* +@all" }]
    (∀ u ∈ users, hasPrefix u.name systemUserPrefix = false) ∧
      ∃ file, usersACLContent checksum (fun _ => .ok none) true ∅ "secret" users = .ok file ∧
        (definitions systemUserOperator file).length = 2 ∧
        (definitions systemUserDefault file).length = 2 := by
  intro users
  refine ⟨by decide, _, rfl, ?_⟩
  decide +kernel

end ValkeyOperator.Cluster

import ValkeyOperator.Lib.Lines
import ValkeyOperator.Valkey.State

/-! The users.acl file (`pkg/valkey/acl.go`, `api/v1alpha1` for the user entries).

The file has one line for the default user, one for each system user, and the
text of each user entry. The fields of an entry are written verbatim, so a line
break in one of them starts a line of its own. -/

namespace ValkeyOperator.Valkey
open Text

variable {sha256 : Digest} {pwHashes : List Str} {line m name : Str}

/-! ## User entries -/

structure UserPasswordSecret where
  name : Str := []
  keys : List Str := []

structure UserCommands where
  allow : List Str := []
  deny : List Str := []

structure UserKeys where
  readWrite : List Str := []
  readOnly : List Str := []
  writeOnly : List Str := []

structure UserChannels where
  patterns : List Str := []

structure UserACLSpec where
  name : Str
  enabled : Bool := true
  passwordSecret : UserPasswordSecret := {}
  nopass : Bool := false
  resetpass : Bool := false
  commands : Option UserCommands := none
  keys : Option UserKeys := none
  channels : Option UserChannels := none
  permissions : Str := []

/-! ## Rendering -/

def systemUserDefault : Str := "default"
def systemUserOperator : Str := "_operator"
def systemUserExporter : Str := "_exporter"
def systemUserBackup : Str := "_backup"

def defaultUserRules : Str := "~* &* +@all"

def operatorRules : Str :=
  "resetchannels resetkeys -@all +cluster +config|get +config|set +info " ++
  "+client|setname +client|setinfo +replicaof +wait +ping +acl|load +acl|list"

def exporterRules : Str := "resetchannels resetkeys -@all +info +cluster|info +latency +ping"

def backupRules : Str :=
  "resetchannels resetkeys -@all +bgsave +lastsave +save +info +wait +ping " ++
  "+cluster|nodes +sync +psync +replconf"

structure SystemUser where
  name : Str
  rules : Str

def systemUsers (exporterEnabled : Bool) : List SystemUser :=
  ⟨systemUserOperator, operatorRules⟩ ::
    (if exporterEnabled then [⟨systemUserExporter, exporterRules⟩] else []) ++
    [⟨systemUserBackup, backupRules⟩]

/-- A digest of texts, written in hexadecimal. -/
structure Digest where
  hex : Str → Str
  digits : ∀ s, ∀ c ∈ hex s, c ∈ "0123456789abcdef".toList

/-- A checksum in the form of the digest. -/
def checksum : Digest := ⟨hexChecksum, fun _ _ => mem_hexChecksum⟩

def hashACLPassword (sha256 : Digest) (password : Str) : Str := '#' :: sha256.hex password

def renderSystemUserLine (sha256 : Digest) (u : SystemUser) (password : Str) : Str :=
  "user " ++ u.name ++ " on " ++ hashACLPassword sha256 password ++ [' '] ++ u.rules

def defaultUserLine (sha256 : Digest) (password : Str) : Str :=
  if password = [] then
    "user " ++ systemUserDefault ++ " on nopass " ++ defaultUserRules
  else
    "user " ++ systemUserDefault ++ " on " ++ hashACLPassword sha256 password ++
      [' '] ++ defaultUserRules

def renderUsersACL (sha256 : Digest) (exporterEnabled : Bool) (passwords : GoMap Str Str)
    (userLines : List Str) (defaultUserPassword : Str) : Str :=
  let sorted := userLines.insertionSort (· ≤ ·)
  (defaultUserLine sha256 defaultUserPassword ::
    (systemUsers exporterEnabled).map (fun u =>
      renderSystemUserLine sha256 u ((passwords.lookup u.name).getD [])) ++
    sorted.filter (fun line => trimSpace line ≠ [])).flatMap (· ++ ['\n'])

/-- A reset wins over no password, and that over the hashed passwords. -/
def passwordSlot (u : UserACLSpec) (pwHashes : List Str) : Str :=
  if u.resetpass then " resetpass"
  else if u.nopass then " nopass"
  else pwHashes.flatMap (' ' :: ·)

def keyRules : Option UserKeys → Str
  | none => []
  | some k => k.readWrite.flatMap (" ~".toList ++ ·) ++ k.readOnly.flatMap (" %R~".toList ++ ·) ++
      k.writeOnly.flatMap (" %W~".toList ++ ·)

def channelRules : Option UserChannels → Str
  | none => []
  | some c =>
    if c.patterns = [] then []
    else " resetchannels" ++ c.patterns.flatMap (" &".toList ++ ·)

def commandRules : Option UserCommands → Str
  | none => []
  | some c => c.allow.flatMap (" +".toList ++ ·) ++ c.deny.flatMap (" -".toList ++ ·)

/-- The text of one user entry; the order of its parts is fixed. -/
def buildUserACL (u : UserACLSpec) (pwHashes : List Str) : Str :=
  "user " ++ u.name ++ (if u.enabled then " on".toList else " off") ++
    passwordSlot u pwHashes ++ keyRules u.keys ++ channelRules u.channels ++
    commandRules u.commands ++ (if u.permissions = [] then [] else ' ' :: u.permissions)

/-! ## Which lines define a user -/

/-- The user a line of the file defines. -/
def definedUser (line : Str) : Option Str :=
  match fields line with
  | keyword :: name :: _ => if keyword = "user" then some name else none
  | _ => none

/-- The lines of a file that define a user. -/
def definitions (name content : Str) : List Str :=
  (lines content).filter fun line => definedUser line = some name

/-- The users that belong to the operator. -/
def reservedUsers : List Str :=
  [systemUserDefault, systemUserOperator, systemUserExporter, systemUserBackup]

/-- The line defines a user of the operator. -/
def Claims (line : Str) : Prop := ∃ name ∈ reservedUsers, definedUser line = some name

instance (line : Str) : Decidable (Claims line) :=
  inferInstanceAs (Decidable (∃ name ∈ reservedUsers, definedUser line = some name))

/-- Some line of the text does. -/
def AnyClaims (text : Str) : Prop := ∃ line ∈ lines text, Claims line

theorem fields_user (s : Str) : fields ("user " ++ s) = "user".toList :: fields s := by
  have hword : fields "user" = ["user".toList] := fields_of_word (by decide)
  refine (fields_append_blank (c := ' ') rfl "user" s).trans ?_
  rw [hword, List.singleton_append]

/-- The name in a line does not depend on what follows it. -/
theorem definedUser_append (h : definedUser line = some name) (t : Str) :
    definedUser (line ++ ' ' :: t) = some name := by
  unfold definedUser at h ⊢
  rw [fields_append_blank rfl]
  split at h
  · rename_i heq
    rw [heq]
    exact h
  · cases h

theorem definedUser_words (h : IsWord name) (t : Str) :
    definedUser ("user " ++ name ++ ' ' :: t) = some name := by
  refine definedUser_append ?_ t
  rw [definedUser, fields_user, fields_of_word h]
  exact if_pos rfl

/-- A blank and a letter that begins neither the keyword nor a name of the
operator, on one line. -/
structure Mark (m : Str) : Prop where
  starts : ∃ c rest, m = ' ' :: c :: rest ∧ isSpace c = false ∧ c ≠ 'u' ∧ c ≠ 'd' ∧ c ≠ '_'
  oneLine : '\n' ∉ m

theorem Mark.append (h : Mark m) {t : Str} (ht : '\n' ∉ t) : Mark (m ++ t) := by
  obtain ⟨c, rest, rfl, hc⟩ := h.starts
  exact ⟨⟨c, rest ++ t, rfl, hc⟩, by simpa [ht] using h.oneLine⟩

/-- The first word behind a mark is neither, so it decides nothing. -/
theorem claims_append_mark (h : Mark m) (t : Str) : Claims (line ++ (m ++ t)) ↔ Claims line := by
  obtain ⟨c, rest, rfl, hspace, hu, hd, hunder⟩ := h.starts
  constructor
  · rintro ⟨name, hname, h⟩
    refine ⟨name, hname, ?_⟩
    obtain ⟨w, ws, hw⟩ := fields_cons hspace (rest ++ t)
    unfold definedUser at h ⊢
    rw [List.cons_append, List.cons_append, fields_append_blank rfl, hw] at h
    match hfields : fields line with
    | [] =>
      rw [hfields, List.nil_append] at h
      cases ws with
      | nil => cases h
      | cons w' ws =>
        have hne : (c :: w) ≠ "user" := fun heq => hu (List.cons.inj heq).1
        change (if c :: w = "user" then some w' else none) = some name at h
        rw [if_neg hne] at h
        cases h
    | [keyword] =>
      rw [hfields, List.singleton_append] at h
      dsimp only at h
      split at h
      · rw [← Option.some.inj h] at hname
        simp only [reservedUsers, List.mem_cons, List.not_mem_nil, or_false] at hname
        rcases hname with heq | heq | heq | heq
        · exact absurd (List.cons.inj heq).1 hd
        · exact absurd (List.cons.inj heq).1 hunder
        · exact absurd (List.cons.inj heq).1 hunder
        · exact absurd (List.cons.inj heq).1 hunder
      · cases h
    | keyword :: name' :: rest' =>
      rw [hfields] at h
      exact h
  · rintro ⟨name, hname, h⟩
    exact ⟨name, hname, definedUser_append h _⟩

/-- A line with a mark in it is decided. -/
theorem claims_append_of_mark (h : Mark m) (t s : Str) :
    Claims (line ++ (m ++ t) ++ ' ' :: s) ↔ Claims (line ++ (m ++ t)) := by
  rw [List.append_assoc, List.append_assoc, claims_append_mark h, claims_append_mark h]

theorem claims_of_append {t : Str} (h : Claims line) : Claims (line ++ ' ' :: t) := by
  obtain ⟨name, hname, h⟩ := h
  exact ⟨name, hname, definedUser_append h t⟩

/-! ## The text of an entry

Between the name and the permissions an entry is a list of pairs: a mark, and a
text of the user's or none. -/

def keyTokens (keys : Option UserKeys) : List (Str × Str) :=
  keys.elim [] fun k => k.readWrite.map (" ~".toList, ·) ++ k.readOnly.map (" %R~".toList, ·) ++
    k.writeOnly.map (" %W~".toList, ·)

def channelTokens (channels : Option UserChannels) : List (Str × Str) :=
  channels.elim [] fun c =>
    if c.patterns = [] then [] else (" resetchannels", []) :: c.patterns.map (" &", ·)

def commandTokens (commands : Option UserCommands) : List (Str × Str) :=
  commands.elim [] fun c => c.allow.map (" +".toList, ·) ++ c.deny.map (" -".toList, ·)

def passwordTokens (u : UserACLSpec) (pwHashes : List Str) : List (Str × Str) :=
  if u.resetpass then [(" resetpass", [])]
  else if u.nopass then [(" nopass", [])]
  else pwHashes.map (fun h => (' ' :: h, []))

/-- The text of a list of tokens. -/
def spell (toks : List (Str × Str)) : Str := toks.flatMap fun t => t.1 ++ t.2

theorem spell_cons (mark text : Str) (toks : List (Str × Str)) :
    spell ((mark, text) :: toks) = mark ++ text ++ spell toks := List.flatMap_cons

theorem spell_singleton (mark text : Str) : spell [(mark, text)] = mark ++ text := by
  rw [spell_cons, spell, List.flatMap_nil, List.append_nil]

theorem spell_append (a b : List (Str × Str)) : spell (a ++ b) = spell a ++ spell b :=
  List.flatMap_append

theorem spell_map (mark : Str) (texts : List Str) :
    spell (texts.map (mark, ·)) = texts.flatMap (mark ++ ·) := List.flatMap_map ..

theorem spell_keyTokens (keys : Option UserKeys) : spell (keyTokens keys) = keyRules keys := by
  cases keys with
  | none => rfl
  | some k => simp only [keyTokens, Option.elim, spell_append, spell_map, keyRules]

theorem spell_channelTokens (channels : Option UserChannels) :
    spell (channelTokens channels) = channelRules channels := by
  cases channels with
  | none => rfl
  | some c =>
    simp only [channelTokens, Option.elim, channelRules]
    split
    · rfl
    · exact congrArg (" resetchannels".toList ++ ·) (spell_map _ _)

theorem spell_commandTokens (commands : Option UserCommands) :
    spell (commandTokens commands) = commandRules commands := by
  cases commands with
  | none => rfl
  | some c => simp only [commandTokens, Option.elim, spell_append, spell_map, commandRules]

theorem spell_passwordTokens (u : UserACLSpec) (pwHashes : List Str) :
    spell (passwordTokens u pwHashes) = passwordSlot u pwHashes := by
  unfold passwordTokens passwordSlot
  split
  · rfl
  · split
    · rfl
    · simp [spell, List.flatMap_map]

/-- The tokens that are not the user's, and those that are. -/
def fixedTokens (u : UserACLSpec) (pwHashes : List Str) : List (Str × Str) :=
  (if u.enabled then " on" else " off", []) :: passwordTokens u pwHashes

def ruleTokens (u : UserACLSpec) : List (Str × Str) :=
  keyTokens u.keys ++ channelTokens u.channels ++ commandTokens u.commands

theorem buildUserACL_eq (u : UserACLSpec) (pwHashes : List Str) :
    buildUserACL u pwHashes =
      "user " ++ u.name ++ spell (fixedTokens u pwHashes ++ ruleTokens u) ++
        (if u.permissions = [] then [] else ' ' :: u.permissions) := by
  have hfixed : spell (fixedTokens u pwHashes) =
      (if u.enabled then " on".toList else " off") ++ passwordSlot u pwHashes := by
    refine (spell_cons _ [] _).trans ?_
    rw [List.append_nil, spell_passwordTokens]
  unfold buildUserACL ruleTokens
  rw [spell_append, hfixed, spell_append, spell_append, spell_keyTokens, spell_channelTokens,
    spell_commandTokens]
  simp only [List.append_assoc]

/-! ## Entries that claim a user of the operator -/

theorem anyClaims_append_mark {acc : Str} (h : Mark m) (t : Str) :
    AnyClaims (acc ++ (m ++ t)) ↔ AnyClaims acc ∨ ∃ line ∈ restLines t, Claims line := by
  unfold AnyClaims
  rw [exists_lines_append, exists_lines, firstLine_append h.oneLine, restLines_append h.oneLine,
    claims_append_mark h]
  exact or_assoc.symm

theorem anyClaims_spell {acc : Str} {toks : List (Str × Str)} (h : ∀ t ∈ toks, Mark t.1) :
    AnyClaims (acc ++ spell toks) ↔
      AnyClaims acc ∨ ∃ t ∈ toks, ∃ line ∈ restLines t.2, Claims line := by
  induction toks generalizing acc with
  | nil => simp [spell]
  | cons t toks ih =>
    obtain ⟨ht, hrest⟩ := List.forall_mem_cons.mp h
    rw [spell_cons, ← List.append_assoc, ih hrest, anyClaims_append_mark ht,
      List.exists_mem_cons_iff, or_assoc]

/-- The permissions go on in the last line. -/
theorem anyClaims_append_permissions (acc p : Str) :
    AnyClaims (acc ++ if p = [] then [] else ' ' :: p) ↔
      AnyClaims acc ∨ Claims (lastLine acc ++ ' ' :: firstLine p) ∨
        ∃ line ∈ restLines p, Claims line := by
  by_cases hp : p = []
  · subst hp
    have hblank : Claims (lastLine acc ++ [' ']) ↔ Claims (lastLine acc) := by
      unfold Claims definedUser
      rw [fields_append_blank rfl]
      simp [fields, List.splitOnP_nil]
    have hlast : Claims (lastLine acc) → AnyClaims acc := fun h => exists_lines.mpr (.inr h)
    rw [if_pos rfl, List.append_nil, firstLine_of_not_mem (by simp), restLines_of_not_mem (by simp),
      hblank]
    simpa using hlast
  · have hbreak : '\n' ∉ [' '] := by decide
    unfold AnyClaims
    rw [if_neg hp, exists_lines_append, exists_lines]
    have hfirst : firstLine (' ' :: p) = ' ' :: firstLine p := firstLine_append hbreak p
    have hrest : restLines (' ' :: p) = restLines p := restLines_append hbreak p
    rw [hfirst, hrest]
    constructor
    · rintro (h | h)
      · exact .inl (.inl h)
      · exact .inr h
    · rintro ((h | h) | h)
      · exact .inl h
      · exact .inr (.inl (claims_of_append h))
      · exact .inr h

theorem anyClaims_name (name : Str) :
    AnyClaims ("user " ++ name) ↔
      (∃ w ∈ (fields (firstLine name)).head?, w ∈ reservedUsers) ∨
        ∃ line ∈ restLines name, Claims line := by
  have hbreak : '\n' ∉ "user ".toList := by decide
  have hclaims : Claims ("user " ++ firstLine name) ↔
      ∃ w ∈ (fields (firstLine name)).head?, w ∈ reservedUsers := by
    unfold Claims definedUser
    rw [fields_user]
    cases fields (firstLine name) with
    | nil => simp
    | cons w ws => simp
  unfold AnyClaims
  rw [lines_eq, firstLine_append hbreak, restLines_append hbreak, List.exists_mem_cons_iff, hclaims]

/-- The fields of an entry behind its name that are written verbatim, in order. -/
def UserACLSpec.patterns (u : UserACLSpec) : List Str :=
  (u.keys.elim [] fun k => k.readWrite ++ k.readOnly ++ k.writeOnly) ++
  (u.channels.elim [] fun c => c.patterns) ++
  (u.commands.elim [] fun c => c.allow ++ c.deny)

/-- No line of the entry's fields defines a user of the operator: not the name,
not a line that a break in a field starts, and not the line that goes on into
the permissions. -/
structure Harmless (u : UserACLSpec) : Prop where
  name : ∀ w ∈ (fields (firstLine u.name)).head?, w ∉ reservedUsers
  fieldLines : ∀ s ∈ u.name :: u.patterns ++ [u.permissions], ∀ line ∈ restLines s, ¬ Claims line
  continued : ∀ s ∈ u.patterns.getLast?, '\n' ∈ s →
    ¬ Claims (lastLine s ++ ' ' :: firstLine u.permissions)

instance (u : UserACLSpec) : Decidable (Harmless u) :=
  decidable_of_iff ((∀ w ∈ (fields (firstLine u.name)).head?, w ∉ reservedUsers) ∧
      (∀ s ∈ u.name :: u.patterns ++ [u.permissions], ∀ line ∈ restLines s, ¬ Claims line) ∧
      ∀ s ∈ u.patterns.getLast?, '\n' ∈ s → ¬ Claims (lastLine s ++ ' ' :: firstLine u.permissions))
    ⟨fun h => ⟨h.1, h.2.1, h.2.2⟩, fun h => ⟨h.name, h.fieldLines, h.continued⟩⟩

theorem mark_of_letter (c : Char) (rest : Str) (heq : m = ' ' :: c :: rest)
    (hc : isSpace c = false ∧ c ≠ 'u' ∧ c ≠ 'd' ∧ c ≠ '_') (hline : '\n' ∉ m) : Mark m :=
  ⟨⟨c, rest, heq, hc⟩, hline⟩

theorem mark_hash (sha256 : Digest) (password : Str) :
    Mark (' ' :: hashACLPassword sha256 password) := by
  refine mark_of_letter '#' _ rfl (by decide) ?_
  intro hmem
  simp only [hashACLPassword, List.mem_cons] at hmem
  rcases hmem with h | h | h
  · exact absurd h (by decide)
  · exact absurd h (by decide)
  · exact absurd (sha256.digits password _ h) (by decide)

section Marks
variable {P : Str × Str → Prop} {mark : Str} {texts : List Str}

theorem forall_mem_map_mark (h : Mark mark) : ∀ t ∈ texts.map (mark, ·), Mark t.1 := by
  intro t ht
  obtain ⟨s, -, rfl⟩ := List.mem_map.mp ht
  exact h

end Marks

theorem mark_ruleTokens (u : UserACLSpec) : ∀ t ∈ ruleTokens u, Mark t.1 := by
  have hkeys : ∀ t ∈ keyTokens u.keys, Mark t.1 := by
    unfold keyTokens
    cases u.keys with
    | none => exact fun t ht => nomatch ht
    | some k =>
      simp only [Option.elim, List.forall_mem_append]
      exact ⟨⟨forall_mem_map_mark (mark_of_letter '~' [] rfl (by decide) (by decide)),
        forall_mem_map_mark (mark_of_letter '%' "R~" rfl (by decide) (by decide))⟩,
        forall_mem_map_mark (mark_of_letter '%' "W~" rfl (by decide) (by decide))⟩
  have hchannels : ∀ t ∈ channelTokens u.channels, Mark t.1 := by
    unfold channelTokens
    cases u.channels with
    | none => exact fun t ht => nomatch ht
    | some c =>
      dsimp only [Option.elim]
      split
      · exact fun t ht => nomatch ht
      · exact List.forall_mem_cons.mpr
          ⟨mark_of_letter 'r' "esetchannels" rfl (by decide) (by decide),
            forall_mem_map_mark (mark_of_letter '&' [] rfl (by decide) (by decide))⟩
  have hcommands : ∀ t ∈ commandTokens u.commands, Mark t.1 := by
    unfold commandTokens
    cases u.commands with
    | none => exact fun t ht => nomatch ht
    | some c =>
      simp only [Option.elim, List.forall_mem_append]
      exact ⟨forall_mem_map_mark (mark_of_letter '+' [] rfl (by decide) (by decide)),
        forall_mem_map_mark (mark_of_letter '-' [] rfl (by decide) (by decide))⟩
  unfold ruleTokens
  simp only [List.forall_mem_append]
  exact ⟨⟨hkeys, hchannels⟩, hcommands⟩

theorem fixedTokens_spec (u : UserACLSpec)
    (h : ∀ hash ∈ pwHashes, ∃ password, hash = hashACLPassword sha256 password) :
    ∀ t ∈ fixedTokens u pwHashes, Mark t.1 ∧ t.2 = [] := by
  unfold fixedTokens passwordTokens
  refine List.forall_mem_cons.mpr ⟨⟨?_, rfl⟩, ?_⟩
  · dsimp only
    split
    · exact mark_of_letter 'o' "n" rfl (by decide) (by decide)
    · exact mark_of_letter 'o' "ff" rfl (by decide) (by decide)
  · split
    · rw [List.forall_mem_singleton]
      exact ⟨mark_of_letter 'r' "esetpass" rfl (by decide) (by decide), rfl⟩
    · split
      · rw [List.forall_mem_singleton]
        exact ⟨mark_of_letter 'n' "opass" rfl (by decide) (by decide), rfl⟩
      · intro t ht
        obtain ⟨hash, hmem, rfl⟩ := List.mem_map.mp ht
        obtain ⟨password, rfl⟩ := h hash hmem
        exact ⟨mark_hash sha256 password, rfl⟩

theorem keyTokens_texts (keys : Option UserKeys) :
    (keyTokens keys).map (·.2) = keys.elim [] fun k => k.readWrite ++ k.readOnly ++ k.writeOnly := by
  cases keys with
  | none => rfl
  | some k => simp [keyTokens, Function.comp_def]

theorem commandTokens_texts (commands : Option UserCommands) :
    (commandTokens commands).map (·.2) = commands.elim [] fun c => c.allow ++ c.deny := by
  cases commands with
  | none => rfl
  | some c => simp [commandTokens, Function.comp_def]

theorem channelTokens_texts (channels : Option UserChannels) :
    (channelTokens channels).map (·.2) =
      channels.elim [] fun c => if c.patterns = [] then [] else [] :: c.patterns := by
  cases channels with
  | none => rfl
  | some c =>
    dsimp only [channelTokens, Option.elim]
    split
    · rfl
    · simp [Function.comp_def]

/-- The texts of the rule tokens are the patterns of the entry, with an empty one
before the channels if there are any. -/
theorem ruleTokens_texts (u : UserACLSpec) :
    (ruleTokens u).map (·.2) = u.patterns ∨
      ∃ a b, b ≠ [] ∧ (ruleTokens u).map (·.2) = a ++ [] :: b ∧ u.patterns = a ++ b := by
  unfold ruleTokens UserACLSpec.patterns
  rw [List.map_append, List.map_append, keyTokens_texts, channelTokens_texts, commandTokens_texts]
  cases u.channels with
  | none => exact .inl rfl
  | some c =>
    rw [Option.elim_some, Option.elim_some]
    by_cases hnone : c.patterns = []
    · rw [if_pos hnone, hnone]
      exact .inl rfl
    · rw [if_neg hnone]
      exact .inr ⟨_, c.patterns ++ _, by simp [hnone], List.append_assoc .., List.append_assoc ..⟩

theorem exists_ruleToken {P : Str → Prop} (hempty : ¬ P []) (u : UserACLSpec) :
    (∃ t ∈ ruleTokens u, P t.2) ↔ ∃ s ∈ u.patterns, P s := by
  have hmap : (∃ t ∈ ruleTokens u, P t.2) ↔ ∃ s ∈ (ruleTokens u).map (·.2), P s := by
    simp only [List.mem_map]
    exact ⟨fun ⟨t, ht, h⟩ => ⟨t.2, ⟨t, ht, rfl⟩, h⟩, fun ⟨_, ⟨t, ht, heq⟩, h⟩ => ⟨t, ht, heq ▸ h⟩⟩
  rw [hmap]
  rcases ruleTokens_texts u with h | ⟨a, b, -, h, hpatterns⟩
  · rw [h]
  · rw [h, hpatterns]
    simp [or_and_right, exists_or, hempty]

theorem getLast?_ruleTokens (u : UserACLSpec) :
    (ruleTokens u).getLast?.map (·.2) = u.patterns.getLast? := by
  rw [← List.getLast?_map]
  rcases ruleTokens_texts u with h | ⟨a, b, hne, h, hpatterns⟩
  · rw [h]
  · rw [h, hpatterns, List.append_cons, List.getLast?_append_of_ne_nil _ hne,
      List.getLast?_append_of_ne_nil _ hne]

/-- The line that the permissions continue is decided, unless the last pattern
has a line break; then it is the last line of that pattern. -/
theorem claims_lastLine (u : UserACLSpec)
    (h : ∀ hash ∈ pwHashes, ∃ password, hash = hashACLPassword sha256 password) (acc t : Str) :
    Claims (lastLine (acc ++ spell (fixedTokens u pwHashes ++ ruleTokens u)) ++ ' ' :: t) ↔
      Claims (lastLine (acc ++ spell (fixedTokens u pwHashes ++ ruleTokens u))) ∨
        ∃ s ∈ u.patterns.getLast?, '\n' ∈ s ∧ Claims (lastLine s ++ ' ' :: t) := by
  have hfixed := fixedTokens_spec u h
  have hrules := mark_ruleTokens u
  have hpatterns := getLast?_ruleTokens u
  have hlastToken : ∀ (toks : List (Str × Str)) (m s : Str), Mark m → '\n' ∉ s →
      (Claims (lastLine (acc ++ spell (toks ++ [(m, s)])) ++ ' ' :: t) ↔
        Claims (lastLine (acc ++ spell (toks ++ [(m, s)])))) := by
    intro toks m s hm hs
    have hline : '\n' ∉ m ++ s := by simp [hm.oneLine, hs]
    rw [spell_append, spell_singleton, ← List.append_assoc, lastLine_append_of_not_mem _ hline]
    exact claims_append_of_mark hm s t
  cases hlast : (ruleTokens u).getLast? with
  | none =>
    rw [hlast] at hpatterns
    rw [List.getLast?_eq_none_iff.mp hlast, List.append_nil, ← hpatterns]
    obtain ⟨toks, tok, htoks⟩ : ∃ toks tok, fixedTokens u pwHashes = toks ++ [tok] :=
      ⟨_, _, (List.dropLast_append_getLast (by simp [fixedTokens])).symm⟩
    obtain ⟨hm, hs⟩ := hfixed tok (by simp [htoks])
    rw [htoks, hlastToken toks tok.1 tok.2 hm (by simp [hs])]
    simp
  | some tok =>
    rw [hlast] at hpatterns
    obtain ⟨rest, htoks⟩ := List.getLast?_eq_some_iff.mp hlast
    have hm := hrules tok (by simp [htoks])
    rw [htoks, ← List.append_assoc, ← hpatterns]
    by_cases hs : '\n' ∈ tok.2
    · have hline : lastLine (acc ++ spell (fixedTokens u pwHashes ++ rest ++ [tok])) =
          lastLine tok.2 := by
        rw [spell_append, spell_singleton, ← List.append_assoc, ← List.append_assoc,
          lastLine_append_of_mem _ hs]
      rw [hline]
      simp only [Option.map_some, Option.mem_some_iff, exists_eq_left', hs, true_and]
      exact (or_iff_right_of_imp claims_of_append).symm
    · rw [hlastToken _ tok.1 tok.2 hm hs]
      simp [hs]

/-- What an entry that is not harmless defines a user of the operator by. -/
theorem not_harmless_iff (u : UserACLSpec) :
    ¬ Harmless u ↔
      (((∃ w ∈ (fields (firstLine u.name)).head?, w ∈ reservedUsers) ∨
        ∃ line ∈ restLines u.name, Claims line) ∨
        ∃ s ∈ u.patterns, ∃ line ∈ restLines s, Claims line) ∨
      (∃ s ∈ u.patterns.getLast?, '\n' ∈ s ∧ Claims (lastLine s ++ ' ' :: firstLine u.permissions)) ∨
      ∃ line ∈ restLines u.permissions, Claims line := by
  constructor
  · intro hnot
    by_contra hnone
    simp only [not_or] at hnone
    obtain ⟨⟨⟨hname, hlines⟩, hpatterns⟩, hcont, hperms⟩ := hnone
    refine hnot ⟨fun w hw hreserved => hname ⟨w, hw, hreserved⟩, ?_, ?_⟩
    · intro s hs line hline hclaims
      simp only [List.cons_append, List.mem_cons, List.mem_append, List.not_mem_nil, or_false] at hs
      rcases hs with rfl | hs | rfl
      · exact hlines ⟨line, hline, hclaims⟩
      · exact hpatterns ⟨s, hs, line, hline, hclaims⟩
      · exact hperms ⟨line, hline, hclaims⟩
    · exact fun s hs hbreak hclaims => hcont ⟨s, hs, hbreak, hclaims⟩
  · rintro (((hname | hline) | hline) | hcont | hline) hharmless
    · obtain ⟨w, hw, hreserved⟩ := hname
      exact hharmless.name w hw hreserved
    · obtain ⟨line, hmem, hclaims⟩ := hline
      exact hharmless.fieldLines u.name (by simp) line hmem hclaims
    · obtain ⟨s, hs, line, hmem, hclaims⟩ := hline
      exact hharmless.fieldLines s (by simp [hs]) line hmem hclaims
    · obtain ⟨s, hs, hbreak, hclaims⟩ := hcont
      exact hharmless.continued s hs hbreak hclaims
    · obtain ⟨line, hmem, hclaims⟩ := hline
      exact hharmless.fieldLines u.permissions (by simp) line hmem hclaims

/-- The text of an entry defines a user of the operator unless it is harmless. -/
theorem anyClaims_buildUserACL (u : UserACLSpec)
    (h : ∀ hash ∈ pwHashes, ∃ password, hash = hashACLPassword sha256 password) :
    AnyClaims (buildUserACL u pwHashes) ↔ ¬ Harmless u := by
  have hfixed := fixedTokens_spec u h
  have hmarks : ∀ t ∈ fixedTokens u pwHashes ++ ruleTokens u, Mark t.1 :=
    List.forall_mem_append.mpr ⟨fun t ht => (hfixed t ht).1, mark_ruleTokens u⟩
  have hempty : ¬ ∃ line ∈ restLines [], Claims line := by
    rintro ⟨line, hline, -⟩
    cases hline
  have htexts : (∃ t ∈ fixedTokens u pwHashes ++ ruleTokens u, ∃ line ∈ restLines t.2, Claims line) ↔
      ∃ s ∈ u.patterns, ∃ line ∈ restLines s, Claims line := by
    rw [← exists_ruleToken (P := fun s => ∃ line ∈ restLines s, Claims line) hempty u]
    constructor
    · rintro ⟨t, ht, hclaims⟩
      rcases List.mem_append.mp ht with ht | ht
      · rw [(hfixed t ht).2] at hclaims
        exact absurd hclaims hempty
      · exact ⟨t, ht, hclaims⟩
    · rintro ⟨t, ht, hclaims⟩
      exact ⟨t, List.mem_append_right _ ht, hclaims⟩
  have hlast : ∀ text : Str, Claims (lastLine text) → AnyClaims text :=
    fun text hclaims => exists_lines.mpr (.inr hclaims)
  rw [buildUserACL_eq, anyClaims_append_permissions, claims_lastLine u h, ← or_assoc, ← or_assoc,
    or_iff_left_of_imp (hlast _), anyClaims_spell hmarks, htexts, anyClaims_name, not_harmless_iff,
    or_assoc]

theorem trimSpace_buildUserACL (u : UserACLSpec) (pwHashes : List Str) :
    trimSpace (buildUserACL u pwHashes) ≠ [] := by
  intro h
  rw [buildUserACL_eq] at h
  have hall := List.rdropWhile_eq_nil_iff.mp h
  exact absurd (hall 'u' List.mem_cons_self) (by decide)

/-! ## The lines of the file -/

section File
variable (sha256 : Digest) (exporterEnabled : Bool) (passwords : GoMap Str Str)
  (defaultUserPassword : Str)

/-- The lines that are the operator's own. -/
def ownLines : List Str :=
  defaultUserLine sha256 defaultUserPassword ::
    (systemUsers exporterEnabled).map fun u =>
      renderSystemUserLine sha256 u ((passwords.lookup u.name).getD [])

theorem break_not_mem_hash (password : Str) : '\n' ∉ hashACLPassword sha256 password := fun h =>
  (mark_hash sha256 password).oneLine (List.mem_cons_of_mem _ h)

theorem defaultUserLine_spec (password : Str) :
    '\n' ∉ defaultUserLine sha256 password ∧
      definedUser (defaultUserLine sha256 password) = some systemUserDefault := by
  have hhash := break_not_mem_hash sha256 password
  unfold defaultUserLine
  split
  · exact ⟨by decide, by decide⟩
  · constructor
    · simp only [List.mem_append, hhash, or_false]
      decide
    · simp only [List.append_assoc]
      rw [← List.append_assoc]
      exact definedUser_words (by decide) _

theorem renderSystemUserLine_spec {u : SystemUser} (hword : IsWord u.name) (hrules : '\n' ∉ u.rules)
    (password : Str) :
    '\n' ∉ renderSystemUserLine sha256 u password ∧
      definedUser (renderSystemUserLine sha256 u password) = some u.name := by
  have hhash := break_not_mem_hash sha256 password
  have hname : '\n' ∉ u.name := fun h => absurd (hword.2 _ h) (by decide)
  unfold renderSystemUserLine
  constructor
  · simp only [List.mem_append, hhash, hrules, hname, or_false]
    decide
  · simp only [List.append_assoc]
    rw [← List.append_assoc]
    exact definedUser_words hword _

theorem systemUsers_spec : ∀ u ∈ systemUsers exporterEnabled, IsWord u.name ∧ '\n' ∉ u.rules := by
  have hall : ∀ u ∈ systemUsers true, IsWord u.name ∧ '\n' ∉ u.rules := by decide +kernel
  intro u hu
  refine hall u ?_
  cases exporterEnabled with
  | true => exact hu
  | false =>
    rcases List.mem_cons.mp hu with rfl | hu
    · exact List.mem_cons_self
    · exact List.mem_cons_of_mem _ (List.mem_cons_of_mem _ hu)

theorem ownLines_oneLine :
    ∀ line ∈ ownLines sha256 exporterEnabled passwords defaultUserPassword, lines line = [line] := by
  unfold ownLines
  refine List.forall_mem_cons.mpr
    ⟨lines_of_not_mem (defaultUserLine_spec sha256 defaultUserPassword).1, fun line hline => ?_⟩
  obtain ⟨u, hu, rfl⟩ := List.mem_map.mp hline
  obtain ⟨hword, hrules⟩ := systemUsers_spec exporterEnabled u hu
  exact lines_of_not_mem (renderSystemUserLine_spec sha256 hword hrules _).1

/-- The operator's lines define the default user and the system users. -/
theorem definedUser_ownLines :
    (ownLines sha256 exporterEnabled passwords defaultUserPassword).map definedUser =
      (systemUserDefault :: (systemUsers exporterEnabled).map (·.name)).map some := by
  rw [ownLines, List.map_cons, (defaultUserLine_spec sha256 defaultUserPassword).2, List.map_map,
    List.map_cons, List.map_map]
  refine congrArg (_ :: ·) (List.map_congr_left fun u hu => ?_)
  obtain ⟨hword, hrules⟩ := systemUsers_spec exporterEnabled u hu
  exact (renderSystemUserLine_spec sha256 hword hrules _).2

/-- How often a user of the operator is defined: once, but the exporter only if
it is enabled. -/
def occurrences (name : Str) : Nat :=
  if name = systemUserExporter ∧ exporterEnabled = false then 0 else 1

theorem length_ownDefinitions (hname : name ∈ reservedUsers) :
    ((ownLines sha256 exporterEnabled passwords defaultUserPassword).filter
      fun line => definedUser line = some name).length = occurrences exporterEnabled name := by
  have hmap : ((ownLines sha256 exporterEnabled passwords defaultUserPassword).filter
      fun line => definedUser line = some name).length =
      (((ownLines sha256 exporterEnabled passwords defaultUserPassword).map definedUser).filter
        fun defined => defined = some name).length := by
    rw [List.filter_map, List.length_map]
    rfl
  rw [hmap, definedUser_ownLines]
  have hall : ∀ b, ∀ name ∈ reservedUsers,
      (((systemUserDefault :: (systemUsers b).map (·.name)).map some).filter
        fun defined => defined = some name).length = occurrences b name := by
    decide
  exact hall exporterEnabled name hname

theorem definitions_renderUsersACL (name : Str) (userLines : List Str) :
    definitions name
        (renderUsersACL sha256 exporterEnabled passwords userLines defaultUserPassword) =
      ((ownLines sha256 exporterEnabled passwords defaultUserPassword).filter
        fun line => definedUser line = some name) ++
      ((((userLines.insertionSort (· ≤ ·)).filter fun line => trimSpace line ≠ []).flatMap lines).filter
        fun line => definedUser line = some name) := by
  have hown : (ownLines sha256 exporterEnabled passwords defaultUserPassword).flatMap lines =
      ownLines sha256 exporterEnabled passwords defaultUserPassword := by
    refine (List.flatMap_congr (ownLines_oneLine sha256 exporterEnabled passwords _)).trans ?_
    exact List.flatMap_singleton' _
  unfold definitions renderUsersACL
  dsimp only
  rw [lines_flatMap_break, List.flatMap_append]
  change ((ownLines sha256 exporterEnabled passwords defaultUserPassword).flatMap lines ++ _ ++
    [[]]).filter _ = _
  rw [hown, List.filter_append, List.filter_append]
  have hempty : ([[]] : List Str).filter (fun line => definedUser line = some name) = [] := rfl
  rw [hempty, List.append_nil]

/-- The operator's users are defined as often as they should be when no text
defines one of them. -/
theorem occurrences_iff (userLines : List Str) (hblank : ∀ line ∈ userLines, trimSpace line ≠ []) :
    (∀ name ∈ reservedUsers, (definitions name
      (renderUsersACL sha256 exporterEnabled passwords userLines defaultUserPassword)).length =
        occurrences exporterEnabled name) ↔
      ∀ line ∈ userLines, ¬ AnyClaims line := by
  have hkept : ∀ text : Str, text ∈ (userLines.insertionSort (· ≤ ·)).filter
      (fun line => trimSpace line ≠ []) ↔ text ∈ userLines := by
    intro text
    rw [List.mem_filter, List.mem_insertionSort]
    exact ⟨And.left, fun h => ⟨h, by simpa using hblank text h⟩⟩
  have hcount : ∀ name ∈ reservedUsers, ((definitions name
      (renderUsersACL sha256 exporterEnabled passwords userLines defaultUserPassword)).length =
        occurrences exporterEnabled name ↔
      ∀ text ∈ userLines, ∀ line ∈ lines text, definedUser line ≠ some name) := by
    intro name hname
    rw [definitions_renderUsersACL, List.length_append, length_ownDefinitions _ _ _ _ hname,
      Nat.add_eq_left, List.length_eq_zero_iff, List.filter_eq_nil_iff]
    simp only [List.mem_flatMap, hkept, decide_eq_true_eq]
    exact ⟨fun h text ht line hl => h line ⟨text, ht, hl⟩, fun h line ⟨text, ht, hl⟩ => h text ht line hl⟩
  constructor
  · rintro h text htext ⟨line, hline, name, hname, hdefined⟩
    exact (hcount name hname).mp (h name hname) text htext line hline hdefined
  · intro h name hname
    refine (hcount name hname).mpr fun text htext line hline hdefined => ?_
    exact h text htext ⟨line, hline, name, hname, hdefined⟩

/-- Then each has the operator's line only. -/
theorem definitions_of_not_claims {userLines : List Str}
    (h : ∀ line ∈ userLines, ¬ AnyClaims line) (hname : name ∈ reservedUsers) :
    definitions name
        (renderUsersACL sha256 exporterEnabled passwords userLines defaultUserPassword) =
      (ownLines sha256 exporterEnabled passwords defaultUserPassword).filter
        fun line => definedUser line = some name := by
  rw [definitions_renderUsersACL, List.append_right_eq_self, List.filter_eq_nil_iff]
  intro line hline hdefined
  obtain ⟨text, htext, hmem⟩ := List.mem_flatMap.mp hline
  rw [List.mem_filter, List.mem_insertionSort] at htext
  exact h text htext.1 ⟨line, hmem, name, hname, of_decide_eq_true hdefined⟩

end File

end ValkeyOperator.Valkey

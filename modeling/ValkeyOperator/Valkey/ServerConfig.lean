import ValkeyOperator.Lib.Inserts
import ValkeyOperator.Lib.Lines
import ValkeyOperator.Valkey.State

/-! The valkey.conf file (`pkg/valkey/config.go`).

The operator's directives win over the user's of the same key when the two maps
are merged; the merged map is written in the order of its keys. -/

namespace ValkeyOperator.Valkey
open Text

variable {c : ConfigInput} {cfg : GoMap Str Str} {k : Str}

structure ConfigInput where
  userConfig : GoMap Str Str := ∅
  /-- not read by the renderer -/
  persistence : Bool := false
  tls : Bool := false
  acl : Bool := false
  requirepass : Str := []
  disableCommands : List Str := []
  tlsAuthClients : Str := []
  tlsCiphers : Str := []
  tlsCipherSuites : Str := []
  tlsDHParamsFile : Str := []

def configYes : Str := "yes"
def configNo : Str := "no"
def configOptional : Str := "optional"

/-- Anything but the other two values of the enum is optional. -/
def tlsAuthClientsValue (authClients : Str) : Str :=
  if authClients = "off" then configNo
  else if authClients = "require" then configYes
  else configOptional

/-- The assignments of `baseConfig`, in order. -/
def baseDirectives (c : ConfigInput) : List (Str × Str) :=
  [("cluster-enabled".toList, configYes), ("protected-mode", configNo),
    ("dir", "/data"), ("cluster-config-file", "/data/nodes.conf"),
    ("cluster-require-full-coverage", configYes),
    ("cluster-allow-replica-migration", configNo),
    ("cluster-replica-validity-factor", "0")] ++
  (if c.acl then [("aclfile".toList, "/config/users/users.acl".toList)] else []) ++
  (if c.requirepass ≠ [] then
    [("requirepass".toList, c.requirepass), ("masterauth", c.requirepass)] else []) ++
  if c.tls then
    [("tls-port".toList, "6379".toList), ("port", "0"),
      ("tls-cluster", configYes), ("tls-replication", configYes),
      ("tls-cert-file", "/etc/valkey/tls/tls.crt"),
      ("tls-key-file", "/etc/valkey/tls/tls.key"),
      ("tls-ca-cert-file", "/etc/valkey/tls/ca.crt"),
      ("tls-auth-clients", tlsAuthClientsValue c.tlsAuthClients)] ++
    (if c.tlsCiphers ≠ [] then [("tls-ciphers".toList, c.tlsCiphers)] else []) ++
    (if c.tlsCipherSuites ≠ [] then [("tls-ciphersuites".toList, c.tlsCipherSuites)] else []) ++
    (if c.tlsDHParamsFile ≠ [] then [("tls-dh-params-file".toList, c.tlsDHParamsFile)] else [])
  else []

def baseConfig (c : ConfigInput) : GoMap Str Str :=
  (baseDirectives c).foldl (fun m e => m.insert e.1 e.2) ∅

/-- The operator's value wins where the keys collide. -/
def mergedConfig (c : ConfigInput) : GoMap Str Str := baseConfig c ∪ c.userConfig

def sortedKeys (cfg : GoMap Str Str) : List Str := cfg.keys.insertionSort (· ≤ ·)

/-- The line of one entry. -/
def entryText (cfg : GoMap Str Str) (k : Str) : Str := k ++ ' ' :: (cfg.lookup k).getD []

def renderConfigMap (cfg : GoMap Str Str) : Str :=
  (sortedKeys cfg).flatMap fun k => entryText cfg k ++ ['\n']

/-- The lines that disable the commands, blank ones left out. -/
def renameTexts (commands : List Str) : List Str :=
  ((commands.filter fun c => trimSpace c ≠ []).insertionSort (· ≤ ·)).map fun c =>
    "rename-command " ++ c ++ " \"\""

def renderDisableCommands (commands : List Str) : Str :=
  (renameTexts commands).flatMap (· ++ ['\n'])

def renderServerConfig (c : ConfigInput) : Str :=
  renderConfigMap (mergedConfig c) ++ renderDisableCommands c.disableCommands

/-- The keys that are applied to the running engine; the node controller has the same. -/
def liveSettableKeys : List Str :=
  ["maxmemory", "maxmemory-policy", "maxclients"]

/-- The keys without a say in whether the pods are rolled. -/
def unhashedKeys : List Str := liveSettableKeys ++ ["requirepass".toList, "masterauth"]

/-- What the roll hash is taken of: the file without these keys. -/
def rollText (c : ConfigInput) : Str :=
  renderConfigMap (unhashedKeys.foldl (fun merged k => merged.erase k) (mergedConfig c)) ++
    renderDisableCommands c.disableCommands

/-- The digest is written in hexadecimal. -/
def serverConfigRollHash (sha256 : Str → Str) (c : ConfigInput) : Str := sha256 (rollText c)

/-! ## Reading the file -/

/-- The directive of a line: its first word, and the text behind it. -/
def directive (line : Str) : Option (Str × Str) :=
  let body := line.dropWhile isSpace
  match body.takeWhile (!isSpace ·) with
  | [] => none
  | c :: rest => some (c :: rest, (body.dropWhile (!isSpace ·)).drop 1)

/-- The value a line gives to the directive `d`. -/
def setting (d line : Str) : Option Str :=
  match directive line with
  | some (name, value) => if name = d then some value else none
  | none => none

def settings (d : Str) (ls : List Str) : List Str := ls.filterMap (setting d)

/-- The value a file gives to the directive; a later line overrides an earlier one. -/
def readDirective (d content : Str) : Option Str := (settings d (lines content)).getLast?

theorem directive_text (h : IsWord k) (v : Str) : directive (k ++ ' ' :: v) = some (k, v) := by
  obtain ⟨hne, hword⟩ := h
  obtain ⟨a, rest, rfl⟩ := List.exists_cons_of_ne_nil hne
  have ha : isSpace a = false := hword a List.mem_cons_self
  have hbody : (a :: rest ++ ' ' :: v).dropWhile isSpace = a :: rest ++ ' ' :: v := by
    simp [ha]
  have htake : (a :: rest ++ ' ' :: v).takeWhile (!isSpace ·) = a :: rest := by
    rw [List.takeWhile_append_of_pos (fun x hx => by simp [hword x hx])]
    simp [show isSpace ' ' = true from rfl]
  have hdrop : (a :: rest ++ ' ' :: v).dropWhile (!isSpace ·) = ' ' :: v := by
    rw [List.dropWhile_append_of_pos (fun x hx => by simp [hword x hx])]
    simp [show isSpace ' ' = true from rfl]
  unfold directive
  dsimp only
  rw [hbody, htake, hdrop]
  rfl

theorem setting_text (h : IsWord k) (d v : Str) :
    setting d (k ++ ' ' :: v) = if k = d then some v else none := by
  rw [setting, directive_text h]

theorem break_not_mem_text {v : Str} (hk : IsWord k) (hv : '\n' ∉ v) : '\n' ∉ k ++ ' ' :: v := by
  intro h
  simp only [List.mem_append, List.mem_cons] at h
  rcases h with h | h | h
  · exact absurd (hk.2 _ h) (by decide)
  · exact absurd h (by decide)
  · exact hv h

/-- A value is a piece of its line. -/
theorem setting_isSuffix {d line value : Str} (h : setting d line = some value) : value <:+ line := by
  unfold setting directive at h
  dsimp only at h
  split at h
  · rename_i name value' heq
    split at heq
    · cases heq
    · cases heq
      split at h
      · cases h
        exact (List.drop_suffix _ _).trans ((List.dropWhile_suffix _).trans (List.dropWhile_suffix _))
      · cases h
  · cases h

theorem settings_append (d : Str) (a b : List Str) :
    settings d (a ++ b) = settings d a ++ settings d b := List.filterMap_append

theorem settings_flatMap (d : Str) (texts : List Str) :
    settings d (texts.flatMap lines) = texts.flatMap fun text => settings d (lines text) :=
  List.filterMap_flatMap ..

/-- Texts that say nothing about the directive may be left out. -/
theorem settings_filter {d : Str} {keys : List Str} {text : Str → Str} {p : Str → Bool}
    (h : ∀ k ∈ keys, p k = false → settings d (lines (text k)) = []) :
    settings d ((keys.map text).flatMap lines) =
      settings d (((keys.filter p).map text).flatMap lines) := by
  rw [settings_flatMap, settings_flatMap]
  induction keys with
  | nil => rfl
  | cons k keys ih =>
    obtain ⟨hk, hrest⟩ := List.forall_mem_cons.mp h
    cases hp : p k with
    | true =>
      rw [List.filter_cons_of_pos hp, List.map_cons, List.map_cons, List.flatMap_cons,
        List.flatMap_cons, ih hrest]
    | false =>
      rw [List.filter_cons_of_neg (by simp [hp]), List.map_cons, List.flatMap_cons, hk hp,
        List.nil_append, ih hrest]

/-! ## The order of the lines -/

theorem mem_of_lookup {v : Str} (h : cfg.lookup k = some v) : k ∈ cfg := by
  rw [← AList.lookup_isSome, h]
  rfl

theorem exists_lookup (h : k ∈ cfg) : ∃ v, cfg.lookup k = some v :=
  Option.isSome_iff_exists.mp (AList.lookup_isSome.mpr h)

theorem mem_sortedKeys : k ∈ sortedKeys cfg ↔ k ∈ cfg := by
  rw [sortedKeys, List.mem_insertionSort]
  rfl

theorem sortedKeys_lt (cfg : GoMap Str Str) : (sortedKeys cfg).Pairwise (· < ·) := by
  have hle := List.pairwise_insertionSort (· ≤ ·) cfg.keys
  have hne : (sortedKeys cfg).Nodup :=
    (List.perm_insertionSort (· ≤ ·) cfg.keys).nodup_iff.mpr cfg.keys_nodup
  exact (hle.and hne).imp fun h => lt_of_le_of_ne h.1 h.2

theorem eq_around {l : List Str} (h : l.Pairwise (· < ·)) {d : Str} (hd : d ∈ l) :
    l = l.filter (· < d) ++ d :: l.filter (d < ·) := by
  obtain ⟨a, b, rfl⟩ := List.append_of_mem hd
  obtain ⟨ha, hb, hab⟩ := List.pairwise_append.mp h
  obtain ⟨hdb, -⟩ := List.pairwise_cons.mp hb
  have hlow : ∀ x ∈ a, x < d := fun x hx => hab x hx d List.mem_cons_self
  have h1 : a.filter (· < d) = a := List.filter_eq_self.mpr fun x hx => by simpa using hlow x hx
  have h2 : a.filter (d < ·) = [] :=
    List.filter_eq_nil_iff.mpr fun x hx => by simpa using (hlow x hx).le
  have h3 : b.filter (· < d) = [] :=
    List.filter_eq_nil_iff.mpr fun x hx => by simpa using (hdb x hx).le
  have h4 : b.filter (d < ·) = b := List.filter_eq_self.mpr fun x hx => by simpa using hdb x hx
  simp [List.filter_append, h1, h2, h3, h4]

theorem eq_of_mem_iff {l l' : List Str} (h : l.Pairwise (· < ·)) (h' : l'.Pairwise (· < ·))
    (hmem : ∀ k, k ∈ l ↔ k ∈ l') : l = l' := by
  have hperm : l.Perm l' := (List.perm_ext_iff_of_nodup (h.imp fun hlt => hlt.ne)
    (h'.imp fun hlt => hlt.ne)).mpr hmem
  exact hperm.eq_of_pairwise' h h'

theorem renderConfigMap_congr {a b : GoMap Str Str} (h : ∀ k, a.lookup k = b.lookup k) :
    renderConfigMap a = renderConfigMap b := by
  have hkeys : sortedKeys a = sortedKeys b :=
    eq_of_mem_iff (sortedKeys_lt a) (sortedKeys_lt b) fun k => by
      rw [mem_sortedKeys, mem_sortedKeys, ← AList.lookup_isSome, ← AList.lookup_isSome, h k]
  have htext : entryText a = entryText b := funext fun k => by rw [entryText, h k, entryText]
  rw [renderConfigMap, hkeys, htext, renderConfigMap]

theorem renderHashed_congr {c' : ConfigInput}
    (h : ∀ k ∉ unhashedKeys, (mergedConfig c).lookup k = (mergedConfig c').lookup k) :
    renderConfigMap (unhashedKeys.foldl (fun merged k => merged.erase k) (mergedConfig c)) =
      renderConfigMap (unhashedKeys.foldl (fun merged k => merged.erase k) (mergedConfig c')) := by
  refine renderConfigMap_congr fun k => ?_
  rw [Inserts.lookup_erases, Inserts.lookup_erases]
  by_cases hk : k ∈ unhashedKeys
  · rw [if_pos hk, if_pos hk]
  · rw [if_neg hk, if_neg hk, h k hk]

/-- The password is in two of the operator's directives and no others. -/
theorem lookup_baseConfig_of_password (c : ConfigInput) (config : GoMap Str Str) (password : Str)
    (hk : k ∉ unhashedKeys) :
    (baseConfig { c with userConfig := config, requirepass := password }).lookup k =
      (baseConfig c).lookup k := by
  have hpassword : ∀ (m : GoMap Str Str) (p : Str),
      ((if p ≠ [] then [("requirepass".toList, p), ("masterauth", p)] else []).foldl
        (fun m e => m.insert e.1 e.2) m).lookup k = m.lookup k := by
    intro m p
    refine Inserts.lookup_of_not_mem fun e he heq => hk ?_
    split at he
    · rw [← heq]
      rcases List.mem_cons.mp he with rfl | he
      · exact (by decide +kernel : "requirepass".toList ∈ unhashedKeys)
      · rw [List.mem_singleton.mp he]
        exact (by decide +kernel : "masterauth".toList ∈ unhashedKeys)
    · cases he
  unfold baseConfig baseDirectives
  simp only [List.foldl_append]
  refine Inserts.lookup_congr ?_
  rw [hpassword, hpassword]

theorem lookup_mergedConfig_of_live_edit (c : ConfigInput) {config : GoMap Str Str}
    (password : Str) (h : ∀ k ∉ liveSettableKeys, config.lookup k = c.userConfig.lookup k)
    (hk : k ∉ unhashedKeys) :
    (mergedConfig { c with userConfig := config, requirepass := password }).lookup k =
      (mergedConfig c).lookup k := by
  have hbase := lookup_baseConfig_of_password c config password hk
  have huser := h k fun hlive => hk (List.mem_append_left _ hlive)
  by_cases hmem : k ∈ baseConfig c
  · have hmem' : k ∈ baseConfig { c with userConfig := config, requirepass := password } := by
      rwa [← AList.lookup_isSome, hbase, AList.lookup_isSome]
    rw [mergedConfig, mergedConfig, AList.lookup_union_left hmem', AList.lookup_union_left hmem, hbase]
  · have hmem' : k ∉ baseConfig { c with userConfig := config, requirepass := password } := by
      rwa [← AList.lookup_isSome, hbase, AList.lookup_isSome]
    rw [mergedConfig, mergedConfig, AList.lookup_union_right hmem', AList.lookup_union_right hmem]
    exact huser

/-- An edit of live-settable keys alone does not roll the pods. -/
theorem rollText_of_live_edit (c : ConfigInput) {config config' : GoMap Str Str}
    (h : ∀ k ∉ liveSettableKeys, config'.lookup k = config.lookup k) :
    rollText { c with userConfig := config' } = rollText { c with userConfig := config } := by
  have hmerged : ∀ k ∉ unhashedKeys, (mergedConfig { c with userConfig := config' }).lookup k =
      (mergedConfig { c with userConfig := config }).lookup k := fun k hk =>
    lookup_mergedConfig_of_live_edit { c with userConfig := config } c.requirepass h hk
  rw [rollText, renderHashed_congr hmerged, rollText]

/-! ## Who has the last word -/

/-- All the keys the operator may set. -/
def baseKeys : List Str :=
  ["cluster-enabled", "protected-mode", "dir", "cluster-config-file",
    "cluster-require-full-coverage", "cluster-allow-replica-migration",
    "cluster-replica-validity-factor", "aclfile", "requirepass",
    "masterauth", "tls-port", "port", "tls-cluster",
    "tls-replication", "tls-cert-file", "tls-key-file",
    "tls-ca-cert-file", "tls-auth-clients", "tls-ciphers",
    "tls-ciphersuites", "tls-dh-params-file"]

theorem baseDirectives_keys (c : ConfigInput) : ∀ e ∈ baseDirectives c, e.1 ∈ baseKeys := by
  have hite : ∀ (p : Prop) [Decidable p] (l : List (Str × Str)),
      (∀ e ∈ l, e.1 ∈ baseKeys) → ∀ e ∈ if p then l else [], e.1 ∈ baseKeys := by
    intro p _ l hl
    split
    · exact hl
    · exact fun e he => nomatch he
  have hone : ∀ (k v : Str), k ∈ baseKeys → ∀ e ∈ [(k, v)], e.1 ∈ baseKeys := by
    intro k v hk e he
    rw [List.mem_singleton.mp he]
    exact hk
  unfold baseDirectives
  simp only [List.forall_mem_append]
  refine ⟨⟨⟨by decide +kernel, hite _ _ (by decide +kernel)⟩, hite _ _ ?_⟩, hite _ _ ?_⟩
  · exact List.forall_mem_cons.mpr
      ⟨(by decide +kernel : "requirepass".toList ∈ baseKeys), hone _ _ (by decide +kernel)⟩
  · simp only [List.forall_mem_append, List.forall_mem_cons]
    exact ⟨⟨⟨⟨by decide, by decide, by decide, by decide, by decide, by decide, by decide,
      by decide, fun e he => nomatch he⟩, hite _ _ (hone _ _ (by decide))⟩,
      hite _ _ (hone _ _ (by decide))⟩, hite _ _ (hone _ _ (by decide))⟩

theorem baseConfig_keys (h : k ∈ baseConfig c) : k ∈ baseKeys := by
  obtain ⟨v, hv⟩ := exists_lookup h
  unfold baseConfig at hv
  rcases Inserts.mem_of_lookup hv with ⟨e, he, rfl, -⟩ | hempty
  · exact baseDirectives_keys c e he
  · cases hempty

theorem baseConfig_words (h : k ∈ baseConfig c) : IsWord k :=
  (by decide +kernel : ∀ k ∈ baseKeys, IsWord k) k (baseConfig_keys h)

/-- What is applied live is the user's own. -/
theorem live_not_mem_baseConfig (c : ConfigInput) (h : k ∈ liveSettableKeys) :
    k ∉ baseConfig c := fun hbase =>
  (by decide +kernel : ∀ k ∈ liveSettableKeys, k ∉ baseKeys) k h (baseConfig_keys hbase)

/-- The user's entries behind a directive in the order of the file, and the
disabled commands. -/
def laterTexts (c : ConfigInput) (d : Str) : List Str :=
  ((sortedKeys c.userConfig).filter fun k => k ∉ baseConfig c ∧ d < k).map
    (entryText c.userConfig) ++ renameTexts c.disableCommands

theorem lines_renderServerConfig (c : ConfigInput) :
    lines (renderServerConfig c) =
      ((sortedKeys (mergedConfig c)).map (entryText (mergedConfig c)) ++
        renameTexts c.disableCommands).flatMap lines ++ [[]] := by
  rw [← lines_flatMap_break, List.flatMap_append, List.flatMap_map]
  rfl

section Base
variable {c : ConfigInput} {d v : Str}

theorem entryText_base (h : (baseConfig c).lookup d = some v) :
    entryText (mergedConfig c) d = d ++ ' ' :: v := by
  rw [entryText, mergedConfig, AList.lookup_union_left (mem_of_lookup h), h]
  rfl

theorem entryText_user (h : d ∉ baseConfig c) :
    entryText (mergedConfig c) d = entryText c.userConfig d := by
  rw [entryText, mergedConfig, AList.lookup_union_right h, entryText]

/-- An operator's value on one line is one setting of its own directive. -/
theorem settings_base (h : (baseConfig c).lookup d = some v) (hv : '\n' ∉ v) (d' : Str) :
    settings d' (lines (entryText (mergedConfig c) d)) = if d = d' then [v] else [] := by
  have hword : IsWord d := baseConfig_words (mem_of_lookup h)
  rw [entryText_base h, lines_of_not_mem (break_not_mem_text hword hv), settings,
    List.filterMap_cons, setting_text hword]
  by_cases heq : d = d'
  · simp [heq]
  · simp [heq]

/-- The last word on a directive is the operator's own or that of a later text. -/
theorem readDirective_eq (hvalues : ∀ d v, (baseConfig c).lookup d = some v → '\n' ∉ v)
    (h : (baseConfig c).lookup d = some v) :
    readDirective d (renderServerConfig c) =
      some ((settings d ((laterTexts c d).flatMap lines)).getLast?.getD v) := by
  have hmerged : d ∈ sortedKeys (mergedConfig c) := by
    rw [mem_sortedKeys, mergedConfig, AList.mem_union]
    exact .inl (mem_of_lookup h)
  -- behind the directive, the operator's entries say nothing about it
  have hlater : settings d ((((sortedKeys (mergedConfig c)).filter (d < ·)).map
      (entryText (mergedConfig c))).flatMap lines) =
      settings d ((((sortedKeys c.userConfig).filter fun k => k ∉ baseConfig c ∧ d < k).map
        (entryText c.userConfig)).flatMap lines) := by
    have hkeys : ((sortedKeys (mergedConfig c)).filter (d < ·)).filter (· ∉ baseConfig c) =
        (sortedKeys c.userConfig).filter fun k => k ∉ baseConfig c ∧ d < k := by
      refine eq_of_mem_iff (((sortedKeys_lt _).filter _).filter _) ((sortedKeys_lt _).filter _) ?_
      intro k
      simp only [List.mem_filter, mem_sortedKeys, mergedConfig, AList.mem_union, decide_eq_true_eq]
      tauto
    rw [settings_filter (p := (· ∉ baseConfig c)), hkeys]
    · refine congrArg (fun texts => settings d (texts.flatMap lines)) (List.map_congr_left ?_)
      intro k hk
      exact entryText_user (of_decide_eq_true (List.mem_filter.mp hk).2).1
    · intro k hk hbase
      have hlt : d < k := of_decide_eq_true (List.mem_filter.mp hk).2
      have hmem : k ∈ baseConfig c := by simpa using hbase
      obtain ⟨v', hv'⟩ := exists_lookup hmem
      rw [settings_base hv' (hvalues k v' hv'), if_neg hlt.ne']
  rw [readDirective, lines_renderServerConfig, settings_append, eq_around (sortedKeys_lt _) hmerged,
    List.map_append, List.map_cons, List.flatMap_append, List.flatMap_append, List.flatMap_cons,
    settings_append, settings_append, settings_append, settings_base h (hvalues d v h), if_pos rfl,
    hlater, laterTexts, List.flatMap_append, settings_append]
  have hempty : settings d [[]] = [] := rfl
  rw [hempty, List.append_nil, List.append_assoc, List.singleton_append, List.cons_append,
    List.getLast?_append_of_ne_nil _ (by simp), List.getLast?_cons]

theorem break_not_mem_readDirective {content value : Str}
    (h : readDirective d content = some value) : '\n' ∉ value := by
  obtain ⟨line, hline, hsetting⟩ := List.mem_filterMap.mp (List.mem_of_getLast? h)
  exact fun hmem => break_not_mem_lines hline ((setting_isSuffix hsetting).mem hmem)

end Base

/-- The file gives every directive of the operator its value exactly when the
value is on one line and no later text has another last word on it. -/
theorem renderServerConfig_override_proof_iff (c : ConfigInput) :
    (∀ d v, (baseConfig c).lookup d = some v → readDirective d (renderServerConfig c) = some v) ↔
    ∀ d v, (baseConfig c).lookup d = some v →
      '\n' ∉ v ∧ ∀ value ∈ (settings d ((laterTexts c d).flatMap lines)).getLast?, value = v := by
  constructor
  · intro hread
    have hvalues : ∀ d v, (baseConfig c).lookup d = some v → '\n' ∉ v :=
      fun d v h => break_not_mem_readDirective (hread d v h)
    intro d v h
    refine ⟨hvalues d v h, fun value hvalue => ?_⟩
    have heq := hread d v h
    rw [readDirective_eq hvalues h, Option.mem_def.mp hvalue] at heq
    exact Option.some.inj heq
  · intro hcond d v h
    rw [readDirective_eq (fun d v h => (hcond d v h).1) h]
    cases hlast : (settings d ((laterTexts c d).flatMap lines)).getLast? with
    | none => rfl
    | some value => exact congrArg some ((hcond d v h).2 value hlast)

/-- A value with line breaks in a directive that sorts behind the operator's. -/
theorem renderServerConfig_overridden :
    let c : ConfigInput :=
      { userConfig := (∅ : GoMap Str Str).insert "timeout"
          "0\nprotected-mode yes\ncluster-enabled no" }
    (baseConfig c).lookup "protected-mode".toList = some configNo ∧
      readDirective "protected-mode" (renderServerConfig c) = some configYes ∧
      (baseConfig c).lookup "cluster-enabled".toList = some configYes ∧
      readDirective "cluster-enabled" (renderServerConfig c) = some configNo := by
  decide +kernel

end ValkeyOperator.Valkey

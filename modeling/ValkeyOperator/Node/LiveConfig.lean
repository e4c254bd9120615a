import ValkeyOperator.Lib.Calls
import ValkeyOperator.Lib.Runs
import ValkeyOperator.Node.Status
import ValkeyOperator.Valkey.ServerConfig

/-! The running engine under edits of the live-settable keys (`valkeynode/liveconfig.go`).

Such edits leave the roll hash alone, so the engine stays and is told the new values by
CONFIG SET. A pass tells it the keys of the spec; of a key that the spec has no longer it
says nothing. -/

namespace ValkeyOperator.Node
open Text Valkey Api

/-- How the server takes its parameters, from CONFIG SET and from the lines of its file. -/
structure Parameters (Val : Type) where
  set : Str → Str → Except Err Val
  /-- what a line of the file says about a parameter -/
  reads : Str → Str → Option Val
  default : Str → Val
  reads_blank : ∀ k, reads k [] = none
  /-- the values are numbers, sizes and the names of policies, which mean the same in a line -/
  set_line : ∀ k ∈ liveSettableKeys, ∀ v x, set k v = .ok x →
    '\n' ∉ v ∧ reads k (k ++ ' ' :: v) = some x

variable {Val : Type}

/-- The value of a parameter after a start; the last line about it counts. -/
def Parameters.boot (p : Parameters Val) (content k : Str) : Val :=
  ((lines content).filterMap (p.reads k)).getLast?.getD (p.default k)

/-- A node with its engine. -/
structure LiveNode (Val : Type) where
  node : ValkeyNode
  /-- the settings of the file besides the node's config -/
  rest : ConfigInput
  values : Str → Val
  /-- the node as a pass under way has read it -/
  fetched : Option ValkeyNode := none

namespace LiveNode

def input (s : LiveNode Val) : ConfigInput := { s.rest with userConfig := s.node.spec.config }

/-- The engine has just been started from the file. -/
def start (p : Parameters Val) (node : ValkeyNode) (rest : ConfigInput) : LiveNode Val :=
  { node, rest
    values := p.boot (renderServerConfig { rest with userConfig := node.spec.config }) }

theorem start_values (p : Parameters Val) (node : ValkeyNode) (rest : ConfigInput) :
    (start p node rest).values =
      p.boot (renderServerConfig { rest with userConfig := node.spec.config }) := by
  rw [start]

end LiveNode

/-- What a pass meets behind its read. -/
structure LivePass where
  /-- the pod is Ready, and the client is connected to it -/
  reached : Bool := true
  /-- for each key, what happens to its CONFIG SET -/
  faults : Str → Option Fault := fun _ => none

def LivePass.reply (p : Parameters Val) (pass : LivePass) (k v : Str) : Option Err :=
  match pass.faults k with
  | some (.refused e) => some e
  | some (.lost e) => some e
  | none =>
    match p.set k v with
    | .error e => some e
    | .ok _ => none

/-- The value of a key at the engine that is told another one. -/
def Parameters.told (p : Parameters Val) (values : Str → Val) (k v : Str) : Str → Val :=
  match p.set k v with
  | .error _ => values
  | .ok x => Function.update values k x

/-- The engine while the pending keys are sent to it, up to the first error. -/
def LivePass.send (p : Parameters Val) (pass : LivePass) : List (Str × Str) → (Str → Val) → Str → Val
  | [], values => values
  | (k, v) :: rest, values =>
    match pass.faults k with
    | some (.refused _) => values
    | some (.lost _) => p.told values k v
    | none =>
      match p.set k v with
      | .error _ => values
      | .ok x => pass.send p rest (Function.update values k x)

inductive LiveEvent where
  | edit (config : StrMap) (rest : ConfigInput)
  | fetch
  | finish (pass : LivePass)

def LiveNode.finish (p : Parameters Val) (s : LiveNode Val) (pass : LivePass) : LiveNode Val :=
  match s.fetched with
  | none => s
  | some node =>
    if pass.reached then
      { s with
        node := { s.node with status := (applyLiveConfig (pass.reply p) node).1.status }
        values := pass.send p (pendingLiveConfig node) s.values
        fetched := none }
    else { s with fetched := none }

def LiveNode.step (p : Parameters Val) (s : LiveNode Val) : LiveEvent → LiveNode Val
  | .edit config rest =>
    { s with node := { s.node with spec := { s.node.spec with config := config } }, rest }
  | .fetch => { s with fetched := some s.node }
  | .finish pass => s.finish p pass

/-- The edits that do not roll the pod. -/
def Unrolled (sha256 : Str → Str) (p : Parameters Val) (s : LiveNode Val) : LiveEvent → Prop
  | .edit config rest => serverConfigRollHash sha256 (s.step p (.edit config rest)).input =
      serverConfigRollHash sha256 s.input
  | _ => True

/-- A pass that applied what it has read. -/
def LivePass.Succeeds (p : Parameters Val) (pass : LivePass) (node : ValkeyNode) : Prop :=
  pass.reached = true ∧ (applyLiveConfig (pass.reply p) node).2 = none

/-! ## A fresh start -/

/-- The texts of the file that are not the entry of the key. -/
def otherTexts (c : ConfigInput) (k : Str) : List Str :=
  ((sortedKeys (mergedConfig c)).filter (· ≠ k)).map (entryText (mergedConfig c)) ++
    renameTexts c.disableCommands

/-- On a live-settable key no line of another entry has a say. -/
def Undisputed (p : Parameters Val) (c : ConfigInput) : Prop :=
  ∀ k ∈ liveSettableKeys, ∀ text ∈ otherTexts c k, ∀ line ∈ lines text, p.reads k line = none

instance (p : Parameters Val) (c : ConfigInput) : Decidable (Undisputed p c) :=
  inferInstanceAs (Decidable (∀ k ∈ liveSettableKeys, ∀ text ∈ otherTexts c k,
    ∀ line ∈ lines text, p.reads k line = none))

section Boot
variable {p : Parameters Val} {c : ConfigInput} {k : Str}

/-- The two packages list the same keys. -/
theorem mem_liveSettableKeys : k ∈ liveSettableKeys ↔ k ∈ Valkey.liveSettableKeys :=
  (by decide +kernel : liveSettableKeys.Perm Valkey.liveSettableKeys).mem_iff

theorem isWord_of_live (h : k ∈ liveSettableKeys) : IsWord k :=
  (by decide +kernel : ∀ k ∈ liveSettableKeys, IsWord k) k h

theorem filterMap_lines_eq_nil {f : Str → Option Val} {texts : List Str}
    (h : ∀ text ∈ texts, ∀ line ∈ lines text, f line = none) :
    (texts.flatMap lines).filterMap f = [] := by
  refine List.filterMap_eq_nil_iff.mpr fun line hline => ?_
  obtain ⟨text, htext, hmem⟩ := List.mem_flatMap.mp hline
  exact h text htext line hmem

/-- Only the lines of its own entry say something about a live-settable key. -/
theorem filterMap_otherTexts (hquiet : Undisputed p c) (hk : k ∈ liveSettableKeys) {keys : List Str}
    (hkeys : ∀ k' ∈ keys, k' ∈ mergedConfig c ∧ k' ≠ k) :
    ((keys.map (entryText (mergedConfig c))).flatMap lines).filterMap (p.reads k) = [] := by
  refine filterMap_lines_eq_nil fun text htext => ?_
  obtain ⟨k', hk', rfl⟩ := List.mem_map.mp htext
  obtain ⟨hmem, hne⟩ := hkeys k' hk'
  refine hquiet k hk _ (List.mem_append_left _ (List.mem_map_of_mem ?_))
  exact List.mem_filter.mpr ⟨mem_sortedKeys.mpr hmem, decide_eq_true hne⟩

theorem filterMap_renameTexts (hquiet : Undisputed p c) (hk : k ∈ liveSettableKeys) :
    ((renameTexts c.disableCommands).flatMap lines ++ [[]]).filterMap (p.reads k) = [] := by
  rw [List.filterMap_append,
    filterMap_lines_eq_nil fun text htext => hquiet k hk text (List.mem_append_right _ htext),
    List.filterMap_cons_none (p.reads_blank k)]
  rfl

theorem boot_of_absent (hquiet : Undisputed p c) (hk : k ∈ liveSettableKeys)
    (habsent : k ∉ c.userConfig) : p.boot (renderServerConfig c) k = p.default k := by
  have hkeys : ∀ k' ∈ sortedKeys (mergedConfig c), k' ∈ mergedConfig c ∧ k' ≠ k := by
    intro k' hk'
    refine ⟨mem_sortedKeys.mp hk', ?_⟩
    rintro rfl
    rcases AList.mem_union.mp (mem_sortedKeys.mp hk') with hbase | huser
    · exact live_not_mem_baseConfig c (mem_liveSettableKeys.mp hk) hbase
    · exact habsent huser
  rw [Parameters.boot, lines_renderServerConfig, List.flatMap_append, List.append_assoc,
    List.filterMap_append, filterMap_otherTexts hquiet hk hkeys, filterMap_renameTexts hquiet hk]
  rfl

theorem boot_of_set {v : Str} {x : Val} (hquiet : Undisputed p c) (hk : k ∈ liveSettableKeys)
    (hv : c.userConfig.lookup k = some v) (hset : p.set k v = .ok x) :
    p.boot (renderServerConfig c) k = x := by
  have hbase : k ∉ baseConfig c := live_not_mem_baseConfig c (mem_liveSettableKeys.mp hk)
  have hmem : k ∈ sortedKeys (mergedConfig c) :=
    mem_sortedKeys.mpr (AList.mem_union.mpr (.inr (mem_of_lookup hv)))
  obtain ⟨hbreak, hreads⟩ := p.set_line k hk v x hset
  have hown : (lines (entryText (mergedConfig c) k)).filterMap (p.reads k) = [x] := by
    have htext : entryText (mergedConfig c) k = k ++ ' ' :: v := by
      rw [entryText_user hbase, entryText, hv]
      rfl
    rw [htext, lines_of_not_mem (break_not_mem_text (isWord_of_live hk) hbreak),
      List.filterMap_cons_some hreads]
    rfl
  -- the entries before and behind its own say nothing
  have hbefore : ∀ k' ∈ (sortedKeys (mergedConfig c)).filter (· < k),
      k' ∈ mergedConfig c ∧ k' ≠ k := fun k' hk' =>
    ⟨mem_sortedKeys.mp (List.mem_filter.mp hk').1, (of_decide_eq_true (List.mem_filter.mp hk').2).ne⟩
  have hbehind : ∀ k' ∈ (sortedKeys (mergedConfig c)).filter (k < ·),
      k' ∈ mergedConfig c ∧ k' ≠ k := fun k' hk' =>
    ⟨mem_sortedKeys.mp (List.mem_filter.mp hk').1, (of_decide_eq_true (List.mem_filter.mp hk').2).ne'⟩
  rw [Parameters.boot, lines_renderServerConfig, eq_around (sortedKeys_lt _) hmem, List.flatMap_append,
    List.append_assoc, List.filterMap_append, filterMap_renameTexts hquiet hk, List.append_nil,
    List.map_append, List.map_cons, List.flatMap_append, List.flatMap_cons, List.filterMap_append,
    List.filterMap_append, hown, filterMap_otherTexts hquiet hk hbefore,
    filterMap_otherTexts hquiet hk hbehind]
  rfl

end Boot

/-! ## What a pass tells the engine -/

section Send
variable {p : Parameters Val} {pass : LivePass} {k v : Str} {values : Str → Val}

theorem told_of_ne {k' : Str} (h : k ≠ k') : p.told values k' v k = values k := by
  unfold Parameters.told
  cases p.set k' v with
  | error e => rfl
  | ok x => exact Function.update_of_ne h ..

theorem send_of_not_mem {pending : List (Str × Str)} (h : ∀ kv ∈ pending, kv.1 ≠ k) :
    pass.send p pending values k = values k := by
  induction pending generalizing values with
  | nil => rfl
  | cons kv rest ih =>
    obtain ⟨hkv, hrest⟩ := List.forall_mem_cons.mp h
    unfold LivePass.send
    cases pass.faults kv.1 with
    | some fault =>
      cases fault with
      | refused e => rfl
      | lost e => exact told_of_ne (Ne.symm hkv)
    | none =>
      cases p.set kv.1 kv.2 with
      | error e => rfl
      | ok x => exact (ih hrest).trans (Function.update_of_ne (Ne.symm hkv) ..)

/-- If no CONFIG SET fails, the engine has every pending value. -/
theorem send_of_mem {pending : List (Str × Str)} (hkeys : pending.Pairwise (·.1 ≠ ·.1))
    (hok : failedConfigSet (pass.reply p) pending = none) (hkv : (k, v) ∈ pending) :
    ∃ x, p.set k v = .ok x ∧ pass.send p pending values k = x := by
  induction pending generalizing values with
  | nil => cases hkv
  | cons kv rest ih =>
    obtain ⟨k', v'⟩ := kv
    obtain ⟨hne, hrest⟩ := List.pairwise_cons.mp hkeys
    rw [failedConfigSet, List.findSome?_cons] at hok
    have hreply : pass.reply p k' v' = none := by
      cases h : pass.reply p k' v' with
      | none => rfl
      | some e =>
        rw [h] at hok
        cases hok
    rw [hreply] at hok
    unfold LivePass.reply at hreply
    unfold LivePass.send
    cases hfault : pass.faults k' with
    | some fault =>
      rw [hfault] at hreply
      cases fault <;> cases hreply
    | none =>
      rw [hfault] at hreply
      cases hset : p.set k' v' with
      | error e =>
        rw [hset] at hreply
        cases hreply
      | ok x =>
        dsimp only
        rcases List.mem_cons.mp hkv with heq | hmem
        · cases heq
          exact ⟨x, hset, (send_of_not_mem fun kv hkv => (hne kv hkv).symm).trans
            (Function.update_self ..)⟩
        · exact ih hrest hok hmem

end Send

section Pending
variable {node : ValkeyNode} {k v : Str}

theorem mem_pendingLiveConfig :
    (k, v) ∈ pendingLiveConfig node ↔ k ∈ liveSettableKeys ∧ node.spec.config.lookup k = some v := by
  unfold pendingLiveConfig
  rw [List.mem_filterMap]
  constructor
  · rintro ⟨key, hkey, hmap⟩
    obtain ⟨value, hvalue, heq⟩ := Option.map_eq_some_iff.mp hmap
    cases heq
    exact ⟨hkey, hvalue⟩
  · rintro ⟨hkey, hvalue⟩
    exact ⟨k, hkey, by rw [hvalue]; rfl⟩

theorem pendingLiveConfig_keys (node : ValkeyNode) :
    (pendingLiveConfig node).Pairwise (·.1 ≠ ·.1) := by
  refine List.Pairwise.filterMap _ ?_ (by decide +kernel : liveSettableKeys.Pairwise (· ≠ ·))
  intro a b hne x hx y hy
  obtain ⟨-, -, rfl⟩ := Option.map_eq_some_iff.mp hx
  obtain ⟨-, -, rfl⟩ := Option.map_eq_some_iff.mp hy
  exact hne

theorem failedConfigSet_of_applied {configSet : Str → Str → Option Err}
    (h : (applyLiveConfig configSet node).2 = none) :
    failedConfigSet configSet (pendingLiveConfig node) = none := by
  unfold applyLiveConfig at h
  dsimp only at h
  split at h
  · rename_i hempty
    rw [hempty]
    rfl
  · split at h
    · cases h
    · assumption

end Pending

/-! ## Runs -/

/-- An edit takes a live-settable key away only where the engine has its default and no pass
under way has read it, and it leaves no other line a say on these keys. -/
def KeepsApplied (p : Parameters Val) (s : LiveNode Val) : LiveEvent → Prop
  | .edit config rest =>
    (∀ k ∈ liveSettableKeys, k ∈ s.node.spec.config → k ∉ config →
      s.values k = p.default k ∧ ∀ node ∈ s.fetched, k ∉ node.spec.config) ∧
    Undisputed p { rest with userConfig := config }
  | _ => True

/-- What the engine has of keys that the spec does not have. -/
structure Defaulted (p : Parameters Val) (s : LiveNode Val) : Prop where
  undisputed : Undisputed p s.input
  absent : ∀ k ∈ liveSettableKeys, k ∉ s.node.spec.config → s.values k = p.default k
  read : ∀ node ∈ s.fetched, ∀ k ∈ liveSettableKeys, k ∈ node.spec.config → k ∈ s.node.spec.config

section Run
variable {p : Parameters Val} {s : LiveNode Val}

theorem defaulted_start {node : ValkeyNode} {rest : ConfigInput}
    (hquiet : Undisputed p { rest with userConfig := node.spec.config }) :
    Defaulted p (LiveNode.start p node rest) := by
  refine ⟨hquiet, fun k hk habsent => ?_, fun _ h => nomatch h⟩
  rw [LiveNode.start_values]
  exact boot_of_absent hquiet hk habsent

theorem Defaulted.finish (h : Defaulted p s) (pass : LivePass) : Defaulted p (s.finish p pass) := by
  unfold LiveNode.finish
  split
  · exact h
  · rename_i node hfetched
    split
    · refine ⟨h.undisputed, fun k hk habsent => ?_, fun _ hnone => nomatch hnone⟩
      refine (send_of_not_mem fun kv hkv heq => ?_).trans (h.absent k hk habsent)
      obtain ⟨hkey, hvalue⟩ := mem_pendingLiveConfig.mp hkv
      rw [heq] at hvalue
      exact habsent (h.read node hfetched k hk (mem_of_lookup hvalue))
    · exact ⟨h.undisputed, h.absent, fun _ hnone => nomatch hnone⟩

theorem Defaulted.step (h : Defaulted p s) {e : LiveEvent} (hkeeps : KeepsApplied p s e) :
    Defaulted p (s.step p e) := by
  cases e with
  | edit config rest =>
    obtain ⟨hremoved, hquiet⟩ := hkeeps
    refine ⟨hquiet, fun k hk habsent => ?_, fun node hnode k hk hread => ?_⟩
    · by_cases hhad : k ∈ s.node.spec.config
      · exact (hremoved k hk hhad habsent).1
      · exact h.absent k hk hhad
    · by_contra habsent
      exact (hremoved k hk (h.read node hnode k hk hread) habsent).2 node hnode hread
  | fetch =>
    refine ⟨h.undisputed, h.absent, fun node hnode k _ hread => ?_⟩
    cases hnode
    exact hread
  | finish pass => exact h.finish pass

/-- Along every run of edits that roll no pod and take away no key that the engine was given
another value of, a pass that succeeds on the spec of the day leaves the engine with the values
of a fresh start. -/
theorem live_values_as_fresh (p : Parameters Val) (sha256 : Str → Str) (node : ValkeyNode)
    (rest : ConfigInput) (hstart : Undisputed p { rest with userConfig := node.spec.config })
    (hrun : Runs (LiveNode.step p) (fun s e => Unrolled sha256 p s e ∧ KeepsApplied p s e)
      (LiveNode.start p node rest) s)
    (pass : LivePass) (read : ValkeyNode) (hfetched : s.fetched = some read)
    (hcurrent : read.spec.config = s.node.spec.config) (hok : pass.Succeeds p read) :
    ∀ k ∈ liveSettableKeys,
      (s.step p (.finish pass)).values k = p.boot (renderServerConfig s.input) k := by
  have hinv : Defaulted p s :=
    Runs.preserves (fun _ _ hallowed hw => hw.step hallowed.2) hrun (defaulted_start hstart)
  obtain ⟨hreached, happlied⟩ := hok
  have hvalues : (s.step p (.finish pass)).values =
      pass.send p (pendingLiveConfig read) s.values := by
    simp only [LiveNode.step, LiveNode.finish, hfetched, hreached, if_true]
  intro k hk
  rw [hvalues]
  cases hv : s.node.spec.config.lookup k with
  | none =>
    have habsent : k ∉ s.node.spec.config := AList.lookup_eq_none.mp hv
    rw [boot_of_absent hinv.undisputed hk habsent, ← hinv.absent k hk habsent]
    refine send_of_not_mem fun kv hkv heq => ?_
    obtain ⟨-, hvalue⟩ := mem_pendingLiveConfig.mp hkv
    rw [hcurrent, heq, hv] at hvalue
    cases hvalue
  | some v =>
    have hmem : (k, v) ∈ pendingLiveConfig read := mem_pendingLiveConfig.mpr ⟨hk, hcurrent ▸ hv⟩
    obtain ⟨x, hset, hsent⟩ := send_of_mem (pendingLiveConfig_keys read)
      (failedConfigSet_of_applied happlied) hmem
    exact hsent.trans (boot_of_set hinv.undisputed hk hv hset).symm

end Run

/-- A server that takes every word as it stands. -/
def wordParameters : Parameters Str where
  set _ v := if IsWord v then .ok v else .error ⟨"ERR CONFIG SET failed", false⟩
  reads := setting
  default k :=
    if k = "maxmemory" then "0"
    else if k = "maxclients" then "10000"
    else "noeviction"
  reads_blank := fun _ => rfl
  set_line := by
    intro k hk v x hset
    split at hset
    · rename_i hv
      cases hset
      refine ⟨fun hbreak => absurd (hv.2 _ hbreak) (by decide), ?_⟩
      rw [setting_text (isWord_of_live hk), if_pos rfl]
    · cases hset

def sized (v : String) : StrMap := (∅ : StrMap).insert "maxmemory" v.toList

def sizedNode (v : String) : ValkeyNode := { name := "prod-0-0", spec := { config := sized v } }

theorem lookup_sized {k : Str} (hk : k ∉ Valkey.liveSettableKeys) (v : String) :
    (sized v).lookup k = none := by
  refine AList.lookup_insert_ne ?_
  rintro rfl
  exact hk (by decide +kernel)

/-- A size that is raised. -/
theorem raised_size_as_fresh :
    let events : List LiveEvent := [.edit (sized "2gb") {}, .fetch]
    let s := events.foldl (LiveNode.step wordParameters)
      (LiveNode.start wordParameters (sizedNode "1gb") {})
    ∀ k ∈ liveSettableKeys, (s.step wordParameters (.finish {})).values k =
      wordParameters.boot (renderServerConfig s.input) k := by
  intro events s
  have hroll : rollText { ({} : ConfigInput) with userConfig := sized "2gb" } =
      rollText { ({} : ConfigInput) with userConfig := sized "1gb" } :=
    rollText_of_live_edit {} fun k hk => (lookup_sized hk "2gb").trans (lookup_sized hk "1gb").symm
  have hevents : Runs.Allows (LiveNode.step wordParameters)
      (fun s e => Unrolled id wordParameters s e ∧ KeepsApplied wordParameters s e)
      (LiveNode.start wordParameters (sizedNode "1gb") {}) events := by
    refine ⟨⟨hroll, ?_, by decide +kernel⟩, ⟨trivial, trivial⟩, trivial⟩
    intro k _ hhad hgone
    exact absurd hhad hgone
  exact live_values_as_fresh wordParameters id (sizedNode "1gb") {} (by decide +kernel)
    (Runs.of_allows hevents) {} s.node rfl rfl ⟨rfl, by decide +kernel⟩

/-- A size that is taken away stays in force until the pod is rolled for another reason. -/
theorem removed_size_stays :
    let events : List LiveEvent := [.edit ∅ {}, .fetch]
    let start := LiveNode.start wordParameters (sizedNode "1gb") {}
    let s := events.foldl (LiveNode.step wordParameters) start
    (∀ sha256, Runs.Allows (LiveNode.step wordParameters) (Unrolled sha256 wordParameters) start events) ∧
      s.fetched = some s.node ∧ LivePass.Succeeds wordParameters {} s.node ∧
      (s.step wordParameters (.finish {})).values "maxmemory" = "1gb" ∧
      wordParameters.boot (renderServerConfig s.input) "maxmemory" = "0" := by
  intro events start s
  refine ⟨fun sha256 => ⟨congrArg sha256 ?_, trivial, trivial⟩, rfl, ⟨rfl, by decide +kernel⟩,
    by decide +kernel, by decide +kernel⟩
  exact rollText_of_live_edit {} fun k hk => (lookup_sized hk "1gb").symm

end ValkeyOperator.Node

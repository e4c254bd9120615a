import ValkeyOperator.Lib.Inserts
import ValkeyOperator.Valkey.State

/-! Reading a node (`pkg/valkey/scrape.go` and the parsers of `state.go`,
`info.go`).

A node's state is built from five replies. Its flags, primary, epoch and slots
come from its own line of the CLUSTER NODES text, the rest of that text becomes
its gossip view; role, link and offset come from INFO replication. -/

namespace ValkeyOperator.Valkey
open Text

/-! ## CLUSTER NODES -/

structure ParsedNodeLine where
  id : Str
  addr : Str
  busPort : Int
  flags : List Str
  primaryID : Str
  configEpoch : Int
  slots : List SlotRange

/-- The address word without its hostname. -/
def dropHostname (field : Str) : Str := (cut ',' field).1

def addrFromField (field : Str) : Str := (cut '@' (dropHostname field)).1

def busPortFromField (field : Str) : Int :=
  match (cut '@' (dropHostname field)).2 with
  | none => 0
  | some port => (atoi port).toOption.getD 0

/-- One line; nothing when it has fewer than eight words. An unreadable slot word
loses the slots of this line only. -/
def parseNodeLine (line : Str) : Option ParsedNodeLine :=
  match fields (trimSpace line) with
  | id :: addr :: flags :: primaryID :: _ :: _ :: epoch :: _ :: slotWords =>
    some { id := id
           addr := addrFromField addr
           busPort := busPortFromField addr
           flags := List.splitOn ',' flags
           primaryID := primaryID
           configEpoch := (parseInt "strconv.ParseInt" epoch).toOption.getD 0
           slots := (parseSlotRanges slotWords).toOption.getD [] }
  | _ => none

def parsedLines (raw : Str) : List ParsedNodeLine :=
  (List.splitOn '\n' (trimPrefix raw "txt:")).filterMap parseNodeLine

def ParsedNodeLine.peerView (p : ParsedNodeLine) : PeerView := ⟨p.id, p.flags, p.primaryID⟩

/-- The gossip view: one entry per ID, a later line replacing an earlier one. -/
def peerTable (lines : List ParsedNodeLine) : GoMap Str PeerView :=
  lines.foldl (fun m p => m.insert p.id p.peerView) ∅

def ParsedNodeLine.toNodeState (p : ParsedNodeLine) (peers : GoMap Str PeerView) : NodeState where
  id := p.id
  addr := p.addr
  busPort := p.busPort
  flags := p.flags
  primaryID := if p.primaryID = noPrimary then [] else p.primaryID
  configEpoch := p.configEpoch
  role := if p.flags.contains flagMaster then .primary else .replica
  offset := -1
  slots := p.slots
  peers := peers

def parseClusterNodes (raw : Str) : List NodeState :=
  let lines := parsedLines raw
  lines.map fun p => p.toNodeState (peerTable lines)

/-! ## INFO replication and CLUSTER INFO -/

/-- A `key:value` line, unless blank or a comment. -/
def infoEntry (line : Str) : Option (Str × Str) :=
  if line = [] ∨ hasPrefix line ['#'] then none
  else
    match cut ':' line with
    | (_, none) => none
    | (key, some val) => some (trimSpace key, trimSpace val)

def infoMap (lines : List Str) : GoMap Str Str :=
  (lines.filterMap infoEntry).foldl (fun m e => m.insert e.1 e.2) ∅

def infoToMap (raw : Str) : GoMap Str Str :=
  infoMap ((List.splitOn '\n' (trimPrefix raw "txt:")).map (trimRight '\r'))

def parseInfoReplication (info : Str) : GoMap Str Str :=
  infoMap ((List.splitOn '\n' info).map fun line => trimSpace (trimRight '\r' line))

/-- The value of a key, empty when absent. -/
def field (m : GoMap Str Str) (key : String) : Str := (m.lookup key.toList).getD []

def atoiOrZero (s : Str) : Int := (atoi s).toOption.getD 0

def atoi64OrNeg (s : Str) : Int := (parseInt "strconv.ParseInt" s).toOption.getD (-1)

def parseInfoReplicationTyped (raw : Str) : Role × Bool × Int :=
  let m := parseInfoReplication raw
  let linkUp : Bool := field m "master_link_status" = "up"
  if field m "role" = "master" then
    (.primary, linkUp, atoi64OrNeg (field m "master_repl_offset"))
  else (.replica, linkUp, atoi64OrNeg (field m "slave_repl_offset"))

/-! ## One node -/

/-- Lay the node's own line over the state; the last of several wins. -/
def overlayOwnLine (id : Str) (n : NodeState) (p : NodeState) : NodeState :=
  if p.id = id then
    { n with busPort := p.busPort, flags := p.flags, primaryID := p.primaryID,
             configEpoch := p.configEpoch, slots := p.slots }
  else n

def nodeStateFromScrape (id shardID addr infoRepl clusterInfo clusterNodes : Str) : NodeState :=
  let info := infoToMap clusterInfo
  let repl := parseInfoReplicationTyped infoRepl
  (parseClusterNodes clusterNodes).foldl (overlayOwnLine id)
    { id := id
      shardID := shardID
      addr := addr
      role := repl.1
      linkUp := repl.2.1
      offset := repl.2.2
      knownNodes := atoiOrZero (field info "cluster_known_nodes")
      clusterStateOK := field info "cluster_state" = "ok"
      clusterSize := atoiOrZero (field info "cluster_size")
      currentEpoch := max 0 (atoi64OrNeg (field info "cluster_current_epoch"))
      peers := peerTable (parsedLines clusterNodes) }

/-- The raw answers of one scraped node. -/
structure NodeReplies where
  id : Str
  shardID : Str
  addr : Str
  infoRepl : Str
  clusterInfo : Str
  clusterNodes : Str

def NodeReplies.state (t : NodeReplies) : NodeState :=
  nodeStateFromScrape t.id t.shardID t.addr t.infoRepl t.clusterInfo t.clusterNodes

/-! ## Slots come from well-formed words -/

theorem parseNodeLine_ordered {line : Str} {p : ParsedNodeLine} (h : parseNodeLine line = some p) :
    Ordered p.slots := by
  unfold parseNodeLine at h
  split at h
  · cases h
    dsimp only
    cases hs : parseSlotRanges _ with
    | error e => exact fun r hr => nomatch hr
    | ok rs => exact parseSlotRanges_ordered hs
  · cases h

theorem parseClusterNodes_ordered {raw : Str} {n : NodeState} (h : n ∈ parseClusterNodes raw) :
    Ordered n.slots := by
  obtain ⟨p, hp, rfl⟩ := List.mem_map.mp h
  obtain ⟨line, -, hline⟩ := List.mem_filterMap.mp hp
  exact parseNodeLine_ordered hline

theorem NodeReplies.state_ordered (t : NodeReplies) : Ordered t.state.slots := by
  suffices ∀ (ps : List NodeState) (n : NodeState), (∀ p ∈ ps, Ordered p.slots) →
      Ordered n.slots → Ordered (ps.foldl (overlayOwnLine t.id) n).slots from
    this _ _ (fun p hp => parseClusterNodes_ordered hp) fun r hr => nomatch hr
  intro ps
  induction ps with
  | nil => exact fun n _ hn => hn
  | cons p ps ih =>
    intro n hps hn
    refine ih _ (fun q hq => hps q (by simp [hq])) ?_
    unfold overlayOwnLine
    split
    · exact hps p (by simp)
    · exact hn

/-! ## The node's own line and its gossip view agree -/

theorem overlay_keeps (id : Str) (ps : List NodeState) (n : NodeState) :
    (ps.foldl (overlayOwnLine id) n).id = n.id ∧
      (ps.foldl (overlayOwnLine id) n).peers = n.peers := by
  induction ps generalizing n with
  | nil => exact ⟨rfl, rfl⟩
  | cons p ps ih =>
    rw [List.foldl_cons, (ih _).1, (ih _).2]
    unfold overlayOwnLine
    split <;> exact ⟨rfl, rfl⟩

theorem NodeReplies.state_id (t : NodeReplies) : t.state.id = t.id := (overlay_keeps ..).1

theorem NodeReplies.state_peers (t : NodeReplies) :
    t.state.peers = peerTable (parsedLines t.clusterNodes) := (overlay_keeps ..).2

/-- A node's flags are those that its own table gives it. -/
theorem NodeReplies.state_flags (t : NodeReplies) :
    t.state.flags = ((t.state.peers.lookup t.id).map (·.flags)).getD [] := by
  rw [t.state_peers]
  -- line by line, the overlay and the table follow the same last line
  suffices ∀ (lines : List ParsedNodeLine) (peers table : GoMap Str PeerView) (n : NodeState),
      n.flags = ((table.lookup t.id).map (·.flags)).getD [] →
      ((lines.map fun p => p.toNodeState peers).foldl (overlayOwnLine t.id) n).flags =
        (((lines.foldl (fun m p => m.insert p.id p.peerView) table).lookup t.id).map
          (·.flags)).getD [] from
    this (parsedLines t.clusterNodes) _ ∅ _ rfl
  intro lines peers
  induction lines with
  | nil => exact fun table n h => h
  | cons p lines ih =>
    intro table n h
    rw [List.map_cons, List.foldl_cons, List.foldl_cons]
    refine ih _ _ ?_
    unfold overlayOwnLine
    split
    · rename_i hid
      change p.id = t.id at hid
      rw [hid, AList.lookup_insert]
      rfl
    · rename_i hid
      change ¬ p.id = t.id at hid
      rw [AList.lookup_insert_ne (Ne.symm hid)]
      exact h

theorem parseNodeLine_id {line : Str} {p : ParsedNodeLine} (h : parseNodeLine line = some p) :
    p.id ≠ [] := by
  unfold parseNodeLine at h
  split at h
  · rename_i id addr flags primaryID ping pong epoch link slotWords hfields
    cases h
    have hmem : id ∈ fields (trimSpace line) := by
      rw [hfields]
      exact List.mem_cons_self
    simpa using (List.mem_filter.mp hmem).2
  · cases h

/-- No table has an entry for the empty ID. -/
theorem NodeReplies.id_of_peer (t : NodeReplies) {id : Str} {peer : PeerView}
    (h : t.state.peers.lookup id = some peer) : id ≠ [] := by
  rw [t.state_peers, peerTable] at h
  rcases Inserts.mem_of_lookup h with ⟨p, hp, rfl, -⟩ | hempty
  · obtain ⟨line, -, hline⟩ := List.mem_filterMap.mp hp
    exact parseNodeLine_id hline
  · cases hempty

end ValkeyOperator.Valkey

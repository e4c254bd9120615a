import ValkeyOperator.Lib.Runs
import ValkeyOperator.Lib.Triple
import ValkeyOperator.Valkey.UsersACL

/-! The live reload of the auth material (`perconavalkeycluster/acl.go`).

A pass renders users.acl, writes it into the ACL Secret and compares the signature of what
it rendered with the one stamped on the cluster. If they differ, each node with a pod IP is
told the password of its primary and to load its mounted users.acl; only when all of them
have the new material is its signature stamped. Meanwhile specs are edited, pods come and
go, and the kubelet carries the Secret into the mounts.

Nodes are changed one by one and the stamp only at the end, so a stamp that is not touched
does not say that no node has been. -/

namespace ValkeyOperator.Cluster
open Text Valkey

/-! ## The nodes and their clients -/

/-- What a pass renders: users.acl and the password of the default user. -/
structure Material where
  aclContent : Str
  requirepass : Str
deriving DecidableEq

/-- A node as its status reports it, with the users.acl in its pod's mount and what its
engine runs on. -/
structure AuthNode where
  name : Str
  podIP : Str := []
  aclFile : Str := []
  loaded : Str := []
  masterauth : Str := []
deriving DecidableEq

/-- The engine runs on the material. -/
structure AuthNode.Has (n : AuthNode) (m : Material) : Prop where
  loaded : n.loaded = m.aclContent
  masterauth : n.masterauth = m.requirepass

instance (n : AuthNode) (m : Material) : Decidable (n.Has m) :=
  decidable_of_iff (n.loaded = m.aclContent ∧ n.masterauth = m.requirepass)
    ⟨fun h => ⟨h.1, h.2⟩, fun h => ⟨h.1, h.2⟩⟩

/-- How the calls to a node fail in a pass, if they do. -/
structure NodeFaults where
  dial : Option Err := none
  configSet : Option Fault := none
  aclLoad : Option Fault := none
  aclList : Option Err := none

/-- What the reload takes for granted: whether there is a client factory, a digest that is
never empty, and a comparison of a node's listing with the rendered file that is exact. -/
structure AuthReloader where
  clientFactory : Bool := true
  sha256 : Digest
  hex_ne_nil : ∀ s, sha256.hex s ≠ []
  aclMatches : Str → Str → Bool
  exact : ∀ want loaded, aclMatches want loaded = true ↔ loaded = want

def reloadNodeAuth (faults : NodeFaults) (requirepass : Str) : Action AuthNode Unit := do
  (Action.write faults.configSet fun n => { n with masterauth := requirepass }).mapErr
    (Err.wrap "CONFIG SET masterauth")
  Action.write faults.aclLoad fun n => { n with loaded := n.aclFile }

/-- How many nodes have a pod IP, and how many of those are done or not. -/
structure ReloadCounts where
  reachable : Nat := 0
  reloaded : Nat := 0
  pending : Nat := 0

def ReloadCounts.add (c : ReloadCounts) (done : Bool) : ReloadCounts :=
  if done then { c with reachable := c.reachable + 1, reloaded := c.reloaded + 1 }
  else { c with reachable := c.reachable + 1, pending := c.pending + 1 }

/-- The reload is through, or it is to be retried (`errAuthReloadPending`). -/
inductive ReloadResult where
  | applied
  | pending
deriving DecidableEq

/-! ## A pass -/

/-- The spec's material, what was rendered last, the Secret, the stamp and the nodes. An
empty stamp is one that is not there. -/
structure AuthWorld where
  wanted : Material
  rendered : Option Material := none
  secret : Str := []
  stamp : Str := []
  nodes : List AuthNode := []

/-- How the calls of a pass fail, if they do. -/
structure PassFaults where
  render : Option Err := none
  secret : Option Fault := none
  list : Option Err := none
  node : Str → NodeFaults := fun _ => {}
  patch : Option Fault := none

namespace AuthReloader

variable (r : AuthReloader)

def authSignature (m : Material) : Str :=
  r.sha256.hex (m.aclContent ++ ['\x00'] ++ m.requirepass)

/-- Reload a node and compare what it lists. -/
def reloadNode (faults : NodeFaults) (m : Material) : Action AuthNode Bool := do
  Action.read faults.dial fun _ => ()
  reloadNodeAuth faults m.requirepass
  Action.read faults.aclList fun n => r.aclMatches m.aclContent n.loaded

/-- An error of a node leaves it pending, as a mismatch does. -/
def reloadDone (faults : NodeFaults) (m : Material) (n : AuthNode) : Bool :=
  match (r.reloadNode faults m).outcome n with
  | .ok ok => ok
  | .error _ => false

def reloadEach (faults : Str → NodeFaults) (m : Material) :
    List AuthNode → ReloadCounts → List AuthNode × ReloadCounts
  | [], counts => ([], counts)
  | n :: rest, counts =>
    if n.podIP = [] then
      let out := reloadEach faults m rest counts
      (n :: out.1, out.2)
    else
      let out := reloadEach faults m rest (counts.add (r.reloadDone (faults n.name) m n))
      ((r.reloadNode (faults n.name) m).after n :: out.1, out.2)

def liveReloadAuth (faults : PassFaults) (m : Material) : Action AuthWorld ReloadResult := do
  let nodes ← (Action.read faults.list AuthWorld.nodes).mapErr
    (Err.wrap "auth reload: list nodes")
  let out := r.reloadEach faults.node m nodes {}
  modify fun w => { w with nodes := out.1 }
  if 0 < out.2.pending ∨ out.2.reloaded = 0 then pure .pending else pure .applied

def stampAuthSignature (faults : PassFaults) (signature : Str) : Action AuthWorld Unit :=
  (Action.write faults.patch fun w => { w with stamp := signature }).mapErr
    (Err.wrap "stamp auth signature")

def reconcileAuthReload (faults : PassFaults) (m : Material) : Action AuthWorld Unit := do
  if r.clientFactory = false then pure () else
  let signature := r.authSignature m
  let last := (← get).stamp
  if last = signature then pure ()
  else if last = [] then
    -- the first observation is stamped without a push
    stampAuthSignature faults signature
  else
    match ← r.liveReloadAuth faults m with
    | .pending => pure ()
    | .applied => stampAuthSignature faults signature

/-- The material is rendered and written before it is compared with the stamp. -/
def reconcileUsersACL (faults : PassFaults) : Action AuthWorld Unit := do
  let m ← Action.read faults.render AuthWorld.wanted
  modify fun w => { w with rendered := some m }
  Action.write faults.secret fun w => { w with secret := m.aclContent }
  r.reconcileAuthReload faults m

end AuthReloader

/-! ## Runs -/

/-- An edit of the spec or of a Secret it names, a projection of the ACL Secret into a mount,
the start of a pod, a node status, a node that is created or deleted, a pass. -/
inductive AuthEvent where
  | edit (wanted : Material)
  | project (name : Str)
  | start (name : Str) (boot : Material)
  | report (name podIP : Str)
  | create (name : Str)
  | delete (name : Str)
  | pass (faults : PassFaults)

/-- Change the node of the name. -/
def atNode (name : Str) (f : AuthNode → AuthNode) (nodes : List AuthNode) : List AuthNode :=
  nodes.map fun n => if n.name = name then f n else n

/-- A pod boots on the users.acl in its mount and the password in its configuration. -/
def AuthNode.boot (m : Material) (n : AuthNode) : AuthNode :=
  { n with aclFile := m.aclContent, loaded := m.aclContent, masterauth := m.requirepass }

/-- Every node with a pod IP runs on the material. -/
def AllHave (m : Material) (nodes : List AuthNode) : Prop := ∀ n ∈ nodes, n.podIP ≠ [] → n.Has m

/-- A cluster that has not been stamped yet. -/
def unstamped (wanted : Material) (nodes : List AuthNode) : AuthWorld := { wanted, nodes }

namespace AuthReloader

variable (r : AuthReloader)

def step (w : AuthWorld) : AuthEvent → AuthWorld
  | .edit wanted => { w with wanted }
  | .project name =>
    { w with nodes := atNode name (fun n => { n with aclFile := w.secret }) w.nodes }
  | .start name boot => { w with nodes := atNode name (AuthNode.boot boot) w.nodes }
  | .report name podIP => { w with nodes := atNode name (fun n => { n with podIP }) w.nodes }
  | .create name => { w with nodes := { name } :: w.nodes }
  | .delete name => { w with nodes := w.nodes.filter (·.name ≠ name) }
  | .pass faults => (r.reconcileUsersACL faults).after w

/-- The material was rendered last, and its signature is the stamped one. -/
structure Stamped (w : AuthWorld) (m : Material) : Prop where
  rendered : w.rendered = some m
  stamp : w.stamp = r.authSignature m

/-- No node is left behind: if the stamp is the signature of the rendered material, every
node with a pod IP runs on it. -/
def Settled (w : AuthWorld) : Prop := ∀ m, r.Stamped w m → AllHave m w.nodes

/-- The pass gets as far as the stamp, and the stamp is made. -/
structure MakesStamp (faults : PassFaults) : Prop where
  clientFactory : r.clientFactory = true
  secret : faults.secret = none
  patch : ∀ e, faults.patch ≠ some (.refused e)

/-- Where a pass pushes nothing, the nodes have the material already: when the spec is back
at the stamped material after another one was rendered, and at the first stamp. While the
stamp is current, pods boot on the rendered material, and a node whose IP is reported
runs on it. -/
def Unhurt (w : AuthWorld) : AuthEvent → Prop
  | .pass faults => faults.render = none →
      (w.stamp = r.authSignature w.wanted → w.rendered ≠ some w.wanted → AllHave w.wanted w.nodes) ∧
      (w.stamp = [] → r.MakesStamp faults → AllHave w.wanted w.nodes)
  | .start name boot => ∀ m, r.Stamped w m → ∀ n ∈ w.nodes, n.name = name → n.podIP ≠ [] → boot = m
  | .report name podIP => ∀ m, r.Stamped w m → podIP ≠ [] → ∀ n ∈ w.nodes, n.name = name → n.Has m
  | _ => True

/-! ## What a reload achieves -/

variable {r} {m : Material}

theorem reloadNode_triple (faults : NodeFaults) (m : Material) :
    Action.Triple (fun _ => True) (r.reloadNode faults m) (fun ok n => ok = true → n.Has m)
      (fun _ => True) := by
  have hpassword : Action.Triple (fun _ => True) (reloadNodeAuth faults m.requirepass)
      (fun _ n => n.masterauth = m.requirepass) (fun _ => True) := by
    refine .bind (Q := fun _ n => n.masterauth = m.requirepass) ?_ fun _ => ?_
    · exact .mapErr (.write (fun _ _ => rfl) (fun _ h => h) fun _ _ _ h => h)
    · exact .write (fun _ h => h) (fun _ _ => trivial) fun _ _ _ _ => trivial
  refine .bind (.read fun _ _ _ => trivial) fun _ => ?_
  refine .bind (hpassword.pre fun _ _ => trivial) fun _ => ?_
  refine (Action.Triple.read fun _ _ _ => trivial).post ?_ fun _ h => h
  rintro ok n ⟨hmaster, rfl⟩ hok
  exact ⟨(r.exact _ _).mp hok, hmaster⟩

theorem reloadNode_has {faults : NodeFaults} {n : AuthNode} (h : r.reloadDone faults m n = true) :
    ((r.reloadNode faults m).after n).Has m := by
  unfold reloadDone at h
  split at h
  case h_1 ok hok => exact (reloadNode_triple faults m).returned trivial hok h
  case h_2 => cases h

theorem pending_le_add (c : ReloadCounts) (done : Bool) : c.pending ≤ (c.add done).pending := by
  unfold ReloadCounts.add
  split <;> simp

theorem done_of_pending_eq_zero {c : ReloadCounts} {done : Bool} (h : (c.add done).pending = 0) :
    done = true := by
  unfold ReloadCounts.add at h
  split at h <;> simp_all

theorem pending_le_reloadEach (faults : Str → NodeFaults) (m : Material) (nodes : List AuthNode)
    (c : ReloadCounts) : c.pending ≤ (r.reloadEach faults m nodes c).2.pending := by
  induction nodes generalizing c with
  | nil => exact le_rfl
  | cons n rest ih =>
    unfold reloadEach
    split
    · exact ih c
    · exact (pending_le_add c _).trans (ih _)

/-- If no node is pending, every node with a pod IP has the material: the count never
goes down, so none was pending after any node. -/
theorem reloadEach_allHave {faults : Str → NodeFaults} {nodes : List AuthNode} {c : ReloadCounts}
    (h : (r.reloadEach faults m nodes c).2.pending = 0) :
    AllHave m (r.reloadEach faults m nodes c).1 := by
  induction nodes generalizing c with
  | nil => exact fun n hn => nomatch hn
  | cons n rest ih =>
    unfold reloadEach at h ⊢
    split at h
    case isTrue hip =>
      rw [if_pos hip]
      exact List.forall_mem_cons.mpr ⟨fun hne => absurd hip hne, ih h⟩
    case isFalse hip =>
      rw [if_neg hip]
      refine List.forall_mem_cons.mpr ⟨fun _ => reloadNode_has ?_, ih h⟩
      exact done_of_pending_eq_zero
        (Nat.eq_zero_of_le_zero ((pending_le_reloadEach _ _ _ _).trans_eq h))

/-- The rendered material and the stamp are as given. -/
structure Frame (rendered : Option Material) (stamp : Str) (w : AuthWorld) : Prop where
  rendered : w.rendered = rendered
  stamp : w.stamp = stamp

theorem liveReloadAuth_triple (faults : PassFaults) (m : Material) (rendered : Option Material)
    (stamp : Str) :
    Action.Triple (Frame rendered stamp) (r.liveReloadAuth faults m)
      (fun res w => Frame rendered stamp w ∧ (res = .applied → AllHave m w.nodes))
      (Frame rendered stamp) := by
  refine .bind (.mapErr (.read fun w hw _ => hw)) fun nodes => ?_
  refine .bind (Q := fun _ w => Frame rendered stamp w ∧
    w.nodes = (r.reloadEach faults.node m nodes {}).1) ?_ fun _ => ?_
  · exact .modify fun w ⟨hw, _⟩ => ⟨⟨hw.rendered, hw.stamp⟩, rfl⟩
  split
  case isTrue => exact .pure fun w ⟨hw, _⟩ => ⟨hw, fun h => nomatch h⟩
  case isFalse hdone =>
    refine .pure fun w ⟨hw, hnodes⟩ => ⟨hw, fun _ => ?_⟩
    rw [hnodes]
    exact reloadEach_allHave (Nat.eq_zero_of_not_pos fun hpos => hdone (.inl hpos))

/-! ## What a pass does -/

section Reload

variable {faults : PassFaults} {w : AuthWorld}

theorem authSignature_ne_nil (m : Material) : r.authSignature m ≠ [] := r.hex_ne_nil _

/-- The comparison with the stamp, once there is a client factory. -/
theorem after_reconcileAuthReload (faults : PassFaults) (m : Material) (w : AuthWorld) :
    (r.reconcileAuthReload faults m).after w =
      if r.clientFactory = false ∨ w.stamp = r.authSignature m then w
      else if w.stamp = [] then (stampAuthSignature faults (r.authSignature m)).after w
      else (r.liveReloadAuth faults m >>= fun res => match res with
        | .pending => pure ()
        | .applied => stampAuthSignature faults (r.authSignature m)).after w := by
  unfold reconcileAuthReload
  by_cases hfactory : r.clientFactory = false
  · rw [if_pos hfactory, if_pos (.inl hfactory)]
    rfl
  rw [if_neg hfactory]
  dsimp only
  rw [Action.Returns.after_bind (show Action.Returns get w w w from rfl)]
  by_cases hstamp : w.stamp = r.authSignature m
  · rw [if_pos hstamp, if_pos (.inr hstamp)]
    rfl
  rw [if_neg hstamp, if_neg (not_or.mpr ⟨hfactory, hstamp⟩)]
  split <;> rfl

theorem reconcileAuthReload_current (h : w.stamp = r.authSignature m) :
    (r.reconcileAuthReload faults m).after w = w := by
  rw [after_reconcileAuthReload, if_pos (.inr h)]

theorem settled_iff (hrendered : w.rendered = some m) :
    r.Settled w ↔ (w.stamp = r.authSignature m → AllHave m w.nodes) := by
  constructor
  · exact fun h hstamp => h m ⟨hrendered, hstamp⟩
  · intro h m' hm'
    have : m = m' := Option.some.inj (hrendered.symm.trans hm'.rendered)
    subst this
    exact h hm'.stamp

/-- A push is stamped only if it has reached every node with a pod IP. -/
theorem reconcileAuthReload_changed (hrendered : w.rendered = some m)
    (hstamp : w.stamp ≠ r.authSignature m) (hne : w.stamp ≠ []) :
    r.Settled ((r.reconcileAuthReload faults m).after w) := by
  have hunstamped : ∀ v, Frame (some m) w.stamp v → r.Settled v := fun v hv =>
    (settled_iff hv.rendered).mpr fun h => absurd (hv.stamp.symm.trans h) hstamp
  have hreached : ∀ v : AuthWorld, v.rendered = some m → AllHave m v.nodes → r.Settled v :=
    fun v hv hall => (settled_iff hv).mpr fun _ => hall
  rw [after_reconcileAuthReload, if_neg hne]
  split
  · exact hunstamped w ⟨hrendered, rfl⟩
  refine Action.Triple.after (P := Frame (some m) w.stamp) ?_ ⟨hrendered, rfl⟩
  refine .bind ((liveReloadAuth_triple faults m _ _).failing hunstamped) fun res => ?_
  cases res with
  | pending => exact .pure fun v ⟨hv, _⟩ => hunstamped v hv
  | applied =>
    refine .mapErr (.write ?_ ?_ ?_)
    · exact fun v ⟨hv, hall⟩ => hreached _ hv.rendered (hall rfl)
    · exact fun v ⟨hv, hall⟩ => hreached _ hv.rendered (hall rfl)
    · exact fun _ v _ ⟨hv, hall⟩ => hreached _ hv.rendered (hall rfl)

theorem after_stampAuthSignature (faults : PassFaults) (signature : Str) (w : AuthWorld) :
    (stampAuthSignature faults signature).after w = match faults.patch with
      | some (.refused _) => w
      | _ => { w with stamp := signature } := by
  unfold stampAuthSignature
  rw [Action.after_mapErr]
  unfold Action.write Action.after
  cases faults.patch with
  | none => rfl
  | some fault => cases fault <;> rfl

/-- The first stamp is made without a look at the nodes. -/
theorem reconcileAuthReload_first (hrendered : w.rendered = some m) (hstamp : w.stamp = [])
    (hsecret : faults.secret = none) :
    r.Settled ((r.reconcileAuthReload faults m).after w) ↔
      (r.MakesStamp faults → AllHave m w.nodes) := by
  have hne : w.stamp ≠ r.authSignature m := fun h =>
    authSignature_ne_nil m (h.symm.trans hstamp)
  have hunmade : r.Settled w := (settled_iff hrendered).mpr fun h => absurd h hne
  rw [after_reconcileAuthReload, if_pos hstamp, after_stampAuthSignature]
  by_cases hfactory : r.clientFactory = false
  · rw [if_pos (.inl hfactory)]
    exact iff_of_true hunmade fun h => absurd hfactory (by simp [h.clientFactory])
  rw [if_neg (not_or.mpr ⟨hfactory, hne⟩)]
  split
  case h_1 e hpatch => exact iff_of_true hunmade fun h => absurd hpatch (h.patch e)
  case h_2 hpatch =>
    have hmade : r.MakesStamp faults := ⟨Bool.eq_true_of_not_eq_false hfactory, hsecret, hpatch⟩
    refine (settled_iff (w := { w with stamp := r.authSignature m }) hrendered).trans ?_
    exact ⟨fun h _ => h rfl, fun h _ => h hmade⟩

/-- A pass that renders the material leaves the stamp and the nodes to the reload; it does
not get there if the Secret cannot be written. -/
theorem after_reconcileUsersACL (hrender : faults.render = none) :
    ∃ v : AuthWorld, v.rendered = some w.wanted ∧ v.stamp = w.stamp ∧ v.nodes = w.nodes ∧
      (r.reconcileUsersACL faults).after w =
        if faults.secret = none then (r.reconcileAuthReload faults w.wanted).after v else v := by
  unfold reconcileUsersACL
  have hread : Action.Returns (Action.read faults.render AuthWorld.wanted) w w.wanted w := by
    rw [hrender]
    rfl
  rw [hread.after_bind]
  cases hsecret : faults.secret with
  | none =>
    exact ⟨{ w with rendered := some w.wanted, secret := w.wanted.aclContent }, rfl, rfl, rfl, rfl⟩
  | some fault =>
    cases fault with
    | refused e => exact ⟨{ w with rendered := some w.wanted }, rfl, rfl, rfl, rfl⟩
    | lost e =>
      exact ⟨{ w with rendered := some w.wanted, secret := w.wanted.aclContent },
        rfl, rfl, rfl, rfl⟩

end Reload

/-! ## What an event does -/

/-- The reload cannot tell a stamp that was never touched from a finished push. -/
theorem settled_pass_iff {faults : PassFaults} {w : AuthWorld} (hw : r.Settled w) :
    r.Settled ((r.reconcileUsersACL faults).after w) ↔ r.Unhurt w (.pass faults) := by
  cases hrender : faults.render with
  | some e =>
    have hsame : (r.reconcileUsersACL faults).after w = w := by
      unfold reconcileUsersACL
      refine Action.after_bind_error (e := e) ?_ _
      rw [hrender]
      rfl
    rw [hsame]
    exact iff_of_true hw fun h => nomatch hrender.symm.trans h
  | none =>
    obtain ⟨v, hrendered, hstamp, hnodes, hafter⟩ :=
      after_reconcileUsersACL (r := r) (w := w) hrender
    have hv : r.Settled v ↔ (w.stamp = r.authSignature w.wanted → AllHave w.wanted w.nodes) := by
      rw [settled_iff hrendered, hstamp, hnodes]
    rw [hafter]
    by_cases hcurrent : w.stamp = r.authSignature w.wanted
    · -- nothing is pushed, whether or not the Secret was written
      have hempty : w.stamp ≠ [] := hcurrent ▸ authSignature_ne_nil w.wanted
      rw [reconcileAuthReload_current (hstamp.trans hcurrent), ite_self, hv]
      constructor
      · exact fun h _ => ⟨fun hcur _ => h hcur, fun hnil => absurd hnil hempty⟩
      · intro h hcur
        by_cases hsame : w.rendered = some w.wanted
        · exact hw w.wanted ⟨hsame, hcur⟩
        · exact (h hrender).1 hcur hsame
    · have hunwritten : r.Settled v := hv.mpr fun h => absurd h hcurrent
      by_cases hfirst : w.stamp = []
      · by_cases hsecret : faults.secret = none
        · rw [if_pos hsecret, reconcileAuthReload_first hrendered (hstamp.trans hfirst) hsecret,
            hnodes]
          exact ⟨fun h _ => ⟨fun hcur => absurd hcur hcurrent, fun _ => h⟩,
            fun h => (h hrender).2 hfirst⟩
        · rw [if_neg hsecret]
          exact iff_of_true hunwritten fun _ =>
            ⟨fun hcur => absurd hcur hcurrent, fun _ hmade => absurd hmade.secret hsecret⟩
      · refine iff_of_true ?_ fun _ =>
          ⟨fun hcur => absurd hcur hcurrent, fun hnil => absurd hnil hfirst⟩
        split
        · exact reconcileAuthReload_changed hrendered (hstamp ▸ hcurrent) (hstamp ▸ hfirst)
        · exact hunwritten

theorem allHave_atNode {name : Str} {f : AuthNode → AuthNode} {nodes : List AuthNode}
    (h : AllHave m nodes) :
    AllHave m (atNode name f nodes) ↔
      ∀ n ∈ nodes, n.name = name → (f n).podIP ≠ [] → (f n).Has m := by
  unfold AllHave atNode
  rw [List.forall_mem_map]
  refine forall₂_congr fun n hn => ?_
  split
  case isTrue hname => exact ⟨fun hf _ => hf, fun hf => hf hname⟩
  case isFalse hname => exact iff_of_true (h n hn) fun heq => absurd heq hname

theorem boot_has_iff {boot : Material} {n : AuthNode} : (n.boot boot).Has m ↔ boot = m := by
  constructor
  · rintro ⟨hloaded, hmaster⟩
    obtain ⟨_, _⟩ := boot
    cases hloaded
    cases hmaster
    rfl
  · rintro rfl
    exact ⟨rfl, rfl⟩

theorem settled_nodes_iff {w : AuthWorld} {nodes : List AuthNode} :
    r.Settled { w with nodes } ↔ ∀ m, r.Stamped w m → AllHave m nodes :=
  forall_congr' fun _ => imp_congr_left
    ⟨fun h => ⟨h.rendered, h.stamp⟩, fun h => ⟨h.rendered, h.stamp⟩⟩

/-- The events that leave no node behind are those that meet the condition. -/
theorem settled_step_iff {w : AuthWorld} (hw : r.Settled w) (e : AuthEvent) :
    r.Settled (r.step w e) ↔ r.Unhurt w e := by
  cases e with
  | edit wanted => exact iff_of_true (fun m hm => hw m ⟨hm.rendered, hm.stamp⟩) trivial
  | project name =>
    refine iff_of_true (settled_nodes_iff.mpr fun m hm => ?_) trivial
    refine (allHave_atNode (hw m hm)).mpr fun n hn _ hip => ?_
    obtain ⟨hloaded, hmaster⟩ := hw m hm n hn hip
    exact ⟨hloaded, hmaster⟩
  | start name boot =>
    refine settled_nodes_iff.trans (forall₂_congr fun m hm => ?_)
    rw [allHave_atNode (hw m hm)]
    exact forall₄_congr fun n _ _ _ => boot_has_iff
  | report name podIP =>
    refine settled_nodes_iff.trans (forall₂_congr fun m hm => ?_)
    rw [allHave_atNode (hw m hm)]
    constructor
    · intro h hip n hn hname
      obtain ⟨hloaded, hmaster⟩ := h n hn hname hip
      exact ⟨hloaded, hmaster⟩
    · intro h n hn hname hip
      obtain ⟨hloaded, hmaster⟩ := h hip n hn hname
      exact ⟨hloaded, hmaster⟩
  | create name =>
    refine iff_of_true (settled_nodes_iff.mpr fun m hm => ?_) trivial
    exact List.forall_mem_cons.mpr ⟨fun hip => absurd rfl hip, hw m hm⟩
  | delete name =>
    refine iff_of_true (settled_nodes_iff.mpr fun m hm => ?_) trivial
    exact fun n hn => hw m hm n (List.mem_of_mem_filter hn)
  | pass faults => exact settled_pass_iff hw

theorem settled_unstamped (wanted : Material) (nodes : List AuthNode) :
    r.Settled (unstamped wanted nodes) := fun _ hm => nomatch hm.rendered

/-- From a cluster without a stamp, in every state reached the nodes with a pod IP run on
the rendered material if its signature is stamped, exactly when all events meet the
condition. -/
theorem authReload_settled_iff (wanted : Material) (nodes : List AuthNode)
    (events : List AuthEvent) :
    Runs.Allows r.step r.Unhurt (unstamped wanted nodes) events ↔
      ∀ k, r.Settled ((events.take k).foldl r.step (unstamped wanted nodes)) :=
  Runs.allows_iff (I := r.Settled) (fun _ e hw => settled_step_iff hw e)
    (settled_unstamped wanted nodes)

end AuthReloader

/-! ## A spec that goes back -/

def exactReloader : AuthReloader where
  sha256 := checksum
  hex_ne_nil _ := List.cons_ne_nil _ _
  aclMatches want loaded := decide (loaded = want)
  exact _ _ := decide_eq_true_iff

/-- Everybody may do everything, or nobody anything. -/
def openMaterial : Material := ⟨"user default on nopass ~* &* +@all\n", []⟩

def closedMaterial : Material := ⟨"user default off\n", []⟩

def openNode (name : String) : AuthNode :=
  AuthNode.boot openMaterial { name := name.toList, podIP := "10.0.0.1" }

/-- The edit reaches the first node only, then the spec goes back. -/
def revertedEdit : List AuthEvent :=
  [.pass {}, .edit closedMaterial, .pass {}, .project "n0", .pass {}, .edit openMaterial, .pass {}]

/-- No call fails, and the pass that finds the stamp current leaves the first node on the
edit. -/
theorem authReload_strands_reverted :
    let start := unstamped openMaterial [openNode "n0", openNode "n1"]
    let w := revertedEdit.foldl exactReloader.step start
    w.rendered = some openMaterial ∧ w.stamp = exactReloader.authSignature openMaterial ∧
      ∃ n ∈ w.nodes, n.podIP ≠ [] ∧ n.Has closedMaterial ∧ ¬ n.Has openMaterial := by
  decide +kernel

end ValkeyOperator.Cluster

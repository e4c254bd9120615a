import ValkeyOperator.Cluster.Api
import ValkeyOperator.Lib.Runs
import ValkeyOperator.Lib.Triple
import ValkeyOperator.Lib.Versioned

/-! The data volume of a node that is deleted (`valkeynode/finalizer.go`).

A finalizer stands for the policy: it is put on a node whose spec says Delete and taken
off any other, each in a pass of its own. The teardown looks at the finalizer alone, so a
node whose spec has changed since the last pass is torn down under the policy it had then. -/

namespace ValkeyOperator.Node
open Text Api ValkeyOperator.Action

variable {o : NodeObject} {w : ReclaimWorld}

def reclaimDelete : Str := "Delete"
def reclaimRetain : Str := "Retain"

/-- Seconds. -/
def requeueFinalizer : Int := 1

def nodeStatefulSetPVCName (node : Str) : Str :=
  nodePVCName node ++ '-' :: resourceName node ++ "-0"

def wantsPersistenceFinalizer (node : ValkeyNode) : Bool :=
  match node.spec.persistence with
  | none => false
  | some persistence => persistence.reclaimPolicy = reclaimDelete

/-! ## One pass -/

/-- A node as the API server has it. -/
structure NodeObject where
  node : ValkeyNode
  /-- it has the volume cleanup finalizer -/
  cleanup : Bool := false
  terminating : Bool := false

inductive DataClaim where
  | absent
  | present
  | leaving
deriving DecidableEq

structure ReclaimWorld where
  ns : Str
  server : Versioned NodeObject
  claim : DataClaim := .absent
  /-- the node as the running pass has read it -/
  pass : Option (NodeObject × Nat) := none
  /-- the node as it was when its deletion was requested -/
  requested : Option ValkeyNode := none
  /-- at each deletion of the claim, the node as it was stored then -/
  deletions : List (Option NodeObject) := []

/-- How the calls of a pass fail, if they do. -/
structure ReclaimFaults where
  getPVC : Option Err := none
  deletePVC : Option Fault := none
  update : Option Fault := none
  /-- the answer to an update of a node that has changed or gone -/
  conflict : Err := { msg := [] }

structure FinalizerResult where
  mutated : Bool
  requeueAfter : Int := 0
deriving DecidableEq

namespace ReclaimWorld

/-- A node that is on its way out goes with its finalizer. -/
def put (w : ReclaimWorld) (o : NodeObject) : ReclaimWorld :=
  { w with server := if o.terminating && !o.cleanup then w.server.remove else w.server.write o }

def deleteClaim (w : ReclaimWorld) : ReclaimWorld :=
  { w with claim := .leaving, deletions := w.deletions ++ [w.server.stored] }

def key (w : ReclaimWorld) (name : Str) : Str := w.ns ++ '/' :: name

end ReclaimWorld

section Pass

variable (faults : ReclaimFaults) (copy : NodeObject) (version : Nat)

/-- Write the copy back, unless the node has changed since it was read. -/
def update : Action ReclaimWorld Unit := do
  let w ← get
  Action.mapErr (Err.wrap ("update node " ++ w.key copy.node.name)) <|
    if w.server.object.map Prod.snd = some version then
      Action.write faults.update fun w => w.put copy
    else throw faults.conflict

def cleanupPVC : Action ReclaimWorld Unit := do
  let w ← get
  let key := w.key (nodeStatefulSetPVCName copy.node.name)
  let claim ← (Action.read faults.getPVC (·.claim)).mapErr (Err.wrap ("get pvc " ++ key))
  match claim with
  | .absent | .leaving => pure ()
  | .present =>
    (Action.write faults.deletePVC ReclaimWorld.deleteClaim).mapErr
      (Err.wrap ("delete pvc " ++ key))

def reconcileTeardown : Action ReclaimWorld FinalizerResult :=
  if !copy.cleanup then pure { mutated := true }
  else do
    cleanupPVC faults copy
    update faults { copy with cleanup := false } version
    pure { mutated := true }

def reconcilePersistenceFinalizer : Action ReclaimWorld FinalizerResult :=
  if copy.terminating then reconcileTeardown faults copy version
  else if wantsPersistenceFinalizer copy.node && !copy.cleanup then do
    update faults { copy with cleanup := true } version
    pure { mutated := true, requeueAfter := requeueFinalizer }
  else if !wantsPersistenceFinalizer copy.node && copy.cleanup then do
    update faults { copy with cleanup := false } version
    pure { mutated := true, requeueAfter := requeueFinalizer }
  else pure { mutated := false }

end Pass

/-! ## Runs -/

inductive ReclaimEvent where
  | edit (spec : ValkeyNodeSpec)
  | requestDeletion
  /-- the claim is made by the workload's controller, or goes away -/
  | claim (claim : DataClaim)
  /-- a pass reads the node, and later does its finalizer phase -/
  | fetch
  | finish (faults : ReclaimFaults)

namespace ReclaimWorld

def edited (spec : ValkeyNodeSpec) (o : NodeObject) : NodeObject :=
  { o with node := { o.node with spec := spec, generation := o.node.generation + 1 } }

def step (w : ReclaimWorld) : ReclaimEvent → ReclaimWorld
  | .edit spec => { w with server := (w.server.patch (edited spec)).2 }
  | .requestDeletion =>
    match w.server.stored with
    | none => w
    | some o =>
      if o.terminating then w
      else { w.put { o with terminating := true } with requested := some o.node }
  | .claim claim => { w with claim := claim }
  | .fetch =>
    match w.pass with
    | none => { w with pass := w.server.object }
    | some _ => w
  | .finish faults =>
    match w.pass with
    | none => w
    | some (copy, version) =>
      { (reconcilePersistenceFinalizer faults copy version).after w with pass := none }

end ReclaimWorld

/-- A node with the finalizer is deleted only under a spec that says Delete, and none is
taken back from Delete while it is torn down. -/
def PolicySettled (w : ReclaimWorld) : ReclaimEvent → Prop
  | .requestDeletion => ∀ o, w.server.stored = some o → o.cleanup = true →
      wantsPersistenceFinalizer o.node = true
  | .edit spec => ∀ o, w.server.stored = some o → o.terminating = true → o.cleanup = true →
      wantsPersistenceFinalizer (ReclaimWorld.edited spec o).node = true
  | _ => True

/-! ## What a run keeps -/

/-- What holds of the stored objects and of the record of deletions. -/
structure ReclaimKept (w : ReclaimWorld) : Prop where
  leaving : ∀ o, w.server.stored = some o → o.terminating = true →
    o.cleanup = true ∧ wantsPersistenceFinalizer o.node = true
  deleted : ∀ d ∈ w.deletions, ∃ o, d = some o ∧ wantsPersistenceFinalizer o.node = true
  requested : ∀ o, w.server.stored = some o → (o.terminating = true ↔ w.requested ≠ none)
  early : w.requested = none → w.deletions = []
  retained : ∀ n, w.requested = some n → wantsPersistenceFinalizer n = false →
    w.server.stored = none ∧ w.deletions = []

/-- What a pass has read of a node that is torn down still holds. -/
def PassCurrent (w : ReclaimWorld) : Prop :=
  ∀ copy version, w.pass = some (copy, version) → w.server.Seen (copy, version) ∧
    (copy.terminating = true → copy.cleanup = true →
      ∃ o, w.server.stored = some o ∧ o.terminating = true)

theorem ReclaimKept.of_same {v : ReclaimWorld} (h : ReclaimKept w) (hserver : v.server = w.server)
    (hrequested : v.requested = w.requested) (hdeletions : v.deletions = w.deletions) :
    ReclaimKept v := by
  obtain ⟨hleaving, hdeleted, hasked, hearly, hretained⟩ := h
  rw [← hserver] at hleaving hasked hretained
  rw [← hrequested] at hasked hearly hretained
  rw [← hdeletions] at hdeleted hearly hretained
  exact ⟨hleaving, hdeleted, hasked, hearly, hretained⟩

theorem ReclaimKept.remove (h : ReclaimKept w) :
    ReclaimKept { w with server := w.server.remove } where
  leaving _ hp := nomatch hp
  deleted := h.deleted
  requested _ hp := nomatch hp
  early := h.early
  retained n hn hpolicy := ⟨rfl, (h.retained n hn hpolicy).2⟩

theorem ReclaimKept.write (h : ReclaimKept w) {o' : NodeObject}
    (hstored : w.server.stored = some o) (hsame : o'.terminating = o.terminating)
    (hpolicy : o'.terminating = true →
      o'.cleanup = true ∧ wantsPersistenceFinalizer o'.node = true) :
    ReclaimKept { w with server := w.server.write o' } where
  leaving p hp hleaving := by
    cases hp
    exact hpolicy hleaving
  deleted := h.deleted
  requested p hp := by
    cases hp
    rw [hsame]
    exact h.requested o hstored
  early := h.early
  retained n hn hretain := by
    have hgone := (h.retained n hn hretain).1
    rw [hstored] at hgone
    cases hgone

theorem ReclaimKept.put (h : ReclaimKept w) (hstored : w.server.stored = some o) {cleanup : Bool}
    (hcleanup : o.terminating = true → cleanup = false) :
    ReclaimKept (w.put { o with cleanup := cleanup }) := by
  unfold ReclaimWorld.put
  split
  · exact h.remove
  · rename_i hcond
    refine h.write hstored rfl fun hleaving => ?_
    simp [hcleanup hleaving, show o.terminating = true from hleaving] at hcond

theorem update_kept {faults : ReclaimFaults} {copy : NodeObject} {version : Nat} {cleanup : Bool}
    (hcleanup : copy.terminating = true → cleanup = false) :
    Triple (fun w => ReclaimKept w ∧ w.server.Seen (copy, version))
      (update faults { copy with cleanup := cleanup } version) (fun _ => ReclaimKept)
      ReclaimKept := by
  unfold update
  refine Triple.get.bind fun v => Triple.mapErr ?_
  split
  · rename_i hversion
    -- the version stands for the copy
    have hput : ∀ w, (ReclaimKept w ∧ w.server.Seen (copy, version)) ∧ v = w →
        ReclaimKept (w.put { copy with cleanup := cleanup }) := by
      rintro w ⟨⟨hkept, hseen⟩, rfl⟩
      obtain ⟨⟨o, u⟩, hobject, hu⟩ := Option.map_eq_some_iff.mp hversion
      cases hu
      have hcopy : o = copy := hseen.2 o hobject
      exact hkept.put (hcopy ▸ congrArg (Option.map Prod.fst) hobject) hcleanup
    exact Triple.write hput (fun w hw => hw.1.1) fun _ w _ hw => hput w hw
  · exact Triple.throw fun w hw => hw.1.1

theorem ReclaimKept.deleteClaim (h : ReclaimKept w) (hstored : w.server.stored = some o)
    (hleaving : o.terminating = true) :
    ReclaimKept w.deleteClaim where
  leaving := h.leaving
  deleted d hd := by
    rcases List.mem_append.mp hd with hd | hd
    · exact h.deleted d hd
    · exact ⟨o, (List.mem_singleton.mp hd).trans hstored, (h.leaving o hstored hleaving).2⟩
  requested := h.requested
  early hnone := absurd hnone ((h.requested o hstored).mp hleaving)
  retained n hn hpolicy := by
    have hgone := (h.retained n hn hpolicy).1
    rw [hstored] at hgone
    cases hgone

theorem cleanupPVC_kept {faults : ReclaimFaults} {copy : NodeObject} {version : Nat} :
    Triple (fun w => ReclaimKept w ∧ w.server.Seen (copy, version) ∧
        ∃ o, w.server.stored = some o ∧ o.terminating = true)
      (cleanupPVC faults copy) (fun _ w => ReclaimKept w ∧ w.server.Seen (copy, version))
      ReclaimKept := by
  unfold cleanupPVC
  refine Triple.get.bind fun v => ?_
  refine (Triple.read fun w hw _ => hw.1.1).mapErr.bind fun claim => ?_
  have hdelete : ∀ w, (((ReclaimKept w ∧ w.server.Seen (copy, version) ∧
      ∃ o, w.server.stored = some o ∧ o.terminating = true) ∧ v = w) ∧ claim = w.claim) →
      ReclaimKept w.deleteClaim := by
    rintro w ⟨⟨⟨hkept, -, o, hstored, hleaving⟩, -⟩, -⟩
    exact hkept.deleteClaim hstored hleaving
  split
  · exact Triple.pure fun w hw => ⟨hw.1.1.1, hw.1.1.2.1⟩
  · exact Triple.pure fun w hw => ⟨hw.1.1.1, hw.1.1.2.1⟩
  · exact (Triple.write (fun w hw => ⟨hdelete w hw, hw.1.1.2.1⟩) (fun w hw => hw.1.1.1)
      fun _ w _ hw => hdelete w hw).mapErr

theorem reconcilePersistenceFinalizer_kept {faults : ReclaimFaults} {copy : NodeObject}
    {version : Nat} :
    Triple (fun w => ReclaimKept w ∧ w.server.Seen (copy, version) ∧
        (copy.terminating = true → copy.cleanup = true →
          ∃ o, w.server.stored = some o ∧ o.terminating = true))
      (reconcilePersistenceFinalizer faults copy version) (fun _ => ReclaimKept) ReclaimKept := by
  unfold reconcilePersistenceFinalizer
  have hback : ∀ (cleanup : Bool) (result : FinalizerResult),
      (copy.terminating = true → cleanup = false) →
      Triple (fun w => ReclaimKept w ∧ w.server.Seen (copy, version))
        (update faults { copy with cleanup := cleanup } version >>= fun _ => pure result)
        (fun _ => ReclaimKept) ReclaimKept := fun cleanup result h =>
    (update_kept h).bind fun _ => .pure fun _ hw => hw
  split
  · rename_i hleaving
    unfold reconcileTeardown
    split
    · exact .pure fun w hw => hw.1
    · rename_i hcleanup
      refine (cleanupPVC_kept.pre fun w hw => ⟨hw.1, hw.2.1, hw.2.2 hleaving ?_⟩).bind fun _ =>
        hback false _ fun _ => rfl
      simpa using hcleanup
  · rename_i hstays
    have habsurd : ∀ cleanup : Bool, copy.terminating = true → cleanup = false :=
      fun _ h => absurd h hstays
    split
    · exact (hback true _ (habsurd true)).pre fun w hw => ⟨hw.1, hw.2.1⟩
    · split
      · exact (hback false _ (habsurd false)).pre fun w hw => ⟨hw.1, hw.2.1⟩
      · exact .pure fun w hw => hw.1

theorem ReclaimKept.request (h : ReclaimKept w) (hstored : w.server.stored = some o)
    (hstays : ¬ o.terminating = true)
    (hsettled : o.cleanup = true → wantsPersistenceFinalizer o.node = true) :
    ReclaimKept { w.put { o with terminating := true } with requested := some o.node } := by
  have hnone : w.requested = none := by
    by_contra hasked
    exact hstays ((h.requested o hstored).mpr hasked)
  have hempty := h.early hnone
  unfold ReclaimWorld.put
  split
  · exact ⟨fun p hp => (nomatch hp), h.deleted, fun p hp => (nomatch hp), fun hn => (nomatch hn),
      fun n _ _ => ⟨rfl, hempty⟩⟩
  · rename_i hcond
    have hcleanup : o.cleanup = true := by simpa using hcond
    have hpolicy := hsettled hcleanup
    refine ⟨fun p hp _ => ?_, h.deleted, fun p hp => ?_, fun hn => (nomatch hn), fun n hn hretain => ?_⟩
    · cases hp
      exact ⟨hcleanup, hpolicy⟩
    · cases hp
      simp
    · cases hn
      rw [hpolicy] at hretain
      cases hretain

theorem step_edit_cases (w : ReclaimWorld) (spec : ValkeyNodeSpec) :
    w.step (.edit spec) = w ∨ ∃ o, w.server.stored = some o ∧
      w.step (.edit spec) = { w with server := w.server.write (ReclaimWorld.edited spec o) } := by
  unfold ReclaimWorld.step
  dsimp only
  rcases w.server.patch_cases (ReclaimWorld.edited spec) with hsame | ⟨o, hstored, hwrite⟩
  · rw [hsame]
    exact .inl rfl
  · rw [hwrite]
    exact .inr ⟨o, hstored, rfl⟩

theorem step_requestDeletion_cases (w : ReclaimWorld) :
    w.step .requestDeletion = w ∨ ∃ o, w.server.stored = some o ∧ ¬ o.terminating = true ∧
      w.step .requestDeletion =
        { w.put { o with terminating := true } with requested := some o.node } := by
  unfold ReclaimWorld.step
  dsimp only
  split
  · exact .inl rfl
  · rename_i o hstored
    split
    · exact .inl rfl
    · rename_i hstays
      exact .inr ⟨o, hstored, hstays, rfl⟩

theorem ReclaimKept.step (h : ReclaimKept w) (hpass : PassCurrent w) {event : ReclaimEvent}
    (hsettled : PolicySettled w event) : ReclaimKept (w.step event) := by
  cases event with
  | edit spec =>
    rcases step_edit_cases w spec with hsame | ⟨o, hstored, hwrite⟩
    · rw [hsame]
      exact h
    · rw [hwrite]
      refine h.write hstored rfl fun hleaving => ?_
      have hcleanup := (h.leaving o hstored hleaving).1
      exact ⟨hcleanup, hsettled o hstored hleaving hcleanup⟩
  | requestDeletion =>
    rcases step_requestDeletion_cases w with hsame | ⟨o, hstored, hstays, hrequest⟩
    · rw [hsame]
      exact h
    · rw [hrequest]
      exact h.request hstored hstays (hsettled o hstored)
  | claim claim => exact h.of_same rfl rfl rfl
  | fetch =>
    unfold ReclaimWorld.step
    dsimp only
    split
    · exact h.of_same rfl rfl rfl
    · exact h
  | finish faults =>
    unfold ReclaimWorld.step
    dsimp only
    split
    · exact h
    · rename_i copy version heq
      have hafter := (@reconcilePersistenceFinalizer_kept faults copy version).after
        ⟨h, hpass copy version heq⟩
      exact hafter.of_same rfl rfl rfl

/-- A pass still has what it has read if the stored node only changes, and stays torn down
if it was. -/
theorem PassCurrent.of_seen {v : ReclaimWorld} (h : PassCurrent w) (hpass : v.pass = w.pass)
    (hseen : ∀ copy, w.server.Seen copy → v.server.Seen copy)
    (hleaving : ∀ o, w.server.stored = some o → o.terminating = true →
      ∃ o', v.server.stored = some o' ∧ o'.terminating = true) : PassCurrent v := by
  intro copy version heq
  rw [hpass] at heq
  obtain ⟨hcopy, hcurrent⟩ := h copy version heq
  refine ⟨hseen _ hcopy, fun hterminating hcleanup => ?_⟩
  obtain ⟨o, hstored, ho⟩ := hcurrent hterminating hcleanup
  exact hleaving o hstored ho

theorem PassCurrent.step (h : PassCurrent w) (event : ReclaimEvent) :
    PassCurrent (w.step event) := by
  cases event with
  | edit spec =>
    rcases step_edit_cases w spec with hsame | ⟨o, hstored, hwrite⟩
    · rw [hsame]
      exact h
    · rw [hwrite]
      refine h.of_seen rfl (fun copy hcopy => hcopy.write _) fun p hp hleaving => ?_
      cases hstored.symm.trans hp
      exact ⟨_, rfl, hleaving⟩
  | requestDeletion =>
    rcases step_requestDeletion_cases w with hsame | ⟨o, hstored, hstays, hrequest⟩
    · rw [hsame]
      exact h
    · rw [hrequest]
      refine h.of_seen rfl (fun copy hcopy => ?_) fun p hp hleaving => ?_
      · unfold ReclaimWorld.put
        dsimp only
        split
        · exact hcopy.remove
        · exact hcopy.write _
      · cases hstored.symm.trans hp
        exact absurd hleaving hstays
  | claim claim => exact h.of_seen rfl (fun _ hcopy => hcopy) fun o hstored ho => ⟨o, hstored, ho⟩
  | fetch =>
    unfold ReclaimWorld.step
    dsimp only
    split
    · intro copy version heq
      refine ⟨Versioned.seen_object heq, fun hterminating _ => ⟨copy, ?_, hterminating⟩⟩
      exact congrArg (Option.map Prod.fst) heq
    · exact h
  | finish faults =>
    unfold ReclaimWorld.step
    dsimp only
    split
    · exact h
    · exact fun _ _ heq => nomatch heq

/-- A node before its deletion is requested, with no pass under way. -/
structure Undisturbed (w : ReclaimWorld) : Prop where
  stays : ∀ o, w.server.stored = some o → o.terminating = false
  pass : w.pass = none
  requested : w.requested = none
  deletions : w.deletions = []

/-- In a run that leaves the policy settled, the claim is deleted only while the spec says
Delete, and that of a node whose spec did not say so at the request is not. -/
theorem claim_deleted_under_policy {w v : ReclaimWorld} (hstart : Undisturbed w)
    (hrun : Runs ReclaimWorld.step PolicySettled w v) :
    (∀ d ∈ v.deletions, ∃ o, d = some o ∧ wantsPersistenceFinalizer o.node = true) ∧
      ∀ n, v.requested = some n → wantsPersistenceFinalizer n = false → v.deletions = [] := by
  have hkept : ReclaimKept w := by
    refine ⟨fun o ho hleaving => ?_, fun d hd => ?_, fun o ho => ?_, fun _ => hstart.deletions,
      fun n hn => ?_⟩
    · rw [hstart.stays o ho] at hleaving
      cases hleaving
    · rw [hstart.deletions] at hd
      cases hd
    · simp [hstart.stays o ho, hstart.requested]
    · rw [hstart.requested] at hn
      cases hn
  have hpass : PassCurrent w := by
    intro copy version heq
    rw [hstart.pass] at heq
    cases heq
  obtain ⟨h, -⟩ : ReclaimKept v ∧ PassCurrent v :=
    Runs.preserves (I := fun v => ReclaimKept v ∧ PassCurrent v)
      (fun _ event hsettled hw => ⟨hw.1.step hw.2 hsettled, hw.2.step event⟩) hrun ⟨hkept, hpass⟩
  exact ⟨h.deleted, fun n hn hretain => (h.retained n hn hretain).2⟩

def policySpec (policy : Str) : ValkeyNodeSpec :=
  { persistence := some { size := ⟨"1Gi", 2 ^ 30⟩, reclaimPolicy := policy } }

/-- A new node with a volume that goes with it. -/
def deleteNode : ReclaimWorld where
  ns := "db"
  server := Versioned.absent.write
    { node := { name := "prod-0-0", spec := policySpec reclaimDelete } }
  claim := .present

def teardownEvents : List ReclaimEvent :=
  [.fetch, .finish {}, .requestDeletion, .fetch, .finish {}]

theorem claim_deleted_under_policy_once :
    let w := teardownEvents.foldl ReclaimWorld.step deleteNode
    w.deletions.length = 1 ∧
      ∀ d ∈ w.deletions, ∃ o, d = some o ∧ wantsPersistenceFinalizer o.node = true := by
  intro w
  have hstart : Undisturbed deleteNode := by
    refine ⟨fun o ho => ?_, rfl, rfl, rfl⟩
    cases ho
    rfl
  have hrun : Runs ReclaimWorld.step PolicySettled deleteNode w := by
    refine Runs.of_allows ⟨trivial, trivial, fun o ho _ => ?_, trivial, trivial, trivial⟩
    cases ho
    rfl
  exact ⟨rfl, (claim_deleted_under_policy hstart hrun).1⟩

/-- The policy is Retain when the deletion is requested, but no pass has come by since. -/
theorem claim_deleted_under_retain :
    let w := [.fetch, .finish {}, .edit (policySpec reclaimRetain), .requestDeletion, .fetch,
      .finish {}].foldl ReclaimWorld.step deleteNode
    (w.requested.map wantsPersistenceFinalizer) = some false ∧
      w.deletions.map (Option.map fun o => wantsPersistenceFinalizer o.node) = [some false] := by
  decide +kernel

end ValkeyOperator.Node

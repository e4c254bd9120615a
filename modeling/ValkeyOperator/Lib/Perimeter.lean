import Mathlib.Data.List.Basic

/-! What a network policy lets through.

A policy is about the pods its selector matches. For each direction it lists, nothing goes
through for those pods but what one of the rules of that direction admits; a direction it
does not list is open. A rule without peers is about every peer, and one without ports about
every port. -/

namespace ValkeyOperator.Perimeter

variable {L : Type} [DecidableEq L]

/-! ## Selectors -/

inductive SelectorOperator where
  | isIn
  | notIn
  | present
  | absent
deriving DecidableEq

structure Requirement (L : Type) where
  key : L
  operator : SelectorOperator
  values : List L := []
deriving DecidableEq

structure LabelSelector (L : Type) where
  matchLabels : List (L × L) := []
  matchExpressions : List (Requirement L) := []
deriving DecidableEq

def Requirement.holds (r : Requirement L) (labels : L → Option L) : Bool :=
  match r.operator with
  | .isIn => (labels r.key).any (· ∈ r.values)
  | .notIn => !(labels r.key).any (· ∈ r.values)
  | .present => (labels r.key).isSome
  | .absent => (labels r.key).isNone

def LabelSelector.selects (s : LabelSelector L) (labels : L → Option L) : Bool :=
  s.matchLabels.all (fun (key, value) => labels key = some value) &&
    s.matchExpressions.all (·.holds labels)

/-! ## Policies -/

structure Pod (L : Type) where
  name : L
  ns : L
  nsLabels : L → Option L
  labels : L → Option L

structure Peer (L : Type) where
  podSelector : Option (LabelSelector L) := none
  namespaceSelector : Option (LabelSelector L) := none
deriving DecidableEq

inductive Transport where
  | tcp
  | udp
deriving DecidableEq

structure PolicyPort where
  transport : Transport
  port : Int
deriving DecidableEq

structure Rule (L : Type) where
  peers : List (Peer L) := []
  ports : List PolicyPort := []
deriving DecidableEq

inductive Direction where
  | ingress
  | egress
deriving DecidableEq

structure Policy (L : Type) where
  ns : L
  podSelector : LabelSelector L
  directions : List Direction
  ingress : List (Rule L)
  egress : List (Rule L)
deriving DecidableEq

/-- Without a namespace selector a peer is one of the policy's own namespace. -/
def Peer.admits (ns : L) (peer : Peer L) (pod : Pod L) : Bool :=
  match peer.namespaceSelector, peer.podSelector with
  | none, none => false
  | none, some pods => pod.ns = ns && pods.selects pod.labels
  | some spaces, none => spaces.selects pod.nsLabels
  | some spaces, some pods => spaces.selects pod.nsLabels && pods.selects pod.labels

def Rule.opens (rule : Rule L) (transport : Transport) (port : Int) : Bool :=
  rule.ports = [] || rule.ports.any (· = ⟨transport, port⟩)

def Rule.admits (ns : L) (rule : Rule L) (pod : Pod L) (transport : Transport) (port : Int) : Bool :=
  (rule.peers = [] || rule.peers.any (·.admits ns pod)) && rule.opens transport port

namespace Policy

variable (policy : Policy L)

def selects (pod : Pod L) : Bool := pod.ns = policy.ns && policy.podSelector.selects pod.labels

/-- What `dst` accepts from `src`. -/
def allowsIngress (src dst : Pod L) (transport : Transport) (port : Int) : Bool :=
  !policy.selects dst || !(.ingress ∈ policy.directions : Bool) ||
    policy.ingress.any (·.admits policy.ns src transport port)

/-- What `src` may send to `dst`. -/
def allowsEgress (src dst : Pod L) (transport : Transport) (port : Int) : Bool :=
  !policy.selects src || !(.egress ∈ policy.directions : Bool) ||
    policy.egress.any (·.admits policy.ns dst transport port)

variable {policy} {src dst : Pod L} {transport : Transport} {port : Int}

theorem allowsIngress_of_rule {rule : Rule L} (hrule : rule ∈ policy.ingress)
    (h : rule.admits policy.ns src transport port = true) :
    policy.allowsIngress src dst transport port = true := by
  unfold allowsIngress
  rw [List.any_eq_true.mpr ⟨rule, hrule, h⟩, Bool.or_true]

/-- A port that no rule opens is closed for the pods the policy is about. -/
theorem not_allowsEgress (hselects : policy.selects src = true) (hdirection : .egress ∈ policy.directions)
    (hclosed : ∀ rule ∈ policy.egress, rule.opens transport port = false) :
    policy.allowsEgress src dst transport port = false := by
  unfold allowsEgress
  have hnone : policy.egress.any (·.admits policy.ns dst transport port) = false := by
    refine List.any_eq_false.mpr fun rule hrule hadmits => ?_
    rw [Rule.admits, hclosed rule hrule, Bool.and_false] at hadmits
    cases hadmits
  rw [hselects, hnone]
  simpa using hdirection

end Policy

end ValkeyOperator.Perimeter

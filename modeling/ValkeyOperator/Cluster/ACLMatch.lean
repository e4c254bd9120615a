import Mathlib.Data.Finset.Card
import Mathlib.Data.List.Dedup
import ValkeyOperator.Lib.Inserts
import ValkeyOperator.Cluster.UsersACL

/-! Comparing the ACL a node has loaded with the rendered one
(`perconavalkeycluster/acl.go`).

The comparison retains the on/off state, the passwords and the command rules of
each user, as sets, and looks only at the users of the rendered file. The engine applies the
rules of a user one after another. -/

namespace ValkeyOperator.Cluster
open Text Valkey

variable {toks toks' : List Str}

/-- What the comparison makes of a token. -/
inductive Retained where
  | state
  | password
  | command
  | dropped
deriving DecidableEq

def retained (t : Str) : Retained :=
  if t = "on" ∨ t = "off" then .state
  else if t = "nopass" then .password
  else
    match t with
    | '#' :: _ | '>' :: _ | '<' :: _ => .password
    | '+' :: _ | '-' :: _ => .command
    | _ => .dropped

structure ACLUserRules where
  enabled : Str := []
  passwords : Finset Str := ∅
  commands : Finset Str := ∅

def ACLUserRules.add (r : ACLUserRules) (t : Str) : ACLUserRules :=
  match retained t with
  | .state => { r with enabled := t }
  | .password => { r with passwords := insert t r.passwords }
  | .command => { r with commands := insert t r.commands }
  | .dropped => r

def userRules (toks : List Str) : ACLUserRules := toks.foldl ACLUserRules.add {}

/-- A line of an ACL: the user it defines and its tokens. -/
def userEntry (line : Str) : Option (Str × List Str) :=
  match fields line with
  | keyword :: name :: toks => if keyword = "user" then some (name, toks) else none
  | _ => none

def userEntries (body : Str) : List (Str × List Str) := (lines body).filterMap userEntry

/-- Of several lines for one user the last counts. -/
def parseACLUsers (body : Str) : GoMap Str ACLUserRules :=
  (userEntries body).foldl (fun users e => users.insert e.1 (userRules e.2)) ∅

def denyAll : Str := "-@all"

def normalizeBaselineDeny (cmds : Finset Str) : Finset Str :=
  if denyAll ∉ cmds ∨ cmds.card ≤ 1 then cmds else cmds.erase denyAll

def tokenSetsEqual (a b : Finset Str) : Bool := a.card = b.card && decide (∀ t ∈ a, t ∈ b)

def equalACLRules (want got : ACLUserRules) : Bool :=
  if want.enabled ≠ got.enabled then false
  else if !tokenSetsEqual want.passwords got.passwords then false
  else tokenSetsEqual (normalizeBaselineDeny want.commands) (normalizeBaselineDeny got.commands)

/-- Whether the listing has every user of `want` with equal rules. -/
def nodeACLMatches (aclList : Except Err (List Str)) (want : GoMap Str ACLUserRules) :
    Except Err Bool := do
  let listing ← aclList
  let got := parseACLUsers (join ['\n'] listing)
  pure (want.entries.all fun e =>
    match got.lookup e.1 with
    | some gotRules => equalACLRules e.2 gotRules
    | none => false)

/-! ## What the engine lists -/

/-- The users of a file as the engine loads it, with their tokens. -/
def loadedUsers (content : Str) : GoMap Str (List Str) :=
  (userEntries content).foldl (fun users e => users.insert e.1 e.2) ∅

/-- The engine puts its implicit denial before rules that have no baseline. -/
def listedTokens (toks : List Str) : List Str :=
  if "+@all".toList ∈ toks ∨ denyAll ∈ toks then toks else denyAll :: toks

def listedLine (name : Str) (toks : List Str) : Str :=
  "user " ++ name ++ (listedTokens toks).flatMap (' ' :: ·)

/-- The listing of a node that has loaded the file. -/
def aclListing (content : Str) : List Str :=
  (loadedUsers content).entries.map fun e => listedLine e.1 e.2

/-! ## The listing is read back -/

theorem lookup_foldl_entries {α β γ : Type} [DecidableEq α] (f : β → γ) (m : GoMap α β) (k : α) :
    ((m.entries.map fun e => (e.1, f e.2)).foldl (fun users e => users.insert e.1 e.2)
      (∅ : GoMap α γ)).lookup k = (m.lookup k).map f := by
  have hkeys : ((m.entries.map fun e => (e.1, f e.2)).map Prod.fst).Nodup := by
    rw [List.map_map]
    exact m.nodupKeys
  cases hlookup : m.lookup k with
  | none =>
    refine Inserts.lookup_of_not_mem fun e he hkey => ?_
    obtain ⟨e', he', rfl⟩ := List.mem_map.mp he
    have hsome : m.lookup e'.1 = some e'.2 := AList.mem_lookup_iff.mpr he'
    rw [show e'.1 = k from hkey, hlookup] at hsome
    cases hsome
  | some v =>
    have hentry : (⟨k, v⟩ : Sigma fun _ : α => β) ∈ m.entries := AList.mem_lookup_iff.mp hlookup
    exact Inserts.lookup_of_nodup hkeys (List.mem_map.mpr ⟨_, hentry, rfl⟩)

theorem userEntries_words {body : Str} {e : Str × List Str} (h : e ∈ userEntries body) :
    IsWord e.1 ∧ ∀ t ∈ e.2, IsWord t := by
  obtain ⟨line, -, hentry⟩ := List.mem_filterMap.mp h
  unfold userEntry at hentry
  split at hentry
  · rename_i keyword name toks hfields
    split at hentry
    · cases hentry
      have hwords : ∀ w ∈ fields line, IsWord w := fun w => isWord_of_mem_fields
      rw [hfields] at hwords
      obtain ⟨-, hname, htoks⟩ := List.forall_mem_cons.mp hwords |>.imp id List.forall_mem_cons.mp
      exact ⟨hname, htoks⟩
    · cases hentry
  · cases hentry

theorem loadedUsers_words {content name : Str} (h : (loadedUsers content).lookup name = some toks) :
    IsWord name ∧ ∀ t ∈ listedTokens toks, IsWord t := by
  unfold loadedUsers at h
  rcases Inserts.mem_of_lookup h with ⟨e, he, rfl, rfl⟩ | hempty
  swap
  · cases hempty
  obtain ⟨hname, htoks⟩ := userEntries_words he
  refine ⟨hname, ?_⟩
  unfold listedTokens
  split
  · exact htoks
  · exact List.forall_mem_cons.mpr ⟨by decide, htoks⟩

theorem break_not_mem_word {w : Str} (h : IsWord w) : '\n' ∉ w := fun hmem =>
  absurd (h.2 _ hmem) (by decide)

theorem userEntry_listedLine {name : Str} (hname : IsWord name)
    (htoks : ∀ t ∈ listedTokens toks, IsWord t) :
    userEntry (listedLine name toks) = some (name, listedTokens toks) := by
  have hfields : fields (listedLine name toks) =
      "user".toList :: name :: listedTokens toks := by
    unfold listedLine
    rw [fields_append_words htoks, fields_user name, fields_of_word hname]
    rfl
  rw [userEntry, hfields]
  exact if_pos rfl

theorem break_not_mem_listedLine {name : Str} (hname : IsWord name)
    (htoks : ∀ t ∈ listedTokens toks, IsWord t) : '\n' ∉ listedLine name toks := by
  have hrest : '\n' ∉ (listedTokens toks).flatMap (' ' :: ·) := by
    intro hmem
    obtain ⟨t, ht, hmem⟩ := List.mem_flatMap.mp hmem
    rcases List.mem_cons.mp hmem with hblank | hmem
    · exact absurd hblank (by decide)
    · exact break_not_mem_word (htoks t ht) hmem
  unfold listedLine
  simp only [List.mem_append, break_not_mem_word hname, hrest, or_false]
  decide

theorem userEntries_aclListing (content : Str) :
    userEntries (join ['\n'] (aclListing content)) =
      (loadedUsers content).entries.map fun e => (e.1, listedTokens e.2) := by
  have hwords : ∀ e ∈ (loadedUsers content).entries,
      IsWord e.1 ∧ ∀ t ∈ listedTokens e.2, IsWord t :=
    fun e he => loadedUsers_words (AList.mem_lookup_iff.mpr he)
  have hlines : userEntries (join ['\n'] (aclListing content)) =
      (aclListing content).filterMap userEntry := by
    by_cases hnil : aclListing content = []
    · rw [hnil]
      rfl
    · refine congrArg (List.filterMap userEntry) (List.splitOn_intercalate '\n' ?_ hnil)
      intro line hline
      obtain ⟨e, he, rfl⟩ := List.mem_map.mp hline
      exact break_not_mem_listedLine (hwords e he).1 (hwords e he).2
  rw [hlines, aclListing, List.filterMap_map, ← List.filterMap_eq_map]
  refine List.filterMap_congr fun e he => ?_
  exact userEntry_listedLine (hwords e he).1 (hwords e he).2

theorem lookup_parseACLUsers (body name : Str) :
    (parseACLUsers body).lookup name = ((loadedUsers body).lookup name).map userRules :=
  Inserts.lookup_map userRules rfl

theorem lookup_aclListing (content name : Str) :
    (parseACLUsers (join ['\n'] (aclListing content))).lookup name =
      ((loadedUsers content).lookup name).map fun toks => userRules (listedTokens toks) := by
  rw [lookup_parseACLUsers, loadedUsers, userEntries_aclListing, lookup_foldl_entries,
    Option.map_map]
  rfl

/-- The listing of `old` is accepted for `new` when every user of `new` is one of
`old` with equal rules. -/
theorem nodeACLMatches_iff (new old : Str) :
    nodeACLMatches (.ok (aclListing old)) (parseACLUsers new) = .ok true ↔
      ∀ name toks, (loadedUsers new).lookup name = some toks →
        ∃ toks', (loadedUsers old).lookup name = some toks' ∧
          equalACLRules (userRules toks) (userRules (listedTokens toks')) = true := by
  have hall : nodeACLMatches (.ok (aclListing old)) (parseACLUsers new) = .ok true ↔
      ∀ e ∈ (parseACLUsers new).entries,
        (match (parseACLUsers (join ['\n'] (aclListing old))).lookup e.1 with
          | some gotRules => equalACLRules e.2 gotRules
          | none => false) = true := by
    rw [← List.all_eq_true]
    exact ⟨fun h => Except.ok.inj h, fun h => congrArg Except.ok h⟩
  rw [hall]
  constructor
  · intro h name toks hlookup
    have hwant : (parseACLUsers new).lookup name = some (userRules toks) := by
      rw [lookup_parseACLUsers, hlookup]
      rfl
    have hentry := h ⟨name, userRules toks⟩ (AList.mem_lookup_iff.mp hwant)
    rw [lookup_aclListing] at hentry
    cases hold : (loadedUsers old).lookup name with
    | none =>
      rw [hold] at hentry
      cases hentry
    | some toks' =>
      rw [hold] at hentry
      exact ⟨toks', rfl, hentry⟩
  · rintro h ⟨name, rules⟩ he
    have hwant := AList.mem_lookup_iff.mpr he
    rw [Option.mem_def, lookup_parseACLUsers, Option.map_eq_some_iff] at hwant
    obtain ⟨toks, hlookup, rfl⟩ := hwant
    obtain ⟨toks', hold, hequal⟩ := h name toks hlookup
    dsimp only
    rw [lookup_aclListing, hold]
    exact hequal

/-! ## What the comparison sees -/

theorem mem_userRules (toks : List Str) (t : Str) :
    (t ∈ (userRules toks).passwords ↔ t ∈ toks ∧ retained t = .password) ∧
      (t ∈ (userRules toks).commands ↔ t ∈ toks ∧ retained t = .command) := by
  suffices ∀ (toks : List Str) (r : ACLUserRules),
      (t ∈ (toks.foldl ACLUserRules.add r).passwords ↔
        t ∈ r.passwords ∨ t ∈ toks ∧ retained t = .password) ∧
      (t ∈ (toks.foldl ACLUserRules.add r).commands ↔
        t ∈ r.commands ∨ t ∈ toks ∧ retained t = .command) by
    obtain ⟨hpasswords, hcommands⟩ := this toks {}
    exact ⟨hpasswords.trans (by simp), hcommands.trans (by simp)⟩
  intro toks
  induction toks with
  | nil => simp
  | cons t' toks ih =>
    intro r
    have hstep : (t ∈ (r.add t').passwords ↔
          t ∈ r.passwords ∨ t = t' ∧ retained t = .password) ∧
        (t ∈ (r.add t').commands ↔ t ∈ r.commands ∨ t = t' ∧ retained t = .command) := by
      unfold ACLUserRules.add
      by_cases heq : t = t'
      · subst heq
        cases retained t <;> simp
      · cases retained t' <;> simp [heq]
    rw [List.foldl_cons, (ih _).1, (ih _).2, hstep.1, hstep.2, List.mem_cons, or_and_right,
      or_and_right, or_assoc, or_assoc]
    exact ⟨Iff.rfl, Iff.rfl⟩

/-- The state of a user: the last of its on/off tokens. -/
def lastState (toks : List Str) : Str := (userRules toks).enabled

theorem enabled_foldl (toks : List Str) {r r' : ACLUserRules} (h : r.enabled = r'.enabled) :
    (toks.foldl ACLUserRules.add r).enabled = (toks.foldl ACLUserRules.add r').enabled := by
  induction toks generalizing r r' with
  | nil => exact h
  | cons t toks ih =>
    refine ih ?_
    unfold ACLUserRules.add
    cases retained t <;> first | rfl | exact h

theorem lastState_listedTokens (toks : List Str) : lastState (listedTokens toks) = lastState toks := by
  unfold listedTokens
  split
  · rfl
  · exact enabled_foldl toks rfl

theorem tokenSetsEqual_iff {a b : Finset Str} : tokenSetsEqual a b = true ↔ a = b := by
  unfold tokenSetsEqual
  rw [Bool.and_eq_true, decide_eq_true_eq, decide_eq_true_eq]
  constructor
  · rintro ⟨hcard, hsub⟩
    exact Finset.eq_of_subset_of_card_le hsub hcard.ge
  · rintro rfl
    exact ⟨rfl, fun t ht => ht⟩

theorem normalizeBaselineDeny_eq (cmds : Finset Str) :
    normalizeBaselineDeny cmds = if cmds = {denyAll} then {denyAll} else cmds.erase denyAll := by
  unfold normalizeBaselineDeny
  by_cases hone : cmds = {denyAll}
  · simp [hone]
  · rw [if_neg hone]
    by_cases hmem : denyAll ∈ cmds
    · have hcard : ¬ cmds.card ≤ 1 := by
        intro hle
        refine hone (Finset.eq_singleton_iff_unique_mem.mpr ⟨hmem, fun t ht => ?_⟩)
        exact Finset.card_le_one.mp hle t ht denyAll hmem
      rw [if_neg (by simp [hmem, hcard])]
    · rw [if_pos (.inl hmem), Finset.erase_eq_of_notMem hmem]

theorem normalizeBaselineDeny_inj {want got : Finset Str} (h : got ≠ ∅) :
    normalizeBaselineDeny want = normalizeBaselineDeny got ↔
      want ≠ ∅ ∧ want.erase denyAll = got.erase denyAll := by
  have hnot : ∀ s : Finset Str, s.erase denyAll ≠ {denyAll} := fun s heq =>
    Finset.notMem_erase denyAll s (heq ▸ Finset.mem_singleton_self denyAll)
  rw [normalizeBaselineDeny_eq, normalizeBaselineDeny_eq]
  by_cases hwant : want = {denyAll}
  · by_cases hgot : got = {denyAll}
    · simp [hwant, hgot]
    · rw [if_pos hwant, if_neg hgot]
      refine ⟨fun heq => absurd heq.symm (hnot got), fun ⟨_, heq⟩ => absurd ?_ hgot⟩
      rw [hwant, Finset.erase_singleton] at heq
      exact (Finset.erase_eq_empty_iff got denyAll |>.mp heq.symm).resolve_left h
  · rw [if_neg hwant]
    by_cases hgot : got = {denyAll}
    · rw [if_pos hgot]
      refine ⟨fun heq => absurd heq (hnot want), fun ⟨hne, heq⟩ => absurd ?_ hwant⟩
      rw [hgot, Finset.erase_singleton] at heq
      exact (Finset.erase_eq_empty_iff want denyAll |>.mp heq).resolve_left hne
    · rw [if_neg hgot]
      refine ⟨fun heq => ⟨fun hempty => hgot ?_, heq⟩, And.right⟩
      rw [hempty, Finset.erase_empty] at heq
      exact (Finset.erase_eq_empty_iff got denyAll |>.mp heq.symm).resolve_left h

/-- The tokens of two files for one user as far as they are compared: the new ones
have a command rule at all, and the denial of everything does not count. -/
structure Alike (toks toks' : List Str) : Prop where
  state : lastState toks = lastState toks'
  passwords : ∀ t, retained t = .password → (t ∈ toks ↔ t ∈ toks')
  commands : ∀ t, retained t = .command → t ≠ denyAll → (t ∈ toks ↔ t ∈ toks')
  commanded : ∃ t ∈ toks, retained t = .command

theorem mem_listedTokens {t : Str} (h : t ≠ denyAll) : t ∈ listedTokens toks ↔ t ∈ toks := by
  unfold listedTokens
  split
  · rfl
  · simp [h]

theorem passwords_listed_iff :
    (userRules toks).passwords = (userRules (listedTokens toks')).passwords ↔
      ∀ t, retained t = .password → (t ∈ toks ↔ t ∈ toks') := by
  rw [Finset.ext_iff]
  refine forall_congr' fun t => ?_
  rw [(mem_userRules toks t).1, (mem_userRules (listedTokens toks') t).1]
  by_cases ht : retained t = .password
  · have hne : t ≠ denyAll := by
      rintro rfl
      exact absurd ht (by decide)
    simp [ht, mem_listedTokens hne]
  · simp [ht]

theorem commands_listed_iff :
    (userRules toks).commands.erase denyAll =
        (userRules (listedTokens toks')).commands.erase denyAll ↔
      ∀ t, retained t = .command → t ≠ denyAll → (t ∈ toks ↔ t ∈ toks') := by
  rw [Finset.ext_iff]
  refine forall_congr' fun t => ?_
  rw [Finset.mem_erase, Finset.mem_erase, (mem_userRules toks t).2,
    (mem_userRules (listedTokens toks') t).2]
  by_cases ht : retained t = .command
  · by_cases hne : t = denyAll
    · simp [hne]
    · simp [ht, hne, mem_listedTokens hne]
  · simp [ht]

theorem commands_nonempty_iff :
    (userRules toks).commands ≠ ∅ ↔ ∃ t ∈ toks, retained t = .command := by
  rw [← Finset.nonempty_iff_ne_empty]
  exact exists_congr fun t => (mem_userRules toks t).2

theorem commands_listedTokens (toks : List Str) : (userRules (listedTokens toks)).commands ≠ ∅ := by
  rw [commands_nonempty_iff]
  unfold listedTokens
  split
  · rename_i hbase
    rcases hbase with hbase | hbase
    · exact ⟨_, hbase, by decide⟩
    · exact ⟨_, hbase, by decide⟩
  · exact ⟨denyAll, List.mem_cons_self, by decide⟩

theorem equalACLRules_iff :
    equalACLRules (userRules toks) (userRules (listedTokens toks')) = true ↔ Alike toks toks' := by
  have hequal : equalACLRules (userRules toks) (userRules (listedTokens toks')) = true ↔
      lastState toks = lastState (listedTokens toks') ∧
      (userRules toks).passwords = (userRules (listedTokens toks')).passwords ∧
      normalizeBaselineDeny (userRules toks).commands =
        normalizeBaselineDeny (userRules (listedTokens toks')).commands := by
    rw [← tokenSetsEqual_iff, ← tokenSetsEqual_iff]
    unfold equalACLRules lastState
    split
    · rename_i hne
      simp [hne]
    · rename_i heq
      rw [not_not] at heq
      split
      · rename_i hne
        rw [Bool.not_eq_true'] at hne
        simp [hne]
      · rename_i hpasswords
        rw [Bool.not_eq_true', Bool.not_eq_false] at hpasswords
        simp [heq, hpasswords]
  rw [hequal, normalizeBaselineDeny_inj (commands_listedTokens toks'), lastState_listedTokens,
    passwords_listed_iff, commands_listed_iff, commands_nonempty_iff]
  exact ⟨fun ⟨h1, h2, h3, h4⟩ => ⟨h1, h2, h4, h3⟩,
    fun h => ⟨h.state, h.passwords, h.commanded, h.commands⟩⟩

/-! ## What an accepted node has -/

/-- What a token is a rule about, in the engine's grammar; a reset and the tokens of a selector
are about the user as a whole. -/
inductive RuleKind where
  | state
  | whole
  | password
  | command
  | key
  | channel
  | other
deriving DecidableEq

def ruleKind (t : Str) : RuleKind :=
  if t ∈ ["on".toList, "off"] then .state
  else if t ∈ ["reset".toList, "clearselectors"] ∨ '(' ∈ t ∨ ')' ∈ t then .whole
  else if t ∈ ["nopass".toList, "resetpass"] then .password
  else if t ∈ ["allcommands".toList, "nocommands"] then .command
  else if t ∈ ["allkeys".toList, "resetkeys"] then .key
  else if t ∈ ["allchannels".toList, "resetchannels"] then .channel
  else
    match t with
    | '#' :: _ | '>' :: _ | '<' :: _ | '!' :: _ => .password
    | '+' :: _ | '-' :: _ => .command
    | '~' :: _ | '%' :: _ => .key
    | '&' :: _ => .channel
    | _ => .other

def IsRule (t : Str) : Prop := ruleKind t ∈ [.whole, .password, .command, .key, .channel]

instance (t : Str) : Decidable (IsRule t) :=
  inferInstanceAs (Decidable (ruleKind t ∈ [.whole, .password, .command, .key, .channel]))

/-- What a rule does to the others of its kind. -/
inductive RuleEffect where
  | adds
  | removes
  | replaces
deriving DecidableEq

def ruleEffect (t : Str) : RuleEffect :=
  if t = "allcommands" then .adds
  else if t = "nocommands" then .removes
  else
    match t with
    | '#' :: _ | '>' :: _ | '+' :: _ | '~' :: _ | '%' :: _ | '&' :: _ => .adds
    | '<' :: _ | '!' :: _ | '-' :: _ => .removes
    | _ => .replaces

/-- The order of the rules counts: they are about the same, and do not both add or both
remove. -/
def Opposed (t u : Str) : Prop :=
  IsRule t ∧ IsRule u ∧ (ruleKind t = ruleKind u ∨ ruleKind t = .whole ∨ ruleKind u = .whole) ∧
    (ruleEffect t = ruleEffect u → ruleKind t = .whole ∨ ruleKind u = .whole ∨
      ruleEffect t = .replaces)

/-- The last `t` stands before the last `u`. -/
def AppliedBefore (t u : Str) (toks : List Str) : Prop := [t, u].Sublist toks.dedup

/-- The rules in their order; those of a selector stand between its parentheses. -/
def orderedRules (toks : List Str) : List Str := toks.filter fun t => IsRule t

def HasSelector (toks : List Str) : Prop := ∃ t ∈ toks, '(' ∈ t ∨ ')' ∈ t

/-- A user starts off. -/
def turnedOn (toks : List Str) : Bool :=
  toks.foldl (fun on t => if t = "on".toList then true
    else if t ∈ ["off".toList, "reset"] then false else on) false

/-- The same state, and the same rules of each kind in an order that comes to the same. With a
selector a rule may be meant for it or for the user, so all of them are in the same order. -/
structure SameGrants (toks toks' : List Str) : Prop where
  state : turnedOn toks = turnedOn toks'
  rules : ∀ t, IsRule t → (t ∈ toks ↔ t ∈ toks')
  order : ∀ t u, Opposed t u → (AppliedBefore t u toks ↔ AppliedBefore t u toks')
  selectors : HasSelector toks → orderedRules toks = orderedRules toks'

/-- A node that has loaded `old` has the users of `new` and no others, and grants
each of them the same. -/
structure Acknowledged (new old : Str) : Prop where
  users : ∀ name ∈ loadedUsers old, name ∈ loadedUsers new
  grants : ∀ name toks, (loadedUsers new).lookup name = some toks →
    ∃ toks', (loadedUsers old).lookup name = some toks' ∧
      SameGrants (listedTokens toks) (listedTokens toks')

/-- Some user of `new` is not in `old`, or differs there in what is compared. -/
def Edited (new old : Str) : Prop :=
  ∃ name toks, (loadedUsers new).lookup name = some toks ∧
    ∀ toks', (loadedUsers old).lookup name = some toks' → ¬ Alike toks toks'

/-- What is not compared of a user: the other rules, the baseline, the order of the rules, and
whether the user is on behind a reset. -/
structure SameHidden (toks toks' : List Str) : Prop where
  rules : ∀ t, IsRule t → retained t = .dropped → (t ∈ toks ↔ t ∈ toks')
  baseline : denyAll ∈ listedTokens toks ↔ denyAll ∈ listedTokens toks'
  order : ∀ t u, Opposed t u →
    (AppliedBefore t u (listedTokens toks) ↔ AppliedBefore t u (listedTokens toks'))
  selectors : HasSelector toks →
    orderedRules (listedTokens toks) = orderedRules (listedTokens toks')
  state : turnedOn toks = turnedOn toks'

/-- Nothing that is not compared differs: no user was removed, and those that are left have
the same of it. -/
structure Unhidden (new old : Str) : Prop where
  users : ∀ name ∈ loadedUsers old, name ∈ loadedUsers new
  hidden : ∀ name toks toks', (loadedUsers new).lookup name = some toks →
    (loadedUsers old).lookup name = some toks' → SameHidden toks toks'

theorem accepted_iff_not_edited (new old : Str) :
    nodeACLMatches (.ok (aclListing old)) (parseACLUsers new) = .ok true ↔ ¬ Edited new old := by
  rw [nodeACLMatches_iff]
  unfold Edited
  simp only [equalACLRules_iff, not_exists, not_and, not_forall, not_not]
  refine forall_congr' fun name => forall_congr' fun toks => forall_congr' fun _ => ?_
  exact ⟨fun ⟨toks', hold, halike⟩ => ⟨toks', hold, halike⟩,
    fun ⟨toks', hold, halike⟩ => ⟨toks', hold, halike⟩⟩

theorem retained_of_isRule {t : Str} (h : IsRule t) : retained t ≠ .state := by
  intro hstate
  have hflag : t = "on" ∨ t = "off" := by
    unfold retained at hstate
    split at hstate
    · assumption
    · split at hstate
      · cases hstate
      · split at hstate <;> cases hstate
  rcases hflag with rfl | rfl
  · exact absurd h (by decide)
  · exact absurd h (by decide)

theorem turnedOn_listedTokens (toks : List Str) : turnedOn (listedTokens toks) = turnedOn toks := by
  unfold listedTokens
  split <;> rfl

theorem hasSelector_listedTokens : HasSelector (listedTokens toks) ↔ HasSelector toks := by
  unfold HasSelector
  refine exists_congr fun t => and_congr_left fun hselector => mem_listedTokens ?_
  rintro rfl
  exact absurd hselector (by decide)

/-- The comparison and what it leaves out make up what is granted. -/
theorem Alike.sameGrants_iff (h : Alike toks toks') :
    SameGrants (listedTokens toks) (listedTokens toks') ↔ SameHidden toks toks' := by
  constructor
  · intro hsame
    refine ⟨fun t ht hdropped => ?_, hsame.rules denyAll (by decide), hsame.order,
      fun hselector => hsame.selectors (hasSelector_listedTokens.mpr hselector), ?_⟩
    · have hne : t ≠ denyAll := by
        rintro rfl
        exact absurd hdropped (by decide)
      rw [← mem_listedTokens hne, hsame.rules t ht, mem_listedTokens hne]
    · rw [← turnedOn_listedTokens toks, hsame.state, turnedOn_listedTokens]
  · intro hhidden
    refine ⟨?_, fun t ht => ?_, hhidden.order,
      fun hselector => hhidden.selectors (hasSelector_listedTokens.mp hselector)⟩
    · rw [turnedOn_listedTokens, hhidden.state, turnedOn_listedTokens]
    · by_cases hne : t = denyAll
      · rw [hne]
        exact hhidden.baseline
      · rw [mem_listedTokens hne, mem_listedTokens hne]
        cases hkept : retained t with
        | state => exact absurd hkept (retained_of_isRule ht)
        | password => exact h.passwords t hkept
        | command => exact h.commands t hkept hne
        | dropped => exact hhidden.rules t ht hkept

def getUser (name pattern : String) : UserACLSpec :=
  { name := name.toList, nopass := true, keys := some { readWrite := [pattern.toList] },
    commands := some { allow := ["get"] } }

end ValkeyOperator.Cluster

import ValkeyOperator.Lib.Lines
import ValkeyOperator.Valkey.Scrape

/-! The CLUSTER NODES text of an engine, and what is read from it (`ParseClusterNodes` of
`state.go`).

A line has eight words and the slot words behind them. Lines with fewer words are passed
over, and a slot word that cannot be read costs the slots of its own line: the other
records come back as they were written. -/

namespace ValkeyOperator.Valkey
open Text

/-! ## Records -/

def hexDigits : Str := "0123456789abcdefABCDEF"

def IsHex (s : Str) : Prop := s ≠ [] ∧ ∀ c ∈ s, c ∈ hexDigits

instance (s : Str) : Decidable (IsHex s) :=
  decidable_of_iff (s ≠ [] ∧ s.all (hexDigits.contains ·) = true) (by simp [IsHex])

/-- A slot, a range of slots, or the marker of a slot that is imported or migrated. -/
inductive SlotWord where
  | slot (n : Nat) (fits : n < 2 ^ 63)
  | range (start stop : Nat) (ordered : start ≤ stop) (fits : stop < 2 ^ 63)
  | marker (text : Str) (plain : ∀ c ∈ text, isSpace c = false)

namespace SlotWord

def text : SlotWord → Str
  | slot n _ => itoa n
  | range start stop _ _ => itoa start ++ '-' :: itoa stop
  | marker text _ => '[' :: text

def ranges : SlotWord → List SlotRange
  | slot n _ => [⟨n, n⟩]
  | range start stop _ _ => [⟨start, stop⟩]
  | marker _ _ => []

end SlotWord

/-- What an engine says about a node. -/
structure NodeRecord where
  id : Str
  host : Str
  port : Nat
  busPort : Nat
  hostname : Option Str
  flags : List Str
  primary : Option Str
  ping : Str
  pong : Str
  epoch : Int
  link : Str
  slots : List SlotWord
  id_hex : IsHex id
  host_plain : ∀ c ∈ host, isSpace c = false ∧ c ≠ ',' ∧ c ≠ '@'
  busPort_fits : busPort < 2 ^ 63
  hostname_plain : ∀ h, hostname = some h → ∀ c ∈ h, isSpace c = false
  flagged : flags ≠ []
  flag_words : ∀ f ∈ flags, IsWord f ∧ ',' ∉ f
  primary_hex : ∀ p, primary = some p → IsHex p
  times : IsWord ping ∧ IsWord pong
  link_word : IsWord link
  epoch_fits : -(2 ^ 63) ≤ epoch ∧ epoch < 2 ^ 63

/-- A slot word that cannot be read, and where it stands among the others. -/
structure Damage where
  position : Nat
  word : Str
  is_word : IsWord word
  no_marker : hasPrefix word ['['] = false
  unreadable : ∃ e, parseSlotRange word = .error e

namespace NodeRecord

variable (r : NodeRecord)

def addr : Str := r.host ++ ':' :: itoa r.port

/-- The address word. -/
def addrField : Str :=
  r.addr ++ '@' :: itoa r.busPort ++ (match r.hostname with | none => [] | some h => ',' :: h)

def slotWords (damage : Option Damage) : List Str :=
  match damage with
  | none => r.slots.map SlotWord.text
  | some d =>
    (r.slots.take d.position).map SlotWord.text ++
      d.word :: (r.slots.drop d.position).map SlotWord.text

/-- The words behind the ID. -/
def words (damage : Option Damage) : List Str :=
  [r.addrField, join [','] r.flags, r.primary.getD noPrimary, r.ping, r.pong, itoa r.epoch, r.link] ++
    r.slotWords damage

/-- The line of a node, with a word among its slots that cannot be read if there is one. -/
def line (damage : Option Damage) : Str := r.id ++ (r.words damage).flatMap (' ' :: ·)

/-- The node that is read from it. -/
def nodeState (damage : Option Damage) (peers : GoMap Str PeerView) : NodeState where
  id := r.id
  addr := r.addr
  busPort := r.busPort
  flags := r.flags
  primaryID := r.primary.getD []
  configEpoch := r.epoch
  role := if r.flags.contains flagMaster then .primary else .replica
  offset := -1
  slots := if damage.isSome then [] else r.slots.flatMap SlotWord.ranges
  peers := peers

end NodeRecord

/-- A line of the text: that of a node, or one that is too short for it. -/
inductive NodesLine where
  | node (record : NodeRecord) (damage : Option Damage)
  | short (text : Str) (no_break : '\n' ∉ text) (few : (fields text).length < 8)

namespace NodesLine

def text : NodesLine → Str
  | node r damage => r.line damage
  | short text _ _ => text

def nodeState? (peers : GoMap Str PeerView) : NodesLine → Option NodeState
  | node r damage => some (r.nodeState damage peers)
  | short _ _ _ => none

end NodesLine

/-- The whole text, with or without the mark of a verbatim string. -/
def nodesText (marked : Bool) (doc : List NodesLine) : Str :=
  (if marked then "txt:".toList else []) ++ join ['\n'] (doc.map NodesLine.text)

/-! ## Words -/

theorem isWord_of_isHex {s : Str} (h : IsHex s) : IsWord s := by
  have hplain : ∀ c ∈ hexDigits, isSpace c = false := by
    have hall : hexDigits.all (fun c => !isSpace c) = true := by decide
    simpa using hall
  exact ⟨h.1, fun c hc => hplain c (h.2 c hc)⟩

theorem not_mem_itoa {c : Char} (hc : c.isDigit = false) (n : Nat) : c ∉ itoa n := by
  intro hmem
  rw [isDigit_of_mem_itoa (Int.natCast_nonneg n) hmem] at hc
  cases hc

theorem SlotWord.isWord (w : SlotWord) : IsWord w.text := by
  cases w with
  | slot n _ => exact isWord_itoa n
  | range start stop _ _ =>
    refine ⟨by simp [SlotWord.text], fun c hc => ?_⟩
    rcases List.mem_append.mp hc with hc | hc
    · exact (isWord_itoa start).2 c hc
    · rcases List.mem_cons.mp hc with rfl | hc
      · decide
      · exact (isWord_itoa stop).2 c hc
  | marker text plain =>
    exact ⟨List.cons_ne_nil _ _, List.forall_mem_cons.mpr ⟨by decide, plain⟩⟩

section Record

variable (r : NodeRecord)

theorem NodeRecord.isWord_addrField : IsWord r.addrField := by
  have hhost : ∀ c ∈ r.host, isSpace c = false := fun c hc => (r.host_plain c hc).1
  have hend : ∀ c ∈ (match r.hostname with | none => [] | some h => ',' :: h), isSpace c = false := by
    cases hname : r.hostname with
    | none => simp
    | some h => exact List.forall_mem_cons.mpr ⟨by decide, r.hostname_plain h hname⟩
  refine ⟨by simp [addrField, addr], ?_⟩
  simp only [addrField, addr, List.forall_mem_append, List.forall_mem_cons]
  exact ⟨⟨⟨hhost, by decide, (isWord_itoa _).2⟩, by decide, (isWord_itoa _).2⟩, hend⟩

theorem NodeRecord.isWord_flags : IsWord (join [','] r.flags) := by
  obtain ⟨f, fs, hflags⟩ := List.exists_cons_of_ne_nil r.flagged
  have hwords := r.flag_words
  rw [hflags, List.forall_mem_cons] at hwords
  rw [hflags, join_char_cons]
  refine ⟨by simp [hwords.1.1.1], List.forall_mem_append.mpr ⟨hwords.1.1.2, fun c hc => ?_⟩⟩
  obtain ⟨g, hg, hc⟩ := List.mem_flatMap.mp hc
  rcases List.mem_cons.mp hc with rfl | hc
  · decide
  · exact (hwords.2 g hg).1.2 c hc

theorem NodeRecord.isWord_slotWords (damage : Option Damage) :
    ∀ w ∈ r.slotWords damage, IsWord w := by
  have hslots : ∀ (ws : List SlotWord), ∀ w ∈ ws.map SlotWord.text, IsWord w := by
    intro ws w hw
    obtain ⟨s, -, rfl⟩ := List.mem_map.mp hw
    exact s.isWord
  unfold slotWords
  cases damage with
  | none => exact hslots _
  | some d =>
    simp only [List.forall_mem_append, List.forall_mem_cons]
    exact ⟨hslots _, d.is_word, hslots _⟩

theorem NodeRecord.isWord_words (damage : Option Damage) : ∀ w ∈ r.words damage, IsWord w := by
  have hprimary : IsWord (r.primary.getD noPrimary) := by
    cases hp : r.primary with
    | none => exact (by decide : IsWord noPrimary)
    | some p => exact isWord_of_isHex (r.primary_hex p hp)
  simp only [words, List.forall_mem_append, List.forall_mem_cons]
  exact ⟨⟨r.isWord_addrField, r.isWord_flags, hprimary, r.times.1, r.times.2, isWord_itoa _,
    r.link_word, List.forall_mem_nil _⟩, r.isWord_slotWords damage⟩

theorem NodeRecord.fields_line (damage : Option Damage) :
    fields (trimSpace (r.line damage)) = r.id :: r.words damage := by
  rw [fields_trimSpace, line, fields_append_words (r.isWord_words damage),
    fields_of_word (isWord_of_isHex r.id_hex)]
  rfl

/-! ## The parts of a line -/

theorem NodeRecord.cut_addrField :
    cut '@' (dropHostname r.addrField) = (r.addr, some (itoa r.busPort)) := by
  have hcomma : ',' ∉ r.addr ++ '@' :: itoa r.busPort := by
    simp only [addr, List.mem_append, List.mem_cons, not_or]
    exact ⟨⟨fun h => (r.host_plain _ h).2.1 rfl, by decide, not_mem_itoa (by decide) _⟩, by decide,
      not_mem_itoa (by decide) _⟩
  have hat : '@' ∉ r.addr := by
    simp only [addr, List.mem_append, List.mem_cons, not_or]
    exact ⟨fun h => (r.host_plain _ h).2.2 rfl, by decide, not_mem_itoa (by decide) _⟩
  have hfront : dropHostname r.addrField = r.addr ++ '@' :: itoa r.busPort := by
    unfold dropHostname addrField
    cases r.hostname with
    | none =>
      dsimp only
      rw [List.append_nil, cut_of_not_mem hcomma]
    | some h =>
      dsimp only
      rw [cut_append hcomma]
  rw [hfront, cut_append hat]

end Record

theorem atoi_natCast {n : Nat} (h : n < 2 ^ 63) : atoi (itoa n) = .ok n :=
  parseInt_itoa _ (by omega) (by exact_mod_cast h)

theorem hasPrefix_itoa (n : Nat) (rest : Str) : hasPrefix (itoa n ++ rest) ['['] = false := by
  rw [← Bool.not_eq_true, hasPrefix_iff]
  intro hprefix
  obtain ⟨c, digits, hdigits⟩ := List.exists_cons_of_ne_nil (itoa_ne_nil n)
  rw [hdigits, List.cons_append, List.cons_prefix_cons] at hprefix
  refine not_mem_itoa (c := '[') (by decide) n ?_
  rw [hdigits, hprefix.1]
  exact List.mem_cons_self

/-- A slot word is read as the range it stands for, or passed over. -/
theorem parseSlotRanges_cons (w : SlotWord) (rest : List Str) :
    parseSlotRanges (w.text :: rest) = (parseSlotRanges rest).map (w.ranges ++ ·) := by
  have hmap : ∀ r : SlotRange, hasPrefix w.text ['['] = false → parseSlotRange w.text = .ok r →
      parseSlotRanges (w.text :: rest) = (parseSlotRanges rest).map ([r] ++ ·) := by
    intro r hplain hr
    rw [parseSlotRanges, if_neg (by simp [hplain]), hr]
    cases parseSlotRanges rest <;> rfl
  cases w with
  | slot n fits =>
    have hcut : cut '-' (itoa n) = (itoa n, none) := cut_of_not_mem (not_mem_itoa (by decide) n)
    refine hmap ⟨n, n⟩ ?_ ?_
    · simpa [SlotWord.text] using hasPrefix_itoa n []
    · simp only [SlotWord.text, parseSlotRange, hcut, atoi_natCast fits]
  | range start stop ordered fits =>
    have hcut : cut '-' (itoa start ++ '-' :: itoa stop) = (itoa start, some (itoa stop)) :=
      cut_append (not_mem_itoa (by decide) start) _
    refine hmap ⟨start, stop⟩ (hasPrefix_itoa start _) ?_
    simp only [SlotWord.text, parseSlotRange, hcut, atoi_natCast fits,
      atoi_natCast (lt_of_le_of_lt ordered fits)]
    rw [if_neg (by omega)]
  | marker text plain =>
    rw [parseSlotRanges, if_pos (by simp [SlotWord.text])]
    cases parseSlotRanges rest <;> rfl

theorem parseSlotRanges_append (ws : List SlotWord) (rest : List Str) :
    parseSlotRanges (ws.map SlotWord.text ++ rest) =
      (parseSlotRanges rest).map (ws.flatMap SlotWord.ranges ++ ·) := by
  induction ws with
  | nil => cases h : parseSlotRanges rest <;> simp [h, Except.map]
  | cons w ws ih =>
    rw [List.map_cons, List.cons_append, parseSlotRanges_cons, ih]
    cases parseSlotRanges rest <;> simp [Except.map]

/-- The slots of a line; a word that cannot be read costs them all. -/
theorem NodeRecord.parseSlotRanges_slotWords (r : NodeRecord) (damage : Option Damage) :
    (parseSlotRanges (r.slotWords damage)).toOption.getD [] =
      if damage.isSome then [] else r.slots.flatMap SlotWord.ranges := by
  unfold slotWords
  cases damage with
  | none =>
    have h := parseSlotRanges_append r.slots []
    rw [List.append_nil] at h
    dsimp only
    rw [h]
    simp [parseSlotRanges, Except.map, Except.toOption]
  | some d =>
    obtain ⟨e, he⟩ := d.unreadable
    dsimp only
    rw [parseSlotRanges_append, parseSlotRanges, if_neg (by simp [d.no_marker]), he]
    rfl

/-! ## The text -/

def NodeRecord.parsed (r : NodeRecord) (damage : Option Damage) : ParsedNodeLine where
  id := r.id
  addr := r.addr
  busPort := r.busPort
  flags := r.flags
  primaryID := r.primary.getD noPrimary
  configEpoch := r.epoch
  slots := if damage.isSome then [] else r.slots.flatMap SlotWord.ranges

theorem parseNodeLine_line (r : NodeRecord) (damage : Option Damage) :
    parseNodeLine (r.line damage) = some (r.parsed damage) := by
  have hflags : List.splitOn ',' (join [','] r.flags) = r.flags :=
    List.splitOn_intercalate ',' (fun f hf => (r.flag_words f hf).2) r.flagged
  have haddr : addrFromField r.addrField = r.addr := congrArg Prod.fst r.cut_addrField
  have hbus : busPortFromField r.addrField = r.busPort := by
    unfold busPortFromField
    rw [r.cut_addrField]
    dsimp only
    rw [atoi_natCast r.busPort_fits]
    rfl
  unfold parseNodeLine
  rw [r.fields_line damage]
  dsimp only [NodeRecord.words, List.cons_append, List.nil_append]
  rw [haddr, hbus, hflags, parseInt_itoa _ r.epoch_fits.1 r.epoch_fits.2,
    r.parseSlotRanges_slotWords damage]
  rfl

/-- A line with fewer words is passed over, also behind the mark. -/
theorem parseNodeLine_short {text : Str} (h : (fields text).length < 8) : parseNodeLine text = none := by
  unfold parseNodeLine
  rw [fields_trimSpace]
  split
  · rename_i heq
    rw [heq] at h
    simp at h
    omega
  · rfl

def NodesLine.parsed? : NodesLine → Option ParsedNodeLine
  | node r damage => some (r.parsed damage)
  | short _ _ _ => none

theorem NodesLine.parseNodeLine_text (l : NodesLine) : parseNodeLine l.text = l.parsed? := by
  cases l with
  | node r damage => exact parseNodeLine_line r damage
  | short text _ few => exact parseNodeLine_short few

theorem NodesLine.break_not_mem (l : NodesLine) : '\n' ∉ l.text := by
  cases l with
  | node r damage =>
    have hword : ∀ w, IsWord w → '\n' ∉ w := fun w hw hmem => absurd (hw.2 _ hmem) (by decide)
    intro hmem
    rcases List.mem_append.mp hmem with hmem | hmem
    · exact hword _ (isWord_of_isHex r.id_hex) hmem
    · obtain ⟨w, hw, hmem⟩ := List.mem_flatMap.mp hmem
      exact hword w (r.isWord_words damage w hw) ((List.mem_cons.mp hmem).resolve_left (by decide))
  | short text no_break few => exact no_break

theorem filterMap_parseNodeLine (doc : List NodesLine) :
    (doc.map NodesLine.text).filterMap parseNodeLine = doc.filterMap NodesLine.parsed? := by
  rw [List.filterMap_map]
  exact List.filterMap_congr fun l _ => l.parseNodeLine_text

/-- A text without a break starts a joined text only if it starts the first line. -/
theorem prefix_of_prefix_join {p t : Str} {ts : List Str} (hp : '\n' ∉ p)
    (h : p <+: join ['\n'] (t :: ts)) : p <+: t := by
  rw [join_char_cons] at h
  rcases List.prefix_or_prefix_of_prefix h (List.prefix_append t _) with hpt | ⟨q, rfl⟩
  · exact hpt
  · obtain ⟨rest, hrest⟩ := h
    rw [List.append_assoc, List.append_cancel_left_eq] at hrest
    cases q with
    | nil => exact ⟨[], by rw [List.append_nil, List.append_nil]⟩
    | cons c q =>
      cases ts with
      | nil => cases hrest
      | cons t' ts =>
        rw [List.flatMap_cons, List.cons_append, List.cons_append] at hrest
        obtain ⟨rfl, -⟩ := List.cons.inj hrest
        exact absurd (by simp) hp

/-- Of a first line that starts with the mark, what is left is too short for a node. -/
theorem NodesLine.parsed?_of_marked {l : NodesLine} {t : Str} (h : l.text = "txt:" ++ t) :
    parseNodeLine t = none ∧ l.parsed? = none := by
  cases l with
  | node r damage =>
    obtain ⟨c, rest, hid⟩ := List.exists_cons_of_ne_nil r.id_hex.1
    have hc := r.id_hex.2 c (hid ▸ List.mem_cons_self)
    have hfirst : c = 't' := by
      change r.id ++ _ = _ at h
      rw [hid] at h
      exact (List.cons.inj h).1
    rw [hfirst] at hc
    exact absurd hc (by decide)
  | short text no_break few =>
    change text = _ at h
    subst h
    exact ⟨parseNodeLine_short (lt_of_le_of_lt (length_fields_le_append _ t) few), rfl⟩

theorem parsedLines_nodesText (marked : Bool) (doc : List NodesLine) :
    parsedLines (nodesText marked doc) = doc.filterMap NodesLine.parsed? := by
  have hbreaks : ∀ t ∈ doc.map NodesLine.text, '\n' ∉ t := by
    intro t ht
    obtain ⟨l, -, rfl⟩ := List.mem_map.mp ht
    exact l.break_not_mem
  have hjoin : (List.splitOn '\n' (join ['\n'] (doc.map NodesLine.text))).filterMap parseNodeLine =
      doc.filterMap NodesLine.parsed? := by
    cases doc with
    | nil => rfl
    | cons l doc =>
      have hsplit : List.splitOn '\n' (join ['\n'] ((l :: doc).map NodesLine.text)) = _ :=
        List.splitOn_intercalate '\n' hbreaks (by simp)
      rw [hsplit, filterMap_parseNodeLine]
  unfold parsedLines nodesText
  cases marked with
  | true =>
    rw [if_pos rfl, trimPrefix_append]
    exact hjoin
  | false =>
    rw [if_neg (by decide), List.nil_append]
    by_cases hmark : "txt:" <+: join ['\n'] (doc.map NodesLine.text)
    · cases doc with
      | nil => exact absurd hmark (by decide)
      | cons l doc =>
        obtain ⟨t, ht⟩ := prefix_of_prefix_join (by decide) hmark
        obtain ⟨hnone, hparsed⟩ := NodesLine.parsed?_of_marked ht.symm
        have hrest : join ['\n'] ((l :: doc).map NodesLine.text) =
            "txt:" ++ join ['\n'] (t :: doc.map NodesLine.text) := by
          rw [List.map_cons, join_char_cons, join_char_cons, ← ht, List.append_assoc]
        rw [List.map_cons, List.forall_mem_cons] at hbreaks
        have hbreak : '\n' ∉ t := fun hmem => hbreaks.1 (ht ▸ List.mem_append_right _ hmem)
        have hsplit : List.splitOn '\n' (join ['\n'] (t :: doc.map NodesLine.text)) = _ :=
          List.splitOn_intercalate '\n' (List.forall_mem_cons.mpr ⟨hbreak, hbreaks.2⟩) (by simp)
        rw [hrest, trimPrefix_append, hsplit, List.filterMap_cons_none hnone, filterMap_parseNodeLine,
          List.filterMap_cons_none hparsed]
    · rw [trimPrefix_of_not hmark]
      exact hjoin

theorem NodeRecord.toNodeState_parsed (r : NodeRecord) (damage : Option Damage)
    (peers : GoMap Str PeerView) : (r.parsed damage).toNodeState peers = r.nodeState damage peers := by
  unfold ParsedNodeLine.toNodeState NodeRecord.nodeState NodeRecord.parsed
  cases hp : r.primary with
  | none => simp
  | some p =>
    have hne : p ≠ noPrimary := by
      rintro rfl
      exact absurd ((r.primary_hex _ hp).2 '-' (by decide)) (by decide)
    simp [hne]

/-- Of the text of any records, some with an unreadable slot word, among any short lines, one
node is read for each record in order, with all the record says; only the slots of the
damaged ones are lost. -/
theorem parseClusterNodes_nodesText (marked : Bool) (doc : List NodesLine) :
    ∃ peers, parseClusterNodes (nodesText marked doc) = doc.filterMap (NodesLine.nodeState? peers) := by
  refine ⟨peerTable (doc.filterMap NodesLine.parsed?), ?_⟩
  unfold parseClusterNodes
  dsimp only
  rw [parsedLines_nodesText, List.map_filterMap]
  refine List.filterMap_congr fun l _ => ?_
  cases l with
  | node r damage => exact congrArg some (r.toNodeState_parsed damage _)
  | short text _ _ => rfl

/-- A primary with a range, a single slot and a slot on its way out. -/
def primaryRecord : NodeRecord where
  id := "07c3"
  host := "10.0.0.1"
  port := 6379
  busPort := 16379
  hostname := some "pod-0"
  flags := ["myself", "master"]
  primary := none
  ping := "0"
  pong := "1426238316232"
  epoch := 2
  link := "connected"
  slots := [.range 0 5459 (by decide) (by decide), .slot 5461 (by decide),
    .marker "5460->-9a1b]" (by simp [isSpace])]
  id_hex := by decide
  host_plain := by simp [isSpace]
  busPort_fits := by decide
  hostname_plain := by rintro _ ⟨⟩; simp [isSpace]
  flagged := by decide
  flag_words := by decide
  primary_hex := by rintro _ ⟨⟩
  times := by decide
  link_word := by decide
  epoch_fits := by decide

/-- Its replica, as another engine sees it. -/
def replicaRecord : NodeRecord :=
  { primaryRecord with
    id := "9a1b"
    host := "10.0.0.2"
    hostname := none
    flags := ["slave"]
    primary := some "07c3"
    slots := []
    id_hex := by decide
    host_plain := by simp [isSpace]
    hostname_plain := by rintro _ ⟨⟩
    flagged := by decide
    flag_words := by decide
    primary_hex := by rintro _ ⟨⟩; decide }

/-- Another primary. -/
def otherRecord : NodeRecord :=
  { primaryRecord with
    id := "b2d4"
    host := "10.0.0.3"
    id_hex := by decide
    host_plain := by simp [isSpace] }

/-- A slot word that was cut off. -/
def cutWord : Damage where
  position := 1
  word := "546-"
  is_word := by decide
  no_marker := by decide
  unreadable := ⟨_, rfl⟩

/-- A stray line, a record, one with a word cut off, an empty line and one more record. -/
def mixedDoc : List NodesLine :=
  [.short "LOADING dataset in memory" (by decide) (by decide), .node primaryRecord none,
    .node otherRecord (some cutWord), .short [] (by decide) (by decide), .node replicaRecord none]

theorem parseClusterNodes_nodesText_mixed :
    ∃ peers, parseClusterNodes (nodesText true mixedDoc) =
      [primaryRecord.nodeState none peers, { otherRecord.nodeState none peers with slots := [] },
        replicaRecord.nodeState none peers] :=
  parseClusterNodes_nodesText true mixedDoc

end ValkeyOperator.Valkey

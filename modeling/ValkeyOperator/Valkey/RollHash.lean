import ValkeyOperator.Valkey.ServerConfig

/-! What the roll hash tells apart (`ServerConfigRollHash` of `pkg/valkey/config.go`).

The hashed text has a line for each hashed entry in the order of the keys, and behind
them a line for each disabled command. An entry is read back from its line as long as
keys are free of blanks and nothing breaks a line, so the text determines the list of
lines. It does not say where the entries end: a user's last entry may be the very line
that disables a command. -/

namespace ValkeyOperator.Valkey
open Text

variable {c c' : ConfigInput} {cmd k : Str}

/-! ## The lines of the hashed text -/

/-- The merged configuration without the keys that the hash leaves out. -/
def hashedConfig (c : ConfigInput) : GoMap Str Str :=
  unhashedKeys.foldl (fun merged k => merged.erase k) (mergedConfig c)

/-- The commands that are disabled. -/
def disabledCommands (c : ConfigInput) : List Str :=
  c.disableCommands.filter fun cmd => trimSpace cmd ≠ []

def renameKey : Str := "rename-command"

/-- What the line of a disabled command has behind its first word. -/
def disabledValue (cmd : Str) : Str := cmd ++ " \"\""

def renameText (cmd : Str) : Str := renameKey ++ ' ' :: disabledValue cmd

def sortedCommands (c : ConfigInput) : List Str := (disabledCommands c).insertionSort (· ≤ ·)

def entryTexts (cfg : GoMap Str Str) : List Str := (sortedKeys cfg).map (entryText cfg)

theorem renameTexts_eq (c : ConfigInput) :
    renameTexts c.disableCommands = (sortedCommands c).map renameText := by
  refine List.map_congr_left fun cmd _ => ?_
  have hkey : "rename-command " = renameKey ++ [' '] := by decide +kernel
  rw [hkey, renameText, disabledValue]
  simp only [List.append_assoc, List.cons_append, List.nil_append]

theorem rollText_eq (c : ConfigInput) :
    rollText c =
      (entryTexts (hashedConfig c) ++ (sortedCommands c).map renameText).flatMap (· ++ ['\n']) := by
  rw [List.flatMap_append, ← renameTexts_eq, entryTexts, List.flatMap_map]
  rfl

theorem lookup_hashedConfig (c : ConfigInput) (h : k ∉ unhashedKeys) :
    (hashedConfig c).lookup k = (mergedConfig c).lookup k := by
  rw [hashedConfig, Inserts.lookup_erases, if_neg h]

theorem lookup_hashedConfig_of_mem (c : ConfigInput) (h : k ∈ unhashedKeys) :
    (hashedConfig c).lookup k = none := by
  rw [hashedConfig, Inserts.lookup_erases, if_pos h]

theorem mem_hashedConfig : k ∈ hashedConfig c ↔ k ∉ unhashedKeys ∧ k ∈ mergedConfig c := by
  rw [← AList.lookup_isSome, ← AList.lookup_isSome]
  by_cases h : k ∈ unhashedKeys
  · simp [lookup_hashedConfig_of_mem c h, h]
  · simp [lookup_hashedConfig c h, h]

theorem renameKey_hashed : renameKey ∉ unhashedKeys := by decide +kernel

/-! ## Reading a line back -/

/-- The text in front of the first blank. -/
def lineKey (line : Str) : Str := line.takeWhile (· ≠ ' ')

theorem lineKey_text (h : ' ' ∉ k) (v : Str) : lineKey (k ++ ' ' :: v) = k := by
  rw [lineKey, List.takeWhile_append_of_pos]
  · simp
  · intro x hx
    rw [decide_eq_true_eq]
    rintro rfl
    exact h hx

theorem lineKey_renameText (cmd : Str) : lineKey (renameText cmd) = renameKey :=
  lineKey_text (by decide +kernel) _

theorem renameText_injective : Function.Injective renameText := by
  intro a b h
  have hvalue : disabledValue a = disabledValue b := by
    simpa [renameText] using h
  exact List.append_cancel_right hvalue

/-- Nothing in the input that would make two lines out of one, and no blank in a key. -/
structure OneLineEach (c : ConfigInput) : Prop where
  keys : ∀ k ∈ mergedConfig c, ' ' ∉ k ∧ '\n' ∉ k
  values : ∀ k v, (mergedConfig c).lookup k = some v → '\n' ∉ v
  commands : ∀ cmd ∈ c.disableCommands, '\n' ∉ cmd

namespace OneLineEach

variable {c : ConfigInput}

theorem break_not_mem_entryTexts (h : OneLineEach c) :
    ∀ t ∈ entryTexts (hashedConfig c), '\n' ∉ t := by
  intro t ht
  obtain ⟨k, hk, rfl⟩ := List.mem_map.mp ht
  obtain ⟨hhashed, hmem⟩ := mem_hashedConfig.mp (mem_sortedKeys.mp hk)
  obtain ⟨v, hv⟩ := exists_lookup hmem
  rw [entryText, lookup_hashedConfig c hhashed, hv]
  simp only [Option.getD_some, List.mem_append, List.mem_cons, not_or]
  exact ⟨(h.keys k hmem).2, by decide, h.values k v hv⟩

theorem break_not_mem_renameText (h : OneLineEach c) :
    ∀ t ∈ (sortedCommands c).map renameText, '\n' ∉ t := by
  intro t ht
  obtain ⟨cmd, hcmd, rfl⟩ := List.mem_map.mp ht
  have hmem : cmd ∈ c.disableCommands :=
    List.mem_of_mem_filter ((List.mem_insertionSort _).mp hcmd)
  rw [renameText, disabledValue]
  simp only [List.mem_append, List.mem_cons, not_or]
  exact ⟨by decide +kernel, by decide, h.commands cmd hmem, by decide +kernel⟩

theorem lineKeys (h : OneLineEach c) :
    (entryTexts (hashedConfig c)).map lineKey = sortedKeys (hashedConfig c) := by
  rw [entryTexts, List.map_map]
  refine (List.map_congr_left fun k hk => ?_).trans (List.map_id _)
  exact lineKey_text (h.keys k (mem_hashedConfig.mp (mem_sortedKeys.mp hk)).2).1 _

end OneLineEach

theorem lines_of_rollText_eq (h : OneLineEach c) (h' : OneLineEach c')
    (heq : rollText c = rollText c') :
    entryTexts (hashedConfig c) ++ (sortedCommands c).map renameText =
      entryTexts (hashedConfig c') ++ (sortedCommands c').map renameText := by
  rw [rollText_eq, rollText_eq] at heq
  exact flatMap_break_inj
    (List.forall_mem_append.mpr ⟨h.break_not_mem_entryTexts, h.break_not_mem_renameText⟩)
    (List.forall_mem_append.mpr ⟨h'.break_not_mem_entryTexts, h'.break_not_mem_renameText⟩) heq

/-- Keys with the same line have the same value. -/
theorem lookup_eq_of_entryText {a b : GoMap Str Str} (ha : k ∈ a) (hb : k ∈ b)
    (h : entryText a k = entryText b k) : a.lookup k = b.lookup k := by
  obtain ⟨v, hv⟩ := exists_lookup ha
  obtain ⟨v', hv'⟩ := exists_lookup hb
  rw [entryText, entryText, hv, hv'] at h
  rw [hv, hv']
  exact congrArg some (List.cons.inj (List.append_cancel_left h)).2

/-- Where one map has the lines of another and some more behind them, it differs in the
keys of these only. -/
theorem lookup_eq_of_entryTexts {a b : GoMap Str Str} {extra texts : List Str}
    (hkeys : sortedKeys a = sortedKeys b ++ extra) (htexts : entryTexts a = entryTexts b ++ texts) :
    (∀ k ∉ extra, a.lookup k = b.lookup k) ∧ extra.map (entryText a) = texts := by
  rw [entryTexts, hkeys, List.map_append, entryTexts] at htexts
  obtain ⟨hfront, hback⟩ := List.append_inj htexts (by rw [List.length_map, List.length_map])
  refine ⟨fun k hk => ?_, hback⟩
  have hmem : k ∈ a ↔ k ∈ b := by
    rw [← mem_sortedKeys, hkeys, List.mem_append, mem_sortedKeys]
    exact or_iff_left hk
  by_cases hb : k ∈ b
  · exact lookup_eq_of_entryText (hmem.mpr hb) hb
      (List.map_inj_left.mp hfront k (mem_sortedKeys.mpr hb))
  · rw [AList.lookup_eq_none.mpr hb, AList.lookup_eq_none.mpr (mt hmem.mp hb)]

/-! ## Equal texts -/

theorem sortedCommands_sorted (c : ConfigInput) : (sortedCommands c).Pairwise (· ≤ ·) :=
  List.pairwise_insertionSort _ _

theorem sortedCommands_perm (c : ConfigInput) : (sortedCommands c).Perm (disabledCommands c) :=
  List.perm_insertionSort _ _

/-- The same value for every hashed key, and the same commands disabled. -/
structure SameSettings (c c' : ConfigInput) : Prop where
  values : ∀ k ∉ unhashedKeys, (mergedConfig c).lookup k = (mergedConfig c').lookup k
  commands : (disabledCommands c).Perm (disabledCommands c')

/-- The last hashed entry of `c` is the line that disables the first command of `c'`, and
otherwise the settings are the same. -/
structure StandsIn (c c' : ConfigInput) (cmd : Str) : Prop where
  entry : (mergedConfig c).lookup renameKey = some (disabledValue cmd)
  absent : renameKey ∉ mergedConfig c'
  values : ∀ k ∉ unhashedKeys, k ≠ renameKey →
    (mergedConfig c).lookup k = (mergedConfig c').lookup k
  last : ∀ k ∉ unhashedKeys, k ∈ mergedConfig c → k ≤ renameKey
  first : ∀ other ∈ disabledCommands c, cmd ≤ other
  commands : (cmd :: disabledCommands c).Perm (disabledCommands c')

theorem SameSettings.rollText_eq (h : SameSettings c c') : rollText c = rollText c' := by
  have hcommands : sortedCommands c = sortedCommands c' :=
    ((sortedCommands_perm c).trans (h.commands.trans (sortedCommands_perm c').symm)).eq_of_pairwise'
      (sortedCommands_sorted c) (sortedCommands_sorted c')
  rw [rollText, renderHashed_congr h.values, renderDisableCommands, renameTexts_eq, hcommands,
    ← renameTexts_eq]
  rfl

theorem StandsIn.sortedKeys_eq (h : StandsIn c c' cmd) :
    sortedKeys (hashedConfig c) = sortedKeys (hashedConfig c') ++ [renameKey] := by
  have hother : ∀ k, k ≠ renameKey → (k ∈ hashedConfig c ↔ k ∈ hashedConfig c') := by
    intro k hne
    rw [mem_hashedConfig, mem_hashedConfig]
    refine and_congr_right fun hk => ?_
    rw [← AList.lookup_isSome, ← AList.lookup_isSome, h.values k hk hne]
  have hlt : ∀ k ∈ hashedConfig c', k < renameKey := by
    intro k hk
    have hne : k ≠ renameKey := by
      rintro rfl
      exact h.absent (mem_hashedConfig.mp hk).2
    obtain ⟨hhashed, hmem⟩ := mem_hashedConfig.mp ((hother k hne).mpr hk)
    exact lt_of_le_of_ne (h.last k hhashed hmem) hne
  refine eq_of_mem_iff (sortedKeys_lt _) (List.pairwise_append.mpr
    ⟨sortedKeys_lt _, List.pairwise_singleton _ _, fun k hk r hr => ?_⟩) fun k => ?_
  · rw [List.mem_singleton.mp hr]
    exact hlt k (mem_sortedKeys.mp hk)
  · rw [mem_sortedKeys, List.mem_append, mem_sortedKeys, List.mem_singleton]
    by_cases hk : k = renameKey
    · subst hk
      exact iff_of_true (mem_hashedConfig.mpr ⟨renameKey_hashed, mem_of_lookup h.entry⟩) (.inr rfl)
    · rw [hother k hk]
      exact (or_iff_left hk).symm

theorem StandsIn.sortedCommands_eq (h : StandsIn c c' cmd) :
    sortedCommands c' = cmd :: sortedCommands c := by
  have hperm : (sortedCommands c').Perm (cmd :: sortedCommands c) :=
    (sortedCommands_perm c').trans (h.commands.symm.trans ((sortedCommands_perm c).symm.cons cmd))
  refine hperm.eq_of_pairwise' (sortedCommands_sorted c') (List.pairwise_cons.mpr
    ⟨fun other hother => h.first other ?_, sortedCommands_sorted c⟩)
  exact (sortedCommands_perm c).mem_iff.mp hother

theorem StandsIn.rollText_eq (h : StandsIn c c' cmd) : rollText c = rollText c' := by
  have hentry : entryText (hashedConfig c) renameKey = renameText cmd := by
    rw [entryText, lookup_hashedConfig c renameKey_hashed, h.entry]
    rfl
  have hentries : (sortedKeys (hashedConfig c')).map (entryText (hashedConfig c)) =
      entryTexts (hashedConfig c') := by
    refine List.map_congr_left fun k hk => ?_
    obtain ⟨hhashed, hmem⟩ := mem_hashedConfig.mp (mem_sortedKeys.mp hk)
    have hne : k ≠ renameKey := by
      rintro rfl
      exact h.absent hmem
    rw [entryText, entryText, lookup_hashedConfig c hhashed, lookup_hashedConfig c' hhashed,
      h.values k hhashed hne]
  rw [Valkey.rollText_eq, Valkey.rollText_eq, entryTexts, h.sortedKeys_eq, List.map_append,
    List.map_singleton, hentries, hentry, h.sortedCommands_eq, List.map_cons, List.append_assoc,
    List.singleton_append]

theorem sameSettings_of_lines (hkeys : sortedKeys (hashedConfig c) = sortedKeys (hashedConfig c'))
    (hentries : entryTexts (hashedConfig c) = entryTexts (hashedConfig c'))
    (hcommands : sortedCommands c' = sortedCommands c) : SameSettings c c' := by
  obtain ⟨hvalues, -⟩ := lookup_eq_of_entryTexts (hkeys.trans (List.append_nil _).symm)
    (hentries.trans (List.append_nil _).symm)
  refine ⟨fun k hk => ?_, (sortedCommands_perm c).symm.trans (hcommands ▸ sortedCommands_perm c')⟩
  rw [← lookup_hashedConfig c hk, ← lookup_hashedConfig c' hk]
  exact hvalues k List.not_mem_nil

theorem standsIn_of_lines
    (hkeys : sortedKeys (hashedConfig c) = sortedKeys (hashedConfig c') ++ [renameKey])
    (hentries : entryTexts (hashedConfig c) = entryTexts (hashedConfig c') ++ [renameText cmd])
    (hcommands : sortedCommands c' = cmd :: sortedCommands c) : StandsIn c c' cmd := by
  obtain ⟨hvalues, hextra⟩ := lookup_eq_of_entryTexts hkeys hentries
  have hascend := sortedKeys_lt (hashedConfig c)
  rw [hkeys] at hascend
  have hbelow : ∀ k ∈ sortedKeys (hashedConfig c'), k < renameKey := fun k hk =>
    (List.pairwise_append.mp hascend).2.2 k hk renameKey List.mem_cons_self
  refine ⟨?_, fun hmem => ?_, fun k hk hne => ?_, fun k hk hmem => ?_, fun other hother => ?_, ?_⟩
  · have hmem : renameKey ∈ hashedConfig c := by
      rw [← mem_sortedKeys, hkeys]
      exact List.mem_append_right _ List.mem_cons_self
    obtain ⟨v, hv⟩ := exists_lookup hmem
    have hentry := (List.cons.inj hextra).1
    rw [entryText, hv, renameText] at hentry
    rw [← lookup_hashedConfig c renameKey_hashed, hv]
    exact congrArg some (List.cons.inj (List.append_cancel_left hentry)).2
  · have hkey := mem_sortedKeys.mpr (mem_hashedConfig.mpr ⟨renameKey_hashed, hmem⟩)
    exact lt_irrefl _ (hbelow renameKey hkey)
  · rw [← lookup_hashedConfig c hk, ← lookup_hashedConfig c' hk]
    exact hvalues k (mt List.mem_singleton.mp hne)
  · have hkey : k ∈ sortedKeys (hashedConfig c) :=
      mem_sortedKeys.mpr (mem_hashedConfig.mpr ⟨hk, hmem⟩)
    rw [hkeys, List.mem_append, List.mem_singleton] at hkey
    rcases hkey with hkey | hkey
    · exact (hbelow k hkey).le
    · exact hkey.le
  · have hsorted := sortedCommands_sorted c'
    rw [hcommands] at hsorted
    exact (List.pairwise_cons.mp hsorted).1 other ((sortedCommands_perm c).mem_iff.mpr hother)
  · exact ((sortedCommands_perm c).symm.cons cmd).trans (hcommands ▸ sortedCommands_perm c')

/-- What it takes for one of two lists of lines to have more entries than the other. -/
theorem settings_of_lines (h : OneLineEach c) (h' : OneLineEach c') {texts : List Str}
    (hentries : entryTexts (hashedConfig c) = entryTexts (hashedConfig c') ++ texts)
    (hcommands : (sortedCommands c').map renameText = texts ++ (sortedCommands c).map renameText) :
    SameSettings c c' ∨ ∃ cmd, StandsIn c c' cmd := by
  obtain ⟨front, back, hsplit, rfl, hback⟩ := List.map_eq_append_iff.mp hcommands
  rw [List.map_injective_iff.mpr renameText_injective hback] at hsplit
  have hkeys : sortedKeys (hashedConfig c) =
      sortedKeys (hashedConfig c') ++ front.map fun _ => renameKey := by
    rw [← h.lineKeys, hentries, List.map_append, h'.lineKeys, List.map_map]
    exact congrArg _ (List.map_congr_left fun cmd _ => lineKey_renameText cmd)
  have hascend := sortedKeys_lt (hashedConfig c)
  rw [hkeys] at hascend
  have hextra := (List.pairwise_append.mp hascend).2.1
  cases front with
  | nil =>
    rw [List.map_nil, List.append_nil] at hkeys hentries
    exact .inl (sameSettings_of_lines hkeys hentries hsplit)
  | cons cmd front =>
    cases front with
    | nil => exact .inr ⟨cmd, standsIn_of_lines hkeys hentries hsplit⟩
    | cons =>
      -- two lines with the same key are not both entries
      rw [List.map_cons, List.map_cons] at hextra
      exact absurd ((List.pairwise_cons.mp hextra).1 renameKey List.mem_cons_self) (lt_irrefl _)

/-- The settings are the same up to an entry that stands in for a command line. -/
def SameLines (c c' : ConfigInput) : Prop :=
  SameSettings c c' ∨ (∃ cmd, StandsIn c c' cmd) ∨ ∃ cmd, StandsIn c' c cmd

theorem rollText_eq_iff (h : OneLineEach c) (h' : OneLineEach c') :
    rollText c = rollText c' ↔ SameLines c c' := by
  constructor
  · intro heq
    rcases List.append_eq_append_iff.mp (lines_of_rollText_eq h h' heq) with
      ⟨texts, hentries, hcommands⟩ | ⟨texts, hentries, hcommands⟩
    · rcases settings_of_lines h' h hentries hcommands with hsame | hstands
      · exact .inl ⟨fun k hk => (hsame.values k hk).symm, hsame.commands.symm⟩
      · exact .inr (.inr hstands)
    · rcases settings_of_lines h h' hentries hcommands with hsame | hstands
      · exact .inl hsame
      · exact .inr (.inl hstands)
  · rintro (hsame | ⟨cmd, hstands⟩ | ⟨cmd, hstands⟩)
    · exact hsame.rollText_eq
    · exact hstands.rollText_eq
    · exact hstands.rollText_eq.symm

/-! ## The hash -/

/-- The hash stands for the hashed lines, and a live edit or a new password leaves it. -/
theorem serverConfigRollHash_eq_iff {c c' : ConfigInput} (h : OneLineEach c) (h' : OneLineEach c') :
    (rollText c = rollText c' ↔ SameLines c c') ∧
    (∀ sha256 : Str → Str,
      (sha256 (rollText c) = sha256 (rollText c') → rollText c = rollText c') →
      (serverConfigRollHash sha256 c = serverConfigRollHash sha256 c' ↔ SameLines c c')) ∧
    ∀ (sha256 : Str → Str) (config : GoMap Str Str) (password : Str),
      (∀ k ∉ liveSettableKeys, config.lookup k = c.userConfig.lookup k) →
      serverConfigRollHash sha256 { c with userConfig := config, requirepass := password } =
        serverConfigRollHash sha256 c := by
  refine ⟨rollText_eq_iff h h', fun sha256 hcollide => ?_, fun sha256 config password hconfig => ?_⟩
  · rw [← rollText_eq_iff h h']
    exact ⟨hcollide, congrArg sha256⟩
  · have hsame : SameSettings { c with userConfig := config, requirepass := password } c :=
      ⟨fun k hk => lookup_mergedConfig_of_live_edit c password hconfig hk, List.Perm.refl _⟩
    exact congrArg sha256 hsame.rollText_eq

theorem oneLineEach_iff :
    OneLineEach c ↔
      (∀ k ∈ (mergedConfig c).keys,
        ' ' ∉ k ∧ '\n' ∉ k ∧ '\n' ∉ ((mergedConfig c).lookup k).getD []) ∧
      ∀ cmd ∈ c.disableCommands, '\n' ∉ cmd := by
  constructor
  · intro h
    refine ⟨fun k hk => ⟨(h.keys k hk).1, (h.keys k hk).2, ?_⟩, h.commands⟩
    obtain ⟨v, hv⟩ := exists_lookup hk
    rw [hv]
    exact h.values k v hv
  · rintro ⟨hentries, hcommands⟩
    refine ⟨fun k hk => ⟨(hentries k hk).1, (hentries k hk).2.1⟩, fun k v hv => ?_, hcommands⟩
    have := (hentries k (mem_of_lookup hv)).2.2
    rwa [hv] at this

instance (c : ConfigInput) : Decidable (OneLineEach c) := decidable_of_iff _ oneLineEach_iff.symm

/-- A live key and a blank command more, and the commands in another order. -/
theorem serverConfigRollHash_eq_iff_reordered :
    let c : ConfigInput := { disableCommands := ["FLUSHDB", "FLUSHALL"] }
    let c' : ConfigInput :=
      { userConfig := (∅ : GoMap Str Str).insert "maxclients" "100"
        disableCommands := ["FLUSHALL", [' '], "FLUSHDB"] }
    OneLineEach c ∧ OneLineEach c' ∧ SameLines c c' := by
  intro c c'
  have h : OneLineEach c := by decide +kernel
  have h' : OneLineEach c' := by decide +kernel
  exact ⟨h, h', (serverConfigRollHash_eq_iff h h').1.mp (by decide +kernel)⟩

/-- An entry of the user's that disables a command reads like the operator's own line. -/
theorem rollText_of_renaming_entry :
    let c : ConfigInput :=
      { userConfig := (∅ : GoMap Str Str).insert "rename-command".toList "FLUSHALL \"\"".toList }
    let c' : ConfigInput := { disableCommands := ["FLUSHALL".toList] }
    (OneLineEach c ∧ OneLineEach c') ∧ rollText c = rollText c' ∧
      "rename-command".toList ∉ unhashedKeys ∧
      (mergedConfig c).lookup "rename-command".toList ≠
        (mergedConfig c').lookup "rename-command".toList ∧
      ¬ (disabledCommands c).Perm (disabledCommands c') := by
  decide +kernel

end ValkeyOperator.Valkey

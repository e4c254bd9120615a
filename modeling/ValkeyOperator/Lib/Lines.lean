import ValkeyOperator.Lib.Text

/-! Texts read line by line and word by word.

A text appended to another continues its last line and adds the lines behind
(`lines_append`); a blank between two texts keeps their words apart
(`fields_append_blank`). Everything else follows from these two equations. -/

namespace ValkeyOperator.Text

/-! ## Lines -/

def lines (s : Str) : List Str := s.splitOn '\n'

def firstLine (s : Str) : Str := (lines s).headD []

/-- The lines behind the first. -/
def restLines (s : Str) : List Str := (lines s).tail

def lastLine (s : Str) : Str := (lines s).getLastD []

/-- The lines before the last. -/
def closedLines (s : Str) : List Str := (lines s).dropLast

theorem lines_ne_nil (s : Str) : lines s ≠ [] := List.splitOn_ne_nil _ s

theorem lines_eq (s : Str) : lines s = firstLine s :: restLines s := by
  unfold firstLine restLines
  cases h : lines s with
  | nil => exact absurd h (lines_ne_nil s)
  | cons l ls => rfl

theorem lines_eq_closed (s : Str) : lines s = closedLines s ++ [lastLine s] := by
  unfold closedLines lastLine
  rw [List.getLastD_eq_getLast?, List.getLast?_eq_some_getLast (lines_ne_nil s)]
  exact (List.dropLast_append_getLast (lines_ne_nil s)).symm

theorem lines_cons_break (s : Str) : lines ('\n' :: s) = [] :: lines s :=
  List.splitOn_append_cons_self [] s

theorem lines_cons {c : Char} (h : c ≠ '\n') (s : Str) :
    lines (c :: s) = (c :: firstLine s) :: restLines s := by
  have hsplit : lines (c :: s) = (lines s).modifyHead (c :: ·) := by
    unfold lines
    rw [List.splitOn_eq_splitOnP, List.splitOnP_cons_eq_if_modifyHead, if_neg (by simpa using h)]
    rfl
  rw [hsplit, lines_eq s, List.modifyHead_cons]

theorem lines_append_break (a b : Str) : lines (a ++ '\n' :: b) = lines a ++ lines b :=
  List.splitOn_append_cons_self a b

theorem lines_of_not_mem {s : Str} (h : '\n' ∉ s) : lines s = [s] := List.splitOn_eq_singleton h

theorem break_not_mem_lines {s line : Str} (h : line ∈ lines s) : '\n' ∉ line := by
  induction s generalizing line with
  | nil =>
    rw [List.mem_singleton.mp h]
    simp
  | cons c s ih =>
    by_cases hc : c = '\n'
    · rw [hc, lines_cons_break] at h
      rcases List.mem_cons.mp h with rfl | h
      · simp
      · exact ih h
    · rw [lines_cons hc] at h
      rw [lines_eq s] at ih
      rcases List.mem_cons.mp h with rfl | h
      · simp [Ne.symm hc, ih List.mem_cons_self]
      · exact ih (List.mem_cons_of_mem _ h)

/-- What is appended continues the last line. -/
theorem lines_append (a b : Str) :
    lines (a ++ b) = closedLines a ++ (lastLine a ++ firstLine b) :: restLines b := by
  induction a with
  | nil => exact lines_eq b
  | cons c a ih =>
    have hparts := lines_eq_closed a
    by_cases hc : c = '\n'
    · subst hc
      have hclosed : closedLines ('\n' :: a) = [] :: closedLines a := by
        rw [closedLines, lines_cons_break, hparts, ← List.cons_append, List.dropLast_concat]
      have hlast : lastLine ('\n' :: a) = lastLine a := by
        rw [lastLine, lines_cons_break, hparts, ← List.cons_append, List.getLastD_concat]
      rw [hclosed, hlast, List.cons_append, lines_cons_break, ih, List.cons_append]
    · -- the first line of `a` is closed or the last one
      cases hrest : closedLines a with
      | nil =>
        rw [hrest, List.nil_append] at hparts ih
        have hfirst : lines (c :: a) = [c :: lastLine a] := by
          rw [lines_cons hc, firstLine, restLines, hparts]
          rfl
        rw [closedLines, lastLine, hfirst, List.cons_append, lines_cons hc, firstLine, restLines, ih]
        rfl
      | cons l ls =>
        rw [hrest, List.cons_append] at hparts ih
        have hfirst : lines (c :: a) = (c :: l) :: (ls ++ [lastLine a]) := by
          rw [lines_cons hc, firstLine, restLines, hparts]
          rfl
        rw [closedLines, lastLine, hfirst, ← List.cons_append, List.dropLast_concat,
          List.getLastD_concat, List.cons_append, lines_cons hc, firstLine, restLines, ih]
        rfl

theorem exists_lines_append {P : Str → Prop} {a b : Str} :
    (∃ line ∈ lines (a ++ b), P line) ↔
      (∃ line ∈ closedLines a, P line) ∨ P (lastLine a ++ firstLine b) ∨
        ∃ line ∈ restLines b, P line := by
  rw [lines_append]
  simp [or_and_right, exists_or]

theorem exists_lines {P : Str → Prop} {s : Str} :
    (∃ line ∈ lines s, P line) ↔ (∃ line ∈ closedLines s, P line) ∨ P (lastLine s) := by
  rw [lines_eq_closed]
  simp [or_and_right, exists_or]

section OneLine
variable {a : Str} (h : '\n' ∉ a)
include h

theorem firstLine_append (b : Str) : firstLine (a ++ b) = a ++ firstLine b := by
  rw [firstLine, lines_append, closedLines, lastLine, lines_of_not_mem h]
  rfl

theorem restLines_append (b : Str) : restLines (a ++ b) = restLines b := by
  rw [restLines, lines_append, closedLines, lastLine, lines_of_not_mem h]
  rfl

theorem firstLine_of_not_mem : firstLine a = a := by
  rw [firstLine, lines_of_not_mem h]
  rfl

theorem restLines_of_not_mem : restLines a = [] := by
  rw [restLines, lines_of_not_mem h]
  rfl

end OneLine

theorem lastLine_append_of_not_mem (a : Str) {b : Str} (h : '\n' ∉ b) :
    lastLine (a ++ b) = lastLine a ++ b := by
  rw [lastLine, lines_append, restLines_of_not_mem h, firstLine_of_not_mem h, List.getLastD_concat]

theorem restLines_ne_nil {s : Str} (h : '\n' ∈ s) : restLines s ≠ [] := by
  obtain ⟨a, b, rfl⟩ := List.append_of_mem h
  have hlines := lines_append_break a b
  rw [lines_eq (a ++ _), lines_eq a, List.cons_append] at hlines
  rw [(List.cons.inj hlines).2]
  simp [lines_ne_nil]

theorem lastLine_append_of_mem (a : Str) {b : Str} (h : '\n' ∈ b) :
    lastLine (a ++ b) = lastLine b := by
  have hrest := restLines_ne_nil h
  rw [lastLine, lastLine, lines_append, lines_eq b, List.getLastD_eq_getLast?,
    List.getLastD_eq_getLast?, List.getLast?_append_of_ne_nil _ (by simp),
    List.getLast?_cons_of_ne_nil hrest, List.getLast?_cons_of_ne_nil hrest]

/-- A file written line by line, each closed by a break. -/
theorem lines_flatMap_break (texts : List Str) :
    lines (texts.flatMap (· ++ ['\n'])) = texts.flatMap lines ++ [[]] := by
  induction texts with
  | nil => rfl
  | cons t texts ih =>
    rw [List.flatMap_cons, List.append_assoc, List.singleton_append, lines_append_break, ih,
      List.flatMap_cons, List.append_assoc]

/-- Texts on lines of their own can be told from each other. -/
theorem flatMap_break_inj {texts texts' : List Str} (h : ∀ t ∈ texts, '\n' ∉ t)
    (h' : ∀ t ∈ texts', '\n' ∉ t)
    (heq : texts.flatMap (· ++ ['\n']) = texts'.flatMap (· ++ ['\n'])) : texts = texts' := by
  have hlines : ∀ ts : List Str, (∀ t ∈ ts, '\n' ∉ t) → ts.flatMap lines = ts := by
    intro ts hts
    rw [List.flatMap_congr fun t ht => lines_of_not_mem (hts t ht), List.flatMap_singleton']
  have := congrArg lines heq
  rw [lines_flatMap_break, lines_flatMap_break, hlines texts h, hlines texts' h'] at this
  exact List.append_cancel_right this

/-! ## Words -/

theorem fields_append_blank {c : Char} (h : isSpace c = true) (a b : Str) :
    fields (a ++ c :: b) = fields a ++ fields b := by
  unfold fields
  rw [List.splitOnP_append_cons a b h, List.filter_append]

/-- A word: not empty, and without white space. -/
def IsWord (w : Str) : Prop := w ≠ [] ∧ ∀ c ∈ w, isSpace c = false

instance (w : Str) : Decidable (IsWord w) :=
  decidable_of_iff (w ≠ [] ∧ w.all (fun c => !isSpace c) = true) (by simp [IsWord])

theorem fields_of_word {w : Str} (h : IsWord w) : fields w = [w] := by
  unfold fields
  rw [List.splitOnP_eq_singleton h.2]
  simp [h.1]

theorem isWord_of_mem_fields {s w : Str} (h : w ∈ fields s) : IsWord w := by
  obtain ⟨hsplit, hne⟩ := List.mem_filter.mp h
  refine ⟨by simpa using hne, ?_⟩
  clear h hne
  induction s generalizing w with
  | nil =>
    rw [List.splitOnP_nil, List.mem_singleton] at hsplit
    simp [hsplit]
  | cons c s ih =>
    rw [List.splitOnP_cons_eq_if_modifyHead] at hsplit
    split at hsplit
    · rcases List.mem_cons.mp hsplit with rfl | hsplit
      · simp
      · exact ih hsplit
    · rename_i hc
      obtain ⟨w', ws, hws⟩ := List.exists_cons_of_ne_nil (List.splitOnP_ne_nil isSpace s)
      rw [hws] at ih
      rw [hws, List.modifyHead_cons] at hsplit
      rcases List.mem_cons.mp hsplit with rfl | hsplit
      · exact List.forall_mem_cons.mpr ⟨by simpa using hc, ih List.mem_cons_self⟩
      · exact ih (List.mem_cons_of_mem _ hsplit)

/-- Words written one after the other are read back. -/
theorem fields_append_words {words : List Str} (h : ∀ w ∈ words, IsWord w) (s : Str) :
    fields (s ++ words.flatMap (' ' :: ·)) = fields s ++ words := by
  induction words generalizing s with
  | nil => simp
  | cons w words ih =>
    obtain ⟨hw, hrest⟩ := List.forall_mem_cons.mp h
    rw [List.flatMap_cons, ← List.append_assoc, ih hrest, fields_append_blank rfl,
      fields_of_word hw, List.append_assoc, List.singleton_append]

theorem isWord_itoa (n : Int) : IsWord (itoa n) := by
  refine ⟨itoa_ne_nil n, fun c hc => ?_⟩
  have hdigit : ∀ k : Nat, c ∈ Nat.toDigits 10 k → isSpace c = false := fun k hk =>
    isSpace_of_isDigit (Nat.isDigit_of_mem_toDigits (by omega) (by omega) hk)
  unfold itoa at hc
  split at hc
  · rcases List.mem_cons.mp hc with rfl | hc
    · decide
    · exact hdigit _ hc
  · exact hdigit _ hc

/-- White space at either end makes no difference to the words. -/
theorem fields_trimSpace (s : Str) : fields (trimSpace s) = fields s := by
  have hright : ∀ t : Str, fields (t.rdropWhile isSpace) = fields t := by
    intro t
    induction t using List.reverseRecOn with
    | nil => rfl
    | append_singleton t c ih =>
      by_cases hc : isSpace c = true
      · rw [List.rdropWhile_concat_pos _ _ _ hc, ih, fields_append_blank hc]
        exact (List.append_nil _).symm
      · rw [List.rdropWhile_concat_neg _ _ _ hc]
  have hleft : ∀ t : Str, fields (t.dropWhile isSpace) = fields t := by
    intro t
    induction t with
    | nil => rfl
    | cons c t ih =>
      by_cases hc : isSpace c = true
      · rw [List.dropWhile_cons_of_pos hc, ih]
        exact (fields_append_blank hc [] t).symm
      · rw [List.dropWhile_cons_of_neg hc]
  rw [trimSpace, hright, hleft]

/-- A longer text has no fewer words. -/
theorem length_fields_le_append (a b : Str) : (fields b).length ≤ (fields (a ++ b)).length := by
  induction a with
  | nil => exact le_refl _
  | cons c a ih =>
    refine ih.trans ?_
    unfold fields
    rw [List.cons_append, List.splitOnP_cons_eq_if_modifyHead]
    cases hsplit : (a ++ b).splitOnP isSpace with
    | nil => exact absurd hsplit (List.splitOnP_ne_nil _ _)
    | cons w ws =>
      split
      · simp
      · by_cases hw : w = [] <;> simp [hw]

/-- A text that starts with a letter starts with a word. -/
theorem fields_cons {c : Char} (h : isSpace c = false) (s : Str) :
    ∃ w ws, fields (c :: s) = (c :: w) :: ws := by
  unfold fields
  rw [List.splitOnP_cons_eq_if_modifyHead, if_neg (by simp [h])]
  cases hsplit : s.splitOnP isSpace with
  | nil => exact absurd hsplit (List.splitOnP_ne_nil _ s)
  | cons w ws => exact ⟨w, ws.filter (· ≠ []), by simp⟩

end ValkeyOperator.Text

import Mathlib.Algebra.Ring.Int.Defs
import Mathlib.Algebra.Ring.Nat
import Mathlib.Data.Char
import Mathlib.Data.List.DropRight
import Mathlib.Data.List.Lex
import Mathlib.Data.List.TakeWhile

/-! Text as a list of characters: the trimming, cutting and joining operations
of a string library, and slash-separated paths with lexical cleaning.

A path whose components are all `Proper` is a fixed point of `Path.clean`, so
joining proper components never rewrites them. -/

namespace ValkeyOperator.Text

abbrev Str := List Char

instance : Coe String Str := ⟨String.toList⟩

instance instLawfulBEqStr : LawfulBEq Str := inferInstance

def hasPrefix (s p : Str) : Bool := p.isPrefixOf s

def hasSuffix (s p : Str) : Bool := p.isSuffixOf s

/-- `s` without the leading `p`; `s` itself when it does not start with `p`. -/
def trimPrefix (s p : Str) : Str := if hasPrefix s p then s.drop p.length else s

/-- `s` without the trailing `p`; `s` itself when it does not end with `p`. -/
def trimSuffix (s p : Str) : Str :=
  if hasSuffix s p then s.take (s.length - p.length) else s

/-- The text before the first `c`, and the text behind it if there is one. -/
def cut (c : Char) (s : Str) : Str × Option Str :=
  (s.takeWhile (· != c), match s.dropWhile (· != c) with | [] => none | _ :: t => some t)

def trimLeft (c : Char) (s : Str) : Str := s.dropWhile (· == c)

def trimRight (c : Char) (s : Str) : Str := s.rdropWhile (· == c)

/-- `s` without the run of `c` at either end. -/
def trim (c : Char) (s : Str) : Str := trimRight c (trimLeft c s)

/-- White space: that of ASCII and Latin-1, and the spaces and separators beyond. -/
def isSpace (c : Char) : Bool :=
  c == ' ' || c == '\t' || c == '\n' || c == '\x0b' || c == '\x0c' || c == '\r' ||
    c == '\x85' || c == '\xa0' || c == '\u1680' || (0x2000 ≤ c.toNat && c.toNat ≤ 0x200a) ||
    c == '\u2028' || c == '\u2029' || c == '\u202f' || c == '\u205f' || c == '\u3000'

def trimSpace (s : Str) : Str := (s.dropWhile isSpace).rdropWhile isSpace

/-- The words between runs of white space. -/
def fields (s : Str) : List Str := (s.splitOnP isSpace).filter (· ≠ [])

def join (sep : Str) (parts : List Str) : Str := sep.intercalate parts

/-- Decimal digits of an integer, with a leading minus sign when negative. -/
def itoa (n : Int) : Str :=
  if n < 0 then '-' :: Nat.toDigits 10 n.natAbs else Nat.toDigits 10 n.natAbs

def hexDigit (n : Nat) : Char := "0123456789abcdef".toList.get ⟨n % 16, Nat.mod_lt n (by decide)⟩

/-- A checksum with the 64 digits of a SHA-256 digest. -/
def hexChecksum (s : Str) : Str :=
  let sum := s.foldl (fun sum c => sum * 257 + c.toNat + 1) s.length
  (List.range 64).map fun i => hexDigit (sum / 16 ^ i)

theorem mem_hexChecksum {s : Str} {c : Char} (h : c ∈ hexChecksum s) :
    c ∈ "0123456789abcdef".toList := by
  obtain ⟨i, -, rfl⟩ := List.mem_map.mp h
  exact List.get_mem _ _

/-- The value of a non-empty run of decimal digits. -/
def digits? (s : Str) : Option Nat :=
  if s ≠ [] ∧ s.all Char.isDigit then some (Nat.ofDigitChars 10 s 0) else none

/-- A signed decimal number. -/
def signed? : Str → Option Int
  | '-' :: s => (digits? s).map fun n : Nat => -(n : Int)
  | '+' :: s => (digits? s).map Int.ofNat
  | s => (digits? s).map Int.ofNat

private def quoteChar (c : Char) : Str :=
  if c = '"' then "\\\"" else
  if c = '\\' then "\\\\" else
  if c = '\n' then "\\n" else
  if c = '\r' then "\\r" else
  if c = '\t' then "\\t" else
  if c.toNat < 32 ∨ c.toNat = 127 then
    "\\x" ++ [Nat.digitChar (c.toNat / 16), Nat.digitChar (c.toNat % 16)]
  else [c]

/-- The text between double quotes, with quotes, backslashes and control
characters escaped. -/
def quote (s : Str) : Str := '"' :: s.flatMap quoteChar ++ ['"']

/-- Parse a signed decimal number of 64 bits; the error names the parsing
function `fn`, the text and the reason. -/
def parseInt (fn s : Str) : Except Str Int :=
  let failure (reason : Str) : Str :=
    fn ++ ": parsing " ++ quote s ++ ": " ++ reason
  match signed? s with
  | none => .error (failure "invalid syntax")
  | some n =>
    if -(2 ^ 63) ≤ n ∧ n < 2 ^ 63 then .ok n else .error (failure "value out of range")

theorem digits?_toDigits (n : Nat) : digits? (Nat.toDigits 10 n) = some n := by
  have hdigits : (Nat.toDigits 10 n).all Char.isDigit = true :=
    List.all_eq_true.mpr fun c hc => Nat.isDigit_of_mem_toDigits (by omega) (by omega) hc
  simp [digits?, Nat.toDigits_ne_nil, hdigits, Nat.ofDigitChars_toDigits]

theorem itoa_natCast (n : Nat) : itoa n = Nat.toDigits 10 n := by
  simp [itoa, Int.not_lt.mpr (Int.natCast_nonneg n)]

/-- Neither sign is a digit. -/
theorem signed?_of_digits? {s : Str} {n : Nat} (h : digits? s = some n) :
    signed? s = some (n : Int) := by
  have hdigits : ∀ c ∈ s, c.isDigit = true := by
    unfold digits? at h
    split at h
    · rename_i hall
      exact List.all_eq_true.mp hall.2
    · cases h
  unfold signed?
  split
  · rename_i t
    exact absurd (hdigits '-' List.mem_cons_self) (by decide)
  · rename_i t
    exact absurd (hdigits '+' List.mem_cons_self) (by decide)
  · rw [h]
    rfl

theorem signed?_itoa (n : Int) : signed? (itoa n) = some n := by
  by_cases hn : n < 0
  · simp only [itoa, hn, if_true, signed?, digits?_toDigits, Option.map_some]
    congr 1
    omega
  · obtain ⟨m, rfl⟩ := Int.eq_ofNat_of_zero_le (Int.not_lt.mp hn)
    rw [itoa_natCast]
    exact signed?_of_digits? (digits?_toDigits m)

theorem parseInt_itoa (fn : Str) {n : Int} (h : -(2 ^ 63) ≤ n) (h' : n < 2 ^ 63) :
    parseInt fn (itoa n) = .ok n := by
  unfold parseInt
  rw [signed?_itoa]
  exact if_pos ⟨h, h'⟩

theorem isDigit_of_mem_itoa {n : Int} (h : 0 ≤ n) {c : Char} (hc : c ∈ itoa n) :
    c.isDigit = true := by
  obtain ⟨m, rfl⟩ := Int.eq_ofNat_of_zero_le h
  rw [itoa_natCast] at hc
  exact Nat.isDigit_of_mem_toDigits (by omega) (by omega) hc

theorem itoa_ne_nil (n : Int) : itoa n ≠ [] := by
  unfold itoa
  split
  · exact List.cons_ne_nil _ _
  · exact Nat.toDigits_ne_nil

theorem itoa_injective {m n : Int} (h : itoa m = itoa n) : m = n := by
  have := signed?_itoa m
  rw [h, signed?_itoa] at this
  exact (Option.some.inj this).symm

@[simp] theorem hasPrefix_iff {s p : Str} : hasPrefix s p = true ↔ p <+: s := by
  simp [hasPrefix]

@[simp] theorem trimPrefix_append (p s : Str) : trimPrefix (p ++ s) p = s := by
  simp [trimPrefix]

theorem trimPrefix_of_not {p s : Str} (h : ¬ p <+: s) : trimPrefix s p = s := by
  simp [trimPrefix, h]

/-! ## Trimming -/

theorem trimLeft_cons_ne {c d : Char} (h : d ≠ c) (s : Str) : trimLeft c (d :: s) = d :: s := by
  simp [trimLeft, h]

theorem trimRight_isPrefix (c : Char) (s : Str) : trimRight c s <+: s :=
  List.rdropWhile_prefix _ s

theorem trimRight_eq_self {c : Char} {s : Str} (h : s.getLast? ≠ some c) :
    trimRight c s = s := by
  refine List.rdropWhile_eq_self_iff.mpr fun hs he => h ?_
  rw [List.getLast?_eq_some_getLast hs, eq_of_beq he]

theorem trimRight_getLast? (c : Char) (s : Str) : (trimRight c s).getLast? ≠ some c := by
  intro h
  have hne : trimRight c s ≠ [] := by intro he; simp [he] at h
  have hlast := List.rdropWhile_last_not (· == c) s hne
  rw [List.getLast?_eq_some_getLast hne] at h
  exact hlast (beq_iff_eq.mpr (Option.some.inj h))

/-- Nothing is white space among the characters of ASCII that leave a mark. -/
theorem isSpace_of_graphic {c : Char} (h : 0x21 ≤ c.toNat ∧ c.toNat ≤ 0x7e) : isSpace c = false := by
  have hne : ∀ d : Char, ¬ (0x21 ≤ d.toNat ∧ d.toNat ≤ 0x7e) → (c == d) = false := by
    intro d hd
    refine beq_eq_false_iff_ne.mpr ?_
    rintro rfl
    exact hd h
  have hlow : decide (0x2000 ≤ c.toNat) = false := by
    simp only [decide_eq_false_iff_not]
    omega
  simp (disch := decide) only [isSpace, hne, hlow, Bool.false_and, Bool.or_false]

theorem toNat_of_isDigit {c : Char} (h : c.isDigit = true) : 48 ≤ c.toNat ∧ c.toNat ≤ 57 := by
  obtain ⟨hlow, hhigh⟩ := Bool.and_eq_true_iff.mp h
  exact ⟨UInt32.le_iff_toNat_le.mp (of_decide_eq_true hlow),
    UInt32.le_iff_toNat_le.mp (of_decide_eq_true hhigh)⟩

theorem toNat_of_isLower {c : Char} (h : c.isLower = true) : 97 ≤ c.toNat ∧ c.toNat ≤ 122 := by
  obtain ⟨hlow, hhigh⟩ := Bool.and_eq_true_iff.mp h
  exact ⟨UInt32.le_iff_toNat_le.mp (of_decide_eq_true hlow),
    UInt32.le_iff_toNat_le.mp (of_decide_eq_true hhigh)⟩

theorem isSpace_of_isDigit {c : Char} (h : c.isDigit = true) : isSpace c = false :=
  isSpace_of_graphic (by have := toNat_of_isDigit h; omega)

theorem trimSpace_eq_self {s : Str} (h : ∀ c ∈ s, isSpace c = false) : trimSpace s = s := by
  have hstart : s.dropWhile isSpace = s := by
    cases s with
    | nil => rfl
    | cons c rest => rw [List.dropWhile_cons_of_neg (by simp [h c List.mem_cons_self])]
  rw [trimSpace, hstart]
  refine List.rdropWhile_eq_self_iff.mpr fun hs hlast => ?_
  rw [h _ (List.getLast_mem hs)] at hlast
  cases hlast

/-- Dropping on the right stops at the last character that is kept. -/
theorem rdropWhile_append {p : Char → Bool} {s : Str} (h : ∀ c, s.getLast? = some c → p c = false)
    (t : Str) : (s ++ t).rdropWhile p = s ++ t.rdropWhile p := by
  induction t using List.reverseRecOn with
  | nil =>
    have hself : s.rdropWhile p = s := by
      refine List.rdropWhile_eq_self_iff.mpr fun hs hlast => ?_
      rw [h _ (List.getLast?_eq_some_getLast hs)] at hlast
      cases hlast
    simpa using hself
  | append_singleton t d ih =>
    rw [← List.append_assoc]
    by_cases hd : p d = true
    · rw [List.rdropWhile_concat_pos _ _ _ hd, List.rdropWhile_concat_pos _ _ _ hd, ih]
    · rw [List.rdropWhile_concat_neg _ _ _ hd, List.rdropWhile_concat_neg _ _ _ hd,
        List.append_assoc]

/-- Trimming on the right stops at the last other character. -/
theorem trimRight_append {c : Char} {s : Str} (h : s.getLast? ≠ some c) (t : Str) :
    trimRight c (s ++ t) = s ++ trimRight c t := by
  refine rdropWhile_append (fun d hd => beq_eq_false_iff_ne.mpr ?_) t
  rintro rfl
  exact h hd

theorem trim_eq_self {c : Char} {s : Str} (hfirst : s.head? ≠ some c) (hlast : s.getLast? ≠ some c) :
    trim c s = s := by
  cases s with
  | nil => rfl
  | cons d s =>
    have hd : d ≠ c := fun heq => hfirst (congrArg some heq)
    rw [trim, trimLeft_cons_ne hd, trimRight_eq_self hlast]

theorem trim_head? (c : Char) (s : Str) : (trim c s).head? ≠ some c := by
  intro h
  obtain ⟨rest, hrest⟩ := trimRight_isPrefix c (trimLeft c s)
  have hhead : (trimLeft c s).head? = some c := by
    rw [← hrest, List.head?_append]
    exact congrArg (·.or rest.head?) h
  have hnot := List.head?_dropWhile_not (· == c) s
  rw [← trimLeft, hhead] at hnot
  simp at hnot

/-! ## Cutting -/

section Delimited

variable {c : Char} {s : Str}

theorem bne_of_not_mem (h : c ∉ s) : ∀ a ∈ s, (a != c) = true := fun _ ha =>
  bne_iff_ne.mpr (ne_of_mem_of_not_mem ha h)

theorem takeWhile_append_delim (h : c ∉ s) (t : Str) :
    (s ++ c :: t).takeWhile (· != c) = s := by
  simp [List.takeWhile_append_of_pos (bne_of_not_mem h)]

theorem dropWhile_append_delim (h : c ∉ s) (t : Str) :
    (s ++ c :: t).dropWhile (· != c) = c :: t := by
  simp [List.dropWhile_append_of_pos (bne_of_not_mem h)]

theorem dropWhile_of_not_mem (h : c ∉ s) : s.dropWhile (· != c) = [] :=
  List.dropWhile_eq_nil_iff.mpr (bne_of_not_mem h)

theorem cut_append (h : c ∉ s) (t : Str) : cut c (s ++ c :: t) = (s, some t) := by
  simp [cut, dropWhile_append_delim h, takeWhile_append_delim h]

theorem cut_of_not_mem (h : c ∉ s) : cut c s = (s, none) := by
  simp [cut, dropWhile_of_not_mem h, List.takeWhile_eq_self_iff.mpr (bne_of_not_mem h)]

end Delimited

/-! ## Joining -/

theorem join_char_cons (sep : Char) (part : Str) (parts : List Str) :
    join [sep] (part :: parts) = part ++ parts.flatMap (sep :: ·) := by
  induction parts generalizing part with
  | nil => simp [join]
  | cons next parts ih =>
    have hrest := ih next
    simp only [join] at hrest ⊢
    rw [List.intercalate_cons_cons, hrest]
    simp

theorem mem_join_char {sep c : Char} {parts : List Str} (h : c ∈ join [sep] parts) :
    c = sep ∨ ∃ part ∈ parts, c ∈ part := by
  cases parts with
  | nil => simp [join] at h
  | cons part parts =>
    rw [join_char_cons, List.mem_append, List.mem_flatMap] at h
    rcases h with h | ⟨next, hnext, h⟩
    · exact .inr ⟨part, List.mem_cons_self, h⟩
    · rcases List.mem_cons.mp h with rfl | h
      · exact .inl rfl
      · exact .inr ⟨next, List.mem_cons_of_mem _ hnext, h⟩

/-! ## Slash-separated paths -/

namespace Path

/-- One component put on the stack of those kept so far, innermost first:
empty and `.` components vanish, `..` takes back a named component, and is
dropped at the root of a rooted path. -/
def pushComponent (rooted : Bool) (stack : List Str) (comp : Str) : List Str :=
  if comp = [] ∨ comp = ['.'] then stack
  else if comp = ['.', '.'] then
    match stack with
    | top :: below => if top = ['.', '.'] then comp :: stack else below
    | [] => if rooted then [] else [comp]
  else comp :: stack

/-- The shortest equivalent path, computed lexically. -/
def clean (p : Str) : Str :=
  let rooted := hasPrefix p ['/']
  let kept := (List.splitOn '/' p).foldl (pushComponent rooted) []
  let body := join ['/'] kept.reverse
  if rooted then '/' :: body else if body = [] then ['.'] else body

/-- The non-empty elements joined by slashes and cleaned; empty when there is
nothing to join. -/
def joinAll (elems : List Str) : Str :=
  let parts := elems.filter (· ≠ [])
  if parts = [] then [] else clean (join ['/'] parts)

/-- A component that names one entry of a directory: not empty, no slash, and
neither of the two dot names. -/
structure Proper (comp : Str) : Prop where
  nonempty : comp ≠ []
  no_slash : '/' ∉ comp
  not_dot : comp ≠ ['.']
  not_dotdot : comp ≠ ['.', '.']

instance (comp : Str) : Decidable (Proper comp) :=
  decidable_of_iff (comp ≠ [] ∧ '/' ∉ comp ∧ comp ≠ ['.'] ∧ comp ≠ ['.', '.'])
    ⟨fun h => ⟨h.1, h.2.1, h.2.2.1, h.2.2.2⟩,
      fun h => ⟨h.nonempty, h.no_slash, h.not_dot, h.not_dotdot⟩⟩

theorem pushComponent_proper {rooted : Bool} {stack : List Str} {comp : Str} (h : Proper comp) :
    pushComponent rooted stack comp = comp :: stack := by
  simp [pushComponent, h.nonempty, h.not_dot, h.not_dotdot]

theorem foldl_pushComponent_proper {rooted : Bool} {comps : List Str}
    (h : ∀ c ∈ comps, Proper c) (stack : List Str) :
    comps.foldl (pushComponent rooted) stack = comps.reverse ++ stack := by
  induction comps generalizing stack with
  | nil => rfl
  | cons c comps ih =>
    rw [List.foldl_cons, pushComponent_proper (h c (by simp)), ih (fun d hd => h d (by simp [hd]))]
    simp

theorem join_cons (c : Str) (comps : List Str) :
    join ['/'] (c :: comps) = c ++ (comps.flatMap fun d => '/' :: d) := join_char_cons '/' c comps

/-- Cleaning leaves a path of proper components as it is. -/
theorem clean_join_proper {comps : List Str} (hne : comps ≠ []) (h : ∀ c ∈ comps, Proper c) :
    clean (join ['/'] comps) = join ['/'] comps := by
  have hsplit : List.splitOn '/' (join ['/'] comps) = comps :=
    List.splitOn_intercalate '/' (fun c hc => (h c hc).no_slash) hne
  obtain ⟨c, rest, rfl⟩ := List.exists_cons_of_ne_nil hne
  obtain ⟨d, c', rfl⟩ := List.exists_cons_of_ne_nil (h c (by simp)).nonempty
  have hd : d ≠ '/' := fun e => (h (d :: c') (by simp)).no_slash (by simp [e])
  have hroot : hasPrefix (join ['/'] ((d :: c') :: rest)) ['/'] = false := by
    simp [join_cons, hasPrefix, List.isPrefixOf, hd.symm]
  have hkept := @foldl_pushComponent_proper false _ h []
  simp only [clean, hsplit, hroot, hkept]
  simp [join_cons]

theorem clean_rooted_proper {comps : List Str} (hne : comps ≠ []) (h : ∀ c ∈ comps, Proper c) :
    clean ('/' :: join ['/'] comps) = '/' :: join ['/'] comps := by
  obtain ⟨c, rest, rfl⟩ := List.exists_cons_of_ne_nil hne
  have hjoin : join ['/'] ([] :: c :: rest) = '/' :: join ['/'] (c :: rest) := by
    simp [join_cons]
  have hsplit : List.splitOn '/' ('/' :: join ['/'] (c :: rest)) = [] :: c :: rest := by
    rw [← hjoin]
    refine List.splitOn_intercalate '/' (fun d hd => ?_) (by simp)
    rcases List.mem_cons.mp hd with rfl | hd
    · simp
    · exact (h d hd).no_slash
  have hroot : hasPrefix ('/' :: join ['/'] (c :: rest)) ['/'] = true := by
    simp [hasPrefix, List.isPrefixOf]
  have hkept : ([] :: c :: rest).foldl (pushComponent true) [] = (c :: rest).reverse := by
    simpa [pushComponent] using @foldl_pushComponent_proper true _ h []
  simp only [clean, hsplit, hroot, hkept]
  simp

theorem joinAll_pair {a b : List Str} (ha : a ≠ []) (hb : b ≠ [])
    (h : ∀ c ∈ a ++ b, Proper c) :
    joinAll [join ['/'] a, join ['/'] b] = join ['/'] (a ++ b) := by
  obtain ⟨x, a, rfl⟩ := List.exists_cons_of_ne_nil ha
  obtain ⟨y, b, rfl⟩ := List.exists_cons_of_ne_nil hb
  have hx := (h x (by simp)).nonempty
  have hy := (h y (by simp)).nonempty
  have hjoin : join ['/'] [join ['/'] (x :: a), join ['/'] (y :: b)] =
      join ['/'] (x :: a ++ y :: b) := by
    simp [join_cons, List.flatMap_append]
  have hparts : [join ['/'] (x :: a), join ['/'] (y :: b)].filter (· ≠ []) =
      [join ['/'] (x :: a), join ['/'] (y :: b)] := by
    simp [join_cons, hx, hy]
  rw [joinAll, hparts, hjoin]
  simpa using clean_join_proper (by simp) h

theorem join_append_singleton (comps : List Str) (comp : Str) :
    ∃ dir, join ['/'] (comps ++ [comp]) = dir ++ comp := by
  cases comps with
  | nil => exact ⟨[], by simp [join]⟩
  | cons c rest =>
    refine ⟨c ++ (rest.flatMap fun d => '/' :: d) ++ ['/'], ?_⟩
    simp [join_cons]

/-- A path that is joined from anything and a proper last component ends in it. -/
theorem joinAll_ends_proper (dir : Str) {comp : Str} (h : Proper comp) :
    ∃ d, joinAll [dir, comp] = d ++ comp := by
  by_cases hdir : dir = []
  · have hclean : clean (join ['/'] [comp]) = join ['/'] [comp] :=
      clean_join_proper (by simp) (by simpa using h)
    refine ⟨[], ?_⟩
    simpa [joinAll, hdir, h.nonempty, join] using hclean
  · have hjoin : join ['/'] [dir, comp] = dir ++ '/' :: comp := by simp [join_cons]
    have hparts : [dir, comp].filter (· ≠ []) = [dir, comp] := by simp [hdir, h.nonempty]
    have hsplit : List.splitOn '/' comp = [comp] := by
      have hone : List.splitOn '/' (join ['/'] [comp]) = [comp] :=
        List.splitOn_intercalate '/' (by simpa using h.no_slash) (by simp)
      simpa [join] using hone
    have hkept : ∀ rooted, (List.splitOn '/' (dir ++ '/' :: comp)).foldl (pushComponent rooted) [] =
        comp :: (List.splitOn '/' dir).foldl (pushComponent rooted) [] := by
      intro rooted
      rw [List.splitOn_append_cons_self, hsplit, List.foldl_append]
      exact pushComponent_proper h
    obtain ⟨d, hd⟩ := join_append_singleton
      ((List.splitOn '/' dir).foldl (pushComponent (hasPrefix (dir ++ '/' :: comp) ['/'])) []).reverse
      comp
    have hbody : d ++ comp ≠ [] := by simp [h.nonempty]
    rw [joinAll, hparts, hjoin]
    simp only [clean, hkept, List.reverse_cons, hd, reduceCtorEq, if_false, if_neg hbody]
    split
    · exact ⟨'/' :: d, rfl⟩
    · exact ⟨d, rfl⟩

end Path

end ValkeyOperator.Text

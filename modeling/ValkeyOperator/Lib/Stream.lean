import ValkeyOperator.Lib.Text

/-! Byte streams read in chunks.

A reader hands out its content piece by piece, in pieces whose size the caller
bounds and the source chooses, and then an end: end of file or a failure. The
two observations that do not depend on the chunking, the whole content and the
end, are fields of the reader together with the law that ties each read to
them, so `drain` of any reader is known without looking at its chunks.

`limited`, `tee` and `buffered` are the usual wrappers. A limited reader reports
end of file both at its limit and when the inner reader ends early. -/

namespace ValkeyOperator.Stream
open Text

/-- A byte string. Text and data share one alphabet, a character standing for a
byte. -/
abbrev Bytes := Str

inductive End where
  | eof
  | failed (msg : Str)
deriving DecidableEq

inductive Chunk where
  | data (bs : Bytes)
  | stop (e : End)

/-- What one read may return, given what the stream still holds: a non-empty
piece from the front, or the end once nothing is left. -/
def ReadLaw {σ : Type} (content : σ → Bytes) (ending : σ → End) (n : Nat) (s : σ) :
    Chunk × σ → Prop
  | (.data bs, s') => bs ≠ [] ∧ bs.length ≤ n ∧ content s = bs ++ content s' ∧
      ending s' = ending s
  | (.stop e, _) => content s = [] ∧ ending s = e

structure Reader (σ : Type) where
  read : Nat → σ → Chunk × σ
  content : σ → Bytes
  ending : σ → End
  law : ∀ n s, 0 < n → ReadLaw content ending n s (read n s)

variable {σ τ : Type}

/-! ## Reading to the end -/

/-- Read until the stream ends, with buffers of `size i + 1` bytes; `none` when
the fuel runs out first. -/
def drainFuel (R : Reader σ) (size : Nat → Nat) : Nat → Nat → σ → Option ((Bytes × End) × σ)
  | 0, _, _ => none
  | fuel + 1, i, s =>
    match R.read (size i + 1) s with
    | (.stop e, s') => some (([], e), s')
    | (.data bs, s') =>
      (drainFuel R size fuel (i + 1) s').map fun r => ((bs ++ r.1.1, r.1.2), r.2)

/-- Reading to the end ends after at most one read per byte and one for the
end, whatever the buffer sizes, and returns the whole content. -/
theorem drainFuel_spec (R : Reader σ) (size : Nat → Nat) (fuel i : Nat) (s : σ)
    (h : (R.content s).length < fuel) :
    ∃ s', drainFuel R size fuel i s = some ((R.content s, R.ending s), s') := by
  induction fuel generalizing i s with
  | zero => omega
  | succ fuel ih =>
    have hlaw := R.law (size i + 1) s (by omega)
    unfold drainFuel
    rcases hr : R.read (size i + 1) s with ⟨c, s'⟩
    rw [hr] at hlaw
    cases c with
    | stop e =>
      obtain ⟨hc, he⟩ := hlaw
      exact ⟨s', by simp [hc, he]⟩
    | data bs =>
      obtain ⟨hne, -, hc, he⟩ := hlaw
      have hpos := List.length_pos_iff.mpr hne
      have hlen : (R.content s).length = bs.length + (R.content s').length := by simp [hc]
      obtain ⟨t, ht⟩ := ih (i + 1) s' (by omega)
      exact ⟨t, by simp [ht, hc, he]⟩

def drain (R : Reader σ) (size : Nat → Nat) (s : σ) : Option ((Bytes × End) × σ) :=
  drainFuel R size ((R.content s).length + 1) 0 s

theorem drain_spec (R : Reader σ) (size : Nat → Nat) (s : σ) :
    ∃ s', drain R size s = some ((R.content s, R.ending s), s') :=
  drainFuel_spec R size _ _ s (Nat.lt_succ_self _)

/-! ## Limiting -/

/-- At most `s.2` more bytes of the inner stream. -/
def limitedRead (R : Reader σ) (n : Nat) (s : σ × Nat) : Chunk × (σ × Nat) :=
  if s.2 = 0 then (.stop .eof, s)
  else
    match R.read (min n s.2) s.1 with
    | (.data bs, s') => (.data bs, (s', s.2 - bs.length))
    | (.stop e, s') => (.stop e, (s', s.2))

def limited (R : Reader σ) : Reader (σ × Nat) where
  read := limitedRead R
  content s := (R.content s.1).take s.2
  ending s := if s.2 ≤ (R.content s.1).length then .eof else R.ending s.1
  law n s hn := by
    obtain ⟨s, k⟩ := s
    unfold limitedRead
    by_cases hk : k = 0
    · simp [hk, ReadLaw]
    · simp only [hk, if_false]
      have hlaw := R.law (min n k) s (by omega)
      rcases hr : R.read (min n k) s with ⟨c, s'⟩
      rw [hr] at hlaw
      cases c with
      | stop e =>
        obtain ⟨hc, he⟩ := hlaw
        simp [ReadLaw, hc, he, hk]
      | data bs =>
        obtain ⟨hne, hle, hc, he⟩ := hlaw
        have hbs : bs.length ≤ k := by omega
        refine ⟨hne, by omega, ?_, ?_⟩
        · simp [hc, List.take_append, List.take_of_length_le hbs]
        · simp only [hc, List.length_append, he]
          congr 1
          exact propext ⟨fun h => by omega, fun h => by omega⟩

/-! ## Copying into a sink -/

/-- A writer that cannot fail. Writing twice is writing the concatenation. -/
structure Sink (τ : Type) where
  write : τ → Bytes → τ
  write_nil : ∀ t, write t [] = t
  write_append : ∀ t a b, write t (a ++ b) = write (write t a) b

def teeRead (R : Reader σ) (K : Sink τ) (n : Nat) (s : σ × τ) : Chunk × (σ × τ) :=
  match R.read n s.1 with
  | (.data bs, s') => (.data bs, (s', K.write s.2 bs))
  | (.stop e, s') => (.stop e, (s', s.2))

/-- Every piece read is also written to the sink. -/
def tee (R : Reader σ) (K : Sink τ) : Reader (σ × τ) where
  read := teeRead R K
  content s := R.content s.1
  ending s := R.ending s.1
  law n s hn := by
    have hlaw := R.law n s.1 hn
    unfold teeRead
    rcases hr : R.read n s.1 with ⟨c, s'⟩
    rw [hr] at hlaw
    cases c <;> exact hlaw

theorem drainFuel_tee (R : Reader σ) (K : Sink τ) (size : Nat → Nat) (fuel i : Nat) (s : σ) (t : τ) :
    drainFuel (tee R K) size fuel i (s, t) =
      (drainFuel R size fuel i s).map fun r => (r.1, (r.2, K.write t r.1.1)) := by
  induction fuel generalizing i s t with
  | zero => rfl
  | succ fuel ih =>
    simp only [drainFuel, tee, teeRead]
    rcases hr : R.read (size i + 1) s with ⟨c, s'⟩
    cases c with
    | stop e => simp [K.write_nil]
    | data bs =>
      have h := ih (i + 1) s' (K.write t bs)
      simp only [tee] at h
      simp [h, Function.comp_def, K.write_append]

/-- Once the stream is drained the sink has received exactly the content. -/
theorem drain_tee (R : Reader σ) (K : Sink τ) (size : Nat → Nat) (s : σ) (t : τ) :
    drain (tee R K) size (s, t) =
      (drain R size s).map fun r => (r.1, (r.2, K.write t r.1.1)) :=
  drainFuel_tee R K size _ 0 s t

/-! ## A byte string as a stream -/

def sliceRead (n : Nat) (s : Bytes × End) : Chunk × (Bytes × End) :=
  if s.1 = [] then (.stop s.2, s) else (.data (s.1.take n), (s.1.drop n, s.2))

private theorem take_law {bs : Bytes} {n : Nat} (hn : 0 < n) (hne : bs ≠ []) (rest : Bytes) :
    bs.take n ≠ [] ∧ (bs.take n).length ≤ n ∧ bs ++ rest = bs.take n ++ (bs.drop n ++ rest) := by
  refine ⟨?_, List.length_take_le n bs, by simp [← List.append_assoc]⟩
  simp only [ne_eq, List.take_eq_nil_iff, not_or]
  exact ⟨by omega, hne⟩

/-- The bytes in order, then the given end. -/
def slice : Reader (Bytes × End) where
  read := sliceRead
  content s := s.1
  ending s := s.2
  law n s hn := by
    unfold sliceRead
    split
    · rename_i he
      exact ⟨he, rfl⟩
    · rename_i hne
      obtain ⟨h1, h2, -⟩ := take_law hn hne []
      exact ⟨h1, h2, by simp, rfl⟩

/-! ## Buffering -/

def bufSize : Nat := 4096

/-- Bytes read ahead of the caller, and the stream behind them. -/
structure Buffered (σ : Type) where
  buf : Bytes
  inner : σ

def Buffered.fresh (s : σ) : Buffered σ := ⟨[], s⟩

def bufferedRead (R : Reader σ) (n : Nat) (s : Buffered σ) : Chunk × Buffered σ :=
  if s.buf ≠ [] then (.data (s.buf.take n), { s with buf := s.buf.drop n })
  else if bufSize ≤ n then
    -- a large request bypasses the buffer
    ((R.read n s.inner).1, ⟨[], (R.read n s.inner).2⟩)
  else
    match R.read bufSize s.inner with
    | (.data bs, s') => (.data (bs.take n), ⟨bs.drop n, s'⟩)
    | (.stop e, s') => (.stop e, ⟨[], s'⟩)

def buffered (R : Reader σ) : Reader (Buffered σ) where
  read := bufferedRead R
  content s := s.buf ++ R.content s.inner
  ending s := R.ending s.inner
  law n s hn := by
    obtain ⟨buf, s⟩ := s
    unfold bufferedRead
    by_cases hbuf : buf = []
    · simp only [hbuf, ne_eq, not_true_eq_false, if_false]
      split
      · have hlaw := R.law n s hn
        rcases hr : R.read n s with ⟨c, s'⟩
        rw [hr] at hlaw
        cases c <;> exact hlaw
      · have hlaw := R.law bufSize s (by decide)
        rcases hr : R.read bufSize s with ⟨c, s'⟩
        rw [hr] at hlaw
        cases c with
        | stop e => simpa [ReadLaw] using hlaw
        | data bs =>
          obtain ⟨hne, -, hc, he⟩ := hlaw
          obtain ⟨h1, h2, h3⟩ := take_law hn hne (R.content s')
          exact ⟨h1, h2, by simpa [hc] using h3, he⟩
    · simp only [ne_eq, hbuf, not_false_eq_true, if_true]
      obtain ⟨h1, h2, h3⟩ := take_law hn hbuf (R.content s)
      exact ⟨h1, h2, h3, rfl⟩

/-- Collect up to and including the next `delim`, refilling as needed. -/
def readUntilFuel (R : Reader σ) (delim : Char) :
    Nat → Bytes → Buffered σ → Option (Except End Bytes × Buffered σ)
  | 0, _, _ => none
  | fuel + 1, acc, s =>
    match s.buf.dropWhile (· != delim) with
    | _ :: rest => some (.ok (acc ++ s.buf.takeWhile (· != delim) ++ [delim]), { s with buf := rest })
    | [] =>
      match R.read bufSize s.inner with
      | (.data bs, s') => readUntilFuel R delim fuel (acc ++ s.buf) ⟨bs, s'⟩
      | (.stop e, s') => some (.error e, ⟨[], s'⟩)

def readUntil (R : Reader σ) (delim : Char) (s : Buffered σ) :
    Option (Except End Bytes × Buffered σ) :=
  readUntilFuel R delim ((R.content s.inner).length + 1) [] s

private theorem split_in_buf {delim : Char} {buf more line rest : Bytes}
    (hbuf : delim ∈ buf) (hline : delim ∉ line) (h : buf ++ more = line ++ delim :: rest) :
    ∃ tail, buf = line ++ delim :: tail ∧ rest = tail ++ more := by
  rcases List.append_eq_append_iff.mp h with ⟨a, rfl, -⟩ | ⟨c, rfl, hc⟩
  · exact absurd (List.mem_append_left a hbuf) hline
  · cases c with
    | nil => exact absurd (by simpa using hbuf) hline
    | cons d tail =>
      simp only [List.cons_append, List.cons.injEq] at hc
      exact ⟨tail, by simp [hc.1], hc.2⟩

private theorem split_past_buf {delim : Char} {buf more line rest : Bytes}
    (hbuf : delim ∉ buf) (h : buf ++ more = line ++ delim :: rest) :
    ∃ line', line = buf ++ line' ∧ more = line' ++ delim :: rest := by
  rcases List.append_eq_append_iff.mp h with ⟨a, hl, hm⟩ | ⟨c, rfl, hc⟩
  · exact ⟨a, hl, hm⟩
  · cases c with
    | nil => exact ⟨[], by simp, by simpa using hc.symm⟩
    | cons d tail =>
      simp only [List.cons_append, List.cons.injEq] at hc
      exact absurd (by simp [hc.1]) hbuf

/-- A line that the stream holds is returned whole, however it was cut into
pieces, and reading goes on right behind it. -/
theorem readUntilFuel_found (R : Reader σ) {delim : Char} (fuel : Nat) (acc : Bytes)
    (s : Buffered σ) {line rest : Bytes} (hline : delim ∉ line)
    (hc : (buffered R).content s = line ++ delim :: rest)
    (hf : (R.content s.inner).length < fuel) :
    ∃ s', readUntilFuel R delim fuel acc s = some (.ok (acc ++ line ++ [delim]), s') ∧
      (buffered R).content s' = rest ∧ (buffered R).ending s' = (buffered R).ending s := by
  induction fuel generalizing acc s line with
  | zero => omega
  | succ fuel ih =>
    obtain ⟨buf, s⟩ := s
    simp only [buffered] at hc ⊢
    unfold readUntilFuel
    by_cases hbuf : delim ∈ buf
    · obtain ⟨tail, rfl, rfl⟩ := split_in_buf hbuf hline hc
      have hd := dropWhile_append_delim hline tail
      have ht := takeWhile_append_delim hline tail
      exact ⟨⟨tail, s⟩, by simp [hd, ht], rfl, rfl⟩
    · simp only [dropWhile_of_not_mem hbuf]
      -- the buffered bytes all belong to the line, so the rest of it is still to come
      obtain ⟨line', rfl, hmore⟩ := split_past_buf hbuf hc
      have hlaw := R.law bufSize s (by decide)
      rcases hr : R.read bufSize s with ⟨c, s'⟩
      rw [hr] at hlaw
      cases c with
      | stop e => simp [ReadLaw, hmore] at hlaw
      | data bs =>
        obtain ⟨hne, -, hcont, he⟩ := hlaw
        have hpos := List.length_pos_iff.mpr hne
        have hlen : (R.content s).length = bs.length + (R.content s').length := by simp [hcont]
        have hline' : delim ∉ line' := fun hm => hline (List.mem_append_right buf hm)
        obtain ⟨t, ht, hrest, hend⟩ := ih (acc ++ buf) ⟨bs, s'⟩ hline'
          (by simpa [buffered, ← hcont] using hmore) (by simp only at hf ⊢; omega)
        exact ⟨t, by simp [ht], hrest, by simpa [buffered, he] using hend⟩

end ValkeyOperator.Stream

import BrebOS.Utils.CircularBuffer

/-!
# Pipes

`Pipe` of `file_management/FileInterface.cpp`.  The two ends of a pipe share one buffer; an end knows
whether the other one still exists.

**A pipe is a queue** as long as no write comes while the queue wraps around the end of the buffer.
`NeverWraps` says so in terms of the requests alone.
-/

namespace BrebOS

/-- The error codes a call on a file returns, negated. -/
inductive Errno
  | ebadf
  | einval
  | epipe
  deriving DecidableEq, Repr

namespace Pipe

/-- `Pipe::End`. -/
inductive End
  | read
  | write
  deriving DecidableEq, Repr

end Pipe

/-- `Pipe::BUF_SIZE`. -/
def pipeBufSize : ℕ := 65536

/-- The two ends of a pipe: the buffer they share, and which of them exist. -/
structure Pipe where
  buf : CircularBuffer := { capacity := pipeBufSize }
  readOpen : Bool := true
  writeOpen : Bool := true

namespace Pipe

/-- `Pipe::read` on an end: the bytes copied to the caller. -/
def read (e : End) (count : ℕ) (p : Pipe) : Except Fault (Except Errno (List UInt8) × Pipe) :=
  if e ≠ .read then .ok (.error .einval, p)
  else
    let (sections, buf) := p.buf.read count
    if count < sections.1.size + sections.2.size then .error .outOfBounds
    else do
      let l₁ ← p.buf.copyOut sections.1
      let l₂ ← p.buf.copyOut sections.2
      .ok (.ok (l₁ ++ l₂), { p with buf })

/-- `Pipe::write` on an end: how many bytes were accepted. -/
def write (e : End) (bytes : List UInt8) (p : Pipe) : Except Fault (Except Errno ℕ × Pipe) :=
  if e = .read then .ok (.error .einval, p)
  else if !p.readOpen then .ok (.error .epipe, p)
  else do
    let (n, buf) ← p.buf.write bytes
    .ok (.ok n, { p with buf })

/-- `Pipe::should_wait_for_data_on_read` on the read end: whether the write end exists. -/
def shouldWaitForDataOnRead (p : Pipe) : Bool := p.writeOpen

variable {p p' : Pipe} {bytes : List UInt8} {n k : ℕ}

/-- **`Pipe::read`** takes the oldest bytes. -/
lemma read_spec (h : p.buf.InBounds) (n : ℕ) : p.read .read n =
    .ok (.ok (p.buf.contents.take n), { p with buf := (p.buf.read n).2 }) := by
  obtain ⟨l₁, l₂, h₁, h₂, htake, hs₁, hs₂⟩ := CircularBuffer.copyOut_read h (n := n)
  have hlen : ¬ n < (p.buf.read n).1.1.size + (p.buf.read n).1.2.size := by
    have : (l₁ ++ l₂).length = (p.buf.contents.take n).length := by rw [htake]
    rw [List.length_append, List.length_take] at this
    omega
  simp only [read, ne_eq, not_true_eq_false, if_false, if_neg hlen, h₁, h₂, ← htake]
  rfl

/-- **`Pipe::write`** appends what there is room for, while the queue does not wrap. -/
lemma write_spec (bytes : List UInt8) (h : p.buf.InBounds) (hopen : p.readOpen = true)
    (hflat : p.buf.beg + p.buf.size ≤ p.buf.capacity) : ∃ b,
    p.write .write bytes = .ok (.ok (min bytes.length (p.buf.capacity - p.buf.size)),
        { p with buf := b }) ∧
      CircularBuffer.Appended bytes (min bytes.length (p.buf.capacity - p.buf.size)) p.buf b := by
  obtain ⟨b, hb, happ⟩ := CircularBuffer.write_spec bytes h hflat
  refine ⟨b, ?_, happ⟩
  simp only [write, reduceCtorEq, if_false, hopen, Bool.not_true, Bool.false_eq_true, hb]
  rfl

/-- **`Pipe::write`** goes out of bounds when the queue wraps. -/
lemma write_wrapped (h : p.buf.InBounds) (hopen : p.readOpen = true)
    (hwrap : p.buf.capacity < p.buf.beg + p.buf.size) :
    p.write .write bytes = .error .outOfBounds := by
  simp only [write, reduceCtorEq, if_false, hopen, Bool.not_true, Bool.false_eq_true,
    CircularBuffer.write_wrapped h hwrap]
  rfl

/-! ## Runs -/

end Pipe

/-- A call on one of the ends of a pipe. -/
inductive PipeOp
  | write (bytes : List UInt8)
  | read (count : ℕ)

/-- What the calls of a run have done: the bytes the reads returned, those the writes accepted, and
the number each call returned. -/
structure PipeTrace where
  returned : List UInt8 := []
  accepted : List UInt8 := []
  counts : List ℕ := []

/-- The trace of a run that starts with a write. -/
def PipeTrace.write (bytes : List UInt8) (n : ℕ) (t : PipeTrace) : PipeTrace :=
  { t with accepted := bytes.take n ++ t.accepted, counts := n :: t.counts }

/-- The trace of a run that starts with a read. -/
def PipeTrace.read (l : List UInt8) (t : PipeTrace) : PipeTrace :=
  { t with returned := l ++ t.returned, counts := l.length :: t.counts }

namespace Pipe

variable {p p' : Pipe} {bytes : List UInt8} {n k : ℕ} {ops : List PipeOp}

/-- A run of calls, each on the end it belongs to. -/
def run : List PipeOp → Pipe → Except Fault (PipeTrace × Pipe)
  | [], p => .ok ({}, p)
  | .write bytes :: ops, p => do
      match ← p.write .write bytes with
      | (.ok n, p) => do
          let (t, p) ← run ops p
          .ok ({ t with accepted := bytes.take n ++ t.accepted, counts := n :: t.counts }, p)
      | (.error _, p) => run ops p
  | .read count :: ops, p => do
      match ← p.read .read count with
      | (.ok l, p) => do
          let (t, p) ← run ops p
          .ok ({ t with returned := l ++ t.returned, counts := l.length :: t.counts }, p)
      | (.error _, p) => run ops p

/-- The numbers the calls return on a queue of a given capacity and length. -/
def fifoCounts (capacity : ℕ) : ℕ → List PipeOp → List ℕ
  | _, [] => []
  | size, .write bytes :: ops =>
      min bytes.length (capacity - size) ::
        fifoCounts capacity (size + min bytes.length (capacity - size)) ops
  | size, .read count :: ops => min count size :: fifoCounts capacity (size - min count size) ops

/-- No write comes while the queue wraps around the end of the buffer. -/
def NeverWraps (capacity : ℕ) : ℕ → ℕ → List PipeOp → Prop
  | _, _, [] => True
  | beg, size, .write bytes :: ops => beg + size ≤ capacity ∧
      NeverWraps capacity beg (size + min bytes.length (capacity - size)) ops
  | beg, size, .read count :: ops =>
      NeverWraps capacity
        (if capacity ≤ beg + min count size then beg + min count size - capacity
          else beg + min count size) (size - min count size) ops

/-- The run ends as that of a queue: nothing is lost, reordered or made up. -/
def EndsAsFifo (ops : List PipeOp) (p : Pipe) : Prop :=
  ∃ t p', run ops p = .ok (t, p') ∧ t.returned ++ p'.buf.contents = p.buf.contents ++ t.accepted ∧
    t.counts = fifoCounts p.buf.capacity p.buf.size ops ∧ p'.buf.InBounds

/-- The pipe is a queue after every call of the run. -/
def IsFifo (ops : List PipeOp) (p : Pipe) : Prop := ∀ k, EndsAsFifo (ops.take k) p

lemma NeverWraps.take {capacity : ℕ} : ∀ {ops : List PipeOp} {beg size : ℕ} (k : ℕ),
    NeverWraps capacity beg size ops → NeverWraps capacity beg size (ops.take k)
  | _, _, _, 0, _ => trivial
  | [], _, _, _ + 1, _ => trivial
  | .write _ :: _, _, _, k + 1, h => ⟨h.1, h.2.take k⟩
  | .read _ :: _, _, _, k + 1, h => NeverWraps.take k h

lemma run_write (h : p.write .write bytes = .ok (.ok n, p')) :
    run (.write bytes :: ops) p = (run ops p').map fun r => (PipeTrace.write bytes n r.1, r.2) := by
  rw [run, h]
  change (run ops p' >>= _) = _
  cases run ops p' <;> rfl

lemma run_read {l : List UInt8} (h : p.read .read n = .ok (.ok l, p')) :
    run (.read n :: ops) p = (run ops p').map fun r => (PipeTrace.read l r.1, r.2) := by
  rw [run, h]
  change (run ops p' >>= _) = _
  cases run ops p' <;> rfl

lemma endsAsFifo_write {b : CircularBuffer}
    (h : p.write .write bytes = .ok (.ok n, { p with buf := b }))
    (hn : n = min bytes.length (p.buf.capacity - p.buf.size))
    (happ : CircularBuffer.Appended bytes n p.buf b) :
    EndsAsFifo (.write bytes :: ops) p ↔ EndsAsFifo ops { p with buf := b } := by
  have hq := happ.contents (by omega)
  obtain ⟨hcap, -, hsize, -⟩ := happ
  rw [EndsAsFifo, EndsAsFifo, run_write h]
  simp only [map_eq_ok, fifoCounts, ← hn, hcap, hsize, hq]
  constructor
  · rintro ⟨_, _, ⟨⟨t, p'⟩, hrun, heq⟩, hconcat, hcounts, hin⟩
    obtain ⟨rfl, rfl⟩ := Prod.mk.inj heq
    refine ⟨t, p', hrun, ?_, ?_, hin⟩
    · simpa [PipeTrace.write] using hconcat
    · simpa [PipeTrace.write] using hcounts
  · rintro ⟨t, p', hrun, hconcat, hcounts, hin⟩
    refine ⟨_, _, ⟨(t, p'), hrun, rfl⟩, ?_, ?_, hin⟩
    · simpa [PipeTrace.write] using hconcat
    · simpa [PipeTrace.write] using hcounts

lemma endsAsFifo_read (h : p.buf.InBounds) :
    EndsAsFifo (.read n :: ops) p ↔ EndsAsFifo ops { p with buf := (p.buf.read n).2 } := by
  have hcap : (p.buf.read n).2.capacity = p.buf.capacity := rfl
  have hsize : (p.buf.read n).2.size = p.buf.size - min n p.buf.size := rfl
  have hq := CircularBuffer.contents_read h (n := n)
  have hsplit := List.take_append_drop n p.buf.contents
  rw [EndsAsFifo, EndsAsFifo, run_read (read_spec h n)]
  simp only [map_eq_ok, fifoCounts, hcap, hsize, hq]
  constructor
  · rintro ⟨_, _, ⟨⟨t, p'⟩, hrun, heq⟩, hconcat, hcounts, hin⟩
    obtain ⟨rfl, rfl⟩ := Prod.mk.inj heq
    refine ⟨t, p', hrun, ?_, ?_, hin⟩
    · simp only [PipeTrace.read, List.append_assoc] at hconcat
      have hsame : p.buf.contents.take n ++ (t.returned ++ p'.buf.contents) =
          p.buf.contents.take n ++ (p.buf.contents.drop n ++ t.accepted) := by
        rw [hconcat, ← List.append_assoc, hsplit]
      exact List.append_cancel_left hsame
    · simpa [PipeTrace.read] using hcounts
  · rintro ⟨t, p', hrun, hconcat, hcounts, hin⟩
    refine ⟨_, _, ⟨(t, p'), hrun, rfl⟩, ?_, ?_, hin⟩
    · simp only [PipeTrace.read, List.append_assoc, hconcat]
      rw [← List.append_assoc, hsplit]
    · simpa [PipeTrace.read] using hcounts

/-- **A run ends as that of a queue iff no write comes while the queue wraps.** -/
lemma endsAsFifo_iff : ∀ {ops : List PipeOp} {p : Pipe}, p.buf.InBounds → p.readOpen = true →
    (EndsAsFifo ops p ↔ NeverWraps p.buf.capacity p.buf.beg p.buf.size ops)
  | [], p, h, _ => ⟨fun _ => trivial, fun _ => ⟨{}, p, rfl, by simp, rfl, h⟩⟩
  | .write bytes :: ops, p, h, hopen => by
      rw [NeverWraps]
      by_cases hflat : p.buf.beg + p.buf.size ≤ p.buf.capacity
      · obtain ⟨b, hwrite, happ⟩ := write_spec bytes h hopen hflat
        have hb := happ.inBounds h (by have := h.size_le; omega)
        have ih : EndsAsFifo ops { p with buf := b } ↔ NeverWraps b.capacity b.beg b.size ops :=
          endsAsFifo_iff hb hopen
        rw [endsAsFifo_write hwrite rfl happ, ih, and_iff_right hflat]
        obtain ⟨hcap, hbeg, hsize, -⟩ := happ
        simp only [hcap, hbeg, hsize]
      · refine ⟨?_, fun h' => absurd h'.1 hflat⟩
        rintro ⟨t, p', hrun, -⟩
        rw [run, write_wrapped h hopen (by omega)] at hrun
        exact absurd hrun (by simp [bind, Except.bind])
  | .read n :: ops, p, h, hopen => by
      rw [endsAsFifo_read h, endsAsFifo_iff (p := { p with buf := (p.buf.read n).2 }) h.read hopen]
      rfl

lemma isFifo_iff (h : p.buf.InBounds) (hopen : p.readOpen = true) :
    IsFifo ops p ↔ NeverWraps p.buf.capacity p.buf.beg p.buf.size ops := by
  constructor
  · intro hall
    have := hall ops.length
    rwa [List.take_length, endsAsFifo_iff h hopen] at this
  · exact fun hnever k => (endsAsFifo_iff h hopen).mpr (hnever.take k)

lemma inBounds_new : ({} : Pipe).buf.InBounds := ⟨by decide, by decide, by decide, by decide⟩

/-- **A new pipe is a queue over a run of calls iff no write comes while the queue wraps.** -/
theorem pipe_fifo_iff (ops : List PipeOp) : IsFifo ops {} ↔ NeverWraps pipeBufSize 0 0 ops :=
  isFifo_iff inBounds_new rfl

/-- **A full pipe that has wrapped** cannot be written to: after 65536 bytes in, one out and one in,
the write of one more byte copies 2³² - 1 bytes. -/
theorem pipe_wraps : ¬ IsFifo [.write (List.replicate 65536 0), .read 1, .write [1], .write [2]] {} := by
  rw [isFifo_iff inBounds_new rfl]
  simp only [NeverWraps, List.length_replicate, List.length_singleton]
  rintro ⟨-, -, h, -⟩
  exact absurd h (by decide)

end Pipe

end BrebOS

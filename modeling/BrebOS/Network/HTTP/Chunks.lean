import BrebOS.Network.HTTP.Body

/-!
# Bodies in chunks

A response without a length has its body in chunks, each with a line before it that says how long it is.
The buffer is made for the first chunk, whose size must come with the headers, and no other chunk is ever
put into it: what comes after the first chunk must be lines with sizes, each a segment of its own, until a
zero ends the body.

As with lengths, each character of a size counts as a digit, and so letters are misread.
-/

namespace BrebOS

namespace HTTP

/-- What a hexadecimal digit stands for. -/
def hexDigit (c : Byte) : Option ℕ :=
  if isDigit c then some (digit c)
  else if 65 ≤ c ∧ c ≤ 70 then some (c.toNat - 55)
  else if 97 ≤ c ∧ c ≤ 102 then some (c.toNat - 87)
  else none

/-- The number that hexadecimal digits write. -/
def hexadecimal (s : List Byte) : Option ℕ := s.foldlM (fun n c => (hexDigit c).map (n * 16 + ·)) 0

/-- A part of a body, and the digits of its size. -/
structure Chunk where
  size : List Byte
  data : List Byte
  deriving DecidableEq, Repr

namespace Chunk

def text (c : Chunk) : List Byte := c.size ++ crlf ++ c.data ++ crlf

structure Valid (c : Chunk) : Prop where
  size_ne : c.size ≠ []
  size : hexadecimal c.size = some c.data.length
  data_ne : c.data ≠ []

end Chunk

/-- A body in chunks, the zero that ends it and the lines behind that. -/
structure ChunkedBody where
  chunks : List Chunk
  zero : List Byte
  trailers : List HeaderLine
  deriving DecidableEq, Repr

namespace ChunkedBody

def body (m : ChunkedBody) : List Byte := m.chunks.flatMap Chunk.data

def text (m : ChunkedBody) : List Byte :=
  m.chunks.flatMap Chunk.text ++ (m.zero ++ crlf ++ lines (m.trailers.map HeaderLine.line) ++ crlf)

structure Valid (m : ChunkedBody) : Prop where
  chunks : ∀ c ∈ m.chunks, c.Valid
  zero_ne : m.zero ≠ []
  zero : hexadecimal m.zero = some 0
  trailers : ∀ h ∈ m.trailers, h.Valid

end ChunkedBody

/-- `get_header` takes the header for `Transfer-Encoding`. -/
def HeaderLine.IsTransferEncoding (h : HeaderLine) : Prop :=
  h.name.map toLower = transferEncodingName.map toLower

/-- The value is `chunked`, in letters of any case, with spaces and tabs around it. -/
def HeaderLine.SaysChunked (h : HeaderLine) : Prop :=
  ∃ before name after, h.raw = before ++ name ++ after ∧
    (∀ c ∈ before ++ after, c = space ∨ c = tab) ∧ name.map toLower = chunkedName

namespace ResponseHead

/-- The head says that the body comes in chunks. -/
structure DeclaresChunks (r : ResponseHead) : Prop where
  no_length : ∀ h ∈ r.headers, ¬ h.IsContentLength
  given : ∃ h ∈ r.headers, h.IsTransferEncoding
  chunked : ∀ h ∈ r.headers, h.IsTransferEncoding → h.SaysChunked

/-- The value of the first such header. -/
def codingRead (r : ResponseHead) : List Byte :=
  (r.response.getHeader transferEncodingName).elim [] Header.value

end ResponseHead

/-- A response comes in segments, with the headers and this beginning of what follows them in the first. -/
structure Comes (r : ResponseHead) (m : ChunkedBody) (start : List Byte) (segments : List (List Byte)) :
    Prop where
  head : r.Valid
  declares : r.DeclaresChunks
  message : m.Valid
  whole : start ++ segments.flatten = m.text
  first : (r.text ++ start).length < 65536
  others : ∀ s ∈ segments, IsSegment s

/-- The body is received as it is, the buffer is never fuller than it can be, and nothing but the body is
ever put into it. -/
structure ChunksRight (junk : ℕ → Byte) (segments : List (List Byte)) (body : List Byte) : Prop where
  inside : ∀ k, run junk (segments.take k) (.live requested) ≠ .error .outOfBounds
  bounded : ∀ k h, run junk (segments.take k) (.live requested) = .ok (.live h) →
    h.bufSize ≤ h.bufCapacity
  clean : ∀ k h, run junk (segments.take k) (.live requested) = .ok (.live h) →
    h.buf.take h.bufSize.toNat <+: body
  complete : ∃ h, run junk segments (.live requested) = .ok (.live h) ∧
    h.state = .responseComplete ∧ h.buf = body

/-! ## The first line -/

/-- What stands before the first end of a line, and what behind it. -/
def splitLine : List Byte → Option (List Byte × List Byte)
  | a :: b :: t =>
      if a = carriageReturn ∧ b = lineFeed then some ([], t)
      else (splitLine (b :: t)).map fun l => (a :: l.1, l.2)
  | _ => none

variable {p : List Byte}

lemma splitLine_eq : ∀ {s line rest : List Byte}, splitLine s = some (line, rest) →
    s = line ++ crlf ++ rest := by
  intro s
  induction s with
  | nil => intro _ _ h; cases h
  | cons a s ih =>
      intro line rest h
      rcases s with _ | ⟨b, t⟩
      · cases h
      · rw [splitLine] at h
        split at h
        · rename_i hend
          obtain ⟨rfl, rfl⟩ := hend
          cases h
          rfl
        · obtain ⟨⟨line', rest'⟩, hsplit, heq⟩ := Option.map_eq_some_iff.mp h
          cases heq
          rw [ih hsplit]
          rfl

lemma matchesAt_crlf {j : ℕ} {a b : Byte} {t : List Byte} (h : p.drop j = a :: b :: t) :
    matchesAt p j crlf = .ok (decide (a = carriageReturn ∧ b = lineFeed)) := by
  by_cases ha : a = carriageReturn
  · subst ha
    rw [crlf, matchesAt_cons h]
    by_cases hb : b = lineFeed
    · subst hb
      rw [matchesAt_cons (drop_succ h)]
      rfl
    · rw [matchesAt_ne (drop_succ h) hb]
      simp [hb]
  · rw [crlf, matchesAt_ne h ha]
    simp [ha]

lemma search_crlf {i : ℕ} : ∀ {t : List Byte} {k : ℕ}, p.drop (i + k) = t →
    search (fun k => matchesAt p (i + k) crlf) (t.length - 1) k =
      .ok ((splitLine t).map fun l => k + l.1.length) := by
  intro t
  induction t with
  | nil => intro k _; rfl
  | cons a t ih =>
      intro k h
      rcases t with _ | ⟨b, t⟩
      · rfl
      · have hlen : (a :: b :: t).length - 1 = (b :: t).length - 1 + 1 := by simp
        rw [hlen, search, matchesAt_crlf h, splitLine]
        by_cases hend : a = carriageReturn ∧ b = lineFeed
        · rw [if_pos hend, decide_eq_true hend]
          rfl
        · rw [if_neg hend, decide_eq_false hend]
          have hnext : p.drop (i + (k + 1)) = b :: t := by
            rw [← Nat.add_assoc]
            exact drop_succ h
          refine (ih hnext).trans ?_
          rw [Option.map_map]
          refine congrArg (fun f => Except.ok (Option.map f (splitLine (b :: t)))) (funext fun l => ?_)
          simp only [Function.comp_apply, List.length_cons]
          omega

lemma memmem_crlf (i : ℕ) : memmem p i (p.length - i) crlf =
    .ok ((splitLine (p.drop i)).map fun l => l.1.length) := by
  have hsearch := search_crlf (p := p) (i := i) (k := 0) rfl
  rw [Nat.add_zero, List.length_drop] at hsearch
  rw [memmem]
  split
  · rename_i hlt
    have hshort : (p.drop i).length < 2 := by
      rw [List.length_drop]
      exact hlt
    generalize p.drop i = t at hshort ⊢
    rcases t with _ | ⟨a, _ | ⟨b, t⟩⟩
    · rfl
    · rfl
    · simp only [List.length_cons] at hshort
      omega
  · rename_i hle
    have hleft : p.length - i - crlf.length + 1 = p.length - i - 1 := by
      simp only [crlf, List.length_cons, List.length_nil] at hle ⊢
      omega
    rw [hleft, hsearch]
    simp only [Nat.zero_add]

/-! ## The first chunk -/

/-- A line with a size, and perhaps the end of an empty chunk, that is not the last. -/
def PassedOver (s : List Byte) : Prop :=
  ∃ line rest, splitLine s = some (line, rest) ∧ (rest = [] ∨ rest = crlf ∧ number 16 16 line ≠ 0)

/-- The line with the last size, and the end of the body. -/
def Finishes (s : List Byte) : Prop := ∃ line, splitLine s = some (line, crlf) ∧ number 16 16 line = 0

/-- What ends a body behind the first chunk. -/
def Trailer (segments : List (List Byte)) : Prop :=
  ∃ passed last, segments = passed ++ [last] ∧ (∀ s ∈ passed, PassedOver s) ∧ Finishes last

/-- What ends a body behind a first chunk of this size.  An empty one ends it itself. -/
def Ends (c : ℕ) (segments : List (List Byte)) : Prop := if c = 0 then segments = [] else Trailer segments

/-- The body is a chunk of the size that was read, of which `sofar` has come, and the end of the chunk comes
with its last bytes, or at least in one segment. -/
def OneChunk (c : ℕ) (sofar : List Byte) (segments : List (List Byte)) (body : List Byte) : Prop :=
  ∃ middle front after, segments = middle ++ (front ++ crlf) :: after ∧
    sofar ++ middle.flatten ++ front = body ∧ body.length = c ∧ Ends c after

/-- The headers and the first size are read, and the rest is one chunk. -/
def Understood (r : ResponseHead) (start : List Byte) (segments : List (List Byte)) (body : List Byte) :
    Prop :=
  r.codingRead = chunkedName ∧ ∃ line data, splitLine start = some (line, data) ∧
    OneChunk ((number 32 16 line).setWidth 16).toNat data segments body

lemma trailer_cons {s : List Byte} {segments : List (List Byte)} :
    Trailer (s :: segments) ↔ PassedOver s ∧ Trailer segments ∨ Finishes s ∧ segments = [] := by
  constructor
  · rintro ⟨_ | ⟨s', passed⟩, last, heq, hpassed, hlast⟩
    · obtain ⟨rfl, rfl⟩ := List.cons.inj heq
      exact .inr ⟨hlast, rfl⟩
    · obtain ⟨rfl, rfl⟩ := List.cons.inj heq
      exact .inl ⟨hpassed s (by simp), passed, last, rfl, fun s hs => hpassed s (by simp [hs]), hlast⟩
  · rintro (⟨hs, passed, last, rfl, hpassed, hlast⟩ | ⟨hs, rfl⟩)
    · refine ⟨s :: passed, last, rfl, fun s' hs' => ?_, hlast⟩
      rcases List.mem_cons.mp hs' with rfl | hs'
      · exact hs
      · exact hpassed s' hs'
    · exact ⟨[], s, rfl, by simp, hs⟩

lemma oneChunk_cons {c : ℕ} {sofar s body : List Byte} {segments : List (List Byte)} :
    OneChunk c sofar (s :: segments) body ↔
      (sofar ++ s).length ≤ c ∧ OneChunk c (sofar ++ s) segments body ∨
      ∃ front, s = front ++ crlf ∧ sofar ++ front = body ∧ body.length = c ∧ Ends c segments := by
  constructor
  · rintro ⟨_ | ⟨s', middle⟩, front, after, heq, hbody, hlen, hends⟩
    · obtain ⟨rfl, rfl⟩ := List.cons.inj heq
      exact .inr ⟨front, rfl, by simpa using hbody, hlen, hends⟩
    · obtain ⟨rfl, rfl⟩ := List.cons.inj heq
      refine .inl ⟨?_, middle, front, after, rfl, by simpa using hbody, hlen, hends⟩
      rw [← hlen, ← hbody]
      simp
  · rintro (⟨-, middle, front, after, rfl, hbody, hlen, hends⟩ | ⟨front, rfl, hbody, hlen, hends⟩)
    · exact ⟨s :: middle, front, after, rfl, by simpa using hbody, hlen, hends⟩
    · exact ⟨[], front, segments, rfl, by simpa using hbody, hlen, hends⟩

variable {junk : ℕ → Byte} {c : ℕ} {sofar body s : List Byte} {segments : List (List Byte)} {h : HTTP}

/-- The first chunk is being received. -/
structure InChunk (c : ℕ) (sofar : List Byte) (h : HTTP) : Prop where
  state : h.state = .receivingResponse
  chunked : h.transferType = .chunked
  current : h.currentChunkSize = 0 ↔ c = 0
  holding : Holding c sofar h

/-- The first chunk has been received. -/
structure Between (body : List Byte) (h : HTTP) : Prop where
  state : h.state = .receivingChunkLen
  chunked : h.transferType = .chunked
  holding : Holding body.length body h

lemma Holding.buf (hb : Holding body.length body h) : h.buf = body := by
  rw [← hb.content, ← hb.length, List.take_length]

lemma Holding.filled (hb : Holding body.length body h) (hstate : h.state = .responseComplete) :
    Filled body h := ⟨hstate, hb.capacity, hb.size, hb.buf⟩

lemma Filled.holding (hf : Filled body h) : Holding body.length body h := by
  refine ⟨hf.capacity, hf.size, ?_, ?_⟩
  · rw [hf.buf]
  · rw [hf.buf, List.take_length]

lemma closeAndSet_released (hstate : h.state ≠ .responseComplete) : h.closeAndSet = .error .released := by
  rw [closeAndSet, onConnectionTerminated, if_neg (fun hfull => hstate hfull.2)]
  rfl

lemma Holding.store (hb : Holding c sofar h) (hchunked : h.transferType = .chunked)
    (hle : sofar.length + s.length ≤ c) : ∃ h', h.store s = .ok (.live h') ∧ h'.state = h.state ∧
      h'.transferType = .chunked ∧ h'.currentChunkSize = h.currentChunkSize ∧
      Holding c (sofar ++ s) h' := by
  obtain ⟨buf, hbuf, hlen, hcontent⟩ := hb.writeBytes hle
  have hsize := hb.size_add hle
  have hne : ¬ (h.transferType = .regular ∧ h.bufSize + BitVec.ofNat 16 s.length = h.bufCapacity) := by
    simp [hchunked]
  refine ⟨{ h with buf := buf, bufSize := h.bufSize + BitVec.ofNat 16 s.length }, ?_, rfl, hchunked, rfl,
    ⟨hb.capacity, hsize, hlen, hcontent⟩⟩
  rw [HTTP.store, hbuf]
  show Except.ok (Listener.live (if _ then _ else _)) = _
  rw [if_neg hne]

lemma eq_append_pair (hs : 2 ≤ s.length) : ∃ front a b, s = front ++ [a, b] := by
  rcases List.eq_nil_or_concat' s with rfl | ⟨front, b, rfl⟩
  · simp at hs
  · rcases List.eq_nil_or_concat' front with rfl | ⟨front, a, rfl⟩
    · simp at hs
    · exact ⟨front, a, b, by simp⟩

section Continuation

lemma Holding.continuation_fits (hb : Holding c sofar h) (hle : sofar.length + s.length ≤ c) :
    handleResponseContinuation s h = h.store s := by
  rw [handleResponseContinuation, if_neg (hb.not_more hle)]

lemma Holding.continuation_end (hb : Holding c sofar h) (hchunked : h.transferType = .chunked)
    (hlen : sofar.length + s.length = c) : handleResponseContinuation (s ++ crlf) h =
      if h.currentChunkSize = 0 then .ok (.live { h with state := .responseComplete })
      else HTTP.store s { h with state := .receivingChunkLen } := by
  have hmore : h.bufSize.toNat + (s ++ crlf).length = h.bufCapacity.toNat + 2 := by
    rw [hb.size, hb.capacity, List.length_append, ← hlen]
    rfl
  have hfront : (s ++ crlf).length - 2 = s.length := by simp [crlf]
  have hmatch : matchesAt (s ++ crlf) s.length crlf = .ok true :=
    matchesAt_of_drop (t := []) (by rw [List.drop_left, List.append_nil])
  rw [handleResponseContinuation, if_pos (by omega), if_pos ⟨hchunked, hmore⟩, hfront, hmatch,
    List.take_left]
  rfl

lemma Holding.continuation_more (hb : Holding c sofar h) (hstate : h.state ≠ .responseComplete)
    (hgt : c < sofar.length + s.length)
    (hno : ∀ front, s = front ++ crlf → sofar.length + front.length ≠ c) :
    handleResponseContinuation s h = .error .released := by
  rw [handleResponseContinuation, if_pos (by rw [hb.size, hb.capacity]; exact hgt),
    closeAndSet_released hstate]
  split
  · rename_i hend
    have hle := hb.le
    have htwo : sofar.length + s.length = c + 2 := by
      rw [← hb.size, ← hb.capacity]
      exact hend.2
    obtain ⟨front, a, b, rfl⟩ := eq_append_pair (show 2 ≤ s.length by omega)
    have hfront : (front ++ [a, b]).length - 2 = front.length := by simp
    have hne : ¬ (a = carriageReturn ∧ b = lineFeed) := by
      rintro ⟨rfl, rfl⟩
      refine hno front rfl ?_
      simp only [List.length_append, List.length_cons, List.length_nil] at htwo
      omega
    rw [hfront, matchesAt_crlf (t := []) List.drop_left, decide_eq_false hne]
    rfl
  · rfl

end Continuation

/-! ## Segments of the first chunk -/

lemma InChunk.receive (hf : InChunk c sofar h) (s : List Byte) :
    Listener.receive junk s (.live h) = handleResponseContinuation s h := by
  rw [Listener.receive, onDataReceived, hf.state]

lemma InChunk.receive_part (junk : ℕ → Byte) (hf : InChunk c sofar h) (hle : (sofar ++ s).length ≤ c) :
    ∃ h', Listener.receive junk s (.live h) = .ok (.live h') ∧ InChunk c (sofar ++ s) h' := by
  rw [List.length_append] at hle
  obtain ⟨h', hstore, hstate, hchunked, hcurrent, hb⟩ := hf.holding.store hf.chunked hle
  rw [hf.receive, hf.holding.continuation_fits hle]
  exact ⟨h', hstore, hstate.trans hf.state, hchunked, hcurrent ▸ hf.current, hb⟩

lemma InChunk.receive_end (junk : ℕ → Byte) (hf : InChunk c sofar h) (hlen : (sofar ++ s).length = c) :
    ∃ h', Listener.receive junk (s ++ crlf) (.live h) = .ok (.live h') ∧
      (c = 0 → Filled (sofar ++ s) h') ∧ (c ≠ 0 → Between (sofar ++ s) h') := by
  have hadd : sofar.length + s.length = c := by rw [← List.length_append, hlen]
  rw [hf.receive, hf.holding.continuation_end hf.chunked hadd]
  rcases Nat.eq_zero_or_pos c with hzero | hpos
  · have hnil : sofar ++ s = [] ∧ sofar = [] := by
      refine ⟨List.length_eq_zero_iff.mp (hlen.trans hzero), List.length_eq_zero_iff.mp ?_⟩
      omega
    refine ⟨{ h with state := .responseComplete }, if_pos (hf.current.mpr hzero), fun _ => ?_,
      fun hc => absurd hzero hc⟩
    have hb : Holding ([] : List Byte).length [] { h with state := .responseComplete } := by
      have hb := hf.holding
      rw [hnil.2, hzero] at hb
      exact ⟨hb.capacity, hb.size, hb.length, hb.content⟩
    rw [hnil.1]
    exact hb.filled rfl
  · have hb : Holding c sofar { h with state := .receivingChunkLen } :=
      ⟨hf.holding.capacity, hf.holding.size, hf.holding.length, hf.holding.content⟩
    obtain ⟨h', hstore, hstate, hchunked, -, hb'⟩ := hb.store hf.chunked hadd.le
    refine ⟨h', (if_neg (mt hf.current.mp hpos.ne')).trans hstore, fun hc => absurd hc hpos.ne',
      fun _ => ⟨hstate, hchunked, ?_⟩⟩
    rw [hlen]
    exact hb'

lemma InChunk.receive_more (hf : InChunk c sofar h) (hgt : c < (sofar ++ s).length)
    (hno : ∀ front, s = front ++ crlf → (sofar ++ front).length ≠ c) :
    Listener.receive junk s (.live h) = .error .released := by
  simp only [List.length_append] at hgt hno
  rw [hf.receive]
  exact hf.holding.continuation_more (by simp [hf.state]) hgt hno

/-! ## Segments behind the first chunk -/

lemma Between.receive (hb : Between body h) (s : List Byte) :
    Listener.receive junk s (.live h) = handleChunk s h := by
  rw [Listener.receive, onDataReceived, hb.state]

lemma memmem_line (s : List Byte) : memmem s 0 s.length crlf =
    .ok ((splitLine s).map fun l => l.1.length) := by
  have hmem := memmem_crlf (p := s) 0
  rwa [Nat.sub_zero, List.drop_zero] at hmem

lemma handleChunk_line {line rest : List Byte} (hsplit : splitLine s = some (line, rest)) :
    handleChunk s h =
      handleResponseContinuation rest { h with currentChunkSize := number 16 16 line } := by
  have heq := splitLine_eq hsplit
  have htake : s.take line.length = line := by
    rw [heq, List.append_assoc, List.take_left]
  have hdrop : s.drop (line.length + crlf.length) = rest := by
    rw [heq, ← List.length_append, List.drop_left]
  rw [handleChunk, memmem_line, hsplit]
  show handleResponseContinuation _ _ = _
  rw [htake, hdrop]

lemma Between.with_size (hb : Between body h) (n : BitVec 16) :
    Between body { h with currentChunkSize := n } :=
  ⟨hb.state, hb.chunked, ⟨hb.holding.capacity, hb.holding.size, hb.holding.length, hb.holding.content⟩⟩

lemma Between.receive_passed (junk : ℕ → Byte) (hb : Between body h) (hs : PassedOver s) :
    ∃ h', Listener.receive junk s (.live h) = .ok (.live h') ∧ Between body h' := by
  obtain ⟨line, rest, hsplit, hrest⟩ := hs
  have hb' := hb.with_size (number 16 16 line)
  rw [hb.receive, handleChunk_line hsplit]
  rcases hrest with rfl | ⟨rfl, hne⟩
  · obtain ⟨h', hstore, hstate, hchunked, -, hh'⟩ := hb'.holding.store (s := []) hb'.chunked (by simp)
    rw [List.append_nil] at hh'
    rw [hb'.holding.continuation_fits (by simp)]
    exact ⟨h', hstore, hstate.trans hb'.state, hchunked, hh'⟩
  · have hend := hb'.holding.continuation_end (s := []) hb'.chunked (by simp)
    rw [if_neg hne] at hend
    have hh : Holding body.length body
        { h with currentChunkSize := number 16 16 line, state := .receivingChunkLen } :=
      ⟨hb.holding.capacity, hb.holding.size, hb.holding.length, hb.holding.content⟩
    obtain ⟨h', hstore, hstate, hchunked, -, hh'⟩ := hh.store (s := []) hb.chunked (by simp)
    rw [List.append_nil] at hh'
    exact ⟨h', hend.trans hstore, hstate, hchunked, hh'⟩

lemma Between.receive_last (junk : ℕ → Byte) (hb : Between body h) (hs : Finishes s) :
    ∃ h', Listener.receive junk s (.live h) = .ok (.live h') ∧ Filled body h' := by
  obtain ⟨line, hsplit, hzero⟩ := hs
  have hb' := hb.with_size (number 16 16 line)
  have hend := hb'.holding.continuation_end (s := []) hb'.chunked (by simp)
  rw [if_pos hzero] at hend
  rw [hb.receive, handleChunk_line hsplit]
  exact ⟨_, hend, ⟨rfl, hb.holding.capacity, hb.holding.size, hb.holding.buf⟩⟩

lemma Between.receive_other (hb : Between body h) (hpassed : ¬ PassedOver s) (hlast : ¬ Finishes s) :
    Listener.receive junk s (.live h) = .error .released := by
  rw [hb.receive]
  rcases hsplit : splitLine s with _ | ⟨line, rest⟩
  · rw [handleChunk, memmem_line, hsplit]
    exact closeAndSet_released (by simp [hb.state])
  · have hnil : rest ≠ [] := fun hnil => hpassed ⟨line, rest, hsplit, .inl hnil⟩
    have hcrlf : rest ≠ crlf := by
      rintro rfl
      by_cases hzero : number 16 16 line = 0
      · exact hlast ⟨line, hsplit, hzero⟩
      · exact hpassed ⟨line, crlf, hsplit, .inr ⟨rfl, hzero⟩⟩
    rw [handleChunk_line hsplit]
    refine (hb.with_size _).holding.continuation_more (by simp [hb.state]) ?_ ?_
    · have hpos := List.length_pos_iff.mpr hnil
      omega
    · rintro front rfl hlen
      have hfront : front = [] := List.length_eq_zero_iff.mp (by omega)
      exact hcrlf (by rw [hfront, List.nil_append])

/-! ## All segments -/

lemma run_cons_ok {l l' : Listener} (hreceive : Listener.receive junk s l = .ok l') :
    run junk (s :: segments) l = run junk segments l' := by
  rw [run_cons, hreceive]
  rfl

lemma run_cons_error {l : Listener} {e : NetFault} (hreceive : Listener.receive junk s l = .error e) :
    run junk (s :: segments) l = .error e := by
  rw [run_cons, hreceive]
  rfl

lemma Filled.run_live {h' : HTTP} (hf : Filled body h)
    (hrun : HTTP.run junk segments (.live h) = .ok (.live h')) : segments = [] ∧ h = h' := by
  rcases segments with _ | ⟨s, segments⟩
  · exact ⟨rfl, Listener.live.inj (Except.ok.inj hrun)⟩
  · rw [run_cons_ok (hf.receive s), run_deleted] at hrun
    cases hrun

lemma Between.ends {h' : HTTP} (hstate : h'.state = .responseComplete) :
    ∀ {segments : List (List Byte)} {h : HTTP}, Between body h →
      HTTP.run junk segments (.live h) = .ok (.live h') → Trailer segments ∧ h'.buf = body := by
  intro segments
  induction segments with
  | nil =>
      intro h hb hrun
      obtain rfl : h = h' := Listener.live.inj (Except.ok.inj hrun)
      rw [hb.state] at hstate
      cases hstate
  | cons s segments ih =>
      intro h hb hrun
      by_cases hpassed : PassedOver s
      · obtain ⟨h₁, hreceive, hb₁⟩ := hb.receive_passed junk hpassed
        rw [run_cons_ok hreceive] at hrun
        obtain ⟨htrailer, hbuf⟩ := ih hb₁ hrun
        exact ⟨trailer_cons.mpr (.inl ⟨hpassed, htrailer⟩), hbuf⟩
      · by_cases hlast : Finishes s
        · obtain ⟨h₁, hreceive, hf⟩ := hb.receive_last junk hlast
          rw [run_cons_ok hreceive] at hrun
          obtain ⟨hnil, rfl⟩ := hf.run_live hrun
          exact ⟨trailer_cons.mpr (.inr ⟨hlast, hnil⟩), hf.buf⟩
        · rw [run_cons_error (hb.receive_other hpassed hlast)] at hrun
          cases hrun

lemma InChunk.oneChunk {h' : HTTP} (hstate : h'.state = .responseComplete) :
    ∀ {segments : List (List Byte)} {sofar : List Byte} {h : HTTP}, InChunk c sofar h →
      HTTP.run junk segments (.live h) = .ok (.live h') → OneChunk c sofar segments h'.buf := by
  intro segments
  induction segments with
  | nil =>
      intro sofar h hf hrun
      obtain rfl : h = h' := Listener.live.inj (Except.ok.inj hrun)
      rw [hf.state] at hstate
      cases hstate
  | cons s segments ih =>
      intro sofar h hf hrun
      rcases le_or_gt (sofar ++ s).length c with hle | hgt
      · obtain ⟨h₁, hreceive, hf₁⟩ := hf.receive_part junk hle
        rw [run_cons_ok hreceive] at hrun
        exact oneChunk_cons.mpr (.inl ⟨hle, ih hf₁ hrun⟩)
      · by_cases hend : ∃ front, s = front ++ crlf ∧ (sofar ++ front).length = c
        · obtain ⟨front, rfl, hlen⟩ := hend
          obtain ⟨h₁, hreceive, hzero, hpos⟩ := hf.receive_end junk hlen
          rw [run_cons_ok hreceive] at hrun
          refine oneChunk_cons.mpr (.inr ⟨front, rfl, ?_⟩)
          rcases Decidable.em (c = 0) with hc | hc
          · obtain ⟨hnil, rfl⟩ := (hzero hc).run_live hrun
            rw [(hzero hc).buf]
            exact ⟨rfl, hlen, by rw [Ends, if_pos hc, hnil]⟩
          · obtain ⟨htrailer, hbuf⟩ := Between.ends hstate (hpos hc) hrun
            rw [hbuf]
            exact ⟨rfl, hlen, by rwa [Ends, if_neg hc]⟩
        · rw [run_cons_error (hf.receive_more hgt fun front hs hlen => hend ⟨front, hs, hlen⟩)] at hrun
          cases hrun

lemma Between.run_trailer (junk : ℕ → Byte) : ∀ {segments : List (List Byte)} {h : HTTP}, Between body h →
    Trailer segments → ∀ k, ∃ h', HTTP.run junk (segments.take k) (.live h) = .ok (.live h') ∧
      Holding body.length body h' ∧ (segments.length ≤ k → h'.state = .responseComplete) := by
  intro segments
  induction segments with
  | nil =>
      rintro h - ⟨passed, last, heq, -⟩
      exact absurd heq (by simp)
  | cons s segments ih =>
      rintro h hb htrailer (_ | k)
      · exact ⟨h, rfl, hb.holding, fun hk => absurd hk (by simp)⟩
      · rw [List.take_succ_cons]
        rcases trailer_cons.mp htrailer with ⟨hpassed, htrailer'⟩ | ⟨hlast, rfl⟩
        · obtain ⟨h₁, hreceive, hb₁⟩ := hb.receive_passed junk hpassed
          obtain ⟨h', hrun, hh', hcomplete⟩ := ih hb₁ htrailer' k
          exact ⟨h', (run_cons_ok hreceive).trans hrun, hh',
            fun hk => hcomplete (Nat.le_of_succ_le_succ hk)⟩
        · obtain ⟨h₁, hreceive, hf⟩ := hb.receive_last junk hlast
          rw [List.take_nil]
          exact ⟨h₁, run_cons_ok hreceive, hf.holding, fun _ => hf.state⟩

lemma OneChunk.begins (hone : OneChunk c sofar segments body) : sofar <+: body := by
  obtain ⟨middle, front, after, -, rfl, -⟩ := hone
  rw [List.append_assoc]
  exact List.prefix_append ..

lemma InChunk.run_oneChunk (junk : ℕ → Byte) :
    ∀ {segments : List (List Byte)} {sofar : List Byte} {h : HTTP},
    InChunk c sofar h → OneChunk c sofar segments body →
    ∀ k, ∃ h', HTTP.run junk (segments.take k) (.live h) = .ok (.live h') ∧
      (∃ sofar, Holding c sofar h' ∧ sofar <+: body) ∧
      (segments.length ≤ k → h'.state = .responseComplete ∧ h'.buf = body) := by
  intro segments
  induction segments with
  | nil =>
      rintro sofar h - ⟨middle, front, after, heq, -⟩
      exact absurd heq (by simp)
  | cons s segments ih =>
      rintro sofar h hf hone (_ | k)
      · exact ⟨h, rfl, ⟨sofar, hf.holding, hone.begins⟩, fun hk => absurd hk (by simp)⟩
      · rw [List.take_succ_cons]
        rcases oneChunk_cons.mp hone with ⟨hle, hone'⟩ | ⟨front, rfl, rfl, hlen, hends⟩
        · obtain ⟨h₁, hreceive, hf₁⟩ := hf.receive_part junk hle
          obtain ⟨h', hrun, hh', hcomplete⟩ := ih hf₁ hone' k
          exact ⟨h', (run_cons_ok hreceive).trans hrun, hh',
            fun hk => hcomplete (Nat.le_of_succ_le_succ hk)⟩
        · obtain ⟨h₁, hreceive, hzero, hpos⟩ := hf.receive_end junk hlen
          rw [run_cons_ok hreceive]
          rcases Decidable.em (c = 0) with hc | hc
          · rw [Ends, if_pos hc] at hends
            have hb := (hzero hc).holding
            rw [hlen] at hb
            rw [hends, List.take_nil]
            exact ⟨h₁, rfl, ⟨_, hb, List.prefix_refl _⟩, fun _ => ⟨(hzero hc).state, (hzero hc).buf⟩⟩
          · rw [Ends, if_neg hc] at hends
            obtain ⟨h', hrun, hb, hcomplete⟩ := (hpos hc).run_trailer junk hends k
            refine ⟨h', hrun, ⟨_, hlen ▸ hb, List.prefix_refl _⟩, fun hk => ⟨hcomplete ?_, hb.buf⟩⟩
            exact Nat.le_of_succ_le_succ hk

/-! ## The first segment -/

variable {r : ResponseHead} {m : ChunkedBody} {start : List Byte}

lemma getHeader_contentLength (hd : r.DeclaresChunks) : r.response.getHeader contentLengthName = none := by
  rw [Response.getHeader, List.find?_eq_none]
  intro header hheader
  obtain ⟨h, hh, rfl⟩ := List.mem_map.mp hheader
  exact fun hname => hd.no_length h hh (beq_iff_eq.mp hname)

lemma readBody_chunks (junk : ℕ → Byte) (hd : r.DeclaresChunks) :
    (r.codingRead ≠ chunkedName → readBody junk (r.text ++ start) r.response r.text.length requested =
      .error .released) ∧
    (splitLine start = none → readBody junk (r.text ++ start) r.response r.text.length requested =
      .error .released) ∧
    ∀ line data, r.codingRead = chunkedName → splitLine start = some (line, data) →
      readBody junk (r.text ++ start) r.response r.text.length requested =
        startBody junk (r.text ++ start) (number 32 16 line)
          (r.text.length + line.length + crlf.length)
          { requested with
            transferType := .chunked
            currentChunkSize := (number 32 16 line).setWidth 16 } := by
  obtain ⟨header, hheader⟩ := exists_getHeader hd.given
  have hvalue : r.codingRead = header.value := by
    rw [ResponseHead.codingRead, hheader]
    rfl
  have hclose : requested.closeAndSet = .error .released := closeAndSet_released (by decide)
  have hmem := memmem_crlf (p := r.text ++ start) r.text.length
  rw [List.drop_left] at hmem
  rw [readBody, getHeader_contentLength hd, hheader, hvalue]
  refine ⟨fun hne => ?_, fun hnone => ?_, fun line data hcoding hsplit => ?_⟩
  · exact (if_pos hne).trans hclose
  · show ite _ _ _ = _
    split
    · exact hclose
    · rw [hmem, hnone]
      exact hclose
  · refine (if_neg (not_not.mpr hcoding)).trans ?_
    have htake : start.take line.length = line := by
      rw [splitLine_eq hsplit, List.append_assoc, List.take_left]
    rw [hmem, hsplit]
    simp only [Option.map_some, bind, Except.bind, List.drop_left, htake]

lemma receive_first_chunk (junk : ℕ → Byte) (hr : r.Valid) (hd : r.DeclaresChunks)
    (hlt : (r.text ++ start).length < 65536) (hcoding : r.codingRead = chunkedName) {line data : List Byte}
    (hsplit : splitLine start = some (line, data)) :
    (data.length ≤ ((number 32 16 line).setWidth 16).toNat → ∃ h,
      Listener.receive junk (r.text ++ start) (.live requested) = .ok (.live h) ∧
        InChunk ((number 32 16 line).setWidth 16).toNat data h) ∧
    (((number 32 16 line).setWidth 16).toNat < data.length →
      Listener.receive junk (r.text ++ start) (.live requested) = .error .outOfBounds) := by
  have hstart := splitLine_eq hsplit
  have hle : r.text.length + line.length + crlf.length ≤ (r.text ++ start).length := by
    rw [hstart]
    simp only [List.length_append]
    omega
  have hdrop : (r.text ++ start).drop (r.text.length + line.length + crlf.length) = data := by
    rw [hstart, ← List.length_append, ← List.length_append, List.append_assoc line,
      ← List.append_assoc r.text, ← List.append_assoc (r.text ++ line), List.drop_left]
  obtain ⟨hfits, hover⟩ := startBody_spec junk (number 32 16 line)
    { requested with
      transferType := .chunked
      currentChunkSize := (number 32 16 line).setWidth 16 } hle hdrop
  rw [receive_head junk hr hlt, (readBody_chunks junk hd).2.2 line data hcoding hsplit]
  refine ⟨fun hdata => ?_, hover⟩
  obtain ⟨h, hh, hstate, htype, hcurrent, hb⟩ := hfits hdata
  refine ⟨h, hh, hstate, htype, ?_, hb⟩
  rw [hcurrent, ← BitVec.toNat_inj]
  rfl

/-- A response in chunks is received right exactly when the coding is given as the code writes it, the line
with the first size comes with the headers, and the rest is one chunk of the size that is read. -/
theorem chunks_received (junk : ℕ → Byte) (r : ResponseHead) (m : ChunkedBody) (start : List Byte)
    (segments : List (List Byte)) (hcomes : Comes r m start segments) :
    ChunksRight junk ((r.text ++ start) :: segments) m.body ↔ Understood r start segments m.body := by
  obtain ⟨hr, hd, -, -, hfirst, -⟩ := hcomes
  have hhead := receive_head junk hr hfirst
  constructor
  · intro hright
    obtain ⟨h', hrun, hstate, hbuf⟩ := hright.complete
    have hcoding : r.codingRead = chunkedName := by
      by_contra hne
      rw [run_cons_error (hhead.trans ((readBody_chunks junk hd).1 hne))] at hrun
      cases hrun
    refine ⟨hcoding, ?_⟩
    rcases hsplit : splitLine start with _ | ⟨line, data⟩
    · rw [run_cons_error (hhead.trans ((readBody_chunks junk hd).2.1 hsplit))] at hrun
      cases hrun
    · obtain ⟨hfits, hover⟩ := receive_first_chunk junk hr hd hfirst hcoding hsplit
      rcases le_or_gt data.length ((number 32 16 line).setWidth 16).toNat with hle | hgt
      · obtain ⟨h, hreceive, hf⟩ := hfits hle
        rw [run_cons_ok hreceive] at hrun
        have hone := hf.oneChunk hstate hrun
        rw [hbuf] at hone
        exact ⟨line, data, rfl, hone⟩
      · rw [run_cons_error (hover hgt)] at hrun
        cases hrun
  · rintro ⟨hcoding, line, data, hsplit, hone⟩
    have hle : data.length ≤ ((number 32 16 line).setWidth 16).toNat := by
      have hbegins := hone.begins
      obtain ⟨_, _, _, _, _, hlen, _⟩ := hone
      exact hlen ▸ hbegins.length_le
    obtain ⟨h, hreceive, hf⟩ := (receive_first_chunk junk hr hd hfirst hcoding hsplit).1 hle
    have hruns : ∀ k, ∃ h', run junk (((r.text ++ start) :: segments).take k) (.live requested) =
        .ok (.live h') ∧ h'.bufSize ≤ h'.bufCapacity ∧ h'.buf.take h'.bufSize.toNat <+: m.body := by
      rintro (_ | k)
      · exact ⟨requested, rfl, by decide, List.nil_prefix⟩
      · obtain ⟨h', hrun, ⟨sofar, hb, hbegins⟩, -⟩ := hf.run_oneChunk junk hone k
        rw [List.take_succ_cons, run_cons_ok hreceive]
        refine ⟨h', hrun, hb.bounded, ?_⟩
        rw [hb.size, hb.content]
        exact hbegins
    refine ⟨fun k herr => ?_, fun k h₁ hrun₁ => ?_, fun k h₁ hrun₁ => ?_, ?_⟩
    · obtain ⟨h', hrun, -⟩ := hruns k
      rw [hrun] at herr
      cases herr
    · obtain ⟨h', hrun, hbounded, -⟩ := hruns k
      obtain rfl : h' = h₁ := Listener.live.inj (Except.ok.inj (hrun.symm.trans hrun₁))
      exact hbounded
    · obtain ⟨h', hrun, -, hclean⟩ := hruns k
      obtain rfl : h' = h₁ := Listener.live.inj (Except.ok.inj (hrun.symm.trans hrun₁))
      exact hclean
    · obtain ⟨h', hrun, -, hcomplete⟩ := hf.run_oneChunk junk hone segments.length
      rw [List.take_length] at hrun
      exact ⟨h', (run_cons_ok hreceive).trans hrun, hcomplete le_rfl⟩

/-! ## Sizes without letters -/

variable {line rest : List Byte}

/-- `HTTP/1.1 200 OK`, with `Transfer-Encoding: chunked`. -/
def inChunks : ResponseHead :=
  ⟨[72, 84, 84, 80, 47, 49, 46, 49], [79, 75], [⟨transferEncodingName, space :: chunkedName⟩]⟩

lemma inChunks_valid : inChunks.Valid where
  version_length := by decide
  version_space := by decide
  statusLine_end := by decide
  headers := by
    intro h hh
    obtain rfl := List.mem_singleton.mp hh
    exact ⟨by decide, by decide, by decide, by decide⟩
  headers_ne := by decide

lemma inChunks_declares : inChunks.DeclaresChunks where
  no_length := by
    intro h hh
    obtain rfl := List.mem_singleton.mp hh
    unfold HeaderLine.IsContentLength
    decide
  given := ⟨⟨transferEncodingName, space :: chunkedName⟩, by decide, rfl⟩
  chunked := by
    intro h hh _
    obtain rfl := List.mem_singleton.mp hh
    exact ⟨[space], chunkedName, [], rfl, by decide, by decide⟩

/-- Two bytes in a chunk, and an empty chunk. -/
def twoInAChunk : ChunkedBody := ⟨[⟨[50], [1, 2]⟩], [48], []⟩

lemma twoInAChunk_valid : twoInAChunk.Valid where
  chunks := by
    intro c hc
    obtain rfl := List.mem_singleton.mp hc
    exact ⟨by decide, by decide, by decide⟩
  zero_ne := by decide
  zero := by decide
  trailers := by
    intro h hh
    cases hh

/-- The size with the headers, the chunk and the end, each in a segment. -/
theorem chunk_received_in_parts :
    ChunksRight (fun _ => 0) [inChunks.text ++ ([50] ++ crlf), [1, 2] ++ crlf, [48] ++ crlf ++ crlf]
      twoInAChunk.body := by
  have hsegs : ∀ s ∈ [[1, 2] ++ crlf, [48] ++ crlf ++ crlf], IsSegment s := by
    simp [IsSegment, crlf]
  have hcomes : Comes inChunks twoInAChunk ([50] ++ crlf) [[1, 2] ++ crlf, [48] ++ crlf ++ crlf] :=
    ⟨inChunks_valid, inChunks_declares, twoInAChunk_valid, rfl, by decide, hsegs⟩
  refine (chunks_received (fun _ => 0) inChunks twoInAChunk _ _ hcomes).mpr ⟨by decide, [50], [], rfl, ?_⟩
  have hends : Trailer [[48] ++ crlf ++ crlf] :=
    ⟨[], [48] ++ crlf ++ crlf, rfl, by simp, [48], by decide, by decide⟩
  exact ⟨[], [1, 2], _, rfl, rfl, by decide, hends⟩

/-- The whole response in one segment. -/
theorem chunk_not_received :
    Comes inChunks twoInAChunk twoInAChunk.text [] ∧
      ¬ ChunksRight (fun _ => 0) [inChunks.text ++ twoInAChunk.text] twoInAChunk.body := by
  refine ⟨⟨inChunks_valid, inChunks_declares, twoInAChunk_valid, by simp, by decide, by simp⟩, ?_⟩
  intro hright
  have hover : run (fun _ => 0) [inChunks.text ++ twoInAChunk.text] (.live requested) =
      .error .outOfBounds := by decide +kernel
  exact hright.inside 1 hover

end HTTP

end BrebOS

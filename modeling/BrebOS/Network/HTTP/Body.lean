import BrebOS.Network.HTTP.Headers

/-!
# Bodies with a length

The first segment of a response makes the buffer and fills the beginning of it, the others go on from there.
Only the latter look whether the buffer is full: by then something must be missing, or the response is never
complete; and the former copies all that came with the headers, even if the buffer is too small for it.

The length is read from the characters of the header; spaces and tabs count as digits, except for one space
before the length.
-/

namespace BrebOS

namespace HTTP

/-- `'\t'`. -/
def tab : Byte := 9

namespace HeaderLine

/-- `get_header` takes the header for `Content-Length`. -/
def IsContentLength (h : HeaderLine) : Prop := h.name.map toLower = contentLengthName.map toLower

/-- The value is a number, with spaces and tabs around it. -/
def Writes (h : HeaderLine) (n : ℕ) : Prop :=
  ∃ before digits after, h.raw = before ++ digits ++ after ∧
    (∀ c ∈ before ++ after, c = space ∨ c = tab) ∧ digits ≠ [] ∧ (∀ c ∈ digits, isDigit c) ∧
    digits.foldl (fun n c => n * 10 + digit c) 0 = n

end HeaderLine

namespace ResponseHead

/-- The head says that the body has `n` bytes. -/
structure Declares (r : ResponseHead) (n : ℕ) : Prop where
  given : ∃ h ∈ r.headers, h.IsContentLength
  writes : ∀ h ∈ r.headers, h.IsContentLength → h.Writes n

/-- The length that the characters of the first such header make. -/
def lengthRead (r : ResponseHead) : ℕ :=
  ((r.response.getHeader contentLengthName).elim 0 fun h =>
    (number 32 10 h.value).setWidth 16).toNat

end ResponseHead

/-- The listener, once the request is sent. -/
def requested : HTTP := { state := .getSent }

/-- The segments come in, one after the other. -/
def run (junk : ℕ → Byte) (segments : List (List Byte)) (l : Listener) : Except NetFault Listener :=
  segments.foldlM (fun l p => l.receive junk p) l

/-- What TCP hands on. -/
def IsSegment (s : List Byte) : Prop := s ≠ [] ∧ s.length < 65536

/-- Nothing is written past the buffer, which is never fuller than it can be, and a whole body is received
as it is. -/
structure BodyRight (junk : ℕ → Byte) (segments : List (List Byte)) (body : List Byte) (n : ℕ) : Prop where
  inside : ∀ k, run junk (segments.take k) (.live requested) ≠ .error .outOfBounds
  bounded : ∀ k h, run junk (segments.take k) (.live requested) = .ok (.live h) →
    h.bufSize ≤ h.bufCapacity
  complete : body.length = n → ∃ h, run junk segments (.live requested) = .ok (.live h) ∧
    h.state = .responseComplete ∧ h.buf = body

variable {junk : ℕ → Byte} {c : ℕ} {sofar : List Byte} {h : HTTP}

/-- The buffer has room for `c` bytes and begins with these. -/
structure Holding (c : ℕ) (sofar : List Byte) (h : HTTP) : Prop where
  capacity : h.bufCapacity.toNat = c
  size : h.bufSize.toNat = sofar.length
  length : h.buf.length = c
  content : h.buf.take sofar.length = sofar

/-- The buffer has room for `c` bytes, of which these have come. -/
structure Filling (c : ℕ) (sofar : List Byte) (h : HTTP) : Prop where
  state : h.state = .receivingResponse
  regular : h.transferType = .regular
  capacity : h.bufCapacity.toNat = c
  size : h.bufSize.toNat = sofar.length
  length : h.buf.length = c
  content : h.buf.take sofar.length = sofar

/-- All bytes have come. -/
structure Filled (body : List Byte) (h : HTTP) : Prop where
  state : h.state = .responseComplete
  capacity : h.bufCapacity.toNat = body.length
  size : h.bufSize.toNat = body.length
  buf : h.buf = body

lemma Filling.holding (hf : Filling c sofar h) : Holding c sofar h :=
  ⟨hf.capacity, hf.size, hf.length, hf.content⟩

lemma Holding.le (hb : Holding c sofar h) : sofar.length ≤ c := by
  have hlen := congrArg List.length hb.content
  rw [List.length_take, hb.length] at hlen
  omega

lemma Holding.bounded (hb : Holding c sofar h) : h.bufSize ≤ h.bufCapacity := by
  rw [BitVec.le_def, hb.size, hb.capacity]
  exact hb.le

lemma Filled.bounded {body : List Byte} (hf : Filled body h) : h.bufSize ≤ h.bufCapacity := by
  rw [BitVec.le_def, hf.size, hf.capacity]

/-! ## One segment -/

lemma Filling.receive (hf : Filling c sofar h) (s : List Byte) :
    Listener.receive junk s (.live h) = handleResponseContinuation s h := by
  rw [Listener.receive, onDataReceived, hf.state]

lemma Holding.writeBytes (hb : Holding c sofar h) {s : List Byte} (hle : sofar.length + s.length ≤ c) :
    ∃ buf, BrebOS.writeBytes h.buf h.bufSize.toNat s = .ok buf ∧ buf.length = c ∧
      buf.take (sofar ++ s).length = sofar ++ s := by
  have hlen := hb.length
  rw [hb.size]
  refine ⟨_, writeBytes_eq_ok.mpr ⟨by omega, rfl⟩, ?_, ?_⟩
  · simp only [List.length_append, List.length_take, List.length_drop]
    omega
  · rw [hb.content, List.take_left]

lemma Holding.size_add (hb : Holding c sofar h) {s : List Byte} (hle : sofar.length + s.length ≤ c) :
    (h.bufSize + BitVec.ofNat 16 s.length).toNat = (sofar ++ s).length := by
  have hlt := h.bufCapacity.isLt
  have hc := hb.capacity
  rw [BitVec.toNat_add, BitVec.toNat_ofNat, hb.size, List.length_append]
  omega

lemma Holding.not_more (hb : Holding c sofar h) {s : List Byte} (hle : sofar.length + s.length ≤ c) :
    ¬ h.bufSize.toNat + s.length > h.bufCapacity.toNat := by
  rw [hb.size, hb.capacity]
  omega

lemma Filling.receive_part (junk : ℕ → Byte) (hf : Filling c sofar h) {s : List Byte}
    (hlt : (sofar ++ s).length < c) :
    ∃ h', Listener.receive junk s (.live h) = .ok (.live h') ∧ Filling c (sofar ++ s) h' := by
  have hle : sofar.length + s.length ≤ c := by
    rw [List.length_append] at hlt
    omega
  obtain ⟨buf, hbuf, hlen, hcontent⟩ := hf.holding.writeBytes hle
  have hsize := hf.holding.size_add hle
  have hne : ¬ (h.transferType = .regular ∧ h.bufSize + BitVec.ofNat 16 s.length = h.bufCapacity) := by
    rintro ⟨-, heq⟩
    rw [heq, hf.capacity] at hsize
    omega
  refine ⟨{ h with buf := buf, bufSize := h.bufSize + BitVec.ofNat 16 s.length }, ?_,
    ⟨hf.state, hf.regular, hf.capacity, hsize, hlen, hcontent⟩⟩
  rw [hf.receive, handleResponseContinuation, if_neg (hf.holding.not_more hle), store, hbuf]
  show Except.ok (Listener.live (if _ then _ else _)) = _
  rw [if_neg hne]

lemma Filling.receive_last (junk : ℕ → Byte) (hf : Filling c sofar h) {s : List Byte}
    (heq : (sofar ++ s).length = c) :
    ∃ h', Listener.receive junk s (.live h) = .ok (.live h') ∧ Filled (sofar ++ s) h' := by
  have hle : sofar.length + s.length ≤ c := by
    rw [List.length_append] at heq
    omega
  obtain ⟨buf, hbuf, hlen, hcontent⟩ := hf.holding.writeBytes hle
  have hsize := hf.holding.size_add hle
  have hfull : h.transferType = .regular ∧ h.bufSize + BitVec.ofNat 16 s.length = h.bufCapacity :=
    ⟨hf.regular, BitVec.eq_of_toNat_eq (by rw [hsize, hf.capacity, heq])⟩
  rw [heq, ← hlen, List.take_length] at hcontent
  refine ⟨{ h with
    state := .responseComplete
    buf := buf
    bufSize := h.bufSize + BitVec.ofNat 16 s.length }, ?_, ⟨rfl, ?_, hsize, hcontent⟩⟩
  · rw [hf.receive, handleResponseContinuation, if_neg (hf.holding.not_more hle), store, hbuf]
    show Except.ok (Listener.live (if _ then _ else _)) = _
    rw [if_pos hfull]
  · rw [heq]
    exact hf.capacity

lemma Filling.receive_more (hf : Filling c sofar h) {s : List Byte} (hgt : c < (sofar ++ s).length) :
    Listener.receive junk s (.live h) = .error .released := by
  rw [List.length_append] at hgt
  rw [hf.receive, handleResponseContinuation, if_pos (by rw [hf.size, hf.capacity]; omega),
    if_neg (by simp [hf.regular]), closeAndSet, onConnectionTerminated, if_neg (by simp [hf.state])]
  rfl

lemma Filled.receive {body : List Byte} (hf : Filled body h) (s : List Byte) :
    Listener.receive junk s (.live h) = .ok (.deleted (some body)) := by
  rw [Listener.receive, onDataReceived, hf.state]
  show h.onConnectionTerminated = _
  have hfull : h.bufSize = h.bufCapacity ∧ h.state = .responseComplete :=
    ⟨BitVec.eq_of_toNat_eq (hf.size.trans hf.capacity.symm), hf.state⟩
  have hread : readBytes h.buf 0 h.bufSize.toNat = .ok body := by
    rw [readBytes_eq_ok, hf.size, hf.buf]
    exact ⟨by omega, List.take_length⟩
  rw [onConnectionTerminated, if_pos hfull, hread]
  rfl

/-! ## All segments -/

lemma run_cons (s : List Byte) (segments : List (List Byte)) (l : Listener) :
    run junk (s :: segments) l = (Listener.receive junk s l >>= run junk segments) := List.foldlM_cons ..

lemma run_deleted (segments : List (List Byte)) (saved : Option (List Byte)) :
    run junk segments (.deleted saved) = .ok (.deleted saved) := by
  induction segments with
  | nil => rfl
  | cons s segments ih => exact ih

lemma Filling.run (junk : ℕ → Byte) :
    ∀ {segments : List (List Byte)} {sofar : List Byte} {h : HTTP}, Filling c sofar h →
    (∀ s ∈ segments, IsSegment s) →
    ((sofar ++ segments.flatten).length ≤ c → ∃ h', HTTP.run junk segments (.live h) = .ok (.live h') ∧
      (Filling c (sofar ++ segments.flatten) h' ∧
          (segments = [] ∨ (sofar ++ segments.flatten).length < c) ∨
        Filled (sofar ++ segments.flatten) h' ∧ (sofar ++ segments.flatten).length = c ∧
          sofar.length < c)) ∧
    (c < (sofar ++ segments.flatten).length →
      HTTP.run junk segments (.live h) = .error .released ∨
        ∃ saved, HTTP.run junk segments (.live h) = .ok (.deleted saved)) := by
  intro segments
  induction segments with
  | nil =>
      intro sofar h hf _
      refine ⟨fun _ => ⟨h, rfl, .inl ⟨by simpa using hf, .inl rfl⟩⟩, fun hgt => ?_⟩
      have := hf.holding.le
      rw [List.flatten_nil, List.append_nil] at hgt
      omega
  | cons s segments ih =>
      intro sofar h hf hsegs
      have hpos := List.length_pos_iff.mpr (hsegs s (by simp)).1
      have hrest : ∀ s ∈ segments, IsSegment s := fun s hs => hsegs s (by simp [hs])
      have hflat : sofar ++ (s :: segments).flatten = sofar ++ s ++ segments.flatten := by simp
      have hadd : (sofar ++ s).length = sofar.length + s.length := List.length_append
      have htotal : (sofar ++ s ++ segments.flatten).length =
          (sofar ++ s).length + segments.flatten.length := List.length_append
      rw [hflat, run_cons]
      rcases Nat.lt_trichotomy (sofar ++ s).length c with hlt | heq | hgt
      · obtain ⟨h', hh', hf'⟩ := hf.receive_part junk hlt
        obtain ⟨hfit, hover⟩ := ih hf' hrest
        rw [hh']
        refine ⟨fun hle => ?_, hover⟩
        obtain ⟨h'', hrun', hcase⟩ := hfit hle
        refine ⟨h'', hrun', ?_⟩
        rcases hcase with ⟨hf'', hnil | hless⟩ | ⟨hf'', hall, -⟩
        · refine .inl ⟨hf'', .inr ?_⟩
          rw [htotal, hnil, List.flatten_nil, List.length_nil]
          omega
        · exact .inl ⟨hf'', .inr hless⟩
        · exact .inr ⟨hf'', hall, by omega⟩
      · obtain ⟨h', hh', hf'⟩ := hf.receive_last junk heq
        rw [hh']
        rcases segments with _ | ⟨s', segments⟩
        · refine ⟨fun _ => ⟨h', rfl, .inr ⟨by simpa using hf', by simpa using heq, by omega⟩⟩, ?_⟩
          intro hgt
          rw [List.flatten_nil, List.append_nil] at hgt
          omega
        · have hpos' := List.length_pos_iff.mpr (hrest s' (by simp)).1
          have hflat' : (s' :: segments).flatten.length = s'.length + segments.flatten.length := by simp
          refine ⟨fun hle => ?_, fun _ => .inr ⟨some (sofar ++ s), ?_⟩⟩
          · omega
          · show HTTP.run junk (s' :: segments) (.live h') = _
            rw [run_cons, hf'.receive]
            exact run_deleted segments _
      · rw [hf.receive_more hgt]
        refine ⟨fun hle => ?_, fun _ => .inl rfl⟩
        omega

/-! ## The first segment -/

variable {r : ResponseHead} {data : List Byte}

lemma exists_getHeader {name : List Byte}
    (hgiven : ∃ h ∈ r.headers, h.name.map toLower = name.map toLower) :
    ∃ header, r.response.getHeader name = some header := by
  obtain ⟨h, hh, hname⟩ := hgiven
  rw [← Option.isSome_iff_exists, Response.getHeader, List.find?_isSome]
  exact ⟨h.header, List.mem_map_of_mem hh, beq_iff_eq.mpr hname⟩

lemma receive_head (junk : ℕ → Byte) (hr : r.Valid) (hlt : (r.text ++ data).length < 65536) :
    Listener.receive junk (r.text ++ data) (.live requested) =
      readBody junk (r.text ++ data) r.response r.text.length requested := by
  have hlen : r.text.length - (crlf ++ crlf).length + (crlf ++ crlf).length = r.text.length :=
    Nat.sub_add_cancel (ResponseHead.crlf_length_le hr)
  show handleResponseDescriptor junk (r.text ++ data) requested = _
  have hmethod : ¬ r.response.method = .null := by simp [ResponseHead.response]
  have hstatus : ¬ r.response.status ≠ httpOk := by simp [ResponseHead.response]
  simp only [handleResponseDescriptor, ResponseHead.readResponse_text hr hlt,
    ResponseHead.memmem_text hr, bind, Except.bind, if_neg hmethod, if_neg hstatus, hlen]

lemma startBody_spec (junk : ℕ → Byte) {p : List Byte} {i : ℕ} (len : BitVec 32) (h : HTTP)
    (hi : i ≤ p.length) (hdrop : p.drop i = data) :
    (data.length ≤ (len.setWidth 16).toNat → ∃ h', startBody junk p len i h = .ok (.live h') ∧
      h'.state = .receivingResponse ∧ h'.transferType = h.transferType ∧
      h'.currentChunkSize = h.currentChunkSize ∧ Holding (len.setWidth 16).toNat data h') ∧
    ((len.setWidth 16).toNat < data.length → startBody junk p len i h = .error .outOfBounds) := by
  have hsub : p.length - i = data.length := by rw [← hdrop, List.length_drop]
  have hread : readBytes p i (p.length - i) = .ok data := by
    rw [hsub, readBytes_eq_ok, hdrop, List.take_length]
    exact ⟨by omega, rfl⟩
  have hbuf : ((List.range (len.setWidth 16).toNat).map junk).length = (len.setWidth 16).toNat := by simp
  rw [startBody, hread]
  constructor
  · intro hle
    refine ⟨_, bind_eq_ok.mpr ⟨_, rfl, bind_eq_ok.mpr ⟨_, writeBytes_eq_ok.mpr ⟨by omega, rfl⟩, rfl⟩⟩,
      rfl, rfl, rfl, ⟨rfl, toNat_ofNat_of_lt (by omega), ?_, ?_⟩⟩
    · simp only [List.length_append, List.length_take, List.length_drop, hbuf]
      omega
    · rw [List.take_zero, List.nil_append, List.take_left]
  · intro hgt
    show (writeBytes ((List.range (len.setWidth 16).toNat).map junk) 0 data >>= _) = _
    rw [writeBytes, if_neg (by omega)]
    rfl

lemma receive_first (junk : ℕ → Byte) (hr : r.Valid) (hgiven : ∃ h ∈ r.headers, h.IsContentLength)
    (hlt : (r.text ++ data).length < 65536) :
    (data.length ≤ r.lengthRead → ∃ h,
      Listener.receive junk (r.text ++ data) (.live requested) = .ok (.live h) ∧
        Filling r.lengthRead data h) ∧
    (r.lengthRead < data.length →
      Listener.receive junk (r.text ++ data) (.live requested) = .error .outOfBounds) := by
  obtain ⟨header, hheader⟩ := exists_getHeader hgiven
  have hlength : r.lengthRead = ((number 32 10 header.value).setWidth 16).toNat := by
    rw [ResponseHead.lengthRead, hheader]
    rfl
  have hbody : readBody junk (r.text ++ data) r.response r.text.length requested =
      startBody junk (r.text ++ data) (number 32 10 header.value) r.text.length requested := by
    rw [readBody, hheader]
  have hle : r.text.length ≤ (r.text ++ data).length := by simp
  obtain ⟨hfits, hover⟩ :=
    startBody_spec junk (number 32 10 header.value) requested hle List.drop_left
  rw [receive_head junk hr hlt, hbody, hlength]
  refine ⟨fun hle => ?_, hover⟩
  obtain ⟨h, hh, hstate, htype, -, hb⟩ := hfits hle
  exact ⟨h, hh, ⟨hstate, htype, hb.capacity, hb.size, hb.length, hb.content⟩⟩

/-! ## Whole bodies -/

section Body

variable {segments : List (List Byte)}

lemma run_first : run junk ((r.text ++ data) :: segments) (.live requested) =
    (Listener.receive junk (r.text ++ data) (.live requested) >>= run junk segments) := run_cons ..

lemma isSegment_take {segments : List (List Byte)} (hsegs : ∀ s ∈ segments, IsSegment s) (k : ℕ) :
    ∀ s ∈ segments.take k, IsSegment s := fun s hs => hsegs s (List.mem_of_mem_take hs)

lemma bodyRight_of_fits (hr : r.Valid) (hgiven : ∃ h ∈ r.headers, h.IsContentLength) {n : ℕ}
    (hlt : (r.text ++ data).length < 65536) (hsegs : ∀ s ∈ segments, IsSegment s)
    (hle : data.length ≤ r.lengthRead)
    (hwhole : (data ++ segments.flatten).length = n → r.lengthRead = n ∧ data.length < n) :
    BodyRight junk ((r.text ++ data) :: segments) (data ++ segments.flatten) n := by
  obtain ⟨h, hh, hf⟩ := (receive_first junk hr hgiven hlt).1 hle
  have hrun : ∀ segments, run junk ((r.text ++ data) :: segments) (.live requested) =
      run junk segments (.live h) := by
    intro segments
    rw [run_first, hh]
    rfl
  have hprefix : ∀ k h', run junk (segments.take k) (.live h) = .ok (.live h') →
      h'.bufSize ≤ h'.bufCapacity := by
    intro k h' hh'
    obtain ⟨hfit, hover⟩ := hf.run junk (isSegment_take hsegs k)
    rcases le_or_gt (data ++ (segments.take k).flatten).length r.lengthRead with hin | hout
    · obtain ⟨h'', hh'', hcase⟩ := hfit hin
      obtain rfl : h'' = h' := Listener.live.inj (Except.ok.inj (hh''.symm.trans hh'))
      rcases hcase with ⟨hf', -⟩ | ⟨hf', -⟩
      · exact hf'.holding.bounded
      · exact hf'.bounded
    · rcases hover hout with hrel | ⟨saved, hdel⟩
      · rw [hrel] at hh'
        cases hh'
      · rw [hdel] at hh'
        cases hh'
  refine ⟨?_, ?_, ?_⟩
  · rintro (_ | k)
    · exact fun hcase => by cases hcase
    · rw [List.take_succ_cons, hrun]
      intro herr
      obtain ⟨hfit, hover⟩ := hf.run junk (isSegment_take hsegs k)
      rcases le_or_gt (data ++ (segments.take k).flatten).length r.lengthRead with hin | hout
      · obtain ⟨h', hh', -⟩ := hfit hin
        rw [hh'] at herr
        cases herr
      · rcases hover hout with hrel | ⟨saved, hdel⟩
        · rw [hrel] at herr
          cases herr
        · rw [hdel] at herr
          cases herr
  · rintro (_ | k) h' hh'
    · obtain rfl : requested = h' := Listener.live.inj (Except.ok.inj hh')
      decide
    · rw [List.take_succ_cons, hrun] at hh'
      exact hprefix k h' hh'
  · intro hbody
    obtain ⟨hread, hless⟩ := hwhole hbody
    obtain ⟨h', hh', hcase⟩ := (hf.run junk hsegs).1 (by omega)
    rw [hrun]
    rcases hcase with ⟨-, rfl | hpart⟩ | ⟨hf', -⟩
    · rw [List.flatten_nil, List.append_nil] at hbody
      omega
    · omega
    · exact ⟨h', hh', hf'.state, hf'.buf⟩

/-- A body is received right exactly when what comes with the headers fits the buffer that is made, and, if
it is as long as the headers say, the buffer has that length and something is left for the other
segments. -/
theorem body_received (junk : ℕ → Byte) (r : ResponseHead) (hr : r.Valid) (n : ℕ) (hn : r.Declares n)
    (data : List Byte) (segments : List (List Byte)) (hfirst : (r.text ++ data).length < 65536)
    (hsegs : ∀ s ∈ segments, IsSegment s) :
    BodyRight junk ((r.text ++ data) :: segments) (data ++ segments.flatten) n ↔
      data.length ≤ r.lengthRead ∧
        ((data ++ segments.flatten).length = n → r.lengthRead = n ∧ data.length < n) := by
  constructor
  · intro hright
    have hle : data.length ≤ r.lengthRead := by
      by_contra hgt
      refine hright.inside 1 ?_
      rw [List.take_succ_cons, List.take_zero, run_first,
        (receive_first junk hr hn.given hfirst).2 (not_le.mp hgt)]
      rfl
    refine ⟨hle, fun hbody => ?_⟩
    obtain ⟨h, hh, hf⟩ := (receive_first junk hr hn.given hfirst).1 hle
    obtain ⟨h', hh', hstate, hbuf⟩ := hright.complete hbody
    rw [run_first, hh] at hh'
    obtain ⟨hfit, hover⟩ := hf.run junk hsegs
    rcases le_or_gt (data ++ segments.flatten).length r.lengthRead with hin | hout
    · obtain ⟨h'', hh'', hcase⟩ := hfit hin
      obtain rfl : h'' = h' := Listener.live.inj (Except.ok.inj (hh''.symm.trans hh'))
      rcases hcase with ⟨hf', -⟩ | ⟨hf', htotal, hless⟩
      · rw [hf'.state] at hstate
        cases hstate
      · exact ⟨htotal.symm.trans hbody, by omega⟩
    · rcases hover hout with hrel | ⟨saved, hdel⟩
      · cases hrel.symm.trans hh'
      · cases hdel.symm.trans hh'
  · rintro ⟨hle, hwhole⟩
    exact bodyRight_of_fits hr hn.given hfirst hsegs hle hwhole

end Body

/-- `HTTP/1.1 200 OK`, with `Content-Length: 2`. -/
def twoBytes : ResponseHead :=
  ⟨[72, 84, 84, 80, 47, 49, 46, 49], [79, 75], [⟨contentLengthName, [32, 50]⟩]⟩

lemma twoBytes_valid : twoBytes.Valid where
  version_length := by decide
  version_space := by decide
  statusLine_end := by decide
  headers := by
    intro h hh
    obtain rfl := List.mem_singleton.mp hh
    exact ⟨by decide, by decide, by decide, by decide⟩
  headers_ne := by decide

lemma twoBytes_declares : twoBytes.Declares 2 where
  given := ⟨⟨contentLengthName, [32, 50]⟩, by decide, rfl⟩
  writes := by
    intro h hh _
    obtain rfl := List.mem_singleton.mp hh
    exact ⟨[32], [50], [], rfl, by decide, by decide, by decide, by decide⟩

/-- Two bytes that come one by one. -/
theorem body_received_in_parts :
    BodyRight (fun _ => 0) [twoBytes.text, [1], [2]] [1, 2] 2 := by
  have hsegs : ∀ s ∈ ([[1], [2]] : List (List Byte)), IsSegment s := by
    simp [IsSegment]
  have hiff := body_received (fun _ => 0) twoBytes twoBytes_valid 2 twoBytes_declares [] [[1], [2]]
    (by decide) hsegs
  rw [List.append_nil] at hiff
  exact hiff.mpr ⟨by decide, fun _ => ⟨by decide, by decide⟩⟩

/-- Two bytes that come with the headers. -/
theorem body_not_received : ¬ BodyRight (fun _ => 0) [twoBytes.text ++ [1, 2]] [1, 2] 2 := by
  intro hright
  obtain ⟨h, hh, hstate, -⟩ := hright.complete rfl
  have hreceiving : ((run (fun _ => 0) [twoBytes.text ++ [1, 2]] (.live requested)).toOption.elim false
      fun l => l matches .live { state := .receivingResponse, .. }) = true := by decide +kernel
  rw [hh] at hreceiving
  rcases h with ⟨state, _, _, _, _, _⟩
  obtain rfl : state = .responseComplete := hstate
  cases hreceiving

end HTTP

end BrebOS

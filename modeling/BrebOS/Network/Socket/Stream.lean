import BrebOS.Network.Socket

/-!
# The stream that a peer sends

The network may lose, repeat and reorder what the peer sends.  A socket takes each segment as it comes:
`handle_packet` does not compare its number with `ack_num`, it passes the payload on and sets `ack_num`
to the number after the segment.  What the listener gets is the stream of the peer exactly as long as
each segment with data, or the FIN, carries on where the last one ended.
-/

namespace BrebOS

namespace Connection

variable {stream : List Byte} {first : BitVec 32}

/-- The segment carries the bytes of the stream from `offset` on, under their number; the FIN comes
after the last byte. -/
structure SliceAt (stream : List Byte) (first : BitVec 32) (offset : ℕ) (seg : TCPSegment) : Prop where
  seqNum : seg.seqNum = first + BitVec.ofNat 32 offset
  payload : seg.payload <+: stream.drop offset
  fin : seg.has tcpFlagFin → offset + seg.payload.length = stream.length

instance (offset : ℕ) (seg : TCPSegment) : Decidable (SliceAt stream first offset seg) :=
  decidable_of_iff (seg.seqNum = first + BitVec.ofNat 32 offset ∧ seg.payload <+: stream.drop offset ∧
    (seg.has tcpFlagFin → offset + seg.payload.length = stream.length))
    ⟨fun ⟨h, h₁, h₂⟩ => ⟨h, h₁, h₂⟩, fun ⟨h, h₁, h₂⟩ => ⟨h, h₁, h₂⟩⟩

/-- A segment of an open connection: it has the ACK, and none of the flags of another stage. -/
structure Plain (seg : TCPSegment) : Prop where
  handled : seg.notHandled = false
  ack : seg.has tcpFlagAck
  syn : seg.has tcpFlagSyn = false
  rst : seg.has tcpFlagRst = false

instance (seg : TCPSegment) : Decidable (Plain seg) :=
  decidable_of_iff (seg.notHandled = false ∧ seg.has tcpFlagAck ∧ seg.has tcpFlagSyn = false ∧
    seg.has tcpFlagRst = false)
    ⟨fun ⟨h, h₁, h₂, h₃⟩ => ⟨h, h₁, h₂, h₃⟩, fun ⟨h, h₁, h₂, h₃⟩ => ⟨h, h₁, h₂, h₃⟩⟩

/-- The peer can send the segment. -/
def Slice (stream : List Byte) (first : BitVec 32) (seg : TCPSegment) : Prop :=
  Plain seg ∧ ∃ offset ≤ stream.length, SliceAt stream first offset seg

instance (seg : TCPSegment) : Decidable (Slice stream first seg) := inferInstanceAs (Decidable (_ ∧ _))

/-- What was delivered is a part of the stream from its start, and `ack_num` is the number of the first
byte that did not come; after the whole stream it may count the FIN. -/
def InStream (stream : List Byte) (first : BitVec 32) (c : Connection) : Prop :=
  c.delivered <+: stream ∧
    (c.socket.ackNum = first + BitVec.ofNat 32 c.delivered.length ∨
      c.delivered = stream ∧ c.socket.ackNum = first + BitVec.ofNat 32 stream.length + 1)

/-- Nothing is taken back: `ack_num` moves on by what is delivered, and by one for the FIN. -/
def MovesOn (stream : List Byte) (c c' : Connection) : Prop :=
  ∃ new, c'.delivered = c.delivered ++ new ∧
    (c'.socket.ackNum = c.socket.ackNum + BitVec.ofNat 32 new.length ∨
      c'.delivered = stream ∧ c'.socket.ackNum = c.socket.ackNum + BitVec.ofNat 32 new.length + 1)

/-- A step is made, and the listener has a part of the stream from its start. -/
def KeepsStream (stream : List Byte) (first : BitVec 32) (c : Connection) (op : SocketOp) : Prop :=
  ∃ c', c.step op = .ok c' ∧ InStream stream first c' ∧ MovesOn stream c c'

/-- What happens on a connection until it is closed: segments of the peer arrive, and data is sent. -/
def FromPeer (stream : List Byte) (first : BitVec 32) (c : Connection) : SocketOp → Prop
  | .segment seg => Slice stream first seg
  | .sendData _ => c.socket.state ≠ .closed
  | .close _ => True
  | _ => False

/-- What a segment brings to an open connection comes next in the stream. -/
def Next (stream : List Byte) (first : BitVec 32) (c : Connection) : SocketOp → Prop
  | .segment seg => c.socket.state = .established →
      seg.payload ≠ [] ∨ seg.has tcpFlagFin → SliceAt stream first c.delivered.length seg
  | _ => True

instance (c : Connection) : (op : SocketOp) → Decidable (FromPeer stream first c op)
  | .segment seg => inferInstanceAs (Decidable (Slice stream first seg))
  | .sendData _ => inferInstanceAs (Decidable (_ ≠ _))
  | .close _ => inferInstanceAs (Decidable True)
  | .sendFinAck => inferInstanceAs (Decidable False)
  | .onHostnameResolved _ => inferInstanceAs (Decidable False)

instance (c : Connection) : (op : SocketOp) → Decidable (Next stream first c op)
  | .segment _ => inferInstanceAs (Decidable (_ → _))
  | .sendData _ => inferInstanceAs (Decidable True)
  | .close _ => inferInstanceAs (Decidable True)
  | .sendFinAck => inferInstanceAs (Decidable True)
  | .onHostnameResolved _ => inferInstanceAs (Decidable True)

/-- A connection on which the peer's stream arrives. -/
structure Receives (stream : List Byte) (first : BitVec 32) (c : Connection) : Prop where
  listener : c.socket.listener
  inStream : InStream stream first c
  stage : c.socket.state = .established ∧
      c.socket.ackNum = first + BitVec.ofNat 32 c.delivered.length ∨
    c.socket.state = .closeWait ∨ c.socket.state = .closed

/-! ## The steps -/

lemma MovesOn.of_same {c c' : Connection} (hdelivered : c'.delivered = c.delivered)
    (hack : c'.socket.ackNum = c.socket.ackNum) : MovesOn stream c c' := by
  refine ⟨[], by simpa using hdelivered, .inl ?_⟩
  simpa using hack

lemma InStream.of_same {c c' : Connection} (h : InStream stream first c)
    (hdelivered : c'.delivered = c.delivered) (hack : c'.socket.ackNum = c.socket.ackNum) :
    InStream stream first c' := by
  simp only [InStream, hdelivered, hack]
  exact h

lemma Receives.closed {c c₁ : Connection} {new : List SocketEvent} (hc : Receives stream first c)
    (msg : Option String) (hsocket : c₁.socket = c.socket) (hevents : c₁.events = c.events ++ new)
    (hnew : deliveredBy new = []) :
    Receives stream first (c₁.close msg) ∧ MovesOn stream c (c₁.close msg) := by
  have hevents' : (c₁.close msg).events =
      c.events ++ (new ++ if c₁.socket.listener then [.terminated msg] else []) := by
    rw [close_events, hevents, List.append_assoc]
  have hdelivered : (c₁.close msg).delivered = c.delivered := by
    rw [delivered_of_append hevents', deliveredBy, List.flatMap_append, ← deliveredBy, hnew]
    split <;> simp
  have hack : (c₁.close msg).socket.ackNum = c.socket.ackNum := by simp [hsocket]
  refine ⟨⟨?_, hc.inStream.of_same hdelivered hack, .inr (.inr (by simp))⟩, .of_same hdelivered hack⟩
  simpa [hsocket] using hc.listener

lemma nextNum_of_plain {seg : TCPSegment} (h : Plain seg) : nextNum seg =
    seg.seqNum + BitVec.ofNat 32 seg.payload.length + if seg.has tcpFlagFin then 1 else 0 := by
  have hflags : ∀ flags : BitVec 8, (flags &&& tcpFlagSyn != 0) = false →
      (flags &&& (tcpFlagSyn ||| tcpFlagFin) != 0) = (flags &&& tcpFlagFin != 0) := by decide
  have hfin : seg.has (tcpFlagSyn ||| tcpFlagFin) = seg.has tcpFlagFin := hflags seg.flags h.syn
  simp only [nextNum, hfin]
  split <;> simp

lemma Receives.receive {c : Connection} {seg : TCPSegment} (hc : Receives stream first c)
    (hplain : Plain seg) (hstate : c.socket.state = .established)
    (hack : c.socket.ackNum = first + BitVec.ofNat 32 c.delivered.length)
    (hnext : seg.payload ≠ [] ∨ seg.has tcpFlagFin → SliceAt stream first c.delivered.length seg) :
    Receives stream first (c.receive seg) ∧ MovesOn stream c (c.receive seg) := by
  rcases receive_spec seg c with ⟨-, -, hsame⟩ | ⟨hdata, hsocket, s, hevents⟩
  · rw [hsame]
    exact ⟨hc, .of_same rfl rfl⟩
  · have hslice := hnext hdata
    have hdelivered : (c.receive seg).delivered = c.delivered ++ seg.payload := by
      rw [delivered_of_append hevents]
      rcases hpayload : seg.payload with _ | ⟨b, bs⟩
      · simp [deliveredBy]
      · simp [deliveredBy, hc.listener]
    obtain ⟨rest, hrest⟩ := hc.inStream.1
    have hbefore : c.delivered ++ seg.payload <+: stream := by
      have hpayload := hslice.payload
      rw [← hrest, List.drop_left] at hpayload
      rw [← hrest]
      exact List.prefix_append_right_inj _ |>.mpr hpayload
    have hnum : (c.receive seg).socket.ackNum = first + BitVec.ofNat 32 c.delivered.length +
        BitVec.ofNat 32 seg.payload.length + if seg.has tcpFlagFin then 1 else 0 := by
      rw [hsocket, nextNum_of_plain hplain, hslice.seqNum]
    have hlen : (c.receive seg).delivered.length = c.delivered.length + seg.payload.length := by
      rw [hdelivered, List.length_append]
    rcases hfin : seg.has tcpFlagFin with _ | _
    · simp only [hfin, Bool.false_eq_true, if_false, BitVec.ofNat_eq_ofNat, BitVec.add_zero] at hnum
      have hack' : (c.receive seg).socket.ackNum =
          first + BitVec.ofNat 32 (c.receive seg).delivered.length := by
        rw [hnum, hlen, BitVec.ofNat_add, BitVec.add_assoc]
      refine ⟨⟨?_, ⟨hdelivered ▸ hbefore, .inl hack'⟩, .inl ⟨?_, hack'⟩⟩, seg.payload, hdelivered, .inl ?_⟩
      · rw [hsocket]
        exact hc.listener
      · rw [hsocket]
        simp [hfin, hstate]
      · rw [hnum, hack]
    · rw [hfin, if_pos rfl] at hnum
      have hwhole : (c.receive seg).delivered = stream := by
        rw [hdelivered]
        refine hbefore.eq_of_length ?_
        rw [List.length_append]
        exact hslice.fin hfin
      have hack' : (c.receive seg).socket.ackNum = first + BitVec.ofNat 32 stream.length + 1 := by
        rw [hnum, ← hslice.fin hfin, BitVec.ofNat_add, BitVec.add_assoc first]
      refine ⟨⟨?_, ⟨hdelivered ▸ hbefore, .inr ⟨hwhole, hack'⟩⟩, .inr (.inl ?_)⟩, seg.payload, hdelivered,
        .inr ⟨hwhole, ?_⟩⟩
      · rw [hsocket]
        exact hc.listener
      · rw [hsocket]
        simp [hfin]
      · rw [hnum, hack]

lemma Receives.segment {c : Connection} {seg : TCPSegment} (hc : Receives stream first c)
    (hplain : Plain seg) (hnext : Next stream first c (.segment seg)) :
    ∃ c', c.step (.segment seg) = .ok c' ∧ Receives stream first c' ∧ MovesOn stream c c' := by
  rw [step]
  have hhandled := handlePacket_handled seg c
  generalize c.handlePacket seg = r at hhandled ⊢
  cases hhandled with
  | reset hflags =>
      rw [hplain.handled] at hflags
      cases hflags
  | opened _ hsyn _ =>
      rw [hplain.syn] at hsyn
      cases hsyn
  | ended hstate =>
      have := hc.stage
      simp [hstate] at this
  | received hack hstate =>
      have hnum : c.socket.ackNum = first + BitVec.ofNat 32 c.delivered.length := by
        have := hc.stage
        simpa [hstate] using this
      exact ⟨_, rfl, hc.receive hplain hstate hnum (hnext hstate)⟩
  | closed msg => exact ⟨_, rfl, hc.closed msg rfl (List.append_nil _).symm rfl⟩
  | refused msg => exact ⟨_, rfl, hc.closed msg rfl (sendHeader_events c tcpFlagRst) rfl⟩

lemma Receives.step {c : Connection} {op : SocketOp} (hc : Receives stream first c)
    (hpeer : FromPeer stream first c op) (hnext : Next stream first c op) :
    ∃ c', c.step op = .ok c' ∧ Receives stream first c' ∧ MovesOn stream c c' := by
  cases op with
  | segment seg => exact hc.segment hpeer.1 hnext
  | sendData b =>
      obtain ⟨c', seqNum, hc', hsocket, -, hevents⟩ := sendData_transmits (b := b)
        (c := { c with buffers := b.addr :: c.buffers }) hpeer (by simp)
      have hdelivered : c'.delivered = c.delivered := by
        rw [delivered_of_append hevents]
        exact List.append_nil _
      have hack : c'.socket.ackNum = c.socket.ackNum := by rw [hsocket]
      refine ⟨c', hc', ⟨?_, hc.inStream.of_same hdelivered hack, ?_⟩, .of_same hdelivered hack⟩
      · rw [hsocket]
        exact hc.listener
      · rw [hdelivered, hsocket]
        exact hc.stage
  | close msg => exact ⟨_, rfl, hc.closed msg rfl (List.append_nil _).symm rfl⟩
  | sendFinAck => exact hpeer.elim
  | onHostnameResolved ip => exact hpeer.elim

/-- On an open connection whose listener got nothing yet, as long as what arrives comes next in the
stream, the listener has a part of the stream from its start, and `ack_num` follows it. -/
theorem stream_kept (stream : List Byte) (first : BitVec 32) (c : Connection)
    (hlistener : c.socket.listener) (hopen : c.socket.state = .established)
    (hack : c.socket.ackNum = first) (hdelivered : c.delivered = []) (ops : List SocketOp)
    (hops : EachCall Connection.step
      (fun c op => FromPeer stream first c op ∧ Next stream first c op) ops c) :
    EachCall Connection.step (KeepsStream stream first) ops c := by
  refine EachCall.imp_of_invariant (Q := Receives stream first) ?_ ?_ ?_ hops
  · intro c op hc hop
    obtain ⟨c', hc', hreceives, hmoves⟩ := hc.step hop.1 hop.2
    exact ⟨c', hc', hreceives.inStream, hmoves⟩
  · intro c op c' hc hop hstep
    obtain ⟨c'', hc'', hreceives, -⟩ := hc.step hop.1 hop.2
    rw [hstep] at hc''
    cases hc''
    exact hreceives
  · have hnum : c.socket.ackNum = first + BitVec.ofNat 32 c.delivered.length := by
      simp [hack, hdelivered]
    exact ⟨hlistener, ⟨by simp [hdelivered], .inl hnum⟩, .inl ⟨hopen, hnum⟩⟩

/-- An open connection whose peer's first byte has the last number before the numbers wrap. -/
def openAt : Connection :=
  { socket := { peerIp := 9, state := .established, ackNum := 0xffffffff } }

theorem stream_kept_three :
    EachCall Connection.step (KeepsStream [1, 2, 3] 0xffffffff)
      [.segment ⟨0xffffffff, 0, 0x18, [1, 2]⟩, .sendData ⟨1, [71]⟩, .segment ⟨1, 0, 0x11, [3]⟩]
      openAt := by
  refine stream_kept [1, 2, 3] 0xffffffff openAt rfl rfl rfl rfl _ ?_
  decide

/-- A segment that comes twice is delivered twice. -/
theorem stream_not_kept : ∃ ops, EachCall Connection.step (FromPeer [1, 2, 3] 0xffffffff) ops openAt ∧
    ¬ EachCall Connection.step (KeepsStream [1, 2, 3] 0xffffffff) ops openAt := by
  refine ⟨[.segment ⟨0xffffffff, 0, 0x18, [1]⟩, .segment ⟨0xffffffff, 0, 0x18, [1]⟩], by decide, ?_⟩
  rintro ⟨-, ⟨c', hc', hin, -⟩, -⟩
  cases hc'
  exact absurd hin.1 (by decide)

end Connection

end BrebOS

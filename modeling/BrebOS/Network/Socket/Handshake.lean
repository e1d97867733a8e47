import BrebOS.Network.Socket

/-!
# The opening of a connection

`handle_packet` asks for `flags & TCP_FLAG_SYN && flags && TCP_FLAG_ACK`, where the second `&&` was to
be a `&`: a bare SYN opens the connection, and what the segment acknowledges is not looked at.

The data that waits for the handshake is sent when the connection opens.  It is also sent by
`on_hostname_resolved` when the socket is no longer closed, which happens when the name was asked for
twice; and a second `send_data` while the name is being asked for puts its data in the place of the first.
-/

namespace BrebOS

namespace Connection

/-- The data segments among the events. -/
def dataSent (es : List SocketEvent) : List (List Byte) :=
  es.filterMap fun
    | .sent seg => if seg.flags = tcpFlagPsh ||| tcpFlagAck then some seg.payload else none
    | _ => none

/-- The number of the last SYN that was sent. -/
def lastSyn (es : List SocketEvent) : Option (BitVec 32) :=
  (es.filterMap fun
    | .sent seg => if seg.flags = tcpFlagSyn then some seg.seqNum else none
    | _ => none).getLast?

/-- A name was asked for, and there was neither a SYN nor an end of the connection since. -/
def asking (es : List SocketEvent) : Bool :=
  (es.filterMap fun
    | .query _ => some true
    | .terminated _ => some false
    | .sent seg => if seg.flags = tcpFlagSyn then some false else none
    | _ => none).getLast? == some true

/-- The events since an earlier state. -/
def since (c c' : Connection) : List SocketEvent := c'.events.drop c.events.length

/-- The data that waits for the handshake. -/
def startData (c : Connection) : List Byte := (c.socket.startPacket.map (·.bytes)).getD []

/-- Data waits for the handshake: it is under way, or the name of the peer is being asked for. -/
def Pending (c : Connection) : Prop :=
  c.socket.state = .synSent ∨ c.socket.state = .closed ∧ asking c.events = true

/-- The step opens the connection. -/
def Opens (c c' : Connection) : Prop :=
  c.socket.state = .synSent ∧ c'.socket.state = .established

/-- What a step has to be like. -/
structure Proper (c : Connection) (op : SocketOp) (c' : Connection) : Prop where
  /-- Only a SYN with an ACK of the SYN we sent opens the connection. -/
  answered : Opens c c' → ∃ seg n, op = .segment seg ∧ seg.has tcpFlagSyn ∧ seg.has tcpFlagAck ∧
    lastSyn c.events = some n ∧ seg.ackNum = n + 1
  /-- The opening sends the data that waits, once. -/
  start : Opens c c' → dataSent (c.since c') = [c.startData]
  /-- Nothing else sends data, but `send_data` on a socket that is not closed. -/
  silent : ¬ Opens c c' → (∀ b, op = .sendData b → c.socket.state = .closed) →
    dataSent (c.since c') = []
  /-- Until then what waits stays. -/
  kept : Pending c → c'.socket.startPacket = c.socket.startPacket
  /-- A segment that comes before brings no data. -/
  undelivered : c.socket.state = .closed ∨ c.socket.state = .synSent →
    ∀ seg, op = .segment seg → c'.delivered = c.delivered

/-- A step is made, without touching a buffer that was deleted, and it is a proper one. -/
def Right (c : Connection) (op : SocketOp) : Prop := ∃ c', c.step op = .ok c' ∧ Proper c op c'

/-- The data that waits was not sent and deleted yet. -/
def StartKept (c : Connection) : Prop := ∃ b ∈ c.socket.startPacket, b.addr ∈ c.buffers

instance (c : Connection) : Decidable (StartKept c) :=
  inferInstanceAs (Decidable (∃ b ∈ c.socket.startPacket, b.addr ∈ c.buffers))

/-- A step that does not meet the defects. -/
def Expected (c : Connection) : SocketOp → Prop
  | .segment seg => c.socket.state = .synSent → seg.notHandled = false → seg.has tcpFlagSyn →
      seg.has tcpFlagAck ∧ some seg.ackNum = (lastSyn c.events).map (· + 1)
  | .sendData _ => c.socket.state = .closed → asking c.events = false
  | .onHostnameResolved _ => c.socket.state = .closed ∧ StartKept c
  | .sendFinAck => True
  | .close _ => True

instance (c : Connection) : (op : SocketOp) → Decidable (Expected c op)
  | .segment _ => inferInstanceAs (Decidable (_ → _))
  | .sendData _ => inferInstanceAs (Decidable (_ → _))
  | .onHostnameResolved _ => inferInstanceAs (Decidable (_ ∧ _))
  | .sendFinAck => inferInstanceAs (Decidable True)
  | .close _ => inferInstanceAs (Decidable True)

/-- As long as the handshake is under way its data and its SYN are known. -/
def Ready (c : Connection) : Prop :=
  c.socket.state = .synSent → StartKept c ∧ ∃ n, lastSyn c.events = some n

/-! ## Reading the events -/

@[simp] lemma dataSent_append (es es' : List SocketEvent) :
    dataSent (es ++ es') = dataSent es ++ dataSent es' := List.filterMap_append ..

@[simp] lemma dataSent_data (s : Socket) (data : List Byte) :
    dataSent [.sent (writeHeader s (tcpFlagPsh ||| tcpFlagAck) data)] = [data] := by
  simp [dataSent, writeHeader]

lemma dataSent_header (s : Socket) {flags : BitVec 8} (h : flags ≠ tcpFlagPsh ||| tcpFlagAck) :
    dataSent [.sent (writeHeader s flags [])] = [] := by
  simp [dataSent, writeHeader, h]

lemma lastSyn_syn (es : List SocketEvent) (s : Socket) :
    lastSyn (es ++ [.sent (writeHeader s tcpFlagSyn [])]) = some s.seqNum := by
  simp [lastSyn, writeHeader]

lemma lastSyn_header (es : List SocketEvent) (s : Socket) (data : List Byte) {flags : BitVec 8}
    (h : flags ≠ tcpFlagSyn) : lastSyn (es ++ [.sent (writeHeader s flags data)]) = lastSyn es := by
  simp [lastSyn, writeHeader, h]

lemma since_of_append {c c' : Connection} {new : List SocketEvent} (h : c'.events = c.events ++ new) :
    c.since c' = new := by
  rw [since, h, List.drop_left]

/-! ## The steps -/

lemma Proper.of_silent {c c' : Connection} {op : SocketOp} (new : List SocketEvent)
    (hopens : ¬ Opens c c') (hevents : c'.events = c.events ++ new) (hsent : dataSent new = [])
    (hkept : Pending c → c'.socket.startPacket = c.socket.startPacket)
    (hdelivered : (c.socket.state = .closed ∨ c.socket.state = .synSent) → deliveredBy new = []) :
    Proper c op c' where
  answered h := absurd h hopens
  start h := absurd h hopens
  silent _ _ := by rw [since_of_append hevents, hsent]
  kept := hkept
  undelivered hstate _ _ := by rw [delivered_of_append hevents, hdelivered hstate, List.append_nil]

lemma right_closed {c c₁ : Connection} {op : SocketOp} (new : List SocketEvent) (msg : Option String)
    (hstart : c₁.socket.startPacket = c.socket.startPacket) (hevents : c₁.events = c.events ++ new)
    (hsent : dataSent new = []) (hdelivered : deliveredBy new = []) :
    Proper c op (c₁.close msg) ∧ Ready (c₁.close msg) := by
  constructor
  · refine Proper.of_silent (new ++ if c₁.socket.listener then [.terminated msg] else []) ?_ ?_ ?_ ?_ ?_
    · rintro ⟨-, h⟩
      simp at h
    · rw [close_events, hevents, List.append_assoc]
    · rw [dataSent_append, hsent]
      split <;> rfl
    · intro _
      simpa using hstart
    · intro _
      rw [deliveredBy, List.flatMap_append, ← deliveredBy, hdelivered]
      split <;> rfl
  · intro h
    simp at h

lemma right_synResponse {c : Connection} {seg : TCPSegment} (hready : Ready c)
    (hstate : c.socket.state = .synSent) (hflags : seg.notHandled = false) (hsyn : seg.has tcpFlagSyn)
    (hexp : Expected c (.segment seg)) :
    ∃ c', c.synResponse seg = .ok c' ∧ Proper c (.segment seg) c' ∧ Ready c' := by
  obtain ⟨⟨b, hb, hlive⟩, n, hn⟩ := hready hstate
  obtain ⟨hack, hnum⟩ := hexp hstate hflags hsyn
  rw [hn, Option.map_some, Option.some.injEq] at hnum
  have hstart : (c.establish seg).socket.startPacket = some b := hb
  obtain ⟨s, hs⟩ : ∃ s, (c.establish seg).events =
      c.events ++ [.sent (writeHeader s tcpFlagAck [])] := ⟨_, rfl⟩
  obtain ⟨c', seqNum, hc', hsocket, -, hevents'⟩ :=
    sendData_transmits (b := b) (c := c.establish seg) (by simp [establish]) hlive
  have hstate' : c'.socket.state = .established := by rw [hsocket]; rfl
  rw [hs, List.append_assoc] at hevents'
  have hopens : Opens c c' := ⟨hstate, hstate'⟩
  refine ⟨c', by rw [synResponse, hstart, hc'], ⟨?_, ?_, ?_, ?_, ?_⟩, ?_⟩
  · exact fun _ => ⟨seg, n, rfl, hsyn, hack, hn, hnum⟩
  · intro _
    rw [since_of_append hevents', dataSent_append, dataSent_data, dataSent_header _ (by decide),
      startData, hb]
    rfl
  · exact fun h => absurd hopens h
  · intro _
    rw [hsocket]
    rfl
  · intro _ _ _
    rw [delivered_of_append hevents']
    simp [deliveredBy]
  · intro h
    rw [hstate'] at h
    cases h

lemma right_receive {c : Connection} {seg : TCPSegment} (hstate : c.socket.state = .established) :
    Proper c (.segment seg) (c.receive seg) ∧ Ready (c.receive seg) := by
  have hopens : ¬ Opens c (c.receive seg) := by
    rintro ⟨h, -⟩
    rw [hstate] at h
    cases h
  have hearly : ¬ (c.socket.state = .closed ∨ c.socket.state = .synSent) := by simp [hstate]
  have hpending : ¬ Pending c := by simp [Pending, hstate]
  rcases receive_spec seg c with ⟨-, -, hsame⟩ | ⟨-, hsocket, s, hevents⟩
  · rw [hsame] at hopens ⊢
    refine ⟨Proper.of_silent [] hopens (by simp) rfl (fun _ => rfl) fun _ => rfl, ?_⟩
    intro h
    rw [hstate] at h
    cases h
  · refine ⟨Proper.of_silent _ hopens hevents ?_ (fun h => absurd h hpending) fun h => absurd h hearly, ?_⟩
    · rw [dataSent_append, dataSent_header _ (by cases seg.has tcpFlagFin <;> decide)]
      split <;> rfl
    · intro h
      rw [hsocket] at h
      simp only [hstate] at h
      split at h <;> cases h

lemma right_segment {c : Connection} {seg : TCPSegment} (hready : Ready c)
    (hexp : Expected c (.segment seg)) :
    ∃ c', c.step (.segment seg) = .ok c' ∧ Proper c (.segment seg) c' ∧ Ready c' := by
  have hrst (s : Socket) : dataSent [.sent (writeHeader s tcpFlagRst [])] = [] :=
    dataSent_header s (by decide)
  rw [step]
  have hhandled := handlePacket_handled seg c
  generalize c.handlePacket seg = r at hhandled ⊢
  cases hhandled with
  | reset hflags =>
      refine ⟨_, rfl, Proper.of_silent _ ?_ rfl (hrst _) (fun _ => rfl) fun _ => rfl, ?_⟩
      · rintro ⟨h, h'⟩
        rw [sendHeader_socket, h] at h'
        cases h'
      · intro h
        obtain ⟨hstart, n, hn⟩ := hready h
        refine ⟨hstart, n, ?_⟩
        rw [sendHeader_events, lastSyn_header _ _ _ (by decide), hn]
  | opened hflags hsyn hstate => exact right_synResponse hready hstate hflags hsyn hexp
  | ended hstate =>
      exact ⟨_, rfl, right_closed _ none rfl rfl (dataSent_header _ (by decide)) rfl⟩
  | received hack hstate => exact ⟨_, rfl, right_receive hstate⟩
  | closed msg => exact ⟨_, rfl, right_closed [] msg rfl (by simp) rfl rfl⟩
  | refused msg =>
      exact ⟨_, rfl, right_closed _ msg rfl (sendHeader_events c tcpFlagRst) (hrst _) rfl⟩

lemma right_sendData {c : Connection} {b : Buffer} (hready : Ready c) (hexp : Expected c (.sendData b)) :
    ∃ c', c.step (.sendData b) = .ok c' ∧ Proper c (.sendData b) c' ∧ Ready c' := by
  rw [step]
  by_cases hstate : c.socket.state = .closed
  · obtain ⟨c', hc', hstart, hbuffers, h⟩ :=
      sendData_queues (some b) (c := { c with buffers := b.addr :: c.buffers }) hstate
    have hasking := hexp hstate
    have hopens : ¬ Opens c c' := by
      rintro ⟨h, -⟩
      rw [hstate] at h
      cases h
    have hpending : ¬ Pending c := by simp [Pending, hstate, hasking]
    refine ⟨c', hc', ?_⟩
    rcases h with ⟨hstate', hevents⟩ | ⟨hstate', hevents⟩
    · refine ⟨Proper.of_silent _ hopens hevents rfl (fun h => absurd h hpending) fun _ => rfl, ?_⟩
      intro h
      rw [hstate'] at h
      cases h
    · refine ⟨Proper.of_silent _ hopens hevents (dataSent_header _ (by decide))
        (fun h => absurd h hpending) fun _ => rfl, fun _ => ⟨⟨b, hstart, ?_⟩, c.socket.seqNum, ?_⟩⟩
      · rw [hbuffers]
        simp
      · rw [hevents]
        exact lastSyn_syn _ _
  · obtain ⟨c', seqNum, hc', hsocket, hbuffers, hevents⟩ := sendData_transmits (b := b)
      (c := { c with buffers := b.addr :: c.buffers }) hstate (by simp)
    have hstate' : c'.socket.state = c.socket.state := by rw [hsocket]
    have hstart : c'.socket.startPacket = c.socket.startPacket := by rw [hsocket]
    have hopens : ¬ Opens c c' := by
      rintro ⟨h, h'⟩
      rw [hstate', h] at h'
      cases h'
    refine ⟨c', hc', ⟨fun h => absurd h hopens, fun h => absurd h hopens, ?_, fun _ => hstart, ?_⟩, ?_⟩
    · exact fun _ h => absurd (h b rfl) hstate
    · rintro _ _ ⟨⟩
    · intro h
      rw [hstate'] at h
      obtain ⟨⟨b', hb', hlive⟩, n, hn⟩ := hready h
      refine ⟨⟨b', by rw [hstart]; exact hb', ?_⟩, n, ?_⟩
      · rw [hbuffers]
        simpa using hlive
      · rw [hevents, lastSyn_header _ _ _ (by decide), hn]

lemma right_onHostnameResolved {c : Connection} {ip : BitVec 32}
    (hexp : Expected c (.onHostnameResolved ip)) :
    ∃ c', c.step (.onHostnameResolved ip) = .ok c' ∧ Proper c (.onHostnameResolved ip) c' ∧ Ready c' := by
  obtain ⟨hstate, b, hb, hlive⟩ := hexp
  rw [step, onHostnameResolved]
  obtain ⟨c', hc', hstart, hbuffers, h⟩ := sendData_queues c.socket.startPacket
    (c := { c with socket := { c.socket with peerIp := ip } }) hstate
  have hopens : ¬ Opens c c' := by
    rintro ⟨h, -⟩
    rw [hstate] at h
    cases h
  refine ⟨c', hc', ?_⟩
  rcases h with ⟨hstate', hevents⟩ | ⟨hstate', hevents⟩
  · refine ⟨Proper.of_silent _ hopens hevents rfl (fun _ => hstart) fun _ => rfl, ?_⟩
    intro h
    rw [hstate'] at h
    cases h
  · refine ⟨Proper.of_silent _ hopens hevents (dataSent_header _ (by decide)) (fun _ => hstart)
      fun _ => rfl, fun _ => ⟨⟨b, hstart.trans hb, by rw [hbuffers]; exact hlive⟩, c.socket.seqNum, ?_⟩⟩
    rw [hevents]
    exact lastSyn_syn _ _

lemma right_of_expected {c : Connection} (hready : Ready c) (op : SocketOp) (hexp : Expected c op) :
    ∃ c', c.step op = .ok c' ∧ Proper c op c' ∧ Ready c' := by
  cases op with
  | segment seg => exact right_segment hready hexp
  | sendData b => exact right_sendData hready hexp
  | onHostnameResolved ip => exact right_onHostnameResolved hexp
  | close msg => exact ⟨_, rfl, right_closed [] msg rfl (by simp) rfl rfl⟩
  | sendFinAck =>
      refine ⟨_, rfl, Proper.of_silent _ ?_ rfl (dataSent_header _ (by decide)) (fun _ => rfl)
        fun _ => rfl, ?_⟩
      · rintro ⟨-, h⟩
        cases h
      · intro h
        cases h

/-- In every run from a closed socket that does not meet the defects, the connection is opened by the
answer to our SYN alone, the data that waits for it is sent once and then, and no data arrives before. -/
theorem opened_by_answer (c : Connection) (hclosed : c.socket.state = .closed) (ops : List SocketOp)
    (hexp : EachCall step Expected ops c) : EachCall step Right ops c := by
  refine EachCall.imp_of_invariant (Q := Ready) ?_ ?_ ?_ hexp
  · intro c op hready hexp
    obtain ⟨c', hc', hproper, -⟩ := right_of_expected hready op hexp
    exact ⟨c', hc', hproper⟩
  · intro c op c' hready hexp hstep
    obtain ⟨c'', hc'', -, hready'⟩ := right_of_expected hready op hexp
    rw [hstep] at hc''
    cases hc''
    exact hready'
  · intro h
    rw [hclosed] at h
    cases h

/-- A new socket; without an address it has to ask for its peer. -/
def newSocket (peerIp seqNum : BitVec 32) : Connection :=
  { socket := { hostname := some "host.example", peerIp, seqNum } }

theorem opened_by_answer_twice :
    EachCall step Right [.sendData ⟨1, [71]⟩, .onHostnameResolved 9, .segment ⟨40, 8, 0x12, []⟩,
      .segment ⟨41, 9, 0x11, []⟩, .segment ⟨42, 9, 0x10, []⟩, .sendData ⟨2, [72]⟩,
      .segment ⟨60, 10, 0x12, []⟩] (newSocket 0 7) := by
  refine opened_by_answer (newSocket 0 7) rfl _ ?_
  decide

/-- A SYN without an ACK opens the connection. -/
theorem opened_by_bare_syn : ∃ ops, ¬ EachCall step Right ops (newSocket 9 7) := by
  refine ⟨[.sendData ⟨1, [71]⟩, .segment ⟨40, 0, 0x02, []⟩], ?_⟩
  rintro ⟨-, h⟩
  obtain ⟨c', hc', hproper⟩ := h.1
  cases hc'
  obtain ⟨seg, n, hseg, -, hack, -⟩ := hproper.answered ⟨rfl, rfl⟩
  cases hseg
  simp [TCPSegment.has, tcpFlagAck] at hack

end Connection

end BrebOS

import BrebOS.Network.ARP
import BrebOS.Lib.Slots

/-!
# The packets that wait for an address

When an answer comes, `handle_packet` sends the first packet that waits for it and then clears the whole
queue: the other packets are lost, those for the same address as those for other ones.  An answer with a
null address has the packet queued anew and then cleared with the rest.  So an answer is as it should be
exactly when the packet it is for, if there is one, is the only one that waits.
-/

namespace BrebOS

namespace Network

/-- The packets that wait. -/
def pending (n : Network) : List Frame := slotValues n.pendingQueue

/-- Those that wait for an address. -/
def waitingFor (n : Network) (ip : IP) : List Frame := n.pending.filter (·.payload.daddr == ip)

/-- Those that wait for another one. -/
def waitingElse (n : Network) (ip : IP) : List Frame := n.pending.filter (·.payload.daddr != ip)

/-- A packet to an address of the subnet that is not resolved, as long as there is room for it; or the
answer to a request. -/
def Resolving (n : Network) : NetworkOp → Prop
  | .send f => f.dest = 0 ∧ n.addressIsInSubnet f.payload.daddr ∧ n.pending.length < arpPendingQueueSize
  | .receive packet _ => packet.opcode ≠ arpRequest

/-- What the answer of the gateway has the kernel send besides. -/
def gatewayRequest (n : Network) (packet : ArpPacket) : List Frame :=
  if packet.srcpr = n.gatewayIp then [⟨packet.srchw, n.mac, .ipv4 timeServerIp []⟩] else []

/-- A packet is queued, and its receiver asked for; an answer has those that wait for it sent, each once
and to the address it names, and the others go on waiting. -/
def Answered (n : Network) (op : NetworkOp) (n' : Network) : Prop :=
  match op with
  | .send f => n'.sent = n.sent ++ [n.resolveMacFrame f.payload.daddr] ∧ n'.pending.Perm (f :: n.pending)
  | .receive packet _ =>
      if n.isValid packet then
        n'.sent = n.sent ++ n.gatewayRequest packet ++
          (n.waitingFor packet.srcpr).map ({ · with dest := packet.srchw }) ∧
        n'.pending.Perm (n.waitingElse packet.srcpr)
      else n' = n

/-- A step answers as it should. -/
def Answers (n : Network) (op : NetworkOp) : Prop := ∃ n', n.step op = .ok n' ∧ Answered n op n'

/-- A packet that an answer is for is the only one that waits, and the answer names an address. -/
def Alone (n : Network) : NetworkOp → Prop
  | .send _ => True
  | .receive packet _ => n.isValid packet →
      (n.waitingFor packet.srcpr ≠ [] → n.pending.length = 1) ∧
      (n.waitingFor packet.srcpr ≠ [] ∨ packet.srcpr = n.gatewayIp → packet.srchw ≠ 0)

instance (n : Network) : (op : NetworkOp) → Decidable (Resolving n op)
  | .send _ => inferInstanceAs (Decidable (_ ∧ _))
  | .receive _ _ => inferInstanceAs (Decidable (_ ≠ _))

instance (n : Network) : (op : NetworkOp) → Decidable (Alone n op)
  | .send _ => inferInstanceAs (Decidable True)
  | .receive _ _ => inferInstanceAs (Decidable (_ → _))

/-- The entries from the head on are free up to some point and taken from there. -/
structure Ring (n : Network) : Prop where
  length : n.pendingQueue.length = arpPendingQueueSize
  head : n.pendingQueueHead < arpPendingQueueSize
  taken : ∀ i j, i ≤ j → j < arpPendingQueueSize →
    n.pendingQueue[(n.pendingQueueHead + i) % arpPendingQueueSize]? ≠ some none →
    n.pendingQueue[(n.pendingQueueHead + j) % arpPendingQueueSize]? ≠ some none

/-! ## The queue -/

lemma Ring.head_free {n : Network} (hn : Ring n) (hroom : n.pending.length < arpPendingQueueSize) :
    n.pendingQueue[n.pendingQueueHead]? = some none := by
  by_contra htaken
  have hhead := hn.head
  obtain ⟨i, hi, hfree⟩ := List.mem_iff_getElem.mp
    (exists_free_of_length_lt n.pendingQueue (by rw [hn.length]; exact hroom))
  rw [hn.length] at hi
  have hi' := hn.taken 0 ((i + arpPendingQueueSize - n.pendingQueueHead) % arpPendingQueueSize)
    (Nat.zero_le _) (Nat.mod_lt _ (by decide)) (by rwa [Nat.add_zero, Nat.mod_eq_of_lt hhead])
  have hindex : (n.pendingQueueHead + (i + arpPendingQueueSize - n.pendingQueueHead) %
      arpPendingQueueSize) % arpPendingQueueSize = i := by
    rw [Nat.add_mod_mod, Nat.add_sub_cancel' (by omega), Nat.add_mod_right, Nat.mod_eq_of_lt hi]
  rw [hindex, List.getElem?_eq_getElem (by rw [hn.length]; exact hi), hfree] at hi'
  exact hi' rfl

lemma sendPacket_of_dest {f : Frame} (h : f.dest ≠ 0) (n : Network) :
    n.sendPacket f = { n with sent := n.sent ++ [f] } := by
  rw [sendPacket, if_neg h, nicSendPacket]

lemma sendPending_skip {packet : ArpPacket} {n : Network} {i : ℕ}
    (h : ∀ f, n.pendingQueue[i]? = some (some f) → f.payload.daddr ≠ packet.srcpr) :
    sendPending packet n i = n := by
  rw [sendPending]
  split
  · rename_i f hf
    rw [if_neg (h f hf)]
  · rfl

lemma foldl_sendPending_skip {packet : ArpPacket} {n : Network} : ∀ {is : List ℕ},
    (∀ i ∈ is, ∀ f, n.pendingQueue[i]? = some (some f) → f.payload.daddr ≠ packet.srcpr) →
    is.foldl (sendPending packet) n = n
  | [], _ => rfl
  | i :: is, h => by
      rw [List.foldl_cons, sendPending_skip (h i (by simp))]
      exact foldl_sendPending_skip fun j hj => h j (List.mem_cons_of_mem i hj)

lemma foldl_sendPending_none {packet : ArpPacket} {n : Network} (h : n.waitingFor packet.srcpr = [])
    (is : List ℕ) : is.foldl (sendPending packet) n = n := by
  refine foldl_sendPending_skip fun i _ f hf hdaddr => ?_
  have hmem : f ∈ n.waitingFor packet.srcpr := by
    rw [waitingFor, List.mem_filter]
    exact ⟨mem_slotValues_of_getElem? hf, by simpa using hdaddr⟩
  simp [h] at hmem

lemma foldl_sendPending_only {packet : ArpPacket} {n : Network} {f : Frame}
    (hlength : n.pendingQueue.length = arpPendingQueueSize) (hpending : n.pending = [f])
    (hdaddr : f.payload.daddr = packet.srcpr) (hmac : packet.srchw ≠ 0) :
    (List.range arpPendingQueueSize).foldl (sendPending packet) n =
      { n with
        sent := n.sent ++ [{ f with dest := packet.srchw }]
        pendingQueue := List.replicate arpPendingQueueSize none } := by
  obtain ⟨before, a, after, hqueue, hbefore, ha, -⟩ := List.filterMap_eq_cons_iff.mp hpending
  rw [id] at ha
  subst ha
  have hentry : n.pendingQueue[before.length]? = some (some f) := by simp [hqueue]
  have hindex : before.length ∈ List.range arpPendingQueueSize := by
    rw [List.mem_range, ← hlength, hqueue]
    simp
  obtain ⟨first, last, hrange⟩ := List.append_of_mem hindex
  rw [hrange, List.foldl_append, List.foldl_cons]
  have hfirst : first.foldl (sendPending packet) n = n := by
    refine foldl_sendPending_skip fun i hi g hg => ?_
    have hlt : i < before.length := by
      have hsorted : (first ++ before.length :: last).Pairwise (· < ·) :=
        hrange ▸ List.pairwise_lt_range
      exact (List.pairwise_append.mp hsorted).2.2 i hi _ (by simp)
    rw [hqueue, List.getElem?_append_left hlt] at hg
    have := hbefore _ (List.mem_of_getElem? hg)
    simp at this
  have hsent : sendPending packet n before.length = { n with
      sent := n.sent ++ [{ f with dest := packet.srchw }]
      pendingQueue := List.replicate arpPendingQueueSize none } := by
    have hsend := sendPacket_of_dest (f := { f with dest := packet.srchw }) hmac n
    simp only [sendPending, hentry, hdaddr, if_true, hsend]
  rw [hfirst, hsent]
  refine foldl_sendPending_skip fun i _ g hg => ?_
  have := List.mem_of_getElem? hg
  simp [List.mem_replicate] at this

/-! ## The steps -/

lemma learn_spec {packet : ArpPacket} {n : Network}
    (hmac : packet.srcpr = n.gatewayIp → packet.srchw ≠ 0) :
    (n.learn packet).pendingQueue = n.pendingQueue ∧
      (n.learn packet).pendingQueueHead = n.pendingQueueHead ∧
      (n.learn packet).sent = n.sent ++ n.gatewayRequest packet := by
  by_cases hgateway : packet.srcpr = n.gatewayIp
  · have hsend := sendPacket_of_dest (f := ⟨packet.srchw, n.mac, .ipv4 timeServerIp []⟩) (hmac hgateway)
    simp only [learn, hgateway, if_true, onGatewayMacReceived, timeRequest, gatewayRequest, hsend]
    exact ⟨trivial, trivial, trivial⟩
  · simp [learn, gatewayRequest, hgateway]

lemma Ring.send {n : Network} {f : Frame} (hn : Ring n) : Ring (n.resolveAndSend f) where
  length := by
    simp only [resolveAndSend, resolveMac, nicSendPacket, List.length_set]
    exact hn.length
  head := Nat.mod_lt _ (by decide)
  taken := by
    intro i j hij hj hi
    have hhead := hn.head
    have hqueue : (n.resolveAndSend f).pendingQueue =
      n.pendingQueue.set n.pendingQueueHead (some f) := rfl
    have hnext : (n.resolveAndSend f).pendingQueueHead =
      (n.pendingQueueHead + 1) % arpPendingQueueSize := rfl
    have hindex (k : ℕ) (hk : k + 1 < arpPendingQueueSize) :
        (n.resolveAndSend f).pendingQueue[((n.resolveAndSend f).pendingQueueHead + k) %
          arpPendingQueueSize]? =
        n.pendingQueue[(n.pendingQueueHead + (k + 1)) % arpPendingQueueSize]? := by
      have hother : n.pendingQueueHead ≠ (n.pendingQueueHead + 1 + k) % arpPendingQueueSize := by
        simp only [arpPendingQueueSize] at hk hhead ⊢
        omega
      rw [hqueue, hnext, Nat.mod_add_mod, List.getElem?_set_ne hother, Nat.add_assoc, Nat.add_comm 1]
    by_cases hlast : j + 1 < arpPendingQueueSize
    · rw [hindex j hlast]
      rw [hindex i (by omega)] at hi
      exact hn.taken (i + 1) (j + 1) (by omega) hlast hi
    · have hself : ((n.pendingQueueHead + 1) % arpPendingQueueSize + j) % arpPendingQueueSize =
          n.pendingQueueHead := by
        simp only [arpPendingQueueSize] at hj hlast hhead ⊢
        omega
      rw [hqueue, hnext, hself, List.getElem?_set_self (by rw [hn.length]; exact hhead)]
      simp

lemma Ring.of_empty {n : Network} (hqueue : n.pendingQueue = List.replicate arpPendingQueueSize none)
    (hhead : n.pendingQueueHead < arpPendingQueueSize) : Ring n where
  length := by simp [hqueue]
  head := hhead
  taken := by
    intro i j _ _ h
    exfalso
    apply h
    rw [hqueue, List.getElem?_replicate, if_pos (Nat.mod_lt _ (by decide))]

lemma answers_send {n : Network} {f : Frame} (hn : Ring n) (hop : Resolving n (.send f)) :
    ∃ n', n.step (.send f) = .ok n' ∧ Answered n (.send f) n' ∧ Ring n' := by
  obtain ⟨hdest, hsubnet, hroom⟩ := hop
  refine ⟨n.resolveAndSend f, ?_, ⟨rfl, ?_⟩, hn.send⟩
  · rw [step, sendPacket, if_pos hdest, if_pos hsubnet]
  · exact slotValues_take f _ _ (hn.head_free hroom)

lemma answers_receive {n : Network} {packet : ArpPacket} {src : Mac} (hn : Ring n)
    (hop : Resolving n (.receive packet src)) (halone : Alone n (.receive packet src)) :
    ∃ n', n.step (.receive packet src) = .ok n' ∧ Answered n (.receive packet src) n' ∧ Ring n' := by
  rw [step, handlePacket]
  by_cases hvalid : n.isValid packet
  · obtain ⟨honly, hmac⟩ := halone hvalid
    obtain ⟨hqueue, hhead, hsent⟩ := learn_spec fun h => hmac (.inr h)
    have hpending : (n.learn packet).pending = n.pending := by rw [pending, hqueue, pending]
    have hop' : packet.opcode ≠ arpRequest := hop
    simp only [hvalid, Bool.not_true, Bool.false_eq_true, if_false, hop']
    by_cases hnone : n.waitingFor packet.srcpr = []
    · refine ⟨n.learn packet, ?_, ?_, ⟨hqueue ▸ hn.length, hhead ▸ hn.head, ?_⟩⟩
      · rw [foldl_sendPending_none]
        rw [waitingFor, hpending]
        exact hnone
      · rw [Answered, if_pos hvalid, hnone, List.map_nil, List.append_nil, hpending]
        refine ⟨hsent, List.Perm.of_eq (List.filter_eq_self.mpr fun f hf => ?_).symm⟩
        have := List.filter_eq_nil_iff.mp hnone f hf
        simpa using this
      · rw [hqueue, hhead]
        exact hn.taken
    · obtain ⟨f, hf⟩ := List.length_eq_one_iff.mp (honly hnone)
      have hdaddr : f.payload.daddr = packet.srcpr := by
        by_contra h
        apply hnone
        simp [waitingFor, hf, h]
      refine ⟨_, rfl, ?_, Ring.of_empty ?_ ?_⟩
      · rw [foldl_sendPending_only (hqueue ▸ hn.length) (hpending.trans hf) hdaddr (hmac (.inl hnone)),
          Answered, if_pos hvalid]
        refine ⟨?_, ?_⟩
        · simp [hsent, waitingFor, hf, hdaddr]
        · rw [waitingElse, hf]
          simp [pending, slotValues_replicate, hdaddr]
      · rw [foldl_sendPending_only (hqueue ▸ hn.length) (hpending.trans hf) hdaddr (hmac (.inl hnone))]
      · rw [foldl_sendPending_only (hqueue ▸ hn.length) (hpending.trans hf) hdaddr (hmac (.inl hnone))]
        exact hhead ▸ hn.head
  · refine ⟨n, ?_, ?_, hn⟩
    · simp [hvalid]
    · simp [Answered, hvalid]

lemma answers_of_alone {n : Network} {op : NetworkOp} (hn : Ring n) (hop : Resolving n op)
    (halone : Alone n op) : ∃ n', n.step op = .ok n' ∧ Answered n op n' ∧ Ring n' := by
  cases op with
  | send f => exact answers_send hn hop
  | receive packet src => exact answers_receive hn hop halone

/-- From an empty queue on, as long as every answer that a packet waits for finds that packet alone in
the queue, each packet is sent once, by the first answer for it and to the address this names, and an
answer leaves the packets that wait for others. -/
theorem pending_answered (n : Network)
    (hempty : n.pendingQueue = List.replicate arpPendingQueueSize none) (hhead : n.pendingQueueHead = 0)
    (ops : List NetworkOp)
    (hops : EachCall step (fun n op => Resolving n op ∧ Alone n op) ops n) :
    EachCall step Answers ops n := by
  have hring : Ring n := Ring.of_empty hempty (by simp [hhead, arpPendingQueueSize])
  refine EachCall.imp_of_invariant (Q := Ring) ?_ ?_ hring hops
  · intro n op hn hop
    obtain ⟨n', hn', hanswered, -⟩ := answers_of_alone hn hop.1 hop.2
    exact ⟨n', hn', hanswered⟩
  · intro n op n' hn hop hstep
    obtain ⟨n'', hn'', -, hring⟩ := answers_of_alone hn hop.1 hop.2
    rw [hstep] at hn''
    cases hn''
    exact hring

/-- A host of the net 10.0.0.0/24. -/
def someHost : Network :=
  { ip := 0x0200000a, subnetMask := 0x00ffffff, gatewayIp := 0x0100000a, mac := 5 }

/-- A datagram to another host of the net. -/
def datagram (daddr : IP) (body : Byte) : Frame := ⟨0, 5, .ipv4 daddr [body]⟩

theorem pending_answered_two : EachCall step Answers
    [.send (datagram 0x0300000a 1), .receive ⟨arpReply, 7, 0x0300000a, 5, 0x0200000a⟩ 7,
      .send (datagram 0x0400000a 2), .receive ⟨arpReply, 8, 0x0100000a, 5, 0x0200000a⟩ 8,
      .receive ⟨arpReply, 9, 0x0400000a, 5, 0x0200000a⟩ 9] someHost := by
  refine pending_answered someHost rfl rfl _ ?_
  decide

/-- Of two packets for different hosts, the answer of the first takes the second along. -/
theorem pending_lost : ∃ ops, EachCall step Resolving ops someHost ∧
    ¬ EachCall step Answers ops someHost := by
  refine ⟨[.send (datagram 0x0300000a 1), .send (datagram 0x0400000a 2),
    .receive ⟨arpReply, 7, 0x0300000a, 5, 0x0200000a⟩ 7], by decide, ?_⟩
  rintro ⟨-, -, ⟨n', hn', hanswered⟩, -⟩
  cases hn'
  have hkept := hanswered.2.length_eq
  revert hkept
  decide

end Network

end BrebOS

import BrebOS.Network.ARP
import BrebOS.Lib.Recent

/-!
# The addresses that are known

Every reply is written to the cache at its head, whether or not there is an entry for its sender, and
`get_mac` looks for an entry from the head on, so it finds the oldest one for the sender.  What it returns is
right exactly when that is the address of the newest one.
-/

namespace BrebOS

namespace Network

/-- The addresses in a packet that `handle_packet` takes for a reply. -/
def reply? (n : Network) : NetworkOp → Option (IP × Mac)
  | .send _ => none
  | .receive packet _ =>
      if n.isValid packet ∧ packet.opcode ≠ arpRequest then some (packet.srcpr, packet.srchw) else none

/-- The replies in a run, the oldest one first. -/
def replies (n : Network) (ops : List NetworkOp) : List (IP × Mac) := ops.filterMap n.reply?

/-- What the first of some replies from `ip` names. -/
def firstFor (ip : IP) (l : List (IP × Mac)) : Option Mac := (l.find? (·.1 == ip)).map (·.2)

/-- `get_mac` returns what the newest of the last replies names, and zeros when there is none. -/
structure GetsMac (replies : List (IP × Mac)) (ip : IP) (n : Network) : Prop where
  newest : n.getMac ip = (firstFor ip (recent arpCacheSize replies).reverse).getD 0
  unknown : n.getMac ip = 0 ↔ ∀ r ∈ recent arpCacheSize replies, r.1 ≠ ip

/-- The oldest of the last replies names the same address as the newest one, and not zeros. -/
def OldestHolds (replies : List (IP × Mac)) (ip : IP) : Prop :=
  firstFor ip (recent arpCacheSize replies) = firstFor ip (recent arpCacheSize replies).reverse ∧
    firstFor ip (recent arpCacheSize replies) ≠ some 0

/-- The cache, read from its head on, holds the last replies. -/
structure Caches (ip : IP) (replies : List (IP × Mac)) (n : Network) : Prop where
  ip : n.ip = ip
  length : n.cache.length = arpCacheSize
  head : n.cacheHead < arpCacheSize
  entries : n.cache.rotate n.cacheHead = window arpCacheSize (0, 0) replies

variable {n n' : Network} {packet : ArpPacket} {own ip : IP} {l : List (IP × Mac)}

/-! ## What keeps the cache -/

/-- The address of the host and the cache are as before. -/
def SameCache (n n' : Network) : Prop := n'.ip = n.ip ∧ n'.cache = n.cache ∧ n'.cacheHead = n.cacheHead

lemma SameCache.refl (n : Network) : SameCache n n := ⟨rfl, rfl, rfl⟩

lemma SameCache.trans {n₁ n₂ n₃ : Network} (h : SameCache n₁ n₂) (h' : SameCache n₂ n₃) : SameCache n₁ n₃ :=
  ⟨h'.1.trans h.1, h'.2.1.trans h.2.1, h'.2.2.trans h.2.2⟩

lemma sendPacket_same (f : Frame) (n : Network) : SameCache n (n.sendPacket f) := by
  rw [sendPacket]
  split_ifs
  · exact ⟨rfl, rfl, rfl⟩
  · exact ⟨rfl, rfl, rfl⟩
  · exact ⟨rfl, rfl, rfl⟩

lemma sendPending_same (packet : ArpPacket) (n : Network) (i : ℕ) :
    SameCache n (sendPending packet n i) := by
  rw [sendPending]
  split
  · split_ifs
    · exact sendPacket_same _ n
    · exact SameCache.refl n
  · exact SameCache.refl n

lemma foldl_sendPending_same (packet : ArpPacket) : ∀ (is : List ℕ) (n : Network),
    SameCache n (is.foldl (sendPending packet) n) := by
  intro is
  induction is with
  | nil =>
    intro n
    exact SameCache.refl n
  | cons i is ih =>
    intro n
    exact (sendPending_same packet n i).trans (ih _)

lemma onGatewayMacReceived_same (mac : Mac) (n : Network) : SameCache n (n.onGatewayMacReceived mac) :=
  sendPacket_same _ { n with gatewayMac := mac }

lemma learn_cache (packet : ArpPacket) (n : Network) : (n.learn packet).ip = n.ip ∧
    (n.learn packet).cache = n.cache.set n.cacheHead (packet.srcpr, packet.srchw) ∧
    (n.learn packet).cacheHead = (n.cacheHead + 1) % arpCacheSize := by
  rw [learn]
  dsimp only
  split_ifs
  · exact onGatewayMacReceived_same packet.srchw _
  · exact ⟨rfl, rfl, rfl⟩

lemma reply?_eq (h : n.ip = n'.ip) : n.reply? = n'.reply? := by
  funext op
  cases op with
  | send f => rfl
  | receive packet src => simp [reply?, isValid, h]

lemma Caches.same (h : Caches own l n) (hsame : SameCache n n') : Caches own l n' := by
  obtain ⟨hip, hcache, hhead⟩ := hsame
  refine ⟨hip.trans h.ip, ?_, ?_, ?_⟩
  · rw [hcache]
    exact h.length
  · rw [hhead]
    exact h.head
  · rw [hcache, hhead]
    exact h.entries

lemma Caches.learn (h : Caches own l n) :
    Caches own (l ++ [(packet.srcpr, packet.srchw)]) (n.learn packet) := by
  obtain ⟨hip, hcache, hhead⟩ := learn_cache packet n
  refine ⟨hip.trans h.ip, ?_, ?_, ?_⟩
  · rw [hcache, List.length_set]
    exact h.length
  · rw [hhead]
    exact Nat.mod_lt _ (by decide)
  · have hlt : n.cacheHead < n.cache.length := h.length ▸ h.head
    rw [hcache, hhead, ← h.length, rotate_set hlt, h.entries, h.length, window_concat (by decide)]

lemma Caches.step {op : NetworkOp} (h : Caches own l n) (hstep : n.step op = .ok n') :
    Caches own (l ++ (n.reply? op).toList) n' := by
  cases op with
  | send f =>
    cases hstep
    rw [show (n.reply? (.send f)).toList = [] from rfl, List.append_nil]
    exact h.same (sendPacket_same f n)
  | receive packet src =>
    cases hstep
    rw [handlePacket]
    by_cases hvalid : n.isValid packet
    · by_cases hrequest : packet.opcode = arpRequest
      · have hnone : n.reply? (.receive packet src) = none := if_neg fun hreply => hreply.2 hrequest
        rw [hnone, Option.toList_none, List.append_nil, if_neg (by simp [hvalid]), if_pos hrequest]
        exact h.same (sendPacket_same _ n)
      · have hsome : n.reply? (.receive packet src) = some (packet.srcpr, packet.srchw) :=
          if_pos ⟨hvalid, hrequest⟩
        rw [hsome, Option.toList_some, if_neg (by simp [hvalid]), if_neg hrequest]
        exact h.learn.same (foldl_sendPending_same packet _ _)
    · have hnone : n.reply? (.receive packet src) = none := if_neg fun hreply => hvalid hreply.1
      rw [hnone, Option.toList_none, List.append_nil, if_pos (by simpa using hvalid)]
      exact h

lemma Caches.run : ∀ {ops : List NetworkOp} {n : Network} {l : List (IP × Mac)}, Caches own l n →
    ops.foldlM Network.step n = .ok n' → Caches own (l ++ n.replies ops) n' := by
  intro ops
  induction ops with
  | nil =>
    intro n l h hrun
    cases hrun
    rw [replies, List.filterMap_nil, List.append_nil]
    exact h
  | cons op ops ih =>
    intro n l h hrun
    rcases hstep : n.step op with e | n₁
    · rw [List.foldlM_cons, hstep] at hrun
      cases hrun
    · rw [List.foldlM_cons, hstep] at hrun
      have h₁ := h.step hstep
      have hall := ih h₁ hrun
      have hreplies : n.replies (op :: ops) = (n.reply? op).toList ++ n₁.replies ops := by
        rw [replies, replies, reply?_eq (h₁.ip.trans h.ip.symm)]
        rcases hop : n.reply? op with _ | r
        · rw [List.filterMap_cons_none hop, Option.toList_none, List.nil_append]
        · rw [List.filterMap_cons_some hop, Option.toList_some, List.singleton_append]
      rw [hreplies, ← List.append_assoc]
      exact hall

/-! ## What is found -/

lemma Caches.getMac (h : Caches own l n) (hip : ip ≠ 0) :
    n.getMac ip = (firstFor ip (recent arpCacheSize l)).getD 0 := by
  have hentries := map_range_rotate (l := n.cache) (k := n.cacheHead) (d := (0, 0))
  rw [h.length, h.entries, window_eq] at hentries
  have hinitial : (List.replicate (arpCacheSize - l.length) ((0, 0) : IP × Mac)).find? (·.1 == ip) = none := by
    rw [List.find?_eq_none]
    intro r hr
    rw [List.eq_of_mem_replicate hr]
    simpa using hip.symm
  rw [Network.getMac, hentries, List.find?_append, hinitial, Option.none_or, firstFor]
  cases (recent arpCacheSize l).find? fun r => r.1 == ip with
  | none => rfl
  | some r => rfl

lemma firstFor_eq_none : firstFor ip l = none ↔ ∀ r ∈ l, r.1 ≠ ip := by
  simp [firstFor]

lemma Caches.getsMac_iff (h : Caches own l n) (hip : ip ≠ 0) : GetsMac l ip n ↔ OldestHolds l ip := by
  have hnone : (∀ r ∈ recent arpCacheSize l, r.1 ≠ ip) ↔
      firstFor ip (recent arpCacheSize l).reverse = none := by
    rw [firstFor_eq_none]
    simp
  have hboth : firstFor ip (recent arpCacheSize l) = none ↔
      firstFor ip (recent arpCacheSize l).reverse = none := by
    rw [← hnone, firstFor_eq_none]
  rw [OldestHolds]
  constructor
  · rintro ⟨hnewest, hunknown⟩
    rw [h.getMac hip] at hnewest hunknown
    rw [hnone] at hunknown
    rcases hold : firstFor ip (recent arpCacheSize l) with _ | m
    · rw [hboth.mp hold]
      exact ⟨rfl, nofun⟩
    · rcases hnew : firstFor ip (recent arpCacheSize l).reverse with _ | m'
      · rw [hboth.mpr hnew] at hold
        cases hold
      · rw [hold, hnew] at hnewest hunknown
        have heq : m = m' := hnewest
        refine ⟨congrArg some heq, fun hzero => ?_⟩
        have hfalse := hunknown.mp (Option.some.inj hzero)
        cases hfalse
  · rintro ⟨hsame, hzero⟩
    refine ⟨?_, ?_⟩
    · rw [h.getMac hip, hsame]
    · rw [h.getMac hip, hnone, ← hboth]
      rcases hold : firstFor ip (recent arpCacheSize l) with _ | m
      · exact iff_of_true rfl rfl
      · rw [hold] at hzero
        exact iff_of_false (fun hm => hzero (congrArg some hm)) nofun

lemma Caches.of_empty (hcache : n.cache = List.replicate arpCacheSize (0, 0)) (hhead : n.cacheHead = 0) :
    Caches n.ip [] n where
  ip := rfl
  length := by rw [hcache, List.length_replicate]
  head := by
    rw [hhead]
    decide
  entries := by rw [hhead, List.rotate_zero, hcache, window_nil]

/-- What `get_mac` returns after a run is right exactly when the oldest of the last replies still holds. -/
theorem gets_mac_iff (ops : List NetworkOp) (hcache : n.cache = List.replicate arpCacheSize (0, 0))
    (hhead : n.cacheHead = 0) (hrun : ops.foldlM step n = .ok n') (hip : ip ≠ 0) :
    GetsMac (n.replies ops) ip n' ↔ OldestHolds (n.replies ops) ip :=
  ((Caches.of_empty hcache hhead).run hrun).getsMac_iff hip

/-- A host replies, another one does, and the first one replies again, with `mac`. -/
def replyAgain (mac : Mac) : List NetworkOp :=
  [.receive ⟨arpReply, 7, 0x0300000a, 5, 0x0200000a⟩ 7, .receive ⟨arpReply, 8, 0x0400000a, 5, 0x0200000a⟩ 8,
    .receive ⟨arpReply, mac, 0x0300000a, 5, 0x0200000a⟩ mac]

/-- The host they reply to. -/
def asker : Network := { ip := 0x0200000a }

theorem gets_mac_again : ∃ n', (replyAgain 7).foldlM step asker = .ok n' ∧
    GetsMac (asker.replies (replyAgain 7)) 0x0300000a n' :=
  ⟨_, rfl, (gets_mac_iff _ rfl rfl rfl (by decide)).mpr ⟨by decide, by decide⟩⟩

/-- A host that has a new address is still sent to the old one. -/
theorem gets_old_mac : ∃ n', (replyAgain 9).foldlM step asker = .ok n' ∧
    ¬GetsMac (asker.replies (replyAgain 9)) 0x0300000a n' := by
  refine ⟨_, rfl, fun h => ?_⟩
  have hnewest := h.newest
  exact absurd hnewest (by decide)

end Network

end BrebOS

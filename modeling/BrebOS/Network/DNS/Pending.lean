import BrebOS.Network.DNS
import BrebOS.Lib.Run

/-!
# Queries in flight

The kernel keeps the number of its last query only, and `handle_packet` refuses every response with
another one.  So a response finds the socket that waits for it exactly when it answers the last query; the
answers of the queries before are dropped, and their sockets stay in the table for ever.  When the table
is full, `resolve_hostname` gives up.
-/

namespace BrebOS

/-- The kernel, and the queries it sent that the name server has not answered. -/
structure Resolution where
  dns : DNS := {}
  inFlight : List (BitVec 16 × List Byte) := []
  deriving DecidableEq, Repr

/-- A socket asks for a name; or the server answers a query with an address. -/
inductive ResolutionOp
  | resolve (hostname : List Byte) (socket : ℕ) (id : BitVec 16)
  | respond (query : BitVec 16 × List Byte) (ip : IP)
  deriving DecidableEq, Repr

namespace Resolution

/-- A response that holds the name it was asked for and an address reaches `handle_packet`. -/
def respond (query : BitVec 16 × List Byte) (ip : IP) (w : Resolution) : Except NetFault DNS :=
  if query.1 ≠ w.dns.lastQueryId then .ok w.dns else w.dns.tellSocket (some query.2) (.ok ip)

def step (w : Resolution) : ResolutionOp → Except NetFault Resolution
  | .resolve hostname socket id => do
      let dns ← w.dns.resolveHostname hostname socket id
      return ⟨dns, w.inFlight ++ dns.queries.drop w.dns.queries.length⟩
  | .respond query ip => do
      let dns ← w.respond query ip
      return ⟨dns, w.inFlight.erase query⟩

/-- The entries of the table that are taken. -/
def pending (w : Resolution) : List DNSEntry := slotValues w.dns.pendingQueue

/-- The responses are to queries that were sent. -/
def Asked (w : Resolution) : ResolutionOp → Prop
  | .resolve _ _ _ => True
  | .respond query _ => query ∈ w.inFlight

/-- A socket that asks is put in the table; a response tells its address to one socket that waits for the
name, and takes it out of the table.  `pending_queue_size` counts the entries. -/
def Told (w : Resolution) (op : ResolutionOp) (w' : Resolution) : Prop :=
  w'.dns.pendingQueueSize = w'.pending.length ∧
  match op with
  | .resolve hostname socket _ =>
      w'.dns.resolved = w.dns.resolved ∧ w'.pending.Perm (⟨socket, hostname⟩ :: w.pending)
  | .respond query ip =>
      ∃ e ∈ w.pending, e.hostname = query.2 ∧ w'.dns.resolved = w.dns.resolved ++ [(e.socket, ip)] ∧
        w.pending.Perm (e :: w'.pending)

/-- A step tells what it should. -/
def Tells (w : Resolution) (op : ResolutionOp) : Prop := ∃ w', w.step op = .ok w' ∧ Told w op w'

/-- There is room in the table; the response answers the last query. -/
def LastQuery (w : Resolution) : ResolutionOp → Prop
  | .resolve _ _ _ => w.dns.pendingQueueSize ≠ dnsPendingQueueSize
  | .respond query _ => query.1 = w.dns.lastQueryId

instance (w : Resolution) : (op : ResolutionOp) → Decidable (Asked w op)
  | .resolve _ _ _ => inferInstanceAs (Decidable True)
  | .respond _ _ => inferInstanceAs (Decidable (_ ∈ _))

instance (w : Resolution) : (op : ResolutionOp) → Decidable (LastQuery w op)
  | .resolve _ _ _ => inferInstanceAs (Decidable (_ ≠ _))
  | .respond _ _ => inferInstanceAs (Decidable (_ = _))

/-- Every query in flight has its entry in the table. -/
structure Matched (w : Resolution) : Prop where
  length : w.dns.pendingQueue.length = dnsPendingQueueSize
  size : w.dns.pendingQueueSize = w.pending.length
  names : (w.inFlight.map Prod.snd).Perm (w.pending.map DNSEntry.hostname)

/-! ## The steps -/

lemma Matched.resolve {w : Resolution} {hostname : List Byte} {socket : ℕ} {id : BitVec 16}
    (hw : Matched w) (hroom : w.dns.pendingQueueSize ≠ dnsPendingQueueSize) :
    ∃ w', w.step (.resolve hostname socket id) = .ok w' ∧
      Told w (.resolve hostname socket id) w' ∧ Matched w' := by
  have hle : w.pending.length ≤ dnsPendingQueueSize := hw.length ▸ List.length_filterMap_le ..
  have hfree : none ∈ w.dns.pendingQueue := by
    refine exists_free_of_length_lt _ ?_
    rw [hw.length]
    have := hw.size
    rw [pending] at this hle
    omega
  obtain ⟨i, hi⟩ : ∃ i, w.dns.pendingQueue.findIdx? (·.isNone) = some i :=
    Option.isSome_iff_exists.mp (by
      rw [List.findIdx?_isSome, List.any_eq_true]
      exact ⟨none, hfree, rfl⟩)
  have hentry : w.dns.pendingQueue[i]? = some none := by
    obtain ⟨hlt, hnone, -⟩ := List.findIdx?_eq_some_iff_getElem.mp hi
    rw [List.getElem?_eq_getElem hlt, Option.isNone_iff_eq_none.mp hnone]
  have hperm := slotValues_take (DNSEntry.mk socket hostname) _ _ hentry
  have hstep : w.step (.resolve hostname socket id) = .ok
      ⟨{ w.dns with
          pendingQueue := w.dns.pendingQueue.set i (some ⟨socket, hostname⟩)
          pendingQueueSize := w.dns.pendingQueueSize + 1
          lastQueryId := id
          queries := w.dns.queries ++ [(id, hostname)] },
        w.inFlight ++ (w.dns.queries ++ [(id, hostname)]).drop w.dns.queries.length⟩ := by
    rw [step, DNS.resolveHostname, if_neg hroom, hi]
    rfl
  have hsize : w.dns.pendingQueueSize + 1 = (slotValues (w.dns.pendingQueue.set i
      (some ⟨socket, hostname⟩))).length := by
    rw [hperm.length_eq, List.length_cons, hw.size, pending]
  refine ⟨_, hstep, ⟨hsize, rfl, hperm⟩, ⟨?_, hsize, ?_⟩⟩
  · rw [List.length_set]
    exact hw.length
  · refine List.Perm.trans ?_ (hperm.map DNSEntry.hostname).symm
    simp only [List.drop_left, List.map_append, List.map_cons, List.map_nil]
    exact List.perm_append_comm.trans (hw.names.cons hostname)

lemma Matched.respond {w : Resolution} {query : BitVec 16 × List Byte} {ip : IP} (hw : Matched w)
    (hquery : query ∈ w.inFlight) (hlast : query.1 = w.dns.lastQueryId) :
    ∃ w', w.step (.respond query ip) = .ok w' ∧ Told w (.respond query ip) w' ∧ Matched w' := by
  obtain ⟨e, he, hname⟩ : ∃ e ∈ w.pending, e.hostname = query.2 :=
    List.mem_map.mp (hw.names.mem_iff.mp (List.mem_map_of_mem hquery))
  obtain ⟨i, hi⟩ : ∃ i, w.dns.pendingQueue.findIdx? (fun e => e.any (·.hostname == query.2)) = some i :=
    Option.isSome_iff_exists.mp (by
      rw [List.findIdx?_isSome, List.any_eq_true]
      exact ⟨some e, mem_slotValues.mp he, by simpa using hname⟩)
  obtain ⟨f, hentry, hf⟩ : ∃ f, w.dns.pendingQueue[i]? = some (some f) ∧ f.hostname = query.2 := by
    obtain ⟨hlt, hany, -⟩ := List.findIdx?_eq_some_iff_getElem.mp hi
    obtain ⟨f, hf, hname⟩ := (Option.any_eq_true ..).mp hany
    exact ⟨f, by rw [List.getElem?_eq_getElem hlt, hf], by simpa using hname⟩
  have hperm := slotValues_free f _ _ hentry
  have hstep : w.step (.respond query ip) = .ok
      ⟨{ w.dns with
          resolved := w.dns.resolved ++ [(f.socket, ip)]
          pendingQueueSize := w.dns.pendingQueueSize - 1
          pendingQueue := w.dns.pendingQueue.set i none },
        w.inFlight.erase query⟩ := by
    simp only [step, Resolution.respond, hlast, ne_eq, not_true_eq_false, if_false, DNS.tellSocket,
      DNS.findPending, hi, bind, Except.bind, hentry]
    rfl
  have hsize : w.dns.pendingQueueSize - 1 = (slotValues (w.dns.pendingQueue.set i none)).length := by
    rw [hw.size, pending, hperm.length_eq, List.length_cons, Nat.add_sub_cancel]
  refine ⟨_, hstep, ⟨hsize, f, mem_slotValues_of_getElem? hentry, hf, rfl, hperm⟩, ⟨?_, hsize, ?_⟩⟩
  · rw [List.length_set]
    exact hw.length
  · have hnames := hw.names.trans (hperm.map DNSEntry.hostname)
    rw [List.map_cons, hf] at hnames
    exact ((List.perm_cons_erase hquery).map Prod.snd).symm.trans hnames |>.cons_inv

lemma Matched.tells_iff {w : Resolution} {op : ResolutionOp} (hw : Matched w) (hop : Asked w op) :
    Tells w op ↔ LastQuery w op := by
  cases op with
  | resolve hostname socket id =>
      constructor
      · rintro ⟨w', hstep, -, -, hperm⟩ hfull
        rw [step, DNS.resolveHostname, if_pos hfull] at hstep
        cases hstep
        simpa using hperm.length_eq
      · intro hroom
        obtain ⟨w', hstep, htold, -⟩ := hw.resolve hroom
        exact ⟨w', hstep, htold⟩
  | respond query ip =>
      constructor
      · rintro ⟨w', hstep, -, e, he, -, -, hperm⟩
        by_contra hlast
        have hlast : query.1 ≠ w.dns.lastQueryId := hlast
        rw [step, Resolution.respond, if_pos hlast] at hstep
        cases hstep
        simpa [pending] using hperm.length_eq
      · intro hlast
        obtain ⟨w', hstep, htold, -⟩ := hw.respond hop hlast
        exact ⟨w', hstep, htold⟩

lemma Matched.step {w w' : Resolution} {op : ResolutionOp} (hw : Matched w) (hop : Asked w op)
    (hlast : LastQuery w op) (hstep : w.step op = .ok w') : Matched w' := by
  obtain ⟨w'', hstep', -, hw'⟩ : ∃ w'', w.step op = .ok w'' ∧ Told w op w'' ∧ Matched w'' := by
    cases op with
    | resolve hostname socket id => exact hw.resolve hlast
    | respond query ip => exact hw.respond hop hlast
  rw [hstep] at hstep'
  cases hstep'
  exact hw'

end Resolution

end BrebOS

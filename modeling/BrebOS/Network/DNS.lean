import BrebOS.Network.ARP
import BrebOS.Lib.Loop
import BrebOS.Lib.Slots

/-!
# Resolution of host names

`DNS.cpp`.  Names are written as labels with their lengths and read back into a buffer that grows with
them; a name may go on at another place of the packet.  The sockets that wait for an answer stand in a
table, with the name each asked for.

A host name is the list of its characters.  What stands in fresh memory is a parameter, and the recursion
of `parse_name_aux` has a fuel: it runs out on names that refer to themselves.
-/

namespace BrebOS

/-- `DNS_PORT`. -/
def dnsPort : BitVec 16 := 53

/-- `DNS_IN`. -/
def dnsIn : BitVec 16 := 1

/-- `DNS_REQUEST_A`. -/
def dnsRequestA : BitVec 16 := 1

/-- `DNS_REQUEST_CNAME`. -/
def dnsRequestCname : BitVec 16 := 5

/-- `DNS_PENDING_QUEUE_SIZE`.  `handle_packet` searches the table up to `ARP_PENDING_QUEUE_SIZE`, which is
the same number. -/
def dnsPendingQueueSize : ℕ := 10

/-- `sizeof(header_t)`. -/
def dnsHeaderSize : ℕ := 12

/-- `sizeof(question_content_t)`. -/
def dnsQuestionSize : ℕ := 4

/-- `sizeof(resource_record_content_t)`. -/
def dnsRecordSize : ℕ := 10

/-- `'.'`. -/
def dot : Byte := 46

/-- `DNS::pending_queue_entry`. -/
structure DNSEntry where
  socket : ℕ
  hostname : List Byte
  deriving DecidableEq, Repr

/-- The fields of `DNS`, the queries it sent, and the calls of `on_hostname_resolved`. -/
structure DNS where
  lastQueryId : BitVec 16 := 0
  pendingQueue : List (Option DNSEntry) := List.replicate dnsPendingQueueSize none
  pendingQueueSize : ℕ := 0
  queries : List (BitVec 16 × List Byte) := []
  resolved : List (ℕ × IP) := []
  deriving DecidableEq, Repr

namespace DNS

/-! ## Names -/

/-- `DNS::get_encoded_name_len`.  It counts the dots and does not use their number. -/
def getEncodedNameLen (name : List Byte) : ℕ := name.length + 2

/-- What `write_encoded_name` writes for the label that ends at `name`. -/
def writeLabel (before : List Byte) (len : BitVec 8) : List Byte :=
  len :: before.drop (before.length - len.toNat)

/-- The loop of `DNS::write_encoded_name`: what is before `name`, the length of the label so far. -/
def writeEncodedNameFrom (before : List Byte) (len : BitVec 8) : List Byte → List Byte
  | [] => writeLabel before len ++ [0]
  | c :: name =>
      if c = dot then writeLabel before len ++ writeEncodedNameFrom (before ++ [c]) 0 name
      else writeEncodedNameFrom (before ++ [c]) (len + 1) name

/-- `DNS::write_encoded_name`. -/
def writeEncodedName (name : List Byte) : List Byte := writeEncodedNameFrom [] 0 name

section Parse

-- What fresh memory holds.
variable (junk : ℕ → Byte)

/-- `new char[n]`. -/
def newChars (n : ℕ) : List Byte := (List.range n).map junk

/-- `(*name & 0xC0) == 0xC0`. -/
def isPointer (c : Byte) : Bool := c &&& 0xC0 == 0xC0

/-- The place a pointer refers to. -/
def pointerTarget (p : List Byte) (i : ℕ) : Except NetFault ℕ := do
  let word ← load16 p i
  return (switch16 word &&& 0x3FFF).toNat

/-- The buffer is made twice as large if the next `l` characters and a dot do not fit. -/
def growName (res : List Byte) (size l : ℕ) : List Byte :=
  if size + l + 1 > res.length then
    res.take size ++ (newChars junk (2 * res.length)).drop size
  else res

/-- Characters are put at the end of the name, and a dot after them. -/
def putLabel (res : List Byte) (size : ℕ) (sub : List Byte) : Except NetFault (List Byte) := do
  let res ← writeBytes (growName junk res size sub.length) size sub
  writeByte res (size + sub.length) dot

/-- `res[res_idx - 1] = '\0'`. -/
def endName (res : List Byte) (size : ℕ) : Except NetFault (List Byte) :=
  if size = 0 then .error .outOfBounds else writeByte res (size - 1) 0

mutual

/-- `parse_name_aux`. -/
def parseNameAux (p : List Byte) : ℕ → ℕ → Except NetFault (List Byte)
  | 0, _ => .error .endless
  | fuel + 1, name => do
      let c ← readByte p name
      if isPointer c then
        let target ← pointerTarget p name
        parseNameAux p fuel target
      else parseNameLoop p fuel name 0 (newChars junk 5)

/-- The loop of `parse_name_aux`.  A pointer ends it, so that `idx`, `res_idx` and `buf_size` are the
same number `size` whenever the loop is entered. -/
def parseNameLoop (p : List Byte) : ℕ → ℕ → ℕ → List Byte → Except NetFault (List Byte)
  | 0, _, _, _ => .error .endless
  | fuel + 1, name, size, res => do
      let c ← readByte p (name + size)
      if c = 0 then endName res size
      else if isPointer c then
        let target ← pointerTarget p (name + size)
        let sub ← parseNameAux p fuel target
        let len ← strlenAt sub 0
        -- `l` is a byte
        let l := len % 256
        let res ← putLabel junk res size (sub.take l)
        -- the test of the loop looks at the next byte before it looks at `is_end`
        let _ ← readByte p (name + size + 2)
        endName res (size + l + 1)
      else
        let sub ← readBytes p (name + size + 1) c.toNat
        let res ← putLabel junk res size sub
        parseNameLoop p fuel name (size + c.toNat + 1) res

end

/-- `DNS::parse_name`. -/
def parseName (p : List Byte) (fuel encodedName : ℕ) : Except NetFault (List Byte) :=
  parseNameAux junk p fuel encodedName

/-! ## Responses -/

/-- The length of a name in the packet, up to its first null byte. -/
def nameLen (p : List Byte) (b : ℕ) : Except NetFault ℕ := do
  let c ← readByte p b
  if isPointer c then return 2
  else
    let len ← strlenAt p b
    return len + 1

/-- The loop that skips the questions. -/
def skipQueries (p : List Byte) : ℕ → ℕ → Except NetFault ℕ
  | 0, b => .ok b
  | n + 1, b => do
      let len ← nameLen p b
      skipQueries p n (b + len + dnsQuestionSize)

/-- What is read of an answer: its name and the name it is an alias for, and where its data stands. -/
structure Answer where
  name : List Byte
  type : BitVec 16
  aliasName : Option (List Byte)
  data : ℕ
  deriving DecidableEq, Repr

/-- The name an answer is an alias for. -/
def readAlias (p : List Byte) (fuel : ℕ) (type : BitVec 16) (data : ℕ) :
    Except NetFault (Option (List Byte)) :=
  if type = dnsRequestCname then some <$> parseName junk p fuel data else .ok none

/-- The loops over the answers read one, unless its class is another one, and find where the next
starts. -/
def readAnswer (p : List Byte) (fuel b : ℕ) : Except NetFault (Option Answer × ℕ) := do
  let len ← nameLen p b
  let rc := b + len
  let cls ← load16 p (rc + 2)
  if switch16 cls ≠ dnsIn then
    let dataLen ← load16 p (rc + 8)
    return (none, rc + dnsRecordSize + (switch16 dataLen).toNat)
  else
    let name ← parseName junk p fuel b
    let type ← load16 p rc
    let aliasName ← readAlias junk p fuel (switch16 type) (rc + dnsRecordSize)
    let dataLen ← load16 p (rc + 8)
    return (some ⟨name, switch16 type, aliasName, rc + dnsRecordSize⟩,
      rc + dnsRecordSize + (switch16 dataLen).toNat)

/-- The loop over the answers. -/
def readAnswers (p : List Byte) (fuel : ℕ) : ℕ → ℕ → Except NetFault (List Answer)
  | 0, _ => .ok []
  | n + 1, b => do
      let (answer, next) ← readAnswer junk p fuel b
      let answers ← readAnswers p fuel n next
      return answer.toList ++ answers

/-- The questions are skipped and the answers read, as many as the header says. -/
def readResponse (p : List Byte) (fuel : ℕ) : Except NetFault (List Answer) := do
  let questCount ← load16 p 4
  let ansCount ← load16 p 6
  let b ← skipQueries p (switch16 questCount).toNat dnsHeaderSize
  readAnswers junk p fuel (switch16 ansCount).toNat b

/-- `DNS::display_response`, which reads everything and shows nothing. -/
def displayResponse (p : List Byte) (fuel : ℕ) : Except NetFault Unit := do
  let _ ← readResponse junk p fuel
  return ()

/-- A name on the heap. -/
structure NameRef where
  addr : ℕ
  text : List Byte
  deriving DecidableEq, Repr

/-- The variables of `DNS::handle_packet`, and the names that are allocated. -/
structure Scan where
  resolvedHostname : Option NameRef := none
  lastSeenAlias : Option NameRef := none
  resolvedIp : Option ℕ := none
  live : List ℕ := []
  fresh : ℕ := 0
  deriving DecidableEq, Repr

/-- The result of `parse_name`. -/
def Scan.alloc (st : Scan) (buf : List Byte) : NameRef × Scan :=
  (⟨st.fresh, cstring buf⟩, { st with live := st.fresh :: st.live, fresh := st.fresh + 1 })

/-- `delete[]`. -/
def Scan.delete (name : Option NameRef) (st : Scan) : Except NetFault Scan :=
  match name with
  | none => .ok st
  | some name => if name.addr ∈ st.live then .ok { st with live := st.live.erase name.addr }
      else .error .released

/-- The name of an answer is read.  The first one is the name that was asked for. -/
def Scan.meetName (st : Scan) (buf : List Byte) : Scan :=
  let (name, st) := st.alloc buf
  if st.lastSeenAlias.isSome then st
  else { st with resolvedHostname := some name, lastSeenAlias := some name }

/-- The name it is an alias for is read, and takes the place of the last one. -/
def Scan.followAlias (st : Scan) (buf : List Byte) : Except NetFault Scan := do
  let (aliasName, st) := st.alloc buf
  let st ← if st.lastSeenAlias ≠ st.resolvedHostname then st.delete st.lastSeenAlias else pure st
  return { st with lastSeenAlias := some aliasName }

/-- The loop of `DNS::handle_packet` takes an answer. -/
def Scan.follow (st : Scan) (answer : Answer) : Except NetFault Scan :=
  let st := st.meetName answer.name
  match answer.aliasName with
  | some aliasName => st.followAlias aliasName
  | none => .ok (if answer.type = dnsRequestA then { st with resolvedIp := some answer.data } else st)

/-- The names are deleted at the end. -/
def Scan.deleteNames (st : Scan) : Except NetFault Scan := do
  let st ← st.delete st.lastSeenAlias
  if st.resolvedHostname ≠ st.lastSeenAlias then st.delete st.resolvedHostname else pure st

end Parse

/-! ## The table of sockets -/

/-- `DNS::resolve_hostname`; `id` is the number that is drawn for the query. -/
def resolveHostname (hostname : List Byte) (socket : ℕ) (id : BitVec 16) (s : DNS) :
    Except NetFault DNS :=
  if s.pendingQueueSize = dnsPendingQueueSize then .ok s
  else
    match s.pendingQueue.findIdx? (·.isNone) with
    | none => .error .outOfBounds
    | some i => .ok { s with
        pendingQueue := s.pendingQueue.set i (some ⟨socket, hostname⟩)
        pendingQueueSize := s.pendingQueueSize + 1
        lastQueryId := id
        queries := s.queries ++ [(id, hostname)] }

/-- The search for the socket that asked for a name. -/
def findPending (s : DNS) (resolvedHostname : Option (List Byte)) : Except NetFault (Option ℕ) :=
  match resolvedHostname with
  | some name => .ok (s.pendingQueue.findIdx? fun e => e.any (·.hostname == name))
  -- `strcmp` with a null pointer, at the first entry that is taken
  | none => if s.pendingQueue.all (·.isNone) then .ok none else .error .nullPointer

/-- The end of `DNS::handle_packet`: the socket is told the address, and its entry is freed. -/
def tellSocket (s : DNS) (resolvedHostname : Option (List Byte)) (resolvedIp : Except NetFault IP) :
    Except NetFault DNS := do
  match ← s.findPending resolvedHostname with
  | none => return s
  | some i =>
      match s.pendingQueue[i]? with
      | some (some e) =>
          let ip ← resolvedIp
          return { s with
            resolved := s.resolved ++ [(e.socket, ip)]
            pendingQueueSize := s.pendingQueueSize - 1
            pendingQueue := s.pendingQueue.set i none }
      | _ => return s

/-- The address at `resolved_ip`. -/
def readIp (p : List Byte) : Option ℕ → Except NetFault IP
  | none => .error .nullPointer
  | some i => load32 p i

/-- `DNS::handle_packet`. -/
def handlePacket (junk : ℕ → Byte) (fuel : ℕ) (packet : UDPPacket) (s : DNS) :
    Except NetFault (Bool × DNS) :=
  if packet.dstPort ≠ dnsPort ∨ packet.length.toNat < dnsHeaderSize then .ok (false, s)
  else do
    let p := packet.payload
    let id ← load16 p 0
    if id ≠ s.lastQueryId then return (false, s)
    displayResponse junk p fuel
    let answers ← readResponse junk p fuel
    let st ← answers.foldlM Scan.follow {}
    let s ← s.tellSocket (st.resolvedHostname.map (·.text)) (readIp p st.resolvedIp)
    let _ ← st.deleteNames
    return (true, s)

end DNS

end BrebOS

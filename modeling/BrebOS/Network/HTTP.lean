import BrebOS.Network.Defs

/-!
# The HTTP client

`HTTP.cpp`, how a response is taken apart and its body put together.  A response comes in segments, the
first of which must have all the headers.

Closing the socket tells the listener that the connection is terminated, and so deletes it.  Most calls of
`close` are followed by an assignment to `state`, which then writes to a deleted object.
-/

namespace BrebOS

/-- `' '`. -/
def space : Byte := 32

/-- `'\r'`. -/
def carriageReturn : Byte := 13

/-- `'\n'`. -/
def lineFeed : Byte := 10

/-- `':'`. -/
def colon : Byte := 58

/-- The end of a line. -/
def crlf : List Byte := [carriageReturn, lineFeed]

/-- `HTTP_OK`. -/
def httpOk : ℕ := 200

/-- `HTTP_MOVED_PERMANENTLY`. -/
def httpMovedPermanently : ℕ := 301

/-- `"Content-Length"`. -/
def contentLengthName : List Byte := [67, 111, 110, 116, 101, 110, 116, 45, 76, 101, 110, 103, 116, 104]

/-- `"Transfer-Encoding"`. -/
def transferEncodingName : List Byte :=
  [84, 114, 97, 110, 115, 102, 101, 114, 45, 69, 110, 99, 111, 100, 105, 110, 103]

/-- `"Location"`. -/
def locationName : List Byte := [76, 111, 99, 97, 116, 105, 111, 110]

/-- `"chunked"`. -/
def chunkedName : List Byte := [99, 104, 117, 110, 107, 101, 100]

namespace HTTP

/-! ## Taking a response apart -/

/-- The first place at which a test holds, of `left` places from `k` on. -/
def search (test : ℕ → Except NetFault Bool) : ℕ → ℕ → Except NetFault (Option ℕ)
  | 0, _ => .ok none
  | left + 1, k => do
      if ← test k then return some k else search test left (k + 1)

/-- Bytes of the packet are compared with these, up to the first difference. -/
def matchesAt (p : List Byte) : ℕ → List Byte → Except NetFault Bool
  | _, [] => .ok true
  | i, c :: cs => do
      let b ← readByte p i
      if b = c then matchesAt p (i + 1) cs else return false

/-- `memmem`, from the place `haystack` on. -/
def memmem (p : List Byte) (haystack hlen : ℕ) (needle : List Byte) : Except NetFault (Option ℕ) :=
  if hlen < needle.length then .ok none
  else search (fun k => matchesAt p (haystack + k) needle) (hlen - needle.length + 1) 0

/-- `HTTP::find_char`.  It looks at `len + 1` characters. -/
def findChar (p : List Byte) (str : ℕ) (c : Byte) (len : BitVec 16) : Except NetFault (Option ℕ) :=
  search (fun k => matchesAt p (str + k) [c]) (len.toNat + 1) 0

/-- The loop of `HTTP::count_headers`. -/
def countHeadersFrom (p : List Byte) (headerBeg : ℕ) : ℕ → ℕ → BitVec 16 → Except NetFault (BitVec 16)
  | 0, _, _ => .ok (-1)
  | left + 1, k, c => do
      if ← matchesAt p (headerBeg + k) crlf then
        if ← matchesAt p (headerBeg + k + 2) crlf then return c + 1
        else countHeadersFrom p headerBeg left (k + 1) (c + 1)
      else countHeadersFrom p headerBeg left (k + 1) c

/-- `HTTP::count_headers`. -/
def countHeaders (p : List Byte) (headerBeg : ℕ) (len : BitVec 16) : Except NetFault (BitVec 16) :=
  if len.toNat < 4 then .ok (-1) else countHeadersFrom p headerBeg (len.toNat + 1) 0 0

/-- `DIGIT`. -/
def isDigit (c : Byte) : Bool := 48 ≤ c && c ≤ 57

/-- `c - '0'`. -/
def digit (c : Byte) : ℕ := c.toNat - 48

/-- `HTTP::parse_status_code`. -/
def parseStatusCode (p : List Byte) (str : ℕ) : Except NetFault ℕ := do
  let a ← readByte p str
  if !isDigit a then return 0
  let b ← readByte p (str + 1)
  if !isDigit b then return 0
  let c ← readByte p (str + 2)
  if !isDigit c then return 0
  return digit a * 100 + digit b * 10 + digit c

/-- `HTTP::header`, its strings without what ends them. -/
structure Header where
  name : List Byte
  value : List Byte
  deriving DecidableEq, Repr

/-- What a pointer to characters points to. -/
inductive Chars
  | null
  | deleted
  | text (chars : List Byte)
  deriving DecidableEq, Repr

/-- `HTTP::response`. -/
structure Response where
  method : Chars := .null
  status : ℕ := 0
  reason : Chars := .null
  headers : List Header := []
  numHeaders : BitVec 16 := 0
  deriving DecidableEq, Repr

/-- What is read through a pointer that a search returned. -/
def found (place : Option ℕ) : Except NetFault ℕ :=
  match place with
  | some k => .ok k
  | none => .error .nullPointer

/-- The value of a header, without one space that stands before it. -/
def readValue (p : List Byte) (cpacket headerNameLen headerValueLen : ℕ) :
    Except NetFault (List Byte) := do
  let startsWithSpace ← if headerNameLen = 0 then pure false else matchesAt p cpacket [space]
  if startsWithSpace then readBytes p (cpacket + 1) (headerValueLen - 1)
  else readBytes p cpacket headerValueLen

/-- A header is read, and `cpacket` and `remaining_size` are set behind it. -/
def readHeader (p : List Byte) (cpacket : ℕ) (remainingSize : BitVec 16) :
    Except NetFault (Header × ℕ × BitVec 16) := do
  let nameEnd ← findChar p cpacket colon remainingSize
  let headerNameLen ← found nameEnd
  let name ← readBytes p cpacket headerNameLen
  let cpacket := cpacket + headerNameLen + 1
  let remainingSize := remainingSize - BitVec.ofNat 16 (headerNameLen + 1)
  let valueEnd ← findChar p cpacket carriageReturn remainingSize
  let headerValueLen ← found valueEnd
  let value ← readValue p cpacket headerNameLen headerValueLen
  return (⟨cstring name, cstring value⟩, cpacket + headerValueLen + 2,
    remainingSize - BitVec.ofNat 16 (headerValueLen + 2))

/-- The loop over the headers. -/
def readHeaders (p : List Byte) : ℕ → ℕ → BitVec 16 → Except NetFault (List Header)
  | 0, _, _ => .ok []
  | n + 1, cpacket, remainingSize => do
      let (header, cpacket, remainingSize) ← readHeader p cpacket remainingSize
      let headers ← readHeaders p n cpacket remainingSize
      return header :: headers

/-- `HTTP::response::response`. -/
def readResponse (p : List Byte) (packetSize : BitVec 16) : Except NetFault Response := do
  match ← findChar p 0 space packetSize with
  | none => return {}
  | some methodLen =>
      let method ← readBytes p 0 methodLen
      let remainingSize := packetSize - BitVec.ofNat 16 (methodLen + 1)
      let cpacket := methodLen + 1
      if remainingSize.toNat + 3 > packetSize.toNat then return { method := .deleted }
      else
        let status ← parseStatusCode p cpacket
        if status = 0 then return { method := .deleted }
        else
          let remainingSize := remainingSize - 4
          let cpacket := cpacket + 4
          match ← findChar p cpacket carriageReturn remainingSize with
          | none => return { method := .deleted }
          | some reasonLen =>
              let reason ← readBytes p cpacket reasonLen
              let remainingSize := remainingSize - BitVec.ofNat 16 (reasonLen + 2)
              let cpacket := cpacket + reasonLen + 2
              let numHeaders ← countHeaders p cpacket remainingSize
              if numHeaders = -1 then return { method := .deleted, reason := .deleted, numHeaders }
              else
                let headers ← readHeaders p numHeaders.toNat cpacket remainingSize
                return { method := .text method, status, reason := .text reason, headers, numHeaders }

/-- `to_lower_in_place`, for a character. -/
def toLower (c : Byte) : Byte := if 65 ≤ c ∧ c ≤ 90 then c + 32 else c

/-- `HTTP::response::get_header`. -/
def Response.getHeader (r : Response) (name : List Byte) : Option Header :=
  r.headers.find? fun h => h.name.map toLower == name.map toLower

/-- The number that characters write, each taken for a digit. -/
def number (w base : ℕ) (s : List Byte) : BitVec w :=
  s.foldl (fun n c => n * BitVec.ofNat w base + (c.signExtend w - 48)) 0

end HTTP

/-- `HTTP::State`. -/
inductive HTTPState
  | closed
  | getSent
  | receivingChunkLen
  | receivingResponse
  | responseComplete
  deriving DecidableEq, Repr

/-- `HTTP::TransferType`. -/
inductive TransferType
  | regular
  | chunked
  deriving DecidableEq, Repr

/-- The fields of `HTTP` that the response changes.  `buf` is what the buffer holds. -/
structure HTTP where
  state : HTTPState := .closed
  transferType : TransferType := .regular
  currentChunkSize : BitVec 16 := 0
  buf : List Byte := []
  bufCapacity : BitVec 16 := 0
  bufSize : BitVec 16 := 0
  deriving DecidableEq, Repr

namespace HTTP

/-- A listener, or what it has saved, once it is deleted. -/
inductive Listener
  | live (h : HTTP)
  | deleted (saved : Option (List Byte))
  deriving DecidableEq, Repr

/-- `HTTP::on_connection_terminated`, without an error. -/
def onConnectionTerminated (h : HTTP) : Except NetFault Listener :=
  if h.bufSize = h.bufCapacity ∧ h.state = .responseComplete then do
    let saved ← readBytes h.buf 0 h.bufSize.toNat
    return .deleted (some saved)
  else .ok (.deleted none)

/-- `socket->close()`, followed by an assignment to `state`. -/
def closeAndSet (h : HTTP) : Except NetFault Listener := do
  let _ ← h.onConnectionTerminated
  throw .released

/-- Data is put at the end of the buffer. -/
def store (p : List Byte) (h : HTTP) : Except NetFault Listener := do
  let buf ← writeBytes h.buf h.bufSize.toNat p
  let h := { h with buf := buf, bufSize := h.bufSize + BitVec.ofNat 16 p.length }
  return .live (if h.transferType = .regular ∧ h.bufSize = h.bufCapacity then
    { h with state := .responseComplete } else h)

/-- `HTTP::handle_response_continuation`. -/
def handleResponseContinuation (p : List Byte) (h : HTTP) : Except NetFault Listener :=
  if h.bufSize.toNat + p.length > h.bufCapacity.toNat then
    if h.transferType = .chunked ∧ h.bufSize.toNat + p.length = h.bufCapacity.toNat + 2 then do
      if ← matchesAt p (p.length - 2) crlf then
        if h.currentChunkSize = 0 then return .live { h with state := .responseComplete }
        else store (p.take (p.length - 2)) { h with state := .receivingChunkLen }
      else h.closeAndSet
    else h.closeAndSet
  else h.store p

/-- `HTTP::handle_chunk_length`, and what `on_data_received` does with its result. -/
def handleChunk (p : List Byte) (h : HTTP) : Except NetFault Listener := do
  match ← memmem p 0 p.length crlf with
  | none => h.closeAndSet
  | some chunkLenLen =>
      handleResponseContinuation (p.drop (chunkLenLen + crlf.length))
        { h with currentChunkSize := number 16 16 (p.take chunkLenLen) }

section Descriptor

-- What fresh memory holds.
variable (junk : ℕ → Byte)

/-- The end of `HTTP::handle_response_descriptor`: the buffer is made and the data from `contentStart` on
is copied to it. -/
def startBody (p : List Byte) (contentLen : BitVec 32) (contentStart : ℕ) (h : HTTP) :
    Except NetFault Listener := do
  let bufCapacity := contentLen.setWidth 16
  let data ← readBytes p contentStart (p.length - contentStart)
  let buf ← writeBytes ((List.range bufCapacity.toNat).map junk) 0 data
  return .live { h with
    state := .receivingResponse
    buf := buf
    bufCapacity := bufCapacity
    bufSize := BitVec.ofNat 16 data.length }

/-- The length of the body, or of its first chunk, and where the data starts. -/
def readBody (p : List Byte) (response : Response) (endOfHeaders : ℕ) (h : HTTP) :
    Except NetFault Listener :=
  match response.getHeader contentLengthName with
  | some header => startBody junk p (number 32 10 header.value) endOfHeaders h
  | none =>
      match response.getHeader transferEncodingName with
      | none => h.closeAndSet
      | some header =>
          if header.value ≠ chunkedName then h.closeAndSet
          else do
            match ← memmem p endOfHeaders (p.length - endOfHeaders) crlf with
            | none => h.closeAndSet
            | some contentLenLen =>
                let contentLen := number 32 16 ((p.drop endOfHeaders).take contentLenLen)
                startBody junk p contentLen (endOfHeaders + contentLenLen + crlf.length)
                  { h with transferType := .chunked, currentChunkSize := contentLen.setWidth 16 }

/-- `HTTP::handle_response_descriptor`. -/
def handleResponseDescriptor (p : List Byte) (h : HTTP) : Except NetFault Listener := do
  let response ← readResponse p (BitVec.ofNat 16 p.length)
  if response.method = .null then h.closeAndSet
  else if response.status ≠ httpOk then
    if response.status = httpMovedPermanently ∧ (response.getHeader locationName).isNone then
      throw .nullPointer
    else h.closeAndSet
  else
    match ← memmem p 0 p.length (crlf ++ crlf) with
    | none => h.closeAndSet
    | some place => readBody junk p response (place + (crlf ++ crlf).length) h

/-- `HTTP::on_data_received`. -/
def onDataReceived (p : List Byte) (h : HTTP) : Except NetFault Listener :=
  match h.state with
  | .getSent => handleResponseDescriptor junk p h
  | .receivingChunkLen => handleChunk p h
  | .receivingResponse => handleResponseContinuation p h
  | _ => h.onConnectionTerminated

/-- A segment comes in.  There is no socket any more when the listener is deleted. -/
def Listener.receive (p : List Byte) : Listener → Except NetFault Listener
  | .live h => onDataReceived junk p h
  | .deleted saved => .ok (.deleted saved)

end Descriptor

end HTTP

end BrebOS

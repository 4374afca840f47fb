/-
PROXY protocol headers, version 1 and 2: how `forwardx-fxp/main.go` writes them at the exit and
reads them at the entry.

What is proved is the way of a connection's addresses through the tunnel. The entry obtains them from
the connection or from a header, the exit gets them in the JSON of the hello frame and formats a
header of its own, and the reader takes that header back out of the stream, in whatever pieces it
comes, without a byte of what follows. Version 1 names the addresses in words on a line, so the proof
is about words, the space between them and the end of the line; version 2 has them as bytes behind a
length, so its proof is about lengths. The exceptions are stated with the theorem: a source that is
not known, a line too long to be looked for, and a text that is no UTF-8, which JSON changes.
-/
import ForwardX.Lib.Reads
import ForwardX.Lib.GoText
import ForwardX.Lib.BigEndian
import ForwardX.Fxp.ProtocolBlock

namespace ForwardX.Fxp.ProxyProtocol

open Reads GoText BigEndian ProtocolBlock List

/-! ## What a header says -/

structure ProxyProtocolInfo where
  SourceIP : Bytes := []
  SourcePort : ℤ := 0
  DestIP : Bytes := []
  DestPort : ℤ := 0

/-- The fields of `helloFrame` that a header is made from. -/
structure HelloFrame where
  TargetIP : Bytes
  TargetPort : ℤ
  ProxySourceIP : Bytes
  ProxySourcePort : ℤ
  ProxyDestIP : Bytes
  ProxyDestPort : ℤ
  ProxyProtocolVersion : ℤ

def normalizeProxyProtocolVersion (version : ℤ) : ℤ := if version = 2 then 2 else 1

/-- The frame of `handleEntryTCP`, with the target that `handleExitSession` completes. -/
def ProxyProtocolInfo.hello (info : ProxyProtocolInfo) (targetIP : Bytes) (targetPort version : ℤ) :
    HelloFrame where
  TargetIP := targetIP
  TargetPort := targetPort
  ProxySourceIP := info.SourceIP
  ProxySourcePort := info.SourcePort
  ProxyDestIP := info.DestIP
  ProxyDestPort := info.DestPort
  ProxyProtocolVersion := normalizeProxyProtocolVersion version

/-- The frame as the exit has it: it comes through `json.Marshal` and `json.Unmarshal`, which the
texts get through unchanged if they are valid UTF-8. -/
def HelloFrame.overJSON (hello : HelloFrame) : HelloFrame :=
  { hello with
    TargetIP := GoText.overJSON hello.TargetIP
    ProxySourceIP := GoText.overJSON hello.ProxySourceIP
    ProxyDestIP := GoText.overJSON hello.ProxyDestIP }

/-- `proxyProtocolHelloValues`: the source and the destination of a header. -/
def proxyProtocolHelloValues (hello : HelloFrame) : ProxyProtocolInfo :=
  let sourceIP := GoText.trimSpace hello.ProxySourceIP
  let destIP := GoText.trimSpace hello.ProxyDestIP
  let destIP := if destIP = [] then GoText.trimSpace hello.TargetIP else destIP
  let destPort := if hello.ProxyDestPort ≤ 0 then hello.TargetPort else hello.ProxyDestPort
  ⟨sourceIP, hello.ProxySourcePort, destIP, destPort⟩

/-- A `net.Addr` as the host and the port of its text. -/
structure Addr where
  host : Bytes
  port : ℕ
  host_word : host = [] ∨ Word host
  port_le : port ≤ 65535

def splitAddrHostPort : Option Addr → Bytes × ℤ
  | none => ([], 0)
  | some addr => (addr.host, addr.port)

def proxyProtocolInfoFromConn (remoteAddr localAddr : Option Addr) : ProxyProtocolInfo :=
  let info : ProxyProtocolInfo :=
    let (host, port) := splitAddrHostPort remoteAddr
    if host ≠ [] then { SourceIP := host, SourcePort := port } else {}
  let (host, port) := splitAddrHostPort localAddr
  if host ≠ [] then { info with DestIP := host, DestPort := port } else info

/-! ## Addresses -/

/-- A `net.IP` of 16 bytes, as `net.ParseIP` returns it. -/
abbrev IP := {bytes : Bytes // bytes.length = 16}

def to4 (ip : IP) : Option Bytes :=
  if ip.1.take 12 = List.replicate 10 0 ++ [0xff, 0xff] then some (ip.1.drop 12) else none

/-- `net.ParseIP` and `net.IP.String`. -/
structure IPText where
  parse : Bytes → Option IP
  text : Bytes → Bytes

/-! ## Writing -/

def word (text : String) : Bytes := ascii text.toList

def formatProxyProtocolV1 (hello : HelloFrame) : Bytes :=
  let values := proxyProtocolHelloValues hello
  let family := if 0x3a ∈ values.SourceIP ∨ 0x3a ∈ values.DestIP then word "TCP6" else word "TCP4"
  unwords [word "PROXY", family, values.SourceIP, values.DestIP, GoText.itoa values.SourcePort,
    GoText.itoa values.DestPort] ++ crlf

def proxyProtocolV2Signature : Bytes :=
  [0x0d, 0x0a, 0x0d, 0x0a, 0x00, 0x0d, 0x0a, 0x51, 0x55, 0x49, 0x54, 0x0a]

/-- A version 2 header with its command, its family and its payload. -/
def frameV2 (command family : UInt8) (payload : Bytes) : Bytes :=
  proxyProtocolV2Signature ++ command :: family :: (beBytes 2 payload.length ++ payload)

def formatProxyProtocolV2Local : Bytes := frameV2 0x20 0x00 []

/-- `uint16(port)`, big endian. -/
def portBytes (port : ℤ) : Bytes := beBytes 2 port.toNat

def formatProxyProtocolV2 (ips : IPText) (hello : HelloFrame) : Bytes :=
  let values := proxyProtocolHelloValues hello
  match ips.parse values.SourceIP, ips.parse values.DestIP with
  | some src, some dst =>
    if values.SourcePort ≤ 0 ∨ values.DestPort ≤ 0 then formatProxyProtocolV2Local
    else
      let ports := portBytes values.SourcePort ++ portBytes values.DestPort
      match to4 src, to4 dst with
      | some src4, some dst4 => frameV2 0x21 0x11 (src4 ++ dst4 ++ ports)
      | none, none => frameV2 0x21 0x21 (src.1 ++ dst.1 ++ ports)
      | _, _ => formatProxyProtocolV2Local
  | _, _ => formatProxyProtocolV2Local

def formatProxyProtocol (ips : IPText) (hello : HelloFrame) : Bytes :=
  if normalizeProxyProtocolVersion hello.ProxyProtocolVersion = 2 then formatProxyProtocolV2 ips hello
  else formatProxyProtocolV1 hello

/-! ## Reading -/

/-- A result of a reader: what the header says, the bytes left over, and whether there was one. -/
abbrev Consumed := Except (Stop String) (ProxyProtocolInfo × Bytes × Bool)

def refuse (text : String) : Consumed := .error (.other text)

def consumeProxyProtocolV1 (data : Bytes) : Consumed :=
  if ¬word "PROXY " <+: data then .ok ({}, data, false)
  else match bytesIndex crlf data with
    | none => refuse "incomplete proxy protocol header"
    | some stop =>
      let parts := fields (data.take stop)
      if parts.length < 2 ∨ parts.getD 0 [] ≠ word "PROXY" then
        refuse "invalid proxy protocol header"
      else if parts.getD 1 [] = word "UNKNOWN" then .ok ({}, data.drop (stop + 2), true)
      else if parts.length ≠ 6 ∨
          (parts.getD 1 [] ≠ word "TCP4" ∧ parts.getD 1 [] ≠ word "TCP6") then
        refuse "unsupported proxy protocol header"
      else match atoi (parts.getD 4 []) with
        | none => refuse "invalid proxy protocol source port"
        | some srcPort =>
          if srcPort ≤ 0 ∨ srcPort > 65535 then refuse "invalid proxy protocol source port"
          else match atoi (parts.getD 5 []) with
            | none => refuse "invalid proxy protocol destination port"
            | some dstPort =>
              if dstPort ≤ 0 ∨ dstPort > 65535 then refuse "invalid proxy protocol destination port"
              else .ok (⟨parts.getD 2 [], srcPort, parts.getD 3 [], dstPort⟩, data.drop (stop + 2),
                true)

/-- The part of `consumeProxyProtocolV2` behind the length checks. -/
def consumeV2Payload (ips : IPText) (command familyProtocol : UInt8) (payload remaining : Bytes) : Consumed :=
  let port (offset : ℕ) : ℤ := beNat ((payload.drop offset).take 2)
  if command = 0x0 then .ok ({}, remaining, true)
  else if command ≠ 0x1 then refuse "unsupported proxy protocol v2 command"
  else if familyProtocol = 0x11 then
    if payload.length < 12 then refuse "invalid proxy protocol v2 tcp4 payload"
    else .ok (⟨ips.text (payload.take 4), port 8, ips.text ((payload.drop 4).take 4), port 10⟩,
      remaining, true)
  else if familyProtocol = 0x21 then
    if payload.length < 36 then refuse "invalid proxy protocol v2 tcp6 payload"
    else .ok (⟨ips.text (payload.take 16), port 32, ips.text ((payload.drop 16).take 16), port 34⟩,
      remaining, true)
  else if familyProtocol = 0x00 then .ok ({}, remaining, true)
  else refuse "unsupported proxy protocol v2 address family"

def consumeProxyProtocolV2 (ips : IPText) (data : Bytes) : Consumed :=
  if ¬proxyProtocolV2Signature <+: data then .ok ({}, data, false)
  else if data.length < 16 then refuse "incomplete proxy protocol v2 header"
  else
    let versionCommand := data.getD 12 0
    if versionCommand >>> 4 ≠ 0x2 then refuse "invalid proxy protocol v2 version"
    else
      let length := beNat ((data.drop 14).take 2)
      if data.length < 16 + length then refuse "incomplete proxy protocol v2 payload"
      else consumeV2Payload ips (versionCommand &&& 0x0f) (data.getD 13 0)
        ((data.drop 16).take length) (data.drop (16 + length))

def consumeProxyProtocol (ips : IPText) (data : Bytes) : Consumed :=
  if word "PROXY " <+: data then consumeProxyProtocolV1 data
  else if proxyProtocolV2Signature <+: data then consumeProxyProtocolV2 ips data
  else if data ≠ [] ∧ data.length < proxyProtocolV2Signature.length ∧
      data <+: proxyProtocolV2Signature then
    refuse "incomplete proxy protocol v2 header"
  else .ok ({}, data, false)

/-- The condition of the loop of `consumeProxyProtocolV1FromConn`, and how much it asks for. -/
def moreV1 (buf : Bytes) : Option ℕ :=
  if buf ≠ [] ∧ buf.length < 108 ∧ (word "PROXY " <+: buf ∨ buf <+: word "PROXY ") ∧
      bytesIndex crlf buf = none then
    some (108 - buf.length)
  else none

def consumeProxyProtocolV1FromConn (data : Bytes) (conn : List (Arrival UInt8)) :
    Consumed × List (Arrival UInt8) :=
  match readWhile moreV1 (fun e => if e = .timeout then none else some (.read e))
      (none : Option (Stop String)) 108 data conn with
  | (.error stop, conn) => (.error stop, conn)
  | (.ok buf, conn) => (consumeProxyProtocolV1 buf, conn)

/-- What the loops of `consumeProxyProtocolFromConn` ask `readProxyProtocolMore` for. -/
def moreV2 (need : ℕ) (buf : Bytes) : Option ℕ :=
  if buf.length < need then some (need - buf.length) else none

/-- `readProxyProtocolMore` until there are `need` bytes. -/
def readV2 (need : ℕ) (incomplete : String) (buf : Bytes) (conn : List (Arrival UInt8)) :
    Except (Stop String) Bytes × List (Arrival UInt8) :=
  readWhile (moreV2 need) (fun e => some (.read e)) (some (.other incomplete)) need buf conn

def consumeProxyProtocolFromConn (ips : IPText) (data : Bytes) (conn : List (Arrival UInt8)) :
    Consumed × List (Arrival UInt8) :=
  if data = [] then (consumeProxyProtocol ips data, conn)
  else if word "PROXY " <+: data ∨ data <+: word "PROXY " then consumeProxyProtocolV1FromConn data conn
  else if proxyProtocolV2Signature <+: data ∨ data <+: proxyProtocolV2Signature then
    match readV2 16 "incomplete proxy protocol v2 header" data conn with
    | (.error stop, conn) => (.error stop, conn)
    | (.ok buf, conn) =>
      match readV2 (16 + beNat ((buf.drop 14).take 2)) "incomplete proxy protocol v2 payload" buf
          conn with
      | (.error stop, conn) => (.error stop, conn)
      | (.ok buf, conn) => (consumeProxyProtocol ips buf, conn)
  else (consumeProxyProtocol ips data, conn)

/-! ## Lines -/

theorem bytesIndex_cons_of_ne {b : UInt8} (hb : b ≠ 0x0d) (rest : Bytes) :
    bytesIndex crlf (b :: rest) = (bytesIndex crlf rest).map (· + 1) := by
  have hprefix : crlf.isPrefixOf (b :: rest) = false := by
    rw [Bool.eq_false_iff]
    intro h
    exact hb (cons_prefix_cons.mp (List.isPrefixOf_iff_prefix.mp h)).1.symm
  rw [bytesIndex, hprefix, if_neg Bool.false_ne_true]

theorem bytesIndex_line {line : Bytes} (h : 0x0d ∉ line) (rest : Bytes) :
    bytesIndex crlf (line ++ crlf ++ rest) = some line.length := by
  induction line with
  | nil => rfl
  | cons b line ih =>
    rw [mem_cons, not_or] at h
    rw [cons_append, cons_append, bytesIndex_cons_of_ne (Ne.symm h.1), ih h.2]
    rfl

theorem bytesIndex_prefix {line buf : Bytes} (h : 0x0d ∉ line) (hbuf : buf <+: line ++ [0x0d]) :
    bytesIndex crlf buf = none := by
  induction buf generalizing line with
  | nil => rfl
  | cons b buf ih =>
    cases line with
    | nil =>
      obtain ⟨rfl, hnil⟩ := cons_prefix_cons.mp hbuf
      rw [prefix_nil.mp hnil]
      rfl
    | cons c line =>
      rw [mem_cons, not_or] at h
      obtain ⟨rfl, hrest⟩ := cons_prefix_cons.mp hbuf
      rw [bytesIndex_cons_of_ne (Ne.symm h.1), ih h.2 hrest]
      rfl

/-! ## Version 1 -/

/-- A source and a destination that version 1 can name. -/
structure Named (values : ProxyProtocolInfo) : Prop where
  source : Word values.SourceIP
  dest : Word values.DestIP
  sourcePort : 0 < values.SourcePort ∧ values.SourcePort ≤ 65535
  destPort : 0 < values.DestPort ∧ values.DestPort ≤ 65535

def familyV1 (values : ProxyProtocolInfo) : Bytes :=
  if 0x3a ∈ values.SourceIP ∨ 0x3a ∈ values.DestIP then word "TCP6" else word "TCP4"

def partsV1 (values : ProxyProtocolInfo) : List Bytes :=
  [word "PROXY", familyV1 values, values.SourceIP, values.DestIP, GoText.itoa values.SourcePort,
    GoText.itoa values.DestPort]

theorem formatProxyProtocolV1_eq (hello : HelloFrame) :
    formatProxyProtocolV1 hello = unwords (partsV1 (proxyProtocolHelloValues hello)) ++ crlf := rfl

variable {values : ProxyProtocolInfo}

theorem familyV1_cases (values : ProxyProtocolInfo) :
    familyV1 values = word "TCP6" ∨ familyV1 values = word "TCP4" := by
  unfold familyV1
  split
  · exact .inl rfl
  · exact .inr rfl

theorem Named.words (h : Named values) : ∀ t ∈ partsV1 values, Word t := by
  have hfamily : Word (familyV1 values) := by
    obtain heq | heq := familyV1_cases values <;> rw [heq] <;>
      exact word_printable (by decide) (by decide +kernel)
  obtain ⟨n, hn⟩ := Int.eq_ofNat_of_zero_le h.sourcePort.1.le
  obtain ⟨m, hm⟩ := Int.eq_ofNat_of_zero_le h.destPort.1.le
  intro t ht
  simp only [partsV1, mem_cons, not_mem_nil, or_false] at ht
  obtain rfl | rfl | rfl | rfl | rfl | rfl := ht
  · exact word_printable (by decide) (by decide +kernel)
  · exact hfamily
  · exact h.source
  · exact h.dest
  · rw [hn]
    exact word_itoa n
  · rw [hm]
    exact word_itoa m

theorem mem_unwords {ts : List Bytes} {b : UInt8} (h : b ∈ unwords ts) : b = 0x20 ∨ ∃ t ∈ ts, b ∈ t := by
  induction ts with
  | nil => cases h
  | cons t ts ih =>
    cases ts with
    | nil => exact .inr ⟨t, mem_cons_self, h⟩
    | cons t' ts =>
      obtain ht | hrest := mem_append.mp h
      · exact .inr ⟨t, mem_cons_self, ht⟩
      · obtain rfl | hrest := mem_cons.mp hrest
        · exact .inl rfl
        · exact (ih hrest).imp_right fun ⟨x, hx, hb⟩ => ⟨x, mem_cons_of_mem _ hx, hb⟩

theorem Named.notMem_line (h : Named values) : 0x0d ∉ unwords (partsV1 values) := by
  intro hmem
  obtain hspace | ⟨t, ht, hb⟩ := mem_unwords hmem
  · exact absurd hspace (by decide)
  · exact (h.words t ht).notMem (by decide) hb

theorem proxy_prefix_line (values : ProxyProtocolInfo) (rest : Bytes) :
    word "PROXY " <+: unwords (partsV1 values) ++ rest :=
  ⟨unwords (partsV1 values).tail ++ rest, rfl⟩

theorem atoi_itoa_port {port : ℤ} (h : 0 < port ∧ port ≤ 65535) : atoi (GoText.itoa port) = some port := by
  obtain ⟨n, rfl⟩ := Int.eq_ofNat_of_zero_le h.1.le
  exact atoi_itoa (by have := h.2; omega)

theorem consumeProxyProtocolV1_line (h : Named values) (rest : Bytes) :
    consumeProxyProtocolV1 (unwords (partsV1 values) ++ crlf ++ rest) = .ok (values, rest, true) := by
  have hprefix : word "PROXY " <+: unwords (partsV1 values) ++ crlf ++ rest := by
    rw [append_assoc]
    exact proxy_prefix_line values (crlf ++ rest)
  have htake : (unwords (partsV1 values) ++ crlf ++ rest).take (unwords (partsV1 values)).length
      = unwords (partsV1 values) := by
    rw [append_assoc, take_left]
  have hdrop : (unwords (partsV1 values) ++ crlf ++ rest).drop
      ((unwords (partsV1 values)).length + 2) = rest := drop_left' (by simp [crlf])
  have hfields := fields_unwords h.words
  have hlength : (partsV1 values).length = 6 := rfl
  have hfamily : (partsV1 values).getD 1 [] = word "TCP6" ∨
      (partsV1 values).getD 1 [] = word "TCP4" := familyV1_cases values
  have hsource : atoi ((partsV1 values).getD 4 []) = some values.SourcePort :=
    atoi_itoa_port h.sourcePort
  have hdest : atoi ((partsV1 values).getD 5 []) = some values.DestPort := atoi_itoa_port h.destPort
  have hunknown : (partsV1 values).getD 1 [] ≠ word "UNKNOWN" := by
    obtain heq | heq := hfamily <;> rw [heq] <;> decide
  have hshape : ¬((partsV1 values).length < 2 ∨ (partsV1 values).getD 0 [] ≠ word "PROXY") := by
    rw [hlength]
    exact fun hbad => hbad.elim (by decide) fun hne => hne rfl
  have hkind : ¬((partsV1 values).length ≠ 6 ∨ ((partsV1 values).getD 1 [] ≠ word "TCP4" ∧
      (partsV1 values).getD 1 [] ≠ word "TCP6")) := by
    rw [hlength]
    exact fun hbad => hbad.elim (fun hne => hne rfl) fun hboth => hfamily.elim hboth.2 hboth.1
  have hports : ¬(values.SourcePort ≤ 0 ∨ values.SourcePort > 65535) ∧
      ¬(values.DestPort ≤ 0 ∨ values.DestPort > 65535) := by
    have hs := h.sourcePort
    have hd := h.destPort
    omega
  unfold consumeProxyProtocolV1
  rw [if_neg (not_not.mpr hprefix), bytesIndex_line h.notMem_line]
  dsimp only
  rw [htake, hdrop, hfields, if_neg hshape, if_neg hunknown, if_neg hkind, hsource]
  dsimp only
  rw [if_neg hports.1, hdest]
  dsimp only
  rw [if_neg hports.2]
  rfl

/-! ### From a connection -/

variable {first following : Bytes} {conn : List (Arrival UInt8)}

theorem moreV1_of_short (h : Named values)
    (hshort : (unwords (partsV1 values) ++ crlf).length ≤ 108) {buf : Bytes} (hne : buf ≠ [])
    (hbuf : buf <+: unwords (partsV1 values) ++ crlf ++ following)
    (hlength : buf.length < (unwords (partsV1 values) ++ crlf).length) :
    moreV1 buf = some (108 - buf.length) := by
  have hprefix : word "PROXY " <+: unwords (partsV1 values) ++ crlf ++ following := by
    rw [append_assoc]
    exact proxy_prefix_line values (crlf ++ following)
  have hline : buf <+: unwords (partsV1 values) ++ [0x0d] := by
    refine prefix_of_prefix_length_le hbuf ⟨0x0a :: following, ?_⟩ ?_
    · simp [crlf]
    · simp only [length_append, crlf, length_cons, length_nil] at hlength ⊢
      omega
  refine if_pos ⟨hne, by omega, prefix_or_prefix_of_prefix hprefix hbuf,
    bytesIndex_prefix h.notMem_line hline⟩

theorem moreV1_of_line (h : Named values) {buf : Bytes}
    (hbuf : unwords (partsV1 values) ++ crlf <+: buf) : moreV1 buf = none := by
  obtain ⟨rest, rfl⟩ := hbuf
  refine if_neg fun hmore => ?_
  rw [bytesIndex_line h.notMem_line] at hmore
  exact nomatch hmore.2.2.2

theorem consumeV1FromConn_line (h : Named values)
    (hshort : (unwords (partsV1 values) ++ crlf).length ≤ 108) (hfirst : first ≠ []) (hflow : Flowing conn)
    (hstream : first ++ stream conn = unwords (partsV1 values) ++ crlf ++ following) :
    ∃ rest conn', consumeProxyProtocolV1FromConn first conn = (.ok (values, rest, true), conn') ∧
      rest ++ stream conn' = following := by
  set header := unwords (partsV1 values) ++ crlf with hheader
  have hheader_prefix : header <+: header ++ following := prefix_append _ _
  have hmore : ∀ buf, buf <+: header ++ following → buf ≠ [] → ∀ limit, moreV1 buf = some limit →
      0 < limit ∧ buf.length < (header ++ following).length := by
    intro buf hbuf hne limit hlimit
    by_cases hlength : buf.length < header.length
    · rw [moreV1_of_short h hshort hne hbuf hlength] at hlimit
      cases hlimit
      rw [length_append]
      omega
    · have hall := prefix_of_prefix_length_le hheader_prefix hbuf (Nat.le_of_not_lt hlength)
      rw [moreV1_of_line h hall] at hlimit
      cases hlimit
  have hstop : ∀ buf, buf <+: header ++ following → header.length ≤ buf.length →
      moreV1 buf = none := fun buf hbuf hlength =>
    moreV1_of_line h (prefix_of_prefix_length_le hheader_prefix hbuf hlength)
  obtain ⟨buf, conn', hread, -, hrest, hne, hnone⟩ := readWhile_flowing
    (fun e => if e = .timeout then none else some (.read e)) (none : Option (Stop String)) hmore
    hstop 108 hfirst hflow hstream (by omega)
  have hbuf : buf <+: header ++ following := ⟨_, hrest⟩
  by_cases hlength : buf.length < header.length
  · rw [moreV1_of_short h hshort hne hbuf hlength] at hnone
    cases hnone
  · obtain ⟨rest, rfl⟩ :=
      prefix_of_prefix_length_le hheader_prefix hbuf (Nat.le_of_not_lt hlength)
    refine ⟨rest, conn', ?_, ?_⟩
    · rw [consumeProxyProtocolV1FromConn, hread]
      exact congrArg (·, conn') (consumeProxyProtocolV1_line h rest)
    · rw [append_assoc] at hrest
      exact append_cancel_left hrest

/-! ## Version 2 -/

section

variable {command family : UInt8} {payload : Bytes}

theorem frameV2_append (command family : UInt8) (payload rest : Bytes) :
    frameV2 command family payload ++ rest = proxyProtocolV2Signature ++
      command :: family :: (beBytes 2 payload.length ++ (payload ++ rest)) := by
  simp only [frameV2, append_assoc, cons_append]

theorem length_frameV2 (command family : UInt8) (payload : Bytes) :
    (frameV2 command family payload).length = 16 + payload.length := by
  simp only [frameV2, proxyProtocolV2Signature, length_append, length_cons,
    length_nil, beBytes_length]
  omega

theorem signature_frameV2 (rest : Bytes) :
    proxyProtocolV2Signature <+: frameV2 command family payload ++ rest := by
  rw [frameV2_append]
  exact prefix_append _ _

theorem drop_fourteen_frameV2 (rest : Bytes) :
    (frameV2 command family payload ++ rest).drop 14
      = beBytes 2 payload.length ++ (payload ++ rest) := by
  rw [frameV2_append]
  rfl

theorem lengthField_frameV2 (hpayload : payload.length < 65536) (rest : Bytes) :
    beNat (((frameV2 command family payload ++ rest).drop 14).take 2) = payload.length := by
  rw [drop_fourteen_frameV2, take_left' (beBytes_length 2 _), beNat_beBytes_of_lt hpayload]

theorem drop_frameV2 (rest : Bytes) : (frameV2 command family payload ++ rest).drop 16 = payload ++ rest := by
  rw [show (16 : ℕ) = 14 + 2 from rfl, ← drop_drop, drop_fourteen_frameV2,
    drop_left' (beBytes_length 2 _)]

theorem consumeProxyProtocolV2_frame (ips : IPText) (hversion : command >>> 4 = 0x2)
    (hpayload : payload.length < 65536) (rest : Bytes) :
    consumeProxyProtocolV2 ips (frameV2 command family payload ++ rest)
      = consumeV2Payload ips (command &&& 0x0f) family payload rest := by
  have hcommand : (frameV2 command family payload ++ rest).getD 12 0 = command := rfl
  have hfamily : (frameV2 command family payload ++ rest).getD 13 0 = family := rfl
  have hlength : (frameV2 command family payload ++ rest).length
      = 16 + payload.length + rest.length := by
    rw [length_append, length_frameV2]
  have hdrop : (frameV2 command family payload ++ rest).drop (16 + payload.length) = rest := by
    rw [← drop_drop, drop_frameV2, drop_left]
  unfold consumeProxyProtocolV2
  dsimp only
  rw [if_neg (not_not.mpr (signature_frameV2 rest)), lengthField_frameV2 hpayload, hcommand, hfamily, hlength, hdrop,
    drop_frameV2, take_left, if_neg (by omega), if_neg (not_not.mpr hversion),
    if_neg (by omega)]

theorem not_proxy_start {buf s : Bytes} (hne : buf ≠ []) (hbuf : buf <+: s)
    (hs : s.head? = some 0x0d) : ¬(word "PROXY " <+: buf ∨ buf <+: word "PROXY ") := by
  cases buf with
  | nil => exact absurd rfl hne
  | cons b buf =>
    obtain ⟨tail, rfl⟩ := hbuf
    obtain rfl : b = 0x0d := Option.some.inj hs
    rintro (h | h)
    · exact absurd (cons_prefix_cons.mp h).1 (by decide)
    · exact absurd (cons_prefix_cons.mp h).1 (by decide)

theorem moreV2_eq_none {need : ℕ} {buf : Bytes} : moreV2 need buf = none ↔ need ≤ buf.length := by
  unfold moreV2
  split
  · exact iff_of_false nofun (by omega)
  · exact iff_of_true rfl (by omega)

theorem moreV2_eq_some {need limit : ℕ} {buf : Bytes} (h : moreV2 need buf = some limit) :
    0 < limit ∧ buf.length < need := by
  unfold moreV2 at h
  split at h
  · cases h
    omega
  · cases h

theorem readV2_flowing {s : Bytes} {need : ℕ} (incomplete : String) (hneed : need ≤ s.length)
    {buf : Bytes} (hne : buf ≠ []) (hflow : Flowing conn) (hs : buf ++ stream conn = s) :
    ∃ buf' conn', readV2 need incomplete buf conn = (.ok buf', conn') ∧ Flowing conn' ∧
      buf' ++ stream conn' = s ∧ buf' ≠ [] ∧ need ≤ buf'.length := by
  obtain ⟨buf', conn', hread, hflow', hrest, hne', hnone⟩ := readWhile_flowing
    (fun e => some (.read e)) (some (Stop.other incomplete))
    (fun _ _ _ _ hlimit => (moreV2_eq_some hlimit).imp_right fun h => lt_of_lt_of_le h hneed)
    (fun _ _ hlength => moreV2_eq_none.mpr hlength) need hne hflow hs (Nat.le_add_left _ _)
  exact ⟨buf', conn', hread, hflow', hrest, hne', moreV2_eq_none.mp hnone⟩

theorem consumeFromConn_frame (ips : IPText) (hversion : command >>> 4 = 0x2)
    (hpayload : payload.length < 65536) (hfirst : first ≠ []) (hflow : Flowing conn)
    (hstream : first ++ stream conn = frameV2 command family payload ++ following) :
    ∃ rest conn', consumeProxyProtocolFromConn ips first conn
        = (consumeV2Payload ips (command &&& 0x0f) family payload rest, conn') ∧
      rest ++ stream conn' = following := by
  set header := frameV2 command family payload with hheader
  have hheader_length : header.length = 16 + payload.length := length_frameV2 _ _ _
  have hlong : header.length ≤ (header ++ following).length := by
    rw [length_append]
    exact Nat.le_add_right _ _
  have hhead : (header ++ following).head? = some 0x0d := rfl
  have hsignature : proxyProtocolV2Signature <+: header ++ following := signature_frameV2 following
  obtain ⟨buf, conn₁, hread₁, hflow₁, hrest₁, hne₁, hlength₁⟩ :=
    readV2_flowing "incomplete proxy protocol v2 header"
      (le_trans (by omega : 16 ≤ header.length) hlong) hfirst hflow hstream
  -- the first 16 bytes hold the length field
  have hfield : beNat ((buf.drop 14).take 2) = payload.length := by
    rw [← lengthField_frameV2 hpayload following, ← hheader, ← hrest₁,
      drop_append_of_le_length (by omega), take_append_of_le_length]
    rw [length_drop]
    omega
  obtain ⟨buf₂, conn₂, hread₂, -, hrest₂, hne₂, hlength₂⟩ :=
    readV2_flowing "incomplete proxy protocol v2 payload"
      (le_of_eq_of_le hheader_length.symm hlong) hne₁ hflow₁ hrest₁
  obtain ⟨rest, rfl⟩ := prefix_of_prefix_length_le (prefix_append header following)
    ⟨_, hrest₂⟩ (hheader_length ▸ hlength₂)
  have hwhole : consumeProxyProtocol ips (header ++ rest)
      = consumeV2Payload ips (command &&& 0x0f) family payload rest := by
    have hv1 := not_proxy_start hne₂ (prefix_refl (header ++ rest)) rfl
    rw [consumeProxyProtocol, if_neg fun h => hv1 (.inl h), if_pos (signature_frameV2 rest)]
    exact consumeProxyProtocolV2_frame ips hversion hpayload rest
  refine ⟨rest, conn₂, ?_, ?_⟩
  · have hfirst_v2 := prefix_or_prefix_of_prefix hsignature ⟨_, hstream⟩
    rw [consumeProxyProtocolFromConn, if_neg hfirst,
      if_neg (not_proxy_start hfirst ⟨_, hstream⟩ hhead), if_pos hfirst_v2, hread₁]
    dsimp only
    rw [hfield, hread₂]
    exact congrArg (·, conn₂) hwhole
  · rw [append_assoc] at hrest₂
    exact append_cancel_left hrest₂

end

/-! ### What is in a header -/

/-- The text of an address, that of four bytes if there is one. -/
def IPText.shown (ips : IPText) (ip : IP) : Bytes := ips.text ((to4 ip).getD ip.1)

/-- What version 2 says of a source and a destination: two addresses of one family in their own
text, or nothing. -/
def addresses (ips : IPText) (values : ProxyProtocolInfo) : ProxyProtocolInfo :=
  match ips.parse values.SourceIP, ips.parse values.DestIP with
  | some src, some dst =>
    if 0 < values.SourcePort ∧ ((to4 src).isSome ↔ (to4 dst).isSome) then
      ⟨ips.shown src, values.SourcePort, ips.shown dst, values.DestPort⟩
    else {}
  | _, _ => {}

theorem length_of_to4 {ip : IP} {ip4 : Bytes} (h : to4 ip = some ip4) : ip4.length = 4 := by
  unfold to4 at h
  split at h
  · cases h
    rw [length_drop, ip.2]
  · cases h

theorem length_portBytes (port : ℤ) : (portBytes port).length = 2 := beBytes_length 2 _

theorem beNat_portBytes {port : ℤ} (h : 0 < port ∧ port ≤ 65535) : (beNat (portBytes port) : ℤ) = port := by
  obtain ⟨n, rfl⟩ := Int.eq_ofNat_of_zero_le h.1.le
  rw [portBytes, beNat_beBytes_of_lt (by have := h.2; norm_num; omega), Int.toNat_natCast]

theorem payload_parts {n : ℕ} {src dst sourcePort destPort : Bytes} (hsrc : src.length = n)
    (hdst : dst.length = n) (hs : sourcePort.length = 2) (hd : destPort.length = 2) :
    (src ++ dst ++ (sourcePort ++ destPort)).take n = src ∧
      ((src ++ dst ++ (sourcePort ++ destPort)).drop n).take n = dst ∧
      ((src ++ dst ++ (sourcePort ++ destPort)).drop (n + n)).take 2 = sourcePort ∧
      ((src ++ dst ++ (sourcePort ++ destPort)).drop (n + n + 2)).take 2 = destPort := by
  have hboth : (src ++ dst).length = n + n := by rw [length_append, hsrc, hdst]
  refine ⟨?_, ?_, ?_, ?_⟩
  · rw [append_assoc, take_left' hsrc]
  · rw [append_assoc, drop_left' hsrc, take_left' hdst]
  · rw [drop_left' hboth, take_left' hs]
  · rw [← drop_drop, drop_left' hboth, drop_left' hs, ← hd, take_length]

/-- A version 2 header that says `info`. -/
def SaysV2 (ips : IPText) (info : ProxyProtocolInfo) (header : Bytes) : Prop :=
  ∃ command family payload, header = frameV2 command family payload ∧ command >>> 4 = 0x2 ∧
    payload.length < 65536 ∧
    ∀ rest, consumeV2Payload ips (command &&& 0x0f) family payload rest = .ok (info, rest, true)

theorem saysV2_local (ips : IPText) : SaysV2 ips {} formatProxyProtocolV2Local :=
  ⟨0x20, 0x00, [], rfl, rfl, by decide, fun _ => rfl⟩

variable {ips : IPText} {info : ProxyProtocolInfo}

theorem saysV2_tcp {src dst : Bytes} {sourcePort destPort : ℤ} {family : UInt8} {n : ℕ}
    (hfamily : family = 0x11 ∧ n = 4 ∨ family = 0x21 ∧ n = 16) (hsrc : src.length = n)
    (hdst : dst.length = n) (hs : 0 < sourcePort ∧ sourcePort ≤ 65535) (hd : 0 < destPort ∧ destPort ≤ 65535) :
    SaysV2 ips ⟨ips.text src, sourcePort, ips.text dst, destPort⟩
      (frameV2 0x21 family (src ++ dst ++ (portBytes sourcePort ++ portBytes destPort))) := by
  have hlength : (src ++ dst ++ (portBytes sourcePort ++ portBytes destPort)).length = n + n + 4 := by
    simp only [length_append, hsrc, hdst, length_portBytes]
  obtain ⟨hsrc', hdst', hs', hd'⟩ :=
    payload_parts hsrc hdst (length_portBytes sourcePort) (length_portBytes destPort)
  refine ⟨0x21, family, _, rfl, rfl, by omega, fun rest => ?_⟩
  unfold consumeV2Payload
  dsimp only
  obtain ⟨rfl, rfl⟩ | ⟨rfl, rfl⟩ := hfamily
  · rw [if_neg (by decide), if_neg (by decide), if_pos rfl, if_neg (by omega), hsrc', hdst', hs', hd',
      beNat_portBytes hs, beNat_portBytes hd]
  · rw [if_neg (by decide), if_neg (by decide), if_neg (by decide), if_pos rfl, if_neg (by omega),
      hsrc', hdst', hs', hd', beNat_portBytes hs, beNat_portBytes hd]

theorem formatProxyProtocolV2_says (ips : IPText) {hello : HelloFrame}
    (hsource : (proxyProtocolHelloValues hello).SourcePort ≤ 65535)
    (hdest : 0 < (proxyProtocolHelloValues hello).DestPort ∧
      (proxyProtocolHelloValues hello).DestPort ≤ 65535) :
    SaysV2 ips (addresses ips (proxyProtocolHelloValues hello)) (formatProxyProtocolV2 ips hello) := by
  unfold formatProxyProtocolV2 addresses
  generalize proxyProtocolHelloValues hello = values at hsource hdest ⊢
  dsimp only
  cases hsrc : ips.parse values.SourceIP with
  | none => exact saysV2_local ips
  | some src =>
    cases hdst : ips.parse values.DestIP with
    | none => exact saysV2_local ips
    | some dst =>
      dsimp only
      by_cases hport : 0 < values.SourcePort
      · have hports : ¬(values.SourcePort ≤ 0 ∨ values.DestPort ≤ 0) := by omega
        rw [if_neg hports]
        unfold IPText.shown
        cases hsrc4 : to4 src with
        | none =>
          cases hdst4 : to4 dst with
          | none =>
            rw [if_pos ⟨hport, Iff.rfl⟩]
            exact saysV2_tcp (.inr ⟨rfl, rfl⟩) src.2 dst.2 ⟨hport, hsource⟩ hdest
          | some dst4 =>
            rw [if_neg (by simp)]
            exact saysV2_local ips
        | some src4 =>
          cases hdst4 : to4 dst with
          | none =>
            rw [if_neg (by simp)]
            exact saysV2_local ips
          | some dst4 =>
            rw [if_pos ⟨hport, by simp⟩]
            exact saysV2_tcp (.inl ⟨rfl, rfl⟩) (length_of_to4 hsrc4) (length_of_to4 hdst4)
              ⟨hport, hsource⟩ hdest
      · have hports : values.SourcePort ≤ 0 ∨ values.DestPort ≤ 0 := .inl (by omega)
        rw [if_pos hports, if_neg fun h => hport h.1]
        exact saysV2_local ips

/-! ## The relay -/

/-- What the entry can obtain: the addresses of its connection, or what a header says. -/
inductive Obtained (ips : IPText) : ProxyProtocolInfo → Prop
  | connection (remoteAddr localAddr : Option Addr) :
    Obtained ips (proxyProtocolInfoFromConn remoteAddr localAddr)
  | header {data rest : Bytes} {conn conn' : List (Arrival UInt8)} {info : ProxyProtocolInfo}
    (h : consumeProxyProtocolFromConn ips data conn = (.ok (info, rest, true), conn')) :
    Obtained ips info

/-- One side of a connection: nothing, or a text and a port. -/
def Side (ip : Bytes) (port : ℤ) : Prop := ip = [] ∧ port = 0 ∨ Word ip ∧ 0 ≤ port ∧ port ≤ 65535

structure Sides (info : ProxyProtocolInfo) : Prop where
  source : Side info.SourceIP info.SourcePort
  dest : Side info.DestIP info.DestPort

theorem sides_unknown : Sides {} := ⟨.inl ⟨rfl, rfl⟩, .inl ⟨rfl, rfl⟩⟩

theorem side_splitAddrHostPort (addr : Option Addr) :
    Side (splitAddrHostPort addr).1 (splitAddrHostPort addr).2 ∨ (splitAddrHostPort addr).1 = [] := by
  cases addr with
  | none => exact .inr rfl
  | some addr =>
    refine addr.host_word.symm.imp_left fun hword => .inr ⟨hword, Int.natCast_nonneg _, ?_⟩
    show (addr.port : ℤ) ≤ 65535
    exact_mod_cast addr.port_le

theorem sides_fromConn (remoteAddr localAddr : Option Addr) :
    Sides (proxyProtocolInfoFromConn remoteAddr localAddr) := by
  have hremote := side_splitAddrHostPort remoteAddr
  have hlocal := side_splitAddrHostPort localAddr
  unfold proxyProtocolInfoFromConn
  generalize splitAddrHostPort remoteAddr = remote at hremote ⊢
  generalize splitAddrHostPort localAddr = here at hlocal ⊢
  dsimp only
  have hnone : Side [] 0 := .inl ⟨rfl, rfl⟩
  by_cases hr : remote.1 = [] <;> by_cases hl : here.1 = []
  · rw [if_neg (not_not.mpr hr), if_neg (not_not.mpr hl)]
    exact sides_unknown
  · rw [if_neg (not_not.mpr hr), if_pos hl]
    exact ⟨hnone, hlocal.resolve_right hl⟩
  · rw [if_pos hr, if_neg (not_not.mpr hl)]
    exact ⟨hremote.resolve_right hr, hnone⟩
  · rw [if_pos hr, if_pos hl]
    exact ⟨hremote.resolve_right hr, hlocal.resolve_right hl⟩

theorem sides_consumeV1 {data rest : Bytes}
    (h : consumeProxyProtocolV1 data = .ok (info, rest, true)) : Sides info := by
  unfold consumeProxyProtocolV1 at h
  split at h
  · cases h
  cases hstop : bytesIndex crlf data with
  | none =>
    rw [hstop] at h
    cases h
  | some stop =>
    rw [hstop] at h
    dsimp only at h
    have hwords : ∀ t ∈ fields (data.take stop), Word t := fun _ => word_of_mem_fields
    generalize fields (data.take stop) = parts at h hwords
    split at h
    · cases h
    split at h
    · cases h
      exact sides_unknown
    split at h
    · cases h
    rename_i hkind
    have hlength : parts.length = 6 := not_not.mp fun hne => hkind (.inl hne)
    have hword : ∀ i < 6, Word (parts.getD i []) := by
      intro i hi
      rw [getD_eq_getElem?_getD, getElem?_eq_getElem (hlength ▸ hi), Option.getD_some]
      exact hwords _ (getElem_mem _)
    cases hsource : atoi (parts.getD 4 []) with
    | none =>
      rw [hsource] at h
      cases h
    | some sourcePort =>
      rw [hsource] at h
      dsimp only at h
      split at h
      · cases h
      rename_i hsourcePort
      cases hdest : atoi (parts.getD 5 []) with
      | none =>
        rw [hdest] at h
        cases h
      | some destPort =>
        rw [hdest] at h
        dsimp only at h
        split at h
        · cases h
        rename_i hdestPort
        cases h
        have hsource' : 0 ≤ sourcePort ∧ sourcePort ≤ 65535 := by omega
        have hdest' : 0 ≤ destPort ∧ destPort ≤ 65535 := by omega
        exact ⟨.inr ⟨hword 2 (by decide), hsource'⟩, .inr ⟨hword 3 (by decide), hdest'⟩⟩

theorem port_range (payload : Bytes) (offset : ℕ) :
    (0 : ℤ) ≤ beNat ((payload.drop offset).take 2) ∧
      (beNat ((payload.drop offset).take 2) : ℤ) ≤ 65535 := by
  have hlt := beNat_lt ((payload.drop offset).take 2)
  have hle : 256 ^ ((payload.drop offset).take 2).length ≤ 256 ^ 2 :=
    Nat.pow_le_pow_right (by decide) (length_take_le _ _)
  omega

section

variable (hwords : ∀ bytes : Bytes, bytes.length = 4 ∨ bytes.length = 16 → Word (ips.text bytes))

include hwords

theorem sides_addresses {n : ℕ}
    (hn : n = 4 ∨ n = 16) {payload : Bytes} (hlong : n + n ≤ payload.length) (source dest : ℕ) :
    Sides ⟨ips.text (payload.take n), beNat ((payload.drop source).take 2),
      ips.text ((payload.drop n).take n), beNat ((payload.drop dest).take 2)⟩ := by
  have hsrc : (payload.take n).length = n := by
    rw [length_take]
    omega
  have hdst : ((payload.drop n).take n).length = n := by
    rw [length_take, length_drop]
    omega
  exact ⟨.inr ⟨hwords _ (hsrc.symm ▸ hn), port_range payload source⟩,
    .inr ⟨hwords _ (hdst.symm ▸ hn), port_range payload dest⟩⟩

theorem sides_consumeV2Payload {command familyProtocol : UInt8} {payload remaining rest : Bytes}
    (h : consumeV2Payload ips command familyProtocol payload remaining = .ok (info, rest, true)) :
    Sides info := by
  unfold consumeV2Payload at h
  dsimp only at h
  split at h
  · cases h
    exact sides_unknown
  split at h
  · cases h
  split at h
  · split at h
    · cases h
    rename_i hlong
    cases h
    exact sides_addresses hwords (.inl rfl) (by omega) 8 10
  split at h
  · split at h
    · cases h
    rename_i hlong
    cases h
    exact sides_addresses hwords (.inr rfl) (by omega) 32 34
  split at h
  · cases h
    exact sides_unknown
  · cases h

theorem sides_consume {data rest : Bytes}
    (h : consumeProxyProtocol ips data = .ok (info, rest, true)) : Sides info := by
  unfold consumeProxyProtocol at h
  split at h
  · exact sides_consumeV1 h
  split at h
  · unfold consumeProxyProtocolV2 at h
    split at h
    · cases h
    split at h
    · cases h
    dsimp only at h
    split at h
    · cases h
    split at h
    · cases h
    · exact sides_consumeV2Payload hwords h
  split at h <;> cases h

theorem Obtained.sides (h : Obtained ips info) : Sides info := by
  cases h with
  | connection remoteAddr localAddr => exact sides_fromConn remoteAddr localAddr
  | @header data rest conn conn' _ h =>
    unfold consumeProxyProtocolFromConn consumeProxyProtocolV1FromConn at h
    split at h
    · exact sides_consume hwords (congrArg Prod.fst h)
    split at h
    · split at h
      · cases h
      · exact sides_consumeV1 (congrArg Prod.fst h)
    split at h
    · split at h
      · cases h
      split at h
      · cases h
      · exact sides_consume hwords (congrArg Prod.fst h)
    · exact sides_consume hwords (congrArg Prod.fst h)

end

/-! ### The round trip -/

/-- A destination that lacks a text or a port has that of the target. -/
def ProxyProtocolInfo.completed (info : ProxyProtocolInfo) (targetIP : Bytes) (targetPort : ℤ) :
    ProxyProtocolInfo :=
  { info with
    DestIP := if info.DestIP = [] then GoText.trimSpace targetIP else info.DestIP
    DestPort := if info.DestPort = 0 then targetPort else info.DestPort }

def relayed (ips : IPText) (info : ProxyProtocolInfo) (targetIP : Bytes) (targetPort version : ℤ) :
    ProxyProtocolInfo :=
  if normalizeProxyProtocolVersion version = 2 then addresses ips (info.completed targetIP targetPort)
  else info.completed targetIP targetPort

section

variable {ip : Bytes} {port : ℤ} (h : Side ip port)

include h

theorem Side.trimSpace : GoText.trimSpace ip = ip := by
  obtain ⟨rfl, -⟩ | ⟨hword, -⟩ := h
  · rfl
  · exact trimSpace_word hword

theorem Side.port_range : 0 ≤ port ∧ port ≤ 65535 := by
  obtain ⟨-, rfl⟩ | ⟨-, hport⟩ := h
  · decide
  · exact hport

theorem Side.word (hknown : ip ≠ []) : Word ip := by
  obtain ⟨hnil, -⟩ | ⟨hword, -⟩ := h
  · exact absurd hnil hknown
  · exact hword

end

open ProxyProtocolInfo

theorem helloValues_hello (h : Sides info) (targetIP : Bytes)
    (targetPort version : ℤ) : proxyProtocolHelloValues (info.hello targetIP targetPort version)
      = info.completed targetIP targetPort := by
  have hport := h.dest.port_range.1
  unfold proxyProtocolHelloValues hello completed
  dsimp only
  have hlacks : info.DestPort ≤ 0 ↔ info.DestPort = 0 := by omega
  simp only [h.source.trimSpace, h.dest.trimSpace, hlacks]

theorem completed_destPort (h : Sides info) (targetIP : Bytes)
    {targetPort : ℤ} (hport : 0 < targetPort ∧ targetPort ≤ 65535) :
    0 < (info.completed targetIP targetPort).DestPort ∧
      (info.completed targetIP targetPort).DestPort ≤ 65535 := by
  have hdest := h.dest.port_range
  unfold completed
  dsimp only
  split <;> omega

theorem completed_named (h : Sides info) {targetIP : Bytes}
    (htarget : Word (GoText.trimSpace targetIP)) {targetPort : ℤ}
    (hport : 0 < targetPort ∧ targetPort ≤ 65535)
    (hknown : info.SourceIP ≠ [] ∧ 0 < info.SourcePort) :
    Named (info.completed targetIP targetPort) where
  source := h.source.word hknown.1
  dest := by
    unfold completed
    dsimp only
    by_cases hdest : info.DestIP = []
    · rw [if_pos hdest]
      exact htarget
    · rw [if_neg hdest]
      exact h.dest.word hdest
  sourcePort := ⟨hknown.2, h.source.port_range.2⟩
  destPort := completed_destPort h targetIP hport

theorem normalize_hello (info : ProxyProtocolInfo) (targetIP : Bytes) (targetPort version : ℤ) :
    normalizeProxyProtocolVersion (info.hello targetIP targetPort version).ProxyProtocolVersion = 2 ↔
      normalizeProxyProtocolVersion version = 2 := by
  unfold hello normalizeProxyProtocolVersion
  dsimp only
  split <;> decide

theorem overJSON_hello {targetIP : Bytes} (hsource : validUTF8 info.SourceIP = true)
    (hdest : validUTF8 info.DestIP = true) (htarget : validUTF8 targetIP = true)
    (targetPort version : ℤ) :
    (info.hello targetIP targetPort version).overJSON = info.hello targetIP targetPort version := by
  unfold HelloFrame.overJSON hello
  dsimp only
  rw [overJSON_of_valid hsource, overJSON_of_valid hdest, overJSON_of_valid htarget]

/-- Two addresses of one family in their own text, with their ports. -/
structure Addressed (ips : IPText) (info : ProxyProtocolInfo) : Prop where
  source : ∃ ip, ips.parse info.SourceIP = some ip ∧ ips.shown ip = info.SourceIP
  dest : ∃ ip, ips.parse info.DestIP = some ip ∧ ips.shown ip = info.DestIP
  family : ((ips.parse info.SourceIP).bind to4).isSome ↔ ((ips.parse info.DestIP).bind to4).isSome
  dest_known : info.DestIP ≠ []
  sourcePort : 0 < info.SourcePort
  destPort : 0 < info.DestPort

theorem relayed_of_addressed (h : Addressed ips info) (targetIP : Bytes) (targetPort version : ℤ) :
    relayed ips info targetIP targetPort version = info := by
  have hcompleted : info.completed targetIP targetPort = info := by
    rw [completed, if_neg h.dest_known, if_neg h.destPort.ne']
  obtain ⟨src, hsrc, hsource⟩ := h.source
  obtain ⟨dst, hdst, hdest⟩ := h.dest
  have hfamily := h.family
  rw [hsrc, hdst] at hfamily
  have haddresses : addresses ips info = info := by
    unfold addresses
    rw [hsrc, hdst]
    dsimp only
    rw [if_pos ⟨h.sourcePort, hfamily⟩, hsource, hdest]
  rw [relayed, hcompleted, haddresses, ite_self]

theorem consumeFromConn_line (ips : IPText) (h : Named values)
    (hshort : (unwords (partsV1 values) ++ crlf).length ≤ 108) (hfirst : first ≠ []) (hflow : Flowing conn)
    (hstream : first ++ stream conn = unwords (partsV1 values) ++ crlf ++ following) :
    ∃ rest conn', consumeProxyProtocolFromConn ips first conn = (.ok (values, rest, true), conn') ∧
      rest ++ stream conn' = following := by
  have hprefix : word "PROXY " <+: unwords (partsV1 values) ++ crlf ++ following := by
    rw [append_assoc]
    exact proxy_prefix_line values (crlf ++ following)
  have hv1 := prefix_or_prefix_of_prefix hprefix ⟨_, hstream⟩
  rw [consumeProxyProtocolFromConn, if_neg hfirst, if_pos hv1]
  exact consumeV1FromConn_line h hshort hfirst hflow hstream

/-- **Whatever the entry has obtained is relayed**, if its texts are valid UTF-8: from every cut of
the stream the reader gets the same source and destination, and leaves what follows the header. -/
theorem relay_roundTrip (ips : IPText)
    (hwords : ∀ bytes : Bytes, bytes.length = 4 ∨ bytes.length = 16 → Word (ips.text bytes))
    {info : ProxyProtocolInfo} (hinfo : Obtained ips info)
    {targetIP : Bytes} (htarget : Word (GoText.trimSpace targetIP))
    (hutf8 : validUTF8 info.SourceIP ∧ validUTF8 info.DestIP ∧ validUTF8 targetIP)
    {targetPort : ℤ} (hport : 0 < targetPort ∧ targetPort ≤ 65535) (version : ℤ)
    (hknown : normalizeProxyProtocolVersion version ≠ 2 → info.SourceIP ≠ [] ∧ 0 < info.SourcePort)
    (hshort : normalizeProxyProtocolVersion version ≠ 2 →
      (formatProxyProtocol ips (info.hello targetIP targetPort version).overJSON).length ≤ 108)
    (hfirst : first ≠ []) (hflow : Flowing conn) (hstream : first ++ stream conn
      = formatProxyProtocol ips (info.hello targetIP targetPort version).overJSON ++ following) :
    ∃ rest conn', consumeProxyProtocolFromConn ips first conn
        = (.ok (relayed ips info targetIP targetPort version, rest, true), conn') ∧
      rest ++ stream conn' = following ∧
      (Addressed ips info → relayed ips info targetIP targetPort version = info) := by
  have hsides := hinfo.sides hwords
  have hsame : Addressed ips info → relayed ips info targetIP targetPort version = info :=
    fun h => relayed_of_addressed h targetIP targetPort version
  have hvalues := helloValues_hello hsides targetIP targetPort version
  rw [overJSON_hello hutf8.1 hutf8.2.1 hutf8.2.2] at hshort hstream
  unfold formatProxyProtocol at hshort hstream
  unfold relayed at hsame ⊢
  by_cases hversion : normalizeProxyProtocolVersion version = 2
  · rw [if_pos ((normalize_hello info targetIP targetPort version).mpr hversion)] at hstream
    have hsays := formatProxyProtocolV2_says ips (hvalues ▸ hsides.source.port_range.2)
      (hvalues ▸ completed_destPort hsides targetIP hport)
    rw [hvalues] at hsays
    obtain ⟨command, family, payload, hformat, htwo, hpayload, hsays⟩ := hsays
    rw [hformat] at hstream
    obtain ⟨rest, conn', hconsume, hrest⟩ :=
      consumeFromConn_frame ips htwo hpayload hfirst hflow hstream
    refine ⟨rest, conn', ?_, hrest, hsame⟩
    rw [hconsume, hsays, if_pos hversion]
  · rw [if_neg (mt (normalize_hello info targetIP targetPort version).mp hversion),
      formatProxyProtocolV1_eq, hvalues] at hstream hshort
    obtain ⟨rest, conn', hconsume, hrest⟩ :=
      consumeFromConn_line ips (completed_named hsides htarget hport (hknown hversion))
        (hshort hversion) hfirst hflow hstream
    refine ⟨rest, conn', ?_, hrest, hsame⟩
    rw [hconsume, if_neg hversion]

/-! ### A run -/

/-- Bytes in decimal with dots between them, as an address of four bytes is written. -/
def dotted (bytes : Bytes) : Bytes := (bytes.flatMap fun b => 0x2e :: GoText.itoa b.toNat).drop 1

def mapped (ip4 : Bytes) (h : ip4.length = 4) : IP :=
  ⟨List.replicate 10 0 ++ [0xff, 0xff] ++ ip4, by simp [h]⟩

def sampleIPs : IPText where
  parse text :=
    if text = word "198.51.100.7" then some (mapped [198, 51, 100, 7] rfl)
    else if text = word "10.0.0.5" then some (mapped [10, 0, 0, 5] rfl)
    else none
  text := dotted

theorem printable_dotted (bytes : Bytes) : ∀ b ∈ dotted bytes, 0x20 < b ∧ b < 0x80 := by
  intro b hb
  obtain ⟨n, -, hn⟩ := mem_flatMap.mp (mem_of_mem_drop hb)
  obtain rfl | hdigit := mem_cons.mp hn
  · decide
  · exact printable_itoa _ b hdigit

theorem word_sampleText (bytes : Bytes) (h : bytes.length = 4 ∨ bytes.length = 16) :
    Word (sampleIPs.text bytes) := by
  refine word_printable ?_ (printable_dotted bytes)
  cases bytes with
  | nil => cases h <;> contradiction
  | cons b bytes =>
    have hdotted : dotted (b :: bytes)
        = GoText.itoa b.toNat ++ bytes.flatMap fun b => 0x2e :: GoText.itoa b.toNat := rfl
    intro hnil
    exact itoa_ne_nil b.toNat (append_eq_nil_iff.mp (hdotted.symm.trans hnil)).1

def sampleInfo : ProxyProtocolInfo := ⟨word "198.51.100.7", 51443, word "10.0.0.5", 8443⟩

/-- The reads after the first five bytes of a version 2 header. -/
def sampleConn : List (Arrival UInt8) :=
  [.data (proxyProtocolV2Signature.drop 5 ++ [0x21, 0x11]),
    .data ([0x00, 0x0c, 198, 51, 100, 7, 10, 0, 0, 5, 0xc8, 0xf3, 0x20, 0xfb] ++ word "pay"),
    .data (word "load")]

theorem relay_roundTrip_sample : ∃ rest conn',
    consumeProxyProtocolFromConn sampleIPs (proxyProtocolV2Signature.take 5) sampleConn
      = (.ok (sampleInfo, rest, true), conn') ∧
    rest ++ stream conn' = word "payload" := by
  have hclient : Word (word "198.51.100.7") := word_printable (by decide) (by decide +kernel)
  have hservice : Word (word "10.0.0.5") := word_printable (by decide) (by decide +kernel)
  have hinfo : Obtained sampleIPs sampleInfo :=
    .connection (some ⟨word "198.51.100.7", 51443, .inr hclient, by decide⟩)
      (some ⟨word "10.0.0.5", 8443, .inr hservice, by decide⟩)
  have htarget : Word (GoText.trimSpace (word "db.internal")) := word_printable (by decide) (by decide +kernel)
  have hflow : Flowing sampleConn := by
    intro a ha
    simp only [sampleConn, List.mem_cons, List.not_mem_nil, or_false] at ha
    obtain rfl | rfl | rfl := ha <;> exact ⟨_, rfl, by decide⟩
  have hstream : proxyProtocolV2Signature.take 5 ++ stream sampleConn
      = formatProxyProtocol sampleIPs (sampleInfo.hello (word "db.internal") 5432 2).overJSON
        ++ word "payload" := by decide
  obtain ⟨rest, conn', hconsume, hrest, -⟩ := relay_roundTrip sampleIPs word_sampleText hinfo htarget
    (by decide +kernel) (by decide) 2 (by decide) (by decide) (by decide) hflow hstream
  exact ⟨rest, conn', hconsume, hrest⟩

-- the text of a header is any bytes, and JSON relays another one
example : (HelloFrame.overJSON (ProxyProtocolInfo.hello ⟨[0xff], 51443, word "10.0.0.5", 8443⟩
    (word "10.0.0.5") 8443 1)).ProxySourceIP = [0xef, 0xbf, 0xbd] := by
  decide +kernel

theorem unknown_source_refused :
    consumeProxyProtocolFromConn sampleIPs (word "PROXY UNKNOWN\r\n") [] = (.ok ({}, [], true), []) ∧
      consumeProxyProtocolFromConn sampleIPs
        (formatProxyProtocol sampleIPs
          (ProxyProtocolInfo.hello {} (word "10.0.0.5") 8443 1).overJSON) []
        = (refuse "unsupported proxy protocol header", []) := by
  constructor
  · rfl
  · rfl

end ForwardX.Fxp.ProxyProtocol

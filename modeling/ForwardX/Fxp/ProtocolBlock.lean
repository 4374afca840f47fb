/-
The protocol block of an entry of `forwardx-fxp/main.go`, over all ways of cutting a client's stream
into reads.

A client's bytes come in pieces that the network chooses, and the decision to block should not
depend on them. The proof compares each way of reading with one that has all bytes at once, up to
the point where the sample is full; the first read alone can be longer than that, which is where the
ways differ.
-/
import Mathlib.Data.List.Infix

namespace ForwardX.Fxp.ProtocolBlock

open List

/-! ## Detection -/

def fxpProtocolSampleMax : ℕ := 512

structure ProtocolPolicy where
  blockHTTP : Bool
  blockSocks : Bool
  blockTLS : Bool

def bytesOf (text : String) : List UInt8 := text.toList.map fun c => UInt8.ofNat c.toNat

def bytesIndex (sep : List UInt8) : List UInt8 → Option ℕ
  | [] => if sep.isEmpty then some 0 else none
  | b :: rest => if sep.isPrefixOf (b :: rest) then some 0 else (bytesIndex sep rest).map (· + 1)

/-- `bytes.ToLower`, on ASCII bytes. -/
def toLower (target : List UInt8) : List UInt8 :=
  target.map fun b => if 0x41 ≤ b ∧ b ≤ 0x5a then b + 0x20 else b

def crlf : List UInt8 := [0x0d, 0x0a]

def http2Preface : List UInt8 := bytesOf "PRI * HTTP/2.0\r\n\r\nSM\r\n\r\n"

def connect : List UInt8 := bytesOf "CONNECT"

def httpMethods : List (List UInt8) :=
  ["GET", "POST", "PUT", "DELETE", "HEAD", "OPTIONS", "PATCH", "CONNECT", "TRACE"].map bytesOf

def httpVersions : List (List UInt8) := ["HTTP/1.0", "HTTP/1.1"].map bytesOf

def validHTTPRequestTarget (method target : List UInt8) : Bool :=
  if target.isEmpty then false
  else if target.any fun value => value < 0x21 || value > 0x7e then false
  else if method == connect then target.contains 0x3a
  else if target == bytesOf "*" then method == bytesOf "OPTIONS"
  else if target.head? == some 0x2f then true
  else
    let lower := toLower target
    (bytesOf "http://").isPrefixOf lower || (bytesOf "https://").isPrefixOf lower

/-- The request line, from the fields between its spaces. One that the data does not end in its CR LF
may lack the version or have the beginning of one. -/
def validRequestLine (complete : Bool) : List (List UInt8) → Bool
  | method :: target :: rest =>
    if decide (1 < rest.length) || (complete && rest.length != 1) then false
    else if !httpMethods.contains method then false
    else if !validHTTPRequestTarget method target then false
    else
      match rest with
      | [] => true
      | version :: _ =>
        if complete then httpVersions.contains version
        else httpVersions.any fun known => version.isPrefixOf (known ++ crlf)
  | _ => false

def detectHTTPProtocol (data : List UInt8) : Bool :=
  if http2Preface.isPrefixOf data then true
  else if data.length < (bytesOf "GET / HTTP/1.0\r\n").length then false
  else
    let index := bytesIndex crlf data
    let complete := index.isSome
    if !complete && decide (data.length < fxpProtocolSampleMax) then false
    -- without a CR LF a full sample is looked at to its end
    else validRequestLine complete ((data.take (index.getD data.length)).splitOn 0x20)

def detectTLSProtocol : List UInt8 → Bool
  | b₀ :: b₁ :: b₂ :: _ :: _ :: _ =>
    b₀ == 0x16 && b₁ == 0x03 && decide (0x01 ≤ b₂) && decide (b₂ ≤ 0x04)
  | _ => false

def detectSocksProtocol : List UInt8 → Bool
  | b₀ :: b₁ :: rest =>
    if b₀ == 0x04 then decide (5 ≤ rest.length) && (b₁ == 0x01 || b₁ == 0x02)
    else if b₀ != 0x05 then false
    else
      let nMethods := b₁.toNat
      if nMethods == 0 || decide (rest.length < nMethods) then false
      else (rest.take nMethods).any fun method => method == 0x00 || method == 0x02
  | _ => false

def detectBlockedProtocol (data : List UInt8) (policy : ProtocolPolicy) : String :=
  if policy.blockHTTP && detectHTTPProtocol data then "http"
  else if policy.blockTLS && detectTLSProtocol data then "tls"
  else if policy.blockSocks && detectSocksProtocol data then "socks"
  else ""

/-! ## A session -/

/-- What a session has written to the exit, and the protocol it was ended for. -/
structure Session where
  frames : List (List UInt8)
  proto : String

def Session.blocked (session : Session) : Bool := session.proto != ""

def ProtocolPolicy.enabled (policy : ProtocolPolicy) : Bool :=
  policy.blockHTTP || policy.blockSocks || policy.blockTLS

/-- `inspect`: the sample afterwards, and the protocol. -/
def inspect (policy : ProtocolPolicy) (sample chunk : List UInt8) : List UInt8 × String :=
  if !policy.enabled || chunk.isEmpty || decide (fxpProtocolSampleMax ≤ sample.length) then (sample, "")
  else
    let sample := sample ++ chunk.take (fxpProtocolSampleMax - sample.length)
    (sample, detectBlockedProtocol sample policy)

/-- The loop of `copyPlainToSecureWithPolicy`, up to the end of the stream. A read without bytes and
without an error goes on to the next one. -/
def copyLoop (policy : ProtocolPolicy) : List UInt8 → List (List UInt8) → Session
  | _, [] => { frames := [[]], proto := "" }
  | sample, chunk :: reads =>
    if chunk.isEmpty then copyLoop policy sample reads
    else
      let inspected := inspect policy sample chunk
      if inspected.2 != "" then { frames := [], proto := inspected.2 }
      else
        let session := copyLoop policy inspected.1 reads
        { session with frames := chunk :: session.frames }

def copyPlainToSecureWithPolicy (policy : ProtocolPolicy) (initialSample : List UInt8)
    (reads : List (List UInt8)) : Session :=
  copyLoop policy (initialSample.take fxpProtocolSampleMax) reads

/-- `handleEntryTCP` from the first chunk on: empty when the first read has timed out. -/
def handleEntryTCP (policy : ProtocolPolicy) (first : List UInt8) (reads : List (List UInt8)) : Session :=
  if first.isEmpty then copyPlainToSecureWithPolicy policy first reads
  else
    let proto := detectBlockedProtocol first policy
    if proto != "" then { frames := [], proto := proto }
    else
      let session := copyPlainToSecureWithPolicy policy first reads
      { session with frames := first :: session.frames }

/-- The buffer of `readInitialTCPPayload`. -/
def initialPayloadMax : ℕ := 4096

/-- The buffer of `copyPlainToSecureWithPolicy`. -/
def copyBufferSize : ℕ := 32 * 1024

/-- A way of cutting a stream into reads. With a PROXY header of `header` bytes in front, the first read
has that much less of it. -/
structure Cut (header : ℕ) (stream : List UInt8) where
  first : List UInt8
  reads : List (List UInt8)
  first_le : first.length ≤ initialPayloadMax - header
  reads_le : ∀ chunk ∈ reads, chunk.length ≤ copyBufferSize
  bytes : first ++ reads.flatten = stream

def Cut.session {header : ℕ} {stream : List UInt8} (policy : ProtocolPolicy) (cut : Cut header stream) :
    Session :=
  handleEntryTCP policy cut.first cut.reads


/-! ## The first CR LF -/

section

variable {sep data : List UInt8} {i : ℕ}

theorem bytesIndex_some (h : bytesIndex sep data = some i) : sep <+: data.drop i := by
  induction data generalizing i with
  | nil =>
    rw [bytesIndex] at h
    split at h
    · rename_i hempty
      rw [isEmpty_iff.mp hempty]
      exact nil_prefix
    · cases h
  | cons b rest ih =>
    rw [bytesIndex] at h
    split at h
    · rename_i hfront
      obtain rfl := Option.some.inj h
      exact isPrefixOf_iff_prefix.mp hfront
    · obtain ⟨j, hj, rfl⟩ := Option.map_eq_some_iff.mp h
      exact ih hj

theorem bytesIndex_append (tail : List UInt8) (h : bytesIndex sep data = some i) :
    bytesIndex sep (data ++ tail) = some i := by
  induction data generalizing i with
  | nil =>
    rw [bytesIndex] at h
    split at h
    · rename_i hempty
      obtain rfl := isEmpty_iff.mp hempty
      obtain rfl := Option.some.inj h
      cases tail <;> rfl
    · cases h
  | cons b rest ih =>
    rw [cons_append, bytesIndex]
    rw [bytesIndex] at h
    by_cases hfront : sep.isPrefixOf (b :: rest) = true
    · rw [if_pos hfront] at h
      have hlong : sep <+: b :: (rest ++ tail) :=
        (List.isPrefixOf_iff_prefix.mp hfront).trans (prefix_append (b :: rest) tail)
      rw [if_pos (List.isPrefixOf_iff_prefix.mpr hlong), h]
    · rw [if_neg hfront] at h
      obtain ⟨j, hj, rfl⟩ := Option.map_eq_some_iff.mp h
      have hlength : sep.length ≤ (b :: rest).length := by
        have hle := (bytesIndex_some hj).length_le
        rw [length_drop] at hle
        rw [length_cons]
        omega
      have hnot : ¬ sep.isPrefixOf (b :: (rest ++ tail)) = true := by
        intro hlong
        refine hfront (List.isPrefixOf_iff_prefix.mpr ?_)
        exact prefix_of_prefix_length_le (List.isPrefixOf_iff_prefix.mp hlong)
          (prefix_append (b :: rest) tail) hlength
      rw [if_neg hnot, ih hj]
      rfl

theorem bytesIndex_crlf_line {line : List UInt8} (tail : List UInt8) (h : (0x0d : UInt8) ∉ line) :
    bytesIndex crlf (line ++ crlf ++ tail) = some line.length := by
  refine bytesIndex_append tail ?_
  induction line with
  | nil => rfl
  | cons b line ih =>
    have hnot : ¬ crlf.isPrefixOf (b :: (line ++ crlf)) = true := by
      intro hfront
      obtain ⟨rest, hrest⟩ := isPrefixOf_iff_prefix.mp hfront
      exact h (mem_cons.mpr (.inl (List.cons.inj hrest).1))
    rw [cons_append, bytesIndex, if_neg hnot, ih fun hmem => h (mem_cons_of_mem b hmem)]
    rfl

theorem bytesIndex_of_mem_none (h : bytesIndex crlf data = none) (line tail : List UInt8) :
    data ≠ line ++ crlf ++ tail := by
  rintro rfl
  induction line with
  | nil => cases h
  | cons b line ih =>
    rw [cons_append, cons_append, bytesIndex] at h
    split at h
    · cases h
    · exact ih (Option.map_eq_none_iff.mp h)

end

/-! ## Request lines -/

/-- A request line as far as the data has it. -/
structure RequestLine (data method target rest : List UInt8) : Prop where
  data_eq : data = method ++ 0x20 :: (target ++ rest)
  method_mem : method ∈ httpMethods
  graphic : ∀ b ∈ target, 0x21 ≤ b ∧ b ≤ 0x7e
  follows : rest = [] ∨ ∃ tail, rest = 0x20 :: tail ∧
    ∃ known ∈ httpVersions, tail <+: known ++ crlf ∨ known ++ crlf <+: tail

theorem space_not_mem_method : ∀ method ∈ httpMethods, (0x20 : UInt8) ∉ method ∧ (0x0d : UInt8) ∉ method ∧
    (0x0a : UInt8) ∉ method ∧ method.length ≤ 7 := by
  decide

theorem space_not_mem_version : ∀ known ∈ httpVersions, (0x20 : UInt8) ∉ known ++ crlf ∧
    (0x0d : UInt8) ∉ known ∧ (0x0a : UInt8) ∉ known ++ [0x0d] := by
  decide

theorem graphic_of_valid {method target : List UInt8} (h : validHTTPRequestTarget method target = true) :
    ∀ b ∈ target, 0x21 ≤ b ∧ b ≤ 0x7e := by
  intro b hb
  unfold validHTTPRequestTarget at h
  split at h
  · cases h
  · split at h
    · cases h
    · rename_i hany
      have hb' : ¬ (decide (b < 0x21) || decide (b > 0x7e)) = true := fun hbad =>
        hany (any_eq_true.mpr ⟨b, hb, hbad⟩)
      rw [Bool.or_eq_true, decide_eq_true_eq, decide_eq_true_eq, not_or] at hb'
      exact ⟨UInt8.not_lt.mp hb'.1, UInt8.not_lt.mp hb'.2⟩

theorem not_mem_of_graphic {target : List UInt8} (h : ∀ b ∈ target, 0x21 ≤ b ∧ b ≤ 0x7e) :
    (0x20 : UInt8) ∉ target ∧ (0x0d : UInt8) ∉ target ∧ (0x0a : UInt8) ∉ target :=
  ⟨fun hmem => absurd (h _ hmem).1 (by decide), fun hmem => absurd (h _ hmem).1 (by decide),
    fun hmem => absurd (h _ hmem).1 (by decide)⟩

theorem validRequestLine_iff {complete : Bool} {parts : List (List UInt8)} :
    validRequestLine complete parts = true ↔ ∃ method target, method ∈ httpMethods ∧
      validHTTPRequestTarget method target = true ∧ ((complete = false ∧ parts = [method, target]) ∨
        ∃ version, parts = [method, target, version] ∧ if complete = true then version ∈ httpVersions
          else ∃ known ∈ httpVersions, version <+: known ++ crlf) := by
  constructor
  · intro h
    unfold validRequestLine at h
    split at h
    · rename_i method target rest
      split at h
      · cases h
      · rename_i hcount
        split at h
        · cases h
        · rename_i hmethod
          split at h
          · cases h
          · rename_i htarget
            rw [Bool.not_eq_true', Bool.not_eq_false] at hmethod htarget
            refine ⟨method, target, contains_iff_mem.mp hmethod, htarget, ?_⟩
            split at h
            · refine .inl ⟨?_, rfl⟩
              cases complete with
              | false => rfl
              | true => exact absurd rfl hcount
            · rename_i version more
              have hmore : more = [] := by
                cases more with
                | nil => rfl
                | cons next more => exact absurd rfl hcount
              rw [hmore]
              refine .inr ⟨version, rfl, ?_⟩
              split
              · rename_i hcomplete
                rw [if_pos hcomplete] at h
                exact contains_iff_mem.mp h
              · rename_i hcomplete
                rw [if_neg hcomplete] at h
                obtain ⟨known, hknown, hfront⟩ := any_eq_true.mp h
                exact ⟨known, hknown, isPrefixOf_iff_prefix.mp hfront⟩
    · cases h
  · rintro ⟨method, target, hmethod, htarget, ⟨rfl, rfl⟩ | ⟨version, rfl, hversion⟩⟩
    · unfold validRequestLine
      dsimp only
      rw [contains_iff_mem.mpr hmethod, htarget]
      rfl
    · unfold validRequestLine
      dsimp only
      rw [contains_iff_mem.mpr hmethod, htarget]
      cases complete with
      | false =>
        obtain ⟨known, hknown, hfront⟩ := hversion
        exact any_eq_true.mpr ⟨known, hknown, isPrefixOf_iff_prefix.mpr hfront⟩
      | true => exact contains_iff_mem.mpr hversion

theorem eq_of_splitOn {line method : List UInt8} {parts : List (List UInt8)} {target : List UInt8}
    (h : line.splitOn 0x20 = method :: target :: parts) :
    line = method ++ 0x20 :: [(0x20 : UInt8)].intercalate (target :: parts) := by
  have hline : [(0x20 : UInt8)].intercalate (line.splitOn 0x20) = line := intercalate_splitOn 0x20
  rw [h, intercalate_cons_cons] at hline
  rw [← hline, append_assoc]
  rfl

section

variable {data method target rest : List UInt8}

theorem RequestLine.not_mem (h : RequestLine data method target rest) :
    (0x20 : UInt8) ∉ method ∧ (0x20 : UInt8) ∉ target ∧ (0x0d : UInt8) ∉ method ++ 0x20 :: target ∧
      (0x0a : UInt8) ∉ method ++ 0x20 :: target := by
  obtain ⟨hspace, hcr, hlf, -⟩ := space_not_mem_method method h.method_mem
  obtain ⟨hspace', hcr', hlf'⟩ := not_mem_of_graphic h.graphic
  refine ⟨hspace, hspace', fun hmem => ?_, fun hmem => ?_⟩
  · obtain hleft | hright := mem_append.mp hmem
    · exact hcr hleft
    · obtain heq | hright := mem_cons.mp hright
      · exact absurd heq (by decide)
      · exact hcr' hright
  · obtain hleft | hright := mem_append.mp hmem
    · exact hlf hleft
    · obtain heq | hright := mem_cons.mp hright
      · exact absurd heq (by decide)
      · exact hlf' hright

theorem RequestLine.verdict (h : RequestLine data method target rest)
    (htarget : validHTTPRequestTarget method target = true) :
    validRequestLine (bytesIndex crlf data).isSome
      ((data.take ((bytesIndex crlf data).getD data.length)).splitOn 0x20) = true := by
  obtain ⟨hspace, hspace', hcr, hlf⟩ := h.not_mem
  obtain hnil | ⟨tail, htail, known, hknown, hfollows⟩ := h.follows
  · have hdata : data = method ++ 0x20 :: target := by
      rw [h.data_eq, hnil, append_nil]
    have hindex : bytesIndex crlf data = none := by
      refine Option.eq_none_iff_forall_ne_some.mpr fun i hi => hcr ?_
      rw [← hdata]
      exact mem_of_mem_drop ((bytesIndex_some hi).subset mem_cons_self)
    rw [hindex, Option.getD_none, take_length, hdata]
    refine validRequestLine_iff.mpr ⟨method, target, h.method_mem, htarget, .inl ⟨rfl, ?_⟩⟩
    rw [splitOn_append_cons_self_of_not_mem hspace, splitOn_eq_singleton hspace']
  · obtain ⟨hspaceKnown, hcrKnown, hlfKnown⟩ := space_not_mem_version known hknown
    have hdata : data = (method ++ 0x20 :: target) ++ 0x20 :: tail := by
      rw [h.data_eq, htail, append_assoc]
      rfl
    have hclosed : known ++ crlf <+: tail → validRequestLine (bytesIndex crlf data).isSome
        ((data.take ((bytesIndex crlf data).getD data.length)).splitOn 0x20) = true := by
      rintro ⟨more, hmore⟩
      have hline : data = (method ++ 0x20 :: (target ++ 0x20 :: known)) ++ crlf ++ more := by
        rw [hdata, ← hmore]
        simp only [append_assoc, cons_append]
      have hindex : bytesIndex crlf data = some (method ++ 0x20 :: (target ++ 0x20 :: known)).length := by
        rw [hline]
        refine bytesIndex_crlf_line more fun hmem => ?_
        rw [show method ++ 0x20 :: (target ++ 0x20 :: known) = (method ++ 0x20 :: target) ++ 0x20 :: known by
          simp only [append_assoc, cons_append]] at hmem
        obtain hleft | hright := mem_append.mp hmem
        · exact hcr hleft
        · obtain heq | hright := mem_cons.mp hright
          · exact absurd heq (by decide)
          · exact hcrKnown hright
      rw [hindex, Option.getD_some, hline, append_assoc, take_left']
      refine validRequestLine_iff.mpr ⟨method, target, h.method_mem, htarget, .inr ⟨known, ?_, ?_⟩⟩
      · have hspaceVersion : (0x20 : UInt8) ∉ known := fun hmem => hspaceKnown (mem_append_left _ hmem)
        rw [splitOn_append_cons_self_of_not_mem hspace, splitOn_append_cons_self_of_not_mem hspace',
          splitOn_eq_singleton hspaceVersion]
      · exact hknown
      · rfl
    obtain hopen | hclose := hfollows
    · cases hindex : bytesIndex crlf data with
      | none =>
        rw [Option.getD_none, take_length, h.data_eq, htail]
        refine validRequestLine_iff.mpr
          ⟨method, target, h.method_mem, htarget, .inr ⟨tail, ?_, known, hknown, hopen⟩⟩
        have hspaceTail : (0x20 : UInt8) ∉ tail := fun hmem => hspaceKnown (hopen.subset hmem)
        rw [splitOn_append_cons_self_of_not_mem hspace, splitOn_append_cons_self_of_not_mem hspace',
          splitOn_eq_singleton hspaceTail]
      | some i =>
        rw [← hindex]
        refine hclosed ?_
        -- the LF is in the data, so the beginning of the version goes up to it
        have hmem : (0x0a : UInt8) ∈ data :=
          mem_of_mem_drop ((bytesIndex_some hindex).subset (mem_cons_of_mem _ mem_cons_self))
        have htailMem : (0x0a : UInt8) ∈ tail := by
          rw [hdata] at hmem
          obtain hleft | hright := mem_append.mp hmem
          · exact absurd hleft hlf
          · obtain heq | hright := mem_cons.mp hright
            · exact absurd heq (by decide)
            · exact hright
        have hsplit : tail <+: (known ++ [0x0d]) ++ [0x0a] := by
          rw [append_assoc]
          exact hopen
        obtain hall | hshort := prefix_concat_iff.mp hsplit
        · rw [hall, append_assoc]
          exact prefix_rfl
        · exact absurd (hshort.subset htailMem) hlfKnown
    · exact hclosed hclose

theorem requestLine_of_verdict (h : validRequestLine (bytesIndex crlf data).isSome
    ((data.take ((bytesIndex crlf data).getD data.length)).splitOn 0x20) = true) :
    ∃ method target rest, RequestLine data method target rest ∧ validHTTPRequestTarget method target = true := by
  obtain ⟨method, target, hmethod, htarget, hparts⟩ := validRequestLine_iff.mp h
  have hgraphic := graphic_of_valid htarget
  cases hindex : bytesIndex crlf data with
  | none =>
    rw [hindex, Option.getD_none, take_length] at hparts
    obtain ⟨-, hparts⟩ | ⟨version, hparts, hversion⟩ := hparts
    · refine ⟨method, target, [], ⟨?_, hmethod, hgraphic, .inl rfl⟩, htarget⟩
      rw [append_nil, eq_of_splitOn hparts, intercalate_singleton]
    · obtain ⟨known, hknown, hopen⟩ := hversion
      refine ⟨method, target, 0x20 :: version,
        ⟨?_, hmethod, hgraphic, .inr ⟨version, rfl, known, hknown, .inl hopen⟩⟩, htarget⟩
      rw [eq_of_splitOn hparts]
      simp only [intercalate_cons_cons, intercalate_singleton, append_assoc, cons_append,
        nil_append]
  | some i =>
    rw [hindex, Option.getD_some] at hparts
    obtain ⟨hfalse, -⟩ | ⟨version, hparts, hversion⟩ := hparts
    · cases hfalse
    · have hknown : version ∈ httpVersions := hversion
      obtain ⟨more, hmore⟩ := bytesIndex_some hindex
      refine ⟨method, target, 0x20 :: (version ++ crlf ++ more),
        ⟨?_, hmethod, hgraphic, .inr ⟨_, rfl, version, hknown, .inr (prefix_append _ _)⟩⟩, htarget⟩
      calc data = data.take i ++ data.drop i := (take_append_drop i data).symm
        _ = (method ++ 0x20 :: (target ++ 0x20 :: version)) ++ (crlf ++ more) := by
          rw [← hmore, eq_of_splitOn hparts]
          simp only [intercalate_cons_cons, intercalate_singleton, cons_append, nil_append,
            append_assoc]
        _ = method ++ 0x20 :: (target ++ 0x20 :: (version ++ crlf ++ more)) := by
          simp only [append_assoc, cons_append]

theorem detectHTTPProtocol_iff (hpreface : ¬ http2Preface <+: data) (hfull : fxpProtocolSampleMax ≤ data.length) :
    detectHTTPProtocol data = true ↔ ∃ method target rest, RequestLine data method target rest ∧
      validHTTPRequestTarget method target = true := by
  have hmin : ¬ data.length < (bytesOf "GET / HTTP/1.0\r\n").length := by
    have hsmall : (bytesOf "GET / HTTP/1.0\r\n").length ≤ fxpProtocolSampleMax := by decide
    omega
  have hshort : ¬ (!(bytesIndex crlf data).isSome && decide (data.length < fxpProtocolSampleMax)) = true := by
    rw [decide_eq_false (not_lt.mpr hfull), Bool.and_false]
    exact Bool.false_ne_true
  unfold detectHTTPProtocol
  dsimp only
  rw [if_neg fun h => hpreface (List.isPrefixOf_iff_prefix.mp h), if_neg hmin, if_neg hshort]
  refine ⟨requestLine_of_verdict, ?_⟩
  rintro ⟨method, target, rest, hline, htarget⟩
  exact hline.verdict htarget

end

/-! ## The front of a request line -/

section

variable {data method target rest : List UInt8} {n : ℕ}

theorem RequestLine.take (h : RequestLine data method target rest) (hn : method.length + 1 ≤ n) :
    RequestLine (data.take n) method (target.take (n - (method.length + 1)))
      (rest.take (n - (method.length + 1) - target.length)) where
  data_eq := by
    obtain ⟨k, rfl⟩ := Nat.exists_eq_add_of_le hn
    have hk : method.length + 1 + k - method.length = k + 1 := by omega
    rw [h.data_eq, take_append, take_of_length_le (by omega), hk, take_succ_cons,
      take_append, Nat.add_sub_cancel_left]
  method_mem := h.method_mem
  graphic := fun b hb => h.graphic b (mem_of_mem_take hb)
  follows := by
    generalize n - (method.length + 1) - target.length = k
    cases k with
    | zero => exact .inl rfl
    | succ k =>
      obtain rfl | ⟨tail, rfl, known, hknown, hfollows⟩ := h.follows
      · exact .inl rfl
      · refine .inr ⟨tail.take k, rfl, known, hknown, ?_⟩
        obtain hopen | hclose := hfollows
        · exact .inl ((List.take_prefix k tail).trans hopen)
        · exact prefix_or_prefix_of_prefix (List.take_prefix k tail) hclose

theorem RequestLine.unique {method' target' rest' : List UInt8} (h : RequestLine data method target rest)
    (h' : RequestLine data method' target' rest') : method = method' ∧ target = target' := by
  have hfields : ∀ {method target rest : List UInt8}, RequestLine data method target rest →
      data.splitOn 0x20 = method :: (target ++ rest).splitOn 0x20 ∧
        ((target ++ rest).splitOn 0x20).head? = some target := by
    intro method target rest h
    obtain ⟨hspace, hspace', -⟩ := h.not_mem
    refine ⟨?_, ?_⟩
    · rw [h.data_eq]
      exact splitOn_append_cons_self_of_not_mem hspace _
    · obtain hnil | ⟨tail, htail, -⟩ := h.follows
      · rw [hnil, append_nil, splitOn_eq_singleton hspace']
        rfl
      · rw [htail, splitOn_append_cons_self_of_not_mem hspace']
        rfl
  obtain ⟨hparts, hhead⟩ := hfields h
  obtain ⟨hparts', hhead'⟩ := hfields h'
  obtain ⟨hmethod, htargets⟩ := List.cons.inj (hparts.symm.trans hparts')
  rw [htargets] at hhead
  exact ⟨hmethod, Option.some.inj (hhead.symm.trans hhead')⟩

theorem validHTTPRequestTarget_take {k : ℕ} (h : validHTTPRequestTarget method target = true) (hk : 8 ≤ k)
    (hport : method = connect → (0x3a : UInt8) ∈ target.take k) :
    validHTTPRequestTarget method (target.take k) = true := by
  by_cases hshort : target.length ≤ k
  · rw [take_of_length_le hshort]
    exact h
  have hlength : (target.take k).length = k := by
    rw [length_take]
    omega
  have hstar : ¬ (target.take k == bytesOf "*") = true := by
    intro heq
    rw [beq_iff_eq.mp heq] at hlength
    have hone : (bytesOf "*").length = 1 := by decide
    omega
  have hempty : ¬ (target.take k).isEmpty = true := by
    intro hnil
    rw [isEmpty_iff.mp hnil, length_nil] at hlength
    omega
  have hany : ¬ ((target.take k).any fun value => value < 0x21 || value > 0x7e) = true := by
    intro hbad
    obtain ⟨b, hb, hbad⟩ := any_eq_true.mp hbad
    obtain ⟨hlow, hhigh⟩ := graphic_of_valid h b (mem_of_mem_take hb)
    rw [Bool.or_eq_true, decide_eq_true_eq, decide_eq_true_eq] at hbad
    exact hbad.elim (UInt8.not_lt.mpr hlow) (UInt8.not_lt.mpr hhigh)
  have hscheme : ∀ scheme : List UInt8, scheme.length ≤ 8 → scheme.isPrefixOf (toLower target) = true →
      scheme.isPrefixOf (toLower (target.take k)) = true := by
    intro scheme hle hfront
    have htake : toLower (target.take k) = (toLower target).take k := map_take
    rw [htake]
    exact isPrefixOf_iff_prefix.mpr
      (prefix_take_iff.mpr ⟨List.isPrefixOf_iff_prefix.mp hfront, le_trans hle hk⟩)
  unfold validHTTPRequestTarget at h ⊢
  dsimp only at h ⊢
  rw [if_neg hempty, if_neg hany]
  split at h
  · cases h
  split at h
  · cases h
  by_cases hconnect : (method == connect) = true
  · rw [if_pos hconnect]
    exact contains_iff_mem.mpr (hport (beq_iff_eq.mp hconnect))
  rw [if_neg hconnect] at h ⊢
  rw [if_neg hstar]
  split at h
  · rename_i hwhole
    have hone : (bytesOf "*").length = 1 := by decide
    have htarget := congrArg List.length (beq_iff_eq.mp hwhole)
    omega
  have hhead : (target.take k).head? = target.head? := by
    rw [head?_take, if_neg (by omega)]
  rw [hhead]
  split
  · rfl
  · rename_i hslash
    rw [if_neg hslash, Bool.or_eq_true] at h
    rw [Bool.or_eq_true]
    exact h.imp (hscheme _ (by decide)) (hscheme _ (by decide))

theorem port_of_valid (h : validHTTPRequestTarget connect target = true) : (0x3a : UInt8) ∈ target := by
  unfold validHTTPRequestTarget at h
  split at h
  · cases h
  split at h
  · cases h
  rw [if_pos (beq_self_eq_true connect)] at h
  exact contains_iff_mem.mp h

theorem valid_of_port (hgraphic : ∀ b ∈ target, 0x21 ≤ b ∧ b ≤ 0x7e) (hport : (0x3a : UInt8) ∈ target) :
    validHTTPRequestTarget connect target = true := by
  have hempty : ¬ target.isEmpty = true := by
    intro hnil
    rw [isEmpty_iff.mp hnil] at hport
    cases hport
  have hany : ¬ (target.any fun value => value < 0x21 || value > 0x7e) = true := by
    intro hbad
    obtain ⟨b, hb, hbad⟩ := any_eq_true.mp hbad
    rw [Bool.or_eq_true, decide_eq_true_eq, decide_eq_true_eq] at hbad
    exact hbad.elim (UInt8.not_lt.mpr (hgraphic b hb).1) (UInt8.not_lt.mpr (hgraphic b hb).2)
  unfold validHTTPRequestTarget
  rw [if_neg hempty, if_neg hany, if_pos (beq_self_eq_true connect)]
  exact contains_iff_mem.mpr hport

end

/-! ## A request line that goes on after the sample -/

/-- A `CONNECT` whose port begins after the sample. -/
def LatePort (data : List UInt8) : Prop :=
  ∃ host rest, data = connect ++ 0x20 :: (host ++ 0x3a :: rest) ∧
    (∀ b ∈ host, (0x21 ≤ b ∧ b ≤ 0x7e) ∧ b ≠ 0x3a) ∧ fxpProtocolSampleMax ≤ connect.length + 1 + host.length

section

variable {data : List UInt8} {n : ℕ}

theorem not_preface_of_sample (hopen : bytesIndex crlf (data.take fxpProtocolSampleMax) = none) :
    ¬ http2Preface <+: data.take n := by
  intro hfront
  have hsmall : http2Preface.length ≤ fxpProtocolSampleMax := by decide
  have hsample : http2Preface <+: data.take fxpProtocolSampleMax :=
    prefix_take_iff.mpr ⟨hfront.trans (List.take_prefix n data), hsmall⟩
  obtain ⟨more, hmore⟩ := hsample
  have hline : http2Preface = bytesOf "PRI * HTTP/2.0" ++ crlf ++ bytesOf "\r\nSM\r\n\r\n" := by decide
  refine bytesIndex_of_mem_none hopen (bytesOf "PRI * HTTP/2.0") (bytesOf "\r\nSM\r\n\r\n" ++ more) ?_
  rw [← hmore, hline]
  simp only [append_assoc]

theorem detect_iff_line (hopen : bytesIndex crlf (data.take fxpProtocolSampleMax) = none)
    (hn : fxpProtocolSampleMax ≤ n) (hlength : n ≤ data.length) :
    detectHTTPProtocol (data.take n) = true ↔ ∃ method target rest,
      RequestLine (data.take n) method target rest ∧ validHTTPRequestTarget method target = true :=
  detectHTTPProtocol_iff (not_preface_of_sample hopen) (by rw [length_take]; omega)

theorem RequestLine.shorter {method target rest : List UInt8} {m : ℕ}
    (h : RequestLine (data.take n) method target rest) (hm : fxpProtocolSampleMax ≤ m) (hmn : m ≤ n) :
    RequestLine (data.take m) method (target.take (m - (method.length + 1)))
      (rest.take (m - (method.length + 1) - target.length)) := by
  have hmethod := (space_not_mem_method method h.method_mem).2.2.2
  have htake := h.take (n := m) (by unfold fxpProtocolSampleMax at hm; omega)
  rw [take_take, Nat.min_eq_left hmn] at htake
  exact htake

theorem detect_sample_or_latePort (hopen : bytesIndex crlf (data.take fxpProtocolSampleMax) = none)
    (hn : fxpProtocolSampleMax ≤ n) (hlength : n ≤ data.length)
    (hdetect : detectHTTPProtocol (data.take n) = true) :
    detectHTTPProtocol (data.take fxpProtocolSampleMax) = true ∨ LatePort data := by
  obtain ⟨method, target, rest, hline, htarget⟩ := (detect_iff_line hopen hn hlength).mp hdetect
  have hmethod := (space_not_mem_method method hline.method_mem).2.2.2
  have hshorter := hline.shorter (le_refl _) hn
  have height : 8 ≤ fxpProtocolSampleMax - (method.length + 1) := by
    unfold fxpProtocolSampleMax
    omega
  by_cases hport : method = connect → (0x3a : UInt8) ∈ target.take (fxpProtocolSampleMax - (method.length + 1))
  · refine .inl ((detect_iff_line hopen (le_refl _) (le_trans hn hlength)).mpr ⟨_, _, _, hshorter, ?_⟩)
    exact validHTTPRequestTarget_take htarget height hport
  · obtain ⟨rfl, hafter⟩ := Classical.not_imp.mp hport
    obtain ⟨host, port, rfl, hhost⟩ := eq_append_cons_of_mem (port_of_valid htarget)
    refine .inr ⟨host, port ++ (rest ++ data.drop n), ?_, fun b hb => ⟨?_, ?_⟩, ?_⟩
    · calc data = data.take n ++ data.drop n := (take_append_drop n data).symm
        _ = connect ++ 0x20 :: (host ++ 0x3a :: (port ++ (rest ++ data.drop n))) := by
          rw [hline.data_eq]
          simp only [append_assoc, cons_append]
    · exact hline.graphic b (mem_append_left _ hb)
    · rintro rfl
      exact hhost hb
    · by_contra hearly
      refine hafter (mem_take_iff_getElem.mpr ⟨host.length, ?_, ?_⟩)
      · rw [length_append, length_cons]
        omega
      · exact getElem_of_append rfl rfl

theorem LatePort.detect (h : LatePort data) (hopen : bytesIndex crlf (data.take fxpProtocolSampleMax) = none) :
    detectHTTPProtocol (data.take fxpProtocolSampleMax) = false ∧
      ∃ n, fxpProtocolSampleMax < n ∧ n ≤ data.length ∧ detectHTTPProtocol (data.take n) = true := by
  obtain ⟨host, rest, hdata, hhost, hlate⟩ := h
  have hlength : data.length = connect.length + 1 + host.length + 1 + rest.length := by
    rw [hdata]
    simp only [length_append, length_cons]
    omega
  have htake : data.take (connect.length + 1 + host.length + 1) = connect ++ 0x20 :: ((host ++ [0x3a]) ++ []) := by
    rw [hdata, append_nil]
    have hsplit : connect ++ 0x20 :: (host ++ 0x3a :: rest) =
        (connect ++ 0x20 :: (host ++ [0x3a])) ++ rest := by
      simp only [append_assoc, cons_append, nil_append]
    rw [hsplit, take_left']
    simp only [length_append, length_cons, length_nil]
    omega
  have hline : RequestLine (data.take (connect.length + 1 + host.length + 1)) connect (host ++ [0x3a]) [] := by
    refine ⟨htake, by decide, fun b hb => ?_, .inl rfl⟩
    obtain hleft | hright := mem_append.mp hb
    · exact (hhost b hleft).1
    · rw [mem_singleton.mp hright]
      decide
  refine ⟨Bool.eq_false_iff.mpr fun hdetect => ?_, connect.length + 1 + host.length + 1, by omega, by omega, ?_⟩
  · obtain ⟨method, target, rest', hfront, htarget⟩ := (detect_iff_line hopen (le_refl _) (by omega)).mp hdetect
    have hshorter := hline.shorter (le_refl fxpProtocolSampleMax) (by omega)
    obtain ⟨rfl, rfl⟩ := hfront.unique hshorter
    have hmem := port_of_valid htarget
    rw [take_append_of_le_length (by omega)] at hmem
    exact (hhost _ (mem_of_mem_take hmem)).2 rfl
  · refine (detect_iff_line hopen (by omega) (by omega)).mpr ⟨_, _, _, hline, ?_⟩
    exact valid_of_port hline.graphic (mem_append_right _ mem_cons_self)

theorem detect_between (hopen : bytesIndex crlf (data.take fxpProtocolSampleMax) = none)
    (hsample : detectHTTPProtocol (data.take fxpProtocolSampleMax) = true)
    (hall : detectHTTPProtocol data = true) (hn : fxpProtocolSampleMax ≤ n) (hlength : n ≤ data.length) :
    detectHTTPProtocol (data.take n) = true := by
  have hwhole : data.take data.length = data := take_length
  rw [← hwhole] at hall
  obtain ⟨method, target, rest, hline, htarget⟩ :=
    (detect_iff_line hopen (le_trans hn hlength) (le_refl _)).mp hall
  obtain ⟨method', target', rest', hfront, htarget'⟩ :=
    (detect_iff_line hopen (le_refl _) (le_trans hn hlength)).mp hsample
  have hmethod := (space_not_mem_method method hline.method_mem).2.2.2
  obtain ⟨rfl, rfl⟩ := hfront.unique (hline.shorter (le_refl _) (le_trans hn hlength))
  refine (detect_iff_line hopen hn hlength).mpr ⟨_, _, _, hline.shorter hn hlength, ?_⟩
  refine validHTTPRequestTarget_take htarget (by unfold fxpProtocolSampleMax at hn; omega) ?_
  rintro rfl
  exact (take_subset_take_left target (by omega)) (port_of_valid htarget')

end

/-! ## What the sample decides -/

section

variable {data longer : List UInt8} {policy : ProtocolPolicy}

theorem validRequestLine_append {i : ℕ} (tail : List UInt8) (h : bytesIndex crlf data = some i) :
    validRequestLine (bytesIndex crlf (data ++ tail)).isSome
        (((data ++ tail).take ((bytesIndex crlf (data ++ tail)).getD (data ++ tail).length)).splitOn 0x20) =
      validRequestLine (bytesIndex crlf data).isSome
        ((data.take ((bytesIndex crlf data).getD data.length)).splitOn 0x20) := by
  have hle : i ≤ data.length := by
    have hlength := (bytesIndex_some h).length_le
    rw [length_drop] at hlength
    have htwo : crlf.length = 2 := rfl
    omega
  rw [bytesIndex_append tail h, h, Option.getD_some, Option.getD_some, take_append_of_le_length hle]

theorem detectHTTPProtocol_append {i : ℕ} (tail : List UInt8) (h : bytesIndex crlf data = some i)
    (hlength : http2Preface.length ≤ data.length) : detectHTTPProtocol (data ++ tail) = detectHTTPProtocol data := by
  have hpreface : http2Preface.isPrefixOf (data ++ tail) = http2Preface.isPrefixOf data := by
    rw [Bool.eq_iff_iff, isPrefixOf_iff_prefix, isPrefixOf_iff_prefix]
    exact ⟨fun hlong => prefix_of_prefix_length_le hlong (prefix_append data tail) hlength,
      fun hshort => hshort.trans (prefix_append data tail)⟩
  have hmin : (bytesOf "GET / HTTP/1.0\r\n").length ≤ http2Preface.length := by decide
  have hshort : ¬ data.length < (bytesOf "GET / HTTP/1.0\r\n").length := by omega
  have hlong : ¬ (data ++ tail).length < (bytesOf "GET / HTTP/1.0\r\n").length := by
    rw [length_append]
    omega
  unfold detectHTTPProtocol
  dsimp only
  rw [hpreface, if_neg hshort, if_neg hlong, validRequestLine_append tail h, bytesIndex_append tail h, h]
  rfl

section

variable (hfront : data <+: longer)

include hfront

theorem detectHTTPProtocol_mono (hmax : longer.length ≤ fxpProtocolSampleMax)
    (h : detectHTTPProtocol data = true) : detectHTTPProtocol longer = true := by
  obtain ⟨tail, rfl⟩ := hfront
  by_cases hpreface : http2Preface.isPrefixOf (data ++ tail) = true
  · unfold detectHTTPProtocol
    rw [if_pos hpreface]
  cases hindex : bytesIndex crlf data with
  | some i =>
    unfold detectHTTPProtocol at h ⊢
    dsimp only at h ⊢
    have hnot : ¬ http2Preface.isPrefixOf data = true := fun hshort =>
      hpreface (List.isPrefixOf_iff_prefix.mpr
        ((List.isPrefixOf_iff_prefix.mp hshort).trans (prefix_append data tail)))
    rw [if_neg hnot] at h
    rw [if_neg hpreface]
    split at h
    · cases h
    · rename_i hlength
      rw [if_neg (by rw [length_append]; omega)]
      rw [validRequestLine_append tail hindex, bytesIndex_append tail hindex]
      rw [hindex] at h ⊢
      exact h
  | none =>
    -- without a CR LF the data is the preface, or fills the sample
    by_cases hfull : data.length < fxpProtocolSampleMax
    · unfold detectHTTPProtocol at h
      dsimp only at h
      split at h
      · rename_i hshort
        exact absurd (List.isPrefixOf_iff_prefix.mpr
          ((List.isPrefixOf_iff_prefix.mp hshort).trans (prefix_append data tail))) hpreface
      · split at h
        · cases h
        · rw [hindex, decide_eq_true hfull] at h
          cases h
    · have htail : tail = [] := by
        rw [length_append] at hmax
        exact length_eq_zero_iff.mp (by omega)
      rw [htail, append_nil]
      exact h

theorem detectTLSProtocol_mono (h : detectTLSProtocol data = true) : detectTLSProtocol longer = true := by
  obtain ⟨tail, rfl⟩ := hfront
  match data with
  | [] | [_] | [_, _] | [_, _, _] | [_, _, _, _] => cases h
  | _ :: _ :: _ :: _ :: _ :: _ => exact h

theorem detectSocksProtocol_mono (h : detectSocksProtocol data = true) : detectSocksProtocol longer = true := by
  obtain ⟨tail, rfl⟩ := hfront
  match data with
  | [] | [_] => cases h
  | b₀ :: b₁ :: rest =>
    rw [cons_append, cons_append]
    unfold detectSocksProtocol at h ⊢
    dsimp only at h ⊢
    split at h
    · rename_i hfour
      rw [if_pos hfour]
      rw [Bool.and_eq_true, decide_eq_true_eq] at h ⊢
      refine ⟨?_, h.2⟩
      rw [length_append]
      omega
    · rename_i hfour
      rw [if_neg hfour]
      split at h
      · cases h
      · rename_i hfive
        rw [if_neg hfive]
        split at h
        · cases h
        · rename_i hcount
          rw [Bool.or_eq_true, decide_eq_true_eq, not_or, not_lt] at hcount
          rw [if_neg, take_append_of_le_length hcount.2]
          · exact h
          · rw [Bool.or_eq_true, decide_eq_true_eq, not_or, not_lt, length_append]
            exact ⟨hcount.1, by omega⟩

theorem detectTLSProtocol_same (hlength : fxpProtocolSampleMax ≤ data.length) :
    detectTLSProtocol longer = detectTLSProtocol data := by
  obtain ⟨tail, rfl⟩ := hfront
  match data with
  | [] | [_] | [_, _] | [_, _, _] | [_, _, _, _] => exact absurd hlength (by simp [fxpProtocolSampleMax])
  | _ :: _ :: _ :: _ :: _ :: _ => rfl

theorem detectSocksProtocol_same (hlength : fxpProtocolSampleMax ≤ data.length) :
    detectSocksProtocol longer = detectSocksProtocol data := by
  obtain ⟨tail, rfl⟩ := hfront
  match data with
  | [] | [_] => exact absurd hlength (by simp [fxpProtocolSampleMax])
  | b₀ :: b₁ :: rest =>
    have hrest : 255 ≤ rest.length := by
      unfold fxpProtocolSampleMax at hlength
      rw [length_cons, length_cons] at hlength
      omega
    have hcount : b₁.toNat ≤ rest.length := le_trans (Nat.le_of_lt_succ b₁.toNat_lt) hrest
    have hlong : (rest ++ tail).length = rest.length + tail.length := length_append
    rw [cons_append, cons_append]
    unfold detectSocksProtocol
    dsimp only
    rw [take_append_of_le_length hcount, decide_eq_true (show 5 ≤ rest.length by omega),
      decide_eq_true (show 5 ≤ (rest ++ tail).length by omega),
      decide_eq_false (show ¬ rest.length < b₁.toNat by omega),
      decide_eq_false (show ¬ (rest ++ tail).length < b₁.toNat by omega)]

end

def blocks (policy : ProtocolPolicy) (data : List UInt8) : Bool := detectBlockedProtocol data policy != ""

theorem blocks_iff : blocks policy data = true ↔ (policy.blockHTTP = true ∧ detectHTTPProtocol data = true) ∨
    (policy.blockTLS = true ∧ detectTLSProtocol data = true) ∨
      (policy.blockSocks = true ∧ detectSocksProtocol data = true) := by
  rw [← Bool.and_eq_true, ← Bool.and_eq_true, ← Bool.and_eq_true]
  unfold blocks detectBlockedProtocol
  by_cases hhttp : (policy.blockHTTP && detectHTTPProtocol data) = true
  · rw [if_pos hhttp]
    exact iff_of_true (by decide) (.inl hhttp)
  rw [if_neg hhttp]
  by_cases htls : (policy.blockTLS && detectTLSProtocol data) = true
  · rw [if_pos htls]
    exact iff_of_true (by decide) (.inr (.inl htls))
  rw [if_neg htls]
  by_cases hsocks : (policy.blockSocks && detectSocksProtocol data) = true
  · rw [if_pos hsocks]
    exact iff_of_true (by decide) (.inr (.inr hsocks))
  · rw [if_neg hsocks]
    exact iff_of_false (by decide) (not_or.mpr ⟨hhttp, not_or.mpr ⟨htls, hsocks⟩⟩)

theorem blocks_mono (hfront : data <+: longer) (hmax : longer.length ≤ fxpProtocolSampleMax)
    (h : blocks policy data = true) : blocks policy longer = true := by
  rw [blocks_iff] at h ⊢
  exact h.imp (And.imp id (detectHTTPProtocol_mono hfront hmax))
    (Or.imp (And.imp id (detectTLSProtocol_mono hfront)) (And.imp id (detectSocksProtocol_mono hfront)))

theorem blocks_of_not_enabled (h : policy.enabled = false) : blocks policy data = false := by
  obtain ⟨⟨hhttp, hsocks⟩, htls⟩ :
      (policy.blockHTTP = false ∧ policy.blockSocks = false) ∧ policy.blockTLS = false := by
    unfold ProtocolPolicy.enabled at h
    rw [Bool.or_eq_false_iff, Bool.or_eq_false_iff] at h
    exact h
  unfold blocks detectBlockedProtocol
  rw [hhttp, hsocks, htls]
  rfl

theorem blocks_nil : blocks policy [] = false := by
  have hhttp : detectHTTPProtocol [] = false := by decide
  unfold blocks detectBlockedProtocol
  rw [hhttp, Bool.and_false, show detectTLSProtocol [] = false from rfl, Bool.and_false,
    show detectSocksProtocol [] = false from rfl, Bool.and_false]
  rfl

end

/-! ## The decision of a cut -/

section

variable {policy : ProtocolPolicy} {header : ℕ} {stream : List UInt8}

theorem take_take_append (sample rest : List UInt8) (n : ℕ) :
    (sample.take n ++ rest).take n = (sample ++ rest).take n := by
  by_cases hlength : sample.length ≤ n
  · rw [take_of_length_le hlength]
  · have hfull : (sample.take n).length = n := by
      rw [length_take]
      omega
    rw [take_append_of_le_length (by omega), take_append_of_le_length (by omega), take_take,
      Nat.min_self]

theorem inspect_cases (policy : ProtocolPolicy) {sample : List UInt8} (chunk : List UInt8)
    (hlength : sample.length ≤ fxpProtocolSampleMax) :
    inspect policy sample chunk = (sample, "") ∧ (policy.enabled = false ∨ chunk = [] ∨
        sample.length = fxpProtocolSampleMax) ∨
      inspect policy sample chunk = ((sample ++ chunk).take fxpProtocolSampleMax,
        detectBlockedProtocol ((sample ++ chunk).take fxpProtocolSampleMax) policy) := by
  unfold inspect
  split
  · rename_i hskip
    refine .inl ⟨rfl, ?_⟩
    rw [Bool.or_eq_true, Bool.or_eq_true, Bool.not_eq_true', List.isEmpty_iff, decide_eq_true_eq, or_assoc] at hskip
    exact hskip.imp id (Or.imp id (le_antisymm hlength))
  · refine .inr ?_
    rw [take_append, take_of_length_le hlength]

theorem copyLoop_blocked (reads : List (List UInt8)) : ∀ sample : List UInt8,
    sample.length ≤ fxpProtocolSampleMax → blocks policy sample = false →
    (copyLoop policy sample reads).blocked = blocks policy ((sample ++ reads.flatten).take fxpProtocolSampleMax) := by
  induction reads with
  | nil =>
    intro sample hlength hnot
    rw [flatten_nil, append_nil, take_of_length_le hlength, hnot]
    rfl
  | cons chunk reads ih =>
    intro sample hlength hnot
    rw [copyLoop, flatten_cons, ← append_assoc]
    split
    · rename_i hempty
      rw [isEmpty_iff.mp hempty, append_nil]
      exact ih sample hlength hnot
    · rename_i hchunk
      obtain ⟨hinspect, hwhy⟩ | hinspect := inspect_cases policy chunk hlength
      · rw [hinspect]
        show (copyLoop policy sample reads).blocked = _
        rw [ih sample hlength hnot]
        obtain hoff | rfl | hfull := hwhy
        · rw [blocks_of_not_enabled hoff, blocks_of_not_enabled hoff]
        · exact absurd rfl hchunk
        · rw [append_assoc, take_append_of_le_length (le_of_eq hfull.symm),
            take_append_of_le_length (le_of_eq hfull.symm)]
      · rw [hinspect]
        have hshort : ((sample ++ chunk).take fxpProtocolSampleMax).length ≤ fxpProtocolSampleMax :=
          length_take_le _ _
        dsimp only
        split
        · rename_i hproto
          refine (Eq.trans hproto (blocks_mono ?_ (length_take_le _ _) hproto).symm)
          exact (prefix_append (sample ++ chunk) reads.flatten).take fxpProtocolSampleMax
        · rename_i hproto
          have hstep := ih _ hshort (Bool.eq_false_iff.mpr hproto)
          rw [take_take_append] at hstep
          exact hstep

theorem copyLoop_full (reads : List (List UInt8)) {sample : List UInt8}
    (hfull : fxpProtocolSampleMax ≤ sample.length) : (copyLoop policy sample reads).blocked = false := by
  have hskip : ∀ chunk, inspect policy sample chunk = (sample, "") := by
    intro chunk
    unfold inspect
    rw [decide_eq_true hfull, Bool.or_true, if_pos rfl]
  induction reads with
  | nil => rfl
  | cons chunk reads ih =>
    rw [copyLoop, hskip]
    split
    · exact ih
    · exact ih

theorem Cut.first_eq (cut : Cut header stream) : cut.first = stream.take cut.first.length := by
  have hbytes := congrArg (List.take cut.first.length) cut.bytes
  rw [take_left'] at hbytes
  · exact hbytes
  · rfl

theorem Cut.blocked_eq (cut : Cut header stream) : (cut.session policy).blocked =
    blocks policy (stream.take (max fxpProtocolSampleMax cut.first.length)) := by
  unfold Cut.session handleEntryTCP copyPlainToSecureWithPolicy
  have hfirst := cut.first_eq
  split
  · rename_i hempty
    have hnil := isEmpty_iff.mp hempty
    have hstream : cut.reads.flatten = stream := by
      have hbytes := cut.bytes
      rw [hnil] at hbytes
      exact hbytes
    rw [hnil, take_nil, copyLoop_blocked cut.reads [] (Nat.zero_le _) blocks_nil, nil_append, hstream]
    rfl
  · dsimp only
    by_cases hlong : cut.first.length ≤ fxpProtocolSampleMax
    · rw [max_eq_left hlong, take_of_length_le hlong]
      split
      · rename_i hproto
        refine Eq.trans hproto (blocks_mono ?_ (length_take_le _ _) hproto).symm
        rw [hfirst]
        exact take_prefix_take_left hlong
      · rename_i hproto
        have hrun := copyLoop_blocked cut.reads cut.first hlong (Bool.eq_false_iff.mpr hproto)
        rw [cut.bytes] at hrun
        exact hrun
    · rw [max_eq_right (le_of_lt (not_le.mp hlong)), ← hfirst]
      split
      · rename_i hproto
        exact Eq.trans hproto (Eq.symm hproto)
      · rename_i hproto
        refine Eq.trans (copyLoop_full cut.reads ?_) (Bool.eq_false_iff.mpr hproto).symm
        rw [length_take]
        omega

/-- The cut with a first read of so many bytes and the others of one byte. -/
def cutAt (header : ℕ) (stream : List UInt8) (n : ℕ) (hn : n ≤ initialPayloadMax - header) :
    Cut header stream where
  first := stream.take n
  reads := (stream.drop n).map fun b => [b]
  first_le := le_trans (List.length_take_le n stream) hn
  reads_le := by
    intro chunk hmem
    obtain ⟨b, -, rfl⟩ := List.mem_map.mp hmem
    exact Nat.one_le_two_pow.trans (by decide : 2 ^ 0 ≤ copyBufferSize)
  bytes := by
    have hsingle : ∀ bytes : List UInt8, (bytes.map fun b => [b]).flatten = bytes := by
      intro bytes
      rw [← List.flatMap_def]
      exact List.flatMap_singleton' bytes
    rw [hsingle, List.take_append_drop]

end

/-! ## When the cut does not matter -/

/-- HTTP is not blocked, or the longest first read ends in the sample, or the request line does, or both
ends of the longest first read agree on it and no port of a `CONNECT` begins after the sample. -/
def Settled (policy : ProtocolPolicy) (largest : List UInt8) : Prop :=
  policy.blockHTTP = true → fxpProtocolSampleMax < largest.length →
    bytesIndex crlf (largest.take fxpProtocolSampleMax) = none →
    (detectHTTPProtocol (largest.take fxpProtocolSampleMax) = true → detectHTTPProtocol largest = true) ∧
      ¬ LatePort largest

section

variable {policy : ProtocolPolicy} {data : List UInt8} {n : ℕ}

theorem http_eq_of_settled (h : Settled policy data) (hpolicy : policy.blockHTTP = true)
    (hn : fxpProtocolSampleMax ≤ n) (hlength : n ≤ data.length) :
    detectHTTPProtocol (data.take n) = detectHTTPProtocol (data.take fxpProtocolSampleMax) := by
  obtain heq | hlt := Nat.eq_or_lt_of_le hn
  · rw [heq]
  cases hindex : bytesIndex crlf (data.take fxpProtocolSampleMax) with
  | some i =>
    have hsplit : data.take n = data.take fxpProtocolSampleMax ++
        (data.take n).drop fxpProtocolSampleMax := by
      have htake := (take_append_drop fxpProtocolSampleMax (data.take n)).symm
      rw [take_take, Nat.min_eq_left hn] at htake
      exact htake
    have hsmall : http2Preface.length ≤ fxpProtocolSampleMax := by decide
    rw [hsplit]
    exact detectHTTPProtocol_append _ hindex (by rw [length_take]; omega)
  | none =>
    obtain ⟨hkeeps, hport⟩ := h hpolicy (lt_of_lt_of_le hlt hlength) hindex
    rw [Bool.eq_iff_iff]
    constructor
    · intro hdetect
      exact (detect_sample_or_latePort hindex hn hlength hdetect).resolve_right hport
    · intro hsample
      exact detect_between hindex hsample (hkeeps hsample) hn hlength

theorem blocks_eq_of_settled (h : Settled policy data) (hn : fxpProtocolSampleMax ≤ n) (hlength : n ≤ data.length) :
    blocks policy (data.take n) = blocks policy (data.take fxpProtocolSampleMax) := by
  have hfront : data.take fxpProtocolSampleMax <+: data.take n := take_prefix_take_left hn
  have hfull : fxpProtocolSampleMax ≤ (data.take fxpProtocolSampleMax).length := by
    rw [length_take]
    omega
  rw [Bool.eq_iff_iff, blocks_iff, blocks_iff, detectTLSProtocol_same hfront hfull,
    detectSocksProtocol_same hfront hfull]
  refine or_congr (and_congr_right fun hpolicy => ?_) Iff.rfl
  rw [http_eq_of_settled h hpolicy hn hlength]

theorem RequestLine.no_other {method target rest : List UInt8} (h : RequestLine data method target rest) :
    detectTLSProtocol data = false ∧ detectSocksProtocol data = false := by
  have hhead : ∀ method ∈ httpMethods, ∃ b more, method = b :: more ∧ 0x41 ≤ b := by
    intro method hmem
    have hfirst : ∀ method ∈ httpMethods, (method.headD 0) ≥ 0x41 ∧ method ≠ [] := by decide
    obtain ⟨hletter, hne⟩ := hfirst method hmem
    cases method with
    | nil => exact absurd rfl hne
    | cons b more => exact ⟨b, more, rfl, hletter⟩
  obtain ⟨b, more, rfl, hletter⟩ := hhead method h.method_mem
  have hdata : data = b :: (more ++ 0x20 :: (target ++ rest)) := h.data_eq
  have hnot : ∀ c : UInt8, c < 0x41 → (b == c) = false := by
    intro c hc
    refine beq_false_of_ne ?_
    rintro rfl
    exact absurd hc (UInt8.not_lt.mpr hletter)
  rw [hdata]
  constructor
  · unfold detectTLSProtocol
    split
    · rename_i heq
      obtain ⟨rfl, -⟩ := List.cons.inj heq
      rw [hnot 0x16 (by decide)]
      rfl
    · rfl
  · unfold detectSocksProtocol
    split
    · rename_i heq
      obtain ⟨rfl, -⟩ := List.cons.inj heq
      have hfive : (b != 0x05) = true := by
        rw [bne, hnot 0x05 (by decide)]
        rfl
      rw [hnot 0x04 (by decide), if_neg Bool.false_ne_true, if_pos hfive]
    · rfl

theorem http_eq_of_blocks {m : ℕ} (hpolicy : policy.blockHTTP = true)
    (hopen : bytesIndex crlf (data.take fxpProtocolSampleMax) = none) (hm : fxpProtocolSampleMax ≤ m)
    (hmLength : m ≤ data.length) (hn : fxpProtocolSampleMax ≤ n)
    (h : blocks policy (data.take m) = blocks policy (data.take n))
    (hdetect : detectHTTPProtocol (data.take m) = true) : detectHTTPProtocol (data.take n) = true := by
  obtain ⟨method, target, rest, hline, -⟩ := (detect_iff_line hopen hm hmLength).mp hdetect
  have hmethod := (space_not_mem_method method hline.method_mem).2.2.2
  obtain ⟨htls, hsocks⟩ := (hline.shorter (le_refl _) hm).no_other
  have hfront : data.take fxpProtocolSampleMax <+: data.take n := take_prefix_take_left hn
  have hfull : fxpProtocolSampleMax ≤ (data.take fxpProtocolSampleMax).length := by
    rw [length_take]
    omega
  rw [← detectTLSProtocol_same hfront hfull] at htls
  rw [← detectSocksProtocol_same hfront hfull] at hsocks
  have hblocks : blocks policy (data.take n) = true := h ▸ blocks_iff.mpr (.inl ⟨hpolicy, hdetect⟩)
  obtain ⟨-, hhttp⟩ | ⟨-, hother⟩ | ⟨-, hother⟩ := blocks_iff.mp hblocks
  · exact hhttp
  · exact absurd (htls.symm.trans hother) (by decide)
  · exact absurd (hsocks.symm.trans hother) (by decide)

theorem settled_of_blocks (h : ∀ n, fxpProtocolSampleMax ≤ n → n ≤ data.length →
    blocks policy (data.take n) = blocks policy (data.take fxpProtocolSampleMax)) : Settled policy data := by
  intro hpolicy hlong hopen
  constructor
  · intro hsample
    have hall := http_eq_of_blocks hpolicy hopen (le_refl _) (le_of_lt hlong) (le_of_lt hlong)
      (h data.length (le_of_lt hlong) (le_refl _)).symm hsample
    rw [take_length] at hall
    exact hall
  · intro hport
    obtain ⟨hsample, n, hn, hlength, hdetect⟩ := hport.detect hopen
    have hback := http_eq_of_blocks hpolicy hopen (le_of_lt hn) hlength (le_refl _)
      (h n (le_of_lt hn) hlength) hdetect
    exact absurd (hsample.symm.trans hback) (by decide)

end

/-- All ways of cutting a stream into reads get the same decision exactly when the bytes that can be in
the first read are settled. -/
theorem decisions_agree (policy : ProtocolPolicy) (header : ℕ) (stream : List UInt8) :
    (∀ cut cut' : Cut header stream, (cut.session policy).blocked = (cut'.session policy).blocked) ↔
      Settled policy (stream.take (initialPayloadMax - header)) := by
  generalize hdata : stream.take (initialPayloadMax - header) = data
  have htake : ∀ n, n ≤ data.length → data.take n = stream.take n := by
    intro n hn
    rw [← hdata, List.length_take] at hn
    rw [← hdata, List.take_take, Nat.min_eq_left (le_trans hn (Nat.min_le_left _ _))]
  constructor
  · intro h
    refine settled_of_blocks fun n hn hlength => ?_
    have hroom : n ≤ initialPayloadMax - header ∧ n ≤ stream.length := by
      rw [← hdata, List.length_take] at hlength
      omega
    have hcuts := h (cutAt header stream n hroom.1) (cutAt header stream 0 (Nat.zero_le _))
    have hfirst : (cutAt header stream n hroom.1).first.length = n := List.length_take_of_le hroom.2
    rw [Cut.blocked_eq, Cut.blocked_eq, hfirst, max_eq_right hn] at hcuts
    rw [htake n hlength, htake _ (le_trans hn hlength)]
    exact hcuts
  · intro h
    have hone : ∀ cut : Cut header stream, (cut.session policy).blocked =
        blocks policy (stream.take fxpProtocolSampleMax) := by
      intro cut
      rw [cut.blocked_eq]
      by_cases hshort : cut.first.length ≤ fxpProtocolSampleMax
      · rw [max_eq_left hshort]
      · have hlong : fxpProtocolSampleMax ≤ cut.first.length := le_of_lt (not_le.mp hshort)
        have hstream : cut.first.length ≤ stream.length := by
          have hbytes := congrArg List.length cut.bytes
          rw [List.length_append] at hbytes
          omega
        have hlength : cut.first.length ≤ data.length := by
          rw [← hdata, List.length_take]
          exact le_min cut.first_le hstream
        rw [max_eq_right hlong, ← htake _ hlength, ← htake _ (le_trans hlong hlength)]
        exact blocks_eq_of_settled h hlong hlength
    intro cut cut'
    rw [hone cut, hone cut']

/-- The request line of a version that does not exist, longer than the sample. -/
def strayVersion : List UInt8 :=
  bytesOf "GET /" ++ List.replicate 512 0x61 ++ bytesOf " HTTP/3.0\r\n"

/-- In one read the version is seen, and the session goes on. -/
theorem stray_version_depends_on_cut : ¬ ∀ (policy : ProtocolPolicy) (stream : List UInt8)
    (cut cut' : Cut 0 stream), (cut.session policy).blocked = (cut'.session policy).blocked := by
  intro h
  have hcuts := h { blockHTTP := true, blockSocks := false, blockTLS := false } strayVersion
    (cutAt 0 strayVersion 528 (by decide)) (cutAt 0 strayVersion 4 (by decide))
  rw [Cut.blocked_eq, Cut.blocked_eq] at hcuts
  revert hcuts
  decide +kernel

end ForwardX.Fxp.ProtocolBlock

/-
The event streams of the Agents, `server/agentEvents.ts`.

A stream takes frames as long as its response drains, keeps a bounded backlog otherwise, and is
replaced when the agent connects again. Frames are followed from the push to the response, in order
and once each. A push within the window of another one is only reported as sent; whether that is
true depends on the stream that the earlier one met.
-/
import ForwardX.Lib.Chain
import ForwardX.Lib.JsMap
import ForwardX.Lib.Run
import Mathlib.Algebra.GroupWithZero.Nat
import Mathlib.Data.String.Basic

namespace ForwardX.Panel.AgentEvents

open Chain Run List

/-! ## A stream -/

def AGENT_EVENT_MAX_PENDING_FRAMES : ℕ := 16

def AGENT_EVENT_MAX_PENDING_BYTES : ℕ := 1024 * 1024

def byteLength (frame : String) : ℕ := frame.utf8ByteSize

/-- `accepted` are the event frames the write of which has returned true, `written` those that
`res.write` has taken; the code keeps neither. -/
structure Client where
  closed : Bool := false
  backpressured : Bool := false
  pendingFrames : List String := []
  pendingBytes : ℕ := 0
  drainTimer : Bool := false
  accepted : List String := []
  written : List String := []
  deriving DecidableEq

structure Response where
  unavailable : Bool := false
  throws : Bool := false
  /-- The client is closed before `res.write` returns. -/
  closes : Bool := false
  /-- `res.write` does not return false. -/
  goesOn : Bool := true
  once : Bool := true
  deriving DecidableEq

/-- Ends the response too, or destroys it, where the caller asks for it. -/
def closeAgentEventClient (s : Client) : Client :=
  if s.closed then s
  else { s with closed := true, backpressured := false, pendingFrames := [], pendingBytes := 0, drainTimer := false }

def armDrainTimeout (s : Client) : Client := if s.drainTimer || s.closed then s else { s with drainTimer := true }

def writeFrameNow (s : Client) (frame : String) (event : Bool) (res : Response) : Client × Bool :=
  if s.closed || res.unavailable || res.throws then (closeAgentEventClient s, false)
  else
    let s := if event then { s with written := s.written ++ [frame] } else s
    let s := if res.closes then closeAgentEventClient s else s
    if res.goesOn then (s, !s.closed)
    else
      let s := { s with backpressured := true }
      if !res.once then (closeAgentEventClient s, false)
      else
        let s := armDrainTimeout s
        (s, !s.closed)

def flushLoop (res : ℕ → Response) : ℕ → Client → Client
  | 0, s => s
  | n + 1, s =>
    if s.closed || s.backpressured then s
    else
      match s.pendingFrames with
      | [] => s
      | frame :: rest =>
        let s := { s with pendingFrames := rest, pendingBytes := s.pendingBytes - byteLength frame }
        let (s, written) := writeFrameNow s frame true (res n)
        if written then flushLoop res n s else s

/-- A write adds no frame, so there are no more than there are at the start. -/
def flushPendingFrames (res : ℕ → Response) (s : Client) : Client := flushLoop res s.pendingFrames.length s

def writeAgentEventFrame (s : Client) (frame : String) (queueWhenBackpressured unavailable : Bool)
    (res : Response) : Client × Bool :=
  if s.closed || unavailable then (closeAgentEventClient s, false)
  else if !s.backpressured then writeFrameNow s frame queueWhenBackpressured res
  else if !queueWhenBackpressured then (s, true)
  else
    let frameBytes := byteLength frame
    if AGENT_EVENT_MAX_PENDING_FRAMES ≤ s.pendingFrames.length
        || AGENT_EVENT_MAX_PENDING_BYTES < s.pendingBytes + frameBytes then (closeAgentEventClient s, false)
    else ({ s with pendingFrames := s.pendingFrames ++ [frame], pendingBytes := s.pendingBytes + frameBytes }, true)

def writeEvent (s : Client) (frame : String) (unavailable : Bool) (res : Response) : Client × Bool :=
  let (s, accepted) := writeAgentEventFrame s frame true unavailable res
  (if accepted then { s with accepted := s.accepted ++ [frame] } else s, accepted)

def onDrain (s : Client) (res : ℕ → Response) : Client :=
  if s.closed then s else flushPendingFrames res { s with backpressured := false, drainTimer := false }

def drainTimeout (s : Client) : Client :=
  if !s.drainTimer then s
  else
    let s := { s with drainTimer := false }
    if s.closed || !s.backpressured then s else closeAgentEventClient s

inductive StreamEvent where
  | writeEvent (frame : String) (unavailable : Bool) (res : Response)
  /-- Also the heartbeat. -/
  | writeComment (comment : String) (unavailable : Bool) (res : Response)
  | drain (res : ℕ → Response)
  | drainTimeout
  /-- The response closes, finishes or fails, or the stream is closed by the panel. -/
  | close

def streamStep (s : Client) : StreamEvent → Client
  | .writeEvent frame unavailable res => (writeEvent s frame unavailable res).1
  | .writeComment comment unavailable res => (writeAgentEventFrame s comment false unavailable res).1
  | .drain res => onDrain s res
  | .drainTimeout => drainTimeout s
  | .close => closeAgentEventClient s

/-! ## Delivery -/

/-- The books of a stream. -/
structure Books (s : Client) : Prop where
  delivered : s.closed = false → s.accepted = s.written ++ s.pendingFrames
  closed : s.closed = true → s.pendingFrames = [] ∧
    (s.written <+: s.accepted ∨ ∃ frame, s.written = s.accepted ++ [frame])
  bytes : s.pendingBytes = (s.pendingFrames.map byteLength).sum
  frames : s.pendingFrames.length ≤ AGENT_EVENT_MAX_PENDING_FRAMES
  bound : s.pendingBytes ≤ AGENT_EVENT_MAX_PENDING_BYTES

structure Delivers (s : Client) : Prop extends Books s where
  waiting : s.pendingFrames ≠ [] → s.backpressured = true ∨ s.closed = true

section

variable {s : Client} {frame : String}

theorem Delivers.close (h : Books s) : Delivers (closeAgentEventClient s) := by
  unfold closeAgentEventClient
  split_ifs with hclosed
  · exact { h with waiting := fun _ => .inr hclosed }
  · have hopen : s.closed = false := eq_false_of_ne_true hclosed
    exact {
      delivered := nofun
      closed := fun _ => ⟨rfl, .inl (h.delivered hopen ▸ prefix_append _ _)⟩
      bytes := rfl
      frames := Nat.zero_le _
      bound := Nat.zero_le _
      waiting := fun hne => absurd rfl hne }

theorem closeAgentEventClient_eq (hopen : s.closed = false) : closeAgentEventClient s = { s with
    closed := true, backpressured := false, pendingFrames := [], pendingBytes := 0, drainTimer := false } :=
  if_neg (by simp [hopen])

theorem armDrainTimeout_eq (s : Client) : armDrainTimeout s = { s with drainTimer := s.drainTimer || !s.closed } := by
  obtain ⟨closed, _, _, _, drainTimer, _, _⟩ := s
  cases closed <;> cases drainTimer <;> rfl

/-- A frame is written to a stream that stays open. -/
structure Wrote (s s' : Client) (frames : List String) : Prop where
  opened : s'.closed = false
  accepted : s'.accepted = s.accepted
  written : s'.written = s.written ++ frames
  pendingFrames : s'.pendingFrames = s.pendingFrames
  pendingBytes : s'.pendingBytes = s.pendingBytes

/-- The stream is closed, before the frame is written or after. -/
structure Failed (s s' : Client) (frames : List String) : Prop where
  closed : s'.closed = true
  accepted : s'.accepted = s.accepted
  written : s'.written = s.written ∨ s'.written = s.written ++ frames
  pendingFrames : s'.pendingFrames = []
  pendingBytes : s'.pendingBytes = 0

/-- **What a write does** to an open stream. -/
theorem writeFrameNow_cases (hopen : s.closed = false) (frame : String) (event : Bool) (res : Response) :
    ((writeFrameNow s frame event res).2 = true ∧
      Wrote s (writeFrameNow s frame event res).1 (if event then [frame] else [])) ∨
    ((writeFrameNow s frame event res).2 = false ∧
      Failed s (writeFrameNow s frame event res).1 (if event then [frame] else [])) := by
  obtain ⟨unavailable, throws, closes, goesOn, once⟩ := res
  by_cases hrefused : unavailable || throws
  · refine .inr ?_
    rw [writeFrameNow, if_pos (by simpa [hopen] using hrefused), closeAgentEventClient_eq hopen]
    exact ⟨rfl, rfl, rfl, .inl rfl, rfl, rfl⟩
  · rw [writeFrameNow, if_neg (by simpa [hopen] using hrefused)]
    -- it is taken; an event is noted as written
    cases closes <;> cases goesOn <;> cases once <;> cases event <;>
      simp [closeAgentEventClient, armDrainTimeout_eq, hopen] <;> constructor <;> simp [hopen]

variable {s' : Client} {frames : List String}

theorem Failed.delivers (h : Failed s s' frames)
    (hwritten : s'.written <+: s'.accepted ∨ ∃ frame, s'.written = s'.accepted ++ [frame]) : Delivers s' where
  delivered hopen := absurd (h.closed.symm.trans hopen) nofun
  closed _ := ⟨h.pendingFrames, hwritten⟩
  bytes := by rw [h.pendingBytes, h.pendingFrames, map_nil, sum_nil]
  frames := by simp [h.pendingFrames]
  bound := by simp [h.pendingBytes]
  waiting _ := .inr h.closed

/-- **The loop** writes the frames in order, until there are none or it has to wait again. -/
theorem delivers_flushLoop (res : ℕ → Response) (n : ℕ) :
    ∀ s : Client, Books s → s.pendingFrames.length ≤ n → Delivers (flushLoop res n s) := by
  induction n with
  | zero =>
    intro s h hlen
    exact { h with waiting := fun hne => absurd (eq_nil_of_length_eq_zero (Nat.le_zero.mp hlen)) hne }
  | succ n ih =>
    intro s h hlen
    rw [flushLoop]
    split_ifs with hstop
    · exact { h with waiting := fun _ => (Bool.or_eq_true _ _ ▸ hstop).symm }
    · have hopen : s.closed = false := by simp_all
      have hdelivered := h.delivered hopen
      cases hpending : s.pendingFrames with
      | nil => exact { h with waiting := fun hne => absurd hpending hne }
      | cons frame rest =>
        set t : Client := { s with pendingFrames := rest, pendingBytes := s.pendingBytes - byteLength frame }
        have hbytes : t.pendingBytes = (rest.map byteLength).sum := by
          simp only [t, h.bytes, hpending, map_cons, sum_cons, Nat.add_sub_cancel_left]
        rw [hpending] at hdelivered hlen
        dsimp only
        obtain ⟨hok, hw⟩ | ⟨hok, hf⟩ := writeFrameNow_cases (s := t) hopen frame true (res n)
        · rw [hok, if_pos rfl]
          refine ih _ ⟨fun _ => ?_, fun hclosed => absurd (hw.opened.symm.trans hclosed) nofun, ?_, ?_, ?_⟩ ?_
          · rw [hw.accepted, hw.written, hw.pendingFrames, if_pos rfl, append_assoc]
            exact hdelivered
          · rw [hw.pendingBytes, hw.pendingFrames, hbytes]
          · rw [hw.pendingFrames]
            have hle := h.frames
            rw [hpending, length_cons] at hle
            exact (Nat.le_succ _).trans hle
          · rw [hw.pendingBytes]
            exact (Nat.sub_le _ _).trans h.bound
          · rw [hw.pendingFrames]
            exact Nat.le_of_succ_le_succ hlen
        · rw [hok, if_neg (by decide)]
          refine hf.delivers (.inl ?_)
          rw [hf.accepted]
          have hpart : s.written ++ [frame] <+: s.accepted := ⟨rest, by rw [hdelivered]; simp⟩
          obtain hw | hw := hf.written
          · exact hw ▸ (prefix_append _ _).trans hpart
          · exact hw ▸ hpart

/-- **A write of the stream**: an event is accepted when it is written or kept. -/
theorem delivers_writeEvent (h : Delivers s) (frame : String) (unavailable : Bool) (res : Response) :
    Delivers (writeEvent s frame unavailable res).1 := by
  have hresult (p) (hp : writeAgentEventFrame s frame true unavailable res = p) :
      (writeEvent s frame unavailable res).1 =
        if p.2 then { p.1 with accepted := p.1.accepted ++ [frame] } else p.1 := hp ▸ rfl
  by_cases hgone : s.closed || unavailable
  · rw [hresult _ (if_pos hgone)]
    exact Delivers.close h.toBooks
  · have hopen : s.closed = false := by simp_all
    have hdelivered := h.delivered hopen
    by_cases hwait : s.backpressured
    · have hqueue := hresult _ ((if_neg hgone).trans (if_neg (by simp [hwait])))
      simp only [Bool.not_true, Bool.false_eq_true, if_false] at hqueue
      rw [hqueue]
      by_cases hfull : AGENT_EVENT_MAX_PENDING_FRAMES ≤ s.pendingFrames.length
          || AGENT_EVENT_MAX_PENDING_BYTES < s.pendingBytes + byteLength frame
      · simp only [if_pos hfull]
        exact Delivers.close h.toBooks
      · simp only [if_neg hfull]
        simp only [Bool.or_eq_true, decide_eq_true_eq, not_or, not_le, not_lt] at hfull
        refine ⟨⟨fun _ => ?_, fun hclosed => absurd (hopen.symm.trans hclosed) nofun, ?_, ?_, hfull.2⟩, fun _ => .inl hwait⟩
        · simp only [if_true, hdelivered, append_assoc]
        · simp [h.bytes]
        · simp only [if_true, length_append]
          exact hfull.1
    · have hnone : s.pendingFrames = [] := by
        by_contra hne
        obtain hback | hclosed := h.waiting hne
        · exact hwait hback
        · exact absurd (hopen.symm.trans hclosed) nofun
      rw [hnone, append_nil] at hdelivered
      rw [hresult _ ((if_neg hgone).trans (if_pos (by simp [hwait])))]
      obtain ⟨hok, hw⟩ | ⟨hok, hf⟩ := writeFrameNow_cases hopen frame true res
      · rw [hok, if_pos rfl]
        refine ⟨⟨fun _ => ?_, fun hclosed => absurd (hw.opened.symm.trans hclosed) nofun, ?_, ?_, ?_⟩, fun hne => ?_⟩
        · simp only [hw.accepted, hw.written, hw.pendingFrames, hnone, hdelivered, if_true, append_nil]
        · simp only [hw.pendingBytes, hw.pendingFrames, h.bytes]
        · simp only [hw.pendingFrames, h.frames]
        · simp only [hw.pendingBytes, h.bound]
        · exact absurd (hw.pendingFrames.trans hnone) hne
      · rw [hok, if_neg (by decide)]
        refine hf.delivers ?_
        rw [hf.accepted, hdelivered]
        obtain hw | hw := hf.written
        · exact .inl (hw ▸ prefix_rfl)
        · exact .inr ⟨frame, hw⟩

theorem delivers_writeComment (h : Delivers s) (comment : String) (unavailable : Bool) (res : Response) :
    Delivers (writeAgentEventFrame s comment false unavailable res).1 := by
  rw [writeAgentEventFrame]
  split_ifs with hgone hback
  · exact Delivers.close h.toBooks
  · have hopen : s.closed = false := by simp_all
    obtain ⟨-, hw⟩ | ⟨-, hf⟩ := writeFrameNow_cases hopen comment false res
    · refine ⟨⟨fun _ => ?_, fun hclosed => absurd (hw.opened.symm.trans hclosed) nofun, ?_, ?_, ?_⟩, fun hne => ?_⟩
      · simp [hw.accepted, hw.written, hw.pendingFrames, h.delivered hopen]
      · simp only [hw.pendingBytes, hw.pendingFrames, h.bytes]
      · simp only [hw.pendingFrames, h.frames]
      · simp only [hw.pendingBytes, h.bound]
      · have hwaiting := h.waiting (hw.pendingFrames ▸ hne)
        simp_all
    · refine hf.delivers (.inl ?_)
      have hwritten : (writeFrameNow s comment false res).1.written = s.written := by simpa using hf.written
      rw [hf.accepted, hwritten, h.delivered hopen]
      exact prefix_append _ _
  · exact h
  · exact absurd rfl ‹¬(!false) = true›

theorem delivers_streamStep (h : Delivers s) (event : StreamEvent) : Delivers (streamStep s event) := by
  cases event with
  | writeEvent frame unavailable res => exact delivers_writeEvent h frame unavailable res
  | writeComment comment unavailable res => exact delivers_writeComment h comment unavailable res
  | drain res =>
    rw [streamStep, onDrain]
    split_ifs
    · exact h
    · exact delivers_flushLoop res _ _ { h.toBooks with } le_rfl
  | drainTimeout =>
    rw [streamStep, drainTimeout]
    split_ifs
    · exact h
    · dsimp only
      split_ifs
      · exact { h with }
      · exact Delivers.close { h.toBooks with }
  | close => exact Delivers.close h.toBooks

/-- **Every event is delivered once and in order**, in every run of a stream that is not closed,
and the backlog keeps to its bounds. -/
theorem stream_delivers (events : List StreamEvent) : Delivers (run streamStep {} events) := by
  have hstart : Delivers {} :=
    ⟨⟨fun _ => rfl, nofun, rfl, Nat.zero_le _, Nat.zero_le _⟩, fun hne => absurd rfl hne⟩
  exact run_invariant (I := Delivers) (fun _ event h => delivers_streamStep h event) events _ hstart

end

/-! ## Refresh pushes -/

def AGENT_REFRESH_COALESCE_MS : ℤ := 1500

def AGENT_EVENT_CACHE_RETENTION_MS : ℤ := 60 * 60 * 1000

/-- A call of `pushAgentRefresh`, with the stream that the host had before it and after it. -/
structure Push (κ : Type) where
  host : κ
  now : ℤ
  frame : String
  unavailable : Bool
  res : Response
  before : Option Client
  after : Option Client
  coalesced : Bool
  result : Bool
  deriving DecidableEq

/-- `pushes` are the calls so far, which the code does not keep. -/
structure World (κ : Type) where
  agentEventClients : JsMap κ Client := ∅
  hostRefreshPushedAt : JsMap κ ℤ := ∅
  pushes : List (Push κ) := []

section

variable {κ : Type} [DecidableEq κ]

def World.setClient (w : World κ) (host : κ) (s : Client) : World κ :=
  { w with agentEventClients :=
      if s.closed then w.agentEventClients.delete host else w.agentEventClients.set host s }

def sendAgentEvent (w : World κ) (host : κ) (frame : String) (unavailable : Bool) (res : Response) :
    World κ × Bool :=
  match w.agentEventClients.get host with
  | none => (w, false)
  | some client =>
    let (client, accepted) := writeEvent client frame unavailable res
    (w.setClient host client, accepted)

def pushAgentRefresh (w : World κ) (host : κ) (now : ℤ) (urgent : Bool) (frame : String) (unavailable : Bool)
    (res : Response) : World κ :=
  let last := (w.hostRefreshPushedAt.get host).getD 0
  let before := w.agentEventClients.get host
  if !urgent && now - last < AGENT_REFRESH_COALESCE_MS then
    { w with pushes := w.pushes ++ [⟨host, now, frame, unavailable, res, before, before, true, true⟩] }
  else
    let (w, result) := sendAgentEvent
      { w with hostRefreshPushedAt := w.hostRefreshPushedAt.set host now } host frame unavailable res
    let after := w.agentEventClients.get host
    { w with pushes := w.pushes ++ [⟨host, now, frame, unavailable, res, before, after, false, result⟩] }

inductive Event (κ : Type) where
  /-- The stream that the host had is closed. -/
  | register (host : κ)
  | stream (host : κ) (event : StreamEvent)
  | push (host : κ) (now : ℤ) (urgent : Bool) (frame : String) (unavailable : Bool) (res : Response)
  | pruneAgentEventCaches (now : ℤ)

def step (w : World κ) : Event κ → World κ
  | .register host => { w with agentEventClients := w.agentEventClients.set host {} }
  | .stream host event =>
    match w.agentEventClients.get host with
    | none => w
    | some client => w.setClient host (streamStep client event)
  | .push host now urgent frame unavailable res => pushAgentRefresh w host now urgent frame unavailable res
  | .pruneAgentEventCaches now =>
    { w with hostRefreshPushedAt := w.hostRefreshPushedAt.filter fun _ lastAt =>
        !(AGENT_EVENT_CACHE_RETENTION_MS ≤ now - lastAt) }

/-- A live stream has taken the frame of the push: it went to the response, or to the end of the backlog. -/
def Push.Taken (p : Push κ) : Prop :=
  match p.before, p.after with
  | some s, some s' => s.closed = false ∧ s'.closed = false ∧
      s'.written ++ s'.pendingFrames = s.written ++ s.pendingFrames ++ [p.frame]
  | _, _ => False

/-- A push that reports success was taken by a stream of the host, or one before it was, no
longer ago than the window. -/
def Truthful (w : World κ) : Prop :=
  ∀ k p, w.pushes[k]? = some p → p.result = true →
    ∃ q ∈ w.pushes.take (k + 1), q.host = p.host ∧ q.Taken ∧ p.now - q.now < AGENT_REFRESH_COALESCE_MS

def World.lastPush (w : World κ) (host : κ) : Option (Push κ) :=
  (w.pushes.filter fun p => p.host = host && !p.coalesced).getLast?

/-- An open stream that can take a frame: its response takes the write, or there is room in the backlog. -/
def Takes (s : Client) (frame : String) (unavailable : Bool) (res : Response) : Prop :=
  s.closed = false ∧ unavailable = false ∧
    if s.backpressured then
      s.pendingFrames.length < AGENT_EVENT_MAX_PENDING_FRAMES ∧
        s.pendingBytes + byteLength frame ≤ AGENT_EVENT_MAX_PENDING_BYTES
    else
      res.unavailable = false ∧ res.throws = false ∧ res.closes = false ∧ (res.goesOn = true ∨ res.once = true)

instance (s : Client) (frame : String) (unavailable : Bool) (res : Response) :
    Decidable (Takes s frame unavailable res) :=
  inferInstanceAs (Decidable (_ ∧ _ ∧ ite _ _ _))

/-- A push is left out only after one that is still noted, and at which the host had a stream that could take
the frame. -/
def Covered (w : World κ) : Event κ → Prop
  | .push host now urgent _ _ _ =>
    urgent = false → now - (w.hostRefreshPushedAt.get host).getD 0 < AGENT_REFRESH_COALESCE_MS →
      (w.hostRefreshPushedAt.get host).isSome ∧
        ∃ q ∈ w.lastPush host, ∃ s ∈ q.before, Takes s q.frame q.unavailable q.res
  | _ => True

instance Covered.decidable (w : World κ) (event : Event κ) : Decidable (Covered w event) := by
  cases event <;> unfold Covered <;> infer_instance

/-! ## What a push sends -/

section

variable {s : Client} {frame : String} {unavailable : Bool} {res : Response}

theorem writeEvent_of_takes (h : Takes s frame unavailable res) : (writeEvent s frame unavailable res).2 = true := by
  obtain ⟨hopen, rfl, hroom⟩ := h
  show (writeAgentEventFrame s frame true false res).2 = true
  rw [writeAgentEventFrame, if_neg (by simp [hopen])]
  by_cases hwait : s.backpressured = true
  · rw [if_pos hwait] at hroom
    rw [if_neg (by simp [hwait]), if_neg (by decide)]
    dsimp only
    rw [if_neg (by simpa using hroom)]
  · rw [if_neg hwait] at hroom
    obtain ⟨hthere, hthrows, hcloses, hwrites⟩ := hroom
    rw [if_pos (by simpa using hwait), writeFrameNow, if_neg (by simp [hopen, hthere, hthrows])]
    cases hgoes : res.goesOn with
    | true => simp [hcloses, hopen]
    | false =>
      have honce : res.once = true := hwrites.resolve_left (by simp [hgoes])
      simp [hcloses, honce, hopen, armDrainTimeout_eq]

/-- **What an accepted write leaves**: the stream is open, and the frame is the last of what was written and
what is pending. -/
theorem taken_of_writeEvent (h : Delivers s) (hopen : s.closed = false)
    (haccepted : (writeEvent s frame unavailable res).2 = true) :
    (writeEvent s frame unavailable res).1.closed = false ∧
      (writeEvent s frame unavailable res).1.written ++ (writeEvent s frame unavailable res).1.pendingFrames
        = s.written ++ s.pendingFrames ++ [frame] := by
  have hdelivers := delivers_writeEvent h frame unavailable res
  obtain ⟨hclosed, hkept⟩ : (writeAgentEventFrame s frame true unavailable res).1.closed = false ∧
      (writeAgentEventFrame s frame true unavailable res).1.accepted = s.accepted := by
    have hresult : (writeAgentEventFrame s frame true unavailable res).2 = true := haccepted
    rw [writeAgentEventFrame] at hresult ⊢
    by_cases hgone : s.closed || unavailable
    · rw [if_pos hgone] at hresult
      cases hresult
    rw [if_neg hgone] at hresult ⊢
    by_cases hwait : !s.backpressured
    · rw [if_pos hwait] at hresult ⊢
      obtain ⟨-, hw⟩ | ⟨hfalse, -⟩ := writeFrameNow_cases hopen frame true res
      · exact ⟨hw.opened, hw.accepted⟩
      · rw [hfalse] at hresult
        cases hresult
    · rw [if_neg hwait, if_neg (by decide)] at hresult ⊢
      dsimp only at hresult ⊢
      split_ifs at hresult ⊢
      exact ⟨hopen, rfl⟩
  have hstream : (writeEvent s frame unavailable res).1.closed = false ∧
      (writeEvent s frame unavailable res).1.accepted = s.accepted ++ [frame] := by
    rw [writeEvent] at haccepted ⊢
    dsimp only at haccepted ⊢
    rw [if_pos haccepted]
    exact ⟨hclosed, by rw [hkept]⟩
  refine ⟨hstream.1, ?_⟩
  rw [← hdelivers.delivered hstream.1, hstream.2, h.delivered hopen]

end

structure Kept (w : World κ) : Prop where
  truthful : Truthful w
  noted : ∀ host last, w.hostRefreshPushedAt.get host = some last → ∃ q, w.lastPush host = some q ∧ q.now = last
  /-- The streams that are registered are open, and keep their books. -/
  streams : ∀ host s, w.agentEventClients.get host = some s → Delivers s ∧ s.closed = false
  /-- A push that a stream could take was taken. -/
  taken : ∀ q ∈ w.pushes, q.coalesced = false → (∃ s ∈ q.before, Takes s q.frame q.unavailable q.res) → q.Taken

variable {w : World κ}

omit [DecidableEq κ] in
theorem Truthful.concat (h : Truthful w) {p : Push κ} (hp : p.result = true →
    ∃ q ∈ w.pushes ++ [p], q.host = p.host ∧ q.Taken ∧ p.now - q.now < AGENT_REFRESH_COALESCE_MS) :
    Truthful { w with pushes := w.pushes ++ [p] } := by
  intro k p' hget hresult
  obtain hold | ⟨rfl, rfl⟩ := getElem?_concat_iff.mp hget
  · obtain ⟨q, hq, hrest⟩ := h k p' hold hresult
    exact ⟨q, by rwa [take_append_of_le_length (lt_length_of_getElem? hold)], hrest⟩
  · obtain ⟨q, hq, hrest⟩ := hp hresult
    exact ⟨q, by rwa [take_of_length_le (by simp)], hrest⟩

theorem lastPush_concat (w : World κ) (p : Push κ) (host : κ) :
    ({ w with pushes := w.pushes ++ [p] } : World κ).lastPush host =
      if p.host = host ∧ p.coalesced = false then some p else w.lastPush host := by
  simp only [World.lastPush, filter_append, filter_singleton]
  by_cases hp : p.host = host ∧ p.coalesced = false
  · simp [hp]
  · have hother : (decide (p.host = host) && !p.coalesced) = false := by simpa using hp
    rw [if_neg hp, hother, cond_false, append_nil]

theorem streams_setClient (h : ∀ host s, w.agentEventClients.get host = some s → Delivers s ∧ s.closed = false)
    {host : κ} {s : Client} (hs : Delivers s) :
    ∀ host' s', (w.setClient host s).agentEventClients.get host' = some s' → Delivers s' ∧ s'.closed = false := by
  intro host' s' hget
  rw [World.setClient] at hget
  by_cases hclosed : s.closed = true
  · simp only [if_pos hclosed, JsMap.get_delete] at hget
    split_ifs at hget
    exact h host' s' hget
  · simp only [if_neg hclosed, JsMap.get_set] at hget
    split_ifs at hget
    · obtain rfl := Option.some.inj hget
      exact ⟨hs, by simpa using hclosed⟩
    · exact h host' s' hget

/-- **What a push sends**: nothing without a stream, and with one what the write of the stream does. -/
theorem sendAgentEvent_spec
    (h : ∀ host s, w.agentEventClients.get host = some s → Delivers s ∧ s.closed = false) (host : κ)
    (frame : String) (unavailable : Bool) (res : Response) :
    let sent := sendAgentEvent w host frame unavailable res
    (sent.1.hostRefreshPushedAt = w.hostRefreshPushedAt ∧ sent.1.pushes = w.pushes) ∧
      (∀ host' s', sent.1.agentEventClients.get host' = some s' → Delivers s' ∧ s'.closed = false) ∧
      ((∃ s ∈ w.agentEventClients.get host, Takes s frame unavailable res) → sent.2 = true) ∧
      (sent.2 = true → ∃ s s', w.agentEventClients.get host = some s ∧
        sent.1.agentEventClients.get host = some s' ∧ s.closed = false ∧ s'.closed = false ∧
        s'.written ++ s'.pendingFrames = s.written ++ s.pendingFrames ++ [frame]) := by
  intro sent
  cases hclient : w.agentEventClients.get host with
  | none =>
    have hsent : sent = (w, false) := by simp only [sent, sendAgentEvent, hclient]
    rw [hsent]
    refine ⟨⟨rfl, rfl⟩, h, ?_, ?_⟩
    · rintro ⟨s, hs, -⟩
      cases hs
    · intro hfalse
      cases hfalse
  | some client =>
    obtain ⟨hdelivers, hopen⟩ := h host client hclient
    have hsent : sent = (w.setClient host (writeEvent client frame unavailable res).1,
        (writeEvent client frame unavailable res).2) := by simp only [sent, sendAgentEvent, hclient]
    rw [hsent]
    refine ⟨⟨rfl, rfl⟩, streams_setClient h (delivers_writeEvent hdelivers _ _ _), ?_, fun hresult => ?_⟩
    · rintro ⟨s, hs, htakes⟩
      obtain rfl := Option.some.inj hs
      exact writeEvent_of_takes htakes
    · obtain ⟨hclosed, hframes⟩ := taken_of_writeEvent hdelivers hopen hresult
      refine ⟨client, _, rfl, ?_, hopen, hclosed, hframes⟩
      rw [World.setClient]
      dsimp only
      rw [if_neg (by simp [hclosed]), JsMap.get_set, if_pos rfl]

theorem Kept.push (h : Kept w) (host : κ) (now : ℤ) (urgent : Bool) (frame : String) (unavailable : Bool)
    (res : Response) (hok : Covered w (.push host now urgent frame unavailable res)) :
    Kept (pushAgentRefresh w host now urgent frame unavailable res) := by
  rw [pushAgentRefresh]
  dsimp only
  by_cases hcoalesced : !urgent && now - (w.hostRefreshPushedAt.get host).getD 0 < AGENT_REFRESH_COALESCE_MS
  · rw [if_pos hcoalesced]
    obtain ⟨hurgent, hwindow⟩ := Bool.and_eq_true_iff.mp hcoalesced
    rw [decide_eq_true_eq] at hwindow
    obtain ⟨hsome, q, hq, hstream⟩ := hok (by simpa using hurgent) hwindow
    obtain ⟨last, hlast⟩ := Option.isSome_iff_exists.mp hsome
    obtain ⟨q', hq', hnow⟩ := h.noted host last hlast
    obtain rfl := Option.some.inj (hq'.symm.trans hq)
    have hmem := mem_filter.mp (mem_of_getLast? hq')
    obtain ⟨hhost, hsent⟩ := Bool.and_eq_true_iff.mp hmem.2
    constructor
    · refine h.truthful.concat fun _ => ⟨q', mem_append_left _ hmem.1, by simpa using hhost,
        h.taken q' hmem.1 (by simpa using hsent) hstream, ?_⟩
      rwa [hlast, Option.getD_some, ← hnow] at hwindow
    · intro host' last' hget
      rw [lastPush_concat, if_neg (by simp)]
      exact h.noted host' last' hget
    · exact h.streams
    · exact forall_mem_append.mpr ⟨h.taken, by simp⟩
  · rw [if_neg hcoalesced]
    set w' : World κ := { w with hostRefreshPushedAt := w.hostRefreshPushedAt.set host now }
    obtain ⟨⟨hnoted, hpushes⟩, hstreams, htakes, hsends⟩ :=
      sendAgentEvent_spec (w := w') h.streams host frame unavailable res
    set sent := sendAgentEvent w' host frame unavailable res
    set p : Push κ := ⟨host, now, frame, unavailable, res, w.agentEventClients.get host,
      sent.1.agentEventClients.get host, false, sent.2⟩
    have htaken : sent.2 = true → p.Taken := by
      intro hresult
      obtain ⟨s, s', hbefore, hafter, htaken⟩ := hsends hresult
      rw [Push.Taken, show p.before = some s from hbefore, show p.after = some s' from hafter]
      exact htaken
    constructor
    · have htruthful : Truthful sent.1 := by
        intro k p
        rw [hpushes]
        exact h.truthful k p
      refine htruthful.concat fun hresult =>
        ⟨p, mem_append_right _ (mem_singleton_self _), rfl, htaken hresult, ?_⟩
      rw [sub_self]
      decide
    · intro host' last' hget
      rw [lastPush_concat]
      simp only [p, and_true]
      rw [hnoted, JsMap.get_set] at hget
      by_cases hhost : host = host'
      · rw [if_pos hhost.symm] at hget
        exact ⟨_, if_pos hhost, Option.some.inj hget⟩
      · rw [if_neg (Ne.symm hhost)] at hget
        obtain ⟨q, hq, hnow⟩ := h.noted host' last' hget
        refine ⟨q, (if_neg hhost).trans ?_, hnow⟩
        rw [World.lastPush, hpushes]
        exact hq
    · exact hstreams
    · rw [hpushes]
      refine forall_mem_append.mpr ⟨h.taken, fun q hq _ hstream => ?_⟩
      obtain rfl := mem_singleton.mp hq
      exact htaken (htakes hstream)

theorem Kept.step (h : Kept w) (event : Event κ) (hok : Covered w event) : Kept (AgentEvents.step w event) := by
  cases event with
  | register host =>
    refine ⟨h.truthful, h.noted, fun host' s hget => ?_, h.taken⟩
    rw [AgentEvents.step, JsMap.get_set] at hget
    split_ifs at hget
    · obtain rfl := Option.some.inj hget
      exact ⟨stream_delivers [], rfl⟩
    · exact h.streams host' s hget
  | stream host event =>
    rw [AgentEvents.step]
    split
    · exact h
    · rename_i client hclient
      exact ⟨h.truthful, h.noted,
        streams_setClient h.streams (delivers_streamStep (h.streams host client hclient).1 event), h.taken⟩
  | push host now urgent frame unavailable res => exact h.push host now urgent frame unavailable res hok
  | pruneAgentEventCaches now =>
    refine ⟨h.truthful, fun host last hget => ?_, h.streams, h.taken⟩
    rw [AgentEvents.step, JsMap.get_filter, Option.filter_eq_some_iff] at hget
    exact h.noted host last hget.1

/-- **Refresh pushes are truthful** in every run in which a push is left out only after one that the stream of
the host could take: the time of a push is noted before the frame is sent, and whether it went out is not. -/
theorem refresh_pushes_truthful (events : List (Event κ)) (hok : Admissible Covered AgentEvents.step {} events) :
    Truthful (run AgentEvents.step {} events) := by
  have hstart : Kept ({} : World κ) := ⟨fun _ _ hget => absurd hget (by simp),
    fun _ _ hget => absurd hget (by simp), fun _ _ hget => absurd hget (by simp),
    fun _ hq => absurd hq not_mem_nil⟩
  exact (run_invariant_of_admissible (I := Kept) (fun _ event hok h => h.step event hok) events _ hok hstart).truthful

end

/-- The second push is left out, after one that the stream of the host has taken. -/
theorem refresh_pushes_truthful_coalesced :
    Truthful (run step ({} : World ℕ) [.register 1, .push 1 5000 false "refresh" false {},
      .push 1 5500 false "refresh" false {}]) :=
  refresh_pushes_truthful _ (by decide)

/-- The second push is left out, after one that there was no stream for. -/
theorem failed_push_reported : ¬ ∀ events : List (Event ℕ), Truthful (run step {} events) := by
  intro h
  let second : Push ℕ := ⟨1, 5500, "refresh", false, {}, none, none, true, true⟩
  obtain ⟨q, hq, -, htaken, -⟩ := h [.push 1 5000 false "refresh" false {},
    .push 1 5500 false "refresh" false {}] 1 second (by decide) rfl
  have hnone : ∀ q ∈ [(⟨1, 5000, "refresh", false, {}, none, none, false, false⟩ : Push ℕ), second], ¬ q.Taken := by
    simp [second, Push.Taken]
  exact hnone q hq htaken

end ForwardX.Panel.AgentEvents

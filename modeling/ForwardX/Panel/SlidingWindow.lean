/-
The sliding window of `server/ai/rateLimiter.ts`.

A key keeps the times of its allowed calls. They are in order, so dropping the old ones and counting
the rest is counting the window.
-/
import ForwardX.Lib.JsMap
import ForwardX.Lib.Run
import ForwardX.Panel.JsValues
import Mathlib.Data.Finset.Card
import Mathlib.Data.Rat.Floor

namespace ForwardX.Panel.SlidingWindow

open Run List

/-! ## The limiter -/

structure RateLimitResult where
  allowed : Bool
  remaining : ℤ
  retryAfterMs : ℚ

structure SlidingWindowRateLimiterOptions where
  limit : ℚ
  windowMs : ℚ
  maxKeys : Option ℚ := none

structure Settings where
  limit : ℤ
  windowMs : ℤ
  maxKeys : ℤ

def settings (options : SlidingWindowRateLimiterOptions) : Settings where
  limit := max 1 ⌊options.limit⌋
  windowMs := max 1000 ⌊options.windowMs⌋
  maxKeys :=
    let maxKeys := options.maxKeys.getD 0
    max 100 ⌊if maxKeys = 0 then 10000 else maxKeys⌋

abbrev Events : Type := JsMap JsString (List ℚ)

def activeSince (cutoff : ℚ) (timestamps : List ℚ) : List ℚ :=
  timestamps.filter fun timestamp => cutoff < timestamp

/-- The loop over the map: it returns once the map is small enough. -/
def pruneEntries (maxKeys : ℤ) (cutoff : ℚ) : List (JsString × List ℚ) → Events → Events
  | [], events => events
  | (key, timestamps) :: rest, events =>
    let active := activeSince cutoff timestamps
    let events :=
      if active.length = 0 then events.delete key
      else if active.length ≠ timestamps.length then events.set key active
      else events
    if events.size ≤ maxKeys then events else pruneEntries maxKeys cutoff rest events

/-- `while (this.events.size > this.maxKeys)`. -/
def dropOldest (maxKeys : ℤ) : ℕ → Events → Events
  | 0, events => events
  | fuel + 1, events =>
    if maxKeys < events.size then
      match events.entries.head? with
      | none => events
      | some oldest => dropOldest maxKeys fuel (events.delete oldest.1)
    else events

def pruneIfNeeded (maxKeys : ℤ) (cutoff : ℚ) (events : Events) : Events :=
  if events.size ≤ maxKeys then events
  else
    let pruned := pruneEntries maxKeys cutoff events.entries events
    dropOldest maxKeys pruned.size pruned

/-- `String(keyValue || "").trim() || "anonymous"`. -/
def keyOf (keyValue : JsString) : JsString :=
  if trim keyValue = [] then js "anonymous" else trim keyValue

structure Call where
  keyValue : JsString
  now : ℚ

def Call.key (call : Call) : JsString := keyOf call.keyValue

def consume (s : Settings) (call : Call) (events : Events) : RateLimitResult × Events :=
  let cutoff := call.now - s.windowMs
  let current := activeSince cutoff ((events.get call.key).getD [])
  if s.limit ≤ current.length then
    (⟨false, 0, max 1 (current.headD 0 + s.windowMs - call.now)⟩, events.set call.key current)
  else
    let current := current ++ [call.now]
    (⟨true, max 0 (s.limit - current.length), 0⟩,
      pruneIfNeeded s.maxKeys cutoff ((events.delete call.key).set call.key current))

/-! ## What it keeps -/

/-- The calls so far with their results, and the map. -/
structure World where
  log : List (Call × RateLimitResult) := []
  events : Events := ∅

def step (s : Settings) (w : World) (call : Call) : World :=
  let (result, events) := consume s call w.events
  { log := w.log ++ [(call, result)], events }

def allowedTimes (log : List (Call × RateLimitResult)) (key : JsString) : List ℚ :=
  (log.filter fun e => e.1.key = key ∧ e.2.allowed).map fun e => e.1.now

/-- What the limiter keeps of a key is what is left of its allowed calls, for every window from now on.
-/
structure Keeps (s : Settings) (w : World) (now : ℚ) (key : JsString) : Prop where
  same : ∀ cutoff, now - s.windowMs ≤ cutoff →
    activeSince cutoff ((w.events.get key).getD []) = activeSince cutoff (allowedTimes w.log key)
  past : ∀ t ∈ allowedTimes w.log key, t ≤ now
  few : (activeSince (now - s.windowMs) (allowedTimes w.log key)).length ≤ s.limit

theorem activeSince_activeSince {c c' : ℚ} (h : c ≤ c') (times : List ℚ) :
    activeSince c' (activeSince c times) = activeSince c' times := by
  rw [activeSince, activeSince, activeSince, filter_filter]
  refine filter_congr fun t _ => ?_
  rw [Bool.eq_iff_iff, Bool.and_eq_true, decide_eq_true_eq, decide_eq_true_eq]
  exact ⟨And.left, fun ht => ⟨ht, h.trans_lt ht⟩⟩

theorem length_activeSince_le {c c' : ℚ} (h : c ≤ c') (times : List ℚ) :
    (activeSince c' times).length ≤ (activeSince c times).length := by
  rw [← activeSince_activeSince h]
  exact length_filter_le _ _

theorem activeSince_append (c : ℚ) (times times' : List ℚ) :
    activeSince c (times ++ times') = activeSince c times ++ activeSince c times' := filter_append _ _

theorem limit_pos (options : SlidingWindowRateLimiterOptions) : 0 < (settings options).limit :=
  lt_of_lt_of_le one_pos (le_max_left _ _)

theorem allowedTimes_append (log log' : List (Call × RateLimitResult)) (key : JsString) :
    allowedTimes (log ++ log') key = allowedTimes log key ++ allowedTimes log' key := by
  simp [allowedTimes]

theorem allowedTimes_singleton (call : Call) (result : RateLimitResult) (key : JsString) :
    allowedTimes [(call, result)] key = if call.key = key ∧ result.allowed = true then [call.now] else [] := by
  simp only [allowedTimes, filter_cons, filter_nil]
  split_ifs with h h' h' <;> simp_all

section

variable {s : Settings} {w : World} {now : ℚ} {call : Call}

theorem Keeps.later {key : JsString} (h : Keeps s w now key) {now' : ℚ} (hnow : now ≤ now') :
    Keeps s w now' key where
  same cutoff hcutoff := h.same cutoff (by linarith)
  past t ht := (h.past t ht).trans hnow
  few := le_trans (Int.ofNat_le.mpr (length_activeSince_le (by linarith) _)) h.few

theorem consume_allowed_iff (h : Keeps s w now call.key) (hnow : now ≤ call.now) :
    (consume s call w.events).1.allowed = true ↔
      ((activeSince (call.now - s.windowMs) (allowedTimes w.log call.key)).length : ℤ) < s.limit := by
  have hsame := h.same (call.now - s.windowMs) (by linarith)
  simp only [consume, hsame]
  split_ifs with hfull
  · exact iff_of_false not_false (not_lt.mpr hfull)
  · exact iff_of_true rfl (not_le.mp hfull)

end

/-! ### Keys -/

def current (s : Settings) (call : Call) (events : Events) : List ℚ :=
  activeSince (call.now - s.windowMs) ((events.get call.key).getD [])

theorem consume_full {s : Settings} {call : Call} {events : Events}
    (h : s.limit ≤ (current s call events).length) : consume s call events =
      (⟨false, 0, max 1 ((current s call events).headD 0 + s.windowMs - call.now)⟩,
        events.set call.key (current s call events)) := if_pos h

theorem consume_room {s : Settings} {call : Call} {events : Events}
    (h : ¬ s.limit ≤ (current s call events).length) : consume s call events =
      (⟨true, max 0 (s.limit - (current s call events ++ [call.now]).length), 0⟩,
        pruneIfNeeded s.maxKeys (call.now - s.windowMs)
          ((events.delete call.key).set call.key (current s call events ++ [call.now]))) := if_neg h

theorem size_le_card {events : Events} {keys : Finset JsString} (h : ∀ k, events.has k = true → k ∈ keys) :
    events.size ≤ keys.card := by
  have hsub : (events.entries.map Prod.fst).toFinset ⊆ keys := by
    intro k hk
    rw [mem_toFinset, mem_map] at hk
    obtain ⟨⟨k, timestamps⟩, hmem, rfl⟩ := hk
    exact h k (JsMap.has_of_mem_get (JsMap.get_eq_some_iff.mpr hmem))
  calc events.size = (events.entries.map Prod.fst).length := (length_map _).symm
    _ = (events.entries.map Prod.fst).toFinset.card := (toFinset_card_of_nodup events.nodup).symm
    _ ≤ keys.card := Finset.card_le_card hsub

/-- The keys in use are among a few, and of each of them the limiter keeps what counts. -/
structure Exact (s : Settings) (keys : Finset JsString) (w : World) (now : ℚ) : Prop where
  keeps : ∀ key, Keeps s w now key
  few : ∀ k, w.events.has k = true → k ∈ keys

section

variable {s : Settings} {keys : Finset JsString} {w : World} {now : ℚ} {call : Call}

theorem consume_events (hkeys : keys.card ≤ s.maxKeys) (hfew : ∀ k, w.events.has k = true → k ∈ keys)
    (hcall : call.key ∈ keys) :
    (∀ k, (consume s call w.events).2.has k = true → k ∈ keys) ∧
      ∀ key, (consume s call w.events).2.get key =
        if key = call.key then
          some (activeSince (call.now - s.windowMs) ((w.events.get call.key).getD []) ++
            if (consume s call w.events).1.allowed then [call.now] else [])
        else w.events.get key := by
  have hset (events : Events) (current : List ℚ) (hevents : ∀ k, events.has k = true → k ∈ keys) (k : JsString)
      (hk : (events.set call.key current).has k = true) : k ∈ keys := by
    obtain rfl | hk := JsMap.has_set_iff.mp hk
    · exact hcall
    · exact hevents k hk
  have hdelete (k : JsString) (hk : (w.events.delete call.key).has k = true) : k ∈ keys :=
    hfew k (JsMap.has_delete_iff.mp hk).2
  by_cases hfull : s.limit ≤ (current s call w.events).length
  · rw [consume_full hfull]
    refine ⟨hset w.events _ hfew, fun key => ?_⟩
    rw [JsMap.get_set]
    simp [current]
  · rw [consume_room hfull]
    have hsmall := hset _ (current s call w.events ++ [call.now]) hdelete
    have hsize := (Nat.cast_le.mpr (size_le_card hsmall)).trans hkeys
    dsimp only
    rw [pruneIfNeeded, if_pos hsize]
    refine ⟨hsmall, fun key => ?_⟩
    rw [JsMap.get_set, JsMap.get_delete]
    split_ifs <;> simp_all [current]

theorem Keeps.step (h : Keeps s w now call.key) (hnow : now ≤ call.now)
    (hget : (SlidingWindow.step s w call).events.get call.key =
      some (activeSince (call.now - s.windowMs) ((w.events.get call.key).getD []) ++
        if (consume s call w.events).1.allowed then [call.now] else [])) :
    Keeps s (SlidingWindow.step s w call) call.now call.key := by
  have htimes : allowedTimes (SlidingWindow.step s w call).log call.key = allowedTimes w.log call.key ++
      if (consume s call w.events).1.allowed then [call.now] else [] := by
    show allowedTimes (w.log ++ [(call, (consume s call w.events).1)]) call.key = _
    rw [allowedTimes_append, allowedTimes_singleton]
    simp
  have hlater := h.later hnow
  refine ⟨fun cutoff hcutoff => ?_, fun t ht => ?_, ?_⟩
  · rw [hget, htimes, Option.getD_some, activeSince_append, activeSince_append, activeSince_activeSince hcutoff,
      hlater.same cutoff hcutoff]
  · rw [htimes, mem_append] at ht
    obtain ht | ht := ht
    · exact hlater.past t ht
    · split_ifs at ht with hallowed
      · exact (mem_singleton.mp ht).le
      · exact absurd ht not_mem_nil
  · rw [htimes, activeSince_append, length_append]
    split_ifs with hallowed
    · have hroom := (consume_allowed_iff h hnow).mp hallowed
      have hone : (activeSince (call.now - s.windowMs) [call.now]).length ≤ 1 := length_filter_le _ _
      push_cast
      omega
    · have hfew := hlater.few
      simpa [activeSince] using hfew

theorem Exact.step (h : Exact s keys w now) (hkeys : keys.card ≤ s.maxKeys)
    (hcall : call.key ∈ keys) (hnow : now ≤ call.now) :
    Exact s keys (SlidingWindow.step s w call) call.now := by
  obtain ⟨hfew, hget⟩ := consume_events hkeys h.few hcall
  refine ⟨fun key => ?_, hfew⟩
  by_cases hkey : key = call.key
  · subst hkey
    exact (h.keeps call.key).step hnow ((hget call.key).trans (if_pos rfl))
  · -- the times of the other keys stay as they are
    have hlater := (h.keeps key).later hnow
    have htimes : allowedTimes (SlidingWindow.step s w call).log key = allowedTimes w.log key := by
      show allowedTimes (w.log ++ [(call, (consume s call w.events).1)]) key = _
      rw [allowedTimes_append, allowedTimes_singleton, if_neg fun heq => hkey heq.1.symm, append_nil]
    have hsame : (SlidingWindow.step s w call).events.get key = w.events.get key :=
      (hget key).trans (if_neg hkey)
    exact ⟨by rw [htimes, hsame]; exact hlater.same, by rw [htimes]; exact hlater.past,
      by rw [htimes]; exact hlater.few⟩

end

/-! ## Runs -/

section

variable {s : Settings} {keys : Finset JsString}

theorem exact_nil (now : ℚ) (hlimit : 0 < s.limit) : Exact s keys {} now where
  keeps key := ⟨fun _ _ => rfl, nofun, hlimit.le⟩
  few k hk := absurd hk (by simp)

theorem Exact.later {w : World} {now now' : ℚ} (h : Exact s keys w now) (hnow : now ≤ now') :
    Exact s keys w now' := ⟨fun key => (h.keeps key).later hnow, h.few⟩

theorem exact_run (hlimit : 0 < s.limit) (hkeys : keys.card ≤ s.maxKeys)
    {calls : List Call} {now : ℚ} (hclock : calls.Pairwise fun a b => a.now ≤ b.now)
    (hcalls : ∀ call ∈ calls, call.key ∈ keys ∧ call.now ≤ now) :
    Exact s keys (run (step s) {} calls) now := by
  induction calls using List.reverseRecOn generalizing now with
  | nil => exact exact_nil now hlimit
  | append_singleton calls call ih =>
    rw [pairwise_append] at hclock
    rw [forall_mem_append, forall_mem_singleton] at hcalls
    obtain ⟨hbefore, -, hlast⟩ := hclock
    obtain ⟨hcalls, hkey, hnow⟩ := hcalls
    have hexact : Exact s keys (run (step s) {} calls) call.now :=
      ih hbefore fun c hc => ⟨(hcalls c hc).1, hlast c hc call mem_cons_self⟩
    rw [run_append]
    exact (hexact.step hkeys hkey le_rfl).later hnow

theorem log_run (w : World) (calls : List Call) :
    ∃ more, (run (step s) w calls).log = w.log ++ more ∧ more.length = calls.length := by
  induction calls generalizing w with
  | nil => exact ⟨[], (append_nil _).symm, rfl⟩
  | cons call calls ih =>
    obtain ⟨more, hmore, hlen⟩ := ih (step s w call)
    refine ⟨(call, (consume s call w.events).1) :: more, ?_, by rw [length_cons, length_cons, hlen]⟩
    rw [run_cons, hmore, append_cons]
    rfl

theorem allowedTimes_of_refused {log : List (Call × RateLimitResult)} {key : JsString}
    (h : ∀ e ∈ log, e.1.key = key → e.2.allowed = false) : allowedTimes log key = [] := by
  rw [allowedTimes, map_eq_nil_iff, filter_eq_nil_iff]
  intro e he
  rw [decide_eq_true_eq]
  rintro ⟨hkey, hallowed⟩
  rw [h e he hkey] at hallowed
  exact absurd hallowed nofun

end

def resultAfter (s : Settings) (before : List Call) (call : Call) : RateLimitResult :=
  (consume s call (run (step s) {} before).events).1

def results (s : Settings) (calls : List Call) : List (Call × RateLimitResult) := (run (step s) {} calls).log

theorem results_append_cons (s : Settings) (before between : List Call) (call : Call) :
    results s (before ++ call :: between) = results s before ++ (call, resultAfter s before call) ::
      (results s (before ++ call :: between)).drop (before.length + 1) := by
  obtain ⟨more, hmore, -⟩ := log_run (s := s) (step s (run (step s) {} before) call) between
  obtain ⟨log, hlog, hlen⟩ := log_run (s := s) {} before
  have hall : results s (before ++ call :: between) =
      results s before ++ (call, resultAfter s before call) :: more := by
    rw [results, run_append, run_cons, hmore]
    exact append_assoc _ _ _
  have hbefore : (results s before).length = before.length := by
    rw [results, hlog, nil_append, hlen]
  rw [hall, drop_append, hbefore, drop_eq_nil_of_le (by omega)]
  simp

section

variable {s : Settings} {w : World} {call : Call}

theorem current_eq (h : Keeps s w call.now call.key) :
    current s call w.events = activeSince (call.now - s.windowMs) (allowedTimes w.log call.key) :=
  h.same _ le_rfl

theorem refused_spec (h : Keeps s w call.now call.key) (hlimit : 0 < s.limit)
    (hrefused : (consume s call w.events).1.allowed = false) :
    ∃ oldest rest, activeSince (call.now - s.windowMs) (allowedTimes w.log call.key) = oldest :: rest ∧
      (rest.length : ℤ) < s.limit ∧
      (consume s call w.events).1.retryAfterMs = max 1 (oldest + s.windowMs - call.now) := by
  have hfull : s.limit ≤ (current s call w.events).length := by
    by_contra hroom
    rw [consume_room hroom] at hrefused
    exact absurd hrefused nofun
  have hfew := h.few
  rw [consume_full hfull]
  rw [← current_eq h] at hfew ⊢
  cases hcurrent : current s call w.events with
  | nil =>
    rw [hcurrent, length_nil] at hfull
    omega
  | cons oldest rest =>
    rw [hcurrent, length_cons] at hfew
    exact ⟨oldest, rest, rfl, by omega, rfl⟩

theorem room_after_wait {times rest : List ℚ} {c c' oldest : ℚ} (h : activeSince c times = oldest :: rest)
    (hc : c ≤ c') (hleft : oldest ≤ c') : (activeSince c' times).length ≤ rest.length := by
  rw [← activeSince_activeSince hc, h, activeSince, filter_cons_of_neg (by simpa using hleft)]
  exact length_filter_le _ _

end

/-- **The sliding window is exact** while the clock does not go back and no key is dropped: a call is
allowed while fewer than `limit` of the allowed calls of its key are in the window, and again once the
time that a refusal named has passed. -/
theorem sliding_window_exact (options : SlidingWindowRateLimiterOptions) (calls : List Call)
    (hclock : calls.Pairwise fun a b => a.now ≤ b.now)
    (hkeys : ((calls.map Call.key).toFinset.card : ℤ) ≤ (settings options).maxKeys) :
    let s := settings options
    (∀ before call after, calls = before ++ call :: after →
      ((resultAfter s before call).allowed = true ↔
        (((allowedTimes (results s before) call.key).countP fun t =>
          call.now - s.windowMs < t ∧ t ≤ call.now : ℕ) : ℤ) < s.limit)) ∧
    ∀ before refused between call after, calls = before ++ refused :: (between ++ call :: after) →
      call.key = refused.key → (resultAfter s before refused).allowed = false →
      (∀ e ∈ (results s (before ++ refused :: between)).drop (before.length + 1),
        e.1.key = refused.key → e.2.allowed = false) →
      refused.now + (resultAfter s before refused).retryAfterMs ≤ call.now →
      (resultAfter s (before ++ refused :: between) call).allowed = true := by
  intro s
  have hexact (before : List Call) (call : Call) (after : List Call) (heq : calls = before ++ call :: after) :
      Exact s (calls.map Call.key).toFinset (run (step s) {} before) call.now := by
    subst heq
    obtain ⟨hbefore, -, hlast⟩ := List.pairwise_append.mp hclock
    refine exact_run (limit_pos options) hkeys hbefore fun c hc => ⟨?_, ?_⟩
    · rw [List.mem_toFinset]
      exact List.mem_map_of_mem (List.mem_append_left _ hc)
    · exact hlast c hc call List.mem_cons_self
  refine ⟨fun before call after heq => ?_, ?_⟩
  · have hkeeps := (hexact before call after heq).keeps call.key
    rw [resultAfter, consume_allowed_iff hkeeps le_rfl, activeSince, ← List.countP_eq_length_filter]
    refine iff_of_eq (congrArg (fun n : ℕ => (n : ℤ) < s.limit) (List.countP_congr fun t ht => ?_))
    simp [hkeeps.past t ht]
  · intro before refused between call after heq hkey hrefused hbetween hwait
    have hthen := (hexact before refused (between ++ call :: after) heq).keeps refused.key
    have hnow := (hexact (before ++ refused :: between) call after (by rw [heq]; simp)).keeps call.key
    obtain ⟨oldest, rest, hcurrent, hfew, hretry⟩ := refused_spec hthen (limit_pos options) hrefused
    have htimes : allowedTimes (results s (before ++ refused :: between)) refused.key =
        allowedTimes (results s before) refused.key := by
      rw [results_append_cons, allowedTimes_append,
        allowedTimes_of_refused (List.forall_mem_cons.mpr ⟨fun _ => hrefused, hbetween⟩), List.append_nil]
    have hwait : refused.now + max 1 (oldest + s.windowMs - refused.now) ≤ call.now := hretry ▸ hwait
    have hone := le_max_left 1 (oldest + s.windowMs - refused.now)
    have hold := le_max_right 1 (oldest + s.windowMs - refused.now)
    have hcutoff : refused.now - s.windowMs ≤ call.now - s.windowMs := by
      linarith
    have hroom := room_after_wait hcurrent hcutoff (by linarith)
    rw [resultAfter, consume_allowed_iff hnow le_rfl, hkey]
    have hlen : (activeSince (call.now - s.windowMs)
        (allowedTimes (results s (before ++ refused :: between)) refused.key)).length ≤ rest.length := by
      rw [htimes]
      exact hroom
    exact lt_of_le_of_lt (Int.ofNat_le.mpr hlen) hfew

/-- Two calls in a second are allowed, the third has to wait until the first is a second old. -/
theorem sliding_window_exact_third :
    let options : SlidingWindowRateLimiterOptions := { limit := 2, windowMs := 1000 }
    let at_ (now : ℚ) : Call := ⟨js "u", now⟩
    (resultAfter (settings options) [at_ 0, at_ 400, at_ 700] (at_ 1000)).allowed = true := by
  intro options at_
  have hexact := sliding_window_exact options [at_ 0, at_ 400, at_ 700, at_ 1000] (by decide +kernel)
    (by decide +kernel)
  exact hexact.2 [at_ 0, at_ 400] (at_ 700) [] (at_ 1000) [] rfl rfl (by decide +kernel) (by decide +kernel)
    (by decide +kernel)

end ForwardX.Panel.SlidingWindow

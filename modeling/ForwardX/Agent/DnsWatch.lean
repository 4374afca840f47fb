/-
The DNS watch of the agent, `updateDNSWatchWithLookupAt` of `agent/dnswatch.go`.

A change must be seen in three scans in a row and for long enough before it is reported. The
invariant ties the candidate of a host to the answers of its last scans, so that a report says what
these were.
-/
import ForwardX.Lib.Run
import Mathlib.Data.Int.Order.Basic
import Mathlib.Data.List.Basic
import Mathlib.Data.List.Induction
import Mathlib.Data.Nat.Basic

namespace ForwardX.Agent.DnsWatch

open Run

/-! ## Scans -/

structure DnsWatchItem where
  Host : String
  Scope : String
  RefID : ℤ

structure DnsChangeReport where
  Host : String
  Scope : String
  RefID : ℤ
  Old : List String
  New : List String

structure DnsWatchCandidate where
  IPs : List String := []
  Confirmations : ℕ := 0
  FirstSeen : ℤ := 0

structure DnsWatchRetiredSnapshot where
  IPs : List String
  ReplacedAt : ℤ

/-- What the maps `dnsWatchSnapshot`, `dnsWatchCandidates` and `dnsWatchRetiredSnapshots` hold under one key.
Times are in nanoseconds. -/
structure HostWatch where
  snapshot : List String := []
  candidate : DnsWatchCandidate := {}
  retired : Option DnsWatchRetiredSnapshot := none

def dnsChangeConfirmations : ℕ := 3

def dnsChangeConfirmationWindow : ℤ := 10 * 1000000000

def dnsRollbackHoldDown : ℤ := 5 * 60 * 1000000000

/-- A host in a scan, and whether its change is reported: it is not watched any more, or its lookup gave
these addresses. -/
def HostWatch.scan (w : HostWatch) (now : ℤ) : Option (List String) → HostWatch × Bool
  | none => ({}, false)
  | some ips =>
    let retired := w.retired.filter fun r => r.IPs ≠ [] ∧ now - r.ReplacedAt < dnsRollbackHoldDown
    if ips = [] then ({ snapshot := w.snapshot, retired }, false)
    else if w.snapshot = [] then ({ snapshot := ips, retired }, false)
    else if w.snapshot = ips ∨ retired.any (·.IPs = ips) then ({ snapshot := w.snapshot, retired }, false)
    else
      let candidate :=
        if w.candidate.IPs = ips then { w.candidate with Confirmations := w.candidate.Confirmations + 1 }
        else ⟨ips, 1, now⟩
      if candidate.Confirmations < dnsChangeConfirmations ∨
          now - candidate.FirstSeen < dnsChangeConfirmationWindow then
        ({ snapshot := w.snapshot, candidate, retired }, false)
      else ({ snapshot := ips, retired := some ⟨w.snapshot, now⟩ }, true)

structure Scan where
  items : List DnsWatchItem
  lookup : String → List String
  now : ℤ

structure Naming where
  normalizeDNSWatchHost : String → String
  toLower : String → String

section

variable (t : Naming)

def watchedItems (items : List DnsWatchItem) (key : String) : List DnsWatchItem :=
  (items.map fun item => { item with Host := t.normalizeDNSWatchHost item.Host }).filter fun item =>
    item.Host ≠ "" ∧ t.toLower item.Host = key

/-- `watched[key]`. -/
def watched (items : List DnsWatchItem) (key : String) : Option String :=
  (watchedItems t items key).getLast?.map DnsWatchItem.Host

def answer (key : String) (s : Scan) : Option (List String) :=
  (watched t s.items key).map s.lookup

def hostScan (watches : String → HostWatch) (s : Scan) (key : String) : HostWatch × Bool :=
  (watches key).scan s.now (answer t key s)

def updateDNSWatchWithLookupAt (watches : String → HostWatch) (s : Scan) : String → HostWatch :=
  fun key => (hostScan t watches s key).1

def watchesAfter : List Scan → String → HostWatch := run (updateDNSWatchWithLookupAt t) fun _ => {}

/-- The reports that a scan appends for a key, one for each reference. -/
def reports (watches : String → HostWatch) (s : Scan) (key : String) : List DnsChangeReport :=
  if (hostScan t watches s key).2 then
    (watchedItems t s.items key).map fun item =>
      ⟨(watched t s.items key).getD "", item.Scope, item.RefID, (watches key).snapshot,
        (answer t key s).getD []⟩
  else []

end

/-! ## What is confirmed -/

section

variable {t : Naming} {key : String}

/-- The candidate is what the last scans answered, as many as there are confirmations. -/
def Confirmed (t : Naming) (key : String) (es : List Scan) (c : DnsWatchCandidate) : Prop :=
  c.IPs = [] ∨ ∃ before seen, es = before ++ seen ∧ seen.length = c.Confirmations ∧
    (∀ s ∈ seen, answer t key s = some c.IPs) ∧ seen.head?.map Scan.now = some c.FirstSeen

/-- What a change has behind it. -/
structure Changes (w : HostWatch) (now : ℤ) (ips : List String) (out : HostWatch × Bool) : Prop where
  moved : ips ≠ w.snapshot ∧ out.1.snapshot = ips
  candidate : w.candidate.IPs = ips ∧ ips ≠ []
  confirmations : dnsChangeConfirmations ≤ w.candidate.Confirmations + 1
  window : dnsChangeConfirmationWindow ≤ now - w.candidate.FirstSeen
  dropped : out.1.candidate.IPs = []

theorem scan_cases (w : HostWatch) (now : ℤ) (ips : List String) :
    ((w.scan now (some ips)).2 = true ∧ Changes w now ips (w.scan now (some ips))) ∨
      (w.scan now (some ips)).2 = false ∧
        (w.snapshot = [] ∨ (w.scan now (some ips)).1.snapshot = w.snapshot) ∧
        ((w.scan now (some ips)).1.candidate.IPs = [] ∨
          (w.candidate.IPs = ips ∧ (w.scan now (some ips)).1.candidate
            = { w.candidate with Confirmations := w.candidate.Confirmations + 1 }) ∨
          (w.scan now (some ips)).1.candidate = ⟨ips, 1, now⟩) := by
  rw [HostWatch.scan]
  dsimp only
  by_cases hips : ips = []
  · rw [if_pos hips]
    exact .inr ⟨rfl, .inr rfl, .inl rfl⟩
  rw [if_neg hips]
  by_cases hfirst : w.snapshot = []
  · rw [if_pos hfirst]
    exact .inr ⟨rfl, .inl hfirst, .inl rfl⟩
  rw [if_neg hfirst]
  split_ifs with hstable hsame hearly hearly
  · exact .inr ⟨rfl, .inr rfl, .inl rfl⟩
  · exact .inr ⟨rfl, .inr rfl, .inr (.inl ⟨hsame, rfl⟩)⟩
  · obtain ⟨hcount, hspan⟩ := not_or.mp hearly
    exact .inl ⟨rfl, ⟨fun h => hstable (.inl h.symm), rfl⟩, ⟨hsame, hips⟩, not_lt.mp hcount, not_lt.mp hspan, rfl⟩
  · exact .inr ⟨rfl, .inr rfl, .inr (.inr rfl)⟩
  · exact absurd (.inl (by show 1 < 3; decide)) hearly

theorem confirmed_run (es : List Scan) : Confirmed t key es (watchesAfter t es key).candidate := by
  induction es using List.reverseRecOn with
  | nil => exact .inl rfl
  | append_singleton es e ih =>
    rw [watchesAfter, run_append, ← watchesAfter]
    generalize watchesAfter t es = watches at ih
    show Confirmed t key (es ++ [e])
      ((watches key).scan e.now (answer t key e)).1.candidate
    cases hanswer : answer t key e with
    | none => exact .inl rfl
    | some ips =>
      obtain ⟨-, hchanges⟩ | ⟨-, -, hnone | ⟨hsame, hagain⟩ | hnew⟩ := scan_cases (watches key) e.now ips
      · exact .inl hchanges.dropped
      · exact .inl hnone
      · rw [hagain]
        obtain hempty | ⟨before, seen, rfl, hlength, hseen, hhead⟩ := ih
        · exact .inl hempty
        · refine .inr ⟨before, seen ++ [e], by rw [List.append_assoc], by simp [hlength], ?_, ?_⟩
          · intro s hs
            obtain hs | hs := List.mem_append.mp hs
            · exact hseen s hs
            · rw [List.mem_singleton.mp hs, hanswer, hsame]
          · rw [List.head?_append, ← hhead]
            cases seen <;> first | rfl | cases hhead
      · rw [hnew]
        refine .inr ⟨es, [e], rfl, rfl, ?_, rfl⟩
        simpa using hanswer

/-- **DNS changes are debounced.** In every run of scans a host's snapshot is replaced only with a report for
each of its references, and what is reported has been the answer of three scans in a row that span the
confirmation window. -/
theorem dns_changes_debounced (es : List Scan) (e : Scan) :
    let watches := watchesAfter t es
    let new := (updateDNSWatchWithLookupAt t watches e key).snapshot
    (∀ r ∈ reports t watches e key, r.Old = (watches key).snapshot ∧ r.New = new ∧ new ≠ r.Old ∧
      ∃ before seen, es = before ++ seen ∧ dnsChangeConfirmations ≤ (seen ++ [e]).length ∧
        (∀ s ∈ seen ++ [e], answer t key s = some new) ∧
        ∃ first ∈ seen.head?, dnsChangeConfirmationWindow ≤ e.now - first.now) ∧
    ((watches key).snapshot ≠ [] → new ≠ (watches key).snapshot → answer t key e ≠ none →
      ∀ item ∈ watchedItems t e.items key,
        ∃ r ∈ reports t watches e key, r.Scope = item.Scope ∧ r.RefID = item.RefID) := by
  intro watches new
  have hconfirmed : Confirmed t key es (watches key).candidate := confirmed_run es
  have hscan : hostScan t watches e key = (watches key).scan e.now (answer t key e) := rfl
  have hnew : new = (hostScan t watches e key).1.snapshot := rfl
  clear_value watches new
  rw [reports, hnew, hscan]
  cases hanswer : answer t key e with
  | none => exact ⟨by simp [HostWatch.scan], fun _ _ h => absurd rfl h⟩
  | some ips =>
    obtain ⟨hchanged, hchanges⟩ | ⟨hquiet, hkept, -⟩ := scan_cases (watches key) e.now ips
    · rw [if_pos hchanged]
      refine ⟨fun r hr => ?_, fun _ _ _ item hitem => ⟨_, List.mem_map_of_mem hitem, rfl, rfl⟩⟩
      obtain ⟨item, -, rfl⟩ := List.mem_map.mp hr
      obtain ⟨hmoved, hsnapshot⟩ := hchanges.moved
      obtain ⟨hsame, hips⟩ := hchanges.candidate
      obtain hempty | ⟨before, seen, hes, hlength, hseen, hhead⟩ := hconfirmed
      · exact absurd (hsame.symm.trans hempty) hips
      obtain ⟨first, hfirst, hat⟩ := Option.map_eq_some_iff.mp hhead
      refine ⟨rfl, hsnapshot.symm, fun h => hmoved (hsnapshot.symm.trans h), before, seen, hes, ?_, ?_,
        first, hfirst, ?_⟩
      · rw [List.length_append, hlength]
        exact hchanges.confirmations
      · rw [hsnapshot, ← hsame]
        intro s hs
        obtain hs | hs := List.mem_append.mp hs
        · exact hseen s hs
        · rw [List.mem_singleton.mp hs, hanswer, hsame]
      · rw [hat]
        exact hchanges.window
    · rw [if_neg (by simp [hquiet])]
      exact ⟨fun r hr => absurd hr List.not_mem_nil,
        fun hold hmoved _ => absurd (hkept.resolve_left hold) hmoved⟩

example : (reports ⟨id, id⟩ (watchesAfter ⟨id, id⟩ ([(0, "a"), (1, "b"), (2, "b")].map fun s =>
    ⟨[⟨"h", "s", 1⟩], fun _ => [s.2], s.1⟩)) ⟨[⟨"h", "s", 1⟩], fun _ => ["b"], 10000000001⟩ "h").map
      DnsChangeReport.New = [["b"]] := by
  decide

end

end ForwardX.Agent.DnsWatch

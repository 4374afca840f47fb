/-
Memories that forget, and the challenges of `server/agentAuthChallenge.ts`.
-/
import ForwardX.Lib.BigEndian
import ForwardX.Lib.JsMap
import ForwardX.Panel.PanelClock

namespace ForwardX.Panel

open BigEndian

/-! ## Memories -/

structure Memory where
  seen : JsMap JsString ℚ := ∅
  cleanupAt : ℚ := 0

/-- The key is in the memory at least until the given time. -/
def Memory.Holds (m : Memory) (key : JsString) (deadline : ℚ) : Prop :=
  ∃ expiresAt ∈ m.seen.get key, deadline ≤ expiresAt

/-- `cleanupReplayCache` and `cleanupConsumedChallenges`. -/
def Memory.sweep (m : Memory) (intervalMs now : ℚ) : Memory :=
  if now < m.cleanupAt then m
  else ⟨m.seen.filter fun _ expiresAt => now < expiresAt, now + intervalMs⟩

theorem Memory.holds_sweep {m : Memory} {key : JsString} {deadline now : ℚ} (intervalMs : ℚ)
    (h : m.Holds key deadline) (hnow : now < deadline) : (m.sweep intervalMs now).Holds key deadline := by
  obtain ⟨expiresAt, hread, hlong⟩ := h
  rw [Option.mem_def] at hread
  unfold Memory.sweep
  split
  · exact ⟨expiresAt, hread, hlong⟩
  · refine ⟨expiresAt, ?_, hlong⟩
    rw [Option.mem_def, JsMap.get_filter, hread, Option.filter_some, if_pos]
    exact decide_eq_true (lt_of_lt_of_le hnow hlong)

theorem Memory.holds_set {m : Memory} {key key' : JsString} {deadline expiresAt : ℚ}
    (h : m.Holds key deadline) (hnew : key = key' → deadline ≤ expiresAt) :
    Memory.Holds { m with seen := m.seen.set key' expiresAt } key deadline := by
  obtain ⟨old, hread, hlong⟩ := h
  by_cases hkey : key = key'
  · refine ⟨expiresAt, ?_, hnew hkey⟩
    rw [Option.mem_def, JsMap.get_set, if_pos hkey]
  · refine ⟨old, ?_, hlong⟩
    rw [Option.mem_def, JsMap.get_set, if_neg hkey]
    exact hread

/-! ## Digests -/

/-- `createHash("sha256")` of a text, and `createHmac("sha256", key)` of a text and of
bytes. -/
structure Digests where
  sha256 : JsString → List UInt8
  hmacText : List UInt8 → JsString → List UInt8
  hmac : List UInt8 → List UInt8 → List UInt8

/-! ## Base 64 -/

/-- Capitals, small letters, digits, `-` and `_`. -/
def base64urlAlphabet : JsString :=
  (List.range 26).map (fun i => UInt16.ofNat (0x41 + i)) ++
    (List.range 26).map (fun i => UInt16.ofNat (0x61 + i)) ++
    (List.range 10).map (fun i => UInt16.ofNat (0x30 + i)) ++ [0x2D, 0x5F]

def base64urlUnit (n : ℕ) : UInt16 := base64urlAlphabet.getD (n % 64) 0

def base64url : List UInt8 → JsString
  | a :: b :: c :: bs =>
    let n := a.toNat * 65536 + b.toNat * 256 + c.toNat
    [base64urlUnit (n / 262144), base64urlUnit (n / 4096), base64urlUnit (n / 64), base64urlUnit n]
      ++ base64url bs
  | [a, b] =>
    let n := a.toNat * 1024 + b.toNat * 4
    [base64urlUnit (n / 4096), base64urlUnit (n / 64), base64urlUnit n]
  | [a] => [base64urlUnit (a.toNat / 4), base64urlUnit (a.toNat * 16)]
  | [] => []

/-- `Buffer.from(s, "base64url")` on a text of the alphabet, as the values of its units. -/
def fromBase64url : List ℕ → List UInt8
  | a :: b :: c :: d :: s =>
    let n := a * 262144 + b * 4096 + c * 64 + d
    [UInt8.ofNat (n / 65536), UInt8.ofNat (n / 256), UInt8.ofNat n] ++ fromBase64url s
  | [a, b, c] =>
    let n := a * 4096 + b * 64 + c
    [UInt8.ofNat (n / 1024), UInt8.ofNat (n / 4)]
  | [a, b] => [UInt8.ofNat ((a * 64 + b) / 16)]
  | _ => []

theorem nodup_base64urlAlphabet : base64urlAlphabet.Nodup := by decide +kernel

theorem idxOf_base64urlUnit (n : ℕ) : base64urlAlphabet.idxOf (base64urlUnit n) = n % 64 := by
  have hlt : n % 64 < base64urlAlphabet.length := Nat.mod_lt n (by decide)
  rw [base64urlUnit, List.getD_eq_getElem?_getD, List.getElem?_eq_getElem hlt, Option.getD_some]
  exact nodup_base64urlAlphabet.idxOf_getElem _ hlt

theorem ofNat_eq_of_mod {n : ℕ} {a : UInt8} (h : n % 256 = a.toNat) : UInt8.ofNat n = a := by
  rw [← UInt8.toNat_inj, UInt8.toNat_ofNat']
  exact h

theorem fromBase64url_base64url (bs : List UInt8) :
    fromBase64url ((base64url bs).map base64urlAlphabet.idxOf) = bs := by
  induction bs using base64url.induct with
  | case1 a b c bs ih =>
    simp only [base64url, List.map_cons, List.cons_append, List.nil_append, fromBase64url,
      idxOf_base64urlUnit, ih]
    have ha := a.toNat_lt
    have hb := b.toNat_lt
    have hc := c.toNat_lt
    rw [ofNat_eq_of_mod (a := a) (by omega), ofNat_eq_of_mod (a := b) (by omega),
      ofNat_eq_of_mod (a := c) (by omega)]
  | case2 a b =>
    simp only [base64url, List.map_cons, List.map_nil, fromBase64url, idxOf_base64urlUnit]
    have ha := a.toNat_lt
    have hb := b.toNat_lt
    rw [ofNat_eq_of_mod (a := a) (by omega), ofNat_eq_of_mod (a := b) (by omega)]
  | case3 a =>
    simp only [base64url, List.map_cons, List.map_nil, fromBase64url, idxOf_base64urlUnit]
    have ha := a.toNat_lt
    rw [ofNat_eq_of_mod (a := a) (by omega)]
  | case4 => rfl

/-! ## Challenges -/

def challengePayloadBytes : ℕ := 8 + 24

def challengeBytes : ℕ := challengePayloadBytes + 32

def challengeValidityMs : ℚ := 10 * 60 * 1000

def challengeFutureToleranceMs : ℚ := 1000

def consumedCacheCleanupIntervalMs : ℚ := 10000

section

variable (d : Digests) (challengeSecret : List UInt8)

def challengeMac (payload : List UInt8) : List UInt8 :=
  d.hmac challengeSecret ((js "forwardx-agent-challenge-v2\n").map UInt16.toUInt8 ++ payload)

def isBase64url (u : UInt16) : Bool := u ∈ base64urlAlphabet

def decodeChallenge (value : JsString) : Option (List UInt8) :=
  if 80 ≤ value.length ∧ value.length ≤ 100 ∧ value.all isBase64url then
    let decoded := fromBase64url (value.map base64urlAlphabet.idxOf)
    if decoded.length ≠ challengeBytes ∨ base64url decoded ≠ value then none else some decoded
  else none

def issueAgentAuthChallenge (random : List UInt8) (nowMs : ℚ) : JsString :=
  let payload := beBytes 8 (max 0 ⌊nowMs⌋).toNat ++ random
  base64url (payload ++ challengeMac d challengeSecret payload)

def validateAgentAuthChallenge (challenge : JsString) (nowMs : ℚ) : Bool :=
  match decodeChallenge challenge with
  | none => false
  | some decoded =>
    let payload := decoded.take challengePayloadBytes
    let receivedMac := decoded.drop challengePayloadBytes
    if receivedMac ≠ challengeMac d challengeSecret payload then false
    else
      let ageMs := nowMs - beNat (payload.take 8)
      decide (-challengeFutureToleranceMs ≤ ageMs) && decide (ageMs ≤ challengeValidityMs)

/-- Whether the challenge could be used, and the memory after it. -/
def consumeAgentAuthChallenge (consumed : Memory) (challenge : JsString) (nowMs : ℚ) : Bool × Memory :=
  if !validateAgentAuthChallenge d challengeSecret challenge nowMs then (false, consumed)
  else
    let consumed := consumed.sweep consumedCacheCleanupIntervalMs nowMs
    if nowMs < (consumed.seen.get challenge).getD 0 then (false, consumed)
    else (true, { consumed with seen := consumed.seen.set challenge (nowMs + challengeValidityMs) })

end

end ForwardX.Panel

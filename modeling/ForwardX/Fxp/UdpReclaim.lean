/-
Pressure reclamation of UDP sessions: what `planFXPUDPPressureReclamation` of
`forwardx-fxp/udp_tuning.go` gives up.

The plan walks over the idle sessions from the oldest on and stops when the pressure is gone, for
the table and for each address. Its fairness is said of the plan as a list, prefix by prefix.
-/
import ForwardX.Fxp.UdpSessions

namespace ForwardX.Fxp

open List

def fxpUDPSessionPressure (total perIP : ℤ) (incomingIP : String) (policy : FxpUDPSessionPolicy) : Bool :=
  (policy.softSessions > 0 && total ≥ policy.softSessions) ||
    (incomingIP ≠ "" && policy.softPerIP > 0 && perIP ≥ policy.softPerIP)

theorem fxpUDPSessionPressure_iff {total perIP : ℤ} {ip : String} {policy : FxpUDPSessionPolicy} :
    fxpUDPSessionPressure total perIP ip policy = true ↔
      (policy.softSessions > 0 ∧ total ≥ policy.softSessions) ∨
        (ip ≠ "" ∧ policy.softPerIP > 0 ∧ perIP ≥ policy.softPerIP) := by
  unfold fxpUDPSessionPressure
  simp only [Bool.or_eq_true, Bool.and_eq_true, decide_eq_true_eq, and_assoc]

abbrev SessionMap (T : Type) := GoMap String (Option T)

namespace SessionMap

variable {T : Type} (snapshot : T → FxpUDPSessionSnapshot) (policy : FxpUDPSessionPolicy)

/-- The sessions the loop over the map does not skip. -/
def listed (m : SessionMap T) : List (String × T) :=
  m.entries.filterMap fun e => e.2.map (Prod.mk e.1)

def ofIP (m : SessionMap T) (ip : String) : ℕ :=
  m.listed.countP fun e => (snapshot e.2).sourceIP == ip

/-- The map without the sessions that were given up. -/
def without (m : SessionMap T) (gone : List (String × T)) : SessionMap T :=
  gone.foldl (fun m e => m.erase e.1) m

/-- A session of this address is under pressure: the total or the address is at its limit. -/
def Pressed (m : SessionMap T) (ip : String) : Prop :=
  fxpUDPSessionPressure m.listed.length (m.ofIP snapshot ip) ip policy = true

instance (m : SessionMap T) (ip : String) : Decidable (m.Pressed snapshot policy ip) :=
  inferInstanceAs (Decidable (_ = true))

/-- The loop over candidates, on the map of the sessions that are left. -/
def reclaim (m : SessionMap T) : List (String × T) → List (String × T)
  | [] => []
  | e :: rest =>
    if m.Pressed snapshot policy (snapshot e.2).sourceIP then e :: reclaim (m.erase e.1) rest
    else reclaim m rest

variable {snapshot policy} {m : SessionMap T}

/-! ## Counts -/

variable {e : String × T}

theorem mem_listed : e ∈ m.listed ↔ m.lookup e.1 = some (some e.2) := by
  rw [GoMap.lookup_eq_some_iff, listed, mem_filterMap]
  constructor
  · rintro ⟨⟨k, x⟩, hmem, hx⟩
    cases x with
    | none => cases hx
    | some s =>
      cases hx
      exact hmem
  · exact fun hmem => ⟨_, hmem, rfl⟩

section

variable {key : String} {s : T} (h : m.lookup key = some (some s))

include h

theorem listed_perm : m.listed.Perm ((key, s) :: SessionMap.listed (m.erase key)) := by
  have hperm := (GoMap.entries_perm_of_lookup h).filterMap
    fun e : (_ : String) × Option T => e.2.map (Prod.mk e.1)
  exact hperm

theorem length_listed : m.listed.length = (SessionMap.listed (m.erase key)).length + 1 :=
  (listed_perm h).length_eq

theorem ofIP_eq (ip : String) :
    m.ofIP snapshot ip = SessionMap.ofIP snapshot (m.erase key) ip
      + if (snapshot s).sourceIP == ip then 1 else 0 := by
  rw [ofIP, (listed_perm h).countP_eq, countP_cons]
  rfl

end

theorem listed_erase_sublist (m : SessionMap T) (key : String) :
    (SessionMap.listed (m.erase key)).Sublist m.listed :=
  (kerase_sublist key m.entries).filterMap _

theorem Pressed.of_erase {key ip : String}
    (h : SessionMap.Pressed snapshot policy (m.erase key) ip) : m.Pressed snapshot policy ip := by
  have hlength := (listed_erase_sublist m key).length_le
  have hcount : SessionMap.ofIP snapshot (m.erase key) ip ≤ m.ofIP snapshot ip :=
    (listed_erase_sublist m key).countP_le
  unfold Pressed at h ⊢
  rw [fxpUDPSessionPressure_iff] at h ⊢
  obtain ⟨hsoft, htotal⟩ | ⟨hip, hsoft, hperIP⟩ := h
  · exact .inl ⟨hsoft, by omega⟩
  · exact .inr ⟨hip, hsoft, by omega⟩

theorem Pressed.of_without {gone : List (String × T)} {ip : String}
    (h : (m.without gone).Pressed snapshot policy ip) : m.Pressed snapshot policy ip := by
  induction gone generalizing m with
  | nil => exact h
  | cons e gone ih => exact (ih h).of_erase

/-! ## The loop -/

variable {rest : List (String × T)}

theorem reclaim_cons_of_pressed
    (h : m.Pressed snapshot policy (snapshot e.2).sourceIP) :
    m.reclaim snapshot policy (e :: rest)
      = e :: reclaim snapshot policy (m.erase e.1) rest := if_pos h

theorem reclaim_cons_of_not_pressed
    (h : ¬m.Pressed snapshot policy (snapshot e.2).sourceIP) :
    m.reclaim snapshot policy (e :: rest) = m.reclaim snapshot policy rest := if_neg h

theorem lookup_erase_of_nodup (hnodup : ((e :: rest).map Prod.fst).Nodup)
    (hlisted : ∀ x ∈ e :: rest, m.lookup x.1 = some (some x.2)) :
    ∀ x ∈ rest, (m.erase e.1).lookup x.1 = some (some x.2) := by
  intro x hx
  have hne : x.1 ≠ e.1 := fun heq =>
    (nodup_cons.mp hnodup).1 (heq ▸ mem_map_of_mem (f := Prod.fst) hx)
  rw [AList.lookup_erase_ne hne]
  exact hlisted x (mem_cons_of_mem _ hx)

variable {cs : List (String × T)}

theorem reclaimLoop_eq {total : ℤ} {perIP : String → ℤ}
    (hnodup : (cs.map Prod.fst).Nodup) (hlisted : ∀ x ∈ cs, m.lookup x.1 = some (some x.2))
    (htotal : total = m.listed.length) (hperIP : ∀ ip, ip ≠ "" → perIP ip = m.ofIP snapshot ip) :
    reclaimLoop snapshot policy cs total perIP = m.reclaim snapshot policy cs := by
  induction cs generalizing m total perIP with
  | nil => rfl
  | cons e rest ih =>
    have hrest := (nodup_cons.mp hnodup).2
    have hpressed : ¬(policy.softSessions > 0 ∧ total ≥ policy.softSessions) ∧
        ¬((snapshot e.2).sourceIP ≠ "" ∧ policy.softPerIP > 0 ∧
          perIP (snapshot e.2).sourceIP ≥ policy.softPerIP) ↔
        ¬m.Pressed snapshot policy (snapshot e.2).sourceIP := by
      unfold Pressed
      rw [fxpUDPSessionPressure_iff, htotal, not_or]
      exact and_congr_right fun _ => not_congr (and_congr_right fun hip => by rw [hperIP _ hip])
    unfold reclaimLoop
    dsimp only
    by_cases hp : m.Pressed snapshot policy (snapshot e.2).sourceIP
    · rw [if_neg fun h => hpressed.mp h hp, reclaim_cons_of_pressed hp]
      have hlook := hlisted e mem_cons_self
      refine congrArg (e :: ·) (ih hrest (lookup_erase_of_nodup hnodup hlisted) ?_ fun ip hip => ?_)
      · rw [htotal, length_listed hlook]
        push_cast
        omega
      · have hcount : m.ofIP snapshot ip = SessionMap.ofIP snapshot (m.erase e.1) ip
            + if (snapshot e.2).sourceIP == ip then 1 else 0 := ofIP_eq hlook ip
        by_cases hsame : (snapshot e.2).sourceIP = ip
        · rw [if_pos (hsame ▸ hip), hsame, Function.update_self, hperIP ip hip, hcount, hsame]
          simp
        · rw [if_neg (by simpa using hsame)] at hcount
          split
          · rw [Function.update_of_ne (Ne.symm hsame), hperIP ip hip, hcount]
            rfl
          · rw [hperIP ip hip, hcount]
            rfl
    · rw [if_pos (hpressed.mpr hp), reclaim_cons_of_not_pressed hp]
      exact ih hrest (fun x hx => hlisted x (mem_cons_of_mem _ hx)) htotal hperIP

theorem reclaim_sublist (m : SessionMap T) (cs : List (String × T)) :
    (m.reclaim snapshot policy cs).Sublist cs := by
  induction cs generalizing m with
  | nil => exact List.Sublist.refl _
  | cons e rest ih =>
    by_cases hp : m.Pressed snapshot policy (snapshot e.2).sourceIP
    · rw [reclaim_cons_of_pressed hp]
      exact (ih _).cons_cons e
    · rw [reclaim_cons_of_not_pressed hp]
      exact (ih m).cons e

theorem pressed_of_reclaim {cs before after : List (String × T)} {r : String × T}
    (h : m.reclaim snapshot policy cs = before ++ r :: after) :
    (m.without before).Pressed snapshot policy (snapshot r.2).sourceIP := by
  induction cs generalizing m before with
  | nil => exact absurd h (by simp [reclaim])
  | cons e rest ih =>
    by_cases hp : m.Pressed snapshot policy (snapshot e.2).sourceIP
    · rw [reclaim_cons_of_pressed hp] at h
      cases before with
      | nil =>
        rw [← (List.cons.inj h).1]
        exact hp
      | cons b before =>
        obtain ⟨rfl, htail⟩ := List.cons.inj h
        exact ih (m := m.erase e.1) htail
    · rw [reclaim_cons_of_not_pressed hp] at h
      exact ih h

theorem not_pressed_of_left (hmem : e ∈ cs)
    (hleft : e ∉ m.reclaim snapshot policy cs) :
    ¬(m.without (m.reclaim snapshot policy cs)).Pressed snapshot policy
      (snapshot e.2).sourceIP := by
  induction cs generalizing m with
  | nil => cases hmem
  | cons c rest ih =>
    by_cases hp : m.Pressed snapshot policy (snapshot c.2).sourceIP
    · rw [reclaim_cons_of_pressed hp] at hleft ⊢
      rw [mem_cons, not_or] at hleft
      exact ih ((mem_cons.mp hmem).resolve_left hleft.1) hleft.2
    · rw [reclaim_cons_of_not_pressed hp] at hleft ⊢
      obtain rfl | hrest := mem_cons.mp hmem
      · exact fun h => hp h.of_without
      · exact ih hrest hleft

theorem not_pressed_of_passed (hnodup : cs.Nodup) :
    cs.Pairwise fun e r => e ∉ m.reclaim snapshot policy cs → ∀ before after,
      m.reclaim snapshot policy cs = before ++ r :: after →
        ¬(m.without before).Pressed snapshot policy (snapshot e.2).sourceIP := by
  induction cs generalizing m with
  | nil => exact List.Pairwise.nil
  | cons c rest ih =>
    obtain ⟨hc, hrest⟩ := nodup_cons.mp hnodup
    by_cases hp : m.Pressed snapshot policy (snapshot c.2).sourceIP
    · rw [reclaim_cons_of_pressed hp]
      refine pairwise_cons.mpr ⟨fun r _ hleft => absurd mem_cons_self hleft, ?_⟩
      refine (ih (m := m.erase c.1) hrest).imp_of_mem fun _ hr hpass hleft before after hsplit => ?_
      cases before with
      | nil => exact absurd ((List.cons.inj hsplit).1 ▸ hr) hc
      | cons b before =>
        obtain ⟨rfl, htail⟩ := List.cons.inj hsplit
        exact hpass (fun hmem => hleft (mem_cons_of_mem _ hmem)) before after htail
    · rw [reclaim_cons_of_not_pressed hp]
      exact pairwise_cons.mpr ⟨fun r _ _ _ _ _ h => hp h.of_without, ih hrest⟩

/-! ## The plan -/

variable (snapshot policy)

/-- What a good plan for giving up sessions is, with `cutoff` for the latest activity of an idle
session. -/
structure FairPlan (cutoff : ℤ) (m : SessionMap T) (plan : List (String × T)) : Prop where
  /-- Only idle sessions without pending packets are in it, and each once. -/
  idle : ∀ e ∈ plan, m.lookup e.1 = some (some e.2) ∧ reclaimable snapshot cutoff e.2
  once : (plan.map Prod.fst).Nodup
  oldestFirst : plan.Pairwise fun a b => candidateBefore snapshot a b
  /-- Each was needed at its turn: the total or its address was still at the limit. -/
  needed : ∀ before e after, plan = before ++ e :: after →
    (m.without before).Pressed snapshot policy (snapshot e.2).sourceIP
  /-- A session passed over for a younger one was not under pressure even then. -/
  passed : ∀ before r after, plan = before ++ r :: after → ∀ e, e ∉ plan →
    m.lookup e.1 = some (some e.2) → reclaimable snapshot cutoff e.2 →
    candidateBefore snapshot e r →
    ¬(m.without before).Pressed snapshot policy (snapshot e.2).sourceIP
  /-- Afterwards no idle session is left under pressure. -/
  enough : ∀ key s, (m.without plan).lookup key = some (some s) → reclaimable snapshot cutoff s →
    ¬(m.without plan).Pressed snapshot policy (snapshot s).sourceIP

variable {snapshot policy}

theorem candidateBefore_iff {a b : String × T} : candidateBefore snapshot a b = true ↔
    (snapshot a.2).lastActivity < (snapshot b.2).lastActivity ∨
      (snapshot a.2).lastActivity = (snapshot b.2).lastActivity ∧ a.1 ≤ b.1 := by
  unfold candidateBefore
  split
  · next heq => simp [heq]
  · next hne => simp [hne]

theorem candidateBefore_trans (a b c : String × T) (hab : candidateBefore snapshot a b = true)
    (hbc : candidateBefore snapshot b c = true) : candidateBefore snapshot a c = true := by
  rw [candidateBefore_iff] at *
  obtain hab | ⟨hab, hkey⟩ := hab <;> obtain hbc | ⟨hbc, hkey'⟩ := hbc
  · exact .inl (hab.trans hbc)
  · exact .inl (hbc ▸ hab)
  · exact .inl (hab ▸ hbc)
  · exact .inr ⟨hab.trans hbc, hkey.trans hkey'⟩

theorem candidateBefore_total (a b : String × T) :
    (candidateBefore snapshot a b || candidateBefore snapshot b a) = true := by
  rw [Bool.or_eq_true, candidateBefore_iff, candidateBefore_iff]
  obtain h | h | h := lt_trichotomy (snapshot a.2).lastActivity (snapshot b.2).lastActivity
  · exact .inl (.inl h)
  · exact (le_total a.1 b.1).imp (fun hk => .inr ⟨h, hk⟩) fun hk => .inr ⟨h.symm, hk⟩
  · exact .inr (.inl h)

theorem candidateBefore_antisymm {a b : String × T} (hab : candidateBefore snapshot a b = true)
    (hba : candidateBefore snapshot b a = true) : a.1 = b.1 := by
  rw [candidateBefore_iff] at *
  obtain hab | ⟨hab, hkey⟩ := hab <;> obtain hba | ⟨hba, hkey'⟩ := hba
  · exact absurd hba hab.asymm
  · exact absurd hba hab.ne'
  · exact absurd hab hba.ne'
  · exact le_antisymm hkey hkey'

theorem rel_or_rel_of_pairwise {α : Type*} {R : α → α → Prop} {l : List α} (h : l.Pairwise R)
    {a b : α} (ha : a ∈ l) (hb : b ∈ l) (hne : a ≠ b) : R a b ∨ R b a := by
  have hsymm : l.Pairwise fun a b => R a b ∨ R b a := h.imp Or.inl
  have : Std.Symm fun a b => R a b ∨ R b a := ⟨fun _ _ => Or.symm⟩
  exact hsymm.forall ha hb hne

theorem nodup_listed (m : SessionMap T) : (m.listed.map Prod.fst).Nodup := by
  have hsub : (m.listed.map Prod.fst).Sublist m.keys := by
    unfold listed AList.keys List.keys
    induction m.entries with
    | nil => exact List.Sublist.refl _
    | cons e rest ih =>
      obtain ⟨k, x⟩ := e
      cases x with
      | none => exact ih.cons k
      | some s => exact ih.cons_cons k
  exact hsub.nodup m.nodupKeys

theorem lookup_without {gone : List (String × T)} {key : String} {x : Option T}
    (h : (m.without gone).lookup key = some x) :
    m.lookup key = some x ∧ key ∉ gone.map Prod.fst := by
  induction gone generalizing m with
  | nil => exact ⟨h, not_mem_nil⟩
  | cons e gone ih =>
    obtain ⟨herase, hgone⟩ := ih (m := m.erase e.1) h
    obtain ⟨hne, hlook⟩ := GoMap.lookup_erase_eq_some herase
    exact ⟨hlook, fun hmem => (mem_cons.mp hmem).elim hne hgone⟩

/-- The plan of `planFXPUDPPressureReclamation` for a session map. -/
def plan (snapshot : T → FxpUDPSessionSnapshot) (policy : FxpUDPSessionPolicy) (now : ℤ)
    (m : SessionMap T) : List (String × T) :=
  planFXPUDPPressureReclamation snapshot now m.listed policy

/-- `cutoff`, with the default for an unset age. -/
def reclaimCutoff (policy : FxpUDPSessionPolicy) (now : ℤ) : ℤ :=
  now - if policy.reclaimAfter ≤ 0 then fxpUDPReclaimAfter else policy.reclaimAfter

def candidates (snapshot : T → FxpUDPSessionSnapshot) (cutoff : ℤ) (m : SessionMap T) : List (String × T) :=
  (m.listed.filter fun e => reclaimable snapshot cutoff e.2).mergeSort (candidateBefore snapshot)

theorem mem_candidates {cutoff : ℤ} :
    e ∈ m.candidates snapshot cutoff ↔
      m.lookup e.1 = some (some e.2) ∧ reclaimable snapshot cutoff e.2 := by
  rw [candidates, mem_mergeSort, mem_filter, mem_listed]

theorem nodup_candidates {cutoff : ℤ} : ((m.candidates snapshot cutoff).map Prod.fst).Nodup := by
  have hperm := (mergeSort_perm (m.listed.filter fun e => reclaimable snapshot cutoff e.2)
    (candidateBefore snapshot)).map Prod.fst
  exact hperm.nodup_iff.mpr ((filter_sublist.map Prod.fst).nodup (nodup_listed m))

theorem plan_eq (now : ℤ) (m : SessionMap T) :
    plan snapshot policy now m
      = m.reclaim snapshot policy (m.candidates snapshot (reclaimCutoff policy now)) :=
  reclaimLoop_eq nodup_candidates (fun _ hx => (mem_candidates.mp hx).1) rfl fun _ _ => rfl

/-- For every session map, policy and time the plan is a fair one: it takes idle sessions only, the
oldest first, each of them needed at its turn, and leaves no idle session under pressure. -/
theorem plan_fair {T : Type} (snapshot : T → FxpUDPSessionSnapshot) (policy : FxpUDPSessionPolicy)
    (now : ℤ) (m : SessionMap T) :
    FairPlan snapshot policy (reclaimCutoff policy now) m (plan snapshot policy now m) := by
  rw [plan_eq]
  set cs := m.candidates snapshot (reclaimCutoff policy now) with hcs
  have hsub : (m.reclaim snapshot policy cs).Sublist cs := reclaim_sublist m cs
  have hsorted : cs.Pairwise fun a b => candidateBefore snapshot a b :=
    List.pairwise_mergeSort candidateBefore_trans candidateBefore_total _
  have hnodup : cs.Nodup := nodup_candidates.of_map
  refine
    { idle := fun e he => mem_candidates.mp (hsub.subset he)
      once := (hsub.map Prod.fst).nodup nodup_candidates
      oldestFirst := hsorted.sublist hsub
      needed := fun before e after hsplit => pressed_of_reclaim hsplit
      passed := ?_
      enough := ?_ }
  · intro before r after hsplit e hleft hlook hidle hbefore
    have hr : r ∈ m.reclaim snapshot policy cs := by
      rw [hsplit]
      exact List.mem_append_right _ List.mem_cons_self
    have hne : e ≠ r := fun heq => hleft (heq ▸ hr)
    have he : e ∈ cs := mem_candidates.mpr ⟨hlook, hidle⟩
    obtain ⟨-, hpass⟩ | ⟨hafter, -⟩ :=
      rel_or_rel_of_pairwise (hsorted.and (not_pressed_of_passed hnodup)) he (hsub.subset hr) hne
    · exact hpass hleft before after hsplit
    · have hkey := candidateBefore_antisymm hbefore hafter
      exact absurd (List.inj_on_of_nodup_map nodup_candidates he (hsub.subset hr) hkey) hne
  · intro key s hlook hidle
    obtain ⟨hlisted, hgone⟩ := lookup_without hlook
    exact not_pressed_of_left (e := (key, s)) (mem_candidates.mpr ⟨hlisted, hidle⟩)
      fun hmem => hgone (List.mem_map_of_mem (f := Prod.fst) hmem)

/-! ## One too many -/

def tightPolicy : FxpUDPSessionPolicy := ⟨3, 0, 2, 0, 10⟩

/-- The longest idle session is alone on its address; another one is idle on an address with two. -/
def crowdedMap : SessionMap FxpUDPSessionSnapshot :=
  AList.insert "a" (some ⟨"192.0.2.1", 1, 0⟩) (AList.insert "b" (some ⟨"192.0.2.2", 2, 0⟩)
    (AList.insert "c" (some ⟨"192.0.2.2", 95, 0⟩) ∅))

theorem plan_crowdedMap : plan id tightPolicy 100 crowdedMap
    = [("a", ⟨"192.0.2.1", 1, 0⟩), ("b", ⟨"192.0.2.2", 2, 0⟩)] := by
  have hidle : crowdedMap.listed.filter (fun e => reclaimable id 90 e.2)
      = [("a", ⟨"192.0.2.1", 1, 0⟩), ("b", ⟨"192.0.2.2", 2, 0⟩)] := rfl
  have hsorted : crowdedMap.candidates id (reclaimCutoff tightPolicy 100)
      = [("a", ⟨"192.0.2.1", 1, 0⟩), ("b", ⟨"192.0.2.2", 2, 0⟩)] := by
    rw [candidates, show reclaimCutoff tightPolicy 100 = 90 from rfl, hidle]
    exact mergeSort_of_pairwise (by decide)
  rw [plan_eq, hsorted]
  rfl

/-- The first session of the plan is given up for the total and the second for its address. -/
theorem plan_takes_one_too_many :
    ¬∀ (T : Type) (snapshot : T → FxpUDPSessionSnapshot) (policy : FxpUDPSessionPolicy) (now : ℤ)
      (m : SessionMap T), ∀ e ∈ plan snapshot policy now m, ∃ ip,
        (m.without ((plan snapshot policy now m).filter fun x => x.1 ≠ e.1)).Pressed
          snapshot policy ip := by
  intro h
  obtain ⟨ip, hp⟩ := h _ id tightPolicy 100 crowdedMap ("a", ⟨"192.0.2.1", 1, 0⟩)
    (by rw [plan_crowdedMap]; exact List.mem_cons_self)
  rw [plan_crowdedMap] at hp
  unfold Pressed at hp
  rw [fxpUDPSessionPressure_iff] at hp
  obtain ⟨-, htotal⟩ | ⟨-, -, hperIP⟩ := hp
  · exact absurd htotal (by decide)
  · have hcount : SessionMap.ofIP id (crowdedMap.without [("b", ⟨"192.0.2.2", 2, 0⟩)]) ip ≤ 1 := by
      show List.countP (fun e => (id e.2).sourceIP == ip)
        [("a", (⟨"192.0.2.1", 1, 0⟩ : FxpUDPSessionSnapshot)), ("c", ⟨"192.0.2.2", 95, 0⟩)] ≤ 1
      by_cases hip : "192.0.2.1" = ip
      · rw [← hip]
        decide
      · rw [List.countP_cons_of_neg (by simpa using hip)]
        exact List.countP_le_length
    have hleft : (2 : ℤ) ≤ SessionMap.ofIP id
      (crowdedMap.without [("b", ⟨"192.0.2.2", 2, 0⟩)]) ip := hperIP
    omega

end SessionMap

end ForwardX.Fxp

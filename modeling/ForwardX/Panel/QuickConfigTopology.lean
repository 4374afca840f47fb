/-
The topology of a quick configuration, `server/xrayQuickConfigTopology.ts`.

The routes are compiled into one segment a host.
-/
import ForwardX.Lib.JsMap
import ForwardX.Panel.JsValues
import Mathlib.Data.List.Sort
import Mathlib.Logic.Relation

namespace ForwardX.Panel.QuickConfigTopology

open List

/-! ## Routes -/

/-- Values of the type `unknown`; what `JSON.parse` makes is one of them. -/
inductive Value where
  | undefined
  | null
  | bool (b : Bool)
  | number (n : JsNumber)
  | string (s : JsString)
  | array (items : List Value)
  | object (fields : List (JsString × Value))

inductive AddressFamily where
  | IPV4
  | IPV6

structure QuickConfigRelay where
  hostId : ℕ
  addressFamily : AddressFamily
  address : JsString

structure QuickConfigTopologyRoute where
  hostId : Value
  routeMode : Value
  relayHopsJson : Value

structure Target where
  publicPort : JsNumber
  targetAddress : JsString
  targetPort : JsNumber

structure QuickConfigSegment where
  hostId : ℕ
  targetAddress : JsString
  targetPort : JsNumber
  deriving DecidableEq

/-- `JSON.parse`, `Number`, `normalizeQuickConfigPublicIp` of a text, and
`normalizeXrayExternalProxyAddress`; where they throw there is no answer. -/
structure Tools where
  parse : JsString → Option Value
  number : Value → JsNumber
  publicIp : JsString → AddressFamily → Option JsString
  proxyAddress : JsString → Option JsString

def id : JsNumber → Option ℕ
  | .finite q => if q.den = 1 ∧ 1 ≤ q.num ∧ q.num ≤ 2 ^ 53 - 1 then some q.num.toNat else none
  | _ => none

def addressFamily (s : JsString) : Option AddressFamily :=
  if s = js "IPV4" then some .IPV4 else if s = js "IPV6" then some .IPV6 else none

/-- `Object.keys(hop).sort().join(",")`. -/
def joinedKeys (fields : List (JsString × Value)) : JsString :=
  (js ",").intercalate ((fields.map Prod.fst).insertionSort (· ≤ ·))

variable (tools : Tools)

def parseHop : Value → Option QuickConfigRelay
  | .object fields =>
    if joinedKeys fields ≠ js "address,addressFamily,hostId" then none
    else
      match fields.lookup (js "addressFamily"), fields.lookup (js "address"), fields.lookup (js "hostId") with
      | some (.string family), some (.string address), some (.number hostId) => do
        let family ← addressFamily family
        if address = [] ∨ tools.publicIp address family ≠ some address then none
        else return ⟨← id hostId, family, address⟩
      | _, _, _ => none
  | _ => none

def parseQuickConfigRelays : Value → Option (List QuickConfigRelay)
  | .undefined | .null => some []
  | .string raw =>
    if 4096 < raw.length then none
    else
      match tools.parse raw with
      | some (.array values) =>
        if 8 < values.length then none
        else do
          let result ← values.mapM (parseHop tools)
          if (result.map QuickConfigRelay.hostId).Nodup then return result else none
      | _ => none
  | _ => none

/-- The first host of a `FORWARD` route, with its relays; a `DIRECT` route has none. -/
def pathOf (route : QuickConfigTopologyRoute) : Option (Option (ℕ × List QuickConfigRelay)) := do
  let relays ← parseQuickConfigRelays tools route.relayHopsJson
  match route.routeMode with
  | .string mode =>
    if mode = js "DIRECT" then
      match relays, route.hostId with
      | [], .null => return none
      | [], hostId => (id (tools.number hostId)).map fun _ => none
      | _, _ => none
    else if mode = js "FORWARD" then
      let first ← id (tools.number route.hostId)
      if (first :: relays.map QuickConfigRelay.hostId).Nodup then return some (first, relays) else none
    else none
  | _ => none

/-! ## Segments -/

variable (target : Target)

abbrev Hop := QuickConfigSegment × Option ℕ

/-- The loop over `hostIds.entries()`. -/
def hops : ℕ → List QuickConfigRelay → List Hop
  | hostId, [] => [(⟨hostId, target.targetAddress, target.targetPort⟩, none)]
  | hostId, next :: relays =>
    (⟨hostId, next.address, target.publicPort⟩, some next.hostId) :: hops next.hostId relays

/-- `segments` and `nextHosts`, which have the same keys: for each host its segment and the next one. -/
abbrev Topology := JsMap ℕ Hop

def Topology.add (m : Topology) (hop : Hop) : Option Topology :=
  match m.get hop.1.hostId with
  | some existing =>
    if existing.1.targetAddress ≠ hop.1.targetAddress ∨ existing.1.targetPort ≠ hop.1.targetPort ∨
        existing.2 ≠ hop.2 then none
    else some (m.set hop.1.hostId hop)
  | none => some (m.set hop.1.hostId hop)

def hopsOf (route : QuickConfigTopologyRoute) : Option (List Hop) :=
  (pathOf tools route).map fun path => path.elim [] fun path => hops target path.1 path.2

def Topology.addRoute (m : Topology) (route : QuickConfigTopologyRoute) : Option Topology := do
  (← hopsOf tools target route).foldlM Topology.add m

def Topology.nextHost (m : Topology) (hostId : ℕ) : Option ℕ := (m.get hostId).bind Prod.snd

theorem unseen_lt {m : Topology} {seen : List ℕ} {current next : ℕ} (hseen : current ∉ seen)
    (h : m.nextHost current = some next) :
    ((m.entries.map Prod.fst).filter (· ∉ current :: seen)).length <
      ((m.entries.map Prod.fst).filter (· ∉ seen)).length := by
  obtain ⟨hop, hget, -⟩ := Option.bind_eq_some_iff.mp h
  have hmem : current ∈ (m.entries.map Prod.fst).filter (· ∉ seen) :=
    mem_filter.mpr ⟨mem_map_of_mem (JsMap.get_eq_some_iff.mp hget), by simpa using hseen⟩
  have hfilter : (m.entries.map Prod.fst).filter (· ∉ current :: seen) =
      ((m.entries.map Prod.fst).filter (· ∉ seen)).filter (· ≠ current) := by
    simp [filter_filter, mem_cons, not_or]
  rw [hfilter]
  exact length_filter_lt_length_iff_exists.mpr ⟨current, hmem, by simp⟩

/-- The walk from a host on; false if it comes to a host again. -/
def Topology.walk (m : Topology) (seen : List ℕ) (current : ℕ) : Bool :=
  if current ∈ seen then false
  else
    match _hnext : m.nextHost current with
    | some next => m.walk (current :: seen) next
    | none => true
termination_by ((m.entries.map Prod.fst).filter (· ∉ seen)).length
decreasing_by exact unseen_lt ‹_› _hnext

def Topology.sorted (m : Topology) : List QuickConfigSegment :=
  (m.entries.map fun e => e.2.1).insertionSort fun a b => a.hostId ≤ b.hostId

def Topology.finish (m : Topology) : Option (List QuickConfigSegment) :=
  if 64 < m.size then none
  else if (m.entries.map Prod.fst).all fun hostId => m.walk [] hostId then some m.sorted
  else none

def isPort : JsNumber → Bool
  | .finite q => q.den = 1 ∧ 1 ≤ q.num ∧ q.num ≤ 65535
  | _ => false

def isBlank (u : UInt16) : Bool := isJsSpace u || u ≤ 0x1F || u = 0x7F

def Target.isValid : Bool :=
  target.targetAddress ≠ [] && target.targetAddress.length ≤ 253 && !target.targetAddress.any isBlank &&
    tools.proxyAddress target.targetAddress = some target.targetAddress &&
    isPort target.publicPort && isPort target.targetPort

def compileQuickConfigTopology (routes : List QuickConfigTopologyRoute) : Option (List QuickConfigSegment) :=
  if routes.length < 1 ∨ 128 < routes.length ∨ target.isValid tools = false then none
  else (routes.foldlM (Topology.addRoute tools target) ∅).bind Topology.finish

/-! ## What has been compiled -/

variable {tools : Tools} {target : Target} {m m' : Topology} {done done' : List Hop} {hop : Hop}

def Consistent (done : List Hop) : Prop := ∀ a ∈ done, ∀ b ∈ done, a.1.hostId = b.1.hostId → a = b

def Holds (m : Topology) (done : List Hop) : Prop :=
  ∀ hostId hop, m.get hostId = some hop ↔ hop ∈ done ∧ hop.1.hostId = hostId

theorem Holds.consistent (h : Holds m done) : Consistent done := fun _ ha _ hb hid =>
  Option.some.inj (((h _ _).mpr ⟨ha, rfl⟩).symm.trans ((h _ _).mpr ⟨hb, hid.symm⟩))

theorem holds_empty : Holds ∅ [] := fun _ _ => by simp

/-- **One hop** is refused exactly if its host has done something else. -/
theorem Holds.add (h : Holds m done) (hop : Hop) :
    (∀ m', m.add hop = some m' → Holds m' (done ++ [hop])) ∧
      (m.add hop = none → ¬ Consistent (done ++ [hop])) := by
  have hset (hsame : ∀ a ∈ done, a.1.hostId = hop.1.hostId → a = hop) :
      Holds (m.set hop.1.hostId hop) (done ++ [hop]) := by
    intro hostId hop'
    rw [JsMap.get_set, mem_append, mem_singleton]
    split_ifs with hk
    · rw [Option.some.injEq]
      constructor
      · rintro rfl
        exact ⟨.inr rfl, hk.symm⟩
      · rintro ⟨hmem | rfl, hid⟩
        · exact (hsame hop' hmem (hid.trans hk)).symm
        · rfl
    · rw [h]
      constructor
      · exact fun hmem => ⟨.inl hmem.1, hmem.2⟩
      · rintro ⟨hmem | rfl, hid⟩
        · exact ⟨hmem, hid⟩
        · exact absurd hid.symm hk
  rw [Topology.add]
  cases hexisting : m.get hop.1.hostId with
  | none =>
    refine ⟨?_, (by simp)⟩
    rintro _ ⟨⟩
    refine hset fun a ha hid => ?_
    rw [(h _ _).mpr ⟨ha, hid⟩] at hexisting
    cases hexisting
  | some existing =>
    obtain ⟨hmem, hid⟩ := (h _ _).mp hexisting
    have hsame : (existing.1.targetAddress ≠ hop.1.targetAddress ∨ existing.1.targetPort ≠ hop.1.targetPort ∨
        existing.2 ≠ hop.2) ↔ existing ≠ hop := by
      obtain ⟨⟨_, _, _⟩, _⟩ := existing
      obtain ⟨⟨_, _, _⟩, _⟩ := hop
      cases hid
      simp only [ne_eq, Prod.mk.injEq, QuickConfigSegment.mk.injEq, true_and]
      tauto
    dsimp only
    split_ifs with hdiffers
    · refine ⟨(by simp), fun _ hconsistent => hsame.mp hdiffers ?_⟩
      exact hconsistent existing (mem_append_left _ hmem) hop (by simp) hid
    · refine ⟨?_, (by simp)⟩
      rintro _ ⟨⟩
      obtain rfl : existing = hop := not_not.mp (mt hsame.mpr hdiffers)
      exact hset fun b hb heq => h.consistent b hb _ hmem heq

/-- A loop whose step adds the hops `f a`, if `a` is well formed and they agree with the others. -/
theorem holds_foldlM {α : Type} {step : Topology → α → Option Topology} {formed : α → Prop}
    {f : α → List Hop}
    (hstep : ∀ a m done, Holds m done → (∀ m', step m a = some m' → formed a ∧ Holds m' (done ++ f a)) ∧
      (step m a = none → formed a → ¬ Consistent (done ++ f a))) (l : List α) : ∀ m done, Holds m done →
      (∀ m', l.foldlM step m = some m' → (∀ a ∈ l, formed a) ∧ Holds m' (done ++ l.flatMap f)) ∧
      (l.foldlM step m = none → (∀ a ∈ l, formed a) → ¬ Consistent (done ++ l.flatMap f)) := by
  induction l with
  | nil =>
    intro m done h
    refine ⟨?_, nofun⟩
    rintro _ ⟨⟩
    exact ⟨nofun, by simpa using h⟩
  | cons a l ih =>
    intro m done h
    obtain ⟨hsome, hnone⟩ := hstep a m done h
    rw [foldlM_cons, flatMap_cons, ← append_assoc]
    cases hadded : step m a with
    | none =>
      refine ⟨nofun, fun _ hformed hconsistent => hnone hadded (hformed a mem_cons_self) ?_⟩
      exact fun x hx y hy => hconsistent x (mem_append_left _ hx) y (mem_append_left _ hy)
    | some m₁ =>
      obtain ⟨hformed, h₁⟩ := hsome m₁ hadded
      obtain ⟨hrest, hrefused⟩ := ih m₁ _ h₁
      refine ⟨fun m' hm' => ?_, fun hnone hall => ?_⟩
      · obtain ⟨hall, h'⟩ := hrest m' hm'
        exact ⟨forall_mem_cons.mpr ⟨hformed, hall⟩, h'⟩
      · exact hrefused hnone fun b hb => hall b (mem_cons_of_mem _ hb)

open Topology

/-- **The loop over the routes.** -/
theorem holds_addRoutes (routes : List QuickConfigTopologyRoute) :
    (∀ m', routes.foldlM (addRoute tools target) ∅ = some m' →
      (∀ route ∈ routes, (hopsOf tools target route).isSome = true) ∧
        Holds m' (routes.flatMap fun route => (hopsOf tools target route).getD [])) ∧
    (routes.foldlM (addRoute tools target) ∅ = none →
      (∀ route ∈ routes, (hopsOf tools target route).isSome = true) →
        ¬ Consistent (routes.flatMap fun route => (hopsOf tools target route).getD [])) := by
  refine holds_foldlM (fun route m done h => ?_) routes ∅ [] holds_empty
  rw [addRoute]
  cases hhops : hopsOf tools target route with
  | none => exact ⟨nofun, fun _ => nofun⟩
  | some new =>
    have hloop := @holds_foldlM _ add (fun _ => True) ([·])
      (fun hop m done h => by simpa using h.add hop) new m done h
    simpa using hloop

/-! ## The walk -/

def Next (m : Topology) (a b : ℕ) : Prop := m.nextHost a = some b

theorem next_reaches {a b c : ℕ} (hnext : Next m a b) (h : Relation.ReflTransGen (Next m) a c) :
    c = a ∨ Relation.ReflTransGen (Next m) b c := by
  obtain heq | ⟨b', hb', hrest⟩ := h.cases_head
  · exact .inl heq.symm
  · obtain rfl : b = b' := Option.some.inj (hnext.symm.trans hb')
    exact .inr hrest

/-- **A walk** ends exactly if it meets no host of `seen`, and no cycle. -/
theorem walk_iff {seen : List ℕ} {current : ℕ} : m.walk seen current = true ↔
    ∀ b, Relation.ReflTransGen (Next m) current b → b ∉ seen ∧ ¬ Relation.TransGen (Next m) b b := by
  induction seen, current using walk.induct m with
  | case1 seen current hmem =>
    rw [walk, if_pos hmem]
    exact iff_of_false Bool.false_ne_true fun h => (h current .refl).1 hmem
  | case2 seen current hmem next hnext ih =>
    have hstep : m.walk seen current = m.walk (current :: seen) next := by
      rw [walk, if_neg hmem]
      split
      · rename_i next' hnext'
        rw [Option.some.inj (hnext.symm.trans hnext')]
      · rename_i hlast
        cases hnext.symm.trans hlast
    rw [hstep, ih]
    constructor
    · intro h b hb
      obtain rfl | hb := next_reaches hnext hb
      · refine ⟨hmem, fun hcycle => ?_⟩
        obtain ⟨c, hc, hcb⟩ := Relation.TransGen.head'_iff.mp hcycle
        obtain rfl : next = c := Option.some.inj (hnext.symm.trans hc)
        exact (h b hcb).1 mem_cons_self
      · exact ⟨fun hseen => (h b hb).1 (mem_cons_of_mem _ hseen), (h b hb).2⟩
    · intro h b hb
      obtain ⟨hseen, hcycle⟩ := h b (.head hnext hb)
      refine ⟨fun hmem => ?_, hcycle⟩
      obtain rfl | hmem := mem_cons.mp hmem
      · exact hcycle (.head' hnext hb)
      · exact hseen hmem
  | case3 seen current hmem hlast =>
    have hends : ∀ b, ¬ Next m current b := fun b hnext => by cases hlast.symm.trans hnext
    refine iff_of_true ?_ fun b hb => ?_
    · rw [walk, if_neg hmem]
      split
      · rename_i next hnext
        exact absurd hnext (hends next)
      · rfl
    · obtain rfl | ⟨next, hnext, -⟩ := hb.cases_head
      · refine ⟨hmem, fun hcycle => ?_⟩
        obtain ⟨c, hc, -⟩ := Relation.TransGen.head'_iff.mp hcycle
        exact hends c hc
      · exact absurd hnext (hends next)

/-- **The walks from all hosts** end exactly if there is no cycle. -/
theorem walks_iff : (m.entries.map Prod.fst).all (fun hostId => m.walk [] hostId) = true ↔
    ∀ a, ¬ Relation.TransGen (Next m) a a := by
  rw [all_eq_true]
  constructor
  · intro h a hcycle
    obtain ⟨b, hab, -⟩ := Relation.TransGen.head'_iff.mp hcycle
    obtain ⟨hop, hget, -⟩ := Option.bind_eq_some_iff.mp hab
    exact (walk_iff.mp (h a (mem_map_of_mem (JsMap.get_eq_some_iff.mp hget))) a .refl).2 hcycle
  · exact fun h hostId _ => walk_iff.mpr fun b _ => ⟨not_mem_nil, h b⟩

/-! ## The result -/

theorem Holds.mem_sorted (h : Holds m done) {s : QuickConfigSegment} : s ∈ m.sorted ↔ ∃ hop ∈ done, hop.1 = s := by
  rw [sorted, mem_insertionSort, mem_map]
  constructor
  · rintro ⟨e, hmem, rfl⟩
    exact ⟨e.2, ((h e.1 _).mp (JsMap.get_eq_some_iff.mpr hmem)).1, rfl⟩
  · rintro ⟨hop, hhop, rfl⟩
    exact ⟨_, JsMap.get_eq_some_iff.mp ((h _ _).mpr ⟨hhop, rfl⟩), rfl⟩

theorem Holds.nodup_hostId (h : Holds m done) : (m.sorted.map QuickConfigSegment.hostId).Nodup := by
  have hkeys : (m.entries.map fun e => e.2.1).map QuickConfigSegment.hostId = m.entries.map Prod.fst := by
    rw [map_map]
    exact map_congr_left fun e he => ((h e.1 e.2).mp (JsMap.get_eq_some_iff.mpr he)).2
  rw [sorted, ((perm_insertionSort _ _).map _).nodup_iff, hkeys]
  exact m.nodup

theorem Holds.finish_eq (h : Holds m done) (h' : Holds m' done') (hsame : ∀ hop, hop ∈ done ↔ hop ∈ done') :
    m.finish = m'.finish := by
  have hperm : m.sorted.Perm m'.sorted := by
    refine (perm_ext_iff_of_nodup (.of_map _ h.nodup_hostId) (.of_map _ h'.nodup_hostId)).mpr fun s => ?_
    rw [h.mem_sorted, h'.mem_sorted]
    simp only [hsame]
  have hsize (m : Topology) : m.size = m.sorted.length := by
    rw [sorted, length_insertionSort, length_map, JsMap.size]
  have hsorted : m.sorted = m'.sorted := by
    refine hperm.eq_of_pairwise (fun a b ha hb hle hge => ?_) (pairwise_insertionSort _ _)
      (pairwise_insertionSort _ _)
    obtain ⟨x, hx, rfl⟩ := h.mem_sorted.mp ha
    obtain ⟨y, hy, rfl⟩ := h'.mem_sorted.mp hb
    rw [h.consistent x hx y ((hsame y).mpr hy) (le_antisymm hle hge)]
  have hget (k : ℕ) : m.get k = m'.get k := by
    ext hop
    rw [h, h', hsame]
  have hnext : Next m = Next m' := by
    funext a b
    rw [Next, Next, nextHost, nextHost, hget]
  have hwalks : (m.entries.map Prod.fst).all (fun hostId => m.walk [] hostId) =
      (m'.entries.map Prod.fst).all fun hostId => m'.walk [] hostId := by
    rw [Bool.eq_iff_iff, walks_iff, walks_iff, hnext]
  rw [finish, finish, hsize, hsize, hsorted, hwalks]

/-! ## Routes and segments -/

/-- From the host the segments lead over the relays to the target. -/
def Leads (target : Target) (segments : List QuickConfigSegment) (next : ℕ → Option ℕ) : ℕ → List QuickConfigRelay → Prop
  | hostId, [] => ⟨hostId, target.targetAddress, target.targetPort⟩ ∈ segments ∧ next hostId = none
  | hostId, relay :: relays =>
    ⟨hostId, relay.address, target.publicPort⟩ ∈ segments ∧ next hostId = some relay.hostId ∧
      Leads target segments next relay.hostId relays

theorem Holds.leads (h : Holds m done) (relays : List QuickConfigRelay) : ∀ first,
    hops target first relays ⊆ done → Leads target m.sorted m.nextHost first relays := by
  have hhop {hop : Hop} (hmem : hop ∈ done) : hop.1 ∈ m.sorted ∧ m.nextHost hop.1.hostId = hop.2 :=
    ⟨h.mem_sorted.mpr ⟨hop, hmem, rfl⟩, by rw [nextHost, (h _ _).mpr ⟨hmem, rfl⟩]; rfl⟩
  induction relays with
  | nil => exact fun first hsub => hhop (hsub mem_cons_self)
  | cons relay relays ih =>
    intro first hsub
    obtain ⟨hsegment, hnext⟩ := hhop (hsub mem_cons_self)
    exact ⟨hsegment, hnext, ih relay.hostId fun hop hmem => hsub (mem_cons_of_mem _ hmem)⟩

theorem hostId_hops (relays : List QuickConfigRelay) : ∀ first,
    (hops target first relays).map (fun hop => hop.1.hostId) = first :: relays.map QuickConfigRelay.hostId := by
  induction relays with
  | nil => exact fun _ => rfl
  | cons relay relays ih => exact fun first => congrArg (first :: ·) (ih relay.hostId)

/-- **The topology of a quick configuration.** There is one segment for each host of the `FORWARD`
routes, following the next hosts never leads back, and from the first host of each of these routes the
segments lead over its relays to the target. -/
theorem topology_compiled (tools : Tools) (target : Target) (routes : List QuickConfigTopologyRoute) :
    (∀ segments, compileQuickConfigTopology tools target routes = some segments →
      (segments.map QuickConfigSegment.hostId).Nodup ∧
      (∀ hostId, hostId ∈ segments.map QuickConfigSegment.hostId ↔ ∃ route ∈ routes, ∃ first relays,
        pathOf tools route = some (some (first, relays)) ∧ hostId ∈ first :: relays.map QuickConfigRelay.hostId) ∧
      ∃ next : ℕ → Option ℕ, (∀ a, ¬ Relation.TransGen (fun a b => next a = some b) a a) ∧
        ∀ route ∈ routes, ∃ path, pathOf tools route = some path ∧
          ∀ first relays, path = some (first, relays) → Leads target segments next first relays) ∧
    ∀ routes', routes'.Perm routes →
      compileQuickConfigTopology tools target routes' = compileQuickConfigTopology tools target routes := by
  constructor
  · intro segments hcompiled
    rw [compileQuickConfigTopology] at hcompiled
    split_ifs at hcompiled
    obtain ⟨m, hloop, hfinish⟩ := Option.bind_eq_some_iff.mp hcompiled
    obtain ⟨hformed, h⟩ := (holds_addRoutes routes).1 m hloop
    rw [Topology.finish] at hfinish
    split_ifs at hfinish with hsize hwalks
    obtain rfl := Option.some.inj hfinish
    have hpath {route : QuickConfigTopologyRoute} (hroute : route ∈ routes) :
        ∃ path, pathOf tools route = some path := by
      have hhops := hformed route hroute
      rw [hopsOf, Option.isSome_map] at hhops
      exact Option.isSome_iff_exists.mp hhops
    have hdone {hop : Hop} :
        hop ∈ (routes.flatMap fun route => (hopsOf tools target route).getD []) ↔ ∃ route ∈ routes, ∃ first relays,
          pathOf tools route = some (some (first, relays)) ∧ hop ∈ hops target first relays := by
      rw [List.mem_flatMap]
      refine exists_congr fun route => and_congr_right fun hroute => ?_
      obtain ⟨path, hpath⟩ := hpath hroute
      cases path with
      | none => simp [hopsOf, hpath]
      | some path =>
        obtain ⟨first, relays⟩ := path
        simp [hopsOf, hpath]
    refine ⟨h.nodup_hostId, fun hostId => ?_, m.nextHost, ?_, fun route hroute => ?_⟩
    · simp only [List.mem_map, h.mem_sorted, hdone, ← @hostId_hops target]
      constructor
      · rintro ⟨_, ⟨hop, ⟨route, hroute, first, relays, hpath, hmem⟩, rfl⟩, rfl⟩
        exact ⟨route, hroute, first, relays, hpath, hop, hmem, rfl⟩
      · rintro ⟨route, hroute, first, relays, hpath, hop, hmem, rfl⟩
        exact ⟨_, ⟨hop, ⟨route, hroute, first, relays, hpath, hmem⟩, rfl⟩, rfl⟩
    · exact walks_iff.mp hwalks
    · obtain ⟨path, hpath⟩ := hpath hroute
      refine ⟨path, hpath, ?_⟩
      rintro first relays rfl
      exact h.leads relays first fun hop hmem => hdone.mpr ⟨route, hroute, first, relays, hpath, hmem⟩
  · intro routes' hperm
    have hloops : ∀ l l' : List QuickConfigTopologyRoute, l.Perm l' → ∀ m,
        l.foldlM (Topology.addRoute tools target) ∅ = some m → ∃ m', l'.foldlM (Topology.addRoute tools target) ∅ = some m' ∧
          m.finish = m'.finish := by
      intro l l' hperm m hm
      have hsame (hop : Hop) := (hperm.flatMap_right
        fun route => (hopsOf tools target route).getD []).mem_iff (a := hop)
      obtain ⟨hformed, h⟩ := (holds_addRoutes l).1 m hm
      cases hl' : l'.foldlM (Topology.addRoute tools target) ∅ with
      | none =>
        refine absurd (fun a ha b hb => h.consistent a ((hsame a).mpr ha) b ((hsame b).mpr hb)) ((holds_addRoutes l').2 hl' ?_)
        exact fun route hroute => hformed route (hperm.mem_iff.mpr hroute)
      | some m' => exact ⟨m', rfl, h.finish_eq ((holds_addRoutes l').1 m' hl').2 hsame⟩
    rw [compileQuickConfigTopology, compileQuickConfigTopology, hperm.length_eq]
    split_ifs
    · rfl
    · cases hl' : routes'.foldlM (Topology.addRoute tools target) ∅ with
      | some m =>
        obtain ⟨m', hl, hfinish⟩ := hloops routes' routes hperm m hl'
        rw [hl, Option.bind_some, Option.bind_some, hfinish]
      | none =>
        cases hl : routes.foldlM (Topology.addRoute tools target) ∅ with
        | none => rfl
        | some m =>
          obtain ⟨m', hnot, -⟩ := hloops routes routes' hperm.symm m hl
          rw [hl'] at hnot
          cases hnot

/-! ### A route with a relay -/

def plainTools : Tools where
  parse _ := some (.array [.object [(js "hostId", .number (.finite 2)),
    (js "addressFamily", .string (js "IPV4")), (js "address", .string (js "192.0.2.2"))]])
  number
    | .number n => n
    | _ => .nan
  publicIp address _ := some address
  proxyAddress := some

/-- From host 1 over host 2 to the target. -/
def relayedRoute : QuickConfigTopologyRoute :=
  ⟨.number (.finite 1), .string (js "FORWARD"), .string (js "[…]")⟩

example : compileQuickConfigTopology plainTools ⟨.finite 443, js "198.51.100.1", .finite 8443⟩
    [relayedRoute] = some [⟨1, js "192.0.2.2", .finite 443⟩, ⟨2, js "198.51.100.1", .finite 8443⟩] := by
  decide +kernel

end ForwardX.Panel.QuickConfigTopology

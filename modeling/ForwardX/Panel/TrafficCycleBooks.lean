/-
What the traffic cycles of a user rest on, and what the calls make of it.
-/
import ForwardX.Panel.TrafficCycles

namespace ForwardX.Panel

open Table Tx Call Option

/-! ## Boundaries -/

/-- A time in seconds at which some month's cycle of reset day `day` begins. -/
def Monthly (day e : ℤ) : Prop := ∃ i, e = seconds (boundaryAt day i)

section

variable {day : ℤ}

theorem milliseconds_seconds_boundaryAt (i : ℤ) :
    milliseconds (seconds (boundaryAt day i)) = boundaryAt day i := by
  have hmod := boundaryAt_mod day i
  unfold milliseconds seconds
  omega

theorem seconds_comp_milliseconds : seconds ∘ milliseconds = id := by
  funext x
  simp only [Function.comp_apply, seconds, milliseconds, id_eq]
  omega

theorem seconds_boundaryAt_lt {i j : ℤ} : seconds (boundaryAt day i) < seconds (boundaryAt day j) ↔ i < j := by
  have hlt := (boundaryAt_strictMono day).lt_iff_lt (a := i) (b := j)
  have hi := boundaryAt_mod day i
  have hj := boundaryAt_mod day j
  unfold seconds
  omega

theorem seconds_lt_boundaryAt {value i : ℤ} (h : value < boundaryAt day i) :
    seconds value < seconds (boundaryAt day i) := by
  have hmod := boundaryAt_mod day i
  unfold seconds
  omega

theorem seconds_mono {a b : ℤ} (h : a ≤ b) : seconds a ≤ seconds b := by
  unfold seconds
  omega

theorem firstAfter_eq (next : ℤ → ℤ) (limit : ℤ) (fuel : ℕ) (k : ℤ) :
    ∃ k', firstAfter next limit fuel k = next k' := by
  induction fuel generalizing k with
  | zero => exact ⟨k, rfl⟩
  | succ fuel ih =>
    rw [firstAfter]
    split
    · exact ih (k + 1)
    · exact ⟨k, rfl⟩

theorem mem_boundTrafficResetAt {r e : Option ℤ} {x : ℤ} (h : x ∈ boundTrafficResetAt r e) : x ∈ r := by
  rw [boundTrafficResetAt, mem_filter_iff] at h
  exact h.1

theorem nextConfigured_boundary (hday : 1 ≤ day ∧ day ≤ 28) {startedAt last e : Option ℤ} {reference r : ℤ}
    (h : r ∈ nextConfiguredSubscriptionTrafficReset day startedAt last reference e) :
    ∃ i, r = boundaryAt day i := by
  have hclamp : clampResetDay day = day := by
    unfold clampResetDay
    omega
  have hmem := mem_boundTrafficResetAt h
  obtain rfl := Option.some.inj hmem
  rw [hclamp]
  split
  · exact ⟨_, billingMonthlyBoundary_eq hday reference 0⟩
  · obtain ⟨k, hk⟩ := firstAfter_eq (fun off => billingMonthlyBoundary reference day off) _ _ 0
    exact ⟨_, hk.trans (billingMonthlyBoundary_eq hday reference k)⟩

end

/-! ## What the calls hold -/

/-- What identifies a subscription and never changes here: id, owner and end. -/
def UserSubscription.owner (s : UserSubscription) : ℤ × ℤ × Option ℤ := (s.id, s.userId, s.expiresAt)

def User.resetColumns (u : User) : ℤ × Bool × ℤ × Option ℤ :=
  (u.id, u.trafficAutoReset, u.trafficResetDay, u.lastAutoTrafficReset)

section

variable (u day : ℤ) (own : List (ℤ × ℤ × Option ℤ))

/-- A row that a call read for the user `userId`. -/
structure RowOk (userId : ℤ) (row : CycleRow) : Prop where
  owned : ∀ x ∈ own, x.1 = row.sub.id → x.2 = (userId, row.sub.expiresAt)
  configured : userId = u → row.user.trafficAutoReset = true ∧ row.user.trafficResetDay = day

/-- A cycle that a call with the clock reading `now` settles for the user `userId`. -/
structure CycleOk (userId now : ℤ) (cycle : CycleUpdate) : Prop where
  owned : ∀ x ∈ own, x.1 = cycle.id → x.2.1 = userId
  due : userId = u → (∃ i, cycle.dueBoundary = boundaryAt day i) ∧ cycle.dueBoundary ≤ now
  next : userId = u → ∀ r ∈ cycle.nextTrafficResetAt, ∃ i, r = boundaryAt day i

def SettleStep.Ok (userId now : ℤ) : SettleStep → Prop
  | .align => True
  | .alignAddons row rest => ∀ r ∈ row :: rest, RowOk u day own userId r
  | .alignNext row rest => ∀ r ∈ row :: rest, RowOk u day own userId r
  | .due => True
  | .reset cycles => cycles ≠ [] ∧ ∀ c ∈ cycles, CycleOk u day own userId now c
  | .expire todo cycles => ∀ c ∈ todo ++ cycles, CycleOk u day own userId now c
  | .update todo => ∀ c ∈ todo, CycleOk u day own userId now c

/-- The users that a monthly run has left, as it read them. -/
def ListedOk (now : ℤ) (users : List User) : Prop :=
  ∀ v ∈ users, v.id = u → v.trafficResetDay = day ∧ boundaryAt day (billingMonth now) ≤ now

def CycleTask.Ok (clock : ℤ) : CycleTask → Prop
  | .listing now => now ≤ clock
  | .resetting now users => now ≤ clock ∧ ListedOk u day now users
  | .restoring now _ users => now ≤ clock ∧ ListedOk u day now users
  | .rechargingUsers now _ _ => now ≤ clock
  | .settling userId now caller pc => now ≤ clock ∧ pc.Ok u day own userId now ∧
      (match caller with
        | .recharge now' _ _ => now' ≤ clock
        | .purchase _ => True)
  | .recovering now _ _ _ => now ≤ clock
  | .buying openedAt _ _ => openedAt ≤ clock
  | _ => True

end

structure CycleBooks (u day : ℤ) (own : List (ℤ × ℤ × Option ℤ)) (db : Database) : Prop where
  userIds : (db.users.map User.id).Nodup
  user : ∃ r, db.user? u = some r ∧ r.trafficAutoReset = true ∧ r.trafficResetDay = day
  ids : (own.map Prod.fst).Nodup
  owners : db.userSubscriptions.map UserSubscription.owner = own
  nexts : ∀ s ∈ db.userSubscriptions, s.userId = u → ∀ e ∈ s.nextTrafficResetAt, Monthly day e

section

variable {u day : ℤ} {own : List (ℤ × ℤ × Option ℤ)} {env : Env} {clock : ℤ}
  {fault : ℕ → Option String} {db db' : Database}

theorem CycleTask.Ok.mono {t : CycleTask} {clock' : ℤ} (h : t.Ok u day own clock)
    (hle : clock ≤ clock') : t.Ok u day own clock' := by
  cases t with
  | resetting now users => exact ⟨h.1.trans hle, h.2⟩
  | restoring now userId users => exact ⟨h.1.trans hle, h.2⟩
  | rechargingUsers now run ids => exact le_trans h hle
  | recovering now userId run rest => exact le_trans h hle
  | listing now => exact le_trans h hle
  | buying openedAt req settled => exact le_trans h hle
  | settling userId now caller pc =>
    refine ⟨h.1.trans hle, h.2.1, ?_⟩
    cases caller with
    | recharge now' run rest => exact le_trans h.2.2 hle
    | purchase req => trivial
  | monthly | recharging | listedUsers | purchasing | purchased => trivial

theorem CycleBooks.mem_own (h : CycleBooks u day own db) {s : UserSubscription}
    (hs : s ∈ db.userSubscriptions) : s.owner ∈ own := by
  rw [← h.owners]
  exact List.mem_map_of_mem hs

theorem rowOk_rowsToAlign (h : CycleBooks u day own db) {reference userId : ℤ} {row : CycleRow}
    (hrow : row ∈ rowsToAlign clock reference userId db) : RowOk u day own userId row := by
  rw [rowsToAlign, List.mem_filter, decide_eq_true_eq] at hrow
  obtain ⟨hrow, huser, -⟩ := hrow
  rw [subscriptionCycleRows, List.mem_filterMap] at hrow
  obtain ⟨s, hs, hrow⟩ := hrow
  rw [map_eq_some_iff] at hrow
  obtain ⟨user, hfound, rfl⟩ := hrow
  have hmem := h.mem_own (List.mem_of_mem_filter hs)
  constructor
  · intro x hx hid
    obtain rfl := eq_of_key_eq h.ids hx hmem hid
    simp only [UserSubscription.owner, Prod.mk.injEq, and_true]
    exact huser
  · rintro rfl
    obtain ⟨r, hr, hauto, hday⟩ := h.user
    simp only at huser
    rw [huser, hr] at hfound
    obtain rfl := Option.some.inj hfound
    exact ⟨hauto, hday⟩

theorem cycleOk_dueCycles (hday : 1 ≤ day ∧ day ≤ 28) (h : CycleBooks u day own db)
    {userId now : ℤ} {cycle : CycleUpdate} (hcycle : cycle ∈ dueCycles userId now db) :
    CycleOk u day own userId now cycle := by
  rw [dueCycles, List.mem_filterMap] at hcycle
  obtain ⟨s, hs, hcycle⟩ := hcycle
  rw [List.mem_filter, decide_eq_true_eq] at hs
  rw [bind_eq_some_iff] at hcycle
  obtain ⟨user, hfound, hcycle⟩ := hcycle
  rw [map_eq_some_iff] at hcycle
  obtain ⟨next, hnext, rfl⟩ := hcycle
  rw [filter_eq_some_iff, decide_eq_true_eq] at hnext
  have hmem := h.mem_own hs.1
  refine ⟨?_, ?_, ?_⟩
  · intro x hx hid
    obtain rfl := eq_of_key_eq h.ids hx hmem hid
    exact hs.2.1
  · intro hu
    obtain ⟨i, rfl⟩ := h.nexts s hs.1 (hs.2.1.trans hu) next hnext.1
    refine ⟨⟨i, milliseconds_seconds_boundaryAt i⟩, ?_⟩
    have hle := hnext.2
    simp only [milliseconds, seconds] at hle ⊢
    omega
  · intro hu r hr
    have hmemr := mem_boundTrafficResetAt hr
    obtain ⟨r', hr', hauto, hd⟩ := h.user
    rw [hs.2.1, hu, hr'] at hfound
    obtain rfl := Option.some.inj hfound
    rw [nextTrafficResetAfter, if_pos hauto, hd] at hmemr
    exact nextConfigured_boundary hday hmemr

theorem foldl_max_mem (cs : List CycleUpdate) (c : CycleUpdate) :
    ∃ c' ∈ c :: cs, cs.foldl (fun m x => max m x.dueBoundary) c.dueBoundary = c'.dueBoundary := by
  induction cs generalizing c with
  | nil => exact ⟨c, List.mem_cons_self, rfl⟩
  | cons x xs ih =>
    rw [List.foldl_cons]
    rcases le_total c.dueBoundary x.dueBoundary with hle | hle
    · obtain ⟨c', hc', heq⟩ := ih x
      exact ⟨c', List.mem_cons_of_mem _ hc', by rw [max_eq_right hle, heq]⟩
    · obtain ⟨c', hc', heq⟩ := ih c
      refine ⟨c', ?_, by rw [max_eq_left hle, heq]⟩
      rw [List.mem_cons] at hc' ⊢
      exact hc'.imp_right fun h => List.mem_cons_of_mem _ h

theorem latestBoundary_mem {cycles : List CycleUpdate} (hne : cycles ≠ []) :
    ∃ c ∈ cycles, latestBoundary cycles = c.dueBoundary := by
  cases cycles with
  | nil => exact absurd rfl hne
  | cons c cs => exact foldl_max_mem cs c

/-! ## What a step does to the database -/

/-- Users and subscriptions as far as the reset goes by them. -/
structure SameCycles (db db' : Database) : Prop where
  users : db'.users.map User.resetColumns = db.users.map User.resetColumns
  subscriptions : db'.userSubscriptions = db.userSubscriptions

theorem SameCycles.refl (db : Database) : SameCycles db db := ⟨rfl, rfl⟩

theorem SameCycles.trans {db'' : Database} (h : SameCycles db db') (h' : SameCycles db' db'') :
    SameCycles db db'' :=
  ⟨h'.users.trans h.users, h'.subscriptions.trans h.subscriptions⟩

theorem sameCycles_post (t : BalanceTransaction) : SameCycles db (db.post t) := by
  refine ⟨?_, rfl⟩
  apply map_updateWhere
  intro r _
  rfl

theorem CycleBooks.of_sameCycles (h : CycleBooks u day own db) (hsame : SameCycles db db') :
    CycleBooks u day own db' := by
  have hids : db'.users.map User.id = db.users.map User.id := by
    have hfst := congrArg (List.map Prod.fst) hsame.users
    rw [List.map_map, List.map_map] at hfst
    exact hfst
  obtain ⟨r, hr, hauto, hday⟩ := h.user
  obtain ⟨r', hr', hcolumns⟩ := byKey_congr (g := User.resetColumns)
    (fun _ _ heq => congrArg Prod.fst heq) hsame.users hr
  simp only [User.resetColumns, Prod.mk.injEq] at hcolumns
  exact
    { userIds := hids ▸ h.userIds
      user := ⟨r', hr', hcolumns.2.1.trans hauto, hcolumns.2.2.1.trans hday⟩
      ids := h.ids
      owners := hsame.subscriptions ▸ h.owners
      nexts := hsame.subscriptions ▸ h.nexts }

variable {userId r : ℤ}

theorem writeForwardAccess_cycles {limit : Database → ℤ} {rules : Database → List ForwardRule}
    (h : Returns (writeForwardAccess clock userId limit rules) db r db') :
    SameCycles db db' ∧
      db'.userTrafficAddons = (expireDueTrafficAddons clock userId db).userTrafficAddons := by
  obtain ⟨-, rfl⟩ := h.bind_execute.bind_query.bind_execute.bind_execute.of_pure
  refine ⟨⟨?_, rfl⟩, rfl⟩
  apply map_updateWhere
  intro r _
  rfl

theorem recoverUserForwardAccessIfEligible_cycles
    (h : Returns (recoverUserForwardAccessIfEligible env clock userId) db r db') :
    SameCycles db db' ∧
      db'.userTrafficAddons = (expireDueTrafficAddons clock userId db).userTrafficAddons := by
  obtain ⟨user, db₁, hlock, hwrite⟩ := h.of_transaction.of_bind
  obtain ⟨-, hsame⟩ := hlock.bind_query.of_orThrow
  rw [hsame] at hwrite
  exact writeForwardAccess_cycles hwrite

theorem syncUserSubscriptionEntitlements_cycles
    (h : Returns (syncUserSubscriptionEntitlements env clock userId) db r db') :
    SameCycles db db' ∧
      db'.userTrafficAddons = (expireDueTrafficAddons clock userId db).userTrafficAddons := by
  obtain ⟨user, db₁, hlock, hwrite⟩ := h.of_transaction.of_bind
  obtain ⟨-, hsame⟩ := hlock.bind_query.of_orThrow
  rw [hsame] at hwrite
  exact writeForwardAccess_cycles hwrite

/-! ## Users and subscriptions -/

theorem user_resetUserTrafficForCycle (userId boundary resetAt v : ℤ) :
    (resetUserTrafficForCycle userId boundary resetAt db).2.user? v = (db.user? v).map fun r =>
      if v = userId ∧ r.lastAutoTrafficReset.all (· < seconds boundary) then r.trafficResetAt resetAt
      else r := by
  have hkey : ∀ r : User, r.id = (r.trafficResetAt resetAt).id := fun _ => rfl
  change byKey User.id v (updateWhere _ _ db.users) = _
  rw [byKey_updateWhere fun r _ => (hkey r).symm]
  cases hr : byKey User.id v db.users with
  | none => rw [Database.user?, hr]; rfl
  | some r =>
    rw [Database.user?, hr, map_some, map_some, byKey_key hr]
    simp only [decide_eq_true_eq]

theorem CycleBooks.reset (h : CycleBooks u day own db) (userId boundary resetAt : ℤ) :
    CycleBooks u day own (resetUserTrafficForCycle userId boundary resetAt db).2 := by
  obtain ⟨r, hr, hauto, hday⟩ := h.user
  refine
    { userIds := ?_
      user := ?_
      ids := h.ids
      owners := h.owners
      nexts := h.nexts }
  · have hkeys := map_updateWhere (p := fun r : User => decide (r.id = userId ∧
      r.lastAutoTrafficReset.all (· < seconds boundary) = true))
      (f := (·.trafficResetAt resetAt)) User.id (fun _ _ => rfl) db.users
    exact hkeys ▸ h.userIds
  · rw [user_resetUserTrafficForCycle, hr]
    refine ⟨_, rfl, ?_⟩
    simp only
    split
    · exact ⟨hauto, hday⟩
    · exact ⟨hauto, hday⟩

theorem CycleBooks.updateSubscription (h : CycleBooks u day own db) {id : ℤ}
    {f : UserSubscription → UserSubscription} (hf : ∀ s, (f s).owner = s.owner)
    (hnext : ∀ x ∈ own, x.1 = id → x.2.1 = u → ∀ s, ∀ e ∈ (f s).nextTrafficResetAt, Monthly day e) :
    CycleBooks u day own (updateUserSubscription id f db) := by
  refine
    { userIds := h.userIds
      user := h.user
      ids := h.ids
      owners := ?_
      nexts := ?_ }
  · rw [← h.owners]
    exact map_updateWhere _ (fun s _ => hf s) _
  · intro s hs hu
    obtain ⟨s₀, hs₀, rfl⟩ := mem_updateWhere.mp hs
    by_cases hid : s₀.id = id
    · simp only [hid, decide_true, if_true] at hu ⊢
      have howner : (f s₀).userId = s₀.userId := congrArg (·.2.1) (hf s₀)
      exact hnext _ (h.mem_own hs₀) hid (howner.symm.trans hu) s₀
    · simp only [hid, decide_false, Bool.false_eq_true, if_false] at hu ⊢
      exact h.nexts s₀ hs₀ hu

/-! ## Add-ons -/

/-- An add-on in force ends at a boundary after its purchase, or later, or with the
subscription, which ends at `ends`. -/
def Lasts (day : ℤ) (ends : Option ℤ) (a : UserTrafficAddon) : Prop :=
  ∀ e ∈ a.expiresAt,
    (∃ i, a.createdAt < seconds (boundaryAt day i) ∧ seconds (boundaryAt day i) ≤ e) ∨ e ∈ ends

/-- By `clock`, a boundary after its purchase has passed, or the subscription's end. -/
def Outlived (day clock : ℤ) (ends : Option ℤ) (a : UserTrafficAddon) : Prop :=
  (∃ i, a.createdAt < seconds (boundaryAt day i) ∧ boundaryAt day i ≤ clock) ∨
    ∃ e ∈ ends, e ≤ seconds clock

/-- The add-ons of the user's subscriptions; `gone` had expired before. -/
def AddonsOk (u day : ℤ) (own : List (ℤ × ℤ × Option ℤ)) (gone : List UserTrafficAddon) (clock : ℤ)
    (t : List UserTrafficAddon) : Prop :=
  ∀ a ∈ t, ∀ x ∈ own, x.1 = a.subscriptionId → x.2.1 = u →
    (a.status = .active → Lasts day x.2.2 a) ∧
    (a.status = .expired → a ∈ gone ∨ Outlived day clock x.2.2 a)

section

variable {gone : List UserTrafficAddon} {ends : Option ℤ} {a : UserTrafficAddon}

theorem le_of_seconds_boundaryAt_le {i : ℤ} (h : seconds (boundaryAt day i) ≤ seconds clock) :
    boundaryAt day i ≤ clock := by
  have hmod := boundaryAt_mod day i
  unfold seconds at h
  omega

theorem Outlived.mono {clock' : ℤ} (h : Outlived day clock ends a) (hle : clock ≤ clock') :
    Outlived day clock' ends a := by
  refine h.imp ?_ ?_
  · rintro ⟨i, hcreated, hpast⟩
    exact ⟨i, hcreated, hpast.trans hle⟩
  · rintro ⟨e, he, hpast⟩
    exact ⟨e, he, hpast.trans (seconds_mono hle)⟩

theorem AddonsOk.mono {clock' : ℤ} {t : List UserTrafficAddon} (h : AddonsOk u day own gone clock t)
    (hle : clock ≤ clock') : AddonsOk u day own gone clock' t := by
  intro a ha x hx hid hu
  obtain ⟨hactive, hexpired⟩ := h a ha x hx hid hu
  exact ⟨hactive, fun hs => (hexpired hs).imp_right fun hout => hout.mono hle⟩

theorem Lasts.outlived (h : Lasts day ends a) {e : ℤ} (he : e ∈ a.expiresAt) (hdue : e ≤ seconds clock) :
    Outlived day clock ends a := by
  refine (h e he).imp ?_ ?_
  · rintro ⟨i, hcreated, hle⟩
    exact ⟨i, hcreated, le_of_seconds_boundaryAt_le (hle.trans hdue)⟩
  · intro hend
    exact ⟨e, hend, hdue⟩

section

variable (h : AddonsOk u day own gone clock db.userTrafficAddons)

include h

theorem AddonsOk.expireAddons {now : ℤ} {p : UserTrafficAddon → Bool}
    (hp : ∀ a, p a → ∀ x ∈ own, x.1 = a.subscriptionId → x.2.1 = u → Lasts day x.2.2 a →
      Outlived day clock x.2.2 a) :
    AddonsOk u day own gone clock (expireAddons now p db).userTrafficAddons := by
  intro a ha x hx hid hu
  obtain ⟨a₀, ha₀, heq⟩ := mem_updateWhere.mp ha
  by_cases hhit : a₀.status = .active ∧ p a₀
  · rw [if_pos (decide_eq_true hhit)] at heq
    subst heq
    refine ⟨fun hs => (nomatch hs), fun _ => .inr ?_⟩
    have hlasts := (h a₀ ha₀ x hx hid hu).1 hhit.1
    exact hp a₀ hhit.2 x hx hid hu hlasts
  · rw [if_neg (by simpa using hhit)] at heq
    subst heq
    exact h a₀ ha₀ x hx hid hu

theorem AddonsOk.expireDue {now : ℤ} (hnow : now ≤ clock) (userId : ℤ) :
    AddonsOk u day own gone clock (expireDueTrafficAddons now userId db).userTrafficAddons := by
  apply h.expireAddons
  intro a ha x _ _ _ hlasts
  rw [decide_eq_true_eq, any_eq_true] at ha
  obtain ⟨-, e, he, hdue⟩ := ha
  exact (hlasts.outlived he (of_decide_eq_true hdue)).mono hnow

theorem AddonsOk.expireCycle
    {userId now : ℤ} {cycle : CycleUpdate} (hcycle : CycleOk u day own userId now cycle) (hnow : now ≤ clock) :
    AddonsOk u day own gone clock (expireTrafficAddonsForCycle clock cycle db).userTrafficAddons := by
  unfold expireTrafficAddonsForCycle
  split
  · exact h
  · apply h.expireAddons
    intro a ha x hx hid hu _
    rw [decide_eq_true_eq] at ha
    have huser : userId = u := (hcycle.owned x hx (hid.trans ha.1)).symm.trans hu
    obtain ⟨⟨i, hi⟩, hle⟩ := hcycle.due huser
    rw [hi] at ha hle
    exact .inl ⟨i, ha.2, hle.trans hnow⟩

end

variable {row : CycleRow}

theorem alignedTo_boundary (hday : 1 ≤ day ∧ day ≤ 28) {userId now r : ℤ}
    (hrow : RowOk u day own userId row) (hu : userId = u) (hr : r ∈ row.alignedTo now) :
    ∃ i, r = boundaryAt day i := by
  obtain ⟨hauto, hd⟩ := hrow.configured hu
  unfold CycleRow.alignedTo at hr
  split at hr
  · rw [nextTrafficResetAfter, if_pos hauto, hd] at hr
    exact nextConfigured_boundary hday hr
  · cases hr

theorem lasts_cycleEnd (hday : 1 ≤ day ∧ day ≤ 28) {userId now : ℤ}
    (hrow : RowOk u day own userId row) {ends : Option ℤ} (hends : ends = row.sub.expiresAt)
    (hu : userId = u) (hnew : ∀ r ∈ row.alignedTo now, a.createdAt < seconds r) :
    Lasts day ends { a with
      cycleResetAt := ((row.alignedTo now).or (row.sub.expiresAt.map milliseconds)).map seconds
      expiresAt := ((row.alignedTo now).or (row.sub.expiresAt.map milliseconds)).map seconds } := by
  intro e he
  cases haligned : row.alignedTo now with
  | some r =>
    obtain ⟨i, rfl⟩ := alignedTo_boundary hday hrow hu haligned
    simp only [haligned, some_or, map_some, mem_some_iff] at he
    exact .inl ⟨i, hnew _ haligned, he.le⟩
  | none =>
    simp only [haligned, none_or, map_map, seconds_comp_milliseconds, map_id,
      id_eq] at he
    exact .inr (hends ▸ he)

theorem AddonsOk.cycleEnd (h : AddonsOk u day own gone clock db.userTrafficAddons)
    (hday : 1 ≤ day ∧ day ≤ 28) {userId now : ℤ} (hrow : RowOk u day own userId row)
    (hnew : userId = u → ∀ a ∈ db.userTrafficAddons, a.subscriptionId = row.sub.id →
      a.status = .active → ∀ r ∈ row.alignedTo now, a.createdAt < seconds r) :
    AddonsOk u day own gone clock (updateActiveTrafficAddonCycleEnd row.sub.id (row.alignedTo now)
      (row.sub.expiresAt.map milliseconds) db).userTrafficAddons := by
  unfold updateActiveTrafficAddonCycleEnd
  simp only
  split
  · exact h
  · intro a ha x hx hid hu
    obtain ⟨a₀, ha₀, heq⟩ := mem_updateWhere.mp ha
    by_cases hhit : a₀.subscriptionId = row.sub.id ∧ a₀.status = .active
    · rw [if_pos (decide_eq_true hhit)] at heq
      subst heq
      refine ⟨fun _ => ?_, fun hs => absurd (hhit.2.symm.trans hs) (by decide)⟩
      have howner := hrow.owned x hx (hid.trans hhit.1)
      have huser : userId = u := by rw [← hu, howner]
      apply lasts_cycleEnd hday hrow (congrArg Prod.snd howner) huser
      exact hnew huser a₀ ha₀ hhit.1 hhit.2
    · rw [if_neg (by simpa using hhit)] at heq
      subst heq
      exact h a₀ ha₀ x hx hid hu

theorem lasts_boughtAddon (hday : 1 ≤ day ∧ day ≤ 28) (h : CycleBooks u day own db)
    {sub : UserSubscription} (hsub : sub ∈ db.userSubscriptions) (hu : sub.userId = u)
    {openedAt : ℤ} (hclock : clock < nextMonthlyBoundary day openedAt)
    (req : AddonRequest) (addon : PlanTrafficAddon) (id : ℤ) :
    Lasts day sub.expiresAt (boughtAddon openedAt clock req addon sub id) := by
  have hnew : ∀ i, openedAt < boundaryAt day i → seconds clock < seconds (boundaryAt day i) := by
    intro i hi
    exact seconds_lt_boundaryAt (hclock.trans_le (nextMonthlyBoundary_le hday hi))
  intro e he
  simp only [boughtAddon, mem_some_iff] at he
  simp only [boughtAddon]
  subst he
  unfold getTrafficAddonCycleEnd
  cases hnext : (sub.nextTrafficResetAt.map milliseconds).filter (openedAt < ·) with
  | some r =>
    rw [filter_eq_some_iff, map_eq_some_iff, decide_eq_true_eq] at hnext
    obtain ⟨⟨n, hn, rfl⟩, hlt⟩ := hnext
    obtain ⟨i, rfl⟩ := h.nexts sub hsub hu n hn
    rw [milliseconds_seconds_boundaryAt] at hlt ⊢
    exact .inl ⟨i, hnew i hlt, le_rfl⟩
  | none =>
    cases hend : (sub.expiresAt.map milliseconds).filter (openedAt < ·) with
    | some r =>
      rw [filter_eq_some_iff, map_eq_some_iff] at hend
      obtain ⟨⟨n, hn, rfl⟩, -⟩ := hend
      have hround : seconds (milliseconds n) = n := congrFun seconds_comp_milliseconds n
      simp only [getD_none, getD_some, hround]
      exact .inr hn
    | none =>
      obtain ⟨i, hlt, hle⟩ := boundaryAt_le_addMonth hday openedAt
      exact .inl ⟨i, hnew i hlt, seconds_mono hle⟩

theorem AddonsOk.insert (h : AddonsOk u day own gone clock db.userTrafficAddons)
    {row : ℤ → UserTrafficAddon} (hactive : ∀ id, (row id).status = .active)
    (hrow : ∀ id, ∀ x ∈ own, x.1 = (row id).subscriptionId → x.2.1 = u → Lasts day x.2.2 (row id)) :
    AddonsOk u day own gone clock (insertTrafficAddon row db).2.userTrafficAddons := by
  intro a ha x hx hid hu
  rw [insertTrafficAddon, List.mem_append, List.mem_singleton] at ha
  rcases ha with ha | rfl
  · exact h a ha x hx hid hu
  · refine ⟨fun _ => hrow _ x hx hid hu, fun hs => ?_⟩
    rw [hactive] at hs
    cases hs

theorem chargeBalance_cycles {userId amount : ℤ} {m : TransactionMeta} {r : Unit}
    (h : Returns (chargeBalance clock userId amount m) db r db') :
    SameCycles db db' ∧ db'.userTrafficAddons = db.userTrafficAddons := by
  obtain rfl | ⟨user, -, -, -, rfl⟩ := chargeBalance_spec h
  · exact ⟨.refl _, rfl⟩
  · exact ⟨sameCycles_post _, rfl⟩

theorem buyTrafficAddon_cycles (hday : 1 ≤ day ∧ day ≤ 28) (hbooks : CycleBooks u day own db)
    (haddons : AddonsOk u day own gone clock db.userTrafficAddons) {openedAt : ℤ}
    {req : AddonRequest} (hopened : openedAt ≤ clock)
    (hclock : req.userId = u → clock < nextMonthlyBoundary day openedAt) {r : BoughtAddon}
    (h : Returns (buyTrafficAddon env openedAt clock req) db r db') :
    SameCycles db db' ∧ AddonsOk u day own gone clock db'.userTrafficAddons := by
  obtain ⟨addon, sub, m, db₁, limit, hsub, hcharge, hsync⟩ := buyTrafficAddon_spec h
  obtain ⟨hsame₁, haddons₁⟩ := chargeBalance_cycles hcharge
  obtain ⟨hsame₂, haddons₂⟩ := syncUserSubscriptionEntitlements_cycles hsync
  rw [getActiveUserSubscriptions, List.mem_filter, decide_eq_true_eq] at hsub
  refine ⟨?_, ?_⟩
  · have hexpire : SameCycles db (expireDueTrafficAddons openedAt req.userId db) := ⟨rfl, rfl⟩
    have hinsert : SameCycles db₁
        (insertTrafficAddon (boughtAddon openedAt clock req addon sub) db₁).2 := ⟨rfl, rfl⟩
    exact ((hexpire.trans hsame₁).trans hinsert).trans hsame₂
  · rw [haddons₂]
    apply AddonsOk.expireDue _ le_rfl
    apply AddonsOk.insert
    · rw [haddons₁]
      exact haddons.expireDue hopened req.userId
    · intro id
      rfl
    · intro id x hx hid hu
      obtain rfl := eq_of_key_eq hbooks.ids hx (hbooks.mem_own hsub.1) hid
      exact lasts_boughtAddon hday hbooks hsub.1 hu (hclock (hsub.2.2.symm.trans hu)) req addon id

end

end

end ForwardX.Panel

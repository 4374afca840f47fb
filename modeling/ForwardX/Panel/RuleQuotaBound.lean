/-
The bound that reservations of a rule quota keep: `server/ruleQuotaReservations.ts`.

A reservation counts from before the rows are read until after they are inserted. So stored and
reserved rules together never exceed a limit, at every moment of every interleaving.
-/
import ForwardX.Panel.RuleQuota

namespace ForwardX.Panel.RuleQuota

open Chain Run TaskLock List

namespace QuotaWorld

/-! ## The books -/

section

variable (limits : ℕ → QuotaLimits)

def held (w : QuotaWorld) (userId : ℕ) : ℕ :=
  w.reservations.countP fun reservation => reservation.userId = userId && !reservation.done

def heldNotInserted (w : QuotaWorld) (userId : ℕ) : ℕ :=
  w.reservations.countP fun reservation =>
    reservation.userId = userId && !reservation.done && !reservation.inserted

/-- The pending counts of a user with that many reservations held. -/
def pendingOf (limits : QuotaLimits) (n : ℕ) : Option PendingQuota :=
  if n = 0 ∨ limits.unlimited then none else some ⟨n * limits.share .rules, n * limits.share .ports⟩

structure Books (w : QuotaWorld) : Prop where
  table : ∀ userId, w.pendingByUser.get userId = pendingOf (limits userId) (w.held userId)
  /-- What a task took for pending is pending as long as it runs. -/
  snapshot : ∀ c userId pending, w.runningTask c = some (.reserve userId) →
    (w.locals c).pending = some pending → pending = (w.pendingByUser.get userId).getD noneQuota
  /-- What is stored and may still be inserted has not grown since the store was read. -/
  read_bound : ∀ c userId kind n, w.runningTask c = some (.reserve userId) →
    0 < (limits userId).limit kind → (w.locals c).count kind = some n →
    w.stored userId kind + w.heldNotInserted userId ≤ n + w.held userId
  bound : ∀ userId kind, 0 < (limits userId).limit kind →
    w.stored userId kind + w.heldNotInserted userId ≤ (limits userId).limit kind

end

section

variable {limits : ℕ → QuotaLimits} {l : QuotaLimits} {w : QuotaWorld} {f : Reservation → Reservation}
    {reservation : Reservation}

theorem unlimited_of_limit_pos {kind : QuotaKind} (h : 0 < l.limit kind) : l.unlimited = false := by
  rw [QuotaLimits.unlimited, Bool.and_eq_false_iff, decide_eq_false_iff_not, decide_eq_false_iff_not]
  cases kind with
  | rules => exact .inl (by omega)
  | ports => exact .inr (by omega)

theorem share_of_limit_pos {kind : QuotaKind} (h : 0 < l.limit kind) : l.share kind = 1 :=
  if_pos h

theorem pendingOf_congr {n n' : ℕ} (h : l.unlimited = false → n = n') : pendingOf l n = pendingOf l n' := by
  cases hl : l.unlimited with
  | true => rw [pendingOf, pendingOf, if_pos (.inr hl), if_pos (.inr hl)]
  | false => rw [h hl]

theorem pendingOf_getD (hl : l.unlimited = false) (n : ℕ) :
    (pendingOf l n).getD noneQuota = ⟨n * l.share .rules, n * l.share .ports⟩ := by
  rw [pendingOf]
  split
  · rename_i hnone
    rcases hnone with rfl | hunlimited
    · simp [noneQuota]
    · rw [hl] at hunlimited
      cases hunlimited
  · rfl

theorem heldNotInserted_le_held (w : QuotaWorld) (userId : ℕ) : w.heldNotInserted userId ≤ w.held userId := by
  refine countP_mono_left fun reservation _ h => ?_
  rw [Bool.and_eq_true] at h
  exact h.1

variable {lock : LockState JsString QuotaTask}

theorem Jobs.runningTask_before (h : w.Jobs)
    (hforward : w.lock.Forward lock)
    (hlabels : ∀ (i : ℕ) label, w.lock.labels[i]? = some label → lock.labels[i]? = some label)
    {c : ℕ} {task : QuotaTask} (hc : runningTask { w with lock } c = some task) :
    w.locals c = {} ∨ w.runningTask c = some task := by
  by_cases hwaits : ∀ phase, w.lock.phase c = some phase → phase = .waiting
  · exact .inl (h.fresh c hwaits)
  · rw [not_forall] at hwaits
    obtain ⟨phase, hphase⟩ := hwaits
    rw [Classical.not_imp] at hphase
    obtain ⟨phase', hphase', hle⟩ := hforward c phase hphase.1
    obtain rfl := Option.some.inj ((phase_of_runningTask hc).symm.trans hphase')
    obtain ⟨call, hcall, rfl⟩ := LockState.phase_eq_some_iff.mp hphase.1
    refine .inr (runningTask_eq_some_iff.mpr ⟨call, hcall, ?_, ?_⟩)
    · cases hcase : call.phase with
      | waiting => exact absurd hcase hphase.2
      | running => rfl
      | settled failed => rw [hcase] at hle; exact absurd hle (Nat.not_succ_le_self 1)
      | released => rw [hcase] at hle; exact absurd hle (by decide)
    · obtain ⟨call', hcall', -, rfl⟩ := runningTask_eq_some_iff.mp hc
      have hlabel : w.lock.labels[c]? = some (call.key, call.task) := by
        rw [LockState.labels, getElem?_map, hcall, Option.map_some]
      have hlabel' := hlabels c _ hlabel
      change lock.calls[c]? = some call' at hcall'
      rw [LockState.labels, getElem?_map, hcall', Option.map_some, Option.some.injEq, Prod.mk.injEq] at hlabel'
      exact hlabel'.2.symm

theorem Books.quiet {w w' : QuotaWorld} (h : w.Books limits) (htable : w'.pendingByUser = w.pendingByUser)
    (hheld : ∀ userId, (limits userId).unlimited = false → w'.held userId = w.held userId)
    (hsum : ∀ userId kind, 0 < (limits userId).limit kind →
      w'.stored userId kind + w'.heldNotInserted userId ≤ w.stored userId kind + w.heldNotInserted userId)
    (hrunning : ∀ c task, w'.runningTask c = some task →
      w'.locals c = {} ∨ (w.runningTask c = some task ∧ w'.locals c = w.locals c)) : w'.Books limits where
  table := by
    intro userId
    rw [htable, h.table userId]
    exact pendingOf_congr fun hlimited => (hheld userId hlimited).symm
  snapshot := by
    intro c userId pending hc hpending
    rcases hrunning c _ hc with hnew | ⟨hold, hlocals⟩
    · rw [hnew] at hpending
      cases hpending
    · rw [htable]
      exact h.snapshot c userId pending hold (hlocals ▸ hpending)
  read_bound := by
    intro c userId kind n hc hlimit hn
    rcases hrunning c _ hc with hnew | ⟨hold, hlocals⟩
    · rw [hnew] at hn
      cases kind <;> cases hn
    · rw [hheld userId (unlimited_of_limit_pos hlimit)]
      exact (hsum userId kind hlimit).trans (h.read_bound c userId kind n hold hlimit (hlocals ▸ hn))
  bound userId kind hlimit := (hsum userId kind hlimit).trans (h.bound userId kind hlimit)

theorem Books.move (h : w.Books limits) (hjobs : w.Jobs)
    (hforward : w.lock.Forward lock)
    (hlabels : ∀ (i : ℕ) label, w.lock.labels[i]? = some label → lock.labels[i]? = some label) :
    Books limits { w with lock } := by
  refine h.quiet rfl (fun _ _ => rfl) (fun _ _ _ => le_rfl) fun c task hc => ?_
  rcases hjobs.runningTask_before hforward hlabels hc with hnew | hold
  · exact .inl hnew
  · exact .inr ⟨hold, rfl⟩

theorem Books.request (h : w.Books limits) (hjobs : w.Jobs) (key : JsString) (task : QuotaTask) :
    Books limits { w with lock := w.lock.request key task } := by
  refine h.move hjobs (LockState.forward_request w.lock key task) fun i label hlabel => ?_
  rw [LockState.labels_request]
  exact getElem?_concat_of_some hlabel

theorem Books.settle (h : w.Books limits) (hjobs : w.Jobs) (c : ℕ) (failed : Bool) :
    Books limits { w with lock := w.lock.settle c failed } := by
  refine h.move hjobs (LockState.forward_settle w.lock c failed) fun i label hlabel => ?_
  rw [LockState.labels_settle]
  exact hlabel

/-! ## What is held -/

theorem held_add (w : QuotaWorld) (userId other : ℕ) :
    held { w with reservations := w.reservations ++ [⟨userId, false, false, false⟩] } other
      = w.held other + if other = userId then 1 else 0 := by
  rw [held, countP_append, countP_singleton, held]
  by_cases huser : other = userId
  · simp [huser]
  · simp [huser, Ne.symm huser]

theorem heldNotInserted_add (w : QuotaWorld) (userId other : ℕ) :
    heldNotInserted { w with reservations := w.reservations ++ [⟨userId, false, false, false⟩] } other
      = w.heldNotInserted other + if other = userId then 1 else 0 := by
  rw [heldNotInserted, countP_append, countP_singleton, heldNotInserted]
  by_cases huser : other = userId
  · simp [huser]
  · simp [huser, Ne.symm huser]

section

variable {r : ℕ} (hr : w.reservations[r]? = some reservation)

include hr

theorem held_toReservation {userId : ℕ} (huser : (f reservation).userId = reservation.userId)
    (hdone : reservation.userId = userId → (f reservation).done = reservation.done) :
    (w.toReservation r f).held userId = w.held userId := by
  have hcount := countP_modify (fun reservation : Reservation =>
    reservation.userId = userId && !reservation.done) (f := f) hr
  have hsame : (decide ((f reservation).userId = userId) && !(f reservation).done)
      = (decide (reservation.userId = userId) && !reservation.done) := by
    rw [huser]
    by_cases heq : reservation.userId = userId
    · rw [hdone heq]
    · simp [heq]
  simp only [hsame] at hcount
  exact Nat.add_right_cancel hcount

theorem heldNotInserted_toReservation {userId : ℕ} (huser : (f reservation).userId = reservation.userId)
    (hsame : reservation.userId = userId → (f reservation).done = reservation.done ∧
      (f reservation).inserted = reservation.inserted) :
    (w.toReservation r f).heldNotInserted userId = w.heldNotInserted userId := by
  have hcount := countP_modify (fun reservation : Reservation =>
    reservation.userId = userId && !reservation.done && !reservation.inserted) (f := f) hr
  have heq : (decide ((f reservation).userId = userId) && !(f reservation).done && !(f reservation).inserted)
      = (decide (reservation.userId = userId) && !reservation.done && !reservation.inserted) := by
    rw [huser]
    by_cases heq : reservation.userId = userId
    · rw [(hsame heq).1, (hsame heq).2]
    · simp [heq]
  simp only [heq] at hcount
  exact Nat.add_right_cancel hcount

theorem held_done (hopen : reservation.done = false) (hdone : (f reservation).done = true) :
    (w.toReservation r f).held reservation.userId + 1 = w.held reservation.userId := by
  have hcount := countP_modify (fun other : Reservation =>
    other.userId = reservation.userId && !other.done) (f := f) hr
  simpa [held, QuotaWorld.toReservation, hopen, hdone] using hcount

theorem heldNotInserted_drop (hdrop : (f reservation).done = true ∨ (f reservation).inserted = true) :
    (w.toReservation r f).heldNotInserted reservation.userId
      + (if reservation.done = false ∧ reservation.inserted = false then 1 else 0)
      = w.heldNotInserted reservation.userId := by
  have hcount := countP_modify (fun other : Reservation =>
    other.userId = reservation.userId && !other.done && !other.inserted) (f := f) hr
  rcases hdrop with hdrop | hdrop
  · simpa [heldNotInserted, QuotaWorld.toReservation, hdrop] using hcount
  · simpa [heldNotInserted, QuotaWorld.toReservation, hdrop] using hcount

end

/-! ## What is stored -/

theorem stored_insert (w : QuotaWorld) (rule : RuleRow) (userId : ℕ) (kind : QuotaKind) :
    stored { w with rules := w.rules ++ [rule] } userId kind
      ≤ w.stored userId kind + if rule.userId = userId then 1 else 0 := by
  have hfilter : (w.rules ++ [rule]).filter (fun rule => rule.userId = userId)
      = w.rules.filter (fun rule => rule.userId = userId) ++ if rule.userId = userId then [rule] else [] := by
    rw [filter_append]
    congr 1
    by_cases huser : rule.userId = userId
    · simp [huser]
    · simp [huser]
  cases kind with
  | rules =>
    rw [stored, hfilter, length_append, stored]
    split <;> simp
  | ports =>
    rw [stored, hfilter, map_append, toFinset_append, stored]
    split
    · refine (Finset.card_union_le _ _).trans ?_
      simp
    · simp

theorem stored_delete (w : QuotaWorld) (i userId : ℕ) (kind : QuotaKind) :
    stored { w with rules := w.rules.eraseIdx i } userId kind ≤ w.stored userId kind := by
  have hsub := (eraseIdx_sublist w.rules i).filter fun rule => rule.userId = userId
  cases kind with
  | rules => exact hsub.length_le
  | ports =>
    refine Finset.card_le_card ?_
    intro port hport
    rw [mem_toFinset] at hport ⊢
    exact (hsub.map RuleRow.sourcePort).subset hport

/-! ## Steps -/

theorem Books.reserve (h : w.Books limits) (hjobs : w.Jobs) (userId : ℕ) :
    (w.reserveRuleCreateQuota limits userId).Books limits := by
  unfold reserveRuleCreateQuota
  split
  · rename_i hunlimited
    have hother : ∀ other, (limits other).unlimited = false → other ≠ userId := by
      rintro other hlimited rfl
      rw [hunlimited] at hlimited
      cases hlimited
    refine h.quiet rfl ?_ ?_ fun c task hc => .inr ⟨hc, rfl⟩
    · intro other hlimited
      rw [held_add, if_neg (hother other hlimited), Nat.add_zero]
    · intro other kind hlimit
      rw [heldNotInserted_add, if_neg (hother other (unlimited_of_limit_pos hlimit)), Nat.add_zero]
      exact le_rfl
  · exact h.request hjobs _ _

theorem Books.readPending (h : w.Books limits) (c : ℕ) : (w.readPending c).Books limits := by
  unfold QuotaWorld.readPending
  split
  · rename_i userId hc
    split
    · refine ⟨h.table, ?_, ?_, h.bound⟩
      · intro c' userId' pending hc' hpending
        by_cases hcc : c' = c
        · subst hcc
          change w.runningTask c' = _ at hc'
          rw [hc, Option.some.injEq, QuotaTask.reserve.injEq] at hc'
          dsimp only at hpending
          rw [Function.update_self, Option.some.injEq] at hpending
          rw [← hpending, ← hc']
        · dsimp only at hpending
          rw [Function.update_of_ne hcc] at hpending
          exact h.snapshot c' userId' pending hc' hpending
      · intro c' userId' kind n hc' hlimit hn
        refine h.read_bound c' userId' kind n hc' hlimit ?_
        by_cases hcc : c' = c
        · subst hcc
          dsimp only at hn
          rw [Function.update_self] at hn
          cases kind <;> exact hn
        · dsimp only at hn
          rw [Function.update_of_ne hcc] at hn
          exact hn
    · exact h
  · exact h

theorem count_setCount (locals : ReserveLocals) (kind kind' : QuotaKind) (n : ℕ) :
    (locals.setCount kind n).count kind' = if kind' = kind then some n else locals.count kind' := by
  cases kind <;> cases kind' <;> rfl

theorem pending_setCount (locals : ReserveLocals) (kind : QuotaKind) (n : ℕ) :
    (locals.setCount kind n).pending = locals.pending := by
  cases kind <;> rfl

section

variable (h : w.Books limits)

include h

theorem Books.readCount (c : ℕ) (kind : QuotaKind) : (w.readCount limits c kind).Books limits := by
  unfold QuotaWorld.readCount
  split
  · rename_i userId hc
    split
    · refine ⟨h.table, ?_, ?_, h.bound⟩
      · intro c' userId' pending hc' hpending
        refine h.snapshot c' userId' pending hc' ?_
        by_cases hcc : c' = c
        · subst hcc
          dsimp only at hpending
          rw [Function.update_self, pending_setCount] at hpending
          exact hpending
        · dsimp only at hpending
          rw [Function.update_of_ne hcc] at hpending
          exact hpending
      · intro c' userId' kind' n hc' hlimit hn
        by_cases hcc : c' = c
        · subst hcc
          change w.runningTask c' = _ at hc'
          have huser : userId = userId' := QuotaTask.reserve.inj (Option.some.inj (hc.symm.trans hc'))
          dsimp only at hn
          rw [Function.update_self, count_setCount] at hn
          split at hn
          · rename_i hkind
            obtain rfl := Option.some.inj hn
            rw [hkind, huser]
            exact Nat.add_le_add_left (heldNotInserted_le_held w userId') _
          · exact h.read_bound c' userId' kind' n hc' hlimit hn
        · dsimp only at hn
          rw [Function.update_of_ne hcc] at hn
          exact h.read_bound c' userId' kind' n hc' hlimit hn
    · exact h
  · exact h

theorem Books.insert (r sourcePort : ℕ) : (w.insert r sourcePort).Books limits := by
  unfold QuotaWorld.insert
  split
  · exact h
  · rename_i reservation hr
    split
    · exact h
    · rename_i hopen
      rw [not_or, Bool.not_eq_true, Bool.not_eq_true] at hopen
      refine h.quiet rfl ?_ ?_ fun c task hc => .inr ⟨hc, rfl⟩
      · intro userId _
        exact held_toReservation (f := fun reservation => { reservation with inserted := true }) hr rfl fun _ => rfl
      · intro userId kind _
        have hstored := stored_insert w ⟨reservation.userId, sourcePort⟩ userId kind
        by_cases huser : reservation.userId = userId
        · subst huser
          have hdrop := heldNotInserted_drop (f := fun reservation => { reservation with inserted := true }) hr
            (.inr rfl)
          rw [if_pos hopen] at hdrop
          rw [if_pos rfl] at hstored
          change stored { w with rules := _ } _ kind + (w.toReservation r _).heldNotInserted _ ≤ _
          omega
        · have hsame : (w.toReservation r fun reservation => { reservation with inserted := true }).heldNotInserted
              userId = w.heldNotInserted userId :=
            heldNotInserted_toReservation hr rfl fun heq => absurd heq huser
          rw [if_neg huser] at hstored
          change stored { w with rules := _ } _ kind + (w.toReservation r _).heldNotInserted _ ≤ _
          omega

theorem Books.deleteRule (i : ℕ) : Books limits { w with rules := w.rules.eraseIdx i } :=
  h.quiet rfl (fun _ _ => rfl)
    (fun userId kind _ => Nat.add_le_add_right (stored_delete w i userId kind) _) fun _ _ hc => .inr ⟨hc, rfl⟩

theorem Books.release (hjobs : w.Jobs) (r : ℕ) : (w.release limits r).Books limits := by
  unfold QuotaWorld.release
  split
  · exact h
  · rename_i reservation hr
    split
    · rename_i hunlimited
      have hother : ∀ userId, (limits userId).unlimited = false → reservation.userId ≠ userId := by
        rintro userId hlimited rfl
        rw [hunlimited] at hlimited
        cases hlimited
      refine h.quiet rfl ?_ ?_ fun c task hc => .inr ⟨hc, rfl⟩
      · intro userId hlimited
        refine held_toReservation hr rfl fun heq => ?_
        exact absurd heq (hother userId hlimited)
      · intro userId kind hlimit
        refine Nat.add_le_add_left (le_of_eq (heldNotInserted_toReservation hr rfl fun heq => ?_)) _
        exact absurd heq (hother userId (unlimited_of_limit_pos hlimit))
    · split
      · exact h
      · have hflag : (w.toReservation r fun reservation => { reservation with released := true }).Books limits := by
          refine h.quiet rfl ?_ ?_ fun c task hc => .inr ⟨hc, rfl⟩
          · intro userId _
            exact held_toReservation (f := fun reservation => { reservation with released := true }) hr rfl
              fun _ => rfl
          · intro userId kind _
            exact Nat.add_le_add_left (le_of_eq (heldNotInserted_toReservation
              (f := fun reservation => { reservation with released := true }) hr rfl fun _ => ⟨rfl, rfl⟩)) _
        exact hflag.request (hjobs.flag hr) _ _

theorem Books.failReserve (hjobs : w.Jobs) (c : ℕ) : (w.failReserve c).Books limits := by
  unfold QuotaWorld.failReserve
  split
  · exact h.settle hjobs c true
  · exact h

end

theorem checkQuota_eq_ok {pending next : PendingQuota} {ruleCount portCount : ℕ}
    (h : checkQuota l pending ruleCount portCount = .ok next) :
    (0 < l.limit .rules → ruleCount + pending.rules < l.limit .rules) ∧
    (0 < l.limit .ports → portCount + pending.ports < l.limit .ports) ∧
    next = ⟨pending.rules + l.share .rules, pending.ports + l.share .ports⟩ := by
  unfold checkQuota at h
  dsimp only at h
  split at h
  · cases h
  · rename_i hrules
    split at h
    · cases h
    · rename_i hports
      refine ⟨fun hlimit => ?_, fun hlimit => ?_, (Except.ok.inj h).symm⟩
      · by_contra hnot
        exact hrules ⟨hlimit, by omega⟩
      · by_contra hnot
        exact hports ⟨hlimit, by omega⟩

theorem Jobs.other_user (h : w.Jobs) {c c' : ℕ} {task task' : QuotaTask} {failed : Bool}
    (hc : w.runningTask c = some task)
    (hc' : runningTask { w with lock := w.lock.settle c failed } c' = some task') :
    (w.locals c' = {} ∨ w.runningTask c' = some task') ∧ (w.runningTask c' = some task' →
      task'.userId ≠ task.userId) := by
  refine ⟨h.runningTask_before (LockState.forward_settle w.lock c failed) ?_ hc', ?_⟩
  · intro i label hlabel
    rw [LockState.labels_settle]
    exact hlabel
  · intro hold huser
    obtain rfl := h.exclusive hold hc huser
    have hphase := phase_of_runningTask hc'
    change (w.lock.settle c' failed).phase c' = some .running at hphase
    rw [LockState.phase_settle, if_pos ⟨rfl, phase_of_runningTask hc⟩] at hphase
    cases hphase

theorem Books.grant (h : w.Books limits) (hjobs : w.Jobs) (hlimited : Limited limits w)
    {c userId ruleCount portCount : ℕ} {pending next : PendingQuota}
    (hc : w.runningTask c = some (.reserve userId)) (hpending : (w.locals c).pending = some pending)
    (hrules : w.countRead limits c userId .rules = some ruleCount)
    (hports : w.countRead limits c userId .ports = some portCount)
    (hcheck : checkQuota (limits userId) pending ruleCount portCount = .ok next) :
    Books limits { w with
      lock := w.lock.settle c false
      pendingByUser := w.pendingByUser.set userId next
      reservations := w.reservations ++ [⟨userId, false, false, false⟩] } := by
  have huser : (limits userId).unlimited = false := hlimited _ (mem_of_getElem? (task_of_runningTask hc))
  obtain ⟨hruleRoom, hportRoom, rfl⟩ := checkQuota_eq_ok hcheck
  have hsnapshot := h.snapshot c userId pending hc hpending
  rw [h.table userId, pendingOf_getD huser] at hsnapshot
  -- of what is limited, the counts read and what is held are below the limit together
  have hroom : ∀ kind, 0 < (limits userId).limit kind →
      w.stored userId kind + w.heldNotInserted userId < (limits userId).limit kind := by
    intro kind hlimit
    have hshare := share_of_limit_pos hlimit
    cases kind with
    | rules =>
      rw [countRead, if_pos hlimit] at hrules
      have hread := h.read_bound c userId .rules ruleCount hc hlimit hrules
      have hcheck' := hruleRoom hlimit
      rw [hsnapshot, hshare] at hcheck'
      dsimp only at hcheck'
      omega
    | ports =>
      rw [countRead, if_pos hlimit] at hports
      have hread := h.read_bound c userId .ports portCount hc hlimit hports
      have hcheck' := hportRoom hlimit
      rw [hsnapshot, hshare] at hcheck'
      dsimp only at hcheck'
      omega
  refine ⟨?_, ?_, ?_, ?_⟩
  · intro other
    change (w.pendingByUser.set userId _).get other = pendingOf _ (held { w with reservations := _ } other)
    rw [JsMap.get_set, held_add]
    split
    · rename_i hother
      subst hother
      have hone : w.held other + 1 ≠ 0 := Nat.succ_ne_zero _
      rw [pendingOf, if_neg (by simp [huser]), hsnapshot]
      simp only [Nat.add_mul, Nat.one_mul]
    · exact h.table other
  · intro c' other pending' hc' hpending'
    obtain ⟨hbefore, hne⟩ := hjobs.other_user hc hc'
    rcases hbefore with hnew | hold
    · change (w.locals c').pending = _ at hpending'
      rw [hnew] at hpending'
      cases hpending'
    · have hother : other ≠ userId := hne hold
      change pending' = ((w.pendingByUser.set userId _).get other).getD noneQuota
      rw [JsMap.get_set, if_neg hother]
      exact h.snapshot c' other pending' hold hpending'
  · intro c' other kind n hc' hlimit hn
    obtain ⟨hbefore, hne⟩ := hjobs.other_user hc hc'
    rcases hbefore with hnew | hold
    · change (w.locals c').count kind = _ at hn
      rw [hnew] at hn
      cases kind <;> cases hn
    · have hother : other ≠ userId := hne hold
      change w.stored other kind + heldNotInserted { w with reservations := _ } other
        ≤ n + held { w with reservations := _ } other
      rw [heldNotInserted_add, held_add, if_neg hother, Nat.add_zero, Nat.add_zero]
      exact h.read_bound c' other kind n hold hlimit hn
  · intro other kind hlimit
    change w.stored other kind + heldNotInserted { w with reservations := _ } other ≤ _
    rw [heldNotInserted_add]
    split
    · rename_i hother
      subst hother
      have hlt := hroom kind hlimit
      omega
    · exact h.bound other kind hlimit

theorem Books.decideQuota (h : w.Books limits) (hjobs : w.Jobs) (hlimited : Limited limits w)
    (c : ℕ) : (w.decideQuota limits c).Books limits := by
  unfold QuotaWorld.decideQuota
  split
  · rename_i userId hc
    split
    · rename_i pending ruleCount portCount hpending hrules hports
      split
      · exact h.settle hjobs c true
      · rename_i next hcheck
        exact h.grant hjobs hlimited hc hpending hrules hports hcheck
    · exact h
  · exact h

theorem get_releaseQuota (hl : l.unlimited = false) {m : JsMap ℕ PendingQuota}
    {userId n : ℕ} (h : m.get userId = pendingOf l (n + 1)) (other : ℕ) :
    (releaseQuota l m userId).get other = if other = userId then pendingOf l n else m.get other := by
  have hsome : pendingOf l (n + 1) = some ⟨(n + 1) * l.share .rules, (n + 1) * l.share .ports⟩ := by
    rw [pendingOf, if_neg (by simp [hl])]
  have hshares : l.share .rules + l.share .ports ≠ 0 := by
    intro hzero
    rw [QuotaLimits.share, QuotaLimits.share] at hzero
    rw [QuotaLimits.unlimited, Bool.and_eq_false_iff, decide_eq_false_iff_not, decide_eq_false_iff_not] at hl
    split at hzero <;> split at hzero <;> omega
  rw [releaseQuota, h, hsome]
  dsimp only
  rw [Nat.add_mul, Nat.add_mul, Nat.one_mul, Nat.one_mul, Nat.add_sub_cancel, Nat.add_sub_cancel]
  by_cases hn : n = 0
  · subst hn
    have hnone : pendingOf l 0 = none := if_pos (.inl rfl)
    rw [if_pos (by simp), JsMap.get_delete, hnone]
  · have hlive : ¬ (n * l.share .rules = 0 ∧ n * l.share .ports = 0) := by
      rintro ⟨hrules, hports⟩
      have hrules := (Nat.mul_eq_zero.mp hrules).resolve_left hn
      have hports := (Nat.mul_eq_zero.mp hports).resolve_left hn
      omega
    have hnext : pendingOf l n = some ⟨n * l.share .rules, n * l.share .ports⟩ := if_neg (by simp [hl, hn])
    rw [if_neg hlive, JsMap.get_set, hnext]

theorem Books.runRelease (h : w.Books limits) (hjobs : w.Jobs) (hlimited : Limited limits w)
    (c : ℕ) : (w.runRelease limits c).Books limits := by
  unfold QuotaWorld.runRelease
  split
  · rename_i r userId hc
    have hl : (limits userId).unlimited = false := hlimited _ (mem_of_getElem? (task_of_runningTask hc))
    obtain ⟨reservation, hr, rfl, -⟩ := hjobs.released c r userId (task_of_runningTask hc)
    have hopen : reservation.done = false :=
      hjobs.undone c r _ (task_of_runningTask hc) _ (phase_of_runningTask hc) le_rfl reservation hr
    let f : Reservation → Reservation := fun reservation => { reservation with done := true }
    have hheld : (w.toReservation r f).held reservation.userId + 1 = w.held reservation.userId :=
      held_done hr hopen rfl
    have hdrop := heldNotInserted_drop (f := f) hr (.inl rfl)
    have hheldOther : ∀ other, other ≠ reservation.userId → (w.toReservation r f).held other = w.held other :=
      fun other hother => held_toReservation hr rfl fun heq => absurd heq.symm hother
    have hdropOther : ∀ other, other ≠ reservation.userId →
        (w.toReservation r f).heldNotInserted other = w.heldNotInserted other :=
      fun other hother => heldNotInserted_toReservation hr rfl fun heq => absurd heq.symm hother
    have htable : ∀ other, (releaseQuota (limits reservation.userId) w.pendingByUser reservation.userId).get other
        = if other = reservation.userId then
            pendingOf (limits reservation.userId) ((w.toReservation r f).held reservation.userId)
          else w.pendingByUser.get other := by
      refine get_releaseQuota hl ?_
      rw [h.table, hheld]
    refine ⟨?_, ?_, ?_, ?_⟩
    · intro other
      refine (htable other).trans ?_
      change _ = pendingOf (limits other) ((w.toReservation r f).held other)
      split
      · rename_i hother
        rw [hother]
      · rename_i hother
        rw [hheldOther other hother, h.table other]
    · intro c' other pending' hc' hpending'
      obtain ⟨hbefore, hne⟩ := hjobs.other_user hc hc'
      rcases hbefore with hnew | hold
      · change (w.locals c').pending = _ at hpending'
        rw [hnew] at hpending'
        cases hpending'
      · have hother : other ≠ reservation.userId := hne hold
        refine (h.snapshot c' other pending' hold hpending').trans ?_
        rw [htable other, if_neg hother]
    · intro c' other kind n hc' hlimit hn
      obtain ⟨hbefore, hne⟩ := hjobs.other_user hc hc'
      rcases hbefore with hnew | hold
      · change (w.locals c').count kind = _ at hn
        rw [hnew] at hn
        cases kind <;> cases hn
      · have hother : other ≠ reservation.userId := hne hold
        change w.stored other kind + (w.toReservation r f).heldNotInserted other
          ≤ n + (w.toReservation r f).held other
        rw [hheldOther other hother, hdropOther other hother]
        exact h.read_bound c' other kind n hold hlimit hn
    · intro other kind hlimit
      have hbound := h.bound other kind hlimit
      change w.stored other kind + (w.toReservation r f).heldNotInserted other ≤ _
      by_cases hother : other = reservation.userId
      · subst hother
        omega
      · rw [hdropOther other hother]
        exact hbound
  · exact h

theorem Books.step (h : w.Books limits) (hjobs : w.Jobs) (hlimited : Limited limits w)
    (e : QuotaEvent) : (stepQuota limits w e).Books limits := by
  cases e with
  | reserve userId => exact h.reserve hjobs userId
  | readPending c => exact h.readPending c
  | readCount c kind => exact h.readCount c kind
  | decideQuota c => exact h.decideQuota hjobs hlimited c
  | failReserve c => exact h.failReserve hjobs c
  | insert r sourcePort => exact h.insert r sourcePort
  | release r => exact h.release hjobs r
  | runRelease c => exact h.runRelease hjobs hlimited c
  | deleteRule i => exact h.deleteRule i
  | resume c =>
    refine h.move hjobs (LockState.forward_resume w.lock c) fun i label hlabel => ?_
    rw [LockState.labels_resume]
    exact hlabel
  | unlock c =>
    refine h.move hjobs (LockState.forward_release w.lock c) fun i label hlabel => ?_
    rw [LockState.labels_release]
    exact hlabel

end

/-! ## Runs -/

/-- **The quota holds over every run** that starts from a store within the limits: what a user
has stored and may still insert is within each of its limits, and the table has the users
with a limit and a reservation held. -/
theorem quota_never_exceeded (limits : ℕ → QuotaLimits) (rules : List RuleRow)
    (hstart : ∀ userId kind, 0 < (limits userId).limit kind →
      stored { rules } userId kind ≤ (limits userId).limit kind) (es : List QuotaEvent) :
    let w := run (stepQuota limits) { rules } es
    (∀ userId kind, 0 < (limits userId).limit kind →
      w.stored userId kind + w.heldNotInserted userId ≤ (limits userId).limit kind) ∧
    ∀ userId, w.pendingByUser.get userId ≠ none ↔ (limits userId).unlimited = false ∧
      ∃ reservation ∈ w.reservations, reservation.userId = userId ∧ reservation.done = false := by
  intro w
  have hall : w.Jobs ∧ Limited limits w ∧ w.Books limits := by
    refine run_invariant (I := fun w => w.Jobs ∧ Limited limits w ∧ w.Books limits)
      (fun w e h => ⟨h.1.step h.2.1 e, h.2.1.step e, h.2.2.step h.1 h.2.1 e⟩) es _
      ⟨.empty rules, nofun, ⟨?_, ?_, ?_, ?_⟩⟩
    · intro userId
      rw [pendingOf, if_pos (.inl rfl)]
      rfl
    · intro c userId pending hc _
      cases hc
    · intro c userId kind n hc _ _
      cases hc
    · exact hstart
  refine ⟨hall.2.2.bound, fun userId => ?_⟩
  have hheld : w.held userId ≠ 0 ↔
      ∃ reservation ∈ w.reservations, reservation.userId = userId ∧ reservation.done = false := by
    rw [← Nat.pos_iff_ne_zero, held, List.countP_pos_iff]
    simp only [Bool.and_eq_true, decide_eq_true_eq, Bool.not_eq_true']
  rw [hall.2.2.table userId, pendingOf, ← hheld]
  cases (limits userId).unlimited with
  | true | false => simp

/-- Two requests of a user who may have two rules and has one: one of them inserts. -/
theorem quota_never_exceeded_two :
    let w := run (stepQuota fun _ => ⟨2, 2⟩) { rules := [⟨7, 8080⟩] }
      [.reserve 7, .reserve 7, .readPending 0, .readCount 0 .rules, .readCount 0 .ports, .decideQuota 0,
        .insert 0 8081, .unlock 0, .resume 1, .readPending 1]
    w.stored 7 .rules + w.heldNotInserted 7 ≤ 2 := by
  refine (quota_never_exceeded (fun _ => ⟨2, 2⟩) [⟨7, 8080⟩] ?_ _).1 7 .rules (by decide)
  intro userId kind _
  cases kind with
  | rules => exact (List.length_filter_le _ _).trans (by decide)
  | ports =>
    refine (List.toFinset_card_le _).trans ?_
    rw [List.length_map]
    exact (List.length_filter_le _ _).trans (by decide)

end QuotaWorld

end ForwardX.Panel.RuleQuota

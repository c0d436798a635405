import GlobalCacheAdaptor.ClientAdaptor.Placement

/-!
# `num_in_flight` under retries

`_send_op_account` counts an op with `onfinish` each time it reaches a session, so a handler that
takes such an op off a session for resubmission has to count it down. `ms_handle_reset` and
`handle_osd_op_reply` do; `nodeview_change_retry_op_submit` does not. `drift_step` says by how much
each step moves the counter away from the number it stands for.
-/

namespace GlobalCacheAdaptor.ClientAdaptor

open Lib

variable {cfg : Config} {s t : State} {event : Event}

/-- How far `num_in_flight` is above the number of ops with `onfinish` on sessions. -/
def State.drift (s : State) : Int := s.numInFlight - s.assigned s.flight

/-- The ops with `onfinish` that a step takes off sessions without counting them down. -/
def leak (s : State) : Event → Nat
  | .nodeView available => total s.flight (viewTaken s available)
  | .submit _ _ _ | .run _ _ _ | .reply _ _ _ | .ptChange _ _ | .notify _ | .deliver _
  | .reset _ => 0

/-- A node-view change finds no op with `onfinish` on a session it closes, nor on the homeless
session for an RBD data object. -/
def Compensated (s : State) : Event → Prop
  | .nodeView available =>
      (∀ e ∈ s.sessions.entries, viewDead available e.1 = true →
        ∀ o ∈ e.2.values, (s.ops o).onfinish = false) ∧
      ∀ o ∈ s.homeless.values, filterMsg (s.ops o).name = true → (s.ops o).onfinish = false
  | .submit _ _ _ | .run _ _ _ | .reply _ _ _ | .ptChange _ _ | .notify _ | .deliver _
  | .reset _ => True

/-- Whether a step compensates is decided from the ops on the sessions. -/
instance (s : State) (event : Event) : Decidable (Compensated s event) :=
  match event with
  | .nodeView available =>
      inferInstanceAs (Decidable
        ((∀ e ∈ s.sessions.entries, viewDead available e.1 = true →
          ∀ o ∈ e.2.values, (s.ops o).onfinish = false) ∧
        ∀ o ∈ s.homeless.values, filterMsg (s.ops o).name = true → (s.ops o).onfinish = false))
  | .submit _ _ _ | .run _ _ _ | .reply _ _ _ | .ptChange _ _ | .notify _ | .deliver _
  | .reset _ => isTrue trivial

/-- A step compensates exactly when nothing leaks. -/
theorem compensated_iff (s : State) (event : Event) : Compensated s event ↔ leak s event = 0 := by
  cases event with
  | nodeView available =>
      have hflight : ∀ o, s.flight o = 0 ↔ (s.ops o).onfinish = false := by
        intro o
        simp only [State.flight, ite_eq_right_iff, Nat.one_ne_zero, imp_false, Bool.not_eq_true]
      simp only [leak, total_eq_zero_iff, hflight, mem_viewTaken]
      constructor
      · rintro ⟨hsessions, hhomeless⟩ o (⟨e, hentry, hdead, ho⟩ | ⟨ho, hname⟩)
        · exact hsessions e hentry hdead o ho
        · exact hhomeless o ho hname
      · intro h
        exact ⟨fun e hentry hdead o ho => h o (.inl ⟨e, hentry, hdead, ho⟩),
          fun o ho hname => h o (.inr ⟨ho, hname⟩)⟩
  | submit | run | reply | ptChange | notify | deliver | reset => simp [Compensated, leak]

/-! ## What each step counts -/

/-- Replacing an op by one with the same `onfinish` keeps what every op counts. -/
theorem flight_of_update (o : OpId) (op : Op) (hops : t.ops = Function.update s.ops o op)
    (h : op.onfinish = (s.ops o).onfinish) : t.flight = s.flight := by
  funext x
  by_cases hx : x = o
  · subst hx
    simp only [State.flight, hops, Function.update_self, h]
  · simp only [State.flight, hops, Function.update_of_ne hx]

/-- A new op counts nothing yet. -/
theorem Inv.flight_submit (h : Inv s) (op : Op) :
    s.assigned { s with ops := Function.update s.ops s.submitted op }.flight =
      s.assigned s.flight := by
  rw [assigned_eq_total, assigned_eq_total]
  refine total_congr fun o ho => ?_
  have hne : o ≠ s.submitted := by
    intro heq
    subst heq
    obtain ⟨tid, hon⟩ := onSession_of_mem_assignedOps ho
    exact h.fresh tid hon
  simp only [State.flight, Function.update_of_ne hne]

/-- The drift of a state with the weights of another one. -/
theorem drift_eq_of_flight (hflight : t.flight = s.flight) :
    t.drift = t.numInFlight - t.assigned s.flight := by
  rw [State.drift, hflight]

/-- A step of a running function counts exactly the ops it assigns. -/
theorem Inv.drift_run (h : Inv s) {i : Nat} {view : TargetView} {relock : Bool}
    (hstep : Step cfg s (.run i view relock) t) : t.drift = s.drift := by
  cases hstep with
  -- only the end of `_op_submit` touches the counter or a session
  | calcTarget htask hcalc =>
      exact drift_eq_of_flight (flight_of_update _ _ rfl (calcPtTarget_keeps hcalc).2.1)
  | @place _ _ frame o rest htask =>
      have hassign := assigned_assign s.flight (h.free_tid htask (List.mem_cons_self (a := o)))
      have hflight : (s.assign o).flight = s.flight :=
        flight_of_update o { s.ops o with tid := s.submitTid o } rfl rfl
      show s.numInFlight + (s.flight o : Int) -
        ((s.assign o).assigned (s.assign o).flight : Int) = s.numInFlight - s.assigned s.flight
      rw [hflight, hassign]
      omega
  | recalc | park | replyPark | retryStart | hangonLock | scanTake | scanKeep | scanEnd => rfl

/-- A reply counts down the op it takes off its session. -/
theorem drift_reply {osd : Int} {session : OpMap} {tid : Nat} {o : OpId} (reply : Reply)
    (hsession : s.sessions.find? osd = some session) (hop : session.find? tid = some o) :
    (handleOsdOpReply cfg s osd session tid o reply).drift = s.drift := by
  have hdetach := assigned_detach s.flight hsession hop
  have hdrift : s.numInFlight - (s.flight o : Int) -
      ((s.detach osd session tid o).assigned s.flight : Int) = s.drift := by
    rw [State.drift]
    omega
  rcases handleOsdOpReply_cases cfg s osd session tid o reply with ⟨task, -, -, heq⟩ | heq
  · rw [heq, drift_eq_of_flight (flight_of_update o { s.ops o with tid := 0 } rfl rfl)]
    exact hdrift
  · rw [heq]
    exact hdrift

/-- A connection reset counts down the ops it takes off the session. -/
theorem Inv.drift_reset (h : Inv s) {osd : Int} {session : OpMap}
    (hsession : s.sessions.find? osd = some session) :
    (msHandleReset s osd session).1.drift = s.drift := by
  have hassigned := assigned_reset s.flight hsession
  have hresend := h.total_resetResend s.flight hsession
  show s.numInFlight - (total s.flight (msHandleReset s osd session).2.values : Int) -
    ((msHandleReset s osd session).1.assigned s.flight : Int) = s.drift
  rw [State.drift, hresend]
  omega

/-- A node-view change counts down nothing. -/
theorem drift_nodeView (s : State) (available : List (BitVec 32)) :
    (nodeviewChange s available).1.drift = s.drift + total s.flight (viewTaken s available) := by
  have hassigned := assigned_nodeview s.flight s available
  show s.numInFlight - ((nodeviewChange s available).1.assigned s.flight : Int) =
    s.numInFlight - (s.assigned s.flight : Int) + total s.flight (viewTaken s available)
  omega

/-- Each step moves the counter by what it leaks, and by nothing else. -/
theorem Inv.drift_step (h : Inv s) (hstep : Step cfg s event t) :
    t.drift = s.drift + leak s event := by
  cases event with
  | nodeView available =>
      cases hstep with
      | nodeView hview =>
          cases hview
          exact drift_nodeView s available
  | run i view relock =>
      rw [leak, Nat.cast_zero, Int.add_zero]
      exact h.drift_run hstep
  | submit pool name onfinish =>
      rw [leak, Nat.cast_zero, Int.add_zero]
      cases hstep with
      | submit =>
          have hsubmit := h.flight_submit { pool := pool, name := name, onfinish := onfinish }
          exact congrArg (fun n : Nat => s.numInFlight - (n : Int)) hsubmit
  | reply osd tid reply =>
      rw [leak, Nat.cast_zero, Int.add_zero]
      cases hstep with
      | replyIgnored => rfl
      | reply hsession hop => exact drift_reply reply hsession hop
  | reset osd =>
      rw [leak, Nat.cast_zero, Int.add_zero]
      cases hstep with
      | reset hsession hgc hreset =>
          cases hreset
          exact h.drift_reset hsession
      | resetOther => rfl
  | ptChange | notify | deliver =>
      rw [leak, Nat.cast_zero, Int.add_zero]
      cases hstep <;> rfl

/-! ## The counter over a run -/

/-- `num_in_flight` is the number of ops with `onfinish` on sessions. -/
def State.Counted (s : State) : Prop :=
  s.numInFlight = s.assignedOps.countP fun o => (s.ops o).onfinish

/-- The counter is right exactly when there is no drift. -/
theorem counted_iff (s : State) : s.Counted ↔ s.drift = 0 := by
  have hcount : s.assigned s.flight = s.assignedOps.countP fun o => (s.ops o).onfinish := by
    rw [assigned_eq_total]
    exact total_indicator _ _
  rw [State.Counted, State.drift, hcount]
  omega

/-- While no node-view change takes an op with `onfinish` off a session, `num_in_flight` is the
number of ops with `onfinish` on sessions; and the first one that does makes it wrong. -/
theorem numInFlight_counted (cfg : Config) (ptOk : Pt → Bool) {s : State}
    (h : Reach (step cfg) Compensated (init ptOk) s) :
    s.Counted ∧
      ∀ event t, step cfg s event = some t → (t.Counted ↔ Compensated s event) := by
  have hinv : Inv s := inv_of_reach (h.mono fun _ _ _ => trivial)
  have hdrift : Inv s ∧ s.drift = 0 := by
    refine h.invariant (fun s => Inv s ∧ s.drift = 0) ⟨inv_init ptOk, rfl⟩ ?_
    rintro s event t ⟨hinv, hdrift⟩ hok hstep
    have hmove := hinv.drift_step (step_cases hstep)
    rw [(compensated_iff s event).mp hok, hdrift] at hmove
    exact ⟨hinv.step (step_cases hstep), hmove⟩
  refine ⟨(counted_iff s).mpr hdrift.2, fun event t hstep => ?_⟩
  have hmove := hinv.drift_step (step_cases hstep)
  rw [counted_iff, compensated_iff, hmove, hdrift.2]
  omega

/-- An op with `onfinish` is resubmitted after a connection reset, and is counted once. -/
theorem numInFlight_after_reset :
    ∃ s, Reach (step onePool) Compensated (init fun _ => true) s ∧ s.numInFlight = 1 ∧
      s.Counted := by
  have h : Reach (step onePool) Compensated (init fun _ => true) _ := Reach.of_run
    [.submit 1 imageObject true, .run 0 nodeTwo false, .run 0 nodeTwo false, .reset nodeTwo.osd,
      .run 1 nodeTwo false, .run 1 nodeTwo false] rfl
  exact ⟨_, h, by decide, (numInFlight_counted onePool _ h).1⟩

/-- Node 2 goes down with one op on it. The op is resubmitted, and `num_in_flight` is 2 with one
op on the sessions. -/
theorem numInFlight_after_nodeView :
    ∃ s, Reach (step onePool) anyEvent (init fun _ => true) s ∧ s.assignedOps = [0] ∧
      s.numInFlight = 2 ∧ ¬ s.Counted := by
  have h : Reach (step onePool) anyEvent (init fun _ => true) _ := Reach.of_run
    [.submit 1 imageObject true, .run 0 nodeTwo false, .run 0 nodeTwo false, .nodeView [1],
      .run 1 nodeTwo false, .run 1 nodeTwo false] rfl
  exact ⟨_, h, by decide, by decide, by unfold State.Counted; decide⟩

end GlobalCacheAdaptor.ClientAdaptor

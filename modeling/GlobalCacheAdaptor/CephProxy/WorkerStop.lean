import GlobalCacheAdaptor.CephProxy.RadosWorker

/-!
# Stopping the I/O workers

`RadosWorker::Stop` waits for each worker to run dry, asks it to stop and joins its thread. The
wait ends with a notification that the worker sends only when it finds its queue empty, and the
join ends with a thread that may be blocked itself. Read `stop_returns` first: from wherever a run
calls `Stop`, every schedule without spurious wake-ups comes to its return, and then every thread
has ended and every accepted op was taken. `Stop` does not wait for what librados owes.
-/

namespace GlobalCacheAdaptor.CephProxy.RadosWorker

open Lib

variable {s t : State}

/-! ## What can happen after the call -/

/-- A step of `Stop`. -/
inductive Stops (s : State) : State → Prop where
  | returned (hat : s.stopper = .testing []) :
      Stops s { s with stopper := .done, ioWorkers := .empty }
  | waits {i : Nat} {rest : List Nat} {w : RadosIOWorker} (hat : s.stopper = .testing (i :: rest))
      (hw : s.workers[i]? = some w) (hbusy : (!w.ops.isEmpty || w.ioworkerRunning) = true) :
      Stops s { s with
        workers := s.workers.set i { w with ioworkerEmptyWait := true }
        stopper := .blocked (i :: rest) false }
  | passes {i : Nat} {rest : List Nat} {w : RadosIOWorker} (hat : s.stopper = .testing (i :: rest))
      (hw : s.workers[i]? = some w) :
      Stops s { s with
        workers := s.workers.set i { w with ioworkerEmptyWait := false }
        stopper := .stopProc (i :: rest) }
  | wakes {todo : List Nat} {notified : Bool} (hat : s.stopper = .blocked todo notified) :
      Stops s { s with stopper := .testing todo }
  | asks {i : Nat} {rest : List Nat} {w : RadosIOWorker} (hat : s.stopper = .stopProc (i :: rest))
      (hw : s.workers[i]? = some w) :
      Stops s { s with
        workers := s.workers.set i { w.notify with ioworkerStop := true }
        stopper := .joining (i :: rest) }
  | joins {i : Nat} {rest : List Nat} {w : RadosIOWorker} (hat : s.stopper = .joining (i :: rest))
      (hw : s.workers[i]? = some w) (hexited : w.phase = .exited) :
      Stops s { s with stopper := .testing rest }

/-- `stopStep` is such a step. -/
theorem stops_of_stopStep (hstep : s.stopStep = some t) : Stops s t := by
  unfold State.stopStep at hstep
  split at hstep
  · cases hstep
  · cases hstep
  · rename_i hat
    cases hstep
    exact .returned hat
  · rename_i i rest hat
    split at hstep
    · cases hstep
    · rename_i w hw
      split_ifs at hstep with hbusy
      · cases hstep
        exact .waits hat hw hbusy
      · cases hstep
        exact .passes hat hw
  · rename_i todo notified hat
    cases hstep
    exact .wakes hat
  · cases hstep
  · rename_i i rest hat
    split at hstep
    · cases hstep
    · rename_i w hw
      cases hstep
      exact .asks hat hw
  · cases hstep
  · rename_i i rest hat
    split at hstep
    · cases hstep
    · rename_i w hw
      split_ifs at hstep with hexited
      cases hstep
      exact .joins hat hw hexited

/-- What the system does once `Stop` is called: nobody is inside `Queue`. -/
inductive Settles (s : State) : Event → State → Prop where
  | work {i : Nat} {w w' : RadosIOWorker} {action : WorkerStep} {effect : Effect}
      (hw : s.workers[i]? = some w) (hwork : w.work action = some (w', effect)) :
      Settles s (.work i action) (s.worked i w' effect)
  | complete {i : Nat} {op : Op} {ret : Int} (hop : s.pending[i]? = some op) :
      Settles s (.complete i ret) (s.complete i op ret)
  | stops {t : State} (hstops : Stops s t) : Settles s .stopStep t

/-- After the call every admitted step is of this kind. -/
theorem Inv.settles {event : Event} (h : Inv s) (hcalled : s.stopper ≠ .notCalled)
    (hok : admitted s event) (hstep : RadosWorker.step s event = some t) : Settles s event t := by
  have hidle : ∀ {caller : Nat} {c : Caller}, s.callers[caller]? = some c → c = .idle :=
    fun hc => h.quiet hcalled _ (List.mem_of_getElem? hc)
  cases event with
  | submit caller poolId opType => exact absurd hok hcalled
  | getIOWorker caller =>
      simp only [RadosWorker.step] at hstep
      split at hstep
      · rename_i op hc
        cases hidle hc
      · cases hstep
  | createIOWorker caller allocated =>
      simp only [RadosWorker.step] at hstep
      split at hstep
      · rename_i op hc
        cases hidle hc
      · cases hstep
  | queue caller =>
      simp only [RadosWorker.step] at hstep
      split at hstep
      · rename_i op worker hc
        cases hidle hc
      · cases hstep
  | work worker action =>
      simp only [RadosWorker.step] at hstep
      split at hstep
      · rename_i w hw
        split at hstep
        · rename_i w' effect hwork
          cases hstep
          exact .work hw hwork
        · cases hstep
      · cases hstep
  | complete i ret =>
      simp only [RadosWorker.step] at hstep
      split at hstep
      · rename_i op hop
        cases hstep
        exact .complete hop
      · cases hstep
  | stop =>
      simp only [RadosWorker.step] at hstep
      cases hstep
  | stopStep => exact .stops (stops_of_stopStep hstep)

/-- Before the call only the call itself moves `Stop`. -/
theorem stopper_of_notCalled {event : Event} (hnot : s.stopper = .notCalled)
    (hstep : step s event = some t) :
    t.stopper = .notCalled ∨ t = { s with stopper := .testing s.ioWorkers.values } := by
  cases event with
  | submit caller poolId opType =>
      simp only [RadosWorker.step] at hstep
      split at hstep
      · split_ifs at hstep
        · cases hstep
          exact .inl hnot
        · cases hstep
          exact .inl hnot
      · cases hstep
  | getIOWorker caller =>
      simp only [RadosWorker.step] at hstep
      split at hstep
      · split at hstep
        · cases hstep
          exact .inl hnot
        · cases hstep
          exact .inl hnot
      · cases hstep
  | createIOWorker caller allocated =>
      simp only [RadosWorker.step] at hstep
      split at hstep
      · split at hstep
        · cases hstep
          exact .inl hnot
        · split_ifs at hstep
          · cases hstep
            exact .inl hnot
          · cases hstep
            exact .inl hnot
      · cases hstep
  | queue caller =>
      simp only [RadosWorker.step] at hstep
      split at hstep
      · split at hstep
        · cases hstep
          exact .inl hnot
        · cases hstep
      · cases hstep
  | work worker action =>
      simp only [RadosWorker.step] at hstep
      split at hstep
      · split at hstep
        · cases hstep
          refine .inl ?_
          simp only [State.worked, hnot]
          split_ifs <;> rfl
        · cases hstep
      · cases hstep
  | complete i ret =>
      simp only [RadosWorker.step] at hstep
      split at hstep
      · cases hstep
        exact .inl hnot
      · cases hstep
  | stop =>
      simp only [RadosWorker.step] at hstep
      split at hstep
      · cases hstep
        exact .inr rfl
      · cases hstep
  | stopStep =>
      cases stops_of_stopStep hstep with
      | returned hat | waits hat | passes hat | wakes hat | asks hat | joins hat =>
          rw [hnot] at hat
          cases hat

/-! ## What the call of `Stop` keeps -/

/-- The workers that are still to be joined. -/
def Stopper.todo : Stopper → List Nat
  | .notCalled | .done => []
  | .testing todo | .blocked todo _ | .stopProc todo | .joining todo => todo

/-- The thread was asked to stop and notified, or has returned. -/
def RadosIOWorker.Asked (w : RadosIOWorker) : Prop :=
  (w.ioworkerStop = true ∨ w.phase = .exited) ∧ w.phase ≠ .waiting false

/-- What holds of the workers while `Stop` runs. -/
structure Stopping (s : State) : Prop where
  called : s.stopper ≠ .notCalled
  /-- Every thread has returned or is still to be joined. -/
  covered : ∀ (i : Nat) (w : RadosIOWorker), s.workers[i]? = some w →
    i ∈ s.stopper.todo ∨ w.phase = .exited
  /-- The workers to be joined exist. -/
  valid : ∀ i ∈ s.stopper.todo, ∃ w, s.workers[i]? = some w
  /-- `Stop` works on a worker, is at the test of its loop, or has returned. -/
  working : s.stopper.todo = [] → s.stopper = .testing [] ∨ s.stopper = .done
  /-- A worker that `Stop` waits for, not notified yet, is busy and knows of the wait. -/
  blocked : ∀ i rest, s.stopper = .blocked (i :: rest) false →
    ∀ w, s.workers[i]? = some w → w.ioworkerEmptyWait = true ∧ ¬w.Dry
  /-- A worker that is joined was asked to stop. -/
  asked : ∀ i rest, s.stopper = .joining (i :: rest) →
    ∀ w, s.workers[i]? = some w → w.Asked

/-- The call of `Stop` starts with all workers. -/
theorem Inv.stopping (h : Inv s) (hnot : s.stopper = .notCalled) :
    Stopping { s with stopper := .testing s.ioWorkers.values } := by
  refine ⟨by simp, ?_, ?_, ?_, by simp, by simp⟩
  · intro i w hw
    have hworker : s.workers[i]? = some w := hw
    have hpool : s.poolOf i = some w.poolId := by simp [State.poolOf, hworker]
    exact .inl (OrdMap.mem_values (h.tabled.listed hnot i w.poolId hpool))
  · intro i hi
    obtain ⟨p, hp⟩ := OrdMap.exists_find?_of_mem_values hi
    obtain ⟨w, hw, -⟩ := Option.map_eq_some_iff.mp (h.tabled.table p i hp)
    exact ⟨w, hw⟩
  · intro htodo
    exact .inl (congrArg Stopper.testing htodo)

/-- A thread that has returned makes no step. -/
theorem not_exited_of_work {w w' : RadosIOWorker} {action : WorkerStep} {effect : Effect}
    (hwork : w.work action = some (w', effect)) : w.phase ≠ .exited := by
  intro hphase
  cases action with
  | acquire | take | wake => simp [RadosIOWorker.work, hphase] at hwork

/-- What the inner loop tells a `Stop` that waits: the worker stays busy, or notifies it. -/
theorem innerLoop_notifies {w : RadosIOWorker} (hmark : w.ioworkerEmptyWait = true) :
    w.innerLoop.1.ioworkerEmptyWait = true ∧ (¬w.innerLoop.1.Dry ∨ w.innerLoop.2 = true) := by
  rcases innerLoop_cases w with ⟨-, -, heq⟩ | ⟨-, -, heq⟩ | ⟨-, heq⟩
  · rw [heq]
    exact ⟨hmark, .inr rfl⟩
  · rw [heq]
    exact ⟨hmark, .inr hmark⟩
  · rw [heq]
    exact ⟨hmark, .inl fun hdry => hdry.2 rfl⟩

/-- The same of the outer loop. -/
theorem outerLoop_notifies {w : RadosIOWorker} (hmark : w.ioworkerEmptyWait = true) :
    w.outerLoop.1.ioworkerEmptyWait = true ∧ (¬w.outerLoop.1.Dry ∨ w.outerLoop.2 = true) := by
  unfold RadosIOWorker.outerLoop
  split_ifs with hstop
  · exact ⟨hmark, .inr rfl⟩
  · exact innerLoop_notifies hmark

/-- A busy worker that `Stop` waits for stays busy, or notifies it. -/
theorem work_notifies {w w' : RadosIOWorker} {action : WorkerStep} {effect : Effect}
    (hwork : w.work action = some (w', effect)) (hmark : w.ioworkerEmptyWait = true)
    (hbusy : ¬w.Dry) :
    w'.ioworkerEmptyWait = true ∧ (¬w'.Dry ∨ effect.notifyEmpty = true) := by
  cases action with
  | acquire =>
      simp only [RadosIOWorker.work] at hwork
      split at hwork
      · cases hwork
        exact outerLoop_notifies hmark
      · split_ifs at hwork
        cases hwork
        exact innerLoop_notifies (w := { w with ioworkerRunning := false }) hmark
      · cases hwork
      · cases hwork
  | take answer =>
      simp only [RadosIOWorker.work] at hwork
      split at hwork
      · cases hwork
        exact ⟨hmark, .inl hbusy⟩
      · cases hwork
  | wake =>
      simp only [RadosIOWorker.work] at hwork
      split at hwork
      · cases hwork
        exact outerLoop_notifies hmark
      · cases hwork
      · cases hwork
      · cases hwork

/-- A thread that was asked to stop has no other step than its return. -/
theorem RadosIOWorker.Asked.work {w w' : RadosIOWorker} {action : WorkerStep} {effect : Effect}
    (h : w.Asked) (hinv : w.Inv) (hwork : w.work action = some (w', effect)) : w'.Asked := by
  have hstop : w.ioworkerStop = true := h.1.resolve_right (not_exited_of_work hwork)
  obtain ⟨hempty, hphase⟩ := hinv.stopped (.inl hstop)
  rcases hinv.work_cases hwork with ⟨-, hloop, -, -⟩ | ⟨-, -, -, -, hdraining, -⟩
  · cases hloop with
    | exit => exact ⟨.inr rfl, by simp⟩
    | wait _ hlive =>
        rw [hstop] at hlive
        cases hlive
    | swap hops => exact absurd hempty hops
  · exact absurd hdraining hphase

/-- A notification of `Stop` leaves what it has to do. -/
theorem notify_todo (stopper : Stopper) (i : Nat) : (stopper.notify i).todo = stopper.todo := by
  unfold Stopper.notify
  split <;> rfl

/-- `Stop` is where it was, but for a notification. -/
theorem worked_stopper (s : State) (i : Nat) (w : RadosIOWorker) (effect : Effect) :
    (s.worked i w effect).stopper = s.stopper ∨
      (effect.notifyEmpty = true ∧ (s.worked i w effect).stopper = s.stopper.notify i) := by
  simp only [State.worked]
  split_ifs with hnotify
  · exact .inr ⟨hnotify, rfl⟩
  · exact .inl rfl

/-- A notification that leaves `Stop` blocked was for another worker. -/
theorem blocked_of_notify {stopper : Stopper} {i j : Nat} {rest : List Nat}
    (h : stopper.notify i = .blocked (j :: rest) false) :
    stopper = .blocked (j :: rest) false ∧ j ≠ i := by
  unfold Stopper.notify at h
  split at h
  · simp only [Stopper.blocked.injEq, List.cons.injEq, Bool.or_eq_false_iff,
      decide_eq_false_iff_not] at h
    obtain ⟨⟨rfl, rfl⟩, rfl, hne⟩ := h
    exact ⟨rfl, hne⟩
  · rename_i hother
    exact absurd h (hother j rest false)

/-- A notification is for a `Stop` that is blocked. -/
theorem joining_of_notify {stopper : Stopper} {i : Nat} {todo : List Nat}
    (h : stopper.notify i = .joining todo) : stopper = .joining todo := by
  unfold Stopper.notify at h
  split at h
  · cases h
  · exact h

/-- A step of a worker's thread. -/
theorem Stopping.work {i : Nat} {w w' : RadosIOWorker} {action : WorkerStep} {effect : Effect}
    (h : Stopping s) (hinv : w.Inv) (hw : s.workers[i]? = some w)
    (hwork : w.work action = some (w', effect)) : Stopping (s.worked i w' effect) := by
  have hlen := (List.getElem?_eq_some_iff.mp hw).1
  have htodo : (s.worked i w' effect).stopper.todo = s.stopper.todo := by
    rcases worked_stopper s i w' effect with hsame | ⟨-, hnotified⟩
    · rw [hsame]
    · rw [hnotified, notify_todo]
  have hothers : ∀ {j v}, (s.worked i w' effect).workers[j]? = some v →
      (j = i ∧ v = w') ∨ (j ≠ i ∧ s.workers[j]? = some v) := by
    intro j v hv
    by_cases hj : j = i
    · subst hj
      have hset : (s.workers.set j w')[j]? = some v := hv
      rw [List.getElem?_set_self hlen] at hset
      exact .inl ⟨rfl, (Option.some.inj hset).symm⟩
    · have hset : (s.workers.set i w')[j]? = some v := hv
      rw [List.getElem?_set_ne (Ne.symm hj)] at hset
      exact .inr ⟨hj, hset⟩
  refine ⟨?_, ?_, ?_, ?_, ?_, ?_⟩
  · rcases worked_stopper s i w' effect with hsame | ⟨-, hnotified⟩
    · rw [hsame]
      exact h.called
    · rw [hnotified]
      exact mt (notify_stopper s.stopper i).1.mp h.called
  · intro j v hv
    rw [htodo]
    rcases hothers hv with ⟨rfl, rfl⟩ | ⟨-, hold⟩
    · exact .inl ((h.covered j w hw).resolve_right (not_exited_of_work hwork))
    · exact h.covered j v hold
  · intro j hj
    rw [htodo] at hj
    obtain ⟨v, hv⟩ := h.valid j hj
    by_cases hji : j = i
    · subst hji
      exact ⟨w', List.getElem?_set_self hlen⟩
    · exact ⟨v, (List.getElem?_set_ne (Ne.symm hji)).trans hv⟩
  · intro hnil
    rw [htodo] at hnil
    rcases worked_stopper s i w' effect with hsame | ⟨-, hnotified⟩
    · rw [hsame]
      exact h.working hnil
    · rw [hnotified]
      rcases h.working hnil with heq | heq
      · rw [heq]
        exact .inl rfl
      · rw [heq]
        exact .inr rfl
  · intro j rest hat v hv
    rcases worked_stopper s i w' effect with hsame | ⟨-, hnotified⟩
    · rw [hsame] at hat
      rcases hothers hv with ⟨rfl, rfl⟩ | ⟨-, hold⟩
      · obtain ⟨hmark, hbusy⟩ := h.blocked j rest hat w hw
        obtain ⟨hmark', hbusy'⟩ := work_notifies hwork hmark hbusy
        refine ⟨hmark', hbusy'.resolve_right fun hnotify => ?_⟩
        -- the notification would have reached `Stop`
        have hchanged : (s.worked j v effect).stopper = .blocked (j :: rest) true := by
          simp [State.worked, hnotify, hat, Stopper.notify]
        rw [hsame, hat] at hchanged
        cases hchanged
      · exact h.blocked j rest hat v hold
    · rw [hnotified] at hat
      obtain ⟨hold, hne⟩ := blocked_of_notify hat
      rcases hothers hv with ⟨rfl, -⟩ | ⟨-, hv'⟩
      · exact absurd rfl hne
      · exact h.blocked j rest hold v hv'
  · intro j rest hat v hv
    have hold : s.stopper = .joining (j :: rest) := by
      rcases worked_stopper s i w' effect with hsame | ⟨-, hnotified⟩
      · rw [← hsame]
        exact hat
      · rw [hnotified] at hat
        exact joining_of_notify hat
    rcases hothers hv with ⟨rfl, rfl⟩ | ⟨-, hv'⟩
    · exact (h.asked j rest hold w hw).work hinv hwork
    · exact h.asked j rest hold v hv'

/-- `Stop` changes a worker that it visits, and goes on to this point. -/
theorem Stopping.touch {i : Nat} {rest : List Nat} {w w' : RadosIOWorker} {stopper : Stopper}
    (h : Stopping s) (hw : s.workers[i]? = some w) (hat : s.stopper.todo = i :: rest)
    (htodo : stopper.todo = i :: rest)
    (hblocked : ∀ j rest', stopper = .blocked (j :: rest') false →
      w'.ioworkerEmptyWait = true ∧ ¬w'.Dry)
    (hasked : ∀ j rest', stopper = .joining (j :: rest') → w'.Asked) :
    Stopping { s with workers := s.workers.set i w', stopper := stopper } := by
  have hlen := (List.getElem?_eq_some_iff.mp hw).1
  have hself : (s.workers.set i w')[i]? = some w' := List.getElem?_set_self hlen
  have hhead : ∀ {j rest'}, stopper.todo = j :: rest' → j = i := by
    intro j rest' heq
    rw [htodo] at heq
    exact (List.cons.inj heq).1.symm
  refine ⟨?_, ?_, ?_, ?_, ?_, ?_⟩
  · rintro rfl
    cases htodo
  · refine forall_getElem?_set
      (P := fun j (v : RadosIOWorker) => j ∈ stopper.todo ∨ v.phase = .exited) ?_ ?_
    · intro j v hv
      rw [htodo, ← hat]
      exact h.covered j v hv
    · rw [htodo]
      exact .inl List.mem_cons_self
  · intro j hj
    rw [show ({ s with workers := s.workers.set i w', stopper := stopper } : State).stopper.todo =
      s.stopper.todo from htodo.trans hat.symm] at hj
    obtain ⟨v, hv⟩ := h.valid j hj
    by_cases hji : j = i
    · subst hji
      exact ⟨w', hself⟩
    · exact ⟨v, (List.getElem?_set_ne (Ne.symm hji)).trans hv⟩
  · intro hnil
    rw [show ({ s with workers := s.workers.set i w', stopper := stopper } : State).stopper.todo =
      i :: rest from htodo] at hnil
    cases hnil
  · intro j rest' heq v hv
    obtain rfl := hhead (congrArg Stopper.todo heq)
    rw [show ({ s with workers := s.workers.set j w', stopper := stopper } : State).workers =
      s.workers.set j w' from rfl, hself] at hv
    cases hv
    exact hblocked j rest' heq
  · intro j rest' heq v hv
    obtain rfl := hhead (congrArg Stopper.todo heq)
    rw [show ({ s with workers := s.workers.set j w', stopper := stopper } : State).workers =
      s.workers.set j w' from rfl, hself] at hv
    cases hv
    exact hasked j rest' heq

/-- A step of `Stop`. -/
theorem Stopping.stops (h : Stopping s) (hinv : Inv s) (hstops : Stops s t) : Stopping t := by
  cases hstops with
  | returned hat =>
      refine ⟨by simp, ?_, by simp [Stopper.todo], fun _ => .inr rfl, by simp, by simp⟩
      intro i w hw
      refine .inr ((h.covered i w hw).resolve_left ?_)
      rw [hat]
      exact List.not_mem_nil
  | @waits i rest w hat hw hbusy =>
      refine h.touch hw (by rw [hat]; rfl) rfl ?_ (by simp)
      intro j rest' _
      refine ⟨rfl, fun hdry => ?_⟩
      rcases Bool.or_eq_true _ _ ▸ hbusy with hops | hrunning
      · simp [show w.ops = [] from hdry.1] at hops
      · exact hdry.2 ((hinv.worker i w hw).running.mp hrunning)
  | passes hat hw => exact h.touch hw (by rw [hat]; rfl) rfl (by simp) (by simp)
  | @wakes todo notified hat =>
      have htodo : s.stopper.todo = todo := by rw [hat]; rfl
      refine ⟨by simp, ?_, ?_, fun hnil => .inl (congrArg Stopper.testing hnil), by simp, by simp⟩
      · intro i w hw
        rw [← show s.stopper.todo = ({ s with stopper := .testing todo } : State).stopper.todo from
          htodo]
        exact h.covered i w hw
      · intro i hi
        exact h.valid i (htodo ▸ hi)
  | @asks i rest w hat hw =>
      refine h.touch hw (by rw [hat]; rfl) rfl (by simp) ?_
      intro j rest' _
      exact ⟨.inl rfl, (notify_frame w).2.1⟩
  | @joins i rest w hat hw hexited =>
      have htodo : s.stopper.todo = i :: rest := by rw [hat]; rfl
      refine ⟨by simp, ?_, ?_, fun hnil => .inl (congrArg Stopper.testing hnil), by simp, by simp⟩
      · intro j v hv
        rcases h.covered j v hv with hmem | hdone
        · rw [htodo, List.mem_cons] at hmem
          rcases hmem with rfl | hmem
          · have hsame : s.workers[j]? = some v := hv
            rw [hw] at hsame
            cases hsame
            exact .inr hexited
          · exact .inl hmem
        · exact .inr hdone
      · intro j hj
        refine h.valid j ?_
        rw [htodo]
        exact List.mem_cons_of_mem i hj

/-- What holds while `Stop` runs is kept. -/
theorem Stopping.settles {event : Event} (h : Stopping s) (hinv : Inv s)
    (hsettles : Settles s event t) : Stopping t := by
  cases hsettles with
  | work hw hwork => exact h.work (hinv.worker _ _ hw) hw hwork
  | complete => exact ⟨h.called, h.covered, h.valid, h.working, h.blocked, h.asked⟩
  | stops hstops => exact h.stops hinv hstops

/-- It holds in every run, from the call of `Stop` on. -/
theorem stopping_of_reach {threads : Nat} (h : Reach step admitted (init threads) s) :
    Inv s ∧ (s.stopper ≠ .notCalled → Stopping s) := by
  refine h.invariant (fun s => Inv s ∧ (s.stopper ≠ .notCalled → Stopping s))
    ⟨inv_init threads, by simp [init]⟩ ?_
  intro s event t hs hok hstep
  refine ⟨hs.1.step hok hstep, fun hcalled => ?_⟩
  by_cases hnot : s.stopper = .notCalled
  · rcases stopper_of_notCalled hnot hstep with hstill | rfl
    · exact absurd hstill hcalled
    · exact hs.1.stopping hnot
  · exact (hs.2 hnot).settles hs.1 (hs.1.settles hnot hok hstep)

/-! ## `Stop` returns -/

/-- How far a thread is from having nothing to do. -/
def Phase.rank : Phase → Nat
  | .ready | .draining | .waiting true => 1
  | .waiting false | .exited => 0

/-- An op counts twice in the queue, once in the batch. -/
def RadosIOWorker.remaining (w : RadosIOWorker) : Nat :=
  2 * w.ops.length + w.ls.length + w.phase.rank

/-- How far `Stop` is from its return; a notification costs two. -/
def Stopper.rank : Stopper → Nat
  | .notCalled | .done => 0
  | .testing todo => 10 * todo.length + 1
  | .blocked todo notified => 10 * todo.length + if notified then 2 else 0
  | .stopProc todo => 10 * todo.length - 2
  | .joining todo => 10 * todo.length - 6

/-- The measure that every step lowers: a step of a thread pays for the notification it sends and
for what it hands to librados. -/
def State.remaining (s : State) : Nat :=
  s.stopper.rank + 3 * total RadosIOWorker.remaining s.workers + s.pending.length

/-- A wait ends though nobody sent a notification. -/
def spurious (s : State) : Event → Prop
  | .work i .wake => ∃ w, s.workers[i]? = some w ∧ w.phase = .waiting false
  | .stopStep => ∃ todo, s.stopper = .blocked todo false
  | _ => False

/-- An admitted step without a spurious wake-up. -/
def smooth (s : State) (event : Event) : Prop := admitted s event ∧ ¬spurious s event

/-- A thread that makes a step that is not spurious has something to do. -/
theorem rank_of_work {w w' : RadosIOWorker} {action : WorkerStep} {effect : Effect}
    (hwork : w.work action = some (w', effect))
    (hwoken : action = .wake → w.phase ≠ .waiting false) : w.phase.rank = 1 := by
  cases hphase : w.phase with
  | ready | draining => rfl
  | waiting notified =>
      cases notified with
      | true => rfl
      | false =>
          cases action with
          | acquire | take => simp [RadosIOWorker.work, hphase] at hwork
          | wake => exact absurd hphase (hwoken rfl)
  | exited => exact absurd hphase (not_exited_of_work hwork)

/-- At most one op is handed to librados, and nobody is notified. -/
theorem handleOp_effect (op : Op) (answer : Answer) :
    (handleOp op answer).sent.length ≤ 1 ∧ (handleOp op answer).notifyEmpty = false := by
  cases answer with
  | noIoCtx => exact ⟨Nat.zero_le 1, rfl⟩
  | aio ret =>
      simp only [handleOp]
      split_ifs
      · exact ⟨Nat.zero_le 1, rfl⟩
      · exact ⟨Nat.le_refl 1, rfl⟩
      · exact ⟨Nat.zero_le 1, rfl⟩

/-- A step of a thread pays for its effects. -/
theorem RadosIOWorker.Inv.work_remaining {w w' : RadosIOWorker} {action : WorkerStep}
    {effect : Effect} (h : w.Inv) (hwork : w.work action = some (w', effect))
    (hwoken : action = .wake → w.phase ≠ .waiting false) :
    3 * w'.remaining + effect.sent.length + (if effect.notifyEmpty then 2 else 0) <
      3 * w.remaining := by
  have hrank := rank_of_work hwork hwoken
  rcases h.work_cases hwork with ⟨hls, hloop, hsent, -⟩ |
    ⟨op, rest, answer, -, hphase, hls, rfl, rfl⟩
  · have hcost : (if effect.notifyEmpty then 2 else 0) ≤ 2 := by
      split_ifs <;> omega
    have hlower : w'.remaining < w.remaining := by
      unfold RadosIOWorker.remaining
      rw [hrank, hls]
      cases hloop with
      | exit => simp [hls, Phase.rank]
      | wait => simp [hls, Phase.rank]
      | swap hops =>
          have hpos := List.length_pos_iff.mpr hops
          simp only [Phase.rank, List.length_nil]
          omega
    rw [hsent, List.length_nil]
    omega
  · obtain ⟨hone, hquiet⟩ := handleOp_effect op answer
    simp only [RadosIOWorker.remaining, hls, List.length_cons, hquiet, Bool.false_eq_true,
      if_false]
    omega

/-- A notification costs at most two. -/
theorem rank_notify (stopper : Stopper) (i : Nat) : (stopper.notify i).rank ≤ stopper.rank + 2 := by
  unfold Stopper.notify
  split
  · simp only [Stopper.rank]
    split_ifs <;> omega
  · omega

/-- A notification wakes a thread at most. -/
theorem remaining_notify (w : RadosIOWorker) (stop : Bool) :
    ({ w.notify with ioworkerStop := stop } : RadosIOWorker).remaining ≤ w.remaining + 1 := by
  have hrank : ∀ phase : Phase, phase.rank ≤ 1 := by
    intro phase
    cases phase with
    | waiting notified => cases notified <;> simp [Phase.rank]
    | ready | draining | exited => simp [Phase.rank]
  rw [(notify_frame w).1]
  have hnotify := hrank w.notify.phase
  simp only [RadosIOWorker.remaining]
  omega

/-- Every step of `Stop` that is not spurious lowers the measure. -/
theorem Stopping.remaining_stops (hstops : Stops s t)
    (hwoken : ¬∃ todo, s.stopper = .blocked todo false) : t.remaining < s.remaining := by
  unfold State.remaining
  cases hstops with
  | returned hat =>
      rw [hat]
      simp [Stopper.rank]
  | @waits i rest w hat hw =>
      have hset := total_set RadosIOWorker.remaining hw { w with ioworkerEmptyWait := true }
      have hsame : ({ w with ioworkerEmptyWait := true } : RadosIOWorker).remaining =
        w.remaining := rfl
      rw [hat]
      simp only [Stopper.rank, List.length_cons, Bool.false_eq_true, if_false]
      omega
  | @passes i rest w hat hw =>
      have hset := total_set RadosIOWorker.remaining hw { w with ioworkerEmptyWait := false }
      have hsame : ({ w with ioworkerEmptyWait := false } : RadosIOWorker).remaining =
        w.remaining := rfl
      rw [hat]
      simp only [Stopper.rank, List.length_cons]
      omega
  | @wakes todo notified hat =>
      cases notified with
      | true =>
          rw [hat]
          simp only [Stopper.rank, if_true]
          omega
      | false => exact absurd ⟨todo, hat⟩ hwoken
  | @asks i rest w hat hw =>
      have hset := total_set RadosIOWorker.remaining hw { w.notify with ioworkerStop := true }
      have hone := remaining_notify w true
      generalize ({ w.notify with ioworkerStop := true } : RadosIOWorker) = w' at hone hset ⊢
      rw [hat]
      simp only [Stopper.rank, List.length_cons]
      omega
  | @joins i rest w hat hw =>
      rw [hat]
      simp only [Stopper.rank, List.length_cons]
      omega

/-- Every step that is not spurious lowers the measure. -/
theorem Inv.remaining_settles {event : Event} (h : Inv s) (hsettles : Settles s event t)
    (hwoken : ¬spurious s event) : t.remaining < s.remaining := by
  cases hsettles with
  | @work i w w' action effect hw hwork =>
      have hawake : action = .wake → w.phase ≠ .waiting false := by
        rintro rfl hphase
        exact hwoken ⟨w, hw, hphase⟩
      have hpays := (h.worker i w hw).work_remaining hwork hawake
      have hset := total_set RadosIOWorker.remaining hw w'
      have hrank : (s.worked i w' effect).stopper.rank ≤
          s.stopper.rank + if effect.notifyEmpty then 2 else 0 := by
        rcases worked_stopper s i w' effect with hsame | ⟨hnotify, hnotified⟩
        · rw [hsame]
          exact Nat.le_add_right _ _
        · rw [hnotified, if_pos hnotify]
          exact rank_notify s.stopper i
      have hpending : (s.worked i w' effect).pending.length =
          s.pending.length + effect.sent.length := List.length_append
      have hworkers : (s.worked i w' effect).workers = s.workers.set i w' := rfl
      unfold State.remaining
      rw [hworkers, hpending]
      omega
  | @complete i op ret hop =>
      have hlen := (List.getElem?_eq_some_iff.mp hop).1
      have herase : (s.pending.eraseIdx i).length = s.pending.length - 1 :=
        List.length_eraseIdx_of_lt hlen
      unfold State.remaining
      simp only [State.complete]
      omega
  | stops hstops => exact Stopping.remaining_stops hstops hwoken

/-- A thread with something to do can do it. -/
theorem RadosIOWorker.works {w : RadosIOWorker} (h : w.phase.rank = 1) :
    ∃ action result, w.work action = some result ∧
      (∀ answer, action = .take answer → answer.ok) ∧
      (action = .wake → w.phase ≠ .waiting false) := by
  cases hphase : w.phase with
  | ready =>
      refine ⟨.acquire, (w.outerLoop.1, { notifyEmpty := w.outerLoop.2 }), ?_, by simp, by simp⟩
      simp [RadosIOWorker.work, hphase]
  | draining =>
      cases hls : w.ls with
      | nil =>
          have hsome : (w.work .acquire).isSome = true := by simp [RadosIOWorker.work, hphase, hls]
          obtain ⟨result, hwork⟩ := Option.isSome_iff_exists.mp hsome
          exact ⟨.acquire, result, hwork, by simp, by simp⟩
      | cons op rest =>
          refine ⟨.take (.aio 0), ({ w with ls := rest, taken := w.taken ++ [op] },
            handleOp op (.aio 0)), ?_, ?_, by simp⟩
          · simp [RadosIOWorker.work, hphase, hls]
          · intro answer hanswer
            cases hanswer
            exact Int.le_refl 0
  | waiting notified =>
      cases notified with
      | true =>
          refine ⟨.wake, (w.outerLoop.1, { notifyEmpty := w.outerLoop.2 }), ?_, by simp, by simp⟩
          simp [RadosIOWorker.work, hphase]
      | false => simp [hphase, Phase.rank] at h
  | exited => simp [hphase, Phase.rank] at h

/-- The system can make a step of such a thread. -/
theorem live_of_rank {i : Nat} {w : RadosIOWorker} (hw : s.workers[i]? = some w)
    (hrank : w.phase.rank = 1) : ∃ event t, smooth s event ∧ step s event = some t := by
  obtain ⟨action, result, hwork, hok, hawake⟩ := RadosIOWorker.works hrank
  refine ⟨.work i action, s.worked i result.1 result.2, ⟨?_, ?_⟩, ?_⟩
  · cases action with
    | acquire | wake => trivial
    | take answer =>
        cases answer with
        | noIoCtx => trivial
        | aio ret => exact hok (.aio ret) rfl
  · cases action with
    | acquire | take => exact id
    | wake =>
        rintro ⟨v, hv, hphase⟩
        rw [hw] at hv
        cases hv
        exact hawake rfl hphase
  · simp [step, hw, hwork]

/-- Until `Stop` has returned there is a step to make. -/
theorem Stopping.live (h : Stopping s) (hinv : Inv s) (hdone : s.stopper ≠ .done) :
    ∃ event t, smooth s event ∧ step s event = some t := by
  have hstep : ∀ {t}, s.stopStep = some t → (∀ todo, s.stopper ≠ .blocked todo false) →
      ∃ event t, smooth s event ∧ step s event = some t := by
    intro t ht hwoken
    refine ⟨.stopStep, t, ⟨trivial, ?_⟩, ht⟩
    rintro ⟨todo, hat⟩
    exact hwoken todo hat
  have hhead : ∀ {i rest}, s.stopper.todo = i :: rest → ∃ w, s.workers[i]? = some w := by
    intro i rest htodo
    exact h.valid i (htodo ▸ List.mem_cons_self)
  have hnil : s.stopper.todo = [] → s.stopper = .testing [] :=
    fun htodo => (h.working htodo).resolve_right hdone
  cases hat : s.stopper with
  | notCalled => exact absurd hat h.called
  | done => exact absurd hat hdone
  | testing todo =>
      cases todo with
      | nil => exact hstep (by simp [State.stopStep, hat]; rfl) (by simp [hat])
      | cons i rest =>
          obtain ⟨w, hw⟩ := hhead (by rw [hat]; rfl)
          by_cases hbusy : (!w.ops.isEmpty || w.ioworkerRunning) = true
          · exact hstep (by simp only [State.stopStep, hat, hw, hbusy, if_true]; rfl)
              (by simp [hat])
          · exact hstep (by simp only [State.stopStep, hat, hw, hbusy]; rfl) (by simp [hat])
  | blocked todo notified =>
      cases notified with
      | true => exact hstep (by simp only [State.stopStep, hat]; rfl) (by simp [hat])
      | false =>
          cases todo with
          | nil =>
              have hfalse := hnil (by rw [hat]; rfl)
              rw [hat] at hfalse
              cases hfalse
          | cons i rest =>
              -- the worker is busy: its thread has something to do
              obtain ⟨w, hw⟩ := hhead (by rw [hat]; rfl)
              have hworker := hinv.worker i w hw
              obtain ⟨-, hbusy⟩ := h.blocked i rest hat w hw
              refine live_of_rank hw ?_
              cases hphase : w.phase with
              | ready | draining => rfl
              | waiting notified =>
                  cases notified with
                  | true => rfl
                  | false => exact absurd ⟨hworker.wait hphase, by simp [hphase]⟩ hbusy
              | exited => exact absurd (hworker.stopped (.inr hphase)) hbusy
  | stopProc todo =>
      cases todo with
      | nil =>
          have hfalse := hnil (by rw [hat]; rfl)
          rw [hat] at hfalse
          cases hfalse
      | cons i rest =>
          obtain ⟨w, hw⟩ := hhead (by rw [hat]; rfl)
          exact hstep (by simp only [State.stopStep, hat, hw]; rfl) (by simp [hat])
  | joining todo =>
      cases todo with
      | nil =>
          have hfalse := hnil (by rw [hat]; rfl)
          rw [hat] at hfalse
          cases hfalse
      | cons i rest =>
          obtain ⟨w, hw⟩ := hhead (by rw [hat]; rfl)
          obtain ⟨-, hunnotified⟩ := h.asked i rest hat w hw
          cases hphase : w.phase with
          | exited =>
              exact hstep (by simp only [State.stopStep, hat, hw, hphase, if_true]; rfl)
                (by simp [hat])
          | ready | draining => exact live_of_rank hw (by rw [hphase]; rfl)
          | waiting notified =>
              cases notified with
              | true => exact live_of_rank hw (by rw [hphase]; rfl)
              | false => exact absurd hphase hunnotified

/-- `Stop` has returned: every thread has ended and has taken all that was accepted, and the
function of every accepted op was called or librados owes that call. -/
def Returned (s : State) : Prop :=
  s.stopper = .done ∧ ∀ w ∈ s.workers, w.phase = .exited ∧ w.taken = w.accepted ∧
    ∀ op ∈ w.accepted, (s.called.map Prod.fst).count op + s.pending.count op = 1

/-- What holds once `Stop` is done. -/
theorem Stopping.returned (h : Stopping s) (hinv : Inv s) (hdone : s.stopper = .done) :
    Returned s := by
  refine ⟨hdone, fun w hmem => ?_⟩
  obtain ⟨i, hw⟩ := List.mem_iff_getElem?.mp hmem
  have hexited : w.phase = .exited := by
    refine (h.covered i w hw).resolve_left ?_
    rw [hdone]
    exact List.not_mem_nil
  have hworker := hinv.worker i w hw
  obtain ⟨hops, hphase⟩ := hworker.stopped (.inr hexited)
  have htaken := hworker.taken_all (hworker.idle hphase) hops
  refine ⟨hexited, htaken, fun op hop => ?_⟩
  rw [hinv.calls op, hinv.taken_once op, if_pos ⟨w, hmem, htaken ▸ hop⟩]

/-- Once `Stop` is called, after the last call of `Queue` returned, it returns: every schedule of
the workers, of `Stop` and of librados without spurious wake-ups comes there, whatever is queued. -/
theorem stop_returns {threads : Nat} (h : Reach step admitted (init threads) s)
    (hcalled : s.stopper ≠ .notCalled) : Leads step smooth Returned s := by
  obtain ⟨hinv, hstopping⟩ := stopping_of_reach h
  refine Leads.of_measure (fun s => Inv s ∧ Stopping s) State.remaining ?_ ?_
    ⟨hinv, hstopping hcalled⟩
  · intro s event t hs hsmooth hstep
    have hsettles := hs.1.settles hs.2.called hsmooth.1 hstep
    exact ⟨⟨hs.1.step hsmooth.1 hstep, hs.2.settles hs.1 hsettles⟩,
      hs.1.remaining_settles hsettles hsmooth.2⟩
  · intro s hs hgoal
    exact hs.2.live hs.1 fun hdone => hgoal (hs.2.returned hs.1 hdone)

/-- `Stop` is called with one op in the queue of a worker whose thread is about to wait. -/
def queuedOne : List Event :=
  [.submit 0 3 .batchRead, .getIOWorker 0, .createIOWorker 0 true, .work 0 .acquire, .queue 0,
    .stop, .stopStep]

/-- The call that waits for it returns. -/
theorem stop_returns_queuedOne :
    ∃ s, Reach step admitted (init 1) s ∧ s.stopper = .blocked [0] false ∧
      Leads step smooth Returned s := by
  have h : Reach step admitted (init 1) _ := Reach.of_run queuedOne rfl
  exact ⟨_, h, rfl, stop_returns h (by decide)⟩

end GlobalCacheAdaptor.CephProxy.RadosWorker

import GlobalCacheAdaptor.ClientAdaptor.Placement

/-!
# The order of writes to one object

A client that submits an op after `op_submit` has returned on another one for the same object
expects the two to be executed in that order. The Objecter pulls an op back when it is answered
with a retryable error, when its connection is reset or when its node leaves the view, and parks it
while its partition is not ready; nothing holds later ops on the object back meanwhile. A
`History` records when ops are sent and which send of an op was answered, and
`writes_in_order_iff` says which sends keep the order.
-/

namespace GlobalCacheAdaptor.ClientAdaptor

open Lib

/-! ## Sends and answers -/

/-- The object an op works on. -/
def Op.object (op : Op) : Int × Bytes := (op.pool, op.name)

/-- The ops on the sessions of nodes: sent, and not answered yet. -/
def State.nodeOps (s : State) : List OpId := s.sessions.entries.flatMap fun e => e.2.values

/-- The op that a step sends: the end of `_op_submit` sends an op that has a node. -/
def sentOp (s : State) : Event → Option OpId
  | .run i _ relock =>
      match s.tasks[i]? with
      | some (.submitting _ o .place _) =>
          if relock = true ∨ (s.ops o).osd < 0 then none else some o
      | _ => none
  | _ => none

/-- The op that a reply answers with success. -/
def answeredOp (s : State) : Event → Option OpId
  | .reply osd tid reply =>
      if reply.redirect = true ∨ reply.rc < 0 then none
      else
        match s.sessions.find? osd with
        | none => none
        | some session => session.find? tid
  | _ => none

/-- The task is in `op_submit` on this op. -/
def Task.submits (o : OpId) : Task → Bool
  | .submitting .opSubmit o' _ _ => o' = o
  | _ => false

/-- `op_submit` has returned on the op. -/
def State.returned (s : State) (o : OpId) : Bool :=
  o < s.submitted && s.tasks.all fun task => !task.submits o

/-- A run of the Objecter with what a client can observe of it. Sends are numbered from 1 on. A
reply answers the last send of its op, since Ceph drops replies to earlier attempts. -/
structure History where
  state : State
  sends : Nat := 0
  /-- The number of the last send of an op, 0 if it was not sent. -/
  lastSend : OpId → Nat := fun _ => 0
  /-- The number of the send of an op that was answered with success. -/
  answered : OpId → Option Nat := fun _ => none
  /-- `op_submit` had returned on the first op when the second was submitted. -/
  before : OpId → OpId → Bool := fun _ _ => false

/-- Nothing has happened yet. -/
def History.init (ptOk : Pt → Bool) : History where
  state := ClientAdaptor.init ptOk

/-- What an event adds to a history, when it leads to state `t`. -/
def History.record (h : History) (event : Event) (t : State) : History where
  state := t
  sends :=
    match sentOp h.state event with
    | some _ => h.sends + 1
    | none => h.sends
  lastSend :=
    match sentOp h.state event with
    | some o => Function.update h.lastSend o (h.sends + 1)
    | none => h.lastSend
  answered :=
    match answeredOp h.state event with
    | some o => Function.update h.answered o (some (h.lastSend o))
    | none => h.answered
  before :=
    match event with
    | .submit _ _ _ => fun a b =>
        if b = h.state.submitted then h.state.returned a else h.before a b
    | _ => h.before

/-- One step of the Objecter, recorded. -/
def History.step (cfg : Config) (h : History) (event : Event) : Option History :=
  match ClientAdaptor.step cfg h.state event with
  | none => none
  | some t => some (h.record event t)

/-- The second op was submitted after the first, on the same object. -/
def History.Follows (h : History) (a b : OpId) : Prop :=
  h.before a b = true ∧ (h.state.ops a).object = (h.state.ops b).object

instance (h : History) (a b : OpId) : Decidable (h.Follows a b) :=
  inferInstanceAs (Decidable (_ ∧ _))

/-- Of two ops on one object that both succeeded, the one submitted first was sent first. -/
def History.Ordered (h : History) : Prop :=
  ∀ a b m n, h.Follows a b → h.answered a = some m → h.answered b = some n → m < n

/-- The step sends no op while a later one on the same object is on a session or has succeeded. -/
def History.NoOvertake (h : History) (event : Event) : Prop :=
  match sentOp h.state event with
  | none => True
  | some a =>
      ∀ b < h.state.submitted, h.Follows a b → b ∉ h.state.nodeOps ∧ h.answered b = none

instance (h : History) (event : Event) : Decidable (h.NoOvertake event) :=
  match hsent : sentOp h.state event with
  | none => isTrue (by rw [History.NoOvertake, hsent]; trivial)
  | some a =>
      decidable_of_iff
        (∀ b < h.state.submitted, h.Follows a b → b ∉ h.state.nodeOps ∧ h.answered b = none)
        (by rw [History.NoOvertake, hsent])

/-! ## What a step does to ops -/

section

variable {cfg : Config} {s t : State} {event : Event}

/-- The ops on nodes are found on a session. -/
theorem mem_nodeOps {o : OpId} :
    o ∈ s.nodeOps ↔
      ∃ osd session tid, s.sessions.find? osd = some session ∧ session.find? tid = some o := by
  unfold State.nodeOps
  rw [List.mem_flatMap]
  constructor
  · intro h
    obtain ⟨⟨osd, session⟩, hentry, ho⟩ := h
    obtain ⟨tid, htid⟩ := OrdMap.exists_find?_of_mem_values ho
    exact ⟨osd, session, tid, s.sessions.mem_entries_iff.mp hentry, htid⟩
  · intro h
    obtain ⟨osd, session, tid, hsession, htid⟩ := h
    exact ⟨(osd, session), s.sessions.mem_entries_iff.mpr hsession, OrdMap.mem_values htid⟩

/-- An op on a node is on a session. -/
theorem onSession_of_mem_nodeOps {o : OpId} (h : o ∈ s.nodeOps) : ∃ tid, s.OnSession tid o := by
  obtain ⟨osd, session, tid, hsession, htid⟩ := mem_nodeOps.mp h
  exact ⟨tid, .inl ⟨osd, session, hsession, htid⟩⟩

/-- A step that sends an op is the end of `_op_submit` on it. -/
theorem sentOp_eq_some {o : OpId} (h : sentOp s event = some o) :
    ∃ i view frame rest, event = .run i view false ∧
      s.tasks[i]? = some (.submitting frame o .place rest) ∧ 0 ≤ (s.ops o).osd := by
  cases event with
  | run i view relock =>
      simp only [sentOp] at h
      split at h
      · rename_i frame o' rest htask
        split_ifs at h with hnot
        cases h
        rw [not_or] at hnot
        refine ⟨i, view, frame, rest, ?_, htask, not_lt.mp hnot.2⟩
        rw [Bool.eq_false_iff.mpr hnot.1]
      · cases h
  | submit | reply | ptChange | notify | deliver | nodeView | reset => cases h

/-- A reply that answers an op with success takes it off its session. -/
theorem answeredOp_eq_some {o : OpId} (h : answeredOp s event = some o) :
    ∃ osd session tid reply, event = .reply osd tid reply ∧ reply.redirect = false ∧
      0 ≤ reply.rc ∧ s.sessions.find? osd = some session ∧ session.find? tid = some o := by
  cases event with
  | reply osd tid reply =>
      simp only [answeredOp] at h
      split_ifs at h with hnot
      rw [not_or] at hnot
      cases hsession : s.sessions.find? osd with
      | none =>
          rw [hsession] at h
          cases h
      | some session =>
          rw [hsession] at h
          exact ⟨osd, session, tid, reply, rfl, Bool.eq_false_iff.mpr hnot.1, not_lt.mp hnot.2,
            hsession, h⟩
  | submit | run | ptChange | notify | deliver | nodeView | reset => cases h

/-- An op that has a node is put on its session, next to the ops that are there. -/
theorem nodeOps_assign {o : OpId} (hosd : 0 ≤ (s.ops o).osd)
    (hfree : ∀ o', ¬ s.OnSession (s.submitTid o) o') (x : OpId) :
    x ∈ (s.assign o).nodeOps ↔ x = o ∨ x ∈ s.nodeOps := by
  have hsessions : (s.assign o).sessions = s.sessions.insert (s.ops o).osd
      ((s.getSession (s.ops o).osd).insert (s.submitTid o) o) := by
    simp only [State.assign, if_neg (not_lt.mpr hosd)]
  simp only [mem_nodeOps, hsessions, OrdMap.find?_insert]
  constructor
  · intro h
    obtain ⟨osd, session, tid, hsession, htid⟩ := h
    split_ifs at hsession with hkey
    · cases hsession
      rw [OrdMap.find?_insert] at htid
      split_ifs at htid with htidKey
      · cases htid
        exact .inl rfl
      · cases hfind : s.sessions.find? (s.ops o).osd with
        | none => simp [State.getSession, hfind] at htid
        | some old =>
            simp only [State.getSession, hfind, Option.getD_some] at htid
            exact .inr ⟨_, old, tid, hfind, htid⟩
    · exact .inr ⟨osd, session, tid, hsession, htid⟩
  · intro h
    obtain rfl | ⟨osd, session, tid, hsession, htid⟩ := h
    · exact ⟨_, _, s.submitTid x, if_pos rfl, by rw [OrdMap.find?_insert, if_pos rfl]⟩
    · have hne : tid ≠ s.submitTid o := by
        intro heq
        rw [heq] at htid
        exact hfree x (.inl ⟨osd, session, hsession, htid⟩)
      by_cases hkey : osd = (s.ops o).osd
      · refine ⟨osd, _, tid, if_pos hkey, ?_⟩
        rw [OrdMap.find?_insert, if_neg hne, State.getSession, ← hkey, hsession, Option.getD_some]
        exact htid
      · exact ⟨osd, session, tid, by rw [if_neg hkey]; exact hsession, htid⟩

/-- A homeless op is put on no node. -/
theorem nodeOps_assign_homeless {o : OpId} (hosd : (s.ops o).osd < 0) :
    (s.assign o).nodeOps = s.nodeOps := by
  simp only [State.nodeOps, State.assign, if_pos hosd]

/-- An op taken off its session leaves the others where they are. -/
theorem nodeOps_detach {osd : Int} {session : OpMap} {tid : Nat} {o : OpId}
    (hsession : s.sessions.find? osd = some session) (hop : session.find? tid = some o) {x : OpId}
    (hx : x ≠ o) : x ∈ (s.detach osd session tid o).nodeOps ↔ x ∈ s.nodeOps := by
  simp only [mem_nodeOps, State.detach, OrdMap.find?_insert]
  constructor
  · intro h
    obtain ⟨osd', session', tid', hsession', htid⟩ := h
    split_ifs at hsession' with hkey
    · cases hsession'
      rw [OrdMap.find?_erase] at htid
      split_ifs at htid
      exact ⟨osd, session, tid', hsession, htid⟩
    · exact ⟨osd', session', tid', hsession', htid⟩
  · intro h
    obtain ⟨osd', session', tid', hsession', htid⟩ := h
    by_cases hkey : osd' = osd
    · subst hkey
      cases hsession.symm.trans hsession'
      refine ⟨osd', _, tid', if_pos rfl, ?_⟩
      rw [OrdMap.find?_erase, if_neg]
      · exact htid
      · intro heq
        rw [heq, hop] at htid
        exact hx (Option.some.inj htid).symm
    · exact ⟨osd', session', tid', by rw [if_neg hkey]; exact hsession', htid⟩

/-- An op reaches a node only by being sent. -/
theorem Inv.sent_of_mem_nodeOps (hinv : Inv s) (hstep : Step cfg s event t) {x : OpId}
    (h : x ∈ t.nodeOps) : x ∈ s.nodeOps ∨ sentOp s event = some x := by
  cases hstep with
  | @place i view frame o rest htask =>
      have ho : o ∈ (Task.submitting frame o .place rest).ops := List.mem_cons_self
      have h : x ∈ (s.assign o).nodeOps := h
      by_cases hosd : (s.ops o).osd < 0
      · rw [nodeOps_assign_homeless hosd] at h
        exact .inl h
      · rw [nodeOps_assign (not_lt.mp hosd) (hinv.free_tid htask ho)] at h
        obtain rfl | h := h
        · refine .inr ?_
          simp only [sentOp, htask, hosd, or_false, Bool.false_eq_true, if_false]
        · exact .inl h
  | @reply osd tid reply session o hsession hop =>
      refine .inl ?_
      by_cases hx : x = o
      · subst hx
        exact mem_nodeOps.mpr ⟨osd, session, tid, hsession, hop⟩
      · refine (nodeOps_detach hsession hop hx).mp ?_
        obtain ⟨task, -, -, heq⟩ | heq := handleOsdOpReply_cases cfg s osd session tid o reply
        · rw [heq] at h
          exact h
        · rw [heq] at h
          exact h
  | @nodeView available _ _ hview =>
      cases hview
      obtain ⟨osd, session, tid, hsession, htid⟩ := mem_nodeOps.mp h
      simp only [State.spawn, OrdMap.find?_filter] at hsession
      exact .inl (mem_nodeOps.mpr
        ⟨osd, session, tid, (Option.filter_eq_some_iff.mp hsession).1, htid⟩)
  | @reset osd session _ _ hsession hgc hreset =>
      cases hreset
      obtain ⟨osd', session', tid, hsession', htid⟩ := mem_nodeOps.mp h
      simp only [State.spawn, OrdMap.find?_erase] at hsession'
      split_ifs at hsession'
      exact .inl (mem_nodeOps.mpr ⟨osd', session', tid, hsession', htid⟩)
  | submit | calcTarget | recalc | park | replyPark | retryStart | hangonLock | scanTake | scanKeep
  | scanEnd | replyIgnored | ptChange | notify | deliverNothing | deliver | resetOther =>
      exact .inl h

/-- Changing one op without changing its object changes no object. -/
theorem object_update {ops : OpId → Op} {o : OpId} {op : Op} (h : op.object = (ops o).object)
    (x : OpId) : (Function.update ops o op x).object = (ops x).object := by
  by_cases hx : x = o
  · subst hx
    rw [Function.update_self, h]
  · rw [Function.update_of_ne hx]

/-- Reading the target of an op keeps its object. -/
theorem calcPtTarget_object {ptOk : Pt → Bool} {op op' : Op} {view : TargetView} {ptStat : Bool}
    (h : calcPtTarget cfg ptOk op view = (op', ptStat)) : op'.object = op.object := by
  unfold calcPtTarget at h
  split_ifs at h
  · cases h
    rfl
  · cases h
    rfl

/-- An op keeps its object once it is submitted. -/
theorem object_of_step (hstep : Step cfg s event t) {x : OpId} (hx : x < s.submitted) :
    (t.ops x).object = (s.ops x).object := by
  cases hstep with
  | submit =>
      show (Function.update s.ops s.submitted _ x).object = _
      rw [Function.update_of_ne (Nat.ne_of_lt hx)]
  | calcTarget htask hcalc => exact object_update (calcPtTarget_object hcalc) x
  | @place i view frame o rest htask =>
      exact object_update (show { s.ops o with tid := s.submitTid o }.object = _ from rfl) x
  | @reply osd tid reply session o hsession hop =>
      obtain ⟨task, -, -, heq⟩ | heq := handleOsdOpReply_cases cfg s osd session tid o reply
      · rw [heq]
        exact object_update (show { s.ops o with tid := 0 }.object = _ from rfl) x
      · rw [heq]
        rfl
  | nodeView hview =>
      cases hview
      rfl
  | reset hsession hgc hreset =>
      cases hreset
      rfl
  | recalc | park | replyPark | retryStart | hangonLock | scanTake | scanKeep | scanEnd
  | replyIgnored | ptChange | notify | deliverNothing | deliver | resetOther => rfl

/-- Ops are only added, and a finished op stays finished. -/
theorem submitted_finished_of_step (hstep : Step cfg s event t) :
    s.submitted ≤ t.submitted ∧ ∀ o, s.finished o = true → t.finished o = true := by
  cases hstep with
  | submit => exact ⟨Nat.le_succ _, fun _ => id⟩
  | @reply osd tid reply session o hsession hop =>
      obtain ⟨task, -, -, heq⟩ | heq := handleOsdOpReply_cases cfg s osd session tid o reply
      · rw [heq]
        exact ⟨Nat.le_refl _, fun _ => id⟩
      · rw [heq]
        refine ⟨Nat.le_refl _, fun x hx => ?_⟩
        show Function.update s.finished o true x = true
        by_cases hxo : x = o
        · rw [hxo, Function.update_self]
        · rw [Function.update_of_ne hxo]
          exact hx
  | nodeView hview =>
      cases hview
      exact ⟨Nat.le_refl _, fun _ => id⟩
  | reset hsession hgc hreset =>
      cases hreset
      exact ⟨Nat.le_refl _, fun _ => id⟩
  | calcTarget | recalc | place | park | replyPark | retryStart | hangonLock | scanTake | scanKeep
  | scanEnd | replyIgnored | ptChange | notify | deliverNothing | deliver | resetOther =>
      exact ⟨Nat.le_refl _, fun _ => id⟩

/-- An op in a place is submitted and not finished. -/
theorem Inv.unfinished_of_held (hinv : Inv s) {o : OpId} (h : 1 ≤ s.held (single o)) :
    o < s.submitted ∧ s.finished o = false := by
  rw [hinv.once o] at h
  split_ifs at h with hopen
  · exact hopen
  · omega

/-- An op that is sent is submitted and not finished. -/
theorem Inv.unfinished_of_sent (hinv : Inv s) {o : OpId} (h : sentOp s event = some o) :
    o < s.submitted ∧ s.finished o = false := by
  obtain ⟨i, view, frame, rest, -, htask, -⟩ := sentOp_eq_some h
  have hrunning := one_le_running htask (show o ∈ Task.ops _ from List.mem_cons_self)
  refine hinv.unfinished_of_held ?_
  unfold State.held
  omega

/-- An op on a node is submitted and not finished. -/
theorem Inv.unfinished_of_mem_nodeOps (hinv : Inv s) {o : OpId} (h : o ∈ s.nodeOps) :
    o < s.submitted ∧ s.finished o = false := by
  obtain ⟨tid, hon⟩ := onSession_of_mem_nodeOps h
  have hassigned := le_assigned (single o) hon
  rw [single_self] at hassigned
  refine hinv.unfinished_of_held ?_
  unfold State.held
  omega

/-- A success finishes the op. -/
theorem handleOsdOpReply_success {osd : Int} {session : OpMap} {tid : Nat} {o : OpId}
    {reply : Reply} (hredirect : reply.redirect = false) (hrc : 0 ≤ reply.rc) :
    handleOsdOpReply cfg s osd session tid o reply =
      { s.detach osd session tid o with finished := Function.update s.finished o true } := by
  have hfilter : errortFilter reply.rc = false := by
    unfold errortFilter
    simp only [List.mem_cons, List.not_mem_nil, or_false, decide_eq_false_iff_not]
    omega
  have hagain : ¬ (reply.redirect = true ∨ reply.rc = eagain) := by
    rw [hredirect, eagain]
    intro h
    obtain h | h := h
    · cases h
    · omega
  unfold handleOsdOpReply
  rw [if_neg hagain, if_neg]
  simp only [retryable, hfilter, Bool.and_false, Bool.false_and, Bool.false_eq_true,
    not_false_eq_true]

end

/-! ## Histories -/

variable {cfg : Config} {h h' : History} {event : Event}

/-- A recorded step is a step. -/
theorem History.step_eq_some (hstep : h.step cfg event = some h') :
    ∃ t, ClientAdaptor.step cfg h.state event = some t ∧ h' = h.record event t := by
  unfold History.step at hstep
  cases hs : ClientAdaptor.step cfg h.state event with
  | none =>
      rw [hs] at hstep
      cases hstep
  | some t =>
      rw [hs] at hstep
      cases hstep
      exact ⟨t, rfl, rfl⟩

/-- A step that sends an op answers none, and stamps the op. -/
theorem record_of_sent {o : OpId} (hsent : sentOp h.state event = some o) (t : State) :
    h.record event t =
      { h with
        state := t
        sends := h.sends + 1
        lastSend := Function.update h.lastSend o (h.sends + 1) } := by
  obtain ⟨i, view, frame, rest, rfl, -, -⟩ := sentOp_eq_some hsent
  simp only [History.record, hsent, answeredOp]

/-- A success is recorded with the last send of its op. -/
theorem record_of_answered {o : OpId} (hanswered : answeredOp h.state event = some o) (t : State) :
    h.record event t =
      { h with
        state := t
        answered := Function.update h.answered o (some (h.lastSend o)) } := by
  obtain ⟨osd, session, tid, reply, rfl, -⟩ := answeredOp_eq_some hanswered
  simp only [History.record, hanswered, sentOp]

/-- Any other step sends nothing and answers nothing. -/
theorem record_of_none (hsent : sentOp h.state event = none)
    (hanswered : answeredOp h.state event = none) (t : State) :
    (h.record event t).sends = h.sends ∧ (h.record event t).lastSend = h.lastSend ∧
      (h.record event t).answered = h.answered := by
  simp only [History.record, hsent, hanswered, and_self]

/-- Who came before whom is settled when an op is submitted. -/
theorem before_of_record {t : State} {a b : OpId} (hb : (h.record event t).before a b = true) :
    h.before a b = true ∨
      (b = h.state.submitted ∧ a < h.state.submitted ∧ ∃ pool name onfinish,
        event = .submit pool name onfinish) := by
  cases event with
  | submit pool name onfinish =>
      have hb : (if b = h.state.submitted then h.state.returned a else h.before a b) = true := hb
      split_ifs at hb with hnew
      · unfold State.returned at hb
        simp only [Bool.and_eq_true, decide_eq_true_eq] at hb
        exact .inr ⟨hnew, hb.1, pool, name, onfinish, rfl⟩
      · exact .inl hb
  | run | reply | ptChange | notify | deliver | nodeView | reset => exact .inl hb

/-- A success finishes its op. -/
theorem finished_of_answered {s t : State} (hstep : ClientAdaptor.step cfg s event = some t)
    {o : OpId} (hanswered : answeredOp s event = some o) : t.finished o = true := by
  obtain ⟨osd, session, tid, reply, rfl, hredirect, hrc, hsession, hop⟩ :=
    answeredOp_eq_some hanswered
  simp only [ClientAdaptor.step, hsession, hop, handleOsdOpReply_success hredirect hrc,
    Option.some.injEq] at hstep
  subst hstep
  exact Function.update_self o true s.finished

/-- What is true of a history whatever the order of its sends. -/
structure HistoryInv (h : History) : Prop where
  inv : Inv h.state
  stamped : ∀ o, h.lastSend o ≤ h.sends
  answer : ∀ o n, h.answered o = some n → n = h.lastSend o ∧ h.state.finished o = true
  submitted : ∀ a b, h.before a b = true → a < b ∧ b < h.state.submitted

/-- Nothing was sent, answered or submitted in the beginning. -/
theorem historyInv_init (ptOk : Pt → Bool) : HistoryInv (.init ptOk) where
  inv := inv_init ptOk
  stamped _ := Nat.le_refl 0
  answer _ _ hn := nomatch hn
  submitted _ _ hb := nomatch hb

/-- No op is sent after it succeeded, so the answered send stays the last one. -/
theorem HistoryInv.answer_record (hinv : HistoryInv h) {t : State}
    (hstep : ClientAdaptor.step cfg h.state event = some t) {o : OpId} {n : Nat}
    (hn : (h.record event t).answered o = some n) :
    n = (h.record event t).lastSend o ∧ t.finished o = true := by
  have hkeeps := (submitted_finished_of_step (step_cases hstep)).2
  cases hsent : sentOp h.state event with
  | some x =>
      rw [record_of_sent hsent] at hn ⊢
      obtain ⟨hlast, hfinished⟩ := hinv.answer o n hn
      -- an op that is sent has not finished
      have hne : o ≠ x := by
        intro heq
        subst heq
        rw [(hinv.inv.unfinished_of_sent hsent).2] at hfinished
        cases hfinished
      exact ⟨by rw [hlast]; exact (Function.update_of_ne hne _ _).symm, hkeeps o hfinished⟩
  | none =>
      cases hanswered : answeredOp h.state event with
      | some x =>
          rw [record_of_answered hanswered] at hn ⊢
          have hn : Function.update h.answered x (some (h.lastSend x)) o = some n := hn
          by_cases hox : o = x
          · subst hox
            rw [Function.update_self] at hn
            exact ⟨(Option.some.inj hn).symm, finished_of_answered hstep hanswered⟩
          · rw [Function.update_of_ne hox] at hn
            obtain ⟨hlast, hfinished⟩ := hinv.answer o n hn
            exact ⟨hlast, hkeeps o hfinished⟩
      | none =>
          obtain ⟨-, hlastSend, hans⟩ := record_of_none hsent hanswered t
          rw [hans] at hn
          rw [hlastSend]
          obtain ⟨hlast, hfinished⟩ := hinv.answer o n hn
          exact ⟨hlast, hkeeps o hfinished⟩

/-- Every recorded step keeps the invariant. -/
theorem HistoryInv.step (hinv : HistoryInv h) (hstep : h.step cfg event = some h') :
    HistoryInv h' := by
  obtain ⟨t, ht, rfl⟩ := History.step_eq_some hstep
  have hcases := step_cases ht
  obtain ⟨hsub, -⟩ := submitted_finished_of_step hcases
  -- stamps grow with the sends, and an op follows only ops submitted before it
  refine ⟨hinv.inv.step hcases, ?_, fun o n => hinv.answer_record ht, ?_⟩
  · intro o
    have hold := hinv.stamped o
    cases hsent : sentOp h.state event with
    | some x =>
        rw [record_of_sent hsent]
        show Function.update h.lastSend x (h.sends + 1) o ≤ h.sends + 1
        by_cases hox : o = x
        · rw [hox, Function.update_self]
        · rw [Function.update_of_ne hox]
          omega
    | none =>
        simp only [History.record, hsent]
        exact hold
  · intro a b hb
    obtain hb | ⟨rfl, ha, pool, name, onfinish, rfl⟩ := before_of_record hb
    · obtain ⟨hab, hlt⟩ := hinv.submitted a b hb
      exact ⟨hab, Nat.lt_of_lt_of_le hlt hsub⟩
    · cases ht
      exact ⟨ha, Nat.lt_succ_self _⟩

/-! ## Sends that keep the order -/

/-- An op that is on a node or has succeeded was last sent after every op that it follows. -/
def History.InOrder (h : History) : Prop :=
  ∀ a b, h.Follows a b → (b ∈ h.state.nodeOps ∨ (h.answered b).isSome) →
    h.lastSend a < h.lastSend b

/-- An op that has succeeded or is on a node after a step was one before it, or was just sent. -/
theorem HistoryInv.reached_of_record (hinv : HistoryInv h) {t : State}
    (hstep : ClientAdaptor.step cfg h.state event = some t) {b : OpId}
    (hb : b ∈ t.nodeOps ∨ ((h.record event t).answered b).isSome) :
    (b ∈ h.state.nodeOps ∨ (h.answered b).isSome) ∨ sentOp h.state event = some b := by
  obtain hb | hb := hb
  · obtain hb | hsent := hinv.inv.sent_of_mem_nodeOps (step_cases hstep) hb
    · exact .inl (.inl hb)
    · exact .inr hsent
  · cases hanswered : answeredOp h.state event with
    | none =>
        simp only [History.record, hanswered] at hb
        exact .inl (.inr hb)
    | some x =>
        rw [record_of_answered hanswered] at hb
        have hb : (Function.update h.answered x (some (h.lastSend x)) b).isSome := hb
        by_cases hbx : b = x
        · subst hbx
          obtain ⟨osd, session, tid, reply, -, -, -, hsession, hop⟩ := answeredOp_eq_some hanswered
          exact .inl (.inl (mem_nodeOps.mpr ⟨osd, session, tid, hsession, hop⟩))
        · rw [Function.update_of_ne hbx] at hb
          exact .inl (.inr hb)

/-- An op that follows another one after a step did so before it, or was just submitted. -/
theorem HistoryInv.follows_of_record (hinv : HistoryInv h) {t : State}
    (hstep : ClientAdaptor.step cfg h.state event = some t) {a b : OpId}
    (hfollows : (h.record event t).Follows a b) :
    h.Follows a b ∨ (b = h.state.submitted ∧ sentOp h.state event = none) := by
  obtain ⟨hbefore, hobject⟩ := hfollows
  obtain hbefore | ⟨hb, -, pool, name, onfinish, rfl⟩ := before_of_record hbefore
  · obtain ⟨hab, hlt⟩ := hinv.submitted a b hbefore
    have hcases := step_cases hstep
    refine .inl ⟨hbefore, ?_⟩
    rw [← object_of_step hcases (hab.trans hlt), ← object_of_step hcases hlt]
    exact hobject
  · exact .inr ⟨hb, rfl⟩

/-- A step that sends no op past a later one keeps the order. -/
theorem HistoryInv.inOrder_step (hinv : HistoryInv h) (horder : h.InOrder)
    (hclean : h.NoOvertake event) (hstep : h.step cfg event = some h') : h'.InOrder := by
  obtain ⟨t, ht, rfl⟩ := History.step_eq_some hstep
  intro a b hfollows hreached
  have hreached := hinv.reached_of_record ht hreached
  obtain hfollows | ⟨hnew, hsent⟩ := hinv.follows_of_record ht hfollows
  · obtain ⟨hab, hlt⟩ := hinv.submitted a b hfollows.1
    have hstamped := hinv.stamped a
    cases hsent : sentOp h.state event with
    | none =>
        rw [hsent] at hreached
        obtain hreached | hreached := hreached
        · simp only [History.record, hsent]
          exact horder a b hfollows hreached
        · cases hreached
    | some x =>
        rw [record_of_sent hsent]
        show Function.update h.lastSend x (h.sends + 1) a <
          Function.update h.lastSend x (h.sends + 1) b
        by_cases hbx : b = x
        · -- the later op gets the highest stamp
          subst hbx
          rw [Function.update_self, Function.update_of_ne (Nat.ne_of_lt hab)]
          omega
        · have hreached : b ∈ h.state.nodeOps ∨ (h.answered b).isSome := by
            obtain hreached | hb := hreached
            · exact hreached
            · rw [hsent] at hb
              exact absurd (Option.some.inj hb).symm hbx
          rw [Function.update_of_ne hbx]
          by_cases hax : a = x
          · subst hax
            simp only [History.NoOvertake, hsent] at hclean
            obtain ⟨hnode, hanswer⟩ := hclean b hlt hfollows
            obtain hb | hb := hreached
            · exact absurd hb hnode
            · rw [hanswer] at hb
              cases hb
          · rw [Function.update_of_ne hax]
            exact horder a b hfollows hreached
  · -- a new op is on no node and has not succeeded
    rw [hsent, hnew] at hreached
    obtain (hnode | hanswer) | hnone := hreached
    · exact absurd (hinv.inv.unfinished_of_mem_nodeOps hnode).1 (Nat.lt_irrefl _)
    · obtain ⟨n, hn⟩ := Option.isSome_iff_exists.mp hanswer
      exact absurd (hinv.inv.started _ (hinv.answer _ n hn).2) (Nat.lt_irrefl _)
    · cases hnone

/-- Ops in order succeeded in order. -/
theorem HistoryInv.ordered (hinv : HistoryInv h) (horder : h.InOrder) : h.Ordered := by
  intro a b m n hfollows ha hb
  rw [(hinv.answer a m ha).1, (hinv.answer b n hb).1]
  refine horder a b hfollows (.inr ?_)
  rw [hb]
  rfl

/-! ## Sends that break it -/

/-- A reply of success. -/
def success : Reply where
  rc := 0
  redirect := false
  name := []
  ptId := 0

/-- The history after a success for an op, in state `t`. -/
def History.succeed (h : History) (o : OpId) (t : State) : History :=
  { h with
    state := t
    answered := Function.update h.answered o (some (h.lastSend o)) }

/-- A success for an op on a node is a step: it is recorded, and the other ops stay where they
are. -/
theorem exists_success (cfg : Config) {a : OpId} (ha : a ∈ h.state.nodeOps) :
    ∃ event t, h.step cfg event = some (h.succeed a t) ∧ t.ops = h.state.ops ∧
      ∀ x, x ≠ a → x ∈ h.state.nodeOps → x ∈ t.nodeOps := by
  obtain ⟨osd, session, tid, hsession, hop⟩ := mem_nodeOps.mp ha
  have hanswered : answeredOp h.state (.reply osd tid success) = some a := by
    simp only [answeredOp, hsession, hop]
    rfl
  refine ⟨.reply osd tid success,
    { h.state.detach osd session tid a with
      finished := Function.update h.state.finished a true }, ?_, rfl, ?_⟩
  · simp only [History.step, ClientAdaptor.step, hsession, hop]
    rw [handleOsdOpReply_success rfl (Int.le_refl 0), record_of_answered hanswered]
    rfl
  · intro x hx hmem
    exact (nodeOps_detach hsession hop hx).mpr hmem

/-- An op sent past a later one is on a node, and so is the later one unless it has succeeded. -/
theorem HistoryInv.sent_past (hinv : HistoryInv h) (hnot : ¬ h.NoOvertake event)
    (hstep : h.step cfg event = some h') :
    ∃ a b, a ≠ b ∧ h'.Follows a b ∧ a ∈ h'.state.nodeOps ∧ h'.lastSend b < h'.lastSend a ∧
      (b ∈ h'.state.nodeOps ∨ h'.answered b = some (h'.lastSend b)) := by
  cases hsent : sentOp h.state event with
  | none =>
      simp only [History.NoOvertake, hsent, not_true_eq_false] at hnot
  | some a =>
      simp only [History.NoOvertake, hsent, not_forall, not_and_or, not_not] at hnot
      obtain ⟨b, hlt, hfollows, hreached⟩ := hnot
      obtain ⟨hab, -⟩ := hinv.submitted a b hfollows.1
      obtain ⟨t, ht, rfl⟩ := History.step_eq_some hstep
      have hobject : ∀ x < h.state.submitted, (t.ops x).object = (h.state.ops x).object :=
        fun x => object_of_step (step_cases ht)
      rw [record_of_sent hsent]
      obtain ⟨i, view, frame, rest, rfl, htask, hosd⟩ := sentOp_eq_some hsent
      have hfree := hinv.inv.free_tid htask (show a ∈ Task.ops _ from List.mem_cons_self)
      have hnode : ∀ x, x ∈ t.nodeOps ↔ x = a ∨ x ∈ h.state.nodeOps := by
        simp only [ClientAdaptor.step, htask, runTask, Bool.false_eq_true, if_false,
          Option.some.injEq] at ht
        rw [← ht]
        exact nodeOps_assign hosd hfree
      have hne : b ≠ a := Nat.ne_of_gt hab
      refine ⟨a, b, hne.symm, ⟨hfollows.1, ?_⟩, (hnode a).mpr (.inl rfl), ?_, ?_⟩
      · show (t.ops a).object = (t.ops b).object
        rw [hobject a (hab.trans hlt), hobject b hlt, hfollows.2]
      · show Function.update h.lastSend a (h.sends + 1) b <
          Function.update h.lastSend a (h.sends + 1) a
        have hstamped := hinv.stamped b
        rw [Function.update_self, Function.update_of_ne hne]
        omega
      · obtain hreached | hreached := hreached
        · exact .inl ((hnode b).mpr (.inr hreached))
        · obtain ⟨n, hn⟩ := Option.ne_none_iff_exists'.mp hreached
          refine .inr ?_
          show h.answered b = some (Function.update h.lastSend a (h.sends + 1) b)
          rw [Function.update_of_ne hne, hn, (hinv.answer b n hn).1]

/-- After an op was sent past a later one, successes for both are out of order. -/
theorem unordered_of_sent_past (cfg : Config) {a b : OpId} (hne : a ≠ b)
    (hfollows : h.Follows a b) (ha : a ∈ h.state.nodeOps) (hlast : h.lastSend b < h.lastSend a)
    (hb : b ∈ h.state.nodeOps ∨ h.answered b = some (h.lastSend b)) :
    ∃ h', Reach (History.step cfg) anyEvent h h' ∧ ¬ h'.Ordered := by
  -- the later op succeeds first, unless it already has
  obtain hb | hb := hb
  · obtain ⟨event, t, hstep, hops, hnode⟩ := exists_success cfg hb
    obtain ⟨event', t', hstep', hops', -⟩ :=
      exists_success cfg (show a ∈ (h.succeed b t).state.nodeOps from hnode a hne ha)
    refine ⟨_, .next (.next .start trivial hstep) trivial hstep', ?_⟩
    intro hordered
    refine absurd (hordered a b _ _ ⟨hfollows.1, ?_⟩ (Function.update_self a _ _) ?_)
      (Nat.lt_asymm hlast)
    · show (t'.ops a).object = (t'.ops b).object
      rw [hops', show (h.succeed b t).state.ops = h.state.ops from hops]
      exact hfollows.2
    · show Function.update (Function.update h.answered b (some (h.lastSend b))) a _ b = _
      rw [Function.update_of_ne hne.symm, Function.update_self]
  · obtain ⟨event, t, hstep, hops, -⟩ := exists_success cfg ha
    refine ⟨_, .next .start trivial hstep, ?_⟩
    intro hordered
    refine absurd (hordered a b _ _ ⟨hfollows.1, ?_⟩ (Function.update_self a _ _) ?_)
      (Nat.lt_asymm hlast)
    · show (t.ops a).object = (t.ops b).object
      rw [hops]
      exact hfollows.2
    · show Function.update h.answered a _ b = _
      rw [Function.update_of_ne hne.symm, hb]

/-! ## The order over a run -/

/-- What is true of every history is true of a reachable one. -/
theorem historyInv_of_reach {ptOk : Pt → Bool} {ok : History → Event → Prop}
    (hreach : Reach (History.step cfg) ok (.init ptOk) h) : HistoryInv h :=
  hreach.invariant HistoryInv (historyInv_init ptOk) fun _ _ _ hinv _ hstep => hinv.step hstep

/-- Sends that overtake no later op keep the order. -/
theorem inOrder_of_reach {ptOk : Pt → Bool}
    (hreach : Reach (History.step cfg) History.NoOvertake (.init ptOk) h) : h.InOrder := by
  have hboth : HistoryInv h ∧ h.InOrder := by
    refine hreach.invariant (fun h => HistoryInv h ∧ h.InOrder) ⟨historyInv_init ptOk, ?_⟩ ?_
    · intro a b hfollows
      exact nomatch hfollows.1
    · intro h event h' hinv hclean hstep
      exact ⟨hinv.1.step hstep, hinv.1.inOrder_step hinv.2 hclean hstep⟩
  exact hboth.2

/-- While no op is sent past a later one on its object, the ops that succeed do so in the order of
their submission; and a send past a later op can always be followed by successes that are out of
order. -/
theorem writes_in_order_iff (cfg : Config) (ptOk : Pt → Bool) :
    (∀ h, Reach (History.step cfg) History.NoOvertake (.init ptOk) h → h.Ordered) ∧
      ∀ h event h', Reach (History.step cfg) anyEvent (.init ptOk) h → ¬ h.NoOvertake event →
        h.step cfg event = some h' →
        ∃ h'', Reach (History.step cfg) anyEvent h' h'' ∧ ¬ h''.Ordered := by
  constructor
  · intro h hreach
    exact (historyInv_of_reach hreach).ordered (inOrder_of_reach hreach)
  · intro h event h' hreach hnot hstep
    obtain ⟨a, b, hne, hfollows, ha, hlast, hb⟩ :=
      (historyInv_of_reach hreach).sent_past hnot hstep
    exact unordered_of_sent_past cfg hne hfollows ha hlast hb

/-- A write is answered with `-EBUSY`, sent again when its partition is back, and only then
followed by another one: both succeed, in order. -/
theorem writes_in_order_after_ebusy :
    ∃ h, Reach (History.step onePool) History.NoOvertake (.init fun _ => true) h ∧
      h.Follows 0 1 ∧ h.answered 0 = some 2 ∧ h.answered 1 = some 3 ∧ h.Ordered := by
  have h : Reach (History.step onePool) History.NoOvertake (.init fun _ => true) _ := Reach.of_run
    [.submit 1 imageObject true, .run 0 nodeTwo false, .run 0 nodeTwo false,
      .reply nodeTwo.osd 1 ⟨-16, false, imageObject, 3⟩, .run 1 nodeTwo false,
      .notify [(⟨1, 3⟩, true)], .deliver 0, .run 2 nodeTwo false, .run 2 nodeTwo false,
      .run 2 nodeTwo false,
      .submit 1 imageObject true, .run 3 nodeTwo false, .run 3 nodeTwo false,
      .reply nodeTwo.osd 2 success, .reply nodeTwo.osd 3 success] rfl
  exact ⟨_, h, by decide, by decide, by decide, (writes_in_order_iff onePool _).1 _ h⟩

/-- Two writes to one object are sent in order. The first is answered with `-EBUSY` and waits for
its partition while the second succeeds; its own success comes from a later send. -/
theorem writes_reordered_by_ebusy :
    ∃ h, Reach (History.step onePool) anyEvent (.init fun _ => true) h ∧
      h.Follows 0 1 ∧ h.answered 0 = some 3 ∧ h.answered 1 = some 2 ∧ ¬ h.Ordered := by
  have h : Reach (History.step onePool) anyEvent (.init fun _ => true) _ := Reach.of_run
    [.submit 1 imageObject true, .run 0 nodeTwo false, .run 0 nodeTwo false,
      .submit 1 imageObject true, .run 1 nodeTwo false, .run 1 nodeTwo false,
      .reply nodeTwo.osd 1 ⟨-16, false, imageObject, 3⟩, .run 2 nodeTwo false,
      .reply nodeTwo.osd 2 success, .ptChange ⟨1, 3⟩ false, .ptChange ⟨1, 3⟩ true, .deliver 0,
      .run 3 nodeTwo false, .run 3 nodeTwo false, .run 3 nodeTwo false,
      .reply nodeTwo.osd 3 success] rfl
  refine ⟨_, h, by decide, by decide, by decide, ?_⟩
  intro hordered
  exact absurd (hordered 0 1 3 2 (by decide) (by decide) (by decide)) (by decide)

end GlobalCacheAdaptor.ClientAdaptor

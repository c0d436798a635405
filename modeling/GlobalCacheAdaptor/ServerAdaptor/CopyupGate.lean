import GlobalCacheAdaptor.Lib.Run
import GlobalCacheAdaptor.ServerAdaptor.ExecClass
import GlobalCacheAdaptor.ServerAdaptor.NetworkModule

/-!
# The copy-up gate as a barrier

A worker hands the messages of its queue to the back end one after another and does not wait for
them, except for copy-ups: `copyupFlag` keeps the next message back until `OSA_ExecClass` has
executed a copy-up of the last gated one. The back end executes the ops of the messages it holds
at any time and in any order, each once.

`copyup_barrier_iff` says on which queues the gate is a barrier, so that no message is handed over
before the copy-ups of all earlier ones are executed: where no message but the last one holds two
copy-ups. The first of two opens the gate, and the next message overtakes the second.
-/

namespace GlobalCacheAdaptor.ServerAdaptor.CopyupGate

open Lib

/-! ## Which messages are gated -/

/-- The op is a call of the copy-up. -/
def IsCopyup (i : OSDOp) : Prop := i.op.op = .call ∧ i.NamesCopyup

/-- A sub-conversion returns 0. -/
theorem ret_of_ofDecoder {i : OSDOp} {optionType : OptionsType} {optionLength : OptionsLength}
    {d : Decoder OpRequestOps} {converted : Converted}
    (h : Converted.ofDecoder i optionType optionLength d = .ok converted) :
    converted.ret = 0 := by
  unfold Converted.ofDecoder at h
  split at h
  · cases h
    rfl
  · cases h

/-- The conversion returns 1 on copy-ups only, and on every one. -/
theorem ret_one_iff {i : OSDOp} {oneOp : OpRequestOps} {optionType : OptionsType}
    {optionLength : OptionsLength} {converted : Converted}
    (h : convertClientopToOpreq i oneOp optionType optionLength = .ok converted) :
    converted.ret = 1 ↔ IsCopyup i := by
  by_cases hcall : i.op.op = .call
  · have hiff := convert_call_ret_iff hcall oneOp optionType optionLength
    rw [h] at hiff
    simpa [IsCopyup, hcall] using hiff
  · refine iff_of_false (fun hret => ?_) fun hcopyup => hcall hcopyup.1
    have hzero : converted.ret = 0 := by
      unfold convertClientopToOpreq at h
      cases hop : i.op.op <;> simp only [hop] at h <;>
        first
          | exact absurd hop hcall
          | exact ret_of_ofDecoder h
          | (cases h; rfl)
    rw [hzero] at hret
    cases hret

/-- The conversion loop remembers whether it met a copy-up. -/
theorem exitsCopyUp_convertOps {name : Bytes} {sections : List Bytes} {isRbd : Bool}
    {ops : List OSDOp} {st st' : LoopState}
    (h : convertOps name sections isRbd ops st = .ok (some st')) :
    st'.exitsCopyUp = true ↔ st.exitsCopyUp = true ∨ ∃ i ∈ ops, IsCopyup i := by
  induction ops generalizing st with
  | nil =>
      cases h
      simp
  | cons i rest ih =>
      simp only [convertOps] at h
      split at h
      · cases h
      · split at h
        · cases h
        · rename_i converted hconverted
          rw [ih h]
          simp [ret_one_iff hconverted, or_assoc]

/-- A request is gated exactly when its message holds a copy-up. -/
theorem exitsCopyUp_iff {op : MOSDOp} {processed : Processed}
    (h : processOpReq op = .ok processed) (hret : processed.ret = 0) :
    processed.opreq.exitsCopyUp = true ↔ ∃ i ∈ op.ops, IsCopyup i := by
  simp only [processOpReq] at h
  split_ifs at h with hshort
  · cases h
    cases hret
  · split at h
    · cases h
    · cases h
      cases hret
    · rename_i st hst
      cases h
      rw [show (completeRequest op st).exitsCopyUp = st.exitsCopyUp from rfl,
        exitsCopyUp_convertOps hst]
      simp

/-! ## Worker and back end -/

/-- A message at the back end: whether its request points at the flag, and the positions of its
calls that were executed. -/
structure Handed where
  op : MOSDOp
  gated : Bool
  executed : List Nat := []

/-- The messages a worker is still to take, over all its batches, its flag, and the messages it has
handed over, oldest first. -/
structure State where
  queue : List MOSDOp
  copyupFlag : Int := 0
  handed : List Handed := []

/-- One scheduling choice. -/
inductive Event where
  /-- The worker takes the next message through `ProcessOpReq`, the gate and `DoOneOps`. -/
  | hand
  /-- The back end calls `OSA_ExecClass` for one op of a message it holds. -/
  | exec (k j : Nat) (env : ClassEnv) (osdop : OpRequestOps)

/-- Hand over the message at the head of the batch. The worker sleeps in front of the gate while
the flag is 1; a message that `ProcessOpReq` does not convert ends there. -/
def hand (s : State) : Option State :=
  match s.queue with
  | [] => none
  | op :: rest =>
      match processOpReq op with
      | .error _ => none
      | .ok processed =>
          if processed.ret ≠ 0 then some { s with queue := rest }
          else if s.copyupFlag = 1 then none
          else some
            { queue := rest
              copyupFlag := if processed.opreq.exitsCopyUp then 1 else s.copyupFlag
              handed := s.handed ++ [⟨op, processed.opreq.exitsCopyUp, []⟩] }

/-- Execute op `j` of message `k`, a call that was not executed yet. A request that is not gated
has a null pointer for the flag. -/
def exec (k j : Nat) (env : ClassEnv) (osdop : OpRequestOps) (s : State) : Option State :=
  match s.handed[k]? with
  | none => none
  | some h =>
      match h.op.ops[j]? with
      | none => none
      | some i =>
          if i.op.op = .call ∧ j ∉ h.executed then
            match osaExecClass env i osdop with
            | .error _ => none
            | .ok executed =>
                if h.gated = false ∧ executed.flagWrites ≠ [] then none
                else some
                  { s with
                    copyupFlag := executed.copyupFlag s.copyupFlag
                    handed := s.handed.set k { h with executed := j :: h.executed } }
          else none

/-- One step of the system. -/
def step (s : State) : Event → Option State
  | .hand => hand s
  | .exec k j env osdop => exec k j env osdop s

/-- Every copy-up of the message is executed. -/
def Handed.Done (h : Handed) : Prop :=
  ∀ j i, h.op.ops[j]? = some i → IsCopyup i → j ∈ h.executed

/-- Of all messages but the last one handed over, every copy-up is executed. -/
def Barrier (s : State) : Prop :=
  ∀ (k : Nat) (h : Handed), s.handed[k]? = some h → k + 1 < s.handed.length → h.Done

/-- The message holds at most one copy-up. -/
def OneCopyup (op : MOSDOp) : Prop :=
  ∀ (j j' : Nat) (i i' : OSDOp), op.ops[j]? = some i → op.ops[j']? = some i' →
    IsCopyup i → IsCopyup i' → j = j'

/-! ## The barrier -/

/-- The messages ahead of the last one hold at most one copy-up; the handed ones ahead of the last
handed one are done, and so is that one unless the flag is 1. -/
structure Inv (s : State) : Prop where
  pending : ∀ op ∈ s.queue.dropLast, OneCopyup op
  single : ∀ (k : Nat) (h : Handed), s.handed[k]? = some h →
    k + 1 < s.handed.length + s.queue.length → OneCopyup h.op
  barrier : Barrier s
  all : s.copyupFlag ≠ 1 → ∀ (k : Nat) (h : Handed), s.handed[k]? = some h →
    k + 1 < s.handed.length + s.queue.length → h.Done

variable {s t : State}

/-- What `hand` does: the message is dropped, or it goes to the back end through the open gate. -/
theorem hand_cases (h : hand s = some t) :
    ∃ op rest processed, s.queue = op :: rest ∧ processOpReq op = .ok processed ∧
      ((processed.ret ≠ 0 ∧ t = { s with queue := rest }) ∨
        (processed.ret = 0 ∧ s.copyupFlag ≠ 1 ∧
          t = ⟨rest, if processed.opreq.exitsCopyUp then 1 else s.copyupFlag,
            s.handed ++ [⟨op, processed.opreq.exitsCopyUp, []⟩]⟩)) := by
  unfold hand at h
  split at h
  · cases h
  · rename_i op rest hqueue
    split at h
    · cases h
    · rename_i processed hprocessed
      refine ⟨op, rest, processed, hqueue, hprocessed, ?_⟩
      by_cases hret : processed.ret ≠ 0
      · rw [if_pos hret] at h
        cases h
        exact .inl ⟨hret, rfl⟩
      · rw [if_neg hret] at h
        by_cases hflag : s.copyupFlag = 1
        · rw [if_pos hflag] at h
          cases h
        · rw [if_neg hflag] at h
          cases h
          exact .inr ⟨not_not.mp hret, hflag, rfl⟩

/-- What `exec` does: one call of a message that was not executed yet is, and the flag is what
`OSA_ExecClass` leaves. -/
theorem exec_cases {k j : Nat} {env : ClassEnv} {osdop : OpRequestOps}
    (h : exec k j env osdop s = some t) :
    ∃ message i executed, s.handed[k]? = some message ∧ message.op.ops[j]? = some i ∧
      i.op.op = .call ∧ j ∉ message.executed ∧ osaExecClass env i osdop = .ok executed ∧
      t = { s with
        copyupFlag := executed.copyupFlag s.copyupFlag
        handed := s.handed.set k { message with executed := j :: message.executed } } := by
  unfold exec at h
  split at h
  · cases h
  · rename_i message hmessage
    split at h
    · cases h
    · rename_i i hi
      split_ifs at h with hcall
      split at h
      · cases h
      · rename_i executed hexec
        split_ifs at h
        cases h
        exact ⟨message, i, executed, hmessage, hi, hcall.1, hcall.2, hexec, rfl⟩

/-- What is ahead of the last message of a queue stays so behind one more message. -/
theorem mem_dropLast_cons {op op' : MOSDOp} {rest : List MOSDOp} (h : op' ∈ rest.dropLast) :
    op' ∈ (op :: rest).dropLast := by
  rw [List.dropLast_cons_of_ne_nil]
  · exact List.mem_cons_of_mem op h
  · rintro rfl
    simp at h

/-- An executed op does not undo another one. -/
theorem Handed.Done.cons {h : Handed} (hdone : h.Done) (j : Nat) :
    Handed.Done { h with executed := j :: h.executed } :=
  fun j' i hi hcopyup => List.mem_cons_of_mem j (hdone j' i hi hcopyup)

/-- Handing a message over, or dropping it, keeps the barrier. -/
theorem Inv.hand (h : Inv s) (hstep : CopyupGate.hand s = some t) : Inv t := by
  obtain ⟨op, rest, processed, hqueue, hprocessed, hdropped | ⟨hret, hflag, rfl⟩⟩ :=
    hand_cases hstep
  · obtain ⟨-, rfl⟩ := hdropped
    have hlength : s.queue.length = rest.length + 1 := by rw [hqueue, List.length_cons]
    refine ⟨fun op' hop' => h.pending op' ?_, fun k message hk hlt => ?_, h.barrier,
      fun hopen k message hk hlt => ?_⟩
    · rw [hqueue]
      exact mem_dropLast_cons hop'
    · exact h.single k message hk (by simp only at hlt; omega)
    · exact h.all hopen k message hk (by simp only at hlt; omega)
  · have hlength : s.queue.length = rest.length + 1 := by rw [hqueue, List.length_cons]
    have hold {k : Nat} {message : Handed}
        (hk : (s.handed ++ [⟨op, processed.opreq.exitsCopyUp, []⟩])[k]? = some message) :
        (k < s.handed.length ∧ s.handed[k]? = some message) ∨
          (k = s.handed.length ∧ message = ⟨op, processed.opreq.exitsCopyUp, []⟩) := by
      rw [List.getElem?_append] at hk
      split_ifs at hk with hlt
      · exact .inl ⟨hlt, hk⟩
      · have hzero : k - s.handed.length = 0 := by
          by_contra hne
          simp [hne] at hk
        rw [hzero] at hk
        exact .inr ⟨by omega, (Option.some.inj hk).symm⟩
    refine ⟨?_, ?_, ?_, ?_⟩
    · intro op' hop'
      refine h.pending op' ?_
      rw [hqueue]
      exact mem_dropLast_cons hop'
    · intro k message hk hlt
      simp only [List.length_append, List.length_cons, List.length_nil] at hlt
      rcases hold hk with ⟨-, hk⟩ | ⟨rfl, rfl⟩
      · exact h.single k message hk (by omega)
      · have hrest : rest ≠ [] := by
          rintro rfl
          simp at hlt
        exact h.pending op (by rw [hqueue, List.dropLast_cons_of_ne_nil hrest]; simp)
    · intro k message hk hlt
      simp only [List.length_append, List.length_cons, List.length_nil] at hlt
      rcases hold hk with ⟨-, hk⟩ | ⟨rfl, -⟩
      · exact h.all hflag k message hk (by omega)
      · omega
    · intro hopen k message hk hlt
      rcases hold hk with ⟨hlt', hk⟩ | ⟨-, rfl⟩
      · exact h.all hflag k message hk (by omega)
      · -- the gate stays open only behind a message without a copy-up
        intro j i hi hcopyup
        have hexits := (exitsCopyUp_iff hprocessed hret).mpr
          ⟨i, List.mem_of_getElem? hi, hcopyup⟩
        exact absurd (if_pos hexits) hopen

/-- Executing an op keeps the barrier: a copy-up that opens the gate is one of the last message
handed over, and its only one if a message follows. -/
theorem Inv.exec {k j : Nat} {env : ClassEnv} {osdop : OpRequestOps} (h : Inv s)
    (hstep : CopyupGate.exec k j env osdop s = some t) : Inv t := by
  obtain ⟨message, i, executed, hmessage, hi, hcall, hnew, hexec, rfl⟩ := exec_cases hstep
  have hlt : k < s.handed.length := (List.getElem?_eq_some_iff.mp hmessage).1
  have hold {k' : Nat} {message' : Handed}
      (hk : (s.handed.set k { message with executed := j :: message.executed })[k']? =
        some message') :
      (k' ≠ k ∧ s.handed[k']? = some message') ∨
        (k' = k ∧ message' = { message with executed := j :: message.executed }) := by
    rcases eq_or_ne k' k with rfl | hne
    · rw [List.getElem?_set_self hlt] at hk
      exact .inr ⟨rfl, (Option.some.inj hk).symm⟩
    · rw [List.getElem?_set_ne hne.symm] at hk
      exact .inl ⟨hne, hk⟩
  refine ⟨h.pending, ?_, ?_, ?_⟩
  · intro k' message' hk hlt'
    rw [List.length_set] at hlt'
    rcases hold hk with ⟨-, hk⟩ | ⟨rfl, rfl⟩
    · exact h.single k' message' hk hlt'
    · exact h.single k' message hmessage hlt'
  · intro k' message' hk hlt'
    rw [List.length_set] at hlt'
    rcases hold hk with ⟨-, hk⟩ | ⟨rfl, rfl⟩
    · exact h.barrier k' message' hk hlt'
    · exact (h.barrier k' message hmessage hlt').cons j
  · intro hopen k' message' hk hlt'
    rw [List.length_set] at hlt'
    by_cases hflag : s.copyupFlag = 1
    · -- the gate was opened by this op, so it is a copy-up, and of the last message
      have hwrites : executed.flagWrites ≠ [] := by
        intro hnil
        exact hopen (by simp [Executed.copyupFlag, hnil, hflag])
      have hcopyup : IsCopyup i := ⟨hcall, namesCopyup_of_flagWrites hexec hwrites⟩
      have hlast : ¬k + 1 < s.handed.length :=
        fun hlt' => hnew (h.barrier k message hmessage hlt' j i hi hcopyup)
      rcases hold hk with ⟨hne, hk⟩ | ⟨rfl, rfl⟩
      · have hk' := (List.getElem?_eq_some_iff.mp hk).1
        exact h.barrier k' message' hk (by omega)
      · intro j' i' hi' hcopyup'
        have hsame := h.single k' message hmessage hlt' j' j i' i hi' hi hcopyup' hcopyup
        exact hsame ▸ List.mem_cons_self
    · rcases hold hk with ⟨-, hk⟩ | ⟨rfl, rfl⟩
      · exact h.all hflag k' message' hk hlt'
      · exact (h.all hflag k' message hmessage hlt').cons j

/-- A worker that has taken no message yet. -/
def start (queue : List MOSDOp) : State := { queue }

/-- Every run over a queue whose messages ahead of the last one hold at most one copy-up keeps the
barrier. -/
theorem inv_of_reach {queue : List MOSDOp} (hsingle : ∀ op ∈ queue.dropLast, OneCopyup op)
    (h : Reach step anyEvent (start queue) s) : Inv s := by
  refine h.invariant Inv ?_ ?_
  · refine ⟨hsingle, ?_, ?_, ?_⟩ <;> simp [start, Barrier]
  · intro s event t hs _ hstep
    cases event with
    | hand => exact hs.hand hstep
    | exec k j env osdop => exact hs.exec hstep

/-! ## A message with two copy-ups -/

/-- The message is converted, and its copy-ups carry what their headers announce. -/
def Accepted (op : MOSDOp) : Prop :=
  ∃ processed, processOpReq op = .ok processed ∧ processed.ret = 0 ∧
    ∀ i ∈ op.ops, IsCopyup i → i.CallFits

/-- With the gate open, a converted message is handed over. -/
theorem hand_of_open {op : MOSDOp} {rest : List MOSDOp} {processed : Processed}
    (hqueue : s.queue = op :: rest) (hprocessed : processOpReq op = .ok processed)
    (hret : processed.ret = 0) (hopen : s.copyupFlag ≠ 1) :
    hand s = some
      { queue := rest
        copyupFlag := if processed.opreq.exitsCopyUp then 1 else s.copyupFlag
        handed := s.handed ++ [⟨op, processed.opreq.exitsCopyUp, []⟩] } := by
  simp [hand, hqueue, hprocessed, hret, hopen]

/-- A copy-up of a gated message that is yet to be executed opens the gate. -/
theorem exec_of_copyup {k j : Nat} {message : Handed} {i : OSDOp}
    (hmessage : s.handed[k]? = some message) (hi : message.op.ops[j]? = some i)
    (hcopyup : IsCopyup i) (hfits : i.CallFits) (hnew : j ∉ message.executed)
    (hgated : message.gated = true) (env : ClassEnv) (osdop : OpRequestOps) :
    exec k j env osdop s = some
      { s with
        copyupFlag := 0
        handed := s.handed.set k { message with executed := j :: message.executed } } := by
  obtain ⟨executed, hexec, hwrites⟩ := osaExecClass_of_copyup hfits hcopyup.2 env osdop
  simp [exec, hmessage, hi, hcopyup.1, hnew, hexec, hgated, Executed.copyupFlag, hwrites]

/-- Hand a message over and execute one of its copy-ups, if it has any: the gate is open again. -/
theorem reach_past {op : MOSDOp} {rest : List MOSDOp} (hqueue : s.queue = op :: rest)
    (haccepted : Accepted op) (hopen : s.copyupFlag ≠ 1) :
    (∀ j i, op.ops[j]? = some i → IsCopyup i →
      ∃ t, Reach step anyEvent s t ∧ t.queue = rest ∧ t.copyupFlag ≠ 1 ∧
        t.handed = s.handed ++ [⟨op, true, [j]⟩]) ∧
    ((∀ i ∈ op.ops, ¬IsCopyup i) →
      ∃ t, Reach step anyEvent s t ∧ t.queue = rest ∧ t.copyupFlag ≠ 1) := by
  obtain ⟨processed, hprocessed, hret, hfits⟩ := haccepted
  have hhand := hand_of_open hqueue hprocessed hret hopen
  have hexits := exitsCopyUp_iff hprocessed hret
  constructor
  · intro j i hi hcopyup
    have hi' := List.mem_of_getElem? hi
    have hgated : processed.opreq.exitsCopyUp = true := hexits.mpr ⟨i, hi', hcopyup⟩
    rw [hgated] at hhand
    let middle : State := ⟨rest, 1, s.handed ++ [⟨op, true, []⟩]⟩
    have hhand' : step s .hand = some middle := hhand
    have hmessage : middle.handed[s.handed.length]? = some ⟨op, true, []⟩ := by simp [middle]
    let env : ClassEnv := ⟨fun _ _ => 0, (0, []), fun _ => 0, fun _ => 0, fun _ _ => false,
      fun _ _ _ => (0, [])⟩
    let osdop : OpRequestOps := { opSubType := .call }
    have hexec : step middle (.exec s.handed.length j env osdop) = some _ :=
      exec_of_copyup hmessage hi hcopyup (hfits i hi' hcopyup) (by simp) rfl env osdop
    refine ⟨_, .next (.next .start trivial hhand') trivial hexec, rfl, by simp, ?_⟩
    simp [middle]
  · intro hnone
    have hgated : processed.opreq.exitsCopyUp = false := by
      rw [Bool.eq_false_iff, Ne, hexits]
      rintro ⟨i, hi, hcopyup⟩
      exact hnone i hi hcopyup
    rw [hgated] at hhand
    have hhand' : step s .hand = some _ := hhand
    exact ⟨_, .next .start trivial hhand', rfl, by simpa using hopen⟩

/-- Some run takes the messages ahead of a given one with the gate left open. -/
theorem reach_behind {ahead rest : List MOSDOp} (hqueue : s.queue = ahead ++ rest)
    (haccepted : ∀ op ∈ ahead, Accepted op) (hopen : s.copyupFlag ≠ 1) :
    ∃ t, Reach step anyEvent s t ∧ t.queue = rest ∧ t.copyupFlag ≠ 1 := by
  induction ahead generalizing s with
  | nil => exact ⟨s, .start, hqueue, hopen⟩
  | cons op ahead ih =>
      obtain ⟨hop, hahead⟩ := List.forall_mem_cons.mp haccepted
      obtain ⟨hcopyup, hnone⟩ := reach_past hqueue hop hopen
      have hpast : ∃ t, Reach step anyEvent s t ∧ t.queue = ahead ++ rest ∧
          t.copyupFlag ≠ 1 := by
        by_cases hex : ∃ i ∈ op.ops, IsCopyup i
        · obtain ⟨i, hi, his⟩ := hex
          obtain ⟨j, hj⟩ := List.getElem?_of_mem hi
          obtain ⟨t, ht, hq, hflag, -⟩ := hcopyup j i hj his
          exact ⟨t, ht, hq, hflag⟩
        · exact hnone fun i hi his => hex ⟨i, hi, his⟩
      obtain ⟨t, ht, hq, hflag⟩ := hpast
      obtain ⟨t', ht', hdone⟩ := ih hq hahead hflag
      exact ⟨t', ht.trans ht', hdone⟩

/-- Two copy-ups of a message that another one follows: once the second of them is executed, the
next message overtakes the first. -/
theorem overtaken {op op' : MOSDOp} {rest : List MOSDOp} (hqueue : s.queue = op :: op' :: rest)
    (haccepted : Accepted op) (haccepted' : Accepted op') (hopen : s.copyupFlag ≠ 1)
    {j j' : Nat} {i i' : OSDOp} (hi : op.ops[j]? = some i) (hi' : op.ops[j']? = some i')
    (hcopyup : IsCopyup i) (hcopyup' : IsCopyup i') (hne : j ≠ j') :
    ∃ t, Reach step anyEvent s t ∧ ¬Barrier t := by
  obtain ⟨t, ht, hq, hflag, hhanded⟩ :=
    (reach_past hqueue haccepted hopen).1 j' i' hi' hcopyup'
  obtain ⟨processed, hprocessed, hret, -⟩ := haccepted'
  have hhand : step t .hand = some _ := hand_of_open hq hprocessed hret hflag
  refine ⟨_, ht.next trivial hhand, fun hbarrier => ?_⟩
  have hdone := hbarrier s.handed.length ⟨op, true, [j']⟩ (by simp [hhanded]) (by simp [hhanded])
  exact hne (List.mem_singleton.mp (hdone j i hi hcopyup))

/-- Over a queue of accepted messages, the gate is a barrier in every run exactly when no message
but the last one holds two copy-ups. -/
theorem copyup_barrier_iff {queue : List MOSDOp} (haccepted : ∀ op ∈ queue, Accepted op) :
    (∀ s, Reach step anyEvent (start queue) s → Barrier s) ↔
      ∀ op ∈ queue.dropLast, OneCopyup op := by
  refine ⟨fun h op hop => ?_, fun hsingle s hs => (inv_of_reach hsingle hs).barrier⟩
  intro j j' i i' hi hi' hcopyup hcopyup'
  by_contra hne
  -- the message and the one behind it
  obtain ⟨ahead, behind, hsplit⟩ := List.append_of_mem hop
  have hqueue : queue ≠ [] := by
    rintro rfl
    simp at hop
  have hwhole : queue = ahead ++ op :: (behind ++ [queue.getLast hqueue]) := by
    conv_lhs => rw [← List.dropLast_append_getLast hqueue, hsplit]
    simp
  obtain ⟨op', rest, hrest⟩ := List.exists_cons_of_ne_nil
    (show behind ++ [queue.getLast hqueue] ≠ [] by simp)
  rw [hrest] at hwhole
  obtain ⟨t, ht, hq, hflag⟩ := @reach_behind (start queue) ahead (op :: op' :: rest)
    hwhole (fun op₁ h₁ => haccepted op₁ (by rw [hwhole]; simp [h₁])) (by simp [start])
  obtain ⟨t', ht', hnot⟩ := overtaken hq
    (haccepted op (by rw [hwhole]; simp)) (haccepted op' (by rw [hwhole]; simp)) hflag
    hi hi' hcopyup hcopyup' hne
  exact hnot (h t' (ht.trans ht'))

/-- A message of empty copy-ups. -/
def copyups (n : Nat) : MOSDOp :=
  { oid := ascii "rbd_header.1", ops := List.replicate n emptyCopyup }

/-- Messages of one or two empty copy-ups are accepted. -/
theorem accepted_copyups {n : Nat} (hn : n = 1 ∨ n = 2) : Accepted (copyups n) := by
  have hfits : ∀ i ∈ (copyups n).ops, IsCopyup i → i.CallFits := by
    intro i hi _
    rw [List.eq_of_mem_replicate hi]
    unfold OSDOp.CallFits
    decide
  rcases hn with rfl | rfl
  · exact ⟨_, rfl, rfl, hfits⟩
  · exact ⟨_, rfl, rfl, hfits⟩

/-- Two copy-ups behind one are kept in order, two copy-ups ahead of one are not. -/
theorem copyup_barrier_twoCopyups :
    (∀ s, Reach step anyEvent (start [copyups 1, copyups 2]) s → Barrier s) ∧
      ∃ s, Reach step anyEvent (start [copyups 2, copyups 1]) s ∧ ¬Barrier s := by
  constructor
  · refine (copyup_barrier_iff ?_).mpr ?_
    · simp [accepted_copyups]
    · intro op hop j j' i i' hi hi' _ _
      obtain rfl : op = copyups 1 := by simpa using hop
      have hlt := (List.getElem?_eq_some_iff.mp hi).1
      have hlt' := (List.getElem?_eq_some_iff.mp hi').1
      simp only [copyups, List.length_replicate] at hlt hlt'
      omega
  · have hiff := @copyup_barrier_iff [copyups 2, copyups 1] (by simp [accepted_copyups])
    have hcopyup : IsCopyup emptyCopyup := ⟨rfl, by unfold OSDOp.NamesCopyup; decide⟩
    have htwo : ¬OneCopyup (copyups 2) := fun h =>
      absurd (h 0 1 emptyCopyup emptyCopyup rfl rfl hcopyup hcopyup) (by decide)
    by_contra hnone
    push Not at hnone
    exact htwo (hiff.mp hnone (copyups 2) (by simp))

/-! ## The pointer to the flag -/

/-- A message at the back end points at the flag exactly when it holds a copy-up. -/
theorem gated_iff_of_reach {queue : List MOSDOp} (h : Reach step anyEvent (start queue) s) :
    ∀ message ∈ s.handed, (message.gated = true ↔ ∃ i ∈ message.op.ops, IsCopyup i) := by
  refine h.invariant
    (fun s => ∀ message ∈ s.handed,
      (message.gated = true ↔ ∃ i ∈ message.op.ops, IsCopyup i)) (by simp [start]) ?_
  intro s event t hs _ hstep
  cases event with
  | hand =>
      obtain ⟨op, rest, processed, -, hprocessed, ⟨-, rfl⟩ | ⟨hret, -, rfl⟩⟩ := hand_cases hstep
      · exact hs
      · intro message hmessage
        rcases List.mem_append.mp hmessage with hold | hnew
        · exact hs message hold
        · rw [List.mem_singleton.mp hnew]
          exact exitsCopyUp_iff hprocessed hret
  | exec k j env osdop =>
      obtain ⟨message, i, executed, hmessage, -, -, -, -, rfl⟩ := exec_cases hstep
      intro message' hmem
      rcases List.mem_or_eq_of_mem_set hmem with hold | rfl
      · exact hs message' hold
      · exact hs message (List.mem_of_getElem? hmessage)

/-- In every run, a call of a message at the back end that stores through the flag does so through
a pointer that its worker set: no request with a null pointer is stored through. -/
theorem flag_store_is_gated {queue : List MOSDOp} (h : Reach step anyEvent (start queue) s)
    {message : Handed} {i : OSDOp} (hmessage : message ∈ s.handed) (hi : i ∈ message.op.ops)
    (hcall : i.op.op = .call) {env : ClassEnv} {osdop : OpRequestOps} {executed : Executed}
    (hexec : osaExecClass env i osdop = .ok executed) (hwrites : executed.flagWrites ≠ []) :
    message.gated = true :=
  (gated_iff_of_reach h message hmessage).mpr
    ⟨i, hi, hcall, namesCopyup_of_flagWrites hexec hwrites⟩

end GlobalCacheAdaptor.ServerAdaptor.CopyupGate

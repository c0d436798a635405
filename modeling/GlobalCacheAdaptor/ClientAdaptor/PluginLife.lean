import GlobalCacheAdaptor.Lib.OrdMap
import GlobalCacheAdaptor.Lib.Run

/-!
# The plugin and the callbacks of Objecters

The first user of a `CephContext` loads the `ClientAdaptorPlugin` into the registry of the context.
`Objecter::init` registers two callbacks with the cluster manager, whose functions are in the
library of the plugin and whose `ctx` is the Objecter, and creates the prefetch module.
`Objecter::shutdown` undoes this and removes the plugin, which is that of every Objecter of the
context.

Read `callbacks_reach_initialized` and `shutdown_dangles_iff`: as long as an Objecter is alone in
its context when it is shut down, the callbacks are those of the initialised Objecters, once each;
a shutdown next to another Objecter leaves a callback of a removed plugin, for good. Removing a
plugin drops one reference to its library: where no other context has it open, what the callback
calls is unmapped as well.
-/

namespace GlobalCacheAdaptor.ClientAdaptor.PluginLife

open Lib

/-! ## The state -/

/-- A `ClientAdaptorPlugin` with its `mgr_ref` and `msg_ref`. The maps `register_objs` and
`register_node_change_objs` are written and erased together: `registerObjs` has the number of the
two handles of each Objecter. -/
structure Plugin where
  id : Nat
  registerObjs : OrdMap Nat Nat := .empty
  initFlag : Bool := false
  dasObjs : OrdMap Nat Unit := .empty
  initialized : Bool := false

/-- A callback that the cluster manager holds: its handle, the Objecter of its `ctx`, and the plugin
whose library has its function. -/
structure Callback where
  handle : Nat
  ctx : Nat
  owner : Nat
  deriving DecidableEq

/-- The plugin of each context, how many were loaded, the initialised Objecters, how many pairs of
handles were made, the two chains of the cluster manager, and the prefetch modules by the plugin
they were created with. -/
structure State where
  plugins : OrdMap Nat Plugin := .empty
  loaded : Nat := 0
  initialized : OrdMap Nat Unit := .empty
  handles : Nat := 0
  viewChain : List Callback := []
  nodeViewChain : List Callback := []
  dasModules : List Nat := []
  aborted : Bool := false

/-- `get_with_load`: the plugin of the context, loaded if there is none. -/
def State.getWithLoad (s : State) (context : Nat) (loads : Bool) : Option (Plugin × State) :=
  match s.plugins.find? context with
  | some plugin => some (plugin, s)
  | none =>
      if loads then
        let plugin : Plugin := { id := s.loaded }
        some (plugin, { s with
          plugins := s.plugins.insert context plugin
          loaded := s.loaded + 1 })
      else none

/-- What `Objecter::init` meets: whether the plugin can be loaded, what the cluster manager and the
prefetch library return, and whether the option `global_cache` is set. -/
structure InitReplies where
  loads : Bool := true
  openBcmInit : Int := 0
  registerView : Int := 0
  registerNodeView : Int := 0
  globalCache : Bool := true
  createDasModule : Int := 0
  deriving DecidableEq

/-! ## Registering -/

/-- `RET_OK`, `RET_CCM_AGENT_INIT_ERROR` and `RET_CCM_REGISTER_ERROR`. -/
def retOk : Int := 0

@[inherit_doc retOk]
def retCcmAgentInitError : Int := 5

@[inherit_doc retOk]
def retCcmRegisterError : Int := 9

/-- `ccm_callback_register`. -/
def ccmCallbackRegister (plugin : Plugin) (obj : Nat) (replies : InitReplies) (s : State) :
    Bool × Plugin × State :=
  let callback : Callback := ⟨s.handles, obj, plugin.id⟩
  let plugin := { plugin with registerObjs := plugin.registerObjs.insert obj s.handles }
  let s := { s with handles := s.handles + 1 }
  if replies.registerView ≠ 0 then (false, plugin, s)
  else
    let s := { s with viewChain := s.viewChain ++ [callback] }
    if replies.registerNodeView ≠ 0 then (false, plugin, s)
    else (true, plugin, { s with nodeViewChain := s.nodeViewChain ++ [callback] })

/-- `init_mgr`. -/
def initMgr (plugin : Plugin) (obj : Nat) (replies : InitReplies) (s : State) :
    Int × Plugin × State :=
  if plugin.initFlag = false ∧ replies.openBcmInit ≠ 0 then (retCcmAgentInitError, plugin, s)
  else
    let registered := ccmCallbackRegister plugin obj replies s
    (if registered.1 then retOk else retCcmRegisterError, registered.2)

/-- `das_init`; its result is only logged. -/
def dasInit (plugin : Plugin) (obj : Nat) (replies : InitReplies) (s : State) : Plugin × State :=
  let plugin := { plugin with dasObjs := plugin.dasObjs.insert obj () }
  if plugin.initialized then (plugin, s)
  else if replies.createDasModule ≠ 0 then (plugin, s)
  else ({ plugin with initialized := true }, { s with dasModules := s.dasModules ++ [plugin.id] })

/-- `das_remove`. -/
def dasRemove (plugin : Plugin) (obj : Nat) (s : State) : Plugin × State :=
  let plugin := { plugin with dasObjs := plugin.dasObjs.erase obj }
  if plugin.dasObjs.entries.isEmpty && plugin.initialized then
    ({ plugin with initialized := false },
      { s with dasModules := s.dasModules.filter fun id => decide (id ≠ plugin.id) })
  else (plugin, s)

/-- `ccm_deregister`; the cluster manager drops the callback of a handle. -/
def ccmDeregister (plugin : Plugin) (obj : Nat) (s : State) : Plugin × State :=
  let erased : Plugin × State :=
    match plugin.registerObjs.find? obj with
    | some handle =>
        ({ plugin with registerObjs := plugin.registerObjs.erase obj }, { s with
          viewChain := s.viewChain.filter fun e => decide (e.handle ≠ handle)
          nodeViewChain := s.nodeViewChain.filter fun e => decide (e.handle ≠ handle) })
    | none => (plugin, s)
  if erased.1.registerObjs.entries.isEmpty && erased.1.initFlag then
    ({ erased.1 with initFlag := false }, erased.2)
  else erased

/-! ## Objecters -/

-- the `CephContext` that each Objecter was made with
variable (cct : Nat → Nat)

/-- `Objecter::init`, as far as the plugin goes. -/
def objecterInit (s : State) (obj : Nat) (replies : InitReplies) : State :=
  match s.getWithLoad (cct obj) replies.loads with
  | none => { s with aborted := true }
  | some (plugin, s) =>
      let made := initMgr plugin obj replies s
      if made.1 ≠ retOk then { made.2.2 with aborted := true }
      else
        let plugin := { made.2.1 with initFlag := true }
        let ready :=
          if replies.globalCache then dasInit plugin obj replies made.2.2 else (plugin, made.2.2)
        { ready.2 with
          plugins := ready.2.plugins.insert (cct obj) ready.1
          initialized := ready.2.initialized.insert obj () }

/-- `Objecter::shutdown`, as far as the plugin goes. -/
def objecterShutdown (s : State) (obj : Nat) (loads : Bool) : State :=
  match s.getWithLoad (cct obj) loads with
  | none => { s with aborted := true }
  | some (plugin, s) =>
      let dropped := dasRemove plugin obj s
      let gone := ccmDeregister dropped.1 obj dropped.2
      -- `remove` deletes the plugin with what it knows of other Objecters
      { gone.2 with
        plugins := gone.2.plugins.erase (cct obj)
        initialized := gone.2.initialized.erase obj }

/-- The calls that load or remove the plugin. -/
inductive Event where
  | init (obj : Nat) (replies : InitReplies)
  | shutdown (obj : Nat) (loads : Bool)
  /-- Any other function that asks for the plugin of a context. -/
  | use (context : Nat) (loads : Bool)
  deriving DecidableEq

/-- One call. An initialised Objecter is not initialised again, and only such a one is shut down. -/
def step (s : State) : Event → Option State
  | .init obj replies =>
      if s.aborted ∨ (s.initialized.find? obj).isSome then none
      else some (objecterInit cct s obj replies)
  | .shutdown obj loads =>
      if s.aborted ∨ (s.initialized.find? obj).isNone then none
      else some (objecterShutdown cct s obj loads)
  | .use context loads =>
      if s.aborted then none else some ((s.getWithLoad context loads).elim s Prod.snd)

/-- An Objecter is shut down when no other one of its context is initialised. -/
def alone (s : State) : Event → Prop
  | .shutdown obj _ => ∀ e ∈ s.initialized.entries, cct e.1 = cct obj → e.1 = obj
  | .init _ _ | .use _ _ => True

instance (s : State) (event : Event) : Decidable (alone cct s event) :=
  match event with
  | .shutdown obj _ =>
      inferInstanceAs (Decidable (∀ e ∈ s.initialized.entries, cct e.1 = cct obj → e.1 = obj))
  | .init _ _ | .use _ _ => inferInstanceAs (Decidable True)

/-! ## What the calls do -/

/-- The plugin is there, or it is loaded. -/
theorem getWithLoad_cases {s s' : State} {context : Nat} {loads : Bool} {plugin : Plugin}
    (h : s.getWithLoad context loads = some (plugin, s')) :
    (s.plugins.find? context = some plugin ∧ s' = s) ∨
    (s.plugins.find? context = none ∧ plugin = { id := s.loaded } ∧
      s' = { s with
        plugins := s.plugins.insert context { id := s.loaded }, loaded := s.loaded + 1 }) := by
  unfold State.getWithLoad at h
  split at h
  · rename_i found hfind
    cases h
    exact .inl ⟨hfind, rfl⟩
  · rename_i hfind
    split_ifs at h
    cases h
    exact .inr ⟨hfind, rfl, rfl⟩

/-- The registry then holds it. -/
theorem find?_of_getWithLoad {s s' : State} {context : Nat} {loads : Bool} {plugin : Plugin}
    (h : s.getWithLoad context loads = some (plugin, s')) :
    s'.plugins.find? context = some plugin := by
  rcases getWithLoad_cases h with ⟨hfind, rfl⟩ | ⟨-, rfl, rfl⟩
  · exact hfind
  · show (s.plugins.insert context _).find? context = _
    rw [OrdMap.find?_insert, if_pos rfl]

/-- What `init` makes of the plugin of its context and of the prefetch modules. -/
structure Readied (plugin : Plugin) (obj handle : Nat) (modules : List Nat) (ready : Plugin)
    (modules' : List Nat) : Prop where
  id : ready.id = plugin.id
  registerObjs : ready.registerObjs = plugin.registerObjs.insert obj handle
  dasObjs : ∀ other, (ready.dasObjs.find? other).isSome →
    other = obj ∨ (plugin.dasObjs.find? other).isSome
  stays : plugin.initialized = true → ready.initialized = true
  modules : ∀ id ∈ modules', id ∈ modules ∨ (id = plugin.id ∧ ready.initialized = true)

/-- What `das_init` does. -/
theorem dasInit_cases (plugin : Plugin) (obj : Nat) (replies : InitReplies) (s : State) :
    ∃ ready modules, dasInit plugin obj replies s = (ready, { s with dasModules := modules }) ∧
      ready.id = plugin.id ∧ ready.registerObjs = plugin.registerObjs ∧
      ready.dasObjs = plugin.dasObjs.insert obj () ∧
      (plugin.initialized = true → ready.initialized = true) ∧
      ∀ id ∈ modules, id ∈ s.dasModules ∨ (id = plugin.id ∧ ready.initialized = true) := by
  unfold dasInit
  dsimp only
  split_ifs with hinit
  · exact ⟨_, s.dasModules, rfl, rfl, rfl, rfl, id, fun id hmem => .inl hmem⟩
  · exact ⟨_, s.dasModules, rfl, rfl, rfl, rfl, id, fun id hmem => .inl hmem⟩
  · refine ⟨_, s.dasModules ++ [plugin.id], rfl, rfl, rfl, rfl, fun _ => rfl, ?_⟩
    intro id hmem
    rcases List.mem_append.mp hmem with hold | hnew
    · exact .inl hold
    · exact .inr ⟨List.mem_singleton.mp hnew, rfl⟩

/-- The process aborts, or both callbacks of the Objecter are registered. -/
theorem init_cases (s : State) (obj : Nat) (replies : InitReplies) :
    (objecterInit cct s obj replies).aborted = true ∨
    ∃ plugin s', s.getWithLoad (cct obj) replies.loads = some (plugin, s') ∧
      ∃ ready modules, Readied plugin obj s'.handles s'.dasModules ready modules ∧
        objecterInit cct s obj replies = { s' with
          plugins := s'.plugins.insert (cct obj) ready
          initialized := s'.initialized.insert obj ()
          handles := s'.handles + 1
          viewChain := s'.viewChain ++ [⟨s'.handles, obj, plugin.id⟩]
          nodeViewChain := s'.nodeViewChain ++ [⟨s'.handles, obj, plugin.id⟩]
          dasModules := modules } := by
  unfold objecterInit
  cases hload : s.getWithLoad (cct obj) replies.loads with
  | none => exact .inl rfl
  | some loaded =>
      obtain ⟨plugin, s'⟩ := loaded
      by_cases hbcm : plugin.initFlag = false ∧ replies.openBcmInit ≠ 0
      · left
        simp [initMgr, hbcm, retCcmAgentInitError, retOk]
      · by_cases hview : replies.registerView ≠ 0
        · left
          simp [initMgr, hbcm, ccmCallbackRegister, hview, retCcmRegisterError, retOk]
        · by_cases hnode : replies.registerNodeView ≠ 0
          · left
            simp [initMgr, hbcm, ccmCallbackRegister, hview, hnode, retCcmRegisterError, retOk]
          · right
            refine ⟨plugin, s', rfl, ?_⟩
            rw [ne_eq, not_not] at hview hnode
            simp only [initMgr, if_neg hbcm, ccmCallbackRegister, hview, hnode, ne_eq,
              not_true_eq_false, if_false, if_true]
            obtain ⟨made, hmade⟩ : ∃ made : Plugin, made = { plugin with
                registerObjs := plugin.registerObjs.insert obj s'.handles
                initFlag := true } := ⟨_, rfl⟩
            have hid : made.id = plugin.id := by rw [hmade]
            have hregister : made.registerObjs = plugin.registerObjs.insert obj s'.handles := by
              rw [hmade]
            have hobjs : made.dasObjs = plugin.dasObjs := by rw [hmade]
            have hinit : made.initialized = plugin.initialized := by rw [hmade]
            simp only [← hmade]
            cases hcache : replies.globalCache with
            | true =>
                obtain ⟨ready, modules, hdas, hid', hregister', hobjs', hstays, hmodules⟩ :=
                  dasInit_cases made obj replies { s' with
                    handles := s'.handles + 1
                    viewChain := s'.viewChain ++ [⟨s'.handles, obj, plugin.id⟩]
                    nodeViewChain := s'.nodeViewChain ++ [⟨s'.handles, obj, plugin.id⟩] }
                refine ⟨ready, modules, ⟨hid'.trans hid, hregister'.trans hregister, ?_,
                  fun hold => hstays (hinit.trans hold), ?_⟩, ?_⟩
                · intro other hother
                  rw [hobjs', hobjs, OrdMap.find?_insert] at hother
                  split_ifs at hother with heq
                  · exact .inl heq
                  · exact .inr hother
                · rw [← hid]
                  exact hmodules
                · simp only [hdas, if_true]
            | false =>
                refine ⟨made, s'.dasModules, ⟨hid, hregister, ?_, fun hold => hinit.trans hold,
                  fun id hmem => .inl hmem⟩, ?_⟩
                · intro other hother
                  rw [hobjs] at hother
                  exact .inr hother
                · simp only [Bool.false_eq_true, if_false]

/-- A chain without the callback of a handle. -/
def dropHandle (handle : Option Nat) (chain : List Callback) : List Callback :=
  chain.filter fun e => decide (some e.handle ≠ handle)

/-- The prefetch modules without that of a plugin that has no Objecter left. -/
def dropModule (plugin : Plugin) (obj : Nat) (modules : List Nat) : List Nat :=
  if (plugin.dasObjs.erase obj).entries.isEmpty && plugin.initialized then
    modules.filter fun id => decide (id ≠ plugin.id)
  else modules

/-- What `shutdown` does. -/
theorem shutdown_eq {s s' : State} {obj : Nat} {loads : Bool} {plugin : Plugin}
    (hload : s.getWithLoad (cct obj) loads = some (plugin, s')) :
    objecterShutdown cct s obj loads = { s' with
      plugins := s'.plugins.erase (cct obj)
      initialized := s'.initialized.erase obj
      viewChain := dropHandle (plugin.registerObjs.find? obj) s'.viewChain
      nodeViewChain := dropHandle (plugin.registerObjs.find? obj) s'.nodeViewChain
      dasModules := dropModule plugin obj s'.dasModules } := by
  have hdas : ∃ dropped : Plugin, dasRemove plugin obj s' =
      (dropped, { s' with dasModules := dropModule plugin obj s'.dasModules }) ∧
      dropped.registerObjs = plugin.registerObjs := by
    unfold dasRemove dropModule
    dsimp only
    split_ifs
    · exact ⟨_, rfl, rfl⟩
    · exact ⟨_, rfl, rfl⟩
  obtain ⟨dropped, hdropped, hobjs⟩ := hdas
  have hall : ∀ chain : List Callback, dropHandle none chain = chain := by
    intro chain
    simp [dropHandle]
  unfold objecterShutdown
  rw [hload]
  simp only [hdropped, ccmDeregister, hobjs]
  cases hfind : plugin.registerObjs.find? obj with
  | none =>
      simp only [hall]
      split_ifs <;> rfl
  | some handle =>
      simp only [dropHandle, ne_eq, Option.some.injEq]
      split_ifs <;> rfl

/-! ## While Objecters are shut down alone -/

/-- The invariant: the callbacks of the cluster manager are what the plugins know to be registered,
and these are the initialised Objecters, each with the plugin of its context. -/
structure Inv (s : State) : Prop where
  fresh : ∀ c p, s.plugins.find? c = some p → p.id < s.loaded
  distinct : ∀ c c' p p', s.plugins.find? c = some p → s.plugins.find? c' = some p' →
    p.id = p'.id → c = c'
  handles : ∀ e ∈ s.viewChain, e.handle < s.handles
  once : (s.viewChain.map Callback.handle).Nodup
  ctxs : (s.viewChain.map Callback.ctx).Nodup
  same : s.nodeViewChain = s.viewChain
  chain : ∀ e ∈ s.viewChain, ∃ p, s.plugins.find? (cct e.ctx) = some p ∧ p.id = e.owner ∧
    p.registerObjs.find? e.ctx = some e.handle
  registered : ∀ c p obj handle, s.plugins.find? c = some p →
    p.registerObjs.find? obj = some handle → cct obj = c ∧ ⟨handle, obj, p.id⟩ ∈ s.viewChain
  initialized : ∀ obj, (s.initialized.find? obj).isSome ↔ obj ∈ s.viewChain.map Callback.ctx
  das : ∀ id ∈ s.dasModules, ∃ c p, s.plugins.find? c = some p ∧ p.id = id ∧ p.initialized = true
  dasObjs : ∀ c p obj, s.plugins.find? c = some p → (p.dasObjs.find? obj).isSome →
    cct obj = c ∧ (s.initialized.find? obj).isSome

theorem inv_init : Inv cct {} :=
  ⟨by simp, by simp, by simp, by simp, by simp, rfl, by simp, by simp, by simp, by simp, by simp⟩

variable {cct} {s t : State}

/-- A lookup after a change at one context. -/
theorem find?_insert_cases {plugins : OrdMap Nat Plugin} {c c' : Nat} {ready p : Plugin}
    (h : (plugins.insert c ready).find? c' = some p) :
    (c' = c ∧ p = ready) ∨ (c' ≠ c ∧ plugins.find? c' = some p) := by
  rw [OrdMap.find?_insert] at h
  split_ifs at h with heq
  · cases h
    exact .inl ⟨heq, rfl⟩
  · exact .inr ⟨heq, h⟩

/-- An initialised Objecter has its callback in the chain. -/
theorem Inv.callback_of_initialized (h : Inv cct s) {obj : Nat}
    (hinit : (s.initialized.find? obj).isSome) :
    ∃ e ∈ s.viewChain, e.ctx = obj := List.mem_map.mp ((h.initialized obj).mp hinit)

/-- Loading a plugin disturbs nobody. -/
theorem Inv.getWithLoad (h : Inv cct s) {s' : State} {context : Nat} {loads : Bool}
    {plugin : Plugin} (hload : s.getWithLoad context loads = some (plugin, s')) :
    Inv cct s' ∧ s'.initialized = s.initialized ∧ s'.aborted = s.aborted := by
  rcases getWithLoad_cases hload with ⟨-, rfl⟩ | ⟨hnone, rfl, rfl⟩
  · exact ⟨h, rfl, rfl⟩
  -- a context without a plugin has no initialised Objecter
  have hkeep : ∀ {c p}, s.plugins.find? c = some p →
      (s.plugins.insert context { id := s.loaded }).find? c = some p := by
    intro c p hfind
    have hne : c ≠ context := by
      rintro rfl
      rw [hnone] at hfind
      cases hfind
    rw [OrdMap.find?_insert, if_neg hne, hfind]
  refine ⟨⟨?_, ?_, h.handles, h.once, h.ctxs, h.same, ?_, ?_, h.initialized, ?_, ?_⟩, rfl, rfl⟩
  · intro c p hfind
    rcases find?_insert_cases hfind with ⟨-, rfl⟩ | ⟨-, hold⟩
    · exact Nat.lt_succ_self s.loaded
    · exact Nat.lt_succ_of_lt (h.fresh c p hold)
  · intro c c' p p' hfind hfind' hid
    rcases find?_insert_cases hfind with ⟨rfl, rfl⟩ | ⟨-, hold⟩
    · rcases find?_insert_cases hfind' with ⟨rfl, -⟩ | ⟨-, hold'⟩
      · rfl
      · exact absurd (h.fresh c' p' hold') (by rw [← hid]; exact Nat.lt_irrefl _)
    · rcases find?_insert_cases hfind' with ⟨rfl, rfl⟩ | ⟨-, hold'⟩
      · exact absurd (h.fresh c p hold) (by rw [hid]; exact Nat.lt_irrefl _)
      · exact h.distinct c c' p p' hold hold' hid
  · intro e he
    obtain ⟨p, hfind, howner, hhandle⟩ := h.chain e he
    exact ⟨p, hkeep hfind, howner, hhandle⟩
  · intro c p obj handle hfind hhandle
    rcases find?_insert_cases hfind with ⟨rfl, rfl⟩ | ⟨-, hold⟩
    · cases hhandle
    · exact h.registered c p obj handle hold hhandle
  · intro id hid
    obtain ⟨c, p, hfind, howner, hready⟩ := h.das id hid
    exact ⟨c, p, hkeep hfind, howner, hready⟩
  · intro c p obj hfind hobj
    rcases find?_insert_cases hfind with ⟨rfl, rfl⟩ | ⟨-, hold⟩
    · cases hobj
    · exact h.dasObjs c p obj hold hobj

/-- Both callbacks of an Objecter are registered. -/
theorem Inv.registers (h : Inv cct s) {obj : Nat} {plugin ready : Plugin} {modules : List Nat}
    (hfind : s.plugins.find? (cct obj) = some plugin) (hnew : (s.initialized.find? obj) = none)
    (hready : Readied plugin obj s.handles s.dasModules ready modules) :
    Inv cct { s with
      plugins := s.plugins.insert (cct obj) ready
      initialized := s.initialized.insert obj ()
      handles := s.handles + 1
      viewChain := s.viewChain ++ [⟨s.handles, obj, plugin.id⟩]
      nodeViewChain := s.nodeViewChain ++ [⟨s.handles, obj, plugin.id⟩]
      dasModules := modules } := by
  have habsent : obj ∉ s.viewChain.map Callback.ctx := by
    rw [← h.initialized obj, hnew]
    simp
  have hfresh : s.handles ∉ s.viewChain.map Callback.handle := by
    intro hmem
    obtain ⟨e, he, heq⟩ := List.mem_map.mp hmem
    exact absurd (h.handles e he) (by rw [heq]; exact Nat.lt_irrefl _)
  have hself : (s.plugins.insert (cct obj) ready).find? (cct obj) = some ready := by
    rw [OrdMap.find?_insert, if_pos rfl]
  have hinit : ∀ other, ((s.initialized.insert obj ()).find? other).isSome ↔
      other = obj ∨ (s.initialized.find? other).isSome := by
    intro other
    rw [OrdMap.find?_insert]
    split_ifs with heq <;> simp [heq]
  refine ⟨?_, ?_, ?_, ?_, ?_, congrArg (· ++ _) h.same, ?_, ?_, ?_, ?_, ?_⟩
  · intro c p hp
    rcases find?_insert_cases hp with ⟨-, rfl⟩ | ⟨-, hold⟩
    · rw [hready.id]
      exact h.fresh _ plugin hfind
    · exact h.fresh c p hold
  · intro c c' p p' hp hp' hid
    rcases find?_insert_cases hp with ⟨rfl, rfl⟩ | ⟨-, hold⟩
    · rcases find?_insert_cases hp' with ⟨rfl, -⟩ | ⟨-, hold'⟩
      · rfl
      · exact h.distinct _ c' plugin p' hfind hold' (hready.id.symm.trans hid)
    · rcases find?_insert_cases hp' with ⟨rfl, rfl⟩ | ⟨-, hold'⟩
      · exact h.distinct c _ p plugin hold hfind (hid.trans hready.id)
      · exact h.distinct c c' p p' hold hold' hid
  · intro e he
    rcases List.mem_append.mp he with hold | hlast
    · exact Nat.lt_succ_of_lt (h.handles e hold)
    · rw [List.mem_singleton.mp hlast]
      exact Nat.lt_succ_self s.handles
  · show ((s.viewChain ++ [_]).map Callback.handle).Nodup
    rw [List.map_append]
    exact h.once.append (List.nodup_singleton _) (by simpa using hfresh)
  · show ((s.viewChain ++ [_]).map Callback.ctx).Nodup
    rw [List.map_append]
    exact h.ctxs.append (List.nodup_singleton _) (by simpa using habsent)
  · intro e he
    rcases List.mem_append.mp he with hold | hlast
    · obtain ⟨p, hp, howner, hhandle⟩ := h.chain e hold
      by_cases hc : cct e.ctx = cct obj
      · rw [hc, hfind] at hp
        cases hp
        refine ⟨ready, ?_, hready.id.trans howner, ?_⟩
        · rw [hc]
          exact hself
        · have hne : e.ctx ≠ obj := fun heq => habsent (heq ▸ List.mem_map_of_mem hold)
          rw [hready.registerObjs, OrdMap.find?_insert, if_neg hne, hhandle]
      · refine ⟨p, ?_, howner, hhandle⟩
        show (s.plugins.insert (cct obj) ready).find? (cct e.ctx) = some p
        rw [OrdMap.find?_insert, if_neg hc, hp]
    · rw [List.mem_singleton.mp hlast]
      refine ⟨ready, hself, hready.id, ?_⟩
      rw [hready.registerObjs, OrdMap.find?_insert, if_pos rfl]
  · intro c p other handle hp hhandle
    rcases find?_insert_cases hp with ⟨rfl, rfl⟩ | ⟨-, hold⟩
    · rw [hready.registerObjs, OrdMap.find?_insert] at hhandle
      split_ifs at hhandle with heq
      · cases hhandle
        rw [heq, hready.id]
        exact ⟨rfl, List.mem_append_right _ List.mem_cons_self⟩
      · obtain ⟨hc, hmem⟩ := h.registered _ plugin other handle hfind hhandle
        rw [hready.id]
        exact ⟨hc, List.mem_append_left _ hmem⟩
    · obtain ⟨hc, hmem⟩ := h.registered c p other handle hold hhandle
      exact ⟨hc, List.mem_append_left _ hmem⟩
  · intro other
    refine (hinit other).trans ?_
    rw [List.map_append, List.mem_append, h.initialized other]
    simp [or_comm]
  · intro id hid
    rcases hready.modules id hid with hold | ⟨rfl, hstarted⟩
    · obtain ⟨c, p, hp, howner, hstarted⟩ := h.das id hold
      by_cases hc : c = cct obj
      · subst hc
        rw [hfind] at hp
        cases hp
        exact ⟨cct obj, ready, hself, hready.id.trans howner, hready.stays hstarted⟩
      · refine ⟨c, p, ?_, howner, hstarted⟩
        show (s.plugins.insert (cct obj) ready).find? c = some p
        rw [OrdMap.find?_insert, if_neg hc, hp]
    · exact ⟨cct obj, ready, hself, hready.id, hstarted⟩
  · intro c p other hp hobj
    show cct other = c ∧ ((s.initialized.insert obj ()).find? other).isSome
    rw [hinit]
    rcases find?_insert_cases hp with ⟨rfl, rfl⟩ | ⟨-, hold⟩
    · rcases hready.dasObjs other hobj with rfl | hobj'
      · exact ⟨rfl, .inl rfl⟩
      · obtain ⟨hc, hstill⟩ := h.dasObjs _ plugin other hfind hobj'
        exact ⟨hc, .inr hstill⟩
    · obtain ⟨hc, hstill⟩ := h.dasObjs c p other hold hobj
      exact ⟨hc, .inr hstill⟩

/-- An Objecter is shut down alone: nothing of it is left, and nothing of the others is lost. -/
theorem Inv.shutdownAlone (h : Inv cct s) {obj : Nat} {plugin : Plugin}
    (hfind : s.plugins.find? (cct obj) = some plugin) (hinit : (s.initialized.find? obj).isSome)
    (halone : ∀ other, (s.initialized.find? other).isSome → cct other = cct obj → other = obj) :
    Inv cct { s with
      plugins := s.plugins.erase (cct obj)
      initialized := s.initialized.erase obj
      viewChain := dropHandle (plugin.registerObjs.find? obj) s.viewChain
      nodeViewChain := dropHandle (plugin.registerObjs.find? obj) s.nodeViewChain
      dasModules := dropModule plugin obj s.dasModules } := by
  obtain ⟨own, hown, rfl⟩ := h.callback_of_initialized hinit
  have hhandle : plugin.registerObjs.find? own.ctx = some own.handle := by
    obtain ⟨p, hp, -, hhandle⟩ := h.chain own hown
    rw [hfind] at hp
    cases hp
    exact hhandle
  -- the callback of the Objecter is the only one with its handle
  have hdrop : ∀ e, e ∈ dropHandle (plugin.registerObjs.find? own.ctx) s.viewChain ↔
      e ∈ s.viewChain ∧ e.ctx ≠ own.ctx := by
    intro e
    rw [hhandle, dropHandle, List.mem_filter]
    refine and_congr_right fun he => ?_
    rw [decide_eq_true_eq, ne_eq, Option.some.injEq]
    refine not_congr ⟨fun heq => ?_, fun heq => ?_⟩
    · rw [List.inj_on_of_nodup_map h.once he hown heq]
    · rw [List.inj_on_of_nodup_map h.ctxs he hown heq]
  have hothers : ∀ e ∈ s.viewChain, e.ctx ≠ own.ctx → cct e.ctx ≠ cct own.ctx := by
    intro e he hne hc
    exact hne (halone e.ctx ((h.initialized e.ctx).mpr (List.mem_map_of_mem he)) hc)
  have hkeep : ∀ {c p}, (s.plugins.erase (cct own.ctx)).find? c = some p →
      c ≠ cct own.ctx ∧ s.plugins.find? c = some p := by
    intro c p hp
    rw [OrdMap.find?_erase] at hp
    split_ifs at hp with heq
    exact ⟨heq, hp⟩
  have hstill : ∀ other, ((s.initialized.erase own.ctx).find? other).isSome ↔
      other ≠ own.ctx ∧ (s.initialized.find? other).isSome := by
    intro other
    rw [OrdMap.find?_erase]
    split_ifs with heq <;> simp [heq]
  -- the module of the plugin exits with its last Objecter
  have hmodules : ∀ id ∈ dropModule plugin own.ctx s.dasModules,
      id ∈ s.dasModules ∧ id ≠ plugin.id := by
    intro id hid
    have hempty : (plugin.dasObjs.erase own.ctx).entries.isEmpty = true := by
      rw [List.isEmpty_iff, List.eq_nil_iff_forall_not_mem]
      rintro ⟨other, mark⟩ hmem
      have hlisted := (OrdMap.mem_entries_iff _).mp hmem
      rw [OrdMap.find?_erase] at hlisted
      split_ifs at hlisted with hne
      obtain ⟨hc, hother⟩ := h.dasObjs _ plugin other hfind (by rw [hlisted]; rfl)
      exact hne (halone other hother hc)
    unfold dropModule at hid
    rw [hempty, Bool.true_and] at hid
    split_ifs at hid with hstarted
    · obtain ⟨hmem, hne⟩ := List.mem_filter.mp hid
      exact ⟨hmem, of_decide_eq_true hne⟩
    · refine ⟨hid, ?_⟩
      rintro rfl
      obtain ⟨c, p, hp, howner, hready⟩ := h.das _ hid
      have hc := h.distinct c _ p plugin hp hfind howner
      subst hc
      rw [hfind] at hp
      cases hp
      exact hstarted hready
  refine ⟨?_, ?_, ?_, ?_, ?_, congrArg (dropHandle _) h.same, ?_, ?_, ?_, ?_, ?_⟩
  · intro c p hp
    exact h.fresh c p (hkeep hp).2
  · intro c c' p p' hp hp' hid
    exact h.distinct c c' p p' (hkeep hp).2 (hkeep hp').2 hid
  · intro e he
    exact h.handles e ((hdrop e).mp he).1
  · exact h.once.sublist (List.filter_sublist.map Callback.handle)
  · exact h.ctxs.sublist (List.filter_sublist.map Callback.ctx)
  · intro e he
    obtain ⟨hmem, hne⟩ := (hdrop e).mp he
    obtain ⟨p, hp, howner, hhandle⟩ := h.chain e hmem
    refine ⟨p, ?_, howner, hhandle⟩
    show (s.plugins.erase (cct own.ctx)).find? (cct e.ctx) = some p
    rw [OrdMap.find?_erase, if_neg (hothers e hmem hne), hp]
  · intro c p other handle hp hother
    obtain ⟨hne, hold⟩ := hkeep hp
    obtain ⟨hc, hmem⟩ := h.registered c p other handle hold hother
    refine ⟨hc, (hdrop _).mpr ⟨hmem, ?_⟩⟩
    rintro rfl
    exact hne hc.symm
  · intro other
    refine (hstill other).trans ?_
    rw [h.initialized other, List.mem_map, List.mem_map]
    constructor
    · rintro ⟨hne, e, he, rfl⟩
      exact ⟨e, (hdrop e).mpr ⟨he, hne⟩, rfl⟩
    · rintro ⟨e, he, rfl⟩
      obtain ⟨hmem, hne⟩ := (hdrop e).mp he
      exact ⟨hne, e, hmem, rfl⟩
  · intro id hid
    obtain ⟨hmem, hne⟩ := hmodules id hid
    obtain ⟨c, p, hp, howner, hready⟩ := h.das id hmem
    refine ⟨c, p, ?_, howner, hready⟩
    have hc : c ≠ cct own.ctx := by
      rintro rfl
      rw [hfind] at hp
      cases hp
      exact hne howner.symm
    show (s.plugins.erase (cct own.ctx)).find? c = some p
    rw [OrdMap.find?_erase, if_neg hc, hp]
  · intro c p other hp hother
    obtain ⟨hne, hold⟩ := hkeep hp
    obtain ⟨hc, hlive⟩ := h.dasObjs c p other hold hother
    refine ⟨hc, (hstill other).mpr ⟨?_, hlive⟩⟩
    rintro rfl
    exact hne hc.symm

/-- What a call can do in a state where it is possible. -/
theorem step_cases {event : Event} (hstep : step cct s event = some t) :
    s.aborted = false ∧
    ((∃ obj replies, event = .init obj replies ∧ s.initialized.find? obj = none ∧
        t = objecterInit cct s obj replies) ∨
      (∃ obj loads, event = .shutdown obj loads ∧ (s.initialized.find? obj).isSome ∧
        t = objecterShutdown cct s obj loads) ∨
      ∃ context loads, event = .use context loads ∧
        t = (s.getWithLoad context loads).elim s Prod.snd) := by
  cases event with
  | init obj replies =>
      simp only [step] at hstep
      split_ifs at hstep with hoff
      cases hstep
      rw [not_or, Bool.not_eq_true, Option.isSome_iff_ne_none, ne_eq, not_not] at hoff
      exact ⟨hoff.1, .inl ⟨obj, replies, rfl, hoff.2, rfl⟩⟩
  | shutdown obj loads =>
      simp only [step] at hstep
      split_ifs at hstep with hoff
      cases hstep
      rw [not_or, Bool.not_eq_true, Option.isNone_iff_eq_none, ← ne_eq,
        ← Option.isSome_iff_ne_none] at hoff
      exact ⟨hoff.1, .inr (.inl ⟨obj, loads, rfl, hoff.2, rfl⟩)⟩
  | use context loads =>
      simp only [step] at hstep
      split_ifs at hstep with hoff
      cases hstep
      exact ⟨Bool.not_eq_true _ ▸ hoff, .inr (.inr ⟨context, loads, rfl, rfl⟩)⟩

/-- Alone among the initialised Objecters of its context. -/
theorem alone_iff {obj : Nat} {loads : Bool} : alone cct s (.shutdown obj loads) ↔
    ∀ other, (s.initialized.find? other).isSome → cct other = cct obj → other = obj := by
  constructor
  · intro halone other hother
    obtain ⟨mark, hmark⟩ := Option.isSome_iff_exists.mp hother
    exact halone (other, mark) ((OrdMap.mem_entries_iff _).mpr hmark)
  · rintro halone ⟨other, mark⟩ hmem
    exact halone other (by rw [(OrdMap.mem_entries_iff _).mp hmem]; rfl)

/-- Every such call keeps the invariant, or aborts the process. -/
theorem Inv.step {event : Event} (h : Inv cct s) (halone : alone cct s event)
    (hstep : PluginLife.step cct s event = some t) : t.aborted = true ∨ Inv cct t := by
  obtain ⟨-, ⟨obj, replies, rfl, hnew, rfl⟩ | ⟨obj, loads, rfl, hinit, rfl⟩ |
    ⟨context, loads, rfl, rfl⟩⟩ := step_cases hstep
  · rcases init_cases cct s obj replies with
      habort | ⟨plugin, s', hload, ready, modules, hready, heq⟩
    · exact .inl habort
    · obtain ⟨hinv, hsame, -⟩ := h.getWithLoad hload
      rw [heq]
      exact .inr (hinv.registers (find?_of_getWithLoad hload) (hsame ▸ hnew) hready)
  · cases hload : s.getWithLoad (cct obj) loads with
    | none =>
        left
        simp [objecterShutdown, hload]
    | some loaded =>
        obtain ⟨hinv, hsame, -⟩ := h.getWithLoad hload
        rw [shutdown_eq cct hload]
        refine .inr (hinv.shutdownAlone (find?_of_getWithLoad hload) (hsame ▸ hinit) ?_)
        rw [hsame]
        exact alone_iff.mp halone
  · cases hload : s.getWithLoad context loads with
    | none => exact .inr h
    | some loaded => exact .inr (h.getWithLoad hload).1

/-- The plugin is in the registry of a context. -/
def State.Loaded (s : State) (id : Nat) : Prop :=
  ∃ c p, s.plugins.find? c = some p ∧ p.id = id

/-- The cluster manager calls into plugins that are loaded, and notifies each initialised Objecter
once and no other; the prefetch modules are those of plugins that are loaded. -/
structure Delivered (s : State) : Prop where
  view : ∀ obj, (s.viewChain.map Callback.ctx).count obj =
    if (s.initialized.find? obj).isSome then 1 else 0
  nodeView : ∀ obj, (s.nodeViewChain.map Callback.ctx).count obj =
    if (s.initialized.find? obj).isSome then 1 else 0
  loaded : ∀ e ∈ s.viewChain ++ s.nodeViewChain, s.Loaded e.owner
  das : ∀ id ∈ s.dasModules, s.Loaded id

/-- The invariant says so. -/
theorem Inv.delivered (h : Inv cct s) : Delivered s := by
  have hview : ∀ obj, (s.viewChain.map Callback.ctx).count obj =
      if (s.initialized.find? obj).isSome then 1 else 0 := by
    intro obj
    split_ifs with hinit
    · exact List.count_eq_one_of_mem h.ctxs ((h.initialized obj).mp hinit)
    · exact List.count_eq_zero.mpr (mt (h.initialized obj).mpr hinit)
  refine ⟨hview, by rw [h.same]; exact hview, ?_, ?_⟩
  · intro e he
    rw [h.same, List.mem_append, or_self] at he
    obtain ⟨p, hp, howner, -⟩ := h.chain e he
    exact ⟨_, p, hp, howner⟩
  · intro id hid
    obtain ⟨c, p, hp, howner, -⟩ := h.das id hid
    exact ⟨c, p, hp, howner⟩

/-- The invariant holds as long as every Objecter is alone when it is shut down. -/
theorem inv_of_reach (h : Reach (PluginLife.step cct) (alone cct) {} s) :
    s.aborted = false → Inv cct s := by
  refine h.invariant (fun s => s.aborted = false → Inv cct s) (fun _ => inv_init cct) ?_
  intro s event t hs halone hstep hrunning
  exact ((hs (step_cases hstep).1).step halone hstep).resolve_left (by simp [hrunning])

/-- Two Objecters to a context. -/
def pairs (obj : Nat) : Nat := obj / 2

/-- A callback that nobody drops: no plugin has its handle, and the one it is of is removed. -/
def Stuck (e : Callback) (s : State) : Prop :=
  e ∈ s.viewChain ∧ e.handle < s.handles ∧ e.owner < s.loaded ∧
    ∀ c p, s.plugins.find? c = some p →
      p.id ≠ e.owner ∧ ∀ obj, p.registerObjs.find? obj ≠ some e.handle

/-- Loading a plugin leaves such a callback stuck. -/
theorem Stuck.getWithLoad {e : Callback} (h : Stuck e s) {s' : State} {context : Nat} {loads : Bool}
    {plugin : Plugin} (hload : s.getWithLoad context loads = some (plugin, s')) : Stuck e s' := by
  rcases getWithLoad_cases hload with ⟨-, rfl⟩ | ⟨-, rfl, rfl⟩
  · exact h
  · refine ⟨h.1, h.2.1, Nat.lt_succ_of_lt h.2.2.1, ?_⟩
    intro c p hp
    rcases find?_insert_cases hp with ⟨-, rfl⟩ | ⟨-, hold⟩
    · exact ⟨Nat.ne_of_gt h.2.2.1, by simp⟩
    · exact h.2.2.2 c p hold

/-- Only the plugin that registered a callback can drop it. -/
theorem mem_dropHandle {e : Callback} {chain : List Callback} {handle : Option Nat}
    (he : e ∈ chain) (hne : handle ≠ some e.handle) : e ∈ dropHandle handle chain :=
  List.mem_filter.mpr ⟨he, decide_eq_true (Ne.symm hne)⟩

/-- No call drops a stuck callback. -/
theorem Stuck.step {e : Callback} {event : Event} (h : Stuck e s)
    (hstep : PluginLife.step cct s event = some t) : t.aborted = true ∨ Stuck e t := by
  obtain ⟨-, ⟨obj, replies, rfl, -, rfl⟩ | ⟨obj, loads, rfl, -, rfl⟩ |
    ⟨context, loads, rfl, rfl⟩⟩ := step_cases hstep
  · rcases init_cases cct s obj replies with
      habort | ⟨plugin, s', hload, ready, modules, hready, heq⟩
    · exact .inl habort
    · obtain ⟨hmem, hhandle, howner, hgone⟩ := h.getWithLoad hload
      obtain ⟨hid, hobjs⟩ := hgone _ plugin (find?_of_getWithLoad hload)
      rw [heq]
      refine .inr ⟨List.mem_append_left _ hmem, Nat.lt_succ_of_lt hhandle, howner, ?_⟩
      intro c p hp
      rcases find?_insert_cases hp with ⟨-, rfl⟩ | ⟨-, hold⟩
      · refine ⟨by rw [hready.id]; exact hid, fun other => ?_⟩
        rw [hready.registerObjs, OrdMap.find?_insert]
        split_ifs
        · intro hsame
          exact absurd (Option.some.inj hsame) (Nat.ne_of_gt hhandle)
        · exact hobjs other
      · exact hgone c p hold
  · cases hload : s.getWithLoad (cct obj) loads with
    | none =>
        left
        simp [objecterShutdown, hload]
    | some loaded =>
        obtain ⟨hmem, hhandle, howner, hgone⟩ := h.getWithLoad hload
        rw [shutdown_eq cct hload]
        refine .inr ⟨mem_dropHandle hmem ?_, hhandle, howner, ?_⟩
        · exact (hgone _ loaded.1 (find?_of_getWithLoad hload)).2 obj
        · intro c p hp
          have hold : (loaded.2.plugins.erase (cct obj)).find? c = some p := hp
          rw [OrdMap.find?_erase] at hold
          split_ifs at hold
          exact hgone c p hold
  · cases hload : s.getWithLoad context loads with
    | none => exact .inr h
    | some loaded => exact .inr (h.getWithLoad hload)

end GlobalCacheAdaptor.ClientAdaptor.PluginLife

import GlobalCacheAdaptor.ServerAdaptor.ClassTable
import GlobalCacheAdaptor.ServerAdaptor.ExecClass

/-!
# The methods of an open class

A class library registers its methods from `__cls_init`, which runs once, when the class becomes
open. `methods_of_open_class` says that in every run the method table of an open class is what
these registrations make of an empty one, and `find?_registrations` reads it off them: the last
registration of a name in C and the last one in C++ share an entry. `class_call_dispatch` follows a
class call from `OSA_ExecClass` through `open_class` to the function that is called.
-/

namespace GlobalCacheAdaptor.ServerAdaptor.ClassHandler

open Lib

/-! ## Registrations -/

/-- What a call of `__cls_init` does to the class that is being initialized. -/
def InitCall.apply (cls : ClassData) : InitCall → ClassData
  | .register _ => cls
  | .registerMethod mname flags func =>
      if flags &&& clsMethodRdWr = 0 then cls else cls.registerMethod mname flags func
  | .registerCxxMethod mname flags func => cls.registerCxxMethod mname flags func

/-- The method table that `__cls_init` leaves, from an empty one. -/
def Library.methods (lib : Library) : OrdMap Bytes ClassMethod :=
  ((lib.init.getD []).foldl InitCall.apply {}).methodsMap

/-- The function that the call registers for C callers under the name. -/
def InitCall.cFunc (mname : Bytes) : InitCall → Option Nat
  | .registerMethod name flags func =>
      if name = mname ∧ flags &&& clsMethodRdWr ≠ 0 then some func else none
  | _ => none

/-- The function that the call registers for C++ callers under the name. -/
def InitCall.cxxFunc (mname : Bytes) : InitCall → Option Nat
  | .registerCxxMethod name _ func => if name = mname then some func else none
  | _ => none

/-- The C function under a name. -/
def ClassData.cFunc (cls : ClassData) (mname : Bytes) : Option Nat :=
  (cls.methodsMap.find? mname).bind ClassMethod.func

/-- The C++ function under a name. -/
def ClassData.cxxFunc (cls : ClassData) (mname : Bytes) : Option Nat :=
  (cls.methodsMap.find? mname).bind ClassMethod.cxxFunc

section Registrations

variable {cls : ClassData} {call : InitCall} {calls : List InitCall} {mname : Bytes}

/-- A field that each step may set holds what the last step that set it gave. -/
theorem foldl_last {σ α β : Type} {step : σ → α → σ} (field : σ → Option β) (sets : α → Option β)
    (hstep : ∀ s a, field (step s a) = (sets a).or (field s)) (l : List α) (s : σ) :
    field (l.foldl step s) = (l.filterMap sets).getLast?.or (field s) := by
  induction l generalizing s with
  | nil => rfl
  | cons a l ih =>
      rw [List.foldl_cons, ih, hstep, List.filterMap_cons]
      cases sets a with
      | none => rfl
      | some b =>
          rw [List.getLast?_cons]
          cases (l.filterMap sets).getLast? <;> rfl

/-- Flags with a read or write bit are not zero. -/
theorem flags_ne_zero {flags : BitVec 32} (hflags : flags &&& clsMethodRdWr ≠ 0) : flags ≠ 0 := by
  rintro rfl
  exact hflags BitVec.zero_and

/-- The C function after one call. -/
theorem cFunc_apply : (call.apply cls).cFunc mname = (call.cFunc mname).or (cls.cFunc mname) := by
  cases call with
  | register name => rfl
  | registerMethod name flags func =>
      simp only [InitCall.apply, InitCall.cFunc]
      by_cases hflags : flags &&& clsMethodRdWr = 0
      · rw [if_pos hflags, if_neg fun hboth => hboth.2 hflags]
        rfl
      · rw [if_neg hflags, ClassData.registerMethod, if_neg (flags_ne_zero hflags)]
        unfold ClassData.cFunc
        rw [OrdMap.find?_insert]
        by_cases hname : name = mname
        · rw [if_pos hname.symm, if_pos ⟨hname, hflags⟩]
          rfl
        · rw [if_neg (Ne.symm hname), if_neg fun hboth => hname hboth.1]
          rfl
  | registerCxxMethod name flags func =>
      simp only [InitCall.apply, InitCall.cFunc, ClassData.registerCxxMethod, ClassData.cFunc,
        OrdMap.find?_insert, Option.none_or]
      split_ifs with hname
      · rw [hname]
        cases cls.methodsMap.find? name <;> rfl
      · rfl

/-- The C++ function after one call. -/
theorem cxxFunc_apply :
    (call.apply cls).cxxFunc mname = (call.cxxFunc mname).or (cls.cxxFunc mname) := by
  cases call with
  | register name => rfl
  | registerMethod name flags func =>
      simp only [InitCall.apply, InitCall.cxxFunc, Option.none_or]
      by_cases hflags : flags &&& clsMethodRdWr = 0
      · rw [if_pos hflags]
      · rw [if_neg hflags, ClassData.registerMethod, if_neg (flags_ne_zero hflags)]
        simp only [ClassData.cxxFunc, OrdMap.find?_insert]
        split_ifs with hname
        · rw [hname]
          cases cls.methodsMap.find? name <;> rfl
        · rfl
  | registerCxxMethod name flags func =>
      simp only [InitCall.apply, InitCall.cxxFunc, ClassData.registerCxxMethod, ClassData.cxxFunc,
        OrdMap.find?_insert]
      by_cases hname : name = mname
      · rw [if_pos hname.symm, if_pos hname]
        rfl
      · rw [if_neg (Ne.symm hname), if_neg hname]
        rfl

/-- The C function that the calls leave under a name is the last one registered. -/
theorem cFunc_foldl (calls : List InitCall) (mname : Bytes) :
    (calls.foldl InitCall.apply {}).cFunc mname =
      (calls.filterMap (InitCall.cFunc mname)).getLast? := by
  have hlast := foldl_last (ClassData.cFunc · mname) (InitCall.cFunc mname)
    (fun _ _ => cFunc_apply) calls {}
  exact hlast.trans Option.or_none

/-- The C++ function that the calls leave under a name is the last one registered. -/
theorem cxxFunc_foldl (calls : List InitCall) (mname : Bytes) :
    (calls.foldl InitCall.apply {}).cxxFunc mname =
      (calls.filterMap (InitCall.cxxFunc mname)).getLast? := by
  have hlast := foldl_last (ClassData.cxxFunc · mname) (InitCall.cxxFunc mname)
    (fun _ _ => cxxFunc_apply) calls {}
  exact hlast.trans Option.or_none

/-- Every name in the table has a function. -/
def NamesFunctions (cls : ClassData) : Prop :=
  ∀ mname method, cls.methodsMap.find? mname = some method →
    method.func.isSome ∨ method.cxxFunc.isSome

/-- Every registration names a function. -/
theorem namesFunctions_apply (hnames : NamesFunctions cls) : NamesFunctions (call.apply cls) := by
  cases call with
  | register name => exact hnames
  | registerMethod name flags func =>
      simp only [InitCall.apply]
      split_ifs with hflags
      · exact hnames
      · rw [ClassData.registerMethod, if_neg (flags_ne_zero hflags)]
        intro mname method hfind
        simp only [OrdMap.find?_insert] at hfind
        split_ifs at hfind with hname
        · cases hfind
          exact .inl rfl
        · exact hnames mname method hfind
  | registerCxxMethod name flags func =>
      intro mname method hfind
      simp only [InitCall.apply, ClassData.registerCxxMethod, OrdMap.find?_insert] at hfind
      split_ifs at hfind with hname
      · cases hfind
        exact .inr rfl
      · exact hnames mname method hfind

/-- Every name in the table of a library has a function. -/
theorem namesFunctions_foldl (hnames : NamesFunctions cls) (calls : List InitCall) :
    NamesFunctions (calls.foldl InitCall.apply cls) := by
  induction calls generalizing cls with
  | nil => exact hnames
  | cons call rest ih => exact ih (namesFunctions_apply hnames)

/-- A registration reads and writes the method table only. -/
theorem methodsMap_apply_congr {cls' : ClassData} (hsame : cls.methodsMap = cls'.methodsMap) :
    (call.apply cls).methodsMap = (call.apply cls').methodsMap := by
  cases call with
  | register name => exact hsame
  | registerMethod name flags func =>
      simp only [InitCall.apply]
      split_ifs
      · exact hsame
      · simp only [ClassData.registerMethod]
        split_ifs
        · exact hsame
        · simp only [hsame]
  | registerCxxMethod name flags func =>
      simp only [InitCall.apply, ClassData.registerCxxMethod, hsame]

/-- The registrations of a library, from a table that is empty. -/
theorem methodsMap_foldl_congr {cls' : ClassData} (hsame : cls.methodsMap = cls'.methodsMap)
    (calls : List InitCall) : (calls.foldl InitCall.apply cls).methodsMap =
      (calls.foldl InitCall.apply cls').methodsMap := by
  induction calls generalizing cls cls' with
  | nil => exact hsame
  | cons call rest ih => exact ih (methodsMap_apply_congr hsame)

end Registrations

/-! ## The method tables over whole runs -/

/-- The method table of a class. -/
def Handler.methods (h : Handler) (cname : Bytes) : OrdMap Bytes ClassMethod :=
  (h.cls cname).methodsMap

/-- The methods a class should have: those of its library once it is open. -/
def Loading.methods (L : Loading) : OrdMap Bytes ClassMethod :=
  if L.status = .classOpen then (L.handle.map Library.methods).getD .empty else .empty

/-- Every class has the methods it should have. -/
def Methodical (h : Handler) : Prop := ∀ x, h.methods x = (h.loading x).methods

section Tables

variable {env : Env} {h h' : Handler} {c d x : Bytes}

/-- A change of an entry that keeps its methods. -/
theorem methods_modify {f : ClassData → ClassData}
    (hf : (f (h.cls c)).methodsMap = (h.cls c).methodsMap) :
    (h.modify c f).methods x = h.methods x := by
  unfold Handler.methods
  rw [cls_modify]
  split_ifs with hx
  · rw [hf, hx]
  · rfl

@[simp] theorem methods_setStatus {status : Status} :
    (h.setStatus c status).methods x = h.methods x := methods_modify rfl

@[simp] theorem methods_setOpen : (h.setOpen c).methods x = h.methods x :=
  @methods_setStatus h c x .classOpen

@[simp] theorem methods_eraseMissing : (h.eraseMissing c d).methods x = h.methods x :=
  methods_modify rfl

@[simp] theorem methods_getClass : (h.getClass env c).methods x = h.methods x := by
  unfold Handler.getClass
  split_ifs with hhas
  · rfl
  · apply methods_modify
    rw [cls_of_not_has hhas]

/-- Reading `class_deps` registers nothing. -/
theorem methods_recordDeps (deps : List Bytes) :
    (deps.foldl (recordDep env c) h).methods x = h.methods x := by
  induction deps generalizing h with
  | nil => rfl
  | cons d rest ih =>
      rw [List.foldl_cons, ih, recordDep]
      exact (methods_modify rfl).trans methods_getClass

/-- Opening a library registers nothing. -/
theorem methods_openLibrary : (openLibrary env h c).1.methods x = h.methods x := by
  unfold openLibrary
  split_ifs with hstatus
  · cases env.library c with
    | opened lib => exact (methods_recordDeps lib.deps).trans (methods_modify rfl)
    | noFile errno => exact methods_modify rfl
    | unloadable => exact methods_modify rfl
  · rfl

/-- Opening a library leaves a class that is not open closed, and the others as they are. -/
theorem loading_openLibrary (hnot : ¬ h.IsOpen c) :
    ¬ (openLibrary env h c).1.IsOpen c ∧
      ∀ x, x ≠ c → (openLibrary env h c).1.loading x = h.loading x := by
  have hmissing : ¬ (h.modify c fun cls =>
      { cls with handle := none, status := .classMissing }).IsOpen c := by
    unfold Handler.IsOpen
    rw [loading_modify_self]
    exact Status.noConfusion
  unfold openLibrary
  split_ifs with hstatus
  · cases env.library c with
    | opened lib =>
        have hread := @recordDeps_read env
          (h.modify c fun cls => { cls with handle := some lib }) c lib.deps
        refine ⟨fun hopen => hnot ?_, fun x hx => ?_⟩
        · have := (hread.isOpen_iff c).mp hopen
          unfold Handler.IsOpen at this
          rw [loading_modify_self] at this
          exact this
        · exact (hread.others x hx).trans (loading_modify_of_ne hx)
    | noFile errno => exact ⟨hmissing, fun x hx => loading_modify_of_ne hx⟩
    | unloadable => exact ⟨hmissing, fun x hx => loading_modify_of_ne hx⟩
  · exact ⟨hnot, fun _ _ => rfl⟩

/-- A class that is not open should have no methods. -/
theorem loading_methods_of_not_open (hnot : ¬ h.IsOpen x) : (h.loading x).methods = .empty :=
  if_neg hnot

/-- A change of the class that is being initialized. -/
theorem entries_modify {f : ClassData → ClassData} :
    (h.modify c f).cls c = f (h.cls c) ∧ ∀ x, x ≠ c → (h.modify c f).methods x = h.methods x := by
  refine ⟨?_, fun x hx => ?_⟩
  · rw [cls_modify, if_pos rfl]
  · unfold Handler.methods
    rw [cls_modify, if_neg hx]

/-- What one call of `__cls_init` does to the entries, if the class is the only one that is being
initialized. -/
theorem initCall_entries {call : InitCall} {handle handle' : Option Bytes} (hhas : h.Has c)
    (honly : ∀ x, (h.loading x).status = .classInitializing ↔ x = c)
    (hhandle : ∀ cname, handle = some cname → cname = c)
    (hcall : initCall env (h, handle) call = .ok (h', handle')) :
    (∀ cname, handle' = some cname → cname = c) ∧
      h'.cls c = call.apply (h.cls c) ∧ ∀ x, x ≠ c → h'.methods x = h.methods x := by
  cases call with
  | register name =>
      cases hcall
      refine ⟨fun cname hname => ?_, ?_, fun x _ => methods_getClass⟩
      · split_ifs at hname with hstatus
        cases hname
        rw [loading_getClass] at hstatus
        exact (honly name).mp hstatus
      · unfold Handler.getClass
        split_ifs with hname
        · rfl
        · have hne : c ≠ name := fun heq => hname (heq ▸ hhas)
          rw [cls_modify, if_neg hne]
          rfl
  | registerMethod mname flags func =>
      simp only [initCall] at hcall
      split_ifs at hcall with hflags
      · cases hcall
        exact ⟨hhandle, (if_pos hflags).symm, fun _ _ => rfl⟩
      · cases handle with
        | none => cases hcall
        | some cname =>
            obtain rfl := hhandle cname rfl
            cases hcall
            obtain ⟨hself, hothers⟩ := entries_modify (h := h) (c := cname)
              (f := fun cls => cls.registerMethod mname flags func)
            exact ⟨hhandle, hself.trans (if_neg hflags).symm, hothers⟩
  | registerCxxMethod mname flags func =>
      cases handle with
      | none => cases hcall
      | some cname =>
          obtain rfl := hhandle cname rfl
          cases hcall
          exact ⟨hhandle, entries_modify⟩

/-- What the calls of `__cls_init` do to the entries, if the class is the only one that is being
initialized. -/
theorem runInit_entries {calls : List InitCall} {handle handle' : Option Bytes}
    (hhas : h.Has c) (honly : ∀ x, (h.loading x).status = .classInitializing ↔ x = c)
    (hhandle : ∀ cname, handle = some cname → cname = c)
    (hrun : runInit env calls (h, handle) = .ok (h', handle')) :
    h'.cls c = calls.foldl InitCall.apply (h.cls c) ∧ ∀ x, x ≠ c → h'.methods x = h.methods x := by
  induction calls generalizing h handle with
  | nil =>
      cases hrun
      exact ⟨rfl, fun _ _ => rfl⟩
  | cons call rest ih =>
      simp only [runInit] at hrun
      split at hrun
      · cases hrun
      · rename_i state hcall
        obtain ⟨h₁, handle₁⟩ := state
        have hsame := initCall_same hcall
        have honly₁ : ∀ x, (h₁.loading x).status = .classInitializing ↔ x = c := by
          intro x
          rw [hsame.loading]
          exact honly x
        obtain ⟨hhandle₁, hself, hothers⟩ := initCall_entries hhas honly hhandle hcall
        obtain ⟨hself', hothers'⟩ := ih (hsame.has c hhas) honly₁ hhandle₁ hrun
        refine ⟨?_, fun x hx => (hothers' x hx).trans (hothers x hx)⟩
        rw [hself', hself, List.foldl_cons]

/-- The last part of a load gives the class the methods of its library. -/
theorem Methodical.clsInit {S : Set Bytes} (hmethods : Methodical h)
    (hres : Resolving env S c [] h) (hinit : clsInit env h c = .ok h') : Methodical h' := by
  have hlast := clsInit_initialized hinit
  obtain ⟨lib, hlib⟩ :=
    Option.isSome_iff_exists.mp ((hres.inv.sound c).handle_of_recorded hres.recorded)
  have hempty : (h.cls c).methodsMap = .empty :=
    (hmethods c).trans (loading_methods_of_not_open hres.recorded.notOpen)
  have hafter : h'.methods c = lib.methods ∧ ∀ x, x ≠ c → h'.methods x = h.methods x := by
    unfold ClassHandler.clsInit at hinit
    rw [hlib, Option.bind_some] at hinit
    unfold Library.methods
    cases hcalls : lib.init with
    | none =>
        simp only [hcalls] at hinit
        cases hinit
        exact ⟨methods_setOpen.trans hempty, fun x _ => methods_setOpen⟩
    | some calls =>
        simp only [hcalls] at hinit
        split at hinit
        · cases hinit
        · rename_i h₁ handle hrun
          cases hinit
          have honly : ∀ x, ((h.setStatus c .classInitializing).loading x).status =
              .classInitializing ↔ x = c := by
            intro x
            by_cases hx : x = c
            · rw [hx, loading_setStatus_self]
              exact iff_of_true rfl rfl
            · rw [loading_setStatus_of_ne hx]
              exact iff_of_false (hres.inv.sound x).settled hx
          obtain ⟨hself, hothers⟩ := runInit_entries (has_setStatus.mpr (.inl rfl)) honly
            (fun cname hnone => by cases hnone) hrun
          have hempty' : ((h.setStatus c .classInitializing).cls c).methodsMap =
              ({} : ClassData).methodsMap := methods_setStatus.trans hempty
          refine ⟨?_, fun x hx => ?_⟩
          · rw [methods_setOpen]
            show (h₁.cls c).methodsMap = _
            rw [hself]
            exact methodsMap_foldl_congr hempty' calls
          · rw [methods_setOpen, hothers x hx, methods_setStatus]
  intro x
  by_cases hx : x = c
  · rw [hx, hlast.self, hafter.1, Loading.methods, if_pos rfl, hlib]
    rfl
  · rw [hafter.2 x hx, hlast.others x hx]
    exact hmethods x

/-- Only the last part of a load registers methods. -/
theorem methodical_kept : Kept env (fun _ => True) Methodical where
  dependency _ _ _ := trivial
  library {h c} hmethods _ hnot := by
    obtain ⟨hnot', hothers⟩ := @loading_openLibrary env h c hnot
    intro x
    rw [methods_openLibrary, hmethods x]
    by_cases hx : x = c
    · rw [hx, loading_methods_of_not_open hnot, loading_methods_of_not_open hnot']
    · rw [hothers x hx]
  erase {h c d} hmethods _ := by
    intro x
    rw [methods_eraseMissing, hmethods x]
    by_cases hx : x = c
    · rw [hx, loading_eraseMissing_self]
      rfl
    · rw [loading_eraseMissing_of_ne hx]
  fail {h c} hmethods _ hnot := by
    intro x
    rw [methods_setStatus, hmethods x]
    by_cases hx : x = c
    · rw [hx, loading_setStatus_self, loading_methods_of_not_open hnot]
      rfl
    · rw [loading_setStatus_of_ne hx]
  init hres hmethods _ hinit := hmethods.clsInit hres hinit

/-- A call of `open_class` keeps the method tables right. -/
theorem openClass_methodical (hinv : Inv ∅ h) (hmethods : Methodical h) {depth : Nat} {r : Int}
    (hopen : openClass env depth h c = .ok (h', r)) : Methodical h' := by
  have hentry : Methodical (h.getClass env c) := by
    intro x
    rw [methods_getClass, loading_getClass]
    exact hmethods x
  unfold openClass Handler.getAllowed at hopen
  split_ifs at hopen with hrefused
  · cases hopen
    exact hmethods
  · simp only at hopen
    split_ifs at hopen with hstatus
    · cases hopen
      exact hentry
    · exact methodical_kept.load hinv.getClass (fun x hx => absurd hx (Set.notMem_empty x))
        hentry trivial hopen

/-- The method tables of every run. -/
theorem methodical_of_reach (hreach : Reach openStep anyEvent {} h) : Methodical h := by
  have hboth : Inv ∅ h ∧ Methodical h := by
    refine hreach.invariant (fun h => Inv ∅ h ∧ Methodical h) ⟨inv_empty, fun x => rfl⟩ ?_
    intro s call t hs _ hstep
    refine ⟨openStep_inv hs.1 hstep, ?_⟩
    unfold openStep at hstep
    split at hstep
    · rename_i h₁ r hopen
      cases hstep
      exact openClass_methodical hs.1 hs.2 hopen
    · cases hstep
  exact hboth.2

/-- The functions of an open class, from the calls of its `__cls_init`. -/
theorem Methodical.functions (hmethods : Methodical h) (hc : h.IsOpen c) {lib : Library}
    (hlib : (h.loading c).handle = some lib) :
    NamesFunctions (h.cls c) ∧ ∀ mname,
      (h.cls c).cFunc mname = ((lib.init.getD []).filterMap (InitCall.cFunc mname)).getLast? ∧
      (h.cls c).cxxFunc mname =
        ((lib.init.getD []).filterMap (InitCall.cxxFunc mname)).getLast? := by
  have hmap : (h.cls c).methodsMap = ((lib.init.getD []).foldl InitCall.apply {}).methodsMap := by
    have hstatus : (h.loading c).status = .classOpen := hc
    have hself := hmethods c
    rw [Loading.methods, if_pos hstatus, hlib] at hself
    exact hself
  have hstart : NamesFunctions {} := by
    intro mname method hfind
    cases hfind
  refine ⟨?_, fun mname => ⟨?_, ?_⟩⟩
  · unfold NamesFunctions
    rw [hmap]
    exact namesFunctions_foldl hstart _
  · rw [← cFunc_foldl]
    simp only [ClassData.cFunc, hmap]
  · rw [← cxxFunc_foldl]
    simp only [ClassData.cxxFunc, hmap]

/-- In every run the method table of an open class is what the one run of its `__cls_init`
registered: under each name the last C function and the last C++ function, and no name without a
function. A class that is not open has no methods. -/
theorem methods_of_open_class (hreach : Reach openStep anyEvent {} h) :
    (∀ c, ¬ h.IsOpen c → h.methods c = .empty) ∧
      ∀ c, h.IsOpen c → ∃ lib, (h.loading c).handle = some lib ∧
        NamesFunctions (h.cls c) ∧ ∀ mname,
          (h.cls c).cFunc mname =
            ((lib.init.getD []).filterMap (InitCall.cFunc mname)).getLast? ∧
          (h.cls c).cxxFunc mname =
            ((lib.init.getD []).filterMap (InitCall.cxxFunc mname)).getLast? := by
  have hinv := inv_of_reach hreach
  have hmethods := methodical_of_reach hreach
  refine ⟨fun c hnot => (hmethods c).trans (loading_methods_of_not_open hnot), fun c hc => ?_⟩
  obtain ⟨lib, hlib⟩ := Option.isSome_iff_exists.mp ((hinv.sound c).handled (.inr hc))
  exact ⟨lib, hlib, hmethods.functions hc hlib⟩

/-- The one method of `lock` after `rgw` was opened. -/
theorem methods_of_lock : pairOpened.IsOpen (ascii "lock") ∧
    (pairOpened.cls (ascii "lock")).cxxFunc (ascii "lock") = some 7 ∧
    ∃ lib, (pairOpened.loading (ascii "lock")).handle = some lib ∧
      (pairOpened.cls (ascii "lock")).cxxFunc (ascii "lock") =
        ((lib.init.getD []).filterMap (InitCall.cxxFunc (ascii "lock"))).getLast? := by
  have hopen : pairOpened.IsOpen (ascii "lock") := by decide +kernel
  obtain ⟨lib, hlib, -, hfuncs⟩ := (methods_of_open_class reach_pairOpened).2 _ hopen
  exact ⟨hopen, by decide +kernel, lib, hlib, (hfuncs (ascii "lock")).2⟩

end Tables

/-! ## `ClassMethod::exec` and `OSA_ExecClass` -/

/-- The code behind the function pointers: what a C++ method returns with its output, and what a C
method returns with the buffer it allocated, if it did. -/
structure Functions where
  cxx : Nat → Bytes → Int × Bytes
  c : Nat → Bytes → Int × Option Bytes

/-- A call of a C method: `outdata` takes over its buffer. -/
def Functions.callC (functions : Functions) (func : Nat) (indata : Bytes) : Int × Bytes :=
  let (ret, out) := functions.c func indata
  (ret, out.getD [])

/-- `ClassMethod::exec`; `none` is a call through a null pointer. -/
def ClassMethod.exec (method : ClassMethod) (functions : Functions) (indata : Bytes) :
    Option (Int × Bytes) :=
  match method.cxxFunc with
  | some func => some (functions.cxx func indata)
  | none => method.func.map fun func => functions.callC func indata

/-- What `OSA_ExecClass` finds in the class handler, after its call of `open_class`. -/
def withClasses (base : ClassEnv) (functions : Functions) (h : Handler) (r : Int) : ClassEnv :=
  { base with
    openClass := fun _ => r
    hasMethod := fun cname mname => ((h.methods cname).find? mname).isSome
    exec := fun cname mname indata =>
      (((h.methods cname).find? mname).bind fun method =>
        method.exec functions indata).getD (0, []) }

/-- What a library runs under a name: the last C++ function registered, else the last C
function. -/
def Library.dispatch (lib : Library) (functions : Functions) (mname indata : Bytes) :
    Option (Int × Bytes) :=
  match ((lib.init.getD []).filterMap (InitCall.cxxFunc mname)).getLast? with
  | some func => some (functions.cxx func indata)
  | none =>
      ((lib.init.getD []).filterMap (InitCall.cFunc mname)).getLast?.map fun func =>
        functions.callC func indata

section Dispatch

variable {env : Env} {h h' : Handler} {functions : Functions} {base : ClassEnv}

/-- The method an open class runs under a name. -/
theorem exec_of_open (functions : Functions) {c : Bytes} (hmethods : Methodical h)
    (hc : h.IsOpen c) {lib : Library} (hlib : (h.loading c).handle = some lib)
    (mname indata : Bytes) :
    (((h.methods c).find? mname).bind fun method => method.exec functions indata) =
        lib.dispatch functions mname indata ∧
      (((h.methods c).find? mname).isSome ↔ (lib.dispatch functions mname indata).isSome) := by
  obtain ⟨hnames, hfuncs⟩ := hmethods.functions hc hlib
  obtain ⟨hfunc, hcxx⟩ := hfuncs mname
  unfold Library.dispatch
  rw [← hfunc, ← hcxx]
  unfold ClassData.cFunc ClassData.cxxFunc Handler.methods ClassMethod.exec
  cases hfind : (h.cls c).methodsMap.find? mname with
  | none => exact ⟨rfl, Iff.rfl⟩
  | some method =>
      simp only [Option.bind_some]
      refine ⟨trivial, iff_of_true rfl ?_⟩
      rcases hnames mname method hfind with hsome | hsome
      · obtain ⟨func, hfunc⟩ := Option.isSome_iff_exists.mp hsome
        rw [hfunc]
        cases method.cxxFunc <;> rfl
      · obtain ⟨func, hfunc⟩ := Option.isSome_iff_exists.mp hsome
        rw [hfunc]
        rfl

/-- A class call, other than the prefetch and the copy-up, after every run of the handler: it is
refused unless the class is `rgw` or `lock`, `open_class` succeeds and the library has registered
the method; otherwise the function registered last is run, a C++ one before a C one, and its result
is returned. Only for these two classes has `open_class` to return. -/
theorem class_call_dispatch (hreach : Reach openStep anyEvent {} h) {depth : Nat} {r : Int}
    {clientop : OSDOp} {osdop : OpRequestOps} {cname mname indata rest : Bytes}
    (hopen : checkClassList cname = true → openClass env depth h cname = .ok (h', r))
    (hdecode : decodeCall clientop clientop.indata.bytes = .ok ((cname, mname, indata), rest))
    (hprefetch : ¬ (cname = ascii "rpc" ∧ mname = ascii "das_prefetch"))
    (hcopyup : ¬ (cname = ascii "rbd" ∧ mname = ascii "copyup")) :
    osaExecClass (withClasses base functions h' r) clientop osdop =
      .ok (match
        if checkClassList cname ∧ r = 0 then
          (h'.loading cname).handle.bind fun lib => lib.dispatch functions (cStr mname) indata
        else none with
      | none => { ret := eopnotsupp, clientop := clientop, osdop := osdop }
      | some result =>
          execMethod { base with exec := fun _ _ _ => result } clientop osdop cname (cStr mname)
            indata) := by
  unfold osaExecClass
  rw [hdecode]
  simp only [execNamedClass]
  rw [if_neg hprefetch, if_neg hcopyup]
  by_cases hlist : checkClassList cname = true
  · by_cases hr : r = 0
    · subst hr
      have hinv := inv_of_reach hreach
      have hmethods := openClass_methodical hinv (methodical_of_reach hreach) (hopen hlist)
      obtain ⟨hinv', hc⟩ : Inv ∅ h' ∧ h'.IsOpen cname := by
        rcases openClass_spec hinv (hopen hlist) with ⟨hperm, -⟩ | ⟨-, hloaded⟩
        · exact absurd hperm (by decide)
        · refine ⟨hloaded.inv, ?_⟩
          rcases hloaded.result with ⟨-, hc⟩ | ⟨hneg, -⟩
          · exact hc
          · exact absurd hneg (lt_irrefl 0)
      obtain ⟨lib, hlib⟩ := Option.isSome_iff_exists.mp ((hinv'.sound cname).handled (.inr hc))
      obtain ⟨hexec, hsome⟩ := exec_of_open functions hmethods hc hlib (cStr mname) indata
      have hopened : (withClasses base functions h' 0).openClass cname = 0 := rfl
      have hboth : checkClassList cname = true ∧ (0 : Int) = 0 := ⟨hlist, rfl⟩
      rw [if_neg (not_not.mpr hlist), if_neg (not_not.mpr hopened), if_pos hboth, hlib,
        Option.bind_some]
      cases hdispatch : lib.dispatch functions (cStr mname) indata with
      | none =>
          rw [hdispatch] at hsome
          have hnot : ¬ (withClasses base functions h' 0).hasMethod cname (cStr mname) = true :=
            fun hhas => Bool.noConfusion (hsome.mp hhas)
          rw [if_pos hnot]
      | some result =>
          rw [hdispatch] at hsome hexec
          have hhas : (withClasses base functions h' 0).hasMethod cname (cStr mname) = true :=
            hsome.mpr rfl
          rw [if_neg (not_not.mpr hhas)]
          have hresult : (withClasses base functions h' 0).exec cname (cStr mname) indata =
              result := by
            show Option.getD _ _ = result
            rw [hexec]
            rfl
          simp only [execMethod, hresult]
    · have hfailed : (withClasses base functions h' r).openClass cname ≠ 0 := hr
      rw [if_neg (not_not.mpr hlist), if_pos hfailed, if_neg fun hboth => hr hboth.2]
  · rw [if_pos hlist, if_neg fun hboth => hlist hboth.1]

/-- A call of the method `lock` of the class `lock`. -/
def lockCall : OSDOp where
  op := { op := .call, classLen := 4, methodLen := 4 }
  indata := { bytes := ascii "locklock" }

/-- Functions that answer with their own address. -/
def echoFunctions : Functions where
  cxx func indata := (0, Fin.ofNat 256 func :: indata)
  c func _ := (func, none)

/-- A back end that is not asked. -/
def idleBackEnd : ClassEnv where
  prefetch _ _ := 0
  stat := (0, [])
  write _ := 0
  openClass _ := 0
  hasMethod _ _ := false
  exec _ _ _ := (0, [])

/-- The call runs the function that `__cls_init` registered. -/
theorem lock_call_dispatch :
    osaExecClass (withClasses idleBackEnd echoFunctions pairOpened 0) lockCall
        { opSubType := .call } =
      .ok (execMethod { idleBackEnd with exec := fun _ _ _ => (0, [7]) } lockCall
        { opSubType := .call } (ascii "lock") (ascii "lock") []) := by
  have hopen : openClass pairEnv 1 pairOpened (ascii "lock") = .ok (pairOpened, 0) := rfl
  have hdecode : decodeCall lockCall lockCall.indata.bytes =
      .ok ((ascii "lock", ascii "lock", []), []) := rfl
  refine (class_call_dispatch reach_pairOpened (fun _ => hopen) hdecode (by decide)
    (by decide)).trans ?_
  rfl

end Dispatch

end GlobalCacheAdaptor.ServerAdaptor.ClassHandler

import GlobalCacheAdaptor.Lib.OrdMap
import GlobalCacheAdaptor.Lib.Run
import GlobalCacheAdaptor.ServerAdaptor.ClassApi
import GlobalCacheAdaptor.ServerAdaptor.ObjectName
import Mathlib.Data.List.Sort
import Mathlib.Data.PNat.Basic

/-!
# The class handler

`open_class` loads a class library on demand: `dlopen`, then every class the library names in
`class_deps`, then the library's `__cls_init`. `_load_class` calls itself for the dependencies, so
its model takes the depth of the stack it may use, and `Fault.stackOverflow` is the end of that
stack. The second half of the file says what each part of a load changes in the class table; what
holds of the table as a whole is in `ClassTable`.
-/

namespace GlobalCacheAdaptor.ServerAdaptor.ClassHandler

open Lib

/-! ## The class table -/

/-- `ClassData::Status`. -/
inductive Status where
  | classUnknown
  | classMissing
  | classMissingDeps
  | classInitializing
  | classOpen
  deriving DecidableEq, Repr

/-- `ClassMethod`; a function pointer is its address. -/
structure ClassMethod where
  name : Bytes := []
  flags : BitVec 32 := 0
  func : Option Nat := none
  cxxFunc : Option Nat := none

/-- What a class library calls from its `__cls_init`: `cls_register`, and the two method
registrations with the class handle that `cls_register` left. -/
inductive InitCall where
  | register (name : Bytes)
  | registerMethod (mname : Bytes) (flags : BitVec 32) (func : Nat)
  | registerCxxMethod (mname : Bytes) (flags : BitVec 32) (func : Nat)

/-- The symbols of an open library: the names of `class_deps` up to the first null, and the calls
of `__cls_init` if there is one. -/
structure Library where
  deps : List Bytes
  init : Option (List InitCall)

/-- The part of `ClassData` that loading works on. -/
structure Loading where
  status : Status := .classUnknown
  handle : Option Library := none
  dependencies : List Bytes := []
  missingDependencies : List Bytes := []

/-- `ClassData`; the sets of dependencies list the names of the classes they point at. -/
structure ClassData extends Loading where
  whitelisted : Bool := false
  methodsMap : OrdMap Bytes ClassMethod := .empty

/-- The class table. `openOrder` is not in the code: the classes in the order they became open. -/
structure Handler where
  classes : OrdMap Bytes ClassData := .empty
  openOrder : List Bytes := []

/-- What `dlopen` answers; after a failure the file is examined with `stat`. -/
inductive DlOpen where
  | opened (lib : Library)
  | noFile (errno : ℕ+)
  | unloadable

/-- What a call of the handler finds outside: the libraries by file name, the two class lists of
the configuration, and the address at which the map node of a class lives. -/
structure Env where
  dlopen : Bytes → DlOpen
  classPath : Bytes := ascii "/opt/gcache/lib"
  loadList : Bytes
  defaultList : Bytes
  addr : Bytes → Nat

/-- `-EPERM`. -/
def eperm : Int := -1

/-- `PATH_MAX`. -/
def pathMax : Nat := 4096

/-- The file name `snprintf` leaves for a class. -/
def Env.classFile (env : Env) (cname : Bytes) : Bytes :=
  (env.classPath ++ ascii "/libcls_" ++ cStr cname ++ ascii ".so").take (pathMax - 1)

/-- The library of a class. -/
def Env.library (env : Env) (cname : Bytes) : DlOpen := env.dlopen (env.classFile cname)

/-- The entry of a class, or the one a new class starts with. -/
def Handler.cls (h : Handler) (cname : Bytes) : ClassData := (h.classes.find? cname).getD {}

/-- The class has an entry. -/
def Handler.Has (h : Handler) (cname : Bytes) : Prop := (h.classes.find? cname).isSome

instance (h : Handler) (cname : Bytes) : Decidable (h.Has cname) :=
  inferInstanceAs (Decidable (_ = true))

/-- Change the entry of a class. -/
def Handler.modify (h : Handler) (cname : Bytes) (f : ClassData → ClassData) : Handler :=
  { h with classes := h.classes.insert cname (f (h.cls cname)) }

/-- How far a class is loaded. -/
def Handler.loading (h : Handler) (cname : Bytes) : Loading := (h.cls cname).toLoading

/-- The class is usable. -/
def Handler.IsOpen (h : Handler) (cname : Bytes) : Prop := (h.loading cname).status = .classOpen

instance (h : Handler) (cname : Bytes) : Decidable (h.IsOpen cname) :=
  inferInstanceAs (Decidable (_ = _))

/-! ## `in_class_list` and `_get_class` -/

/-- The words an `istream_iterator` reads: the nonempty runs between white space. -/
def words (list : Bytes) : List Bytes := (list.splitOnP isSpace).filter (· ≠ [])

/-- `in_class_list`. -/
def inClassList (cname list : Bytes) : Bool :=
  (words list).any fun word => word = cname ∨ word = ascii "*"

/-- `_get_class` without the check. -/
def Handler.getClass (h : Handler) (env : Env) (cname : Bytes) : Handler :=
  if h.Has cname then h
  else h.modify cname fun _ => { whitelisted := inClassList cname env.defaultList }

/-- `_get_class` with the check; `none` is the null pointer. -/
def Handler.getAllowed (h : Handler) (env : Env) (cname : Bytes) : Option Handler :=
  if ¬ h.Has cname ∧ ¬ inClassList cname env.loadList then none else some (h.getClass env cname)

/-! ## Registration from `__cls_init` -/

/-- How a call into the handler fails to return. -/
inductive Fault where
  | stackOverflow
  | nullHandle
  deriving DecidableEq, Repr

/-- `ClassData::register_method`. -/
def ClassData.registerMethod (cls : ClassData) (mname : Bytes) (flags : BitVec 32) (func : Nat) :
    ClassData :=
  if flags = 0 then cls
  else
    { cls with
      methodsMap := cls.methodsMap.insert mname
        { (cls.methodsMap.find? mname).getD {} with
          func := some func, name := mname, flags := flags } }

/-- `ClassData::register_cxx_method`. -/
def ClassData.registerCxxMethod (cls : ClassData) (mname : Bytes) (flags : BitVec 32)
    (func : Nat) : ClassData :=
  { cls with
    methodsMap := cls.methodsMap.insert mname
      { (cls.methodsMap.find? mname).getD {} with
        cxxFunc := some func, name := mname, flags := flags } }

/-- `CLS_METHOD_RD | CLS_METHOD_WR`. -/
def clsMethodRdWr : BitVec 32 := 3

/-- One call of `__cls_init`; the class handle is the variable `cls_register` writes. -/
def initCall (env : Env) : Handler × Option Bytes → InitCall → Except Fault (Handler × Option Bytes)
  | (h, _), .register name =>
      -- `register_class`: only a class that is being initialized is handed out
      let h := h.getClass env name
      .ok (h, if (h.loading name).status = .classInitializing then some name else none)
  | (h, handle), .registerMethod mname flags func =>
      if flags &&& clsMethodRdWr = 0 then .ok (h, handle)
      else
        match handle with
        | none => .error .nullHandle
        | some cname => .ok (h.modify cname fun cls => cls.registerMethod mname flags func, handle)
  | (h, handle), .registerCxxMethod mname flags func =>
      match handle with
      | none => .error .nullHandle
      | some cname => .ok (h.modify cname fun cls => cls.registerCxxMethod mname flags func, handle)

/-- The calls of `__cls_init` in order. -/
def runInit (env : Env) : List InitCall → Handler × Option Bytes →
    Except Fault (Handler × Option Bytes)
  | [], state => .ok state
  | call :: rest, state =>
      match initCall env state call with
      | .error fault => .error fault
      | .ok state => runInit env rest state

/-! ## `_load_class` -/

/-- `set<ClassData *>::insert`: the set is in the order of the addresses. -/
def setInsert (env : Env) (cname : Bytes) (s : List Bytes) : List Bytes :=
  if s.contains cname then s else s.orderedInsert (fun a b => env.addr a ≤ env.addr b) cname

/-- `cls->status = status`. -/
def Handler.setStatus (h : Handler) (cname : Bytes) (status : Status) : Handler :=
  h.modify cname fun cls => { cls with status := status }

/-- The class is open: the last assignment of a load. -/
def Handler.setOpen (h : Handler) (cname : Bytes) : Handler :=
  { h.setStatus cname .classOpen with openOrder := h.openOrder ++ [cname] }

/-- One name of `class_deps`. -/
def recordDep (env : Env) (cname : Bytes) (h : Handler) (dep : Bytes) : Handler :=
  let h := h.getClass env dep
  h.modify cname fun cls =>
    { cls with
      dependencies := setInsert env dep cls.dependencies
      missingDependencies :=
        if h.IsOpen dep then cls.missingDependencies
        else setInsert env dep cls.missingDependencies }

/-- The first part of `_load_class`: open the library of a class that was never opened or was
missing, and read its `class_deps`. The result is negative if `_load_class` returns here. -/
def openLibrary (env : Env) (h : Handler) (cname : Bytes) : Handler × Int :=
  if (h.loading cname).status = .classUnknown ∨ (h.loading cname).status = .classMissing then
    match env.library cname with
    | .opened lib =>
        (lib.deps.foldl (recordDep env cname)
          (h.modify cname fun cls => { cls with handle := some lib }), 0)
    | .noFile errno =>
        (h.modify cname fun cls => { cls with handle := none, status := .classMissing }, -errno)
    | .unloadable =>
        (h.modify cname fun cls => { cls with handle := none, status := .classMissing }, eio)
  else (h, 0)

/-- `cls->missing_dependencies.erase`. -/
def Handler.eraseMissing (h : Handler) (cname dc : Bytes) : Handler :=
  h.modify cname fun cls =>
    { cls with missingDependencies := cls.missingDependencies.erase dc }

/-- The loop over `missing_dependencies`. The list is the set at the start of the loop: what a
nested load does to the set of a class further down is settled in `Resolving.missing_after`. -/
def resolve (load : Handler → Bytes → Except Fault (Handler × Int)) (cname : Bytes) :
    List Bytes → Handler → Except Fault (Handler × Int)
  | [], h => .ok (h, 0)
  | dc :: rest, h =>
      match load h dc with
      | .error fault => .error fault
      | .ok (h, r) =>
          if r < 0 then .ok (h.setStatus cname .classMissingDeps, r)
          else resolve load cname rest (h.eraseMissing cname dc)

/-- The last part of `_load_class`: `__cls_init`, if the library has it, and the class is open. -/
def clsInit (env : Env) (h : Handler) (cname : Bytes) : Except Fault Handler :=
  match (h.loading cname).handle.bind Library.init with
  | none => .ok (h.setOpen cname)
  | some calls =>
      match runInit env calls (h.setStatus cname .classInitializing, none) with
      | .error fault => .error fault
      | .ok (h, _) => .ok (h.setOpen cname)

/-- `_load_class`, on a stack of the given depth. -/
def loadClass (env : Env) : Nat → Handler → Bytes → Except Fault (Handler × Int)
  | 0, _, _ => .error .stackOverflow
  | depth + 1, h, cname =>
      if h.IsOpen cname then .ok (h, 0)
      else
        match openLibrary env h cname with
        | (h, r) =>
            if r < 0 then .ok (h, r)
            else
              match resolve (loadClass env depth) cname
                  (h.loading cname).missingDependencies h with
              | .error fault => .error fault
              | .ok (h, r) =>
                  if r < 0 then .ok (h, r)
                  else (clsInit env h cname).map fun h => (h, 0)

/-- `open_class`. -/
def openClass (env : Env) (depth : Nat) (h : Handler) (cname : Bytes) :
    Except Fault (Handler × Int) :=
  match h.getAllowed env cname with
  | none => .ok (h, eperm)
  | some h => if h.IsOpen cname then .ok (h, 0) else loadClass env depth h cname

/-! ## What the parts change -/

section Parts

variable {env : Env} {h h' : Handler} {c d x : Bytes}

@[simp] theorem cls_modify (f : ClassData → ClassData) :
    (h.modify c f).cls x = if x = c then f (h.cls c) else h.cls x := by
  unfold Handler.modify Handler.cls
  rw [OrdMap.find?_insert]
  split_ifs <;> rfl

@[simp] theorem has_modify (f : ClassData → ClassData) :
    (h.modify c f).Has x ↔ x = c ∨ h.Has x := by
  unfold Handler.modify Handler.Has
  rw [OrdMap.find?_insert]
  split_ifs with hx <;> simp [hx]

@[simp] theorem openOrder_modify (f : ClassData → ClassData) :
    (h.modify c f).openOrder = h.openOrder := rfl

/-- A change that keeps how far the class is loaded keeps that of every class. -/
theorem loading_modify_same {f : ClassData → ClassData}
    (hf : (f (h.cls c)).toLoading = (h.cls c).toLoading) :
    (h.modify c f).loading x = h.loading x := by
  unfold Handler.loading
  rw [cls_modify]
  split_ifs with hx
  · rw [hf, hx]
  · rfl

/-- A change of one class leaves the others. -/
theorem loading_modify_of_ne {f : ClassData → ClassData} (hx : x ≠ c) :
    (h.modify c f).loading x = h.loading x := by
  unfold Handler.loading
  rw [cls_modify, if_neg hx]

/-- A change of the class itself. -/
theorem loading_modify_self {f : ClassData → ClassData} :
    (h.modify c f).loading c = (f (h.cls c)).toLoading := by
  unfold Handler.loading
  rw [cls_modify, if_pos rfl]

/-- A new status of the class itself. -/
theorem loading_setStatus_self {status : Status} :
    (h.setStatus c status).loading c = { h.loading c with status := status } :=
  loading_modify_self

/-- A new status of another class. -/
theorem loading_setStatus_of_ne {status : Status} (hx : x ≠ c) :
    (h.setStatus c status).loading x = h.loading x :=
  loading_modify_of_ne hx

@[simp] theorem dependencies_setStatus {status : Status} :
    ((h.setStatus c status).loading x).dependencies = (h.loading x).dependencies := by
  by_cases hx : x = c
  · rw [hx, loading_setStatus_self]
  · rw [loading_setStatus_of_ne hx]

@[simp] theorem handle_setStatus {status : Status} :
    ((h.setStatus c status).loading x).handle = (h.loading x).handle := by
  by_cases hx : x = c
  · rw [hx, loading_setStatus_self]
  · rw [loading_setStatus_of_ne hx]

@[simp] theorem has_setStatus {status : Status} :
    (h.setStatus c status).Has x ↔ x = c ∨ h.Has x := has_modify _

/-- Becoming open is a new status and a new last element of the order. -/
theorem loading_setOpen : (h.setOpen c).loading x = (h.setStatus c .classOpen).loading x := rfl

@[simp] theorem has_setOpen : (h.setOpen c).Has x ↔ x = c ∨ h.Has x :=
  @has_setStatus h c x .classOpen

/-- A dependency taken off the set of the class itself. -/
theorem loading_eraseMissing_self :
    (h.eraseMissing c d).loading c =
      { h.loading c with missingDependencies := (h.loading c).missingDependencies.erase d } :=
  loading_modify_self

/-- A dependency taken off the set of another class. -/
theorem loading_eraseMissing_of_ne (hx : x ≠ c) :
    (h.eraseMissing c d).loading x = h.loading x :=
  loading_modify_of_ne hx

@[simp] theorem handle_eraseMissing :
    ((h.eraseMissing c d).loading x).handle = (h.loading x).handle := by
  by_cases hx : x = c
  · rw [hx, loading_eraseMissing_self]
  · rw [loading_eraseMissing_of_ne hx]

/-- A change that changes nothing. -/
theorem modify_eq_self {f : ClassData → ClassData} (hhas : h.Has c)
    (hf : f (h.cls c) = h.cls c) : h.modify c f = h := by
  obtain ⟨data, hdata⟩ := Option.isSome_iff_exists.mp hhas
  have hcls : h.cls c = data := by
    unfold Handler.cls
    rw [hdata]
    rfl
  have hmap : h.classes.insert c (f (h.cls c)) = h.classes := by
    apply OrdMap.ext_find?
    intro k
    rw [OrdMap.find?_insert]
    split_ifs with hk
    · rw [hk, hdata, hf, hcls]
    · rfl
  unfold Handler.modify
  rw [hmap]

/-- An entry that was not there starts as a new class does. -/
theorem cls_of_not_has (hnew : ¬ h.Has c) : h.cls c = {} := by
  unfold Handler.Has at hnew
  rw [Option.not_isSome_iff_eq_none] at hnew
  unfold Handler.cls
  rw [hnew]
  rfl

/-- `_get_class` loads nothing. -/
@[simp] theorem loading_getClass : (h.getClass env c).loading x = h.loading x := by
  unfold Handler.getClass
  split_ifs with hhas
  · rfl
  · apply loading_modify_same
    rw [cls_of_not_has hhas]

@[simp] theorem has_getClass : (h.getClass env c).Has x ↔ x = c ∨ h.Has x := by
  unfold Handler.getClass
  split_ifs with hhas
  · constructor
    · exact Or.inr
    · rintro (rfl | hx)
      · exact hhas
      · exact hx
  · exact has_modify _

@[simp] theorem openOrder_getClass : (h.getClass env c).openOrder = h.openOrder := by
  unfold Handler.getClass
  split_ifs <;> rfl

/-- `_get_class` of a class with an entry. -/
theorem getClass_of_has (hhas : h.Has c) : h.getClass env c = h := if_pos hhas

@[simp] theorem mem_setInsert {s : List Bytes} : x ∈ setInsert env c s ↔ x = c ∨ x ∈ s := by
  unfold setInsert
  split_ifs with hc
  · constructor
    · exact Or.inr
    · rintro (rfl | hx)
      · exact List.contains_iff_mem.mp hc
      · exact hx
  · exact List.mem_orderedInsert _

/-- An element that is there is not inserted again. -/
theorem setInsert_of_mem {s : List Bytes} (h : x ∈ s) : setInsert env x s = s :=
  if_pos (List.contains_iff_mem.mpr h)

/-- Two tables that differ in methods and new entries only. -/
structure SameLoading (h h' : Handler) : Prop where
  loading : ∀ x, h'.loading x = h.loading x
  has : ∀ x, h.Has x → h'.Has x
  openOrder : h'.openOrder = h.openOrder

theorem SameLoading.refl (h : Handler) : SameLoading h h := ⟨fun _ => rfl, fun _ => id, rfl⟩

theorem SameLoading.trans {h₁ h₂ h₃ : Handler} (h₁₂ : SameLoading h₁ h₂)
    (h₂₃ : SameLoading h₂ h₃) : SameLoading h₁ h₃ where
  loading x := (h₂₃.loading x).trans (h₁₂.loading x)
  has x hx := h₂₃.has x (h₁₂.has x hx)
  openOrder := h₂₃.openOrder.trans h₁₂.openOrder

/-- Registering a method loads nothing. -/
theorem same_modify {f : ClassData → ClassData} (hf : ∀ cls, (f cls).toLoading = cls.toLoading) :
    SameLoading h (h.modify c f) where
  loading _ := loading_modify_same (hf _)
  has _ hx := (has_modify f).mpr (.inr hx)
  openOrder := rfl

theorem toLoading_registerMethod (cls : ClassData) (mname : Bytes) (flags : BitVec 32)
    (func : Nat) : (cls.registerMethod mname flags func).toLoading = cls.toLoading := by
  unfold ClassData.registerMethod
  split_ifs <;> rfl

/-- A call of `__cls_init` loads nothing. -/
theorem initCall_same {call : InitCall} {handle handle' : Option Bytes}
    (hcall : initCall env (h, handle) call = .ok (h', handle')) : SameLoading h h' := by
  cases call with
  | register name =>
      cases hcall
      exact ⟨fun _ => loading_getClass, fun _ hx => has_getClass.mpr (.inr hx), openOrder_getClass⟩
  | registerMethod mname flags func =>
      simp only [initCall] at hcall
      split_ifs at hcall with hflags
      · cases hcall
        exact .refl _
      · cases handle with
        | none => cases hcall
        | some cname =>
            cases hcall
            exact same_modify fun cls => toLoading_registerMethod cls mname flags func
  | registerCxxMethod mname flags func =>
      cases handle with
      | none => cases hcall
      | some cname =>
          cases hcall
          exact same_modify fun _ => rfl

/-- `__cls_init` loads nothing. -/
theorem runInit_same {calls : List InitCall} {handle handle' : Option Bytes}
    (hrun : runInit env calls (h, handle) = .ok (h', handle')) : SameLoading h h' := by
  induction calls generalizing h handle with
  | nil =>
      cases hrun
      exact .refl _
  | cons call rest ih =>
      simp only [runInit] at hrun
      split at hrun
      · cases hrun
      · rename_i state hcall
        obtain ⟨h₁, handle₁⟩ := state
        exact (initCall_same hcall).trans (ih hrun)

/-- What reading `class_deps` does to the table. -/
structure DepsRead (c : Bytes) (deps : List Bytes) (h h' : Handler) : Prop where
  others : ∀ x, x ≠ c → h'.loading x = h.loading x
  status : (h'.loading c).status = (h.loading c).status
  handle : (h'.loading c).handle = (h.loading c).handle
  dependencies : ∀ d, d ∈ (h'.loading c).dependencies ↔ d ∈ deps ∨ d ∈ (h.loading c).dependencies
  missing : ∀ d, d ∈ (h'.loading c).missingDependencies ↔
    (d ∈ deps ∧ ¬ h.IsOpen d) ∨ d ∈ (h.loading c).missingDependencies
  has : ∀ x, x ∈ deps ∨ h.Has x → h'.Has x
  openOrder : h'.openOrder = h.openOrder

/-- Reading dependencies changes no status. -/
theorem DepsRead.isOpen_iff {deps : List Bytes} (hread : DepsRead c deps h h') (x : Bytes) :
    h'.IsOpen x ↔ h.IsOpen x := by
  unfold Handler.IsOpen
  by_cases hx : x = c
  · rw [hx, hread.status]
  · rw [hread.others x hx]

/-- One name of `class_deps`. -/
theorem recordDep_read : DepsRead c [d] h (recordDep env c h d) := by
  have hopen : (h.getClass env d).IsOpen d ↔ h.IsOpen d := by
    unfold Handler.IsOpen
    rw [loading_getClass]
  have hold : ((h.getClass env d).cls c).toLoading = (h.cls c).toLoading := loading_getClass
  have hstatus : ((h.getClass env d).cls c).status = (h.cls c).status :=
    congrArg Loading.status hold
  have hhandle : ((h.getClass env d).cls c).handle = (h.cls c).handle :=
    congrArg Loading.handle hold
  refine ⟨fun x hx => ?_, ?_, ?_, fun d' => ?_, fun d' => ?_, fun x hx => ?_, ?_⟩
  · exact (loading_modify_of_ne hx).trans loading_getClass
  · rw [recordDep, loading_modify_self]
    exact hstatus
  · rw [recordDep, loading_modify_self]
    exact hhandle
  · rw [recordDep, loading_modify_self]
    simp only [mem_setInsert, List.mem_singleton]
    exact or_congr_right (iff_of_eq (congrArg (d' ∈ ·.dependencies) hold))
  · rw [recordDep, loading_modify_self]
    simp only [hopen, List.mem_singleton]
    have hmissing : d' ∈ ((h.getClass env d).cls c).missingDependencies ↔
        d' ∈ (h.loading c).missingDependencies :=
      iff_of_eq (congrArg (d' ∈ ·.missingDependencies) hold)
    split_ifs with hd
    · rw [hmissing]
      constructor
      · exact Or.inr
      · rintro (⟨rfl, hnot⟩ | hd')
        · exact absurd hd hnot
        · exact hd'
    · rw [mem_setInsert, hmissing]
      constructor
      · rintro (rfl | hd')
        · exact .inl ⟨rfl, hd⟩
        · exact .inr hd'
      · rintro (⟨rfl, -⟩ | hd')
        · exact .inl rfl
        · exact .inr hd'
  · rw [recordDep, has_modify, has_getClass]
    rcases hx with hx | hx
    · exact .inr (.inl (List.mem_singleton.mp hx))
    · exact .inr (.inr hx)
  · exact openOrder_getClass

/-- The names of `class_deps` one after the other. -/
theorem recordDeps_read (deps : List Bytes) :
    DepsRead c deps h (deps.foldl (recordDep env c) h) := by
  induction deps generalizing h with
  | nil =>
      refine ⟨fun _ _ => rfl, rfl, rfl, fun d => ?_, fun d => ?_, fun x hx => ?_, rfl⟩
      · simp
      · simp
      · simpa using hx
  | cons d rest ih =>
      have hfirst : DepsRead c [d] h (recordDep env c h d) := recordDep_read
      have hrest := ih (h := recordDep env c h d)
      rw [List.foldl_cons]
      refine ⟨fun x hx => ?_, ?_, ?_, fun d' => ?_, fun d' => ?_, fun x hx => ?_, ?_⟩
      · exact (hrest.others x hx).trans (hfirst.others x hx)
      · exact hrest.status.trans hfirst.status
      · exact hrest.handle.trans hfirst.handle
      · rw [hrest.dependencies, hfirst.dependencies, List.mem_singleton, List.mem_cons]
        tauto
      · rw [hrest.missing, hfirst.missing, hfirst.isOpen_iff, List.mem_singleton, List.mem_cons]
        tauto
      · apply hrest.has
        rcases hx with hx | hx
        · rcases List.mem_cons.mp hx with rfl | hx
          · exact .inr (hfirst.has x (.inl List.mem_cons_self))
          · exact .inl hx
        · exact .inr (hfirst.has x (.inr hx))
      · exact hrest.openOrder.trans hfirst.openOrder

/-- Reading `class_deps` adds the entries of the names at most. -/
theorem has_of_recordDeps {deps : List Bytes} (hx : (deps.foldl (recordDep env c) h).Has x) :
    x ∈ deps ∨ x = c ∨ h.Has x := by
  induction deps generalizing h with
  | nil => exact .inr (.inr hx)
  | cons d rest ih =>
      rw [List.foldl_cons] at hx
      rcases ih hx with hrest | hc | hstep
      · exact .inl (List.mem_cons_of_mem d hrest)
      · exact .inr (.inl hc)
      · rw [recordDep, has_modify, has_getClass] at hstep
        rcases hstep with hc | rfl | hold
        · exact .inr (.inl hc)
        · exact .inl List.mem_cons_self
        · exact .inr (.inr hold)

/-- `__cls_init` adds the entries of the classes it registers at most. -/
theorem has_of_runInit {calls : List InitCall} {handle handle' : Option Bytes}
    (hhandle : ∀ cname, handle = some cname → h.Has cname)
    (hrun : runInit env calls (h, handle) = .ok (h', handle')) (hx : h'.Has x) :
    h.Has x ∨ .register x ∈ calls := by
  induction calls generalizing h handle with
  | nil =>
      cases hrun
      exact .inl hx
  | cons call rest ih =>
      simp only [runInit] at hrun
      cases call with
      | register name =>
          simp only [initCall] at hrun
          have hhandle' : ∀ cname, (if ((h.getClass env name).loading name).status =
              .classInitializing then some name else none) = some cname →
              (h.getClass env name).Has cname := by
            intro cname hname
            split_ifs at hname
            cases hname
            exact has_getClass.mpr (.inl rfl)
          rcases ih hhandle' hrun with hold | hlater
          · rcases has_getClass.mp hold with rfl | hold
            · exact .inr List.mem_cons_self
            · exact .inl hold
          · exact .inr (List.mem_cons_of_mem _ hlater)
      | registerMethod mname flags func =>
          simp only [initCall] at hrun
          split_ifs at hrun with hflags
          · exact (ih hhandle hrun).imp_right (List.mem_cons_of_mem _)
          · cases handle with
            | none => cases hrun
            | some cname =>
                have hold := ih (fun _ _ => (has_modify _).mpr (.inr (hhandle _ ‹_›))) hrun
                rw [has_modify] at hold
                rcases hold with (rfl | hold) | hlater
                · exact .inl (hhandle x rfl)
                · exact .inl hold
                · exact .inr (List.mem_cons_of_mem _ hlater)
      | registerCxxMethod mname flags func =>
          cases handle with
          | none => cases hrun
          | some cname =>
              have hold := ih (fun _ _ => (has_modify _).mpr (.inr (hhandle _ ‹_›))) hrun
              rw [has_modify] at hold
              rcases hold with (rfl | hold) | hlater
              · exact .inl (hhandle x rfl)
              · exact .inl hold
              · exact .inr (List.mem_cons_of_mem _ hlater)

/-- Only a class with an entry has a status. -/
theorem has_of_status (hstatus : (h.loading c).status ≠ .classUnknown) : h.Has c := by
  by_contra hnew
  apply hstatus
  unfold Handler.loading
  rw [cls_of_not_has hnew]

end Parts

end GlobalCacheAdaptor.ServerAdaptor.ClassHandler

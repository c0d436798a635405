import GlobalCacheAdaptor.ServerAdaptor.ClassTable

/-!
# Which classes can be loaded

With the same libraries and lists in every call (`sameEnv`), a class depends on the classes its
library names. Loading it succeeds exactly if these dependencies have no cycle and every library
among them can be opened: `open_class_succeeds_iff` and `open_class_overflows`. The depth of the
stack that a load needs is the length of the longest chain of dependencies (`Height`).
-/

namespace GlobalCacheAdaptor.ServerAdaptor.ClassHandler

open Lib

/-! ## `__cls_init` -/

/-- The calls of `__cls_init` never use a class handle that is null: a method is registered only
after the last `cls_register` named the class itself. -/
def initRuns (cname : Bytes) : List InitCall → Bool → Bool
  | [], _ => true
  | .register name :: rest, _ => initRuns cname rest (name = cname)
  | .registerMethod _ flags _ :: rest, held =>
      (flags &&& clsMethodRdWr = 0 || held) && initRuns cname rest held
  | .registerCxxMethod _ _ _ :: rest, held => held && initRuns cname rest held

section Init

variable {h : Handler} {c : Bytes}

/-- `__cls_init` returns, if the class is the only one that is being initialized. -/
theorem runInit_returns (env : Env) {calls : List InitCall} {held : Bool}
    (honly : ∀ x, (h.loading x).status = .classInitializing ↔ x = c)
    (hruns : initRuns c calls held = true) :
    ∃ state, runInit env calls (h, if held then some c else none) = .ok state := by
  induction calls generalizing h held with
  | nil => exact ⟨_, rfl⟩
  | cons call rest ih =>
      cases call with
      | register name =>
          have hstatus : ((h.getClass env name).loading name).status = .classInitializing ↔
              name = c := by
            rw [loading_getClass]
            exact honly name
          have hcall : initCall env (h, if held then some c else none) (.register name) =
              .ok (h.getClass env name, if decide (name = c) then some c else none) := by
            unfold initCall
            simp only [hstatus, decide_eq_true_eq]
            split_ifs with hname
            · rw [hname]
            · rfl
          simp only [runInit, hcall]
          refine ih (fun x => ?_) hruns
          rw [loading_getClass]
          exact honly x
      | registerMethod mname flags func =>
          simp only [initRuns, Bool.and_eq_true, Bool.or_eq_true, decide_eq_true_eq] at hruns
          obtain ⟨hfirst, hrest⟩ := hruns
          by_cases hflags : flags &&& clsMethodRdWr = 0
          · simp only [runInit, initCall, hflags, if_true]
            exact ih honly hrest
          · obtain rfl : held = true := hfirst.resolve_left hflags
            simp only [runInit, initCall, hflags, if_false, if_true]
            refine ih (fun x => ?_) hrest
            rw [loading_modify_same (toLoading_registerMethod _ _ _ _)]
            exact honly x
      | registerCxxMethod mname flags func =>
          simp only [initRuns, Bool.and_eq_true] at hruns
          obtain ⟨rfl, hrest⟩ := hruns
          simp only [runInit, initCall, if_true]
          refine ih (fun x => ?_) hrest
          rw [loading_modify_same rfl]
          exact honly x

end Init

/-! ## The stack a load needs -/

/-- The library of `a` names `b`. -/
def Env.DependsOn (env : Env) (a b : Bytes) : Prop :=
  ∃ lib, env.library a = .opened lib ∧ b ∈ lib.deps

/-- The `__cls_init` of the class, if there is one, registers its methods with the class. -/
def Env.Initializes (env : Env) (cname : Bytes) : Prop :=
  ∀ lib calls, env.library cname = .opened lib → lib.init = some calls →
    initRuns cname calls false = true

/-- Every chain of dependencies that starts at the class has less than `depth` steps. -/
def Height (env : Env) : Nat → Bytes → Prop
  | 0, _ => False
  | depth + 1, cname => ∀ d, env.DependsOn cname d → Height env depth d

/-- The open libraries are the libraries as they are. -/
def Linked (env : Env) (h : Handler) : Prop :=
  ∀ x lib, (h.loading x).handle = some lib → env.library x = .opened lib

section Stack

variable {env : Env} {h h' : Handler} {S : Set Bytes} {c d : Bytes} {depth : Nat}

/-- A deeper stack is high enough too. -/
theorem Height.mono {depth' : Nat} (hheight : Height env depth c) (hle : depth ≤ depth') :
    Height env depth' c := by
  induction depth generalizing depth' c with
  | zero => exact hheight.elim
  | succ depth ih =>
      obtain ⟨k, rfl⟩ : ∃ k, depth' = k + 1 := ⟨depth' - 1, by omega⟩
      intro d hd
      exact ih (hheight d hd) (by omega)

/-- Finitely many classes with a height have one in common. -/
theorem exists_height_forall {deps : List Bytes} (hdeps : ∀ d ∈ deps, ∃ n, Height env n d) :
    ∃ n, ∀ d ∈ deps, Height env n d := by
  induction deps with
  | nil => exact ⟨0, fun d hd => absurd hd List.not_mem_nil⟩
  | cons d rest ih =>
      obtain ⟨hd, hrest⟩ := List.forall_mem_cons.mp hdeps
      obtain ⟨n, hn⟩ := hd
      obtain ⟨m, hm⟩ := ih hrest
      refine ⟨max n m, List.forall_mem_cons.mpr ⟨hn.mono (le_max_left n m), fun x hx => ?_⟩⟩
      exact (hm x hx).mono (le_max_right n m)

/-- Dependencies without an infinite chain have a height. -/
theorem exists_height (hacc : Acc (fun a b => env.DependsOn b a) c) : ∃ n, Height env n c := by
  induction hacc with
  | intro c _ ih =>
      cases hlib : env.library c with
      | opened lib =>
          have hdeps : ∀ d ∈ lib.deps, ∃ n, Height env n d := fun d hd => ih d ⟨lib, hlib, hd⟩
          obtain ⟨n, hn⟩ := exists_height_forall hdeps
          refine ⟨n + 1, fun d hd => ?_⟩
          obtain ⟨lib', hlib', hd'⟩ := hd
          rw [hlib] at hlib'
          cases hlib'
          exact hn d hd'
      | noFile errno =>
          refine ⟨1, fun d hd => ?_⟩
          obtain ⟨lib', hlib', -⟩ := hd
          rw [hlib] at hlib'
          cases hlib'
      | unloadable =>
          refine ⟨1, fun d hd => ?_⟩
          obtain ⟨lib', hlib', -⟩ := hd
          rw [hlib] at hlib'
          cases hlib'

/-- A class that is missing a dependency depends on it. -/
theorem Recorded.dependsOn (hrec : Recorded env h c) (hinv : Inv S h) (hlinked : Linked env h)
    (hd : d ∈ (h.loading c).missingDependencies) : env.DependsOn c d := by
  have hsound := hinv.sound c
  obtain ⟨lib, hlib⟩ := Option.isSome_iff_exists.mp (hsound.handle_of_recorded hrec)
  exact ⟨lib, hlinked c lib hlib, (hsound.linked lib hlib d).mp (hsound.missing d hd)⟩

/-- Classes that wait for each other have no height. -/
theorem not_height_of_waiting (hinv : Inv S h) (hlinked : Linked env h)
    (hcycle : ∀ x ∈ S, ∃ y ∈ S, Waiting env h x y) (hc : c ∈ S) : ¬ Height env depth c := by
  induction depth generalizing c with
  | zero => exact id
  | succ depth ih =>
      intro hheight
      obtain ⟨y, hy, hrec, rest, hmissing⟩ := hcycle c hc
      have hdep : env.DependsOn c y := by
        apply hrec.dependsOn hinv hlinked
        rw [hmissing]
        exact List.mem_cons_self
      exact ih hy (hheight y hdep)

/-- A load opens no library but those of the environment. -/
theorem HandlesFrom.linked (hhandles : HandlesFrom env h h') (hlinked : Linked env h) :
    Linked env h' := by
  intro x lib hlib
  rcases hhandles x lib hlib with hold | hnew
  · exact hlinked x lib hold
  · exact hnew

/-- `_get_class` opens no library. -/
theorem Linked.getClass (hlinked : Linked env h) : Linked env (h.getClass env c) := by
  intro x lib hlib
  rw [loading_getClass] at hlib
  exact hlinked x lib hlib

/-- The last part of a load returns. -/
theorem Resolving.init_returns (hres : Resolving env S c [] h) (hlinked : Linked env h)
    (hinit : env.Initializes c) : ∃ h', clsInit env h c = .ok h' := by
  obtain ⟨lib, hlib⟩ :=
    Option.isSome_iff_exists.mp ((hres.inv.sound c).handle_of_recorded hres.recorded)
  unfold clsInit
  rw [hlib, Option.bind_some]
  cases hcalls : lib.init with
  | none => exact ⟨_, rfl⟩
  | some calls =>
      have honly : ∀ x, ((h.setStatus c .classInitializing).loading x).status =
          .classInitializing ↔ x = c := by
        intro x
        by_cases hx : x = c
        · rw [hx, loading_setStatus_self]
          exact iff_of_true rfl rfl
        · rw [loading_setStatus_of_ne hx]
          exact iff_of_false (hres.inv.sound x).settled hx
      obtain ⟨state, hrun⟩ := runInit_returns env honly
        (hinit lib calls (hlinked c lib hlib) hcalls)
      rw [if_neg Bool.false_ne_true] at hrun
      simp only [hrun]
      exact ⟨_, rfl⟩

/-- The loop over the dependencies returns, unless one of them does not. -/
theorem Resolving.resolve_returns {missing : List Bytes}
    (hload : ∀ {S : Set Bytes} {h : Handler} {d : Bytes}, Inv S h → Linked env h →
      Blocked env h S d → env.DependsOn c d →
      (∃ result, loadClass env depth h d = .ok result) ∨
        (loadClass env depth h d = .error .stackOverflow ∧ ¬ Height env depth d))
    (hres : Resolving env S c missing h) (hlinked : Linked env h) :
    (∃ result, resolve (loadClass env depth) c missing h = .ok result) ∨
      (resolve (loadClass env depth) c missing h = .error .stackOverflow ∧
        ¬ Height env (depth + 1) c) := by
  induction missing generalizing h with
  | nil => exact .inl ⟨_, rfl⟩
  | cons dc rest ih =>
      have hdep : env.DependsOn c dc := by
        apply hres.recorded.dependsOn hres.inv hlinked
        rw [hres.missing]
        exact List.mem_cons_self
      rcases hload hres.inv hlinked hres.blocked_head hdep with
        ⟨⟨h₁, r₁⟩, hfirst⟩ | ⟨hoverflow, hheight⟩
      · have hloaded := loadClass_spec hres.inv hres.blocked_head hfirst
        simp only [resolve, hfirst]
        rcases hloaded.result with ⟨rfl, -⟩ | ⟨hr, -⟩
        · rw [if_neg (lt_irrefl 0)]
          obtain ⟨hres', -, -⟩ := hres.next hloaded
          apply ih hres'
          intro x lib hlib
          rw [handle_eraseMissing] at hlib
          exact hloaded.handles.linked hlinked x lib hlib
        · rw [if_pos hr]
          exact .inl ⟨_, rfl⟩
      · simp only [resolve, hoverflow]
        exact .inr ⟨trivial, fun hc => hheight (hc dc hdep)⟩

/-- A load returns, unless the stack is lower than the dependencies are high. -/
theorem loadClass_returns (hinv : Inv S h) (hlinked : Linked env h) (hblocked : Blocked env h S c)
    (hinit : ∀ d, Relation.ReflTransGen env.DependsOn c d → env.Initializes d) :
    (∃ result, loadClass env depth h c = .ok result) ∨
      (loadClass env depth h c = .error .stackOverflow ∧ ¬ Height env depth c) := by
  induction depth generalizing S h c with
  | zero => exact .inr ⟨rfl, id⟩
  | succ depth ih =>
      by_cases hc : c ∈ S
      · exact .inr ⟨loadClass_of_waiting (hblocked.cycle hc) hc _,
          not_height_of_waiting hinv hlinked (hblocked.cycle hc) hc⟩
      · unfold loadClass
        split_ifs with hopen
        · exact .inl ⟨_, rfl⟩
        · rcases hlibrary : openLibrary env h c with ⟨h₁, r₁⟩
          simp only
          obtain ⟨hgrows, hhandles, hframe, ⟨rfl, hres⟩ | ⟨hr, hfail⟩⟩ :=
            openLibrary_loading hinv hblocked hc hopen hlibrary
          · rw [if_neg (lt_irrefl 0)]
            have hlinked₁ := hhandles.linked hlinked
            have hload : ∀ {S : Set Bytes} {h : Handler} {d : Bytes}, Inv S h → Linked env h →
                Blocked env h S d → env.DependsOn c d →
                (∃ result, loadClass env depth h d = .ok result) ∨
                  (loadClass env depth h d = .error .stackOverflow ∧ ¬ Height env depth d) :=
              fun hinv hlinked hblocked hdep =>
                ih hinv hlinked hblocked fun x hx => hinit x (.head hdep hx)
            rcases hres.resolve_returns hload hlinked₁ with
              ⟨⟨h₂, r₂⟩, hresolve⟩ | ⟨hoverflow, hheight⟩
            · simp only [hresolve]
              rcases resolve_spec loadClass_spec hres hresolve with
                ⟨rfl, hdone, -, hhandles₂, -⟩ | ⟨hr, -⟩
              · rw [if_neg (lt_irrefl 0)]
                obtain ⟨h₃, hinit'⟩ :=
                  hdone.init_returns (hhandles₂.linked hlinked₁) (hinit c .refl)
                rw [hinit']
                exact .inl ⟨_, rfl⟩
              · rw [if_pos hr]
                exact .inl ⟨_, rfl⟩
            · simp only [hoverflow]
              exact .inr ⟨trivial, hheight⟩
          · rw [if_pos hr]
            exact .inl ⟨_, rfl⟩

end Stack

/-! ## `open_class` with the libraries as they are -/

section Fixed

variable {env : Env} {h h' : Handler} {c d : Bytes}

/-- Every call of the run finds the same libraries and lists. -/
def sameEnv (env : Env) (_ : Handler) (call : OpenCall) : Prop := call.env = env

/-- The open libraries of a run with the libraries as they are. -/
theorem linked_of_reach (hreach : Reach openStep (sameEnv env) {} h) : Linked env h := by
  have hboth : Inv ∅ h ∧ Linked env h := by
    refine hreach.invariant (fun h => Inv ∅ h ∧ Linked env h) ⟨inv_empty, ?_⟩ ?_
    · intro x lib hlib
      cases hlib
    · intro s call t hs hcall hstep
      refine ⟨openStep_inv hs.1 hstep, ?_⟩
      unfold openStep at hstep
      rw [hcall] at hstep
      split at hstep
      · rename_i h₁ r hopen
        cases hstep
        rcases openClass_spec hs.1 hopen with ⟨-, rfl, -⟩ | ⟨-, hloaded⟩
        · exact hs.2
        · exact hloaded.handles.linked hs.2.getClass
      · cases hstep
  exact hboth.2

/-- A dependency of an open class is open. -/
theorem Inv.isOpen_of_dependsOn (hinv : Inv ∅ h) (hlinked : Linked env h) (hc : h.IsOpen c)
    (hdep : env.DependsOn c d) : h.IsOpen d := by
  have hsound := hinv.sound c
  obtain ⟨lib, hlib⟩ := Option.isSome_iff_exists.mp (hsound.handled (.inr hc))
  obtain ⟨lib', hlib', hd⟩ := hdep
  rw [hlinked c lib hlib] at hlib'
  cases hlib'
  rcases hsound.covered d ((hsound.linked lib hlib d).mpr hd) with hd' | hd'
  · rw [hsound.done hc] at hd'
    cases hd'
  · exact hd'

/-- The libraries of an open class and of all classes below it can be opened. -/
theorem Inv.loads_of_isOpen (hinv : Inv ∅ h) (hlinked : Linked env h) (hc : h.IsOpen c)
    (hpath : Relation.ReflTransGen env.DependsOn c d) : env.Loads d := by
  have hd : h.IsOpen d := by
    induction hpath with
    | refl => exact hc
    | tail _ hstep ih => exact hinv.isOpen_of_dependsOn hlinked ih hstep
  obtain ⟨lib, hlib⟩ := Option.isSome_iff_exists.mp ((hinv.sound d).handled (.inr hd))
  exact ⟨lib, hlinked d lib hlib⟩

/-- A recorded dependency is one of the library. -/
theorem Inv.dependsOn_of_recorded (hinv : Inv ∅ h) (hlinked : Linked env h)
    (hdep : h.DependsOn c d) : env.DependsOn c d := by
  have hsound := hinv.sound c
  have hne : ¬ ((h.loading c).status = .classUnknown ∨ (h.loading c).status = .classMissing) := by
    intro hstatus
    obtain ⟨-, hdeps⟩ := hsound.fresh (Set.notMem_empty c) hstatus
    unfold Handler.DependsOn at hdep
    rw [hdeps] at hdep
    cases hdep
  have hhandle : (h.loading c).handle.isSome := by
    apply hsound.handled
    have hsettled := hsound.settled
    cases hstatus : (h.loading c).status with
    | classUnknown => exact absurd (.inl hstatus) hne
    | classMissing => exact absurd (.inr hstatus) hne
    | classMissingDeps => exact .inl rfl
    | classInitializing => exact absurd hstatus hsettled
    | classOpen => exact .inr rfl
  obtain ⟨lib, hlib⟩ := Option.isSome_iff_exists.mp hhandle
  exact ⟨lib, hlinked c lib hlib, (hsound.linked lib hlib d).mp hdep⟩

/-- There is no infinite chain of dependencies below an open class. -/
theorem Inv.acc_of_isOpen (hinv : Inv ∅ h) (hlinked : Linked env h) (hc : h.IsOpen c) :
    Acc (fun a b => env.DependsOn b a) c := by
  obtain ⟨before, after, hsplit⟩ := List.append_of_mem ((hinv.order_mem c).mpr hc)
  -- the dependencies of a class stand before it in the order of opening
  induction hn : before.length using Nat.strong_induction_on generalizing before c after with
  | _ n ih =>
      refine .intro c fun d hd => ?_
      have hdeps : d ∈ (h.loading c).dependencies := by
        have hsound := hinv.sound c
        obtain ⟨lib, hlib⟩ := Option.isSome_iff_exists.mp (hsound.handled (.inr hc))
        obtain ⟨lib', hlib', hd'⟩ := hd
        rw [hlinked c lib hlib] at hlib'
        cases hlib'
        exact (hsound.linked lib hlib d).mpr hd'
      obtain ⟨before', after', rfl⟩ :=
        List.append_of_mem (hinv.order_deps before c after hsplit d hdeps)
      refine ih before'.length ?_ (hinv.isOpen_of_dependsOn hlinked hc hd) before'
        (after' ++ c :: after) ?_ rfl
      · rw [← hn, List.length_append, List.length_cons]
        omega
      · rw [hsplit, List.append_assoc, List.cons_append]

/-- What `open_class` returns, with the libraries as they are. -/
theorem openClass_ok_iff (hinv : Inv ∅ h) (hlinked : Linked env h) {depth : Nat} {r : Int}
    (hopen : openClass env depth h c = .ok (h', r)) :
    r = 0 ↔ h.Permits env c ∧ ∀ d, Relation.ReflTransGen env.DependsOn c d → env.Loads d := by
  rcases openClass_spec hinv hopen with ⟨rfl, -, hnot⟩ | ⟨hpermit, hloaded⟩
  · exact iff_of_false (by decide) fun hboth => hnot hboth.1
  · have hlinked' := hloaded.handles.linked hlinked.getClass
    rcases hloaded.result with ⟨rfl, hc⟩ | ⟨hr, -, blamed, hpath, hmiss⟩
    · exact iff_of_true rfl ⟨hpermit, fun d hd => hloaded.inv.loads_of_isOpen hlinked' hc hd⟩
    · refine iff_of_false hr.ne fun hboth => hmiss (hboth.2 blamed ?_)
      exact Relation.ReflTransGen.mono
        (fun _ _ => hloaded.inv.dependsOn_of_recorded hlinked') c blamed hpath

/-- Whether `open_class` returns, with the libraries as they are. -/
theorem openClass_returns (hinv : Inv ∅ h) (hlinked : Linked env h)
    (hinit : ∀ d, Relation.ReflTransGen env.DependsOn c d → env.Initializes d) (depth : Nat) :
    (∃ result, openClass env depth h c = .ok result) ∨
      (openClass env depth h c = .error .stackOverflow ∧ ¬ Height env depth c) := by
  unfold openClass Handler.getAllowed
  by_cases hrefused : ¬ h.Has c ∧ ¬ inClassList c env.loadList = true
  · rw [if_pos hrefused]
    exact .inl ⟨_, rfl⟩
  · rw [if_neg hrefused]
    simp only
    split_ifs with hstatus
    · exact .inl ⟨_, rfl⟩
    · exact loadClass_returns hinv.getClass hlinked.getClass
        (fun x hx => absurd hx (Set.notMem_empty x)) hinit

/-- With dependencies that have no infinite chain, `open_class` returns on any stack that is deep
enough, and it returns 0 exactly if the class is permitted and every library below it can be
opened. -/
theorem open_class_succeeds_iff (hreach : Reach openStep (sameEnv env) {} h)
    (hacc : Acc (fun a b => env.DependsOn b a) c)
    (hinit : ∀ d, Relation.ReflTransGen env.DependsOn c d → env.Initializes d) :
    ∃ enough, ∀ depth, enough ≤ depth → ∃ h' r, openClass env depth h c = .ok (h', r) ∧
      (r = 0 ↔ h.Permits env c ∧ ∀ d, Relation.ReflTransGen env.DependsOn c d → env.Loads d) := by
  have hinv := inv_of_reach (hreach.mono fun _ _ _ => trivial)
  have hlinked := linked_of_reach hreach
  obtain ⟨enough, henough⟩ := exists_height hacc
  refine ⟨enough, fun depth hdepth => ?_⟩
  rcases openClass_returns hinv hlinked hinit depth with ⟨⟨h', r⟩, hopen⟩ | ⟨-, hlow⟩
  · exact ⟨h', r, hopen, openClass_ok_iff hinv hlinked hopen⟩
  · exact absurd (henough.mono hdepth) hlow

/-- The library of `rgw` names `lock`. -/
theorem library_rgw : pairEnv.library (ascii "rgw") =
    .opened ⟨[ascii "lock"], some [.register (ascii "rgw")]⟩ := rfl

/-- The library of `lock` names nothing. -/
theorem library_lock : pairEnv.library (ascii "lock") =
    .opened ⟨[], some [.register (ascii "lock"), .registerCxxMethod (ascii "lock") 3 7]⟩ := rfl

/-- `lock` alone is below `rgw`, and nothing below `lock`. -/
theorem pair_dependsOn (hc : c = ascii "rgw" ∨ c = ascii "lock") (hd : pairEnv.DependsOn c d) :
    c = ascii "rgw" ∧ d = ascii "lock" := by
  obtain ⟨lib, hlib, hmem⟩ := hd
  rcases hc with rfl | rfl
  · rw [library_rgw] at hlib
    cases hlib
    exact ⟨rfl, List.mem_singleton.mp hmem⟩
  · rw [library_lock] at hlib
    cases hlib
    cases hmem

/-- What a load of `rgw` can come to. -/
theorem pair_below (h : Relation.ReflTransGen pairEnv.DependsOn (ascii "rgw") d) :
    d = ascii "rgw" ∨ d = ascii "lock" := by
  induction h with
  | refl => exact .inl rfl
  | tail _ hdep ih => exact .inr (pair_dependsOn ih hdep).2

/-- `rgw` can be opened, with `lock` below it. -/
theorem rgw_succeeds_iff : ∃ enough, ∀ depth, enough ≤ depth → ∃ h',
    openClass pairEnv depth {} (ascii "rgw") = .ok (h', 0) := by
  have hacc : Acc (fun a b => pairEnv.DependsOn b a) (ascii "rgw") := by
    refine .intro _ fun d hd => .intro _ fun e he => ?_
    obtain ⟨-, rfl⟩ := pair_dependsOn (.inl rfl) hd
    exact absurd (pair_dependsOn (.inr rfl) he).1 (by decide)
  have hinit : ∀ d, Relation.ReflTransGen pairEnv.DependsOn (ascii "rgw") d →
      pairEnv.Initializes d := by
    intro d hd lib calls hlib hcalls
    rcases pair_below hd with rfl | rfl
    · rw [library_rgw] at hlib
      cases hlib
      cases hcalls
      decide
    · rw [library_lock] at hlib
      cases hlib
      cases hcalls
      decide
  have hloads : ∀ d, Relation.ReflTransGen pairEnv.DependsOn (ascii "rgw") d →
      pairEnv.Loads d := by
    intro d hd
    rcases pair_below hd with rfl | rfl
    · exact ⟨_, library_rgw⟩
    · exact ⟨_, library_lock⟩
  obtain ⟨enough, henough⟩ := open_class_succeeds_iff .start hacc hinit
  refine ⟨enough, fun depth hdepth => ?_⟩
  obtain ⟨h', r, hopen, hresult⟩ := henough depth hdepth
  obtain rfl : r = 0 := hresult.mpr ⟨.inr (by decide), hloads⟩
  exact ⟨h', hopen⟩

/-- With an infinite chain of dependencies, `open_class` of a permitted class uses up every stack if
every library below the class can be opened and every `__cls_init` below it returns. (A dependency
that cannot be opened may come first and end the load with its error.) -/
theorem open_class_overflows (hreach : Reach openStep (sameEnv env) {} h)
    (hpermit : h.Permits env c)
    (hloads : ∀ d, Relation.ReflTransGen env.DependsOn c d → env.Loads d)
    (hinit : ∀ d, Relation.ReflTransGen env.DependsOn c d → env.Initializes d)
    (hchain : ¬ Acc (fun a b => env.DependsOn b a) c) (depth : Nat) :
    openClass env depth h c = .error .stackOverflow := by
  have hinv := inv_of_reach (hreach.mono fun _ _ _ => trivial)
  have hlinked := linked_of_reach hreach
  rcases openClass_returns hinv hlinked hinit depth with
    ⟨⟨h', r⟩, hopen⟩ | ⟨hoverflow, -⟩
  · exfalso
    have hr : r = 0 := (openClass_ok_iff hinv hlinked hopen).mpr ⟨hpermit, hloads⟩
    rcases openClass_spec hinv hopen with ⟨-, -, hnot⟩ | ⟨-, hloaded⟩
    · exact hnot hpermit
    · have hc : h'.IsOpen c := by
        rcases hloaded.result with ⟨-, hc⟩ | ⟨hneg, -⟩
        · exact hc
        · exact absurd hr hneg.ne
      exact hchain (hloaded.inv.acc_of_isOpen (hloaded.handles.linked hlinked.getClass) hc)
  · exact hoverflow

/-- Libraries that each name `lock`, that of `lock` included. -/
def selfEnv : Env where
  dlopen _ := .opened ⟨[ascii "lock"], none⟩
  loadList := ascii "*"
  defaultList := []
  addr _ := 0

/-- A class that depends on itself uses up a stack of a thousand calls. -/
theorem self_class_overflows :
    openClass selfEnv 1000 {} (ascii "lock") = .error .stackOverflow := by
  refine open_class_overflows .start (.inr (by decide)) (fun d _ => ⟨_, rfl⟩)
    (fun d _ lib calls hlib hcalls => ?_) (fun hacc => ?_) 1000
  · cases hlib
    cases hcalls
  · have hnot : ∀ c, Acc (fun a b => selfEnv.DependsOn b a) c → c ≠ ascii "lock" := by
      intro c hacc
      induction hacc with
      | intro c _ ih =>
          rintro rfl
          exact ih (ascii "lock") ⟨_, rfl, List.mem_singleton.mpr rfl⟩ rfl
    exact hnot _ hacc rfl

end Fixed

/-! ## The load list -/

/-- The classes the load list lets in: those it lists, the dependencies of classes it lets in, and
the classes these register from their `__cls_init`. -/
inductive Admitted (env : Env) : Bytes → Prop where
  | listed {c : Bytes} : inClassList c env.loadList = true → Admitted env c
  | dependency {c d : Bytes} : Admitted env c → env.DependsOn c d → Admitted env d
  | named {c d : Bytes} {lib : Library} {calls : List InitCall} : Admitted env c →
      env.library c = .opened lib → lib.init = some calls → .register d ∈ calls → Admitted env d

/-- The table has entries of admitted classes only. -/
structure Gated (env : Env) (h : Handler) : Prop where
  has : ∀ x, h.Has x → Admitted env x
  missing : ∀ x, ∀ d ∈ (h.loading x).missingDependencies, Admitted env d
  linked : Linked env h

section Gate

variable {env : Env} {h h' : Handler} {c d : Bytes}

/-- A change of an admitted class that leaves its library and its missing dependencies. -/
theorem Gated.modify (hgated : Gated env h) (hc : Admitted env c) {f : ClassData → ClassData}
    (hmissing : ∀ d ∈ (f (h.cls c)).missingDependencies, Admitted env d)
    (hlinked : ∀ lib, (f (h.cls c)).handle = some lib → env.library c = .opened lib) :
    Gated env (h.modify c f) where
  has x hx := by
    rcases (has_modify f).mp hx with rfl | hx
    · exact hc
    · exact hgated.has x hx
  missing x := by
    by_cases hx : x = c
    · rw [hx, loading_modify_self]
      exact hmissing
    · rw [loading_modify_of_ne hx]
      exact hgated.missing x
  linked x lib := by
    by_cases hx : x = c
    · rw [hx, loading_modify_self]
      exact hlinked lib
    · rw [loading_modify_of_ne hx]
      exact hgated.linked x lib

/-- The first part of the load of an admitted class. -/
theorem Gated.openLibrary (hgated : Gated env h) (hc : Admitted env c) :
    Gated env (openLibrary env h c).1 := by
  have hmissing : Gated env (h.modify c fun cls =>
      { cls with handle := none, status := .classMissing }) := by
    refine hgated.modify hc (hgated.missing c) fun lib hlib => ?_
    cases hlib
  unfold ClassHandler.openLibrary
  split_ifs with hstatus
  · cases hlib : env.library c with
    | opened lib =>
        have hopened : Gated env (h.modify c fun cls => { cls with handle := some lib }) := by
          refine hgated.modify hc (hgated.missing c) fun lib' hlib' => ?_
          cases hlib'
          exact hlib
        have hread := @recordDeps_read env
          (h.modify c fun cls => { cls with handle := some lib }) c lib.deps
        refine ⟨fun x hx => ?_, fun x d hd => ?_, fun x lib' hlib' => ?_⟩
        · rcases has_of_recordDeps hx with hdep | rfl | hold
          · exact .dependency hc ⟨lib, hlib, hdep⟩
          · exact hc
          · exact hopened.has x hold
        · by_cases hx : x = c
          · rw [hx] at hd
            rcases (hread.missing d).mp hd with ⟨hdep, -⟩ | hold
            · exact .dependency hc ⟨lib, hlib, hdep⟩
            · exact hopened.missing c d hold
          · rw [hread.others x hx] at hd
            exact hopened.missing x d hd
        · by_cases hx : x = c
          · rw [hx] at hlib' ⊢
            rw [hread.handle] at hlib'
            exact hopened.linked c lib' hlib'
          · rw [hread.others x hx] at hlib'
            exact hopened.linked x lib' hlib'
    | noFile errno => exact hmissing
    | unloadable => exact hmissing
  · exact hgated

/-- The last part of the load of an admitted class. -/
theorem Gated.clsInit (hgated : Gated env h) (hc : Admitted env c)
    (hinit : clsInit env h c = .ok h') : Gated env h' := by
  have hlast := clsInit_initialized hinit
  have hself : ∀ x, (h'.loading x).missingDependencies = (h.loading x).missingDependencies ∧
      (h'.loading x).handle = (h.loading x).handle := by
    intro x
    by_cases hx : x = c
    · rw [hx, hlast.self]
      exact ⟨rfl, rfl⟩
    · rw [hlast.others x hx]
      exact ⟨rfl, rfl⟩
  refine ⟨fun x hx => ?_, fun x => ?_, fun x lib hlib => ?_⟩
  · unfold ClassHandler.clsInit at hinit
    split at hinit
    · cases hinit
      rcases has_setOpen.mp hx with rfl | hx
      · exact hc
      · exact hgated.has x hx
    · rename_i calls hcalls
      obtain ⟨lib, hlib, hcalls⟩ := Option.bind_eq_some_iff.mp hcalls
      split at hinit
      · cases hinit
      · rename_i h₁ handle hrun
        cases hinit
        rcases has_setOpen.mp hx with rfl | hx
        · exact hc
        · have hnone : ∀ cname, none = some cname →
              (h.setStatus c .classInitializing).Has cname := fun _ hnone => by cases hnone
          rcases has_of_runInit hnone hrun hx with hold | hnamed
          · rcases has_setStatus.mp hold with rfl | hold
            · exact hc
            · exact hgated.has x hold
          · exact .named hc (hgated.linked c lib hlib) hcalls hnamed
  · rw [(hself x).1]
    exact hgated.missing x
  · rw [(hself x).2] at hlib
    exact hgated.linked x lib hlib

/-- The load of an admitted class lets only admitted classes in. -/
theorem gated_kept : Kept env (Admitted env) (Gated env) where
  dependency hgated _ hd := hgated.missing _ _ hd
  library hgated hc _ := hgated.openLibrary hc
  erase hgated hc := hgated.modify hc
    (fun d hd => hgated.missing _ d (List.mem_of_mem_erase hd)) (hgated.linked _)
  fail hgated hc _ := hgated.modify hc (hgated.missing _) (hgated.linked _)
  init _ hgated hc hinit := hgated.clsInit hc hinit

/-- A permitted class is admitted, and its entry may be made. -/
theorem Gated.getClass (hgated : Gated env h) (hc : Admitted env c) :
    Gated env (h.getClass env c) := by
  refine ⟨fun x hx => ?_, fun x => ?_, hgated.linked.getClass⟩
  · rcases has_getClass.mp hx with rfl | hx
    · exact hc
    · exact hgated.has x hx
  · rw [loading_getClass]
    exact hgated.missing x

/-- The gate holds in every run. -/
theorem gated_of_reach (hreach : Reach openStep (sameEnv env) {} h) : Gated env h := by
  have hboth : Inv ∅ h ∧ Gated env h := by
    refine hreach.invariant (fun h => Inv ∅ h ∧ Gated env h) ⟨inv_empty, ?_⟩ ?_
    · refine ⟨fun x hx => ?_, fun x d hd => ?_, fun x lib hlib => ?_⟩
      · cases hx
      · cases hd
      · cases hlib
    · intro s call t hs hcall hstep
      refine ⟨openStep_inv hs.1 hstep, ?_⟩
      unfold openStep at hstep
      rw [hcall] at hstep
      split at hstep
      · rename_i h₁ r hopen
        cases hstep
        unfold openClass Handler.getAllowed at hopen
        split_ifs at hopen with hrefused
        · cases hopen
          exact hs.2
        · have hadmitted : Admitted env call.cname := by
            by_cases hhas : s.Has call.cname
            · exact hs.2.has _ hhas
            · exact .listed (by tauto)
          simp only at hopen
          split_ifs at hopen with hstatus
          · cases hopen
            exact hs.2.getClass hadmitted
          · exact gated_kept.load hs.1.getClass (fun x hx => absurd hx (Set.notMem_empty x))
              (hs.2.getClass hadmitted) hadmitted hopen
      · cases hstep
  exact hboth.2

/-- A class that the load list does not let in, directly or through the dependencies and
registrations of classes it lets in, is refused after every run, and the table stays as it is. -/
theorem unlisted_class_is_refused (hreach : Reach openStep (sameEnv env) {} h)
    (hc : ¬ Admitted env c) (depth : Nat) : openClass env depth h c = .ok (h, eperm) := by
  have hgated := gated_of_reach hreach
  have hrefused : ¬ h.Has c ∧ ¬ inClassList c env.loadList = true :=
    ⟨fun hhas => hc (hgated.has c hhas), fun hlisted => hc (.listed hlisted)⟩
  unfold openClass Handler.getAllowed
  rw [if_pos hrefused]

/-- With `rgw` on the list, `rgw` and `lock` are let in, and nothing else. -/
theorem pair_admitted (h : Admitted pairEnv c) : c = ascii "rgw" ∨ c = ascii "lock" := by
  induction h with
  | listed hlisted =>
      left
      have hwords : words pairEnv.loadList = [ascii "rgw"] := by decide
      have hstar : ascii "rgw" ≠ ascii "*" := by decide
      simpa [inClassList, hwords, hstar, eq_comm] using hlisted
  | dependency _ hdep ih => exact .inr (pair_dependsOn ih hdep).2
  | named _ hlib hcalls hmem ih =>
      rcases ih with rfl | rfl
      · rw [library_rgw] at hlib
        cases hlib
        cases hcalls
        left
        simpa using hmem
      · rw [library_lock] at hlib
        cases hlib
        cases hcalls
        right
        simpa using hmem

/-- `rbd` is refused after `rgw` and `lock` were opened. -/
theorem rbd_is_refused : Reach openStep (sameEnv pairEnv) {} pairOpened ∧
    openClass pairEnv 5 pairOpened (ascii "rbd") = .ok (pairOpened, eperm) := by
  have hreach : Reach openStep (sameEnv pairEnv) {} pairOpened :=
    .next .start (show sameEnv pairEnv {} ⟨pairEnv, 2, ascii "rgw"⟩ from rfl) rfl
  refine ⟨hreach, unlisted_class_is_refused hreach (fun hadmitted => ?_) 5⟩
  rcases pair_admitted hadmitted with h | h
  · exact absurd h (by decide)
  · exact absurd h (by decide)

end Gate

end GlobalCacheAdaptor.ServerAdaptor.ClassHandler

import GlobalCacheAdaptor.ServerAdaptor.ClassHandler
import Mathlib.Data.Set.Insert
import Mathlib.Logic.Relation

/-!
# The class table over whole runs

A load may stop anywhere: a library that is missing, a dependency of a dependency that cannot be
opened, a class that depends on itself. Read `loadClass_spec` first: whenever a load returns, no
class further down its stack was touched, and the invariant `Inv` of the class table holds again.
A load that comes back to a class on its stack does not return at all (`loadClass_of_waiting`).
`open_classes_are_ready` carries the invariant over runs in which libraries come and go between
two calls.
-/

namespace GlobalCacheAdaptor.ServerAdaptor.ClassHandler

open Lib

/-! ## The classes on the stack -/

section Stack

variable {env : Env} {h h' : Handler} {S : Set Bytes} {c d x y : Bytes}

/-- Nothing is forgotten: entries stay, and an open class stays as it is. -/
structure Grows (h h' : Handler) : Prop where
  has : ∀ x, h.Has x → h'.Has x
  kept : ∀ x, h.IsOpen x → h'.loading x = h.loading x

theorem Grows.refl (h : Handler) : Grows h h := ⟨fun _ => id, fun _ _ => rfl⟩

/-- An open class stays open. -/
theorem Grows.isOpen (hgrows : Grows h h') (hopen : h.IsOpen x) : h'.IsOpen x := by
  unfold Handler.IsOpen
  rw [hgrows.kept x hopen]
  exact hopen

theorem Grows.trans {h₁ h₂ h₃ : Handler} (h₁₂ : Grows h₁ h₂) (h₂₃ : Grows h₂ h₃) :
    Grows h₁ h₃ where
  has x hx := h₂₃.has x (h₁₂.has x hx)
  kept x hx := (h₂₃.kept x (h₁₂.isOpen hx)).trans (h₁₂.kept x hx)

/-- The library of a class that is not open is read: opening it again would change nothing. -/
structure Recorded (env : Env) (h : Handler) (x : Bytes) : Prop where
  has : h.Has x
  notOpen : ¬ h.IsOpen x
  library : (h.loading x).status = .classUnknown ∨ (h.loading x).status = .classMissing →
    ∃ lib, env.library x = .opened lib ∧ (h.loading x).handle = some lib ∧
      ∀ d ∈ lib.deps, h.Has d ∧ d ∈ (h.loading x).dependencies ∧
        (h.IsOpen d ∨ d ∈ (h.loading x).missingDependencies)

/-- The load of `x` is in the loop over its dependencies, at the dependency `y`. -/
def Waiting (env : Env) (h : Handler) (x y : Bytes) : Prop :=
  Recorded env h x ∧ ∃ rest, (h.loading x).missingDependencies = y :: rest

/-- A satisfied dependency need not be recorded as missing. -/
theorem Recorded.eraseMissing (hrec : Recorded env h c) {rest : List Bytes}
    (hmissing : (h.loading c).missingDependencies = d :: rest) (hd : h.IsOpen d) :
    Recorded env (h.eraseMissing c d) c := by
  have hself : (h.eraseMissing c d).loading c =
      { h.loading c with missingDependencies := rest } := by
    rw [loading_eraseMissing_self, hmissing, List.erase_cons_head]
  have hopen : ∀ x, (h.eraseMissing c d).IsOpen x ↔ h.IsOpen x := by
    intro x
    unfold Handler.IsOpen
    by_cases hx : x = c
    · rw [hx, hself]
    · rw [loading_eraseMissing_of_ne hx]
  refine ⟨(has_modify _).mpr (.inl rfl), fun hc => hrec.notOpen ((hopen c).mp hc), ?_⟩
  rw [hself]
  intro hstatus
  obtain ⟨lib, hlib, hhandle, hdeps⟩ := hrec.library hstatus
  refine ⟨lib, hlib, hhandle, fun d' hd' => ?_⟩
  obtain ⟨hhas, hdep, hcovered⟩ := hdeps d' hd'
  refine ⟨(has_modify _).mpr (.inr hhas), hdep, ?_⟩
  rw [hopen]
  rcases hcovered with hopen' | hmem
  · exact .inl hopen'
  · rw [hmissing] at hmem
    rcases List.mem_cons.mp hmem with rfl | hrest
    · exact .inl hd
    · exact .inr hrest

/-- Recording is not undone by loading other classes. -/
theorem Recorded.mono (hrec : Recorded env h x) (hsame : h'.loading x = h.loading x)
    (hgrows : Grows h h') : Recorded env h' x where
  has := hgrows.has x hrec.has
  notOpen := by
    unfold Handler.IsOpen
    rw [hsame]
    exact hrec.notOpen
  library := by
    rw [hsame]
    intro hstatus
    obtain ⟨lib, hlib, hhandle, hdeps⟩ := hrec.library hstatus
    refine ⟨lib, hlib, hhandle, fun d hd => ?_⟩
    obtain ⟨hhas, hdep, hcovered⟩ := hdeps d hd
    exact ⟨hgrows.has d hhas, hdep, hcovered.imp_left hgrows.isOpen⟩

/-- A waiting load keeps waiting while other classes are loaded. -/
theorem Waiting.mono (hwait : Waiting env h x y) (hsame : h'.loading x = h.loading x)
    (hgrows : Grows h h') : Waiting env h' x y :=
  ⟨hwait.1.mono hsame hgrows, by rw [hsame]; exact hwait.2⟩

/-- A name of `class_deps` that is already recorded. -/
theorem recordDep_of_recorded (hc : h.Has c) (hd : h.Has d)
    (hdep : d ∈ (h.loading c).dependencies)
    (hcovered : h.IsOpen d ∨ d ∈ (h.loading c).missingDependencies) :
    recordDep env c h d = h := by
  unfold recordDep
  rw [getClass_of_has hd]
  apply modify_eq_self hc
  have hdeps : setInsert env d (h.cls c).dependencies = (h.cls c).dependencies :=
    setInsert_of_mem hdep
  have hmissing : (if h.IsOpen d then (h.cls c).missingDependencies
      else setInsert env d (h.cls c).missingDependencies) = (h.cls c).missingDependencies := by
    split_ifs with hopen
    · rfl
    · exact setInsert_of_mem (hcovered.resolve_left hopen)
  simp only [hdeps, hmissing]

/-- Opening a library that is already read. -/
theorem openLibrary_of_recorded (hrec : Recorded env h c) : openLibrary env h c = (h, 0) := by
  unfold openLibrary
  split_ifs with hstatus
  · obtain ⟨lib, hlib, hhandle, hdeps⟩ := hrec.library hstatus
    have hsame : h.modify c (fun cls => { cls with handle := some lib }) = h := by
      apply modify_eq_self hrec.has
      have hhandle' : (h.cls c).handle = some lib := hhandle
      simp only [← hhandle']
    rw [hlib]
    simp only [hsame]
    have hfold : ∀ deps ⊆ lib.deps, deps.foldl (recordDep env c) h = h := by
      intro deps hsub
      induction deps with
      | nil => rfl
      | cons d rest ih =>
          obtain ⟨hd, hdep, hcovered⟩ := hdeps d (hsub List.mem_cons_self)
          rw [List.foldl_cons, recordDep_of_recorded hrec.has hd hdep hcovered]
          exact ih fun x hx => hsub (List.mem_cons_of_mem d hx)
    rw [hfold lib.deps (List.Subset.refl _)]
  · rfl

/-- Classes that wait for each other: a load of one of them uses up any stack. -/
theorem loadClass_of_waiting (hcycle : ∀ x ∈ S, ∃ y ∈ S, Waiting env h x y) (hc : c ∈ S)
    (depth : Nat) : loadClass env depth h c = .error .stackOverflow := by
  induction depth generalizing c with
  | zero => rfl
  | succ depth ih =>
      obtain ⟨y, hy, hrec, rest, hmissing⟩ := hcycle c hc
      unfold loadClass
      rw [if_neg hrec.notOpen, openLibrary_of_recorded hrec]
      simp only [lt_irrefl, if_false, hmissing, resolve, ih hy]

/-- Every class on the stack waits for the next one, the last of them for the class to load. -/
def Blocked (env : Env) (h : Handler) (S : Set Bytes) (c : Bytes) : Prop :=
  ∀ x ∈ S, ∃ y, (y = c ∨ y ∈ S) ∧ Waiting env h x y

/-- A load that comes back to a class on its stack: the classes wait for each other. -/
theorem Blocked.cycle (hblocked : Blocked env h S c) (hc : c ∈ S) :
    ∀ x ∈ S, ∃ y ∈ S, Waiting env h x y := by
  intro x hx
  obtain ⟨y, rfl | hy, hwait⟩ := hblocked x hx
  · exact ⟨y, hc, hwait⟩
  · exact ⟨y, hy, hwait⟩

/-- A load that returns is not of a class that is on the stack. -/
theorem Blocked.notMem (hblocked : Blocked env h S c) {depth : Nat} {result : Handler × Int}
    (hload : loadClass env depth h c = .ok result) : c ∉ S := by
  intro hc
  rw [loadClass_of_waiting (hblocked.cycle hc) hc] at hload
  cases hload

end Stack

/-! ## The invariant of the class table -/

section Invariant

variable {env : Env} {h h' : Handler} {S S' : Set Bytes} {c d x : Bytes} {L : Loading}

/-- What holds of one class; `stacked` says that its load has begun and not returned. -/
structure Sound (isOpen : Bytes → Prop) (stacked : Prop) (L : Loading) : Prop where
  covered : ∀ d ∈ L.dependencies, d ∈ L.missingDependencies ∨ isOpen d
  missing : ∀ d ∈ L.missingDependencies, d ∈ L.dependencies
  done : L.status = .classOpen → L.missingDependencies = []
  fresh : ¬ stacked → L.status = .classUnknown ∨ L.status = .classMissing →
    L.handle = none ∧ L.dependencies = []
  settled : L.status ≠ .classInitializing
  linked : ∀ lib, L.handle = some lib → ∀ d, d ∈ L.dependencies ↔ d ∈ lib.deps
  handled : L.status = .classMissingDeps ∨ L.status = .classOpen → L.handle.isSome

/-- The class table while the classes in `S` are on the stack. -/
structure Inv (S : Set Bytes) (h : Handler) : Prop where
  sound : ∀ c, Sound h.IsOpen (c ∈ S) (h.loading c)
  order_nodup : h.openOrder.Nodup
  order_mem : ∀ c, c ∈ h.openOrder ↔ h.IsOpen c
  order_deps : ∀ before c after, h.openOrder = before ++ c :: after →
    ∀ d ∈ (h.loading c).dependencies, d ∈ before

/-- More open classes, and more classes on the stack. -/
theorem Sound.mono {isOpen isOpen' : Bytes → Prop} {stacked stacked' : Prop}
    (hsound : Sound isOpen stacked L) (hopen : ∀ d, isOpen d → isOpen' d)
    (hstack : stacked → stacked') : Sound isOpen' stacked' L :=
  { hsound with
    covered := fun d hd => (hsound.covered d hd).imp_right (hopen d)
    fresh := fun hnot => hsound.fresh fun hs => hnot (hstack hs) }

/-- A class that is not open and not missing anything has a library. -/
theorem Sound.handle_of_recorded (hsound : Sound h.IsOpen (c ∈ S) (h.loading c))
    (hrec : Recorded env h c) : (h.loading c).handle.isSome := by
  have hlib := hrec.library
  have hnot : (h.loading c).status ≠ .classOpen := hrec.notOpen
  have hsettled := hsound.settled
  have hhandled := hsound.handled
  cases hstatus : (h.loading c).status with
  | classUnknown =>
      obtain ⟨lib, -, hhandle, -⟩ := hlib (.inl hstatus)
      rw [hhandle]
      rfl
  | classMissing =>
      obtain ⟨lib, -, hhandle, -⟩ := hlib (.inr hstatus)
      rw [hhandle]
      rfl
  | classMissingDeps => exact hhandled (.inl hstatus)
  | classInitializing => exact absurd hstatus hsettled
  | classOpen => exact absurd hstatus hnot

/-- A touched class that was not open: nothing is forgotten. -/
theorem Grows.of_others (hhas : ∀ x, h.Has x → h'.Has x)
    (hothers : ∀ x, x ≠ c → h'.loading x = h.loading x) (hc : ¬ h.IsOpen c) : Grows h h' where
  has := hhas
  kept x hx := hothers x fun heq => hc (heq ▸ hx)

/-- A step that touches one class that is not open, and leaves it not open. -/
theorem Inv.update (hinv : Inv S h) (hothers : ∀ x, x ≠ c → h'.loading x = h.loading x)
    (hS : ∀ x, x ≠ c → x ∈ S → x ∈ S') (hc : ¬ h.IsOpen c) (hc' : ¬ h'.IsOpen c)
    (horder : h'.openOrder = h.openOrder)
    (hsound : Sound h.IsOpen (c ∈ S') (h'.loading c)) : Inv S' h' := by
  have hopen : ∀ x, h'.IsOpen x ↔ h.IsOpen x := by
    intro x
    by_cases hx : x = c
    · rw [hx]
      exact iff_of_false hc' hc
    · unfold Handler.IsOpen
      rw [hothers x hx]
  refine ⟨fun x => ?_, ?_, fun x => ?_, fun before x after hsplit d hd => ?_⟩
  · by_cases hx : x = c
    · rw [hx]
      exact hsound.mono (fun d => (hopen d).mpr) id
    · rw [hothers x hx]
      exact (hinv.sound x).mono (fun d => (hopen d).mpr) (hS x hx)
  · rw [horder]
    exact hinv.order_nodup
  · rw [horder, hopen]
    exact hinv.order_mem x
  · rw [horder] at hsplit
    have hmem : x ∈ h.openOrder := by
      rw [hsplit]
      exact List.mem_append_right before List.mem_cons_self
    have hx : x ≠ c := by
      rintro rfl
      exact hc ((hinv.order_mem x).mp hmem)
    rw [hothers x hx] at hd
    exact hinv.order_deps before x after hsplit d hd

/-! ## The three parts of a load -/

/-- What a part of the load of `c` leaves of the rest of the table. -/
structure Touches (c : Bytes) (h h' : Handler) : Prop where
  grows : Grows h h'
  others : ∀ x, x ≠ c → h'.loading x = h.loading x

theorem Touches.refl (c : Bytes) (h : Handler) : Touches c h h := ⟨.refl h, fun _ _ => rfl⟩

/-- A change of one class that is not open. -/
theorem touches_modify {f : ClassData → ClassData} (hc : ¬ h.IsOpen c) :
    Touches c h (h.modify c f) where
  grows := .of_others (fun _ hx => (has_modify f).mpr (.inr hx))
    (fun _ hx => loading_modify_of_ne hx) hc
  others _ hx := loading_modify_of_ne hx

/-- A library that cannot be opened: the class is missing. -/
theorem Inv.setMissing (hinv : Inv S h) (hc : c ∉ S) (hnot : ¬ h.IsOpen c)
    (hstatus : (h.loading c).status = .classUnknown ∨ (h.loading c).status = .classMissing) :
    Inv S (h.modify c fun cls => { cls with handle := none, status := .classMissing }) := by
  have hsound := hinv.sound c
  obtain ⟨-, hdeps⟩ := hsound.fresh hc hstatus
  refine hinv.update (c := c) (fun x hx => loading_modify_of_ne hx) (fun x _ => id) hnot ?_ rfl ?_
  · unfold Handler.IsOpen
    rw [loading_modify_self]
    exact Status.noConfusion
  · rw [loading_modify_self]
    refine ⟨hsound.covered, hsound.missing, Status.noConfusion, fun _ _ => ⟨rfl, hdeps⟩,
      Status.noConfusion, fun lib hlib => ?_, ?_⟩
    · cases hlib
    · rintro (hstatus | hstatus) <;> cases hstatus

/-- A library that is opened: its dependencies are recorded. -/
theorem Inv.readDeps (hinv : Inv S h) (hc : c ∉ S) (hnot : ¬ h.IsOpen c)
    (hstatus : (h.loading c).status = .classUnknown ∨ (h.loading c).status = .classMissing)
    {lib : Library} (hlib : env.library c = .opened lib)
    (hread : DepsRead c lib.deps (h.modify c fun cls => { cls with handle := some lib }) h') :
    Inv (insert c S) h' ∧ Recorded env h' c ∧ Touches c h h' := by
  have hsound := hinv.sound c
  obtain ⟨-, hdeps⟩ := hsound.fresh hc hstatus
  have hself : (h.modify c fun cls => { cls with handle := some lib }).loading c =
      { h.loading c with handle := some lib } := loading_modify_self
  have hopen : ∀ x, (h.modify c fun cls => { cls with handle := some lib }).IsOpen x ↔
      h.IsOpen x := by
    intro x
    unfold Handler.IsOpen
    by_cases hx : x = c
    · rw [hx, hself]
    · rw [loading_modify_of_ne hx]
  have hothers : ∀ x, x ≠ c → h'.loading x = h.loading x := fun x hx =>
    (hread.others x hx).trans (loading_modify_of_ne hx)
  have hhas : ∀ x, h.Has x → h'.Has x := fun x hx =>
    hread.has x (.inr ((has_modify _).mpr (.inr hx)))
  have hnot' : ¬ h'.IsOpen c := fun hc' => hnot ((hopen c).mp ((hread.isOpen_iff c).mp hc'))
  have hmissing : (h.loading c).missingDependencies = [] :=
    List.eq_nil_iff_forall_not_mem.mpr fun d hd => by
      have := hsound.missing d hd
      rw [hdeps] at this
      exact List.not_mem_nil this
  have hdeps' : ∀ d, d ∈ (h'.loading c).dependencies ↔ d ∈ lib.deps := by
    intro d
    rw [hread.dependencies, hself]
    simp [hdeps]
  have hmissing' : ∀ d, d ∈ (h'.loading c).missingDependencies ↔ d ∈ lib.deps ∧ ¬ h.IsOpen d := by
    intro d
    rw [hread.missing, hself, hopen]
    simp [hmissing]
  have hstatus' : (h'.loading c).status = (h.loading c).status := by
    rw [hread.status, hself]
  have hhandle' : (h'.loading c).handle = some lib := by
    rw [hread.handle, hself]
  have hcovered : ∀ d ∈ lib.deps, d ∈ (h'.loading c).missingDependencies ∨ h.IsOpen d := by
    intro d hd
    by_cases hd' : h.IsOpen d
    · exact .inr hd'
    · exact .inl ((hmissing' d).mpr ⟨hd, hd'⟩)
  refine ⟨?_, ⟨?_, hnot', fun _ => ⟨lib, hlib, hhandle', fun d hd => ⟨?_, ?_, ?_⟩⟩⟩,
    .of_others hhas hothers hnot, hothers⟩
  · refine hinv.update hothers (fun x _ hx => Set.mem_insert_of_mem c hx) hnot hnot'
      hread.openOrder ⟨?_, ?_, ?_, ?_, ?_, ?_, ?_⟩
    · intro d hd
      exact hcovered d ((hdeps' d).mp hd)
    · intro d hd
      exact (hdeps' d).mpr ((hmissing' d).mp hd).1
    · intro hc'
      exact absurd hc' hnot'
    · intro hstack
      exact absurd (Set.mem_insert c S) hstack
    · rw [hstatus']
      exact hsound.settled
    · intro lib' hlib'
      rw [hhandle'] at hlib'
      cases hlib'
      exact hdeps'
    · intro _
      rw [hhandle']
      rfl
  · exact hread.has c (.inr ((has_modify _).mpr (.inl rfl)))
  · exact hread.has d (.inl hd)
  · exact (hdeps' d).mpr hd
  · rcases hcovered d hd with hd' | hd'
    · exact .inr hd'
    · exact .inl ((hread.isOpen_iff d).mpr ((hopen d).mpr hd'))

/-- The library of a class can be opened. -/
def Env.Loads (env : Env) (cname : Bytes) : Prop := ∃ lib, env.library cname = .opened lib

/-- The first part of a load: the class is missing, or its library is read. -/
theorem openLibrary_spec (hinv : Inv S h) (hc : c ∉ S) (hnot : ¬ h.IsOpen c) {r : Int}
    (hopen : openLibrary env h c = (h', r)) :
    Touches c h h' ∧
      ((r = 0 ∧ Inv (insert c S) h' ∧ Recorded env h' c) ∨
        (r < 0 ∧ Inv S h' ∧ ¬ h'.IsOpen c ∧ ¬ env.Loads c)) := by
  have hmissing : ¬ (h.modify c fun cls =>
      { cls with handle := none, status := .classMissing }).IsOpen c := by
    unfold Handler.IsOpen
    rw [loading_modify_self]
    exact Status.noConfusion
  unfold openLibrary at hopen
  split_ifs at hopen with hstatus
  · cases hlib : env.library c with
    | opened lib =>
        simp only [hlib] at hopen
        cases hopen
        obtain ⟨hinv', hrec, htouches⟩ :=
          hinv.readDeps hc hnot hstatus hlib (recordDeps_read lib.deps)
        exact ⟨htouches, .inl ⟨rfl, hinv', hrec⟩⟩
    | noFile errno =>
        simp only [hlib] at hopen
        cases hopen
        refine ⟨touches_modify hnot, .inr ⟨?_, hinv.setMissing hc hnot hstatus, hmissing, ?_⟩⟩
        · have := errno.pos
          omega
        · rintro ⟨lib, hlib'⟩
          rw [hlib] at hlib'
          cases hlib'
    | unloadable =>
        simp only [hlib] at hopen
        cases hopen
        refine ⟨touches_modify hnot,
          .inr ⟨by decide, hinv.setMissing hc hnot hstatus, hmissing, ?_⟩⟩
        rintro ⟨lib, hlib'⟩
        rw [hlib] at hlib'
        cases hlib'
  · cases hopen
    refine ⟨.refl c _, .inl ⟨rfl, ⟨fun x => ?_, hinv.order_nodup, hinv.order_mem, hinv.order_deps⟩,
      ?_, hnot, fun hstatus' => absurd hstatus' hstatus⟩⟩
    · exact (hinv.sound x).mono (fun _ => id) (Set.mem_insert_of_mem c)
    · exact has_of_status fun hunknown => hstatus (.inl hunknown)

/-- The first part of a load sets no handle but that of the library. -/
theorem openLibrary_handle {r : Int} (hopen : openLibrary env h c = (h', r)) {lib : Library}
    (hlib : (h'.loading c).handle = some lib) :
    (h.loading c).handle = some lib ∨ env.library c = .opened lib := by
  unfold openLibrary at hopen
  split_ifs at hopen with hstatus
  · cases hlibrary : env.library c with
    | opened lib' =>
        simp only [hlibrary] at hopen
        cases hopen
        rw [(recordDeps_read lib'.deps).handle, loading_modify_self] at hlib
        cases hlib
        exact .inr rfl
    | noFile errno =>
        simp only [hlibrary] at hopen
        cases hopen
        rw [loading_modify_self] at hlib
        cases hlib
    | unloadable =>
        simp only [hlibrary] at hopen
        cases hopen
        rw [loading_modify_self] at hlib
        cases hlib
  · cases hopen
    exact .inl hlib

/-- A dependency that is satisfied is taken off the set. -/
theorem Inv.eraseMissing (hinv : Inv S h) (hc : c ∈ S) (hnot : ¬ h.IsOpen c)
    {rest : List Bytes} (hmissing : (h.loading c).missingDependencies = d :: rest)
    (hd : h.IsOpen d) :
    Inv S (h.eraseMissing c d) := by
  have hsound := hinv.sound c
  have herase : (h.loading c).missingDependencies.erase d = rest := by
    rw [hmissing, List.erase_cons_head]
  refine hinv.update (c := c) (fun x hx => loading_eraseMissing_of_ne hx) (fun x _ => id) hnot
    ?_ rfl ?_
  · unfold Handler.IsOpen
    rw [loading_eraseMissing_self]
    exact hnot
  · rw [loading_eraseMissing_self]
    refine { hsound with covered := ?_, missing := ?_, done := ?_, fresh := ?_ }
    · intro d' hd'
      rcases hsound.covered d' hd' with hmem | hopen
      · rw [hmissing] at hmem
        rcases List.mem_cons.mp hmem with rfl | hrest
        · exact .inr hd
        · exact .inl (herase.symm ▸ hrest)
      · exact .inr hopen
    · intro d' hd'
      exact hsound.missing d' (List.mem_of_mem_erase hd')
    · intro hopen
      exact absurd hopen hnot
    · intro hstack
      exact absurd hc hstack

/-- A dependency that could not be loaded: the class waits for another attempt. -/
theorem Inv.setMissingDeps (hinv : Inv (insert c S) h) (hrec : Recorded env h c) :
    Inv S (h.setStatus c .classMissingDeps) := by
  have hsound := hinv.sound c
  refine hinv.update (c := c) (fun x hx => loading_setStatus_of_ne hx)
    (fun x hx => (Set.mem_insert_iff.mp · |>.resolve_left hx)) hrec.notOpen ?_ rfl ?_
  · unfold Handler.IsOpen
    rw [loading_setStatus_self]
    exact Status.noConfusion
  · rw [loading_setStatus_self]
    refine ⟨hsound.covered, hsound.missing, Status.noConfusion, ?_, Status.noConfusion,
      hsound.linked, fun _ => hsound.handle_of_recorded hrec⟩
    rintro - (hstatus | hstatus) <;> cases hstatus

/-- What `__cls_init` and the last assignment of a load leave. -/
structure Initialized (c : Bytes) (h h' : Handler) : Prop where
  others : ∀ x, x ≠ c → h'.loading x = h.loading x
  self : h'.loading c = { h.loading c with status := .classOpen }
  has : ∀ x, h.Has x → h'.Has x
  openOrder : h'.openOrder = h.openOrder ++ [c]

/-- The last part of a load opens the class and loads nothing. -/
theorem clsInit_initialized (hinit : clsInit env h c = .ok h') : Initialized c h h' := by
  unfold clsInit at hinit
  split at hinit
  · cases hinit
    exact ⟨fun x hx => loading_setStatus_of_ne hx, loading_setStatus_self,
      fun x hx => has_setOpen.mpr (.inr hx), rfl⟩
  · split at hinit
    · cases hinit
    · rename_i h₁ handle hrun
      cases hinit
      have hsame := runInit_same hrun
      refine ⟨fun x hx => ?_, ?_, fun x hx => ?_, ?_⟩
      · rw [loading_setOpen, loading_setStatus_of_ne hx, hsame.loading,
          loading_setStatus_of_ne hx]
      · rw [loading_setOpen, loading_setStatus_self, hsame.loading, loading_setStatus_self]
      · exact has_setOpen.mpr (.inr (hsame.has x (has_setStatus.mpr (.inr hx))))
      · exact congrArg (· ++ [c]) hsame.openOrder

/-- The two ways to cut a list with one more element. -/
theorem concat_eq_append_cons {α : Type} {xs before after : List α} {y z : α}
    (hsplit : xs ++ [y] = before ++ z :: after) :
    (z = y ∧ before = xs) ∨ ∃ after', xs = before ++ z :: after' := by
  rcases List.eq_nil_or_concat after with rfl | ⟨after', a, rfl⟩
  · obtain ⟨hxs, hy⟩ := List.append_inj' hsplit rfl
    cases hy
    exact .inl ⟨rfl, hxs.symm⟩
  · rw [List.concat_eq_append, ← List.cons_append, ← List.append_assoc] at hsplit
    obtain ⟨hxs, -⟩ := List.append_inj' hsplit rfl
    exact .inr ⟨after', hxs⟩

/-- A class with all its dependencies open becomes open. -/
theorem Inv.setOpen (hinv : Inv (insert c S) h) (hrec : Recorded env h c)
    (hmissing : (h.loading c).missingDependencies = []) (hinit : Initialized c h h') :
    Inv S h' ∧ h'.IsOpen c ∧ Touches c h h' := by
  have hsound := hinv.sound c
  have htouches : Touches c h h' := ⟨.of_others hinit.has hinit.others hrec.notOpen, hinit.others⟩
  have hopen : h'.IsOpen c := by
    unfold Handler.IsOpen
    rw [hinit.self]
  have hdeps : ∀ d ∈ (h.loading c).dependencies, h.IsOpen d := by
    intro d hd
    rcases hsound.covered d hd with hd' | hd'
    · rw [hmissing] at hd'
      cases hd'
    · exact hd'
  have hclosed : c ∉ h.openOrder := fun hmem => hrec.notOpen ((hinv.order_mem c).mp hmem)
  refine ⟨⟨fun x => ?_, ?_, fun x => ?_, fun before x after hsplit d hd => ?_⟩, hopen, htouches⟩
  · by_cases hx : x = c
    · rw [hx, hinit.self]
      refine ⟨fun d hd => .inr (htouches.grows.isOpen (hdeps d hd)), hsound.missing,
        fun _ => hmissing, ?_, Status.noConfusion, hsound.linked,
        fun _ => hsound.handle_of_recorded hrec⟩
      rintro - (hstatus | hstatus) <;> cases hstatus
    · rw [hinit.others x hx]
      exact (hinv.sound x).mono (fun d => htouches.grows.isOpen)
        (fun hmem => (Set.mem_insert_iff.mp hmem).resolve_left hx)
  · rw [hinit.openOrder]
    exact List.nodup_append.mpr ⟨hinv.order_nodup, List.nodup_singleton c, fun a ha b hb hab =>
      hclosed (by rw [← List.mem_singleton.mp hb, ← hab]; exact ha)⟩
  · rw [hinit.openOrder, List.mem_append, List.mem_singleton, hinv.order_mem]
    by_cases hx : x = c
    · rw [hx]
      exact iff_of_true (.inr rfl) hopen
    · unfold Handler.IsOpen
      rw [hinit.others x hx]
      exact or_iff_left hx
  · rw [hinit.openOrder] at hsplit
    rcases concat_eq_append_cons hsplit with ⟨rfl, rfl⟩ | ⟨after', horder⟩
    · rw [hinit.self] at hd
      exact (hinv.order_mem d).mpr (hdeps d hd)
    · have hx : x ≠ c := by
        rintro rfl
        exact hclosed (horder ▸ List.mem_append_right before List.mem_cons_self)
      rw [hinit.others x hx] at hd
      exact hinv.order_deps before x after' horder d hd

/-! ## A whole load -/

/-- `b` is recorded as a dependency of `a`. -/
def Handler.DependsOn (h : Handler) (a b : Bytes) : Prop := b ∈ (h.loading a).dependencies

/-- Handles that come from the table or from the libraries of this call. -/
def HandlesFrom (env : Env) (h h' : Handler) : Prop :=
  ∀ x lib, (h'.loading x).handle = some lib →
    (h.loading x).handle = some lib ∨ env.library x = .opened lib

theorem HandlesFrom.trans {h₁ h₂ h₃ : Handler} (h₁₂ : HandlesFrom env h₁ h₂)
    (h₂₃ : HandlesFrom env h₂ h₃) : HandlesFrom env h₁ h₃ := by
  intro x lib hlib
  rcases h₂₃ x lib hlib with hold | hnew
  · exact h₁₂ x lib hold
  · exact .inr hnew

/-- What a load that returns leaves, while the classes in `S` are on the stack. -/
structure Loaded (env : Env) (S : Set Bytes) (h h' : Handler) (c : Bytes) (r : Int) : Prop where
  frame : ∀ x ∈ S, h'.loading x = h.loading x
  grows : Grows h h'
  inv : Inv S h'
  handles : HandlesFrom env h h'
  result : (r = 0 ∧ h'.IsOpen c) ∨
    (r < 0 ∧ ¬ h'.IsOpen c ∧ ∃ d, Relation.ReflTransGen h'.DependsOn c d ∧ ¬ env.Loads d)

/-- The load of `c` is in the loop over its dependencies, with these left. -/
structure Resolving (env : Env) (S : Set Bytes) (c : Bytes) (missing : List Bytes) (h : Handler) :
    Prop where
  notMem : c ∉ S
  inv : Inv (insert c S) h
  recorded : Recorded env h c
  blocked : Blocked env h S c
  missing : (h.loading c).missingDependencies = missing

/-- The nested load starts with the class on its stack. -/
theorem Resolving.blocked_head {rest : List Bytes} (hres : Resolving env S c (d :: rest) h) :
    Blocked env h (insert c S) d := by
  intro x hx
  rcases Set.mem_insert_iff.mp hx with rfl | hx
  · exact ⟨d, .inl rfl, hres.recorded, rest, hres.missing⟩
  · obtain ⟨y, hy, hwait⟩ := hres.blocked x hx
    exact ⟨y, .inr (Set.mem_insert_iff.mpr hy), hwait⟩

/-- The nested load left the set of the class as it was: the iterator is where it stood. -/
theorem Resolving.missing_after {rest : List Bytes} {r : Int}
    (hres : Resolving env S c (d :: rest) h) (hloaded : Loaded env (insert c S) h h' d r) :
    (h'.loading c).missingDependencies = d :: rest := by
  rw [hloaded.frame c (Set.mem_insert c S)]
  exact hres.missing

/-- The next round of the loop, after a load that succeeded. -/
theorem Resolving.next {rest : List Bytes} (hres : Resolving env S c (d :: rest) h)
    (hloaded : Loaded env (insert c S) h h' d 0) :
    Resolving env S c rest (h'.eraseMissing c d) ∧ Grows h (h'.eraseMissing c d) ∧
      (∀ x ∈ S, (h'.eraseMissing c d).loading x = h.loading x) := by
  have hmissing := hres.missing_after hloaded
  have hrec := hres.recorded.mono (hloaded.frame c (Set.mem_insert c S)) hloaded.grows
  have hopen : h'.IsOpen d := by
    rcases hloaded.result with ⟨-, hopen⟩ | ⟨hneg, -⟩
    · exact hopen
    · exact absurd hneg (lt_irrefl 0)
  have htouches : Touches c h' (h'.eraseMissing c d) := touches_modify hrec.notOpen
  have hgrows := hloaded.grows.trans htouches.grows
  have hframe : ∀ x ∈ S, (h'.eraseMissing c d).loading x = h.loading x := by
    intro x hx
    rw [htouches.others x fun heq => hres.notMem (heq ▸ hx)]
    exact hloaded.frame x (Set.mem_insert_of_mem c hx)
  refine ⟨⟨hres.notMem, ?_, hrec.eraseMissing hmissing hopen, fun x hx => ?_, ?_⟩, hgrows, hframe⟩
  · exact hloaded.inv.eraseMissing (Set.mem_insert c S) hrec.notOpen hmissing hopen
  · obtain ⟨y, hy, hwait⟩ := hres.blocked x hx
    exact ⟨y, hy, hwait.mono (hframe x hx) hgrows⟩
  · rw [loading_eraseMissing_self, hmissing, List.erase_cons_head]

/-- The end of the loop, after a load that failed. -/
theorem Resolving.fail {rest : List Bytes} {r : Int} (hres : Resolving env S c (d :: rest) h)
    (hloaded : Loaded env (insert c S) h h' d r) (hr : r < 0) :
    Loaded env S h (h'.setStatus c .classMissingDeps) c r := by
  have hrec := hres.recorded.mono (hloaded.frame c (Set.mem_insert c S)) hloaded.grows
  obtain ⟨blamed, hpath, hmiss⟩ : ∃ x, Relation.ReflTransGen h'.DependsOn d x ∧
      ¬ env.Loads x := by
    rcases hloaded.result with ⟨h0, -⟩ | ⟨-, -, hblame⟩
    · omega
    · exact hblame
  have hdep : h'.DependsOn c d := by
    apply (hloaded.inv.sound c).missing d
    rw [hres.missing_after hloaded]
    exact List.mem_cons_self
  have hon : (h'.setStatus c .classMissingDeps).DependsOn = h'.DependsOn := by
    funext a b
    unfold Handler.DependsOn
    rw [dependencies_setStatus]
  have htouches : Touches c h' (h'.setStatus c .classMissingDeps) := touches_modify hrec.notOpen
  refine ⟨fun x hx => ?_, hloaded.grows.trans htouches.grows,
    hloaded.inv.setMissingDeps hrec, fun x lib hlib => ?_, .inr ⟨hr, ?_, blamed, ?_, hmiss⟩⟩
  · rw [htouches.others x fun heq => hres.notMem (heq ▸ hx)]
    exact hloaded.frame x (Set.mem_insert_of_mem c hx)
  · rw [handle_setStatus] at hlib
    exact hloaded.handles x lib hlib
  · unfold Handler.IsOpen
    rw [loading_setStatus_self]
    exact Status.noConfusion
  · rw [hon]
    exact .head hdep hpath

/-- The loop over the dependencies: every one of them is loaded, or the load fails. -/
theorem resolve_spec {load : Handler → Bytes → Except Fault (Handler × Int)}
    (hload : ∀ {S h c h' r}, Inv S h → Blocked env h S c → load h c = .ok (h', r) →
      Loaded env S h h' c r)
    {missing : List Bytes} {r : Int} (hres : Resolving env S c missing h)
    (hresolve : resolve load c missing h = .ok (h', r)) :
    (r = 0 ∧ Resolving env S c [] h' ∧ Grows h h' ∧ HandlesFrom env h h' ∧
        ∀ x ∈ S, h'.loading x = h.loading x) ∨
      (r < 0 ∧ Loaded env S h h' c r) := by
  induction missing generalizing h with
  | nil =>
      cases hresolve
      exact .inl ⟨rfl, hres, .refl _, fun _ _ => .inl, fun _ _ => rfl⟩
  | cons dc rest ih =>
      simp only [resolve] at hresolve
      split at hresolve
      · cases hresolve
      · rename_i h₁ r₁ hfirst
        have hloaded := hload hres.inv hres.blocked_head hfirst
        split_ifs at hresolve with hr
        · cases hresolve
          exact .inr ⟨hr, hres.fail hloaded hr⟩
        · obtain rfl : r₁ = 0 := by
            rcases hloaded.result with ⟨h0, -⟩ | ⟨hneg, -⟩
            · exact h0
            · exact absurd hneg hr
          obtain ⟨hres', hgrows, hframe⟩ := hres.next hloaded
          have hhandles : HandlesFrom env h (h₁.eraseMissing c dc) := by
            intro x lib hlib
            rw [handle_eraseMissing] at hlib
            exact hloaded.handles x lib hlib
          rcases ih hres' hresolve with ⟨h0, hdone, hgrows', hhandles', hframe'⟩ | ⟨hneg, hfail⟩
          · exact .inl ⟨h0, hdone, hgrows.trans hgrows', hhandles.trans hhandles',
              fun x hx => (hframe' x hx).trans (hframe x hx)⟩
          · exact .inr ⟨hneg, fun x hx => (hfail.frame x hx).trans (hframe x hx),
              hgrows.trans hfail.grows, hfail.inv, hhandles.trans hfail.handles, hfail.result⟩

/-- The last part of a load, once no dependency is missing. -/
theorem Resolving.init (hres : Resolving env S c [] h) (hinit : clsInit env h c = .ok h') :
    Loaded env S h h' c 0 := by
  have hlast := clsInit_initialized hinit
  obtain ⟨hinv, hopen, htouches⟩ := hres.inv.setOpen hres.recorded hres.missing hlast
  refine ⟨fun x hx => htouches.others x fun heq => hres.notMem (heq ▸ hx), htouches.grows, hinv,
    fun x lib hlib => .inl ?_, .inl ⟨rfl, hopen⟩⟩
  by_cases hx : x = c
  · rw [hx, hlast.self] at hlib
    rw [hx]
    exact hlib
  · rw [htouches.others x hx] at hlib
    exact hlib

/-- One part of a load after the other. -/
theorem Loaded.after {h₁ : Handler} {r : Int} (hloaded : Loaded env S h₁ h' c r)
    (hgrows : Grows h h₁) (hhandles : HandlesFrom env h h₁)
    (hframe : ∀ x ∈ S, h₁.loading x = h.loading x) : Loaded env S h h' c r where
  frame x hx := (hloaded.frame x hx).trans (hframe x hx)
  grows := hgrows.trans hloaded.grows
  inv := hloaded.inv
  handles := hhandles.trans hloaded.handles
  result := hloaded.result

/-- The first part of a load, once the class is known not to be open or on the stack. -/
theorem openLibrary_loading (hinv : Inv S h) (hblocked : Blocked env h S c) (hc : c ∉ S)
    (hnot : ¬ h.IsOpen c) {r : Int} (hopen : openLibrary env h c = (h', r)) :
    Grows h h' ∧ HandlesFrom env h h' ∧ (∀ x ∈ S, h'.loading x = h.loading x) ∧
      ((r = 0 ∧ Resolving env S c (h'.loading c).missingDependencies h') ∨
        (r < 0 ∧ Loaded env S h h' c r)) := by
  obtain ⟨htouches, hresult⟩ := openLibrary_spec hinv hc hnot hopen
  have hframe : ∀ x ∈ S, h'.loading x = h.loading x := fun x hx =>
    htouches.others x fun heq => hc (heq ▸ hx)
  have hhandles : HandlesFrom env h h' := by
    intro x lib hlib
    by_cases hx : x = c
    · subst hx
      exact openLibrary_handle hopen hlib
    · rw [htouches.others x hx] at hlib
      exact .inl hlib
  refine ⟨htouches.grows, hhandles, hframe, ?_⟩
  rcases hresult with ⟨h0, hinv', hrec⟩ | ⟨hr, hinv', hnot', hmiss⟩
  · refine .inl ⟨h0, hc, hinv', hrec, fun x hx => ?_, rfl⟩
    obtain ⟨y, hy, hwait⟩ := hblocked x hx
    exact ⟨y, hy, hwait.mono (hframe x hx) htouches.grows⟩
  · exact .inr ⟨hr, hframe, htouches.grows, hinv', hhandles, .inr ⟨hr, hnot', c, .refl, hmiss⟩⟩

/-- Whenever a load returns, the classes on the stack are as they were, the invariant holds again,
and the class is open or some class it depends on has no library that can be opened. -/
theorem loadClass_spec {depth : Nat} {r : Int} (hinv : Inv S h) (hblocked : Blocked env h S c)
    (hload : loadClass env depth h c = .ok (h', r)) : Loaded env S h h' c r := by
  induction depth generalizing S h c h' r with
  | zero => cases hload
  | succ depth ih =>
      have hc := hblocked.notMem hload
      unfold loadClass at hload
      split_ifs at hload with hopen
      · cases hload
        exact ⟨fun _ _ => rfl, .refl _, hinv, fun _ _ => .inl, .inl ⟨rfl, hopen⟩⟩
      · rcases hlibrary : openLibrary env h c with ⟨h₁, r₁⟩
        simp only [hlibrary] at hload
        obtain ⟨hgrows, hhandles, hframe, ⟨rfl, hres⟩ | ⟨hr, hfail⟩⟩ :=
          openLibrary_loading hinv hblocked hc hopen hlibrary
        · rw [if_neg (lt_irrefl 0)] at hload
          split at hload
          · cases hload
          · rename_i h₂ r₂ hresolve
            rcases resolve_spec ih hres hresolve with
              ⟨rfl, hdone, hgrows₂, hhandles₂, hframe₂⟩ | ⟨hr, hfail⟩
            · rw [if_neg (lt_irrefl 0)] at hload
              cases hinit : clsInit env h₂ c with
              | error fault =>
                  rw [hinit] at hload
                  cases hload
              | ok h₃ =>
                  rw [hinit] at hload
                  cases hload
                  exact ((hdone.init hinit).after hgrows₂ hhandles₂ hframe₂).after
                    hgrows hhandles hframe
            · rw [if_pos hr] at hload
              cases hload
              exact hfail.after hgrows hhandles hframe
        · rw [if_pos hr] at hload
          cases hload
          exact hfail

/-- What each part of a load keeps, once the class to load satisfies `ok`: the induction rule for
properties of the table. -/
structure Kept (env : Env) (ok : Bytes → Prop) (P : Handler → Prop) : Prop where
  dependency : ∀ {h c d}, P h → ok c → d ∈ (h.loading c).missingDependencies → ok d
  library : ∀ {h c}, P h → ok c → ¬ h.IsOpen c → P (openLibrary env h c).1
  erase : ∀ {h c d}, P h → ok c → P (h.eraseMissing c d)
  fail : ∀ {h c}, P h → ok c → ¬ h.IsOpen c → P (h.setStatus c .classMissingDeps)
  init : ∀ {S h h' c}, Resolving env S c [] h → P h → ok c → clsInit env h c = .ok h' → P h'

/-- The loop over the dependencies keeps what its loads keep. -/
theorem Kept.resolve {ok : Bytes → Prop} {P : Handler → Prop} (hkept : Kept env ok P)
    {depth : Nat} (hload : ∀ {S h c h' r}, Inv S h → Blocked env h S c → P h → ok c →
      loadClass env depth h c = .ok (h', r) → P h')
    {missing : List Bytes} {r : Int} (hres : Resolving env S c missing h) (hP : P h) (hok : ok c)
    (hresolve : resolve (loadClass env depth) c missing h = .ok (h', r)) : P h' := by
  induction missing generalizing h with
  | nil =>
      cases hresolve
      exact hP
  | cons dc rest ih =>
      simp only [ClassHandler.resolve] at hresolve
      split at hresolve
      · cases hresolve
      · rename_i h₁ r₁ hfirst
        have hloaded := loadClass_spec hres.inv hres.blocked_head hfirst
        have hdc : ok dc := by
          apply hkept.dependency hP hok
          rw [hres.missing]
          exact List.mem_cons_self
        have hP₁ : P h₁ := hload hres.inv hres.blocked_head hP hdc hfirst
        have hrec := hres.recorded.mono (hloaded.frame c (Set.mem_insert c S)) hloaded.grows
        rcases hloaded.result with ⟨rfl, -⟩ | ⟨hr, -⟩
        · rw [if_neg (lt_irrefl 0)] at hresolve
          obtain ⟨hres', -, -⟩ := hres.next hloaded
          exact ih hres' (hkept.erase hP₁ hok) hresolve
        · rw [if_pos hr] at hresolve
          cases hresolve
          exact hkept.fail hP₁ hok hrec.notOpen

/-- A load keeps what its parts keep. -/
theorem Kept.load {ok : Bytes → Prop} {P : Handler → Prop} (hkept : Kept env ok P)
    {depth : Nat} {r : Int} (hinv : Inv S h) (hblocked : Blocked env h S c) (hP : P h)
    (hok : ok c) (hload : loadClass env depth h c = .ok (h', r)) : P h' := by
  induction depth generalizing S h c h' r with
  | zero => cases hload
  | succ depth ih =>
      have hc := hblocked.notMem hload
      unfold loadClass at hload
      split_ifs at hload with hopen
      · cases hload
        exact hP
      · have hP₁ := hkept.library hP hok hopen
        rcases hlibrary : openLibrary env h c with ⟨h₁, r₁⟩
        rw [hlibrary] at hP₁
        simp only [hlibrary] at hload
        obtain ⟨-, -, -, ⟨rfl, hres⟩ | ⟨hr, -⟩⟩ :=
          openLibrary_loading hinv hblocked hc hopen hlibrary
        · rw [if_neg (lt_irrefl 0)] at hload
          split at hload
          · cases hload
          · rename_i h₂ r₂ hresolve
            have hP₂ := hkept.resolve ih hres hP₁ hok hresolve
            rcases resolve_spec loadClass_spec hres hresolve with ⟨rfl, hdone, -⟩ | ⟨hr, -⟩
            · rw [if_neg (lt_irrefl 0)] at hload
              cases hinit : clsInit env h₂ c with
              | error fault =>
                  rw [hinit] at hload
                  cases hload
              | ok h₃ =>
                  rw [hinit] at hload
                  cases hload
                  exact hkept.init hdone hP₂ hok hinit
            · rw [if_pos hr] at hload
              cases hload
              exact hP₂
        · rw [if_pos hr] at hload
          cases hload
          exact hP₁

end Invariant

/-! ## Runs of `open_class` -/

/-- A call of `open_class`, with what it finds outside and the stack it may use. -/
structure OpenCall where
  env : Env
  depth : Nat
  cname : Bytes

/-- A call that returns; one that does not takes the process with it. -/
def openStep (h : Handler) (call : OpenCall) : Option Handler :=
  match openClass call.env call.depth h call.cname with
  | .ok (h', _) => some h'
  | .error _ => none

section Runs

variable {env : Env} {h h' : Handler} {c d : Bytes}

/-- `_get_class` keeps the invariant. -/
theorem Inv.getClass (hinv : Inv ∅ h) : Inv ∅ (h.getClass env c) := by
  have hopen : (h.getClass env c).IsOpen = h.IsOpen := by
    funext x
    unfold Handler.IsOpen
    rw [loading_getClass]
  refine ⟨fun x => ?_, ?_, fun x => ?_, ?_⟩
  · rw [hopen, loading_getClass]
    exact hinv.sound x
  · rw [openOrder_getClass]
    exact hinv.order_nodup
  · rw [hopen, openOrder_getClass]
    exact hinv.order_mem x
  · simp only [openOrder_getClass, loading_getClass]
    exact hinv.order_deps

/-- The class may be opened: it has an entry, or it is in the load list. -/
def Handler.Permits (h : Handler) (env : Env) (cname : Bytes) : Prop :=
  h.Has cname ∨ inClassList cname env.loadList = true

/-- What a call of `open_class` that returns leaves. -/
theorem openClass_spec (hinv : Inv ∅ h) {depth : Nat} {r : Int}
    (hopen : openClass env depth h c = .ok (h', r)) :
    (r = eperm ∧ h' = h ∧ ¬ h.Permits env c) ∨
      (h.Permits env c ∧ Loaded env ∅ (h.getClass env c) h' c r) := by
  unfold openClass Handler.getAllowed at hopen
  by_cases hpermit : h.Permits env c
  · have hallowed : ¬ (¬ h.Has c ∧ ¬ inClassList c env.loadList = true) := by
      unfold Handler.Permits at hpermit
      tauto
    rw [if_neg hallowed] at hopen
    refine .inr ⟨hpermit, ?_⟩
    simp only at hopen
    split_ifs at hopen with hstatus
    · cases hopen
      exact ⟨fun _ _ => rfl, .refl _, hinv.getClass, fun _ _ => .inl, .inl ⟨rfl, hstatus⟩⟩
    · exact loadClass_spec hinv.getClass (fun x hx => absurd hx (Set.notMem_empty x)) hopen
  · have hrefused : ¬ h.Has c ∧ ¬ inClassList c env.loadList = true := by
      unfold Handler.Permits at hpermit
      tauto
    rw [if_pos hrefused] at hopen
    cases hopen
    exact .inl ⟨rfl, rfl, hpermit⟩

/-- The empty table. -/
theorem inv_empty : Inv ∅ {} := by
  refine ⟨fun c => ⟨?_, ?_, fun _ => rfl, fun _ _ => ⟨rfl, rfl⟩, Status.noConfusion, ?_, ?_⟩,
    .nil, fun c => ?_, fun before c after hsplit => ?_⟩
  · intro d hd
    cases hd
  · intro d hd
    cases hd
  · intro lib hlib
    cases hlib
  · rintro (hstatus | hstatus) <;> cases hstatus
  · constructor
    · intro hc
      cases hc
    · intro hc
      cases hc
  · exact absurd hsplit.symm (List.append_ne_nil_of_right_ne_nil _ (List.cons_ne_nil _ _))

/-- The invariant holds after every call. -/
theorem openStep_inv {call : OpenCall} (hinv : Inv ∅ h) (hstep : openStep h call = some h') :
    Inv ∅ h' := by
  unfold openStep at hstep
  split at hstep
  · rename_i h₁ r hopen
    cases hstep
    rcases openClass_spec hinv hopen with ⟨-, rfl, -⟩ | ⟨-, hloaded⟩
    · exact hinv
    · exact hloaded.inv
  · cases hstep

/-- The invariant of every run. -/
theorem inv_of_reach (hreach : Reach openStep anyEvent {} h) : Inv ∅ h :=
  hreach.invariant (Inv ∅) inv_empty fun _ _ _ hinv _ hstep => openStep_inv hinv hstep

/-- In every run an open class has all classes that its library names open, they were opened
before it, and no class was opened twice. -/
theorem open_classes_are_ready (hreach : Reach openStep anyEvent {} h) :
    (∀ c, h.IsOpen c → ∃ lib, (h.loading c).handle = some lib ∧ ∀ d ∈ lib.deps, h.IsOpen d) ∧
      h.openOrder.Nodup ∧ (∀ c, c ∈ h.openOrder ↔ h.IsOpen c) ∧
      ∀ before c after lib, h.openOrder = before ++ c :: after →
        (h.loading c).handle = some lib → ∀ d ∈ lib.deps, d ∈ before := by
  have hinv := inv_of_reach hreach
  refine ⟨fun c hc => ?_, hinv.order_nodup, hinv.order_mem,
    fun before c after lib hsplit hlib d hd => ?_⟩
  · have hsound := hinv.sound c
    obtain ⟨lib, hlib⟩ := Option.isSome_iff_exists.mp (hsound.handled (.inr hc))
    refine ⟨lib, hlib, fun d hd => ?_⟩
    rcases hsound.covered d ((hsound.linked lib hlib d).mpr hd) with hd' | hd'
    · rw [hsound.done hc] at hd'
      cases hd'
    · exact hd'
  · exact hinv.order_deps before c after hsplit d (((hinv.sound c).linked lib hlib d).mpr hd)

/-- Two libraries, of which `rgw` needs `lock`. -/
def pairEnv : Env where
  dlopen file :=
    if file = ascii "/opt/gcache/lib/libcls_rgw.so" then
      .opened ⟨[ascii "lock"], some [.register (ascii "rgw")]⟩
    else if file = ascii "/opt/gcache/lib/libcls_lock.so" then
      .opened ⟨[], some [.register (ascii "lock"), .registerCxxMethod (ascii "lock") 3 7]⟩
    else .noFile 2
  loadList := ascii "rgw"
  defaultList := ascii "*"
  addr name := name.length

/-- The table after `rgw` was opened. -/
def pairOpened : Handler := (openStep {} ⟨pairEnv, 2, ascii "rgw"⟩).getD {}

/-- The load of `rgw` and `lock`. -/
theorem reach_pairOpened : Reach openStep anyEvent {} pairOpened :=
  .next .start trivial (show openStep {} ⟨pairEnv, 2, ascii "rgw"⟩ = some pairOpened from rfl)

/-- Opening `rgw` opens `lock` before it. -/
theorem rgw_is_ready : pairOpened.openOrder = [ascii "lock", ascii "rgw"] ∧
    pairOpened.openOrder.Nodup ∧ ∀ c, c ∈ pairOpened.openOrder ↔ pairOpened.IsOpen c :=
  ⟨by decide +kernel, (open_classes_are_ready reach_pairOpened).2.1,
    (open_classes_are_ready reach_pairOpened).2.2.1⟩

/-- An open class has an entry. -/
theorem Handler.IsOpen.has (hopen : h.IsOpen c) : h.Has c := by
  apply has_of_status
  rw [hopen]
  exact Status.noConfusion

/-- A call that returns 0 leaves the class open, every other result leaves it closed; classes that
were open stay as they are; and a failure other than the refusal of the load list is the failure
of `dlopen` for the class or for one it depends on. -/
theorem open_class_result (hreach : Reach openStep anyEvent {} h) {depth : Nat} {r : Int}
    (hopen : openClass env depth h c = .ok (h', r)) :
    (r = 0 ↔ h'.IsOpen c) ∧ (∀ x, h.IsOpen x → h'.loading x = h.loading x) ∧
      (¬ h.Permits env c → r = eperm ∧ h' = h) ∧
      (h.Permits env c → r ≠ 0 →
        r < 0 ∧ ∃ d, Relation.ReflTransGen h'.DependsOn c d ∧ ¬ env.Loads d) := by
  rcases openClass_spec (inv_of_reach hreach) hopen with ⟨rfl, rfl, hnot⟩ | ⟨hpermit, hloaded⟩
  · refine ⟨iff_of_false (by decide) fun hc => hnot (.inl hc.has), fun _ _ => rfl,
      fun _ => ⟨rfl, rfl⟩, fun hpermit => absurd hpermit hnot⟩
  · refine ⟨?_, fun x hx => ?_, fun hnot => absurd hpermit hnot, fun _ hr => ?_⟩
    · rcases hloaded.result with ⟨hr, hc⟩ | ⟨hr, hc, -⟩
      · exact iff_of_true hr hc
      · exact iff_of_false hr.ne hc
    · have hx' : (h.getClass env c).IsOpen x := by
        unfold Handler.IsOpen
        rw [loading_getClass]
        exact hx
      rw [hloaded.grows.kept x hx', loading_getClass]
    · rcases hloaded.result with ⟨hr', -⟩ | ⟨hneg, -, hblame⟩
      · exact absurd hr' hr
      · exact ⟨hneg, hblame⟩

/-- Only `rgw` is listed, and no library can be opened. -/
def bareEnv : Env where
  dlopen _ := .unloadable
  loadList := ascii "rgw"
  defaultList := []
  addr _ := 0

/-- The table after the failed load of `rgw`. -/
def bareMissing : Handler := (openStep {} ⟨bareEnv, 1, ascii "rgw"⟩).getD {}

/-- The failed load of `rgw` is due to its own library. -/
theorem bare_class_result : ¬ bareMissing.IsOpen (ascii "rgw") ∧
    ∃ d, Relation.ReflTransGen bareMissing.DependsOn (ascii "rgw") d ∧ ¬ bareEnv.Loads d := by
  have hopen : openClass bareEnv 1 {} (ascii "rgw") = .ok (bareMissing, eio) := rfl
  obtain ⟨hresult, -, -, hblame⟩ := open_class_result .start hopen
  have hne : eio ≠ 0 := by decide
  exact ⟨fun hc => hne (hresult.mpr hc), (hblame (.inr (by decide)) hne).2⟩

end Runs

end GlobalCacheAdaptor.ServerAdaptor.ClassHandler

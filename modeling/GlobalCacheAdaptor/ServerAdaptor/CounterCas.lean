import GlobalCacheAdaptor.ServerAdaptor.NetworkModule

/-!
# QoS counters at the granularity of single accesses

Every `Get…Cas` and `Put…Cas` of `network_module.cpp` is a small machine whose steps are one load
of a throttle, one load of the counter or one compare-and-swap. The write and read counters share
two bodies, `getCas` and `putCas`; `GetlwtCas` and `PutlwtCas` test their throttle before anything
else and keep bodies of their own. `access_effect` collects what one access can do, and is all
that the accounting proofs use. The loads of a counter that only feed a log line are left out.
-/

namespace GlobalCacheAdaptor.ServerAdaptor

/-- A 64-bit counter or throttle value. -/
abbrev Word := BitVec 64

/-- The five counters of `NetworkModule`. -/
inductive Counter where
  | lwtCount | lwtWriteCount | lwtReadCount | writeBW | readBW
  deriving DecidableEq, Repr

/-- The next access of a call. `enter` is its first one, `load` reads the counter into `old`,
`cas` is the compare-and-swap, and the last two are the two loads of the waiting loop. -/
inductive Pc where
  | enter
  | load (throttle : Word)
  | cas (throttle old : Word)
  | reload
  | rethrottle (old : Word)
  deriving DecidableEq, Repr

/-- The result of one access. -/
inductive Access where
  /-- The call goes on at `pc`. -/
  | goOn (pc : Pc)
  /-- The call returns. -/
  | leave
  /-- A `Put` returns through its guard without a decrement. -/
  | drop
  /-- The compare-and-swap stored `value`; the call goes on or returns. -/
  | swap (value : Word) (next : Option Pc)
  deriving DecidableEq, Repr

/-! ## The bodies -/

/-- `GetlwtCas(c)`. -/
def getlwtCas (c : Word) (pc : Pc) (counter reading : Word) : Access :=
  match pc with
  | .enter => if reading = 0 then .leave else .goOn (.load reading)
  | .load throttle => .goOn (.cas throttle counter)
  | .cas throttle old =>
      -- the wait compares the throttle with the value before the increment
      if counter = old then .swap (old + c) (some (.rethrottle old)) else .goOn (.load throttle)
  | .rethrottle old => if reading < old then .goOn .reload else .leave
  | .reload => .goOn (.rethrottle counter)

/-- `PutlwtCas()`. -/
def putlwtCas (pc : Pc) (counter reading : Word) : Access :=
  match pc with
  | .enter => if reading = 0 then .leave else .goOn (.load reading)
  | .load throttle => .goOn (.cas throttle counter)
  | .cas throttle old =>
      if counter = old then .swap (old - 1) none else .goOn (.load throttle)
  | .rethrottle _ | .reload => .leave

/-- The common body of `GetWritelwtCas`, `GetReadlwtCas`, `GetWriteBWCas` and `GetReadBWCas`. The
throttle is read once before the loop, and again after each load of the waiting loop. -/
def getCas (c : Word) (pc : Pc) (counter reading : Word) : Access :=
  match pc with
  | .enter => .goOn (.load reading)
  | .load throttle => .goOn (.cas throttle counter)
  | .cas throttle old =>
      if counter = old then
        .swap (old + c)
          (if throttle = 0 then none else if throttle < old then some .reload else none)
      else .goOn (.load throttle)
  | .reload => .goOn (.rethrottle counter)
  | .rethrottle old =>
      if reading = 0 then .leave else if reading < old then .goOn .reload else .leave

/-- The common body of `PutWritelwtCas`, `PutReadlwtCas`, `PutWriteBWCas` and `PutReadBWCas`. A
failed compare-and-swap tests the guard again and then loads again, as at the entry. -/
def putCas (guard : Word → Bool) (c : Word) (pc : Pc) (counter : Word) : Access :=
  match pc with
  | .enter => if guard counter then .drop else .goOn (.load 0)
  | .load throttle => .goOn (.cas throttle counter)
  | .cas _ old => if counter = old then .swap (old - c) none else .goOn .enter
  | .rethrottle _ | .reload => .leave

namespace CounterCall

/-- The counter a call moves. -/
def target : CounterCall → Counter
  | getlwtCas _ | putlwtCas => .lwtCount
  | getWritelwtCas _ | putWritelwtCas => .lwtWriteCount
  | getReadlwtCas _ | putReadlwtCas => .lwtReadCount
  | getWriteBWCas _ | putWriteBWCas _ => .writeBW
  | getReadBWCas _ | putReadBWCas _ => .readBW

/-- The call is a `Get`. -/
def isGet : CounterCall → Bool
  | getlwtCas _ | getWritelwtCas _ | getReadlwtCas _ | getWriteBWCas _ | getReadBWCas _ => true
  | putlwtCas | putWritelwtCas | putReadlwtCas | putWriteBWCas _ | putReadBWCas _ => false

/-- How far a call moves its counter. -/
def amount : CounterCall → Word
  | getlwtCas c | getWritelwtCas c | getReadlwtCas c => c.setWidth 64
  | getWriteBWCas c | getReadBWCas c | putWriteBWCas c | putReadBWCas c => c
  | putlwtCas | putWritelwtCas | putReadlwtCas => 1

/-- The next access of a call. `counter` is the current value of its counter, and `reading` the
value its throttle has if this access reads it. -/
def access : CounterCall → Pc → Word → Word → Access
  | getlwtCas c, pc, counter, reading => ServerAdaptor.getlwtCas (c.setWidth 64) pc counter reading
  | putlwtCas, pc, counter, reading => ServerAdaptor.putlwtCas pc counter reading
  | getWritelwtCas c, pc, counter, reading => getCas (c.setWidth 64) pc counter reading
  | putWritelwtCas, pc, counter, _ => putCas (· = 0) 1 pc counter
  | getReadlwtCas c, pc, counter, reading => getCas (c.setWidth 64) pc counter reading
  | putReadlwtCas, pc, counter, _ => putCas (· = 0) 1 pc counter
  | getWriteBWCas c, pc, counter, reading => getCas c pc counter reading
  | putWriteBWCas c, pc, counter, _ => putCas (· < c) c pc counter
  | getReadBWCas c, pc, counter, reading => getCas c pc counter reading
  | putReadBWCas c, pc, counter, _ => putCas (· < c) c pc counter

end CounterCall

/-- The call is past its compare-and-swap. -/
def Pc.swapped : Pc → Bool
  | .enter | .load _ | .cas _ _ => false
  | .reload | .rethrottle _ => true

/-! ## What one access can do -/

/-- The results one access of a call can have. -/
inductive AccessEffect (call : CounterCall) (pc : Pc) (counter reading : Word) : Access → Prop where
  /-- A load, a failed compare-and-swap or a failed wait: the counter stays. -/
  | goOn {pc' : Pc} (hpc : pc'.swapped = pc.swapped) :
      AccessEffect call pc counter reading (.goOn pc')
  /-- The wait after the swap is over. -/
  | waited (hpc : pc.swapped = true) : AccessEffect call pc counter reading .leave
  /-- The throttle of `lwtCount` is off, and the call has not swapped. -/
  | throttleOff (htarget : call.target = .lwtCount) (hpc : pc.swapped = false) (h : reading = 0) :
      AccessEffect call pc counter reading .leave
  /-- The guard of a `Put` found the counter below the amount. -/
  | drop (hput : call.isGet = false) (htarget : call.target ≠ .lwtCount)
      (hpc : pc.swapped = false) (h : counter < call.amount) :
      AccessEffect call pc counter reading .drop
  /-- A `Get` added its amount, and may have to wait. -/
  | add {next : Option Pc} (hget : call.isGet = true) (hpc : pc.swapped = false)
      (hnext : ∀ pc' ∈ next, pc'.swapped = true) :
      AccessEffect call pc counter reading (.swap (counter + call.amount) next)
  /-- A `Put` subtracted its amount. -/
  | subtract (hput : call.isGet = false) (hpc : pc.swapped = false) :
      AccessEffect call pc counter reading (.swap (counter - call.amount) none)

/-- One access of `GetlwtCas`. -/
theorem getlwtCas_effect (c : BitVec 32) (pc : Pc) (counter reading : Word) :
    AccessEffect (.getlwtCas c) pc counter reading
      (getlwtCas (c.setWidth 64) pc counter reading) := by
  cases pc with
  | enter =>
      simp only [getlwtCas]
      split_ifs with h
      · exact .throttleOff rfl rfl h
      · exact .goOn rfl
  | load throttle => exact .goOn rfl
  | cas throttle old =>
      simp only [getlwtCas]
      split_ifs with h
      · subst h
        exact .add rfl rfl (by simp [Pc.swapped])
      · exact .goOn rfl
  | reload => exact .goOn rfl
  | rethrottle old =>
      simp only [getlwtCas]
      split_ifs
      · exact .goOn rfl
      · exact .waited rfl

/-- One access of `PutlwtCas`. -/
theorem putlwtCas_effect (pc : Pc) (counter reading : Word) :
    AccessEffect .putlwtCas pc counter reading (putlwtCas pc counter reading) := by
  cases pc with
  | enter =>
      simp only [putlwtCas]
      split_ifs with h
      · exact .throttleOff rfl rfl h
      · exact .goOn rfl
  | load throttle => exact .goOn rfl
  | cas throttle old =>
      simp only [putlwtCas]
      split_ifs with h
      · subst h
        exact .subtract rfl rfl
      · exact .goOn rfl
  | reload => exact .waited rfl
  | rethrottle old => exact .waited rfl

/-- One access of a `Get` on a write or read counter. -/
theorem getCas_effect {call : CounterCall} (hget : call.isGet = true) (pc : Pc)
    (counter reading : Word) :
    AccessEffect call pc counter reading (getCas call.amount pc counter reading) := by
  cases pc with
  | enter => exact .goOn rfl
  | load throttle => exact .goOn rfl
  | cas throttle old =>
      simp only [getCas]
      split_ifs with h
      · subst h
        exact .add hget rfl (by simp)
      · subst h
        exact .add hget rfl (by simp [Pc.swapped])
      · subst h
        exact .add hget rfl (by simp)
      · exact .goOn rfl
  | reload => exact .goOn rfl
  | rethrottle old =>
      simp only [getCas]
      split_ifs
      · exact .waited rfl
      · exact .goOn rfl
      · exact .waited rfl

/-- One access of a `Put` on a write or read counter, whose guard tests for less than the
amount. -/
theorem putCas_effect {call : CounterCall} (hput : call.isGet = false)
    (htarget : call.target ≠ .lwtCount) {guard : Word → Bool}
    (hguard : ∀ counter, guard counter = true → counter < call.amount) (pc : Pc)
    (counter reading : Word) :
    AccessEffect call pc counter reading (putCas guard call.amount pc counter) := by
  cases pc with
  | enter =>
      simp only [putCas]
      split_ifs with h
      · exact .drop hput htarget rfl (hguard counter h)
      · exact .goOn rfl
  | load throttle => exact .goOn rfl
  | cas throttle old =>
      simp only [putCas]
      split_ifs with h
      · subst h
        exact .subtract hput rfl
      · exact .goOn rfl
  | reload => exact .waited rfl
  | rethrottle old => exact .waited rfl

/-- The zero guard of the request counters is a less-than guard at amount 1. -/
theorem lt_one_of_zero_guard (counter : Word) (h : decide (counter = 0) = true) :
    counter < (1 : Word) := by
  rw [of_decide_eq_true h]
  decide

/-- Every access of every call has one of the listed results. -/
theorem access_effect (call : CounterCall) (pc : Pc) (counter reading : Word) :
    AccessEffect call pc counter reading (call.access pc counter reading) := by
  cases call with
  | getlwtCas c => exact getlwtCas_effect c pc counter reading
  | putlwtCas => exact putlwtCas_effect pc counter reading
  | getWritelwtCas c => exact getCas_effect rfl pc counter reading
  | getReadlwtCas c => exact getCas_effect rfl pc counter reading
  | getWriteBWCas c => exact getCas_effect rfl pc counter reading
  | getReadBWCas c => exact getCas_effect rfl pc counter reading
  | putWritelwtCas =>
      exact @putCas_effect .putWritelwtCas rfl (by decide) _ lt_one_of_zero_guard pc counter reading
  | putReadlwtCas =>
      exact @putCas_effect .putReadlwtCas rfl (by decide) _ lt_one_of_zero_guard pc counter reading
  | putWriteBWCas c =>
      exact putCas_effect rfl (by simp [CounterCall.target])
        (fun _ h => of_decide_eq_true h) pc counter reading
  | putReadBWCas c =>
      exact putCas_effect rfl (by simp [CounterCall.target])
        (fun _ h => of_decide_eq_true h) pc counter reading

end GlobalCacheAdaptor.ServerAdaptor

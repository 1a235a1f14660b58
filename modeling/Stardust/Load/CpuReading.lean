import Mathlib.Algebra.BigOperators.Group.List.Basic
import Mathlib.Algebra.Order.Floor.Ring
import Mathlib.Tactic.Linarith
import Mathlib.Tactic.Ring
import Stardust.Load.Shedder

/-!
# The reading of the CPU

The shedder adds up all metrics of CPU time that the runtime has. They form a hierarchy: there is a
total, and totals of garbage collection and of scavenging, and the idle time is one of the classes.
All time is thereby counted twice, idle time included, and the time of the two parts with totals of
their own a third time.
-/

namespace Stardust.Load

/-- What kind of value a metric has. -/
inductive MetricKind where
  | bad
  | uint64
  | float64
  | float64Histogram
  deriving DecidableEq, Repr

/-- A metric of the runtime. -/
structure Description where
  name : String
  kind : MetricKind
  deriving DecidableEq, Repr

/-- What the names of the metrics of CPU time begin with. -/
def cpuClasses : String := "/cpu/classes/"

/-- The names of all CPU classes. -/
def discoverCPUMetrics (descs : List Description) : List String :=
  (descs.filter fun d =>
    d.kind = .float64 ∧ cpuClasses.toList.isPrefixOf d.name.toList).map Description.name

/-- The sum of the values of the metrics. -/
def readCPUSeconds (metricNames : List String) (value : String → ℚ) : ℚ :=
  (metricNames.map value).sum

/-! ### The hierarchy of the metrics -/

/-- The class that sums up all others. -/
def totalSeconds : String := "/cpu/classes/total:cpu-seconds"

/-- The class that sums up garbage collection. -/
def gcSeconds : String := "/cpu/classes/gc/total:cpu-seconds"

/-- The class of idle time. -/
def idleSeconds : String := "/cpu/classes/idle:cpu-seconds"

/-- The class that sums up scavenging. -/
def scavengeSeconds : String := "/cpu/classes/scavenge/total:cpu-seconds"

/-- The class of user code. -/
def userSeconds : String := "/cpu/classes/user:cpu-seconds"

/-- The metrics of CPU time by the names of the classes below the two partial totals. -/
structure CpuHierarchy where
  /-- The classes of garbage collection. -/
  gc : List String
  /-- The classes of scavenging. -/
  scavenge : List String

namespace CpuHierarchy

/-- The names of all metrics of CPU time. -/
def names (h : CpuHierarchy) : List String :=
  [totalSeconds, gcSeconds, idleSeconds, scavengeSeconds, userSeconds] ++ h.gc ++ h.scavenge

/-- In a sample every total is the sum of its classes. -/
structure Adds (h : CpuHierarchy) (value : String → ℚ) : Prop where
  total : value totalSeconds =
    value gcSeconds + value idleSeconds + value scavengeSeconds + value userSeconds
  gc : value gcSeconds = (h.gc.map value).sum
  scavenge : value scavengeSeconds = (h.scavenge.map value).sum

end CpuHierarchy

/-- The CPU time that was not idle. -/
def busySeconds (value : String → ℚ) : ℚ := value totalSeconds - value idleSeconds

/-- All time twice, and garbage collection and scavenging once more. -/
def countedSeconds (value : String → ℚ) : ℚ :=
  2 * value totalSeconds + value gcSeconds + value scavengeSeconds

/-- What the sum of all metrics counts. -/
theorem readCPUSeconds_eq {descs : List Description} {h : CpuHierarchy} {value : String → ℚ}
    (hnames : (discoverCPUMetrics descs).Perm h.names) (hadds : h.Adds value) :
    readCPUSeconds (discoverCPUMetrics descs) value = countedSeconds value := by
  have hsum : readCPUSeconds (discoverCPUMetrics descs) value = (h.names.map value).sum :=
    (hnames.map value).sum_eq
  rw [hsum, CpuHierarchy.names, List.map_append, List.map_append, List.sum_append, List.sum_append,
    ← hadds.gc, ← hadds.scavenge, countedSeconds]
  simp only [List.map_cons, List.map_nil, List.sum_cons, List.sum_nil]
  linarith [hadds.total]

/-! ### Thousandths of a capacity -/

/-- How many thousandths of a capacity an amount reaches. -/
def thousandths (capacity amount : ℚ) : Int := ⌊1000 * amount / capacity⌋

/-- Two amounts both reach the capacity, both lie in the same thousandth of it, or the one lies in
the first and the other is less than that. -/
def SameThousandth (capacity busy counted : ℚ) : Prop :=
  (capacity ≤ busy ∧ capacity ≤ counted) ∨
    (0 ≤ busy ∧ 1000 * busy < capacity ∧ 1000 * counted < capacity) ∨
    ∃ k : Int, (1 ≤ k ∧ k < 1000) ∧
      (k * capacity ≤ 1000 * busy ∧ 1000 * busy < (k + 1) * capacity) ∧
      (k * capacity ≤ 1000 * counted ∧ 1000 * counted < (k + 1) * capacity)

section Thousandths

variable {capacity amount busy counted : ℚ}

private theorem le_thousandths_iff (h : 0 < capacity) (k : Int) :
    k ≤ thousandths capacity amount ↔ k * capacity ≤ 1000 * amount := by
  rw [thousandths, Int.le_floor, le_div_iff₀ h]

private theorem thousandths_lt_iff (h : 0 < capacity) (k : Int) :
    thousandths capacity amount < k ↔ 1000 * amount < k * capacity := by
  rw [← not_le, le_thousandths_iff h, not_le]

private theorem capacity_le_iff (h : 0 < capacity) :
    capacity ≤ amount ↔ 1000 ≤ thousandths capacity amount := by
  rw [le_thousandths_iff h]
  push_cast
  constructor <;> intro hle <;> linarith

/-- The reading of what was counted is that of what was busy exactly when the two are alike. -/
theorem reading_eq_iff (h : 0 < capacity) :
    max 0 (min 1000 (thousandths capacity counted)) = min 1000 (thousandths capacity busy) ↔
      SameThousandth capacity busy counted := by
  have hzero : 0 ≤ busy ↔ 0 ≤ thousandths capacity busy := by
    rw [le_thousandths_iff h]
    simp
  have hfirst : ∀ amount, 1000 * amount < capacity ↔ thousandths capacity amount < 1 := by
    intro amount
    rw [thousandths_lt_iff h]
    simp
  have hnext : ∀ (k : Int) amount, 1000 * amount < (k + 1) * capacity ↔
      thousandths capacity amount < k + 1 := by
    intro k amount
    rw [thousandths_lt_iff h]
    push_cast
    rfl
  simp only [SameThousandth, capacity_le_iff h, hzero, hfirst, hnext, ← le_thousandths_iff h]
  constructor
  · intro heq
    by_cases hfull : 1000 ≤ thousandths capacity busy
    · exact .inl ⟨hfull, by omega⟩
    · by_cases hempty : thousandths capacity busy < 1
      · exact .inr (.inl ⟨by omega, hempty, by omega⟩)
      · exact .inr (.inr ⟨thousandths capacity busy, by omega, by omega, by omega⟩)
  · rintro (hfull | hempty | ⟨k, hk, hbusy, hcounted⟩) <;> omega

end Thousandths

/-- Between two clocks the processors have time. -/
theorem capacity_pos {procs : Int} {before after : Int} (hprocs : 1 ≤ procs)
    (helapsed : before < after) : (0 : ℚ) < (after - before) / 10 ^ 9 * procs := by
  have hprocs' : (0 : ℚ) < procs := by exact_mod_cast hprocs
  have helapsed' : (before : ℚ) < after := by exact_mod_cast helapsed
  exact mul_pos (div_pos (sub_pos.mpr helapsed') (by norm_num)) hprocs'

namespace AdaptiveShedder

variable {as : AdaptiveShedder} {r : Readings}

/-- The last sample of the CPU. -/
structure Sampled (as : AdaptiveShedder) (seconds : ℚ) (time : Int) : Prop where
  seconds_eq : as.lastCPUSeconds = seconds
  time_eq : as.lastCPUCheck = time

/-- The constructor takes a sample. -/
theorem sampled_new {opts : List ShedderOption} {now : Int} {cpuSeconds : ℚ}
    (h : newAdaptiveShedder opts now cpuSeconds = some as) : as.Sampled cpuSeconds now := by
  obtain ⟨-, ⟨⟩⟩ := Option.ite_none_left_eq_some.mp h
  exact ⟨rfl, rfl⟩

/-- The reading is the increase of the sum in thousandths of the time of all processors. -/
theorem currentCPU_eq {seconds : ℚ} {time : Int} (h : as.Sampled seconds time)
    (hprocs : 1 ≤ r.gomaxprocs) (helapsed : time < r.cpuNow) :
    (as.currentCPU r).1 = max 0 (min 1000 (thousandths
      ((r.cpuNow - time) / 10 ^ 9 * r.gomaxprocs) (r.cpuSeconds - seconds))) := by
  have hcapacity := capacity_pos hprocs helapsed
  have husage : ∀ delta : ℚ, delta / ((r.cpuNow - time : Int) / 10 ^ 9) / r.gomaxprocs * 1000 =
      1000 * delta / ((r.cpuNow - time) / 10 ^ 9 * r.gomaxprocs) := by
    intro delta
    rw [div_div, Int.cast_sub]
    ring
  unfold currentCPU
  dsimp only
  rw [h.seconds_eq, h.time_eq, if_neg (by omega), if_neg (show ¬r.gomaxprocs ≤ 0 by omega), husage,
    thousandths]
  generalize (r.cpuNow - time : ℚ) / 10 ^ 9 * r.gomaxprocs = capacity at hcapacity
  generalize r.cpuSeconds - seconds = delta
  split_ifs with hdelta hnegative hlarge <;> dsimp only
  · have hfloor : ⌊1000 * delta / capacity⌋ ≤ 0 := by
      have := div_nonpos_of_nonpos_of_nonneg (show 1000 * delta ≤ 0 by linarith) hcapacity.le
      exact_mod_cast (Int.floor_le _).trans this
    omega
  · have := div_pos (show 0 < 1000 * delta by linarith) hcapacity
    exact absurd hnegative (not_lt.mpr this.le)
  · have hfloor : 1000 ≤ ⌊1000 * delta / capacity⌋ := by
      rw [Int.le_floor]
      push_cast
      exact hlarge.le
    omega
  · have hlow : 0 ≤ ⌊1000 * delta / capacity⌋ := Int.floor_nonneg.mpr (not_lt.mp hnegative)
    have hhigh : ⌊1000 * delta / capacity⌋ ≤ 1000 := by
      exact_mod_cast (Int.floor_le _).trans (not_lt.mp hlarge)
    omega

end AdaptiveShedder

/-- Between two samples the reading is the busy share of the time of all processors exactly when
the busy time and what the sum of the metrics counts lie in the same thousandth of it. -/
theorem cpu_reading_busy_iff (descs : List Description) (h : CpuHierarchy)
    (hnames : (discoverCPUMetrics descs).Perm h.names) (before after : String → ℚ)
    (hbefore : h.Adds before) (hafter : h.Adds after) (as : AdaptiveShedder) (time : Int)
    (has : as.Sampled (readCPUSeconds (discoverCPUMetrics descs) before) time) (r : Readings)
    (hr : r.cpuSeconds = readCPUSeconds (discoverCPUMetrics descs) after)
    (hprocs : 1 ≤ r.gomaxprocs) (helapsed : time < r.cpuNow) :
    (as.currentCPU r).1 = min 1000 ⌊1000 * (busySeconds after - busySeconds before) /
        ((r.cpuNow - time) / 10 ^ 9 * r.gomaxprocs)⌋ ↔
      SameThousandth ((r.cpuNow - time) / 10 ^ 9 * r.gomaxprocs)
        (busySeconds after - busySeconds before)
        (countedSeconds after - countedSeconds before) := by
  rw [AdaptiveShedder.currentCPU_eq has hprocs helapsed, hr, readCPUSeconds_eq hnames hbefore,
    readCPUSeconds_eq hnames hafter]
  exact reading_eq_iff (capacity_pos hprocs helapsed)

/-- Metrics of the runtime, those of CPU time among others. -/
def goMetrics : List Description :=
  [⟨"/cpu/classes/gc/mark/assist:cpu-seconds", .float64⟩,
    ⟨"/cpu/classes/gc/mark/dedicated:cpu-seconds", .float64⟩,
    ⟨"/cpu/classes/gc/mark/idle:cpu-seconds", .float64⟩,
    ⟨"/cpu/classes/gc/pause:cpu-seconds", .float64⟩,
    ⟨gcSeconds, .float64⟩,
    ⟨idleSeconds, .float64⟩,
    ⟨"/cpu/classes/scavenge/assist:cpu-seconds", .float64⟩,
    ⟨"/cpu/classes/scavenge/background:cpu-seconds", .float64⟩,
    ⟨scavengeSeconds, .float64⟩,
    ⟨totalSeconds, .float64⟩,
    ⟨userSeconds, .float64⟩,
    ⟨"/gc/heap/allocs:bytes", .uint64⟩,
    ⟨"/sched/latencies:seconds", .float64Histogram⟩,
    ⟨"/sync/mutex/wait/total:seconds", .float64⟩]

/-- The classes of the Go runtime. -/
def goHierarchy : CpuHierarchy where
  gc := ["/cpu/classes/gc/mark/assist:cpu-seconds", "/cpu/classes/gc/mark/dedicated:cpu-seconds",
    "/cpu/classes/gc/mark/idle:cpu-seconds", "/cpu/classes/gc/pause:cpu-seconds"]
  scavenge := ["/cpu/classes/scavenge/assist:cpu-seconds",
    "/cpu/classes/scavenge/background:cpu-seconds"]

private theorem goMetrics_perm : (discoverCPUMetrics goMetrics).Perm goHierarchy.names := by
  have hdiscovered : discoverCPUMetrics goMetrics = (goMetrics.take 11).map Description.name := by
    simp [discoverCPUMetrics, goMetrics, cpuClasses, gcSeconds, idleSeconds, scavengeSeconds,
      totalSeconds, userSeconds]
  rw [hdiscovered, ← List.isPerm_iff]
  simp [goMetrics, goHierarchy, CpuHierarchy.names, List.isPerm, totalSeconds, gcSeconds,
    idleSeconds, scavengeSeconds, userSeconds]

/-- A sample of a process that spent all its time in one class. -/
def allTime (name : String) (seconds : ℚ) : String → ℚ :=
  fun metric => if metric = totalSeconds ∨ metric = name then seconds else 0

private theorem adds_zero : goHierarchy.Adds fun _ => 0 := by
  constructor <;> simp

private theorem adds_allTime {name : String} (hname : name = userSeconds ∨ name = idleSeconds)
    (seconds : ℚ) : goHierarchy.Adds (allTime name seconds) := by
  rcases hname with rfl | rfl <;> constructor <;> simp [goHierarchy, allTime, totalSeconds,
    gcSeconds, idleSeconds, scavengeSeconds, userSeconds]

private theorem countedSeconds_allTime {name : String}
    (hname : name = userSeconds ∨ name = idleSeconds) (seconds : ℚ) :
    countedSeconds (allTime name seconds) = 2 * seconds := by
  rcases hname with rfl | rfl <;> simp [countedSeconds, allTime, totalSeconds, gcSeconds,
    scavengeSeconds, userSeconds, idleSeconds]

/-- The default shedder at the start of the process. -/
def startedShedder : AdaptiveShedder :=
  (newAdaptiveShedder [] 0 0).get (by decide +kernel)

private theorem sampled_startedShedder :
    startedShedder.Sampled (readCPUSeconds (discoverCPUMetrics goMetrics) fun _ => 0) 0 := by
  have hzero : countedSeconds (fun _ => 0) = 0 := by simp [countedSeconds]
  rw [readCPUSeconds_eq goMetrics_perm adds_zero, hzero]
  exact AdaptiveShedder.sampled_new (Option.some_get _).symm

/-- The readings after one second on four processors. -/
def afterSecond (cpuSeconds : ℚ) : Readings :=
  ⟨10 ^ 9, cpuSeconds, 4, 10 ^ 9, 10 ^ 9, 10 ^ 9⟩

/-- A process that is busy on all processors is read as such. -/
theorem cpu_reading_fully_busy :
    (startedShedder.currentCPU (afterSecond 8)).1 = min 1000 ⌊1000 *
      (busySeconds (allTime userSeconds 4) - busySeconds fun _ => 0) /
        (((10 ^ 9 : Int) - (0 : Int)) / 10 ^ 9 * (4 : Int))⌋ := by
  have hcounted : countedSeconds (allTime userSeconds 4) = 8 :=
    (countedSeconds_allTime (.inl rfl) 4).trans (by norm_num)
  have hbusy : busySeconds (allTime userSeconds 4) = 4 := by
    simp [busySeconds, allTime, totalSeconds, idleSeconds, userSeconds]
  refine (cpu_reading_busy_iff goMetrics goHierarchy goMetrics_perm (fun _ => 0)
    (allTime userSeconds 4) adds_zero (adds_allTime (.inl rfl) 4) startedShedder 0
    sampled_startedShedder (afterSecond 8) ?_ (by decide) (by decide)).mpr (.inl ⟨?_, ?_⟩)
  · rw [readCPUSeconds_eq goMetrics_perm (adds_allTime (.inl rfl) 4), hcounted]
    rfl
  · rw [hbusy]
    norm_num [busySeconds, afterSecond]
  · rw [hcounted]
    norm_num [countedSeconds, afterSecond]

/-- A process that was idle for its first second reads as busy on all processors, and the shedder
takes the system to be overloaded. -/
theorem idle_process_reads_full :
    goHierarchy.Adds (allTime idleSeconds 4) ∧
      busySeconds (allTime idleSeconds 4) = busySeconds (fun _ => 0) ∧
      readCPUSeconds (discoverCPUMetrics goMetrics) (allTime idleSeconds 4) = 8 ∧
      (startedShedder.currentCPU (afterSecond 8)).1 = 1000 ∧
      (startedShedder.systemOverloaded (afterSecond 8)).1 = true := by
  refine ⟨adds_allTime (.inr rfl) 4, ?_, ?_, by decide +kernel, by decide +kernel⟩
  · simp [busySeconds, allTime]
  · rw [readCPUSeconds_eq goMetrics_perm (adds_allTime (.inr rfl) 4),
      countedSeconds_allTime (.inr rfl)]
    norm_num

end Stardust.Load

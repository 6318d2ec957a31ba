import ZombieFinder.ZombieOwners
import Mathlib.Data.Nat.Digits

/-
  ZombieFinder.Report — what `wmain` prints about each zombie in the detailed reports
  (`OutputDetails`, `OutputDetailsCsv`), and `Ago` (FileOutput.cpp).

  `wmain` reads `ulNow` with `GetSystemTimeAsFileTime` before it calls `Update` on a fresh
  `ZombieOwners`; discovery reads its own clock later. Both detailed reports print one line for
  every zombie handle of every owner in sorted order, then one for every unexplained zombie,
  each with the age `(ulNow - ulExitTime) / 10000000` computed in 64-bit arithmetic and passed to
  `Ago`; `OutputDetails` prints two counts before them (`outputDetailsCounts`). The two reports
  differ only in their text (`HEX`, `FileTimeToWString`, the columns), which is left out: a line
  keeps the data it prints.

  - `printed_ages_exact`: when the threshold is at least one second and discovery's clock reads
    at most that many seconds after `ulNow`, every printed zombie exited no later than `ulNow`,
    and the printed age is the exact number of elapsed whole seconds.
  - `printed_age_wraps`: as built, with threshold 0, a process that exits between the two clock
    readings is printed with a wrapped age of 1844674407370 seconds: unlike discovery's own test
    (`ulNow > ulExitTime &&`, ZombieHandles.cpp), the reports subtract unguarded.
  - `zombie_thread_counts`: when the handles discovery keeps are distinct, the handle lookup
    holds one entry per zombie process handle and, per zombie, one per thread handle with its
    PID, as many as its record's `nThreads`; so `ZombieProcessAndThreadCount()` is
    `ZombieProcessCount()` plus their sum, and the "Zombie threads" count `OutputDetails` prints
    (`outputDetailsCounts`) never wraps. `updateImpl_counts_of_fresh`: under a kernel that returns
    only handles not already open, those handles are distinct, so this holds on every run.
  - `summary_counts`: the summary's rows go by non-increasing count, their counts add up to the
    number of attributed entries of the snapshot's `STATUS_SUCCESS` answer, and `(No process)`
    counts the unheld zombies.
  - `ago_parts`: `Ago` splits its argument into days, hours below 24, minutes below 60 and
    seconds below 60.
  - `printed_parent_created_before`: every zombie printed is a record discovery made for a
    qualifying process, and its parent image path (else "(exited)") is shown only when the
    process found under the parent PID was created before the zombie.
  - `ago_round_trip`: reading the numbers of `Ago`'s text back (`agoSeconds`) gives its
    argument, so no two ages print alike.
-/

namespace ZombieFinder

/-! ## The detailed reports -/

/-- `nSecondsAgo = (ulNow - ulExitTime) / 10000000`. -/
def nSecondsAgo (ulNow ulExitTime : UInt64) : UInt64 := (ulNow - ulExitTime) / 10000000

/-- A zombie line of a detailed report: the owner's PID and the handle value for an owned zombie
    (`none` for an unexplained one), the zombie's record, and the age passed to `Ago`. -/
structure ZombieLine where
  holder : Option (Nat × Nat)
  zombie : ZombieProcessThreadInfo
  nSecondsAgo : UInt64
  deriving DecidableEq, Repr

/-- The zombie lines both detailed reports print: the owners' handles in sorted order, then the
    unexplained zombies. -/
def zombieLines (zombieOwners : ZombieOwners) (ulNow : UInt64) : List ZombieLine :=
  (zombieOwners.ownersSorted.flatMap fun owner => owner.zombieOwningInfo.map fun oi =>
    ⟨some (owner.pid, oi.handleValue), oi.zombieInfo, nSecondsAgo ulNow oi.zombieInfo.exitTime⟩) ++
  zombieOwners.unexplained.map fun z => ⟨none, z, nSecondsAgo ulNow z.exitTime⟩

/-- `OutputDetails(zombieOwners, ulNow, pStream)`. -/
def outputDetails (zombieOwners : ZombieOwners) (ulNow : UInt64) : List ZombieLine :=
  zombieLines zombieOwners ulNow

/-- `OutputDetailsCsv(zombieOwners, ulNow, pStream)`. -/
def outputDetailsCsv (zombieOwners : ZombieOwners) (ulNow : UInt64) : List ZombieLine :=
  zombieLines zombieOwners ulNow

/-- `wmain` asked for details (`bDetails`), as text or as CSV (`bCsv`): read `ulNow`, call
    `Update(nExitAgeInSecs, …)` on a fresh object, and print its zombie lines when it returns
    true (nothing but the error otherwise). -/
def wmainDetails (lib : Lib) (env : UpdateEnv) (nExitAgeInSecs : UInt64) (fuel : Nat) (ulNow : UInt64)
    (bCsv : Bool) : Option (List ZombieLine) :=
  (ZombieOwners.update lib env nExitAgeInSecs fuel ZombieOwners.empty).map fun r =>
    match r.ret with
    | .ok () => if bCsv then outputDetailsCsv r.obj ulNow else outputDetails r.obj ulNow
    | .error _ => []

theorem mem_zombieLines {zombieOwners : ZombieOwners} {ulNow : UInt64} {l : ZombieLine}
    (h : l ∈ zombieLines zombieOwners ulNow) :
    l.nSecondsAgo = nSecondsAgo ulNow l.zombie.exitTime ∧
      ((∃ owner ∈ zombieOwners.ownersSorted, ∃ oi ∈ owner.zombieOwningInfo, l.zombie = oi.zombieInfo) ∨
        l.zombie ∈ zombieOwners.unexplained) := by
  simp only [zombieLines, List.mem_append, List.mem_flatMap, List.mem_map] at h
  rcases h with ⟨owner, ho, oi, hoi, rfl⟩ | ⟨z, hz, rfl⟩
  · exact ⟨rfl, .inl ⟨owner, ho, oi, hoi, rfl⟩⟩
  · exact ⟨rfl, .inr hz⟩

/-- The age is exact when the exit time is not after `ulNow`. -/
theorem nSecondsAgo_toNat {ulNow ulExitTime : UInt64} (h : ulExitTime.toNat ≤ ulNow.toNat) :
    (nSecondsAgo ulNow ulExitTime).toNat = (ulNow.toNat - ulExitTime.toNat) / 10 ^ 7 := by
  show (ulNow - ulExitTime).toNat / 10000000 = _
  rw [UInt64.toNat_sub_of_le _ _ h]; rfl

/-- With a nonzero threshold, a qualifying process exited at least `t` seconds before
    discovery's clock, hence not after a reading at most `t` seconds earlier. -/
theorem exitTime_le_of_recordOf {t now ulNow : UInt64} {ps : List ProcessAnswers} {v : ZombieProcessThreadInfo}
    (hv : RecordOf t now ps v) (ht : 0 < t.toNat) (hc : now.toNat ≤ ulNow.toNat + 10 ^ 7 * t.toNat) :
    v.exitTime.toNat ≤ ulNow.toNat := by
  obtain ⟨x, -, ⟨-, -, -, hq⟩, -, he⟩ := hv
  rcases hq with rfl | ⟨hlt, hage⟩
  · exact absurd ht (Nat.lt_irrefl 0)
  · rw [he]; omega

/-- With a threshold of at least one second and discovery's clock at most that many seconds
    after `ulNow`, every zombie either detailed report prints exited no later than `ulNow`, and
    the age passed to `Ago` is the exact number of elapsed whole seconds. -/
theorem printed_ages_exact (lib : Lib) (env : UpdateEnv) (t : UInt64) (fuel : Nat) (ulNow : UInt64)
    (bCsv : Bool) {ls : List ZombieLine} (h : wmainDetails lib env t fuel ulNow bCsv = some ls)
    (ht : 0 < t.toNat) (hc : env.discovery.now.toNat ≤ ulNow.toNat + 10 ^ 7 * t.toNat) :
    ∀ l ∈ ls, l.zombie.exitTime.toNat ≤ ulNow.toNat ∧
      l.nSecondsAgo.toNat = (ulNow.toNat - l.zombie.exitTime.toNat) / 10 ^ 7 := by
  obtain ⟨u, hu, rfl⟩ := Option.map_eq_some'.mp h
  intro l hl
  cases hret : u.ret with
  | error e => simp only [hret] at hl; cases hl
  | ok _ =>
    obtain ⟨r, hr, hok, hobj⟩ := ZombieOwners.update_ok hu hret
    obtain ⟨hsorted, hunexplained⟩ := ZombieOwners.updateImpl_recordOf hr hok
    have hlines : l ∈ zombieLines r.obj ulNow := by
      simp only [hret, outputDetails, outputDetailsCsv, hobj] at hl; split at hl <;> exact hl
    obtain ⟨hage, hz⟩ := mem_zombieLines hlines
    have hle : l.zombie.exitTime.toNat ≤ ulNow.toNat := by
      rcases hz with ⟨owner, ho, oi, hoi, hzi⟩ | hz
      · exact exitTime_le_of_recordOf (hzi ▸ hsorted owner ho oi hoi) ht hc
      · exact exitTime_le_of_recordOf (hunexplained _ hz) ht hc
    exact ⟨hle, hage ▸ nSecondsAgo_toNat hle⟩

/-- With threshold 0, the sample zombie (exited at 10000000, discovery reading 20000000) is
    printed by a report whose clock read 5000000: its exit time is after `ulNow`, and the age
    passed to `Ago` is the wrapped difference. -/
theorem printed_age_wraps :
    ∃ ls, wmainDetails ZombieOwners.sampleLib ZombieOwners.sampleEnv 0 1 5000000 false = some ls ∧
      (5000000 : UInt64) ≤ ZombieOwners.sampleEnv.discovery.now ∧
      ∃ l ∈ ls, (5000000 : UInt64) < l.zombie.exitTime ∧ l.nSecondsAgo = 1844674407370 :=
  ⟨_, rfl, by decide, by decide⟩

/-- A line either detailed report prints comes from a run of `Update_Impl` on a fresh object that
    returned true. -/
theorem mem_wmainDetails {lib : Lib} {env : UpdateEnv} {t : UInt64} {fuel : Nat} {ulNow : UInt64} {bCsv : Bool}
    {ls : List ZombieLine} (h : wmainDetails lib env t fuel ulNow bCsv = some ls) {l : ZombieLine} (hl : l ∈ ls) :
    ∃ r, ZombieOwners.updateImpl lib env t fuel ZombieOwners.empty = some r ∧ r.ret = .ok () ∧
      l ∈ zombieLines r.obj ulNow := by
  obtain ⟨u, hu, rfl⟩ := Option.map_eq_some'.mp h
  cases hret : u.ret with
  | error e => simp only [hret] at hl; cases hl
  | ok _ =>
    obtain ⟨r, hr, hok, hobj⟩ := ZombieOwners.update_ok hu hret
    refine ⟨r, hr, hok, ?_⟩
    simp only [hret, outputDetails, outputDetailsCsv, hobj] at hl; split at hl <;> exact hl

/-- Every zombie either detailed report prints is a record discovery made for a qualifying
    process, its own or one of its threads', and shows a parent image path only when the process
    found under the parent PID was created before the zombie: a parent PID that a later process
    reused never lends the zombie that process's image path. -/
theorem printed_parent_created_before (lib : Lib) (env : UpdateEnv) (t : UInt64) (fuel : Nat) (ulNow : UInt64)
    (bCsv : Bool) {ls : List ZombieLine} (h : wmainDetails lib env t fuel ulNow bCsv = some ls) :
    ∀ l ∈ ls, ∃ x ∈ env.discovery.processes, Qualifies t env.discovery.now x ∧
      l.zombie ∈ (zombieEntries x).map (·.2) ∧
      (l.zombie.sParentImagePath ≠ "" → ∃ t₀, x.parent.createTime = some t₀ ∧ t₀ < x.createTime) := by
  intro l hl
  obtain ⟨r, hr, hok, hlines⟩ := mem_wmainDetails h hl
  obtain ⟨hsorted, hunexplained⟩ := ZombieOwners.updateImpl_records_discovered hr hok
  apply acquire_parent_created_before t env.discovery ZombieHandles.empty
  rcases (mem_zombieLines hlines).2 with ⟨owner, ho, oi, hoi, hzi⟩ | hz
  · exact hzi ▸ hsorted owner ho oi hoi
  · exact hunexplained _ hz

/-- In the run with several owners, PID 100's parent was created before it, and its path is
    shown; PID 102's parent PID was reused by a process created after it, whose path is never
    shown. -/
theorem printed_parent_created_before_sample :
    ∃ ls, wmainDetails ZombieOwners.sampleLib ZombieOwners.heldEnv 0 1 50000000 false = some ls ∧
      (∃ l ∈ ls, l.zombie.pid = 100 ∧ l.zombie.sParentImagePath = "parent.exe") ∧
      (∃ l ∈ ls, l.zombie.pid = 102) ∧ (∀ l ∈ ls, l.zombie.sParentImagePath ≠ "reused.exe") ∧
      ∀ l ∈ ls, ∃ x ∈ ZombieOwners.heldDiscovery.processes, Qualifies 0 ZombieOwners.heldDiscovery.now x ∧
        l.zombie ∈ (zombieEntries x).map (·.2) ∧
        (l.zombie.sParentImagePath ≠ "" → ∃ t₀, x.parent.createTime = some t₀ ∧ t₀ < x.createTime) :=
  ⟨_, rfl, by decide, by decide, by decide,
    printed_parent_created_before ZombieOwners.sampleLib ZombieOwners.heldEnv 0 1 50000000 false rfl⟩

/-! ## The counts `OutputDetails` prints -/

/-- `a - b` on two `size_t` counters (below `2^64`): it wraps below zero. -/
def sizeSub (a b : Nat) : Nat := if b ≤ a then a - b else 2 ^ 64 - (b - a)

/-- The two figures `OutputDetails` prints first: "Zombie processes", `ZombieProcessCount()`, and
    "Zombie threads", `ZombieProcessAndThreadCount() - ZombieProcessCount()`. -/
def outputDetailsCounts (zombieOwners : ZombieOwners) : Nat × Nat :=
  (zombieOwners.nZombieProcesses, sizeSub zombieOwners.nZombieProcessesAndThreads zombieOwners.nZombieProcesses)

theorem sizeSub_add (a b : Nat) : sizeSub (a + b) a = b := by
  rw [sizeSub, if_pos (Nat.le_add_right a b), Nat.add_sub_cancel_left]

/-- When the handles `NtGetNextProcess` and `NtGetNextThread` return for the zombies discovery
    records are distinct (as they are when each is distinct from the handles open, since discovery
    keeps them all open): after `AcquireNewHandlesToExistingZombies`, from any state of the object,
    the handle lookup holds `ZombieProcessCount()` entries keyed by the zombies' process handles,
    each with the zombie's record, and for each zombie as many entries keyed by its thread handles as
    the `nThreads` of that record, each with its PID, and no other entry. So every return of
    `Update_Impl` sets `ZombieProcessAndThreadCount()` to `ZombieProcessCount()` plus the sum of the
    `nThreads`, and the "Zombie threads" figure `OutputDetails` prints does not wrap: it is that sum. -/
theorem zombie_thread_counts (lib : Lib) (env : UpdateEnv) (t : UInt64) (fuel : Nat) (zh : ZombieHandles)
    (hd : (keptHandles (recordedZombies t env.discovery)).Nodup) :
    let r := (acquireNewHandlesToExistingZombies t env.discovery zh).2
    let Z := recordedZombies t env.discovery
    let nThreads := (Z.map fun z => (zombieRecord z).nThreads).sum
    r.nZombieProcesses = Z.length ∧
    (r.lookup.keys.filter (· ∈ Z.map (·.hProcess))).length = r.nZombieProcesses ∧
    (∀ z ∈ Z, r.lookup.lookup z.hProcess = some (zombieRecord z) ∧
      (r.lookup.keys.filter (· ∈ threadHandles z)).length = (zombieRecord z).nThreads ∧
      ∀ h ∈ threadHandles z, ∃ v, r.lookup.lookup h = some v ∧ v.pid = z.uniqueProcessId) ∧
    r.lookup.keys.length = r.nZombieProcesses + nThreads ∧
    ∀ o u, ZombieOwners.updateImpl lib env t fuel o = some u →
      u.obj.nZombieProcessesAndThreads = u.obj.nZombieProcesses + nThreads ∧
      u.obj.nZombieProcesses ≤ u.obj.nZombieProcessesAndThreads ∧
      outputDetailsCounts u.obj = (u.obj.nZombieProcesses, nThreads) := by
  intro r Z nThreads
  obtain ⟨hz, hp, ht, hk⟩ := acquire_lookup_counts t env.discovery zh hd
  refine ⟨hz, hp, ht, hk, fun o u hu => ?_⟩
  obtain ⟨-, hc⟩ := ZombieOwners.updateImpl_counts hd hu
  refine ⟨hc, hc ▸ Nat.le_add_right _ _, ?_⟩
  rw [outputDetailsCounts, hc, sizeSub_add]

/-- The sample run: one zombie with one thread, whose handles 8 and 16 are distinct. -/
theorem zombie_thread_counts_sample :
    (keptHandles (recordedZombies 0 ZombieOwners.sampleEnv.discovery)).Nodup ∧
    ∀ u, ZombieOwners.updateImpl ZombieOwners.sampleLib ZombieOwners.sampleEnv 0 1 ZombieOwners.empty = some u →
      outputDetailsCounts u.obj = (u.obj.nZombieProcesses,
        ((recordedZombies 0 ZombieOwners.sampleEnv.discovery).map fun z => (zombieRecord z).nThreads).sum) :=
  have hd : (keptHandles (recordedZombies 0 ZombieOwners.sampleEnv.discovery)).Nodup := by decide
  ⟨hd, fun u hu => ((zombie_thread_counts ZombieOwners.sampleLib ZombieOwners.sampleEnv 0 1 .empty hd).2.2.2.2
    ZombieOwners.empty u hu).2.2⟩

/-- Under a kernel that returns only handles not already open, the handles discovery keeps are
    distinct, so every run of `Update_Impl` counts each zombie once and each of its threads once,
    and `OutputDetails` prints those two counts. -/
theorem updateImpl_counts_of_fresh (lib : Lib) (env : UpdateEnv) (t : UInt64) (fuel : Nat) (o : ZombieOwners)
    {r : ImplRun} (h : ZombieOwners.updateImpl lib env t fuel o = some r) (O : Finset Handle)
    (hf : Fresh O r.trace) :
    let Z := recordedZombies t env.discovery
    let nThreads := (Z.map fun z => (zombieRecord z).nThreads).sum
    r.obj.nZombieProcesses = Z.length ∧ r.obj.nZombieProcessesAndThreads = Z.length + nThreads ∧
      outputDetailsCounts r.obj = (Z.length, nThreads) := by
  intro Z nThreads
  have hd : (keptHandles Z).Nodup :=
    acquire_kept_nodup (Reachable.init O) t env.discovery (hf.of_initial (ZombieOwners.discovery_trace_prefix h))
  obtain ⟨hz, hc⟩ := ZombieOwners.updateImpl_counts hd h
  rw [hz] at hc
  exact ⟨hz, hc, by rw [outputDetailsCounts, hc, hz, sizeSub_add]⟩

/-- The sample run's trace is fresh from no open handle, and it prints one zombie with one
    thread. -/
theorem updateImpl_counts_of_fresh_sample :
    ∃ r, ZombieOwners.updateImpl ZombieOwners.sampleLib ZombieOwners.sampleEnv 0 1 ZombieOwners.empty = some r ∧
      Fresh ∅ r.trace ∧ outputDetailsCounts r.obj = (1, 1) := by
  refine ⟨_, by rfl, by decide, ?_⟩
  exact (updateImpl_counts_of_fresh ZombieOwners.sampleLib ZombieOwners.sampleEnv 0 1 .empty (by rfl) ∅
    (by decide)).2.2.trans (by decide)

/-! ## The summary reports -/

/-- A row of `OutputSummary` or `OutputSummaryCsv`: an owner's exe name, PID, number of zombie
    handles and services. -/
structure SummaryRow where
  sExeName : String
  pid : Nat
  count : Nat
  pServiceList : Option ServiceList
  deriving DecidableEq, Repr

/-- What the summary reports print: the owners in sorted order, the `(No process)` row when there
    are unexplained zombies, and the enumeration errors. -/
structure SummaryReport where
  rows : List SummaryRow
  noProcess : Option Nat
  processEnumErrors : List ProcessEnumError
  deriving DecidableEq, Repr

def summaryReport (zombieOwners : ZombieOwners) : SummaryReport :=
  ⟨zombieOwners.ownersSorted.map fun owner =>
      ⟨owner.sExeName, owner.pid, owner.zombieOwningInfo.length, owner.pServiceList⟩,
    if zombieOwners.unexplained.length > 0 then some zombieOwners.unexplained.length else none,
    zombieOwners.processEnumErrors⟩

/-- `OutputSummary(zombieOwners, ulNow, pStream)`; `ulNow` is not used. -/
def outputSummary (zombieOwners : ZombieOwners) : SummaryReport := summaryReport zombieOwners

/-- `OutputSummaryCsv(zombieOwners, ulNow, pStream)`; `ulNow` is not used. -/
def outputSummaryCsv (zombieOwners : ZombieOwners) : SummaryReport := summaryReport zombieOwners

/-- `wmain` without details: `Update(nExitAgeInSecs, …)` on a fresh object, then the summary as
    text or as CSV when it returns true. -/
def wmainSummary (lib : Lib) (env : UpdateEnv) (nExitAgeInSecs : UInt64) (fuel : Nat) (bCsv : Bool) :
    Option SummaryReport :=
  (ZombieOwners.update lib env nExitAgeInSecs fuel ZombieOwners.empty).bind fun r =>
    match r.ret with
    | .ok () => some (if bCsv then outputSummaryCsv r.obj else outputSummary r.obj)
    | .error _ => none

/-- The summary's figures against the snapshot `S` the run read (the entries of the last data
    query's `STATUS_SUCCESS` answer) and what discovery found: the
    rows go by non-increasing handle count, every count is positive, the counts add up to the
    number of attributed entries of `S` (each in one row), and the `(No process)` row counts the
    discovered zombie processes that no attributed entry names. -/
theorem summary_counts (lib : Lib) (env : UpdateEnv) (t : UInt64) (fuel : Nat) (bCsv : Bool)
    {rep : SummaryReport} (h : wmainSummary lib env t fuel bCsv = some rep) :
    let d := (acquireNewHandlesToExistingZombies t env.discovery ZombieHandles.empty).2
    let c := env.currentProcessId
    ∃ s, ZombieFinder.update env.snapshot env.heap fuel AllHandlesSystemwide.empty [] = .returned (.ok ()) s ∧
      (∃ x, s.attempts.getLast? = some x ∧ x.answer.status = statusSuccess ∧
        snapshotEntries s.obj = x.answer.handles) ∧
      let S := snapshotEntries s.obj
      let n := (d.pidLookup.keys.filter fun k => ¬Claims (refAddr S d.lookup c) c d.lookup S k).length
      rep.rows.Chain' (fun A B => B.count ≤ A.count) ∧
      (∀ row ∈ rep.rows, 0 < row.count) ∧
      (rep.rows.map (·.count)).sum = S.countP (fun e => decide (Attributed S d.lookup c e)) ∧
      rep.noProcess = if 0 < n then some n else none := by
  intro d c
  obtain ⟨u, hu, hrep⟩ := Option.bind_eq_some.mp h
  cases hret : u.ret with
  | error e => simp only [hret] at hrep; cases hrep
  | ok _ =>
    obtain ⟨r, hr, hok, hobj⟩ := ZombieOwners.update_ok hu hret
    have hsum : rep = summaryReport r.obj := by
      simp only [hret, outputSummary, outputSummaryCsv, hobj] at hrep
      split at hrep <;> exact (Option.some.inj hrep).symm
    obtain ⟨hperm, hchain⟩ := ZombieOwners.ownersSorted_fresh hr hok
    obtain ⟨s, hs, -, hst⟩ := ZombieOwners.updateImpl_ok hr hok
    subst hsum
    refine ⟨s, hs, update_ok_table _ _ hs, ?_, ?_, ?_, ?_⟩
    · refine List.chain'_map_of_chain' _ (fun A B hAB => ?_) hchain
      rcases (comparator_eq_true_iff _ A B).mp hAB with hlt | ⟨heq, -⟩ | ⟨heq, -⟩
      exacts [Nat.le_of_lt hlt, Nat.le_of_eq heq.symm, Nat.le_of_eq heq.symm]
    · simp only [summaryReport, List.mem_map]
      rintro _ ⟨ow, how, rfl⟩
      have hmem := hperm.mem_iff.mp how
      rw [hst, ZombieOwners.correlated_owners] at hmem
      exact List.length_pos.mpr (attributeHandles_ne_nil _ _ _ _ _ _ ow hmem)
    · simp only [summaryReport, List.map_map]
      rw [(hperm.map _).sum_eq, hst]
      exact attributeHandles_count _ _ _ _ _ _
    · simp only [summaryReport, hst, ZombieOwners.correlated_unexplained, attributeHandles_unexplained_length]

/-- In the run with several owners: PID 302 holds two zombie handles and PIDs 300 and 301 one
    each, four of the snapshot's seven entries, and PID 104 is held by no process. -/
theorem summary_counts_sample :
    ∃ rep, wmainSummary ZombieOwners.sampleLib ZombieOwners.heldEnv 0 1 false = some rep ∧
      rep.rows.map (fun row => (row.pid, row.count)) = [(302, 2), (300, 1), (301, 1)] ∧
      rep.noProcess = some 1 ∧ (rep.rows.map (·.count)).sum = 4 :=
  ⟨_, rfl, rfl, rfl, by
    obtain ⟨s, hs, -, -, -, hsum, -⟩ := summary_counts ZombieOwners.sampleLib ZombieOwners.heldEnv 0 1 false rfl
    rw [hsum]; cases hs; rfl⟩

/-! ## `Ago` -/

/-- The four numbers `Ago` prints. -/
structure AgoParts where
  nDays : UInt64
  nHours : UInt64
  nMinutes : UInt64
  nSeconds : UInt64

/-- `Ago`'s arithmetic: whole days, then hours, minutes and seconds of what is left. -/
def agoParts (nSecondsAgo : UInt64) : AgoParts :=
  let nDays := nSecondsAgo / (24 * 3600)
  let nSecondsAgo := nSecondsAgo % (24 * 3600)
  let nHours := nSecondsAgo / 3600
  let nSecondsAgo := nSecondsAgo % 3600
  ⟨nDays, nHours, nSecondsAgo / 60, nSecondsAgo % 60⟩

/-- `Ago(nSecondsAgo)`: days, hours and minutes, each shown once it or a larger unit is nonzero,
    then seconds. -/
def ago (nSecondsAgo : UInt64) : String :=
  let p := agoParts nSecondsAgo
  let bShow := p.nDays > 0
  let sDays := if bShow then toString p.nDays ++ (if p.nDays == 1 then " day " else " days ") else ""
  let sHours := if bShow || p.nHours > 0 then toString p.nHours ++ (if p.nHours == 1 then " hour " else " hrs ")
    else ""
  let bShow := bShow || p.nHours > 0
  let sMinutes := if bShow || p.nMinutes > 0 then toString p.nMinutes ++ " min " else ""
  sDays ++ sHours ++ sMinutes ++ toString p.nSeconds ++ " secs"

example : ago 90 = "1 min 30 secs" := by decide
example : ago 100000 = "1 day 3 hrs 46 min 40 secs" := by decide

/-- The four numbers `Ago` prints recompose its argument, each below its unit's range. -/
theorem ago_parts (n : UInt64) :
    (agoParts n).nDays.toNat * 86400 + (agoParts n).nHours.toNat * 3600 + (agoParts n).nMinutes.toNat * 60 +
      (agoParts n).nSeconds.toNat = n.toNat ∧
    (agoParts n).nHours.toNat < 24 ∧ (agoParts n).nMinutes.toNat < 60 ∧ (agoParts n).nSeconds.toNat < 60 := by
  have h24 : (24 * 3600 : UInt64).toNat = 86400 := rfl
  have h3600 : (3600 : UInt64).toNat = 3600 := rfl
  have h60 : (60 : UInt64).toNat = 60 := rfl
  simp only [agoParts, UInt64.toNat_div, UInt64.toNat_mod, h24, h3600, h60]
  omega


/-! ## Reading `Ago`'s text back -/

/-- The numbers a text shows in decimal, left to right: each maximal run of digits, the run
    read so far in `acc`. -/
def decimalsIn : List Char → Option Nat → List Nat
  | [], acc => acc.toList
  | c :: cs, acc =>
    if c.isDigit then decimalsIn cs (some (acc.getD 0 * 10 + (c.toNat - 48)))
    else acc.toList ++ decimalsIn cs none

/-- `Ago`'s text read back: the numbers it shows are, from the right, seconds, minutes, hours and
    days. -/
def agoSeconds (text : String) : Option Nat :=
  match decimalsIn text.toList none with
  | [s] => some s
  | [m, s] => some (m * 60 + s)
  | [h, m, s] => some (h * 3600 + m * 60 + s)
  | [d, h, m, s] => some (d * 86400 + h * 3600 + m * 60 + s)
  | _ => none

example : decimalsIn "1 day 3 hrs 46 min 40 secs".toList none = [1, 3, 46, 40] := by decide

theorem digitChar_lt_ten : ∀ d, d < 10 → (Nat.digitChar d).isDigit = true ∧ (Nat.digitChar d).toNat - 48 = d := by
  decide

/-- Reading the digits `Nat.toDigitsCore` writes for `n` in front of the digits `ds` already
    written ends with `n` read so far. -/
theorem decimalsIn_toDigitsCore (rest : List Char) : ∀ (f n : Nat) (ds : List Char), n < f →
    decimalsIn (Nat.toDigitsCore 10 f n ds ++ rest) none = decimalsIn (ds ++ rest) (some n)
  | 0, _, _, h => absurd h (Nat.not_lt_zero _)
  | f + 1, n, ds, h => by
    obtain ⟨hdig, hval⟩ := digitChar_lt_ten (n % 10) (Nat.mod_lt _ (by decide))
    unfold Nat.toDigitsCore
    dsimp only
    split
    · simp only [List.cons_append, decimalsIn, hdig, if_true, Option.getD_none, hval]
      congr 2
      omega
    · rw [decimalsIn_toDigitsCore rest f (n / 10) _ (by omega)]
      simp only [List.cons_append, decimalsIn, hdig, if_true, Option.getD_some, hval]
      congr 2
      omega

theorem decimalsIn_toString (k : UInt64) (r : List Char) :
    decimalsIn ((toString k).data ++ r) none = decimalsIn r (some k.toNat) :=
  decimalsIn_toDigitsCore r _ _ [] (Nat.lt_succ_self _)

theorem decimalsIn_word {w : List Char} (hw : ∀ c ∈ w, c.isDigit = false) (r : List Char) :
    decimalsIn (w ++ r) none = decimalsIn r none := by
  induction w with
  | nil => rfl
  | cons c cs ih =>
    rw [List.cons_append, decimalsIn, if_neg (by simp [hw c (List.mem_cons_self _ _)]), Option.toList_none,
      List.nil_append]
    exact ih fun x hx => hw x (List.mem_cons_of_mem _ hx)

/-- A unit word after a number ends it. -/
theorem decimalsIn_unit (k : Nat) {w : List Char} (hne : w ≠ []) (hw : ∀ c ∈ w, c.isDigit = false)
    (r : List Char) : decimalsIn (w ++ r) (some k) = k :: decimalsIn r none := by
  obtain ⟨c, cs, rfl⟩ := List.exists_cons_of_ne_nil hne
  rw [List.cons_append, decimalsIn, if_neg (by simp [hw c (List.mem_cons_self _ _)]), Option.toList_some,
    List.singleton_append, decimalsIn_word fun x hx => hw x (List.mem_cons_of_mem _ hx)]

theorem decimalsIn_unit_end (k : Nat) {w : List Char} (hne : w ≠ []) (hw : ∀ c ∈ w, c.isDigit = false) :
    decimalsIn w (some k) = [k] := by
  simpa using decimalsIn_unit k hne hw []

theorem agoParts_toNat (n : UInt64) :
    (agoParts n).nDays.toNat = n.toNat / 86400 ∧ (agoParts n).nHours.toNat = n.toNat % 86400 / 3600 ∧
    (agoParts n).nMinutes.toNat = n.toNat % 86400 % 3600 / 60 ∧
    (agoParts n).nSeconds.toNat = n.toNat % 86400 % 3600 % 60 := by
  have h24 : (24 * 3600 : UInt64).toNat = 86400 := rfl
  have h3600 : (3600 : UInt64).toNat = 3600 := rfl
  have h60 : (60 : UInt64).toNat = 60 := rfl
  simp only [agoParts, UInt64.toNat_div, UInt64.toNat_mod, h24, h3600, h60, and_self]

/-- The day and hour words are each one of two unit words. -/
theorem unitWord_ite (b : Bool) (w₁ w₂ : String) (h₁ : w₁.data ≠ [] ∧ ∀ c ∈ w₁.data, c.isDigit = false)
    (h₂ : w₂.data ≠ [] ∧ ∀ c ∈ w₂.data, c.isDigit = false) :
    (if b then w₁ else w₂).data ≠ [] ∧ ∀ c ∈ (if b then w₁ else w₂).data, c.isDigit = false := by
  cases b <;> assumption

theorem agoSeconds_ago (n : UInt64) : agoSeconds (ago n) = some n.toNat := by
  obtain ⟨hd, hh, hm, hs⟩ := agoParts_toNat n
  obtain ⟨hd₁, hd₂⟩ := unitWord_ite ((agoParts n).nDays == 1) " day " " days " (by decide) (by decide)
  obtain ⟨hh₁, hh₂⟩ := unitWord_ite ((agoParts n).nHours == 1) " hour " " hrs " (by decide) (by decide)
  unfold agoSeconds ago
  dsimp only
  generalize (if (agoParts n).nDays == 1 then " day " else " days ") = wd at hd₁ hd₂ ⊢
  generalize (if (agoParts n).nHours == 1 then " hour " else " hrs ") = wh at hh₁ hh₂ ⊢
  -- one case per leading unit shown or left out
  split_ifs <;>
    simp (disch := first | assumption | decide) only [String.toList, String.data_append, List.append_assoc,
      List.nil_append, decimalsIn_toString, decimalsIn_unit, decimalsIn_unit_end, Option.some.injEq, GT.gt,
      uint64_lt_iff, Bool.or_eq_true, decide_eq_true_eq, UInt64.toNat_zero] at * <;>
    omega

/-- `Ago`'s text determines its argument: the numbers it shows, read from the right as seconds,
    minutes, hours and days, add up to it, whichever leading units it leaves out; so two ages
    never print the same text. -/
theorem ago_round_trip (n : UInt64) : agoSeconds (ago n) = some n.toNat ∧ ∀ m, ago m = ago n → m = n :=
  ⟨agoSeconds_ago n, fun m hmn => UInt64.toNat.inj (Option.some.inj ((agoSeconds_ago m).symm.trans (hmn ▸ agoSeconds_ago n)))⟩

end ZombieFinder

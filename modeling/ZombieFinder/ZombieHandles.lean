import ZombieFinder.Handles

/-
  ZombieFinder.ZombieHandles — zombie discovery (ZombieHandles.h, ZombieHandles.cpp,
  `GetParentProcessImagePathIfStillRunning`).

  `AcquireNewHandlesToExistingZombies` walks `NtGetNextProcess` to its terminal status. The
  kernel's answers for each process it returns are one `ProcessAnswers`: the handle, the
  basic-information query, `GetProcessTimes`, the parent lookup, the image-name query,
  `OpenProcess(PROCESS_QUERY_INFORMATION)` and the threads `NtGetNextThread` returns. Each
  answer the code does not ask for is simply not read. The handle of a process is closed on
  the next iteration (or after the loop) unless the process was recorded as a zombie.

  Proved over every enumeration:
  - `exitedLongEnough_iff`: the 64-bit age test agrees with exact arithmetic for every clock,
    exit time and threshold.
  - `acquire_records`: the PID lookup gets a key exactly for the processes that `Qualifies`,
    every record in either lookup is one of theirs, each failed basic-information query adds
    one `processEnumErrors` entry, and `TotalProcessCount` counts every process returned.
  - `acquire_handles`: from any state of the object reachable from its construction, when the
    kernel's handles are fresh, the run passes and closes only open handles and leaves open
    exactly the lookup's keys; `ReleaseAcquiredHandles` then closes each key once.
  - `acquire_lookup_counts`: when the handles discovery keeps (`keptHandles`) are distinct, the
    handle lookup holds exactly the recorded zombies' entries (`zombieEntries`): one per process
    handle, with `TID = 0`, and one per thread handle with the zombie's PID, as many as the
    `nThreads` of its record; `ZombieProcessCount()` is the number of zombies.
  - `acquire_kept_nodup`: from any reachable state, a fresh kernel's handles make those kept
    handles distinct.
  - `acquire_threshold_antitone`: raising the threshold only drops zombies; the keys of both
    lookups, their number and the zombie count shrink with it, the process count and errors do
    not move.
  - `acquire_parent_created_before`: every record either lookup holds is one the loop made for a
    qualifying process (`zombieEntries`), and shows a parent image path only when the parent
    `OpenProcess` found was created before the zombie, not a process that reused the PID.
-/

namespace ZombieFinder

/-- The kernel's answers to `GetParentProcessImagePathIfStillRunning`'s calls: the parent's
    handle (`OpenProcess`), its creation time (`GetProcessTimes`, `none` on failure), its image
    path (`QueryFullProcessImageNameW`, `none` on failure). -/
structure ParentAnswers where
  hProcess : Option Handle
  createTime : Option UInt64
  imagePath : Option String
  deriving DecidableEq, Repr

/-- The kernel's answers while the loop handles one process. `createTime` and `exitTime` are the
    `FILETIME`s as `GetProcessTimes` leaves them; `threads` are the handles `NtGetNextThread`
    returns, each with `GetThreadId`'s answer. -/
structure ProcessAnswers where
  hProcess : Handle
  basicStatus : NTSTATUS
  isProcessDeleting : Bool
  uniqueProcessId : Nat
  inheritedFromUniqueProcessId : Nat
  createTime : UInt64
  exitTime : UInt64
  parent : ParentAnswers
  imageStatus : NTSTATUS
  imageFileName : String
  hProcessQI : Option Handle
  threads : List (Handle × Nat)
  deriving DecidableEq, Repr

/-- ntdll's module and its three exports, `GetSystemTimeAsFileTime`, the processes
    `NtGetNextProcess` returns, and the status that ends the enumeration. -/
structure DiscoveryAnswers where
  ntdllModule : Bool
  ntdllExports : Bool
  now : UInt64
  processes : List ProcessAnswers
  terminal : NTSTATUS
  terminal_ne : terminal ≠ statusSuccess

/-- `m_ZombieHandleLookup`, `m_nZombieProcesses`, `m_nTotalProcesses`. -/
structure ZombieHandles where
  lookup : ZombieHandleLookup
  nZombieProcesses : Nat
  nTotalProcesses : Nat

def ZombieHandles.empty : ZombieHandles := ⟨∅, 0, 0⟩

/-- `ReleaseAcquiredHandles`: close every handle of the lookup, then clear it. -/
def ZombieHandles.releaseAcquiredHandles (zh : ZombieHandles) : ZombieHandles × List HandleEvent :=
  ({ zh with lookup := ∅ }, zh.lookup.keys.map .closed)

/-- `GetParentProcessImagePathIfStillRunning(ppid, ftChildStartTime, …)`: the parent's image
    path when it is running and started before the child, else empty; and its handle events. -/
def getParentProcessImagePathIfStillRunning (a : ParentAnswers) (ftChildStartTime : UInt64) :
    String × List HandleEvent :=
  match a.hProcess with
  | none => ("", [])
  | some h =>
    match a.createTime with
    | some ulStartTime =>
      if ulStartTime < ftChildStartTime then (a.imagePath.getD "", [.opened h, .used h, .used h, .closed h])
      else ("", [.opened h, .used h, .closed h])
    | none => ("", [.opened h, .used h, .closed h])

/-- The exit-age test: `0 == nAgeInSeconds || (ulNow > ulExitTime &&
    (ulNow - ulExitTime) / 10000000 >= nAgeInSeconds)`, in 64-bit arithmetic. -/
def exitedLongEnough (nAgeInSeconds ulNow ulExitTime : UInt64) : Bool :=
  nAgeInSeconds == 0 || (decide (ulExitTime < ulNow) && decide (nAgeInSeconds ≤ (ulNow - ulExitTime) / 10000000))

/-- The zombie's record as the code fills it before the threads are enumerated. -/
def zombieInfo (p : ProcessAnswers) : ZombieProcessThreadInfo :=
  { ZombieProcessThreadInfo.zero with
    pid := p.uniqueProcessId, parentPid := p.inheritedFromUniqueProcessId,
    createTime := p.createTime, exitTime := p.exitTime,
    sParentImagePath := (getParentProcessImagePathIfStillRunning p.parent p.createTime).1,
    sImagePath := if p.imageStatus = statusSuccess then p.imageFileName else "" }

/-- The `NtGetNextThread` loop on `hProcessQI`: each thread handle goes into the lookup with the
    record as it stands and its own TID; the last call returns the terminal status. -/
def threadLoop (hQI : Handle) (info : ZombieProcessThreadInfo) :
    Option Handle → List (Handle × Nat) → ZombieHandleLookup → ZombieHandleLookup × List HandleEvent
  | prev, [], m => (m, .used hQI :: usedOpt prev)
  | prev, (h, tid) :: ts, m =>
    let r := threadLoop hQI info (some h) ts (m.insert h { info with tid })
    (r.1, .used hQI :: usedOpt prev ++ .opened h :: .used h :: r.2)

/-- `OpenProcess(PROCESS_QUERY_INFORMATION)`, the thread loop, `CloseHandle(hProcessQI)`. -/
def acquireThreads (p : ProcessAnswers) (info : ZombieProcessThreadInfo) (m : ZombieHandleLookup) :
    ZombieHandleLookup × List HandleEvent :=
  match p.hProcessQI with
  | none => (m, [])
  | some hQI => ((threadLoop hQI info none p.threads m).1,
      .opened hQI :: (threadLoop hQI info none p.threads m).2 ++ [.closed hQI])

/-- `nThreads`: the threads found, 0 when the process cannot be opened for them. -/
def nThreadsOf (p : ProcessAnswers) : Nat :=
  match p.hProcessQI with
  | none => 0
  | some _ => p.threads.length

/-- The enumeration's state: the object's fields, the caller's PID lookup and error list, the
    loop's `hPrevProcess` and `bClosePrevProcess`, and the handle events so far. -/
structure Enum where
  lookup : ZombieHandleLookup
  nZombieProcesses : Nat
  nTotalProcesses : Nat
  pidLookup : ZombiePidLookup
  processEnumErrors : List ProcessEnumError
  hPrevProcess : Option Handle
  bClosePrevProcess : Bool
  trace : List HandleEvent

def Enum.zombieHandles (s : Enum) : ZombieHandles := ⟨s.lookup, s.nZombieProcesses, s.nTotalProcesses⟩

/-- The process's own record (`TID = 0`), with its thread count. -/
def zombieRecord (p : ProcessAnswers) : ZombieProcessThreadInfo :=
  { zombieInfo p with tid := 0, nThreads := nThreadsOf p }

/-- The record of the process whose handle the loop holds: threads, then the process itself in
    both lookups; its handle is kept open. -/
def recordZombie (s : Enum) (p : ProcessAnswers) : Enum :=
  { s with
    lookup := (acquireThreads p (zombieInfo p) s.lookup).1.insert p.hProcess (zombieRecord p)
    pidLookup := s.pidLookup.insert p.uniqueProcessId (zombieRecord p)
    nZombieProcesses := s.nZombieProcesses + 1
    bClosePrevProcess := false
    trace := s.trace ++ (getParentProcessImagePathIfStillRunning p.parent p.createTime).2 ++
      .used p.hProcess :: (acquireThreads p (zombieInfo p) s.lookup).2 }

/-- From the basic-information query on: a failure is an enumeration error; a deleting process
    gets its times read and is recorded when its exit time is nonzero and old enough. -/
def inspectProcess (t now : UInt64) (s : Enum) (p : ProcessAnswers) : Enum :=
  if p.basicStatus = statusSuccess then
    if p.isProcessDeleting then
      if p.exitTime ≠ 0 ∧ exitedLongEnough t now p.exitTime then
        recordZombie { s with trace := s.trace ++ [.used p.hProcess] } p
      else { s with trace := s.trace ++ [.used p.hProcess] }
    else s
  else { s with processEnumErrors := s.processEnumErrors ++ [.queryFailed s.nTotalProcesses p.basicStatus] }

/-- `NtGetNextProcess(hPrevProcess, …)` returning `h`, the close of the previous process unless
    it was kept, the count, and the basic-information query on `h`. -/
def enterProcess (s : Enum) (h : Handle) : Enum :=
  { s with
    trace := s.trace ++ usedOpt s.hPrevProcess ++ .opened h ::
      (if s.bClosePrevProcess then s.hPrevProcess.toList.map .closed else []) ++ [.used h]
    nTotalProcesses := s.nTotalProcesses + 1
    bClosePrevProcess := true }

/-- One iteration of the `NtGetNextProcess` loop. -/
def processStep (t now : UInt64) (s : Enum) (p : ProcessAnswers) : Enum :=
  { inspectProcess t now (enterProcess s p.hProcess) p with hPrevProcess := some p.hProcess }

/-- After the loop: the last `NtGetNextProcess` call, the close of the last process unless it
    was kept, and the report of a terminal status other than `STATUS_NO_MORE_ENTRIES`. -/
def finishEnum (terminal : NTSTATUS) (s : Enum) : Enum :=
  { s with
    trace := s.trace ++ usedOpt s.hPrevProcess ++
      (if s.bClosePrevProcess then s.hPrevProcess.toList.map .closed else [])
    processEnumErrors := s.processEnumErrors ++
      (if terminal = statusNoMoreEntries then [] else [.enumerationFailed terminal s.nTotalProcesses]) }

/-- `AcquireNewHandlesToExistingZombies(nAgeInSeconds, zombiePidLookup, processEnumErrors, …)`
    on the object `zh`: outputs and counters cleared, the handles of an earlier call released,
    ntdll resolved, then the enumeration. -/
def acquireNewHandlesToExistingZombies (t : UInt64) (a : DiscoveryAnswers) (zh : ZombieHandles) :
    Except ErrorInfo Unit × Enum :=
  let s0 : Enum := ⟨∅, 0, 0, ∅, [], none, false, (zh.releaseAcquiredHandles).2⟩
  if !a.ntdllModule then (.error couldntGetModuleNtdll, s0)
  else if !a.ntdllExports then (.error unableToLoadNtdllFunctions, s0)
  else (.ok (), finishEnum a.terminal (a.processes.foldl (processStep t a.now) s0))

/-! ## What discovery records -/

/-- The 64-bit age test agrees with exact arithmetic for every threshold, clock and exit time:
    `ulNow - ulExitTime` is only computed when it cannot wrap, and dividing by 10^7 loses
    nothing against an integral threshold, even one whose product with 10^7 overflows. -/
theorem exitedLongEnough_iff (t now e : UInt64) :
    exitedLongEnough t now e = true ↔
      t = 0 ∨ (e.toNat < now.toNat ∧ 10 ^ 7 * t.toNat ≤ now.toNat - e.toNat) := by
  simp only [exitedLongEnough, Bool.or_eq_true, beq_iff_eq, Bool.and_eq_true, decide_eq_true_eq, uint64_lt_iff]
  refine or_congr Iff.rfl (and_congr_right fun h => ?_)
  rw [uint64_le_iff, UInt64.toNat_div, UInt64.toNat_sub_of_le _ _ (uint64_le_iff.mpr h.le),
    Nat.le_div_iff_mul_le (by decide), Nat.mul_comm]
  rfl

/-- The processes discovery is to record: basic information read, marked as deleting, exited
    (nonzero exit time), and, unless the threshold is 0, at least `t` seconds (10^7 ticks each)
    before `now`, in exact arithmetic. -/
def Qualifies (t now : UInt64) (p : ProcessAnswers) : Prop :=
  p.basicStatus = statusSuccess ∧ p.isProcessDeleting = true ∧ p.exitTime ≠ 0 ∧
    (t = 0 ∨ (p.exitTime.toNat < now.toNat ∧ 10 ^ 7 * t.toNat ≤ now.toNat - p.exitTime.toNat))

instance (t now : UInt64) : DecidablePred (Qualifies t now) :=
  fun _ => inferInstanceAs (Decidable (_ ∧ _ ∧ _ ∧ _))

/-- A process old enough for a threshold is old enough for every lower one. -/
theorem qualifies_of_le {t₁ t₂ now : UInt64} {p : ProcessAnswers} (ht : t₁ ≤ t₂) (h : Qualifies t₂ now p) :
    Qualifies t₁ now p := by
  obtain ⟨h1, h2, h3, rfl | h4⟩ := h
  · exact ⟨h1, h2, h3, .inl (UInt64.toNat.inj (Nat.le_zero.mp (uint64_le_iff.mp ht)))⟩
  · exact ⟨h1, h2, h3, .inr ⟨h4.1, (Nat.mul_le_mul_left _ (uint64_le_iff.mp ht)).trans h4.2⟩⟩

/-- The `queryFailed` entries of a run over `ps` whose first process is number `n + 1`. -/
def queryFailures : Nat → List ProcessAnswers → List ProcessEnumError
  | _, [] => []
  | n, p :: ps =>
    (if p.basicStatus = statusSuccess then [] else [.queryFailed (n + 1) p.basicStatus]) ++ queryFailures (n + 1) ps

/-- A record of one of the qualifying processes of `ps`: its PID and exit time. -/
def RecordOf (t now : UInt64) (ps : List ProcessAnswers) (v : ZombieProcessThreadInfo) : Prop :=
  ∃ x ∈ ps, Qualifies t now x ∧ v.pid = x.uniqueProcessId ∧ v.exitTime = x.exitTime

theorem queryFailures_append (n : Nat) (ps : List ProcessAnswers) (p : ProcessAnswers) :
    queryFailures n (ps ++ [p]) = queryFailures n ps ++
      (if p.basicStatus = statusSuccess then [] else [.queryFailed (n + ps.length + 1) p.basicStatus]) := by
  induction ps generalizing n with
  | nil => simp [queryFailures]
  | cons q ps ih =>
    have : n + 1 + ps.length = n + (ps.length + 1) := by omega
    rw [List.cons_append, queryFailures, queryFailures, ih, List.append_assoc, List.length_cons, this]

section

variable {hQI : Handle} {info : ZombieProcessThreadInfo} {p : ProcessAnswers} {m : ZombieHandleLookup}

theorem threadLoop_mem {k : Handle} (ts : List (Handle × Nat)) :
    ∀ {prev m}, k ∈ m → k ∈ (threadLoop hQI info prev ts m).1 := by
  induction ts with
  | nil => exact id
  | cons e ts ih => obtain ⟨h, tid⟩ := e; exact fun hk => ih (mem_insert_of_mem hk)

/-- A thread record is the process's record with a TID. -/
theorem threadLoop_values {v : ZombieProcessThreadInfo} (ts : List (Handle × Nat)) :
    ∀ {prev m}, v ∈ values (threadLoop hQI info prev ts m).1 →
      v ∈ values m ∨ (v.pid = info.pid ∧ v.exitTime = info.exitTime) := by
  induction ts with
  | nil => exact .inl
  | cons e ts ih =>
    obtain ⟨h, tid⟩ := e
    intro prev m hv
    rcases ih hv with hv | hv
    · rcases mem_values_insert hv with rfl | hv
      · exact .inr ⟨rfl, rfl⟩
      · exact .inl hv
    · exact .inr hv

/-- The records the thread loop adds are the process's record with each thread's TID. -/
theorem threadLoop_values_mem {v : ZombieProcessThreadInfo} (ts : List (Handle × Nat)) :
    ∀ {prev m}, v ∈ values (threadLoop hQI info prev ts m).1 → v ∈ values m ∨ ∃ e ∈ ts, v = { info with tid := e.2 } := by
  induction ts with
  | nil => exact .inl
  | cons e ts ih =>
    obtain ⟨h, tid⟩ := e
    intro prev m hv
    rcases ih hv with hv | ⟨e, he, rfl⟩
    · rcases mem_values_insert hv with rfl | hv
      · exact .inr ⟨(h, tid), List.mem_cons_self _ _, rfl⟩
      · exact .inl hv
    · exact .inr ⟨e, List.mem_cons_of_mem _ he, rfl⟩

theorem acquireThreads_mem {k : Handle} (h : k ∈ m) : k ∈ (acquireThreads p info m).1 := by
  unfold acquireThreads; split
  · exact h
  · exact threadLoop_mem _ h

theorem threadLoop_mem_iff {k : Handle} (ts : List (Handle × Nat)) :
    ∀ {prev m}, k ∈ (threadLoop hQI info prev ts m).1 ↔ k ∈ ts.map Prod.fst ∨ k ∈ m := by
  induction ts with
  | nil => intros; simp only [threadLoop, List.map_nil, List.not_mem_nil, false_or]
  | cons e ts ih =>
    intro prev m
    simp only [threadLoop, ih, AList.mem_insert, List.map_cons, List.mem_cons]
    exact or_left_comm.trans or_assoc.symm

theorem acquireThreads_values {v : ZombieProcessThreadInfo} (h : v ∈ values (acquireThreads p info m).1) :
    v ∈ values m ∨ (v.pid = info.pid ∧ v.exitTime = info.exitTime) := by
  unfold acquireThreads at h; split at h
  · exact .inl h
  · exact threadLoop_values _ h

end

section

variable {t now : UInt64} {s : Enum} {p : ProcessAnswers}

@[simp] theorem zombieRecord_pid : (zombieRecord p).pid = p.uniqueProcessId := rfl
@[simp] theorem zombieRecord_tid : (zombieRecord p).tid = 0 := rfl
@[simp] theorem zombieRecord_exitTime : (zombieRecord p).exitTime = p.exitTime := rfl
@[simp] theorem zombieInfo_pid : (zombieInfo p).pid = p.uniqueProcessId := rfl
@[simp] theorem zombieInfo_exitTime : (zombieInfo p).exitTime = p.exitTime := rfl

theorem qualifies_iff :
    Qualifies t now p ↔ p.basicStatus = statusSuccess ∧ p.isProcessDeleting = true ∧
      (p.exitTime ≠ 0 ∧ exitedLongEnough t now p.exitTime = true) := by
  rw [exitedLongEnough_iff]; rfl

/-- The four ways `inspectProcess` ends: the process is recorded; its times were read but it is
    too recent; it is not deleting; its basic-information query failed. -/
theorem inspectProcess_inv (t now : UInt64) (s : Enum) (p : ProcessAnswers) :
    inspectProcess t now s p = recordZombie { s with trace := s.trace ++ [.used p.hProcess] } p ∨
    inspectProcess t now s p = { s with trace := s.trace ++ [.used p.hProcess] } ∨
    inspectProcess t now s p = s ∨
    inspectProcess t now s p =
      { s with processEnumErrors := s.processEnumErrors ++ [.queryFailed s.nTotalProcesses p.basicStatus] } := by
  unfold inspectProcess
  split
  · split
    · split
      · exact .inl rfl
      · exact .inr (.inl rfl)
    · exact .inr (.inr (.inl rfl))
  · exact .inr (.inr (.inr rfl))

/-- One iteration records the process exactly when it qualifies, counts it, reports a failed
    basic-information query under the iteration's number, and counts it as a zombie when it is
    recorded. -/
theorem processStep_records (t now : UInt64) (s : Enum) (p : ProcessAnswers) :
    ((processStep t now s p).pidLookup =
      if Qualifies t now p then s.pidLookup.insert p.uniqueProcessId (zombieRecord p) else s.pidLookup) ∧
    ((processStep t now s p).lookup =
      if Qualifies t now p then (acquireThreads p (zombieInfo p) s.lookup).1.insert p.hProcess (zombieRecord p)
      else s.lookup) ∧
    (processStep t now s p).nTotalProcesses = s.nTotalProcesses + 1 ∧
    (processStep t now s p).processEnumErrors = s.processEnumErrors ++
      (if p.basicStatus = statusSuccess then [] else [.queryFailed (s.nTotalProcesses + 1) p.basicStatus]) ∧
    (processStep t now s p).nZombieProcesses = s.nZombieProcesses + if Qualifies t now p then 1 else 0 := by
  simp only [processStep, inspectProcess, enterProcess, qualifies_iff, recordZombie]
  by_cases h1 : p.basicStatus = statusSuccess
  · by_cases h2 : p.isProcessDeleting = true
    · by_cases h3 : p.exitTime ≠ 0 ∧ exitedLongEnough t now p.exitTime = true
      · simp [h1, h2, h3.1, h3.2]
      · simp [h1, h2, h3]
    · simp [h1, h2]
  · simp [h1]

end

/-- What the enumeration has recorded after the processes `ps`. -/
structure Records (t now : UInt64) (ps : List ProcessAnswers) (s : Enum) : Prop where
  pid_mem : ∀ k, k ∈ s.pidLookup ↔ ∃ x ∈ ps, Qualifies t now x ∧ x.uniqueProcessId = k
  pid_record : ∀ k v, s.pidLookup.lookup k = some v →
    ∃ x ∈ ps, Qualifies t now x ∧ x.uniqueProcessId = k ∧ v = zombieRecord x
  handle_mem : ∀ x ∈ ps, Qualifies t now x → x.hProcess ∈ s.lookup
  handle_record : ∀ v ∈ values s.lookup, RecordOf t now ps v
  errors : s.processEnumErrors = queryFailures 0 ps
  total : s.nTotalProcesses = ps.length

section

variable {t now : UInt64} {ps : List ProcessAnswers} {s : Enum} {p : ProcessAnswers}

theorem Records.step (h : Records t now ps s) : Records t now (ps ++ [p]) (processStep t now s p) := by
  obtain ⟨hpl, hl, hn, he, -⟩ := processStep_records t now s p
  have errors : (processStep t now s p).processEnumErrors = queryFailures 0 (ps ++ [p]) := by
    rw [he, queryFailures_append, Nat.zero_add, h.total, h.errors]
  have total : (processStep t now s p).nTotalProcesses = (ps ++ [p]).length := by
    rw [hn, h.total, List.length_append, List.length_singleton]
  have old {P : ProcessAnswers → Prop} : (∃ x ∈ ps, P x) → ∃ x ∈ ps ++ [p], P x :=
    fun ⟨x, hx, hP⟩ => ⟨x, List.mem_append_left _ hx, hP⟩
  by_cases hq : Qualifies t now p
  · rw [if_pos hq] at hpl hl
    refine ⟨fun k => ?_, fun k v hv => ?_, fun x hx hqx => ?_, fun v hv => ?_, errors, total⟩
    · rw [hpl, AList.mem_insert, h.pid_mem, exists_mem_concat, and_iff_right hq, eq_comm, or_comm]
    · rw [hpl] at hv
      by_cases hk : k = p.uniqueProcessId
      · subst hk
        rw [AList.lookup_insert, Option.some_inj] at hv
        exact ⟨p, List.mem_concat_self _ _, hq, rfl, hv.symm⟩
      · rw [AList.lookup_insert_ne hk] at hv
        exact old (h.pid_record k v hv)
    · rw [hl]
      rcases List.mem_append.mp hx with hx | hx
      · exact mem_insert_of_mem (acquireThreads_mem (h.handle_mem x hx hqx))
      · rw [List.mem_singleton.mp hx]; exact mem_insert_self _ _ _
    · rw [hl] at hv
      rcases mem_values_insert hv with rfl | hv
      · exact ⟨p, List.mem_concat_self _ _, hq, rfl, rfl⟩
      · rcases acquireThreads_values hv with hv | hv
        · exact old (h.handle_record v hv)
        · exact ⟨p, List.mem_concat_self _ _, hq, hv⟩
  · rw [if_neg hq] at hpl hl
    refine ⟨fun k => ?_, fun k v hv => ?_, fun x hx hqx => ?_, fun v hv => ?_, errors, total⟩
    · rw [hpl, h.pid_mem, exists_mem_concat, iff_self_or]; exact fun h' => absurd h'.1 hq
    · exact old (h.pid_record k v (hpl ▸ hv))
    · rcases List.mem_append.mp hx with hx | hx
      · exact hl ▸ h.handle_mem x hx hqx
      · exact absurd (List.mem_singleton.mp hx ▸ hqx) hq
    · exact old (h.handle_record v (hl ▸ hv))

theorem Records.run : ∀ (qs : List ProcessAnswers) {ps s}, Records t now ps s →
    Records t now (ps ++ qs) (qs.foldl (processStep t now) s)
  | [], _, _, h => by rw [List.append_nil]; exact h
  | q :: qs, ps, _, h => by
    rw [List.foldl_cons, ← List.singleton_append, ← List.append_assoc]; exact Records.run qs h.step

theorem records_nil (tr : List HandleEvent) : Records t now [] ⟨∅, 0, 0, ∅, [], none, false, tr⟩ :=
  ⟨fun k => by simp, fun _ _ h => by simp at h, fun _ h => (nomatch h), fun _ h => by simp [values] at h, rfl, rfl⟩

end

/-- The enumeration from the cleared state records what `Records` says of all the processes. -/
theorem records_foldl (t : UInt64) (a : DiscoveryAnswers) (tr : List HandleEvent) :
    Records t a.now a.processes (a.processes.foldl (processStep t a.now) ⟨∅, 0, 0, ∅, [], none, false, tr⟩) :=
  List.nil_append a.processes ▸ Records.run a.processes (records_nil tr)

/-- Once ntdll resolves, discovery runs the enumeration from the cleared state. -/
theorem acquire_of_resolved {t : UInt64} {a : DiscoveryAnswers} {zh : ZombieHandles} (hm : a.ntdllModule = true)
    (hx : a.ntdllExports = true) :
    acquireNewHandlesToExistingZombies t a zh = (.ok (), finishEnum a.terminal
      (a.processes.foldl (processStep t a.now) ⟨∅, 0, 0, ∅, [], none, false, zh.releaseAcquiredHandles.2⟩)) := by
  simp only [acquireNewHandlesToExistingZombies, hm, hx, Bool.not_true, Bool.false_eq_true, if_false]

/-- Discovery stops before the enumeration when ntdll does not resolve, and otherwise runs it
    from the cleared state. -/
theorem acquire_inv (t : UInt64) (a : DiscoveryAnswers) (zh : ZombieHandles) :
    (acquireNewHandlesToExistingZombies t a zh).2 = ⟨∅, 0, 0, ∅, [], none, false, zh.releaseAcquiredHandles.2⟩ ∨
    (acquireNewHandlesToExistingZombies t a zh).2 = finishEnum a.terminal
      (a.processes.foldl (processStep t a.now) ⟨∅, 0, 0, ∅, [], none, false, zh.releaseAcquiredHandles.2⟩) := by
  simp only [acquireNewHandlesToExistingZombies]
  split
  · exact .inl rfl
  split
  · exact .inl rfl
  · exact .inr rfl

/-- Either the enumeration ran, or ntdll failed and both lookups are empty. -/
theorem acquire_cases (t : UInt64) (a : DiscoveryAnswers) (zh : ZombieHandles) :
    (∃ s, (acquireNewHandlesToExistingZombies t a zh).2 = finishEnum a.terminal s ∧ Records t a.now a.processes s) ∨
    ((acquireNewHandlesToExistingZombies t a zh).2.lookup = ∅ ∧
      (acquireNewHandlesToExistingZombies t a zh).2.pidLookup = ∅) := by
  have h : Records t a.now ([] ++ a.processes)
      (a.processes.foldl (processStep t a.now) ⟨∅, 0, 0, ∅, [], none, false, zh.releaseAcquiredHandles.2⟩) :=
    Records.run a.processes (records_nil _)
  rw [List.nil_append] at h
  rcases acquire_inv t a zh with he | he <;> rw [he]
  · exact .inr ⟨rfl, rfl⟩
  · exact .inl ⟨_, rfl, h⟩

/-- What correlation relies on from discovery: every record of the handle lookup carries a PID
    that is a key of the PID lookup, whose records are `TID = 0` records under their own PID. -/
structure Discovered (L : ZombieHandleLookup) (D : ZombiePidLookup) : Prop where
  lookup_pid : ∀ v ∈ values L, v.pid ∈ D
  pid_record : ∀ k v, D.lookup k = some v → v.pid = k ∧ v.tid = 0

theorem Records.discovered {t now : UInt64} {ps : List ProcessAnswers} {s : Enum} (h : Records t now ps s) :
    Discovered s.lookup s.pidLookup := by
  refine ⟨fun v hv => ?_, fun k v hv => ?_⟩
  · obtain ⟨x, hx, hq, hp, -⟩ := h.handle_record v hv
    exact (h.pid_mem _).mpr ⟨x, hx, hq, hp.symm⟩
  · obtain ⟨x, -, -, rfl, rfl⟩ := h.pid_record k v hv
    exact ⟨rfl, rfl⟩

theorem acquire_discovered (t : UInt64) (a : DiscoveryAnswers) (zh : ZombieHandles) :
    Discovered (acquireNewHandlesToExistingZombies t a zh).2.lookup
      (acquireNewHandlesToExistingZombies t a zh).2.pidLookup := by
  rcases acquire_cases t a zh with ⟨s, hs, h⟩ | ⟨hl, hp⟩
  · rw [hs]; exact h.discovered
  · rw [hl, hp]; exact ⟨fun v hv => by simp [values] at hv, fun k v hv => by simp at hv⟩

/-- Every record discovery leaves, in either lookup, carries the PID and exit time of a process
    that qualifies. -/
theorem acquire_recordOf (t : UInt64) (a : DiscoveryAnswers) (zh : ZombieHandles) :
    (∀ v ∈ values (acquireNewHandlesToExistingZombies t a zh).2.lookup, RecordOf t a.now a.processes v) ∧
    ∀ v ∈ values (acquireNewHandlesToExistingZombies t a zh).2.pidLookup, RecordOf t a.now a.processes v := by
  rcases acquire_cases t a zh with ⟨s, hs, h⟩ | ⟨hl, hp⟩
  · rw [hs]
    refine ⟨h.handle_record, fun v hv => ?_⟩
    obtain ⟨k, hk⟩ := mem_values.mp hv
    obtain ⟨x, hx, hq, -, rfl⟩ := h.pid_record k v hk
    exact ⟨x, hx, hq, rfl, rfl⟩
  · rw [hl, hp]
    exact ⟨fun v hv => by simp [values] at hv, fun v hv => by simp [values] at hv⟩

/-- A run of `NtGetNextProcess` with one zombie (PID 100, exited one second before `now`, one
    thread) and one live process. -/
def sampleDiscovery : DiscoveryAnswers where
  ntdllModule := true
  ntdllExports := true
  now := 20000000
  processes :=
    [⟨8, statusSuccess, true, 100, 4, 1, 10000000, ⟨none, none, none⟩, statusSuccess, "zombie.exe", some 12, [(16, 200)]⟩,
     ⟨24, statusSuccess, false, 101, 4, 1, 0, ⟨none, none, none⟩, statusSuccess, "live.exe", none, []⟩]
  terminal := statusNoMoreEntries
  terminal_ne := by decide

/-! ## What the handle lookup holds -/

/-- The handles `NtGetNextThread` returns for a process: none when `OpenProcess` fails. -/
def threadHandles (p : ProcessAnswers) : List Handle :=
  match p.hProcessQI with
  | none => []
  | some _ => p.threads.map Prod.fst

/-- The entries the thread loop adds with the record `info`: one per thread, with its TID. -/
def threadEntries (p : ProcessAnswers) (info : ZombieProcessThreadInfo) : List (Σ _ : Handle, ZombieProcessThreadInfo) :=
  match p.hProcessQI with
  | none => []
  | some _ => p.threads.map fun e => ⟨e.1, { info with tid := e.2 }⟩

/-- The entries recording a zombie adds to the handle lookup, in order: its threads', then its own. -/
def zombieEntries (p : ProcessAnswers) : List (Σ _ : Handle, ZombieProcessThreadInfo) :=
  threadEntries p (zombieInfo p) ++ [⟨p.hProcess, zombieRecord p⟩]

/-- The processes a run records as zombies, in enumeration order; none when ntdll does not
    resolve. -/
def recordedZombies (t : UInt64) (a : DiscoveryAnswers) : List ProcessAnswers :=
  if a.ntdllModule && a.ntdllExports then a.processes.filter fun p => decide (Qualifies t a.now p) else []

/-- The handles `NtGetNextThread` and `NtGetNextProcess` return for the zombies `zs`, which discovery
    keeps open: each zombie's threads', then its own. -/
def keptHandles (zs : List ProcessAnswers) : List Handle :=
  zs.flatMap fun z => threadHandles z ++ [z.hProcess]

@[simp] theorem keptHandles_nil : keptHandles [] = [] := rfl

@[simp] theorem keptHandles_cons (z : ProcessAnswers) (zs : List ProcessAnswers) :
    keptHandles (z :: zs) = (threadHandles z ++ [z.hProcess]) ++ keptHandles zs := rfl

theorem filter_qualifies_cons {t now : UInt64} (p : ProcessAnswers) (ps : List ProcessAnswers) :
    (p :: ps).filter (fun p => decide (Qualifies t now p)) =
      if Qualifies t now p then p :: ps.filter fun p => decide (Qualifies t now p)
      else ps.filter fun p => decide (Qualifies t now p) := by
  simp only [List.filter_cons, decide_eq_true_eq]

theorem threadEntries_keys (p : ProcessAnswers) (info : ZombieProcessThreadInfo) :
    (threadEntries p info).map Sigma.fst = threadHandles p := by
  unfold threadEntries threadHandles; split <;> simp

theorem zombieEntries_keys (p : ProcessAnswers) : (zombieEntries p).map Sigma.fst = threadHandles p ++ [p.hProcess] := by
  simp [zombieEntries, threadEntries_keys]

theorem length_threadHandles (p : ProcessAnswers) : (threadHandles p).length = nThreadsOf p := by
  unfold threadHandles nThreadsOf; split <;> simp

theorem length_keptHandles (zs : List ProcessAnswers) :
    (keptHandles zs).length = zs.length + (zs.map nThreadsOf).sum := by
  induction zs with
  | nil => rfl
  | cons z zs ih => simp only [keptHandles_cons, List.length_append, ih, length_threadHandles]; simp; omega

/-- A lookup whose entries are `es` in front of those of `L` has the keys of both. -/
theorem mem_of_entries_eq {L L' : ZombieHandleLookup} {es : List (Σ _ : Handle, ZombieProcessThreadInfo)}
    (h : L'.entries = es ++ L.entries) {k : Handle} : k ∈ L' ↔ k ∈ es.map Sigma.fst ∨ k ∈ L := by
  simp only [AList.mem_keys, AList.keys, List.keys, h, List.map_append, List.mem_append]

section

variable {hQI : Handle} {info : ZombieProcessThreadInfo} {p : ProcessAnswers} {m : ZombieHandleLookup}

/-- The thread loop puts one entry per thread in front of the lookup, when the thread handles are
    distinct and new to it. -/
theorem threadLoop_entries (ts : List (Handle × Nat)) : ∀ {prev m}, (ts.map Prod.fst).Nodup →
    (∀ h ∈ ts.map Prod.fst, h ∉ m) →
    (threadLoop hQI info prev ts m).1.entries =
      (ts.map fun e => (⟨e.1, { info with tid := e.2 }⟩ : Σ _ : Handle, ZombieProcessThreadInfo)).reverse ++
        m.entries := by
  induction ts with
  | nil => intros; rfl
  | cons e ts ih =>
    obtain ⟨h, tid⟩ := e
    intro prev m hn hm
    rw [List.map_cons, List.nodup_cons] at hn
    have hm' : ∀ h' ∈ ts.map Prod.fst, h' ∉ m.insert h { info with tid } := fun h' hh' hi =>
      ((AList.mem_insert _).mp hi).elim (fun e => hn.1 (e ▸ hh')) (hm h' (List.mem_cons_of_mem _ hh'))
    simp only [threadLoop, ih hn.2 hm', AList.insert_entries_of_neg (hm h (List.mem_cons_self _ _)),
      List.map_cons, List.reverse_cons, List.append_assoc, List.singleton_append]

theorem acquireThreads_entries (hn : (threadHandles p).Nodup) (hm : ∀ h ∈ threadHandles p, h ∉ m) :
    (acquireThreads p info m).1.entries = (threadEntries p info).reverse ++ m.entries := by
  unfold acquireThreads threadEntries
  unfold threadHandles at hn hm
  cases hq : p.hProcessQI with
  | none => rfl
  | some _ => simp only [hq] at hn hm; exact threadLoop_entries _ hn hm

end

/-- Recording a zombie whose kept handles are distinct and new to the lookup puts its entries in
    front of the lookup. -/
theorem processStep_entries {t now : UInt64} {s : Enum} {p : ProcessAnswers} (hq : Qualifies t now p)
    (hn : (threadHandles p ++ [p.hProcess]).Nodup) (hm : ∀ h ∈ threadHandles p ++ [p.hProcess], h ∉ s.lookup) :
    (processStep t now s p).lookup.entries = (zombieEntries p).reverse ++ s.lookup.entries := by
  have ht : (acquireThreads p (zombieInfo p) s.lookup).1.entries =
      (threadEntries p (zombieInfo p)).reverse ++ s.lookup.entries :=
    acquireThreads_entries (List.Nodup.of_append_left hn) fun h hh => hm h (List.mem_append_left _ hh)
  have hx : p.hProcess ∉ (acquireThreads p (zombieInfo p) s.lookup).1 := by
    rw [mem_of_entries_eq ht, List.map_reverse, List.mem_reverse, threadEntries_keys]
    rintro (h | h)
    · exact List.disjoint_of_nodup_append hn h (List.mem_singleton_self _)
    · exact hm _ (List.mem_append_right _ (List.mem_singleton_self _)) h
  rw [(processStep_records t now s p).2.1, if_pos hq, AList.insert_entries_of_neg hx, ht]
  simp [zombieEntries]

/-- Over the enumeration, with the kept handles distinct and new to the lookup: the lookup gets
    the zombies' entries in front, and the zombie count goes up by one per zombie. -/
theorem foldl_entries {t now : UInt64} : ∀ (ps : List ProcessAnswers) (s : Enum),
    (keptHandles (ps.filter fun p => decide (Qualifies t now p))).Nodup →
    (∀ h ∈ keptHandles (ps.filter fun p => decide (Qualifies t now p)), h ∉ s.lookup) →
    (ps.foldl (processStep t now) s).lookup.entries =
      ((ps.filter fun p => decide (Qualifies t now p)).flatMap zombieEntries).reverse ++ s.lookup.entries ∧
    (ps.foldl (processStep t now) s).nZombieProcesses =
      s.nZombieProcesses + (ps.filter fun p => decide (Qualifies t now p)).length
  | [], s, _, _ => ⟨rfl, rfl⟩
  | p :: ps, s, hn, hm => by
    have hs := processStep_records t now s p
    rw [filter_qualifies_cons] at hn hm ⊢
    by_cases hq : Qualifies t now p
    · rw [if_pos hq, keptHandles_cons, List.nodup_append] at hn
      rw [if_pos hq, keptHandles_cons] at hm
      have he := processStep_entries hq hn.1 fun h hh => hm h (List.mem_append_left _ hh)
      have hm' : ∀ h ∈ keptHandles (ps.filter fun p => decide (Qualifies t now p)), h ∉ (processStep t now s p).lookup :=
        fun h hh hi => ((mem_of_entries_eq he).mp hi).elim
          (fun hi => hn.2.2 (by rwa [List.map_reverse, List.mem_reverse, zombieEntries_keys] at hi) hh)
          (hm h (List.mem_append_right _ hh))
      obtain ⟨ih1, ih2⟩ := foldl_entries ps (processStep t now s p) hn.2.1 hm'
      rw [List.foldl_cons, ih1, he, ih2, hs.2.2.2.2, if_pos hq, if_pos hq]
      exact ⟨by simp only [List.flatMap_cons, List.reverse_append, List.append_assoc],
        by rw [List.length_cons]; omega⟩
    · rw [if_neg hq] at hn hm ⊢
      have hl : (processStep t now s p).lookup = s.lookup := by rw [hs.2.1, if_neg hq]
      obtain ⟨ih1, ih2⟩ := foldl_entries ps (processStep t now s p) hn (hl ▸ hm)
      rw [List.foldl_cons, ih1, ih2, hl, hs.2.2.2.2, if_neg hq, Nat.add_zero]
      exact ⟨rfl, rfl⟩

/-- When the handles discovery keeps are distinct, its handle lookup holds exactly the recorded
    zombies' entries, and it counts one zombie per recorded process. -/
theorem acquire_entries (t : UInt64) (a : DiscoveryAnswers) (zh : ZombieHandles)
    (hd : (keptHandles (recordedZombies t a)).Nodup) :
    (acquireNewHandlesToExistingZombies t a zh).2.lookup.entries = ((recordedZombies t a).flatMap zombieEntries).reverse ∧
    (acquireNewHandlesToExistingZombies t a zh).2.nZombieProcesses = (recordedZombies t a).length := by
  unfold recordedZombies at hd ⊢
  by_cases h : a.ntdllModule && a.ntdllExports
  · rw [if_pos h] at hd ⊢
    rw [Bool.and_eq_true] at h
    rw [acquire_of_resolved h.1 h.2]
    simpa using foldl_entries a.processes ⟨∅, 0, 0, ∅, [], none, false, zh.releaseAcquiredHandles.2⟩ hd
      fun _ _ h => AList.not_mem_empty _ h
  · rw [if_neg h]
    unfold acquireNewHandlesToExistingZombies
    split
    · exact ⟨rfl, rfl⟩
    split
    · exact ⟨rfl, rfl⟩
    · simp_all

/-- Discovery fails only when ntdll does not resolve, and then records nothing. -/
theorem recordedZombies_of_error {t : UInt64} {a : DiscoveryAnswers} {zh : ZombieHandles} {e : ErrorInfo}
    (h : (acquireNewHandlesToExistingZombies t a zh).1 = .error e) : recordedZombies t a = [] := by
  unfold recordedZombies
  rw [if_neg]
  intro hn
  rw [Bool.and_eq_true] at hn
  simp [acquireNewHandlesToExistingZombies, hn.1, hn.2] at h

/-- The number of elements of a list without duplicates that lie in a part of it. -/
theorem length_filter_mem {l P : List Handle} (hl : l.Nodup) (hP : P.Nodup) (hs : P ⊆ l) :
    (l.filter (· ∈ P)).length = P.length :=
  ((List.perm_ext_iff_of_nodup (hl.filter _) hP).mpr fun x => by
    simp only [List.mem_filter, decide_eq_true_eq, and_iff_right_iff_imp]; exact fun h => hs h).length_eq

theorem threadEntries_pid {p : ProcessAnswers} {info : ZombieProcessThreadInfo} :
    ∀ e ∈ threadEntries p info, e.2.pid = info.pid := by
  unfold threadEntries; split
  · simp
  · simp only [List.mem_map]; rintro _ ⟨_, _, rfl⟩; rfl

/-- When the handles discovery keeps are distinct: its zombie count is the number of recorded
    zombies, whose process handles are that many keys of the handle lookup, each holding the
    zombie's record; each zombie's thread handles are as many keys as the `nThreads` of that
    record, each holding a record with the zombie's PID; and there are no other keys. -/
theorem acquire_lookup_counts (t : UInt64) (a : DiscoveryAnswers) (zh : ZombieHandles)
    (hd : (keptHandles (recordedZombies t a)).Nodup) :
    let r := (acquireNewHandlesToExistingZombies t a zh).2
    let Z := recordedZombies t a
    r.nZombieProcesses = Z.length ∧
    (r.lookup.keys.filter (· ∈ Z.map (·.hProcess))).length = r.nZombieProcesses ∧
    (∀ z ∈ Z, r.lookup.lookup z.hProcess = some (zombieRecord z) ∧
      (r.lookup.keys.filter (· ∈ threadHandles z)).length = (zombieRecord z).nThreads ∧
      ∀ h ∈ threadHandles z, ∃ v, r.lookup.lookup h = some v ∧ v.pid = z.uniqueProcessId) ∧
    r.lookup.keys.length = r.nZombieProcesses + (Z.map fun z => (zombieRecord z).nThreads).sum := by
  intro r Z
  obtain ⟨he, hn⟩ := acquire_entries t a zh hd
  have hkeys : r.lookup.keys = (keptHandles Z).reverse := by
    simp only [AList.keys, List.keys, r, he, List.map_reverse, List.map_flatMap, zombieEntries_keys]; rfl
  have hmem : ∀ z ∈ Z, ∀ e ∈ zombieEntries z, r.lookup.lookup e.1 = some e.2 := fun z hz e he' =>
    AList.mem_lookup_iff.mpr (by rw [he, List.mem_reverse]; exact List.mem_flatMap.mpr ⟨z, hz, he'⟩)
  have hk : (keptHandles Z).reverse.Nodup := List.nodup_reverse.mpr hd
  obtain ⟨hzn, hzd⟩ := List.nodup_flatMap.mp hd
  refine ⟨hn, ?_, fun z hz => ⟨?_, ?_, fun h hh => ?_⟩, ?_⟩
  · rw [hkeys, length_filter_mem hk, List.length_map, hn]
    · exact List.pairwise_map.mpr (hzd.imp fun {x y} hxy e => hxy (by simp : x.hProcess ∈ _) (by simp [e]))
    · intro x hx
      obtain ⟨z, hz, rfl⟩ := List.mem_map.mp hx
      exact List.mem_reverse.mpr (List.mem_flatMap.mpr ⟨z, hz, by simp⟩)
  · exact hmem z hz ⟨z.hProcess, zombieRecord z⟩ (by simp [zombieEntries])
  · rw [hkeys, length_filter_mem hk (hzn z hz).of_append_left, length_threadHandles]; rfl
    exact fun x hx => List.mem_reverse.mpr (List.mem_flatMap.mpr ⟨z, hz, List.mem_append_left _ hx⟩)
  · rw [← threadEntries_keys z (zombieInfo z), List.mem_map] at hh
    obtain ⟨e, he', rfl⟩ := hh
    exact ⟨e.2, hmem z hz e (List.mem_append_left _ he'), threadEntries_pid e he'⟩
  · rw [hkeys, List.length_reverse, length_keptHandles, hn]; rfl

theorem mem_recordedZombies {t : UInt64} {a : DiscoveryAnswers} {x : ProcessAnswers} (hm : a.ntdllModule = true)
    (hx : a.ntdllExports = true) (hxp : x ∈ a.processes) (hq : Qualifies t a.now x) : x ∈ recordedZombies t a := by
  rw [recordedZombies, hm, hx]
  exact List.mem_filter.mpr ⟨hxp, decide_eq_true hq⟩

/-- What `AcquireNewHandlesToExistingZombies` records, for every enumeration, threshold and clock
    once ntdll resolves: the PID lookup's keys are the PIDs of the processes that `Qualifies`, each
    with that process's `TID = 0` record; each qualifying process's handle is a key of the handle
    lookup, holding its `TID = 0` record when the handles discovery keeps are distinct, and every
    record of the handle lookup is one of theirs; the errors are one per failed basic-information
    query, then the terminal status unless it is `STATUS_NO_MORE_ENTRIES`; and every process
    returned is counted. -/
theorem acquire_records (t : UInt64) (a : DiscoveryAnswers) (zh : ZombieHandles)
    (hm : a.ntdllModule = true) (hx : a.ntdllExports = true) :
    let r := acquireNewHandlesToExistingZombies t a zh
    r.1 = .ok () ∧
    (∀ e : UInt64, exitedLongEnough t a.now e = true ↔
      t = 0 ∨ (e.toNat < a.now.toNat ∧ 10 ^ 7 * t.toNat ≤ a.now.toNat - e.toNat)) ∧
    (∀ k, k ∈ r.2.pidLookup ↔ ∃ x ∈ a.processes, Qualifies t a.now x ∧ x.uniqueProcessId = k) ∧
    (∀ k v, r.2.pidLookup.lookup k = some v →
      ∃ x ∈ a.processes, Qualifies t a.now x ∧ x.uniqueProcessId = k ∧ v = zombieRecord x ∧ v.tid = 0) ∧
    (∀ x ∈ a.processes, Qualifies t a.now x → x.hProcess ∈ r.2.lookup) ∧
    ((keptHandles (recordedZombies t a)).Nodup →
      ∀ x ∈ a.processes, Qualifies t a.now x → r.2.lookup.lookup x.hProcess = some (zombieRecord x)) ∧
    (∀ v ∈ values r.2.lookup, RecordOf t a.now a.processes v) ∧
    r.2.processEnumErrors = queryFailures 0 a.processes ++
      (if a.terminal = statusNoMoreEntries then [] else [.enumerationFailed a.terminal a.processes.length]) ∧
    r.2.nTotalProcesses = a.processes.length := by
  have h : Records t a.now ([] ++ a.processes)
      (a.processes.foldl (processStep t a.now) ⟨∅, 0, 0, ∅, [], none, false, zh.releaseAcquiredHandles.2⟩) :=
    Records.run a.processes (records_nil _)
  rw [List.nil_append] at h
  have hrec : ∀ hd : (keptHandles (recordedZombies t a)).Nodup, ∀ x ∈ a.processes, Qualifies t a.now x →
      (acquireNewHandlesToExistingZombies t a zh).2.lookup.lookup x.hProcess = some (zombieRecord x) :=
    fun hd x hxp hq => ((acquire_lookup_counts t a zh hd).2.2.1 x (mem_recordedZombies hm hx hxp hq)).1
  rw [acquire_of_resolved hm hx] at hrec ⊢
  refine ⟨rfl, exitedLongEnough_iff t a.now, h.pid_mem, fun k v hv => ?_, h.handle_mem, hrec, h.handle_record,
    by rw [finishEnum, h.errors, h.total], h.total⟩
  obtain ⟨x, hx, hq, hk, rfl⟩ := h.pid_record k v hv
  exact ⟨x, hx, hq, hk, rfl, rfl⟩

/-- Both handles discovery keeps for the sample zombie (its thread's and its own) are distinct:
    its process handle holds its `TID = 0` record. -/
theorem acquire_records_sample : sampleDiscovery.ntdllModule = true ∧ sampleDiscovery.ntdllExports = true ∧
    (∀ k, k ∈ (acquireNewHandlesToExistingZombies 0 sampleDiscovery .empty).2.pidLookup ↔
      ∃ x ∈ sampleDiscovery.processes, Qualifies 0 sampleDiscovery.now x ∧ x.uniqueProcessId = k) ∧
    keptHandles (recordedZombies 0 sampleDiscovery) = [16, 8] ∧
    (acquireNewHandlesToExistingZombies 0 sampleDiscovery .empty).2.lookup.lookup 8 =
      some ⟨100, 0, "zombie.exe", 1, 10000000, 1, 4, ""⟩ :=
  let ⟨_, _, hpid, _, _, hrec, _⟩ := acquire_records 0 sampleDiscovery .empty rfl rfl
  ⟨rfl, rfl, hpid, rfl, hrec (by decide) _ (List.mem_cons_self _ _) (by decide)⟩

/-! ## Keys and counts, by the zombies recorded -/

section

variable {t now : UInt64} {s : Enum} {p : ProcessAnswers} {k : Handle}

/-- The thread loop adds exactly the process's thread handles to the lookup's keys. -/
theorem acquireThreads_mem_iff {info : ZombieProcessThreadInfo} {m : ZombieHandleLookup} :
    k ∈ (acquireThreads p info m).1 ↔ k ∈ threadHandles p ∨ k ∈ m := by
  unfold acquireThreads threadHandles
  cases p.hProcessQI with
  | none => exact (or_iff_right (List.not_mem_nil k)).symm
  | some _ => exact threadLoop_mem_iff _

/-- Over the enumeration, the handle lookup gains exactly the handles kept for the processes that
    qualify, whether or not they are distinct. -/
theorem foldl_mem_lookup : ∀ (ps : List ProcessAnswers) (s : Enum),
    k ∈ (ps.foldl (processStep t now) s).lookup ↔
      k ∈ keptHandles (ps.filter fun p => decide (Qualifies t now p)) ∨ k ∈ s.lookup
  | [], _ => (or_iff_right (List.not_mem_nil k)).symm
  | p :: ps, s => by
    rw [List.foldl_cons, foldl_mem_lookup ps, filter_qualifies_cons, (processStep_records t now s p).2.1]
    by_cases hq : Qualifies t now p
    · rw [if_pos hq, if_pos hq, keptHandles_cons, AList.mem_insert, acquireThreads_mem_iff,
        List.mem_append, List.mem_append, List.mem_singleton]
      tauto
    · rw [if_neg hq, if_neg hq]

theorem foldl_nZombieProcesses : ∀ (ps : List ProcessAnswers) (s : Enum),
    (ps.foldl (processStep t now) s).nZombieProcesses =
      s.nZombieProcesses + (ps.filter fun p => decide (Qualifies t now p)).length
  | [], _ => rfl
  | p :: ps, s => by
    rw [List.foldl_cons, foldl_nZombieProcesses ps, (processStep_records t now s p).2.2.2.2, filter_qualifies_cons]
    split_ifs <;> simp only [List.length_cons, Nat.add_zero]; omega

end

/-- Discovery's state: the enumeration once ntdll resolves, the cleared state otherwise. -/
theorem acquire_eq (t : UInt64) (a : DiscoveryAnswers) (zh : ZombieHandles) :
    (acquireNewHandlesToExistingZombies t a zh).2 =
      if a.ntdllModule && a.ntdllExports then
        finishEnum a.terminal (a.processes.foldl (processStep t a.now) ⟨∅, 0, 0, ∅, [], none, false, zh.releaseAcquiredHandles.2⟩)
      else ⟨∅, 0, 0, ∅, [], none, false, zh.releaseAcquiredHandles.2⟩ := by
  unfold acquireNewHandlesToExistingZombies
  cases a.ntdllModule <;> cases a.ntdllExports <;> rfl

/-- What discovery leaves, for every run, in terms of the zombies it records: the handle lookup's
    keys are the handles kept for them, the PID lookup's keys their PIDs, and the zombie count
    their number; the process count and the errors do not depend on the threshold. -/
theorem acquire_spec (t : UInt64) (a : DiscoveryAnswers) (zh : ZombieHandles) :
    let r := (acquireNewHandlesToExistingZombies t a zh).2
    (∀ k, k ∈ r.lookup ↔ k ∈ keptHandles (recordedZombies t a)) ∧
    (∀ k, k ∈ r.pidLookup ↔ ∃ x ∈ recordedZombies t a, x.uniqueProcessId = k) ∧
    r.nZombieProcesses = (recordedZombies t a).length ∧
    r.nTotalProcesses = (if a.ntdllModule && a.ntdllExports then a.processes.length else 0) ∧
    r.processEnumErrors = if a.ntdllModule && a.ntdllExports then queryFailures 0 a.processes ++
      (if a.terminal = statusNoMoreEntries then [] else [.enumerationFailed a.terminal a.processes.length]) else [] := by
  intro r
  simp only [r, acquire_eq, recordedZombies]
  split
  · have h := records_foldl t a zh.releaseAcquiredHandles.2
    refine ⟨fun k => ?_, fun k => ?_, ?_, h.total, by rw [finishEnum, h.errors, h.total]⟩
    · exact (foldl_mem_lookup _ _).trans (or_iff_left (AList.not_mem_empty _))
    · simp only [finishEnum, h.pid_mem, List.mem_filter, decide_eq_true_eq, and_assoc]
    · exact (foldl_nZombieProcesses _ _).trans (Nat.zero_add _)
  · exact ⟨fun k => by simp, fun k => by simp, rfl, rfl, rfl⟩

/-! ## Raising the age threshold -/

/-- Raising the age threshold (`-secs`) only drops zombies: over the same kernel answers, the
    zombies recorded under the higher threshold are recorded under the lower one, in the same
    order; every key of either lookup stays a key; neither the zombie count nor the number of
    zombie process and thread handles grows; and the processes counted and the enumeration
    errors are the same. -/
theorem acquire_threshold_antitone {t₁ t₂ : UInt64} (ht : t₁ ≤ t₂) (a : DiscoveryAnswers) (zh₁ zh₂ : ZombieHandles) :
    let r₁ := (acquireNewHandlesToExistingZombies t₁ a zh₁).2
    let r₂ := (acquireNewHandlesToExistingZombies t₂ a zh₂).2
    (recordedZombies t₂ a).Sublist (recordedZombies t₁ a) ∧
    (∀ k ∈ r₂.lookup, k ∈ r₁.lookup) ∧ (∀ k ∈ r₂.pidLookup, k ∈ r₁.pidLookup) ∧
    r₂.nZombieProcesses ≤ r₁.nZombieProcesses ∧ r₂.lookup.keys.length ≤ r₁.lookup.keys.length ∧
    r₂.nTotalProcesses = r₁.nTotalProcesses ∧ r₂.processEnumErrors = r₁.processEnumErrors := by
  intro r₁ r₂
  have hs : (recordedZombies t₂ a).Sublist (recordedZombies t₁ a) := by
    unfold recordedZombies; split
    · exact List.monotone_filter_right _ fun p hp => decide_eq_true (qualifies_of_le ht (of_decide_eq_true hp))
    · exact List.Sublist.refl _
  obtain ⟨hl₁, hp₁, hn₁, ht₁, he₁⟩ := acquire_spec t₁ a zh₁
  obtain ⟨hl₂, hp₂, hn₂, ht₂, he₂⟩ := acquire_spec t₂ a zh₂
  have hl : ∀ k ∈ r₂.lookup, k ∈ r₁.lookup := fun k hk => by
    obtain ⟨z, hz, hk⟩ := List.mem_flatMap.mp ((hl₂ k).mp hk)
    exact (hl₁ k).mpr (List.mem_flatMap.mpr ⟨z, hs.subset hz, hk⟩)
  refine ⟨hs, hl, fun k hk => ?_, ?_, ?_, ht₂.trans ht₁.symm, he₂.trans he₁.symm⟩
  · obtain ⟨x, hx, rfl⟩ := (hp₂ k).mp hk
    exact (hp₁ _).mpr ⟨x, hs.subset hx, rfl⟩
  · rw [hn₁, hn₂]; exact hs.length_le
  · exact (List.subperm_of_subset r₂.lookup.keys_nodup fun k hk =>
      AList.mem_keys.mp (hl k (AList.mem_keys.mpr hk))).length_le

/-- The sample zombie exited one second before discovery's clock: threshold 2 drops it, with its
    two handles, and threshold 1 keeps it. -/
theorem acquire_threshold_antitone_sample : (1 : UInt64) ≤ 2 ∧
    (acquireNewHandlesToExistingZombies 2 sampleDiscovery .empty).2.nZombieProcesses = 0 ∧
    (acquireNewHandlesToExistingZombies 1 sampleDiscovery .empty).2.nZombieProcesses = 1 ∧
    (acquireNewHandlesToExistingZombies 2 sampleDiscovery .empty).2.lookup.keys.length = 0 ∧
    (acquireNewHandlesToExistingZombies 1 sampleDiscovery .empty).2.lookup.keys.length = 2 ∧
    (recordedZombies 2 sampleDiscovery).Sublist (recordedZombies 1 sampleDiscovery) ∧
    (∀ k ∈ (acquireNewHandlesToExistingZombies 2 sampleDiscovery .empty).2.lookup,
      k ∈ (acquireNewHandlesToExistingZombies 1 sampleDiscovery .empty).2.lookup) ∧
    (∀ k ∈ (acquireNewHandlesToExistingZombies 2 sampleDiscovery .empty).2.pidLookup,
      k ∈ (acquireNewHandlesToExistingZombies 1 sampleDiscovery .empty).2.pidLookup) ∧
    (acquireNewHandlesToExistingZombies 2 sampleDiscovery .empty).2.nZombieProcesses ≤
      (acquireNewHandlesToExistingZombies 1 sampleDiscovery .empty).2.nZombieProcesses ∧
    (acquireNewHandlesToExistingZombies 2 sampleDiscovery .empty).2.lookup.keys.length ≤
      (acquireNewHandlesToExistingZombies 1 sampleDiscovery .empty).2.lookup.keys.length ∧
    (acquireNewHandlesToExistingZombies 2 sampleDiscovery .empty).2.nTotalProcesses =
      (acquireNewHandlesToExistingZombies 1 sampleDiscovery .empty).2.nTotalProcesses ∧
    (acquireNewHandlesToExistingZombies 2 sampleDiscovery .empty).2.processEnumErrors =
      (acquireNewHandlesToExistingZombies 1 sampleDiscovery .empty).2.processEnumErrors :=
  ⟨by decide, rfl, rfl, rfl, rfl, acquire_threshold_antitone (by decide) sampleDiscovery .empty .empty⟩

/-! ## Where each record comes from -/

section

variable {t now : UInt64} {p : ProcessAnswers}

theorem zombieRecord_mem_entries : zombieRecord p ∈ (zombieEntries p).map (·.2) :=
  List.mem_map.mpr ⟨_, List.mem_append_right _ (List.mem_singleton_self _), rfl⟩

theorem acquireThreads_values_mem {info v : ZombieProcessThreadInfo} {m : ZombieHandleLookup}
    (h : v ∈ values (acquireThreads p info m).1) : v ∈ values m ∨ ∃ e ∈ threadEntries p info, v = e.2 := by
  unfold acquireThreads at h
  unfold threadEntries
  split at h
  · exact .inl h
  · rcases threadLoop_values_mem _ h with h | ⟨e, he, rfl⟩
    · exact .inl h
    · exact .inr ⟨_, List.mem_map_of_mem _ he, rfl⟩

/-- Every record made for a zombie carries the parent image path its parent lookup returned. -/
theorem zombieEntries_parent {e : Σ _ : Handle, ZombieProcessThreadInfo} (he : e ∈ zombieEntries p) :
    e.2.sParentImagePath = (getParentProcessImagePathIfStillRunning p.parent p.createTime).1 := by
  unfold zombieEntries threadEntries at he
  rcases List.mem_append.mp he with he | he
  · split at he
    · exact absurd he (List.not_mem_nil _)
    · obtain ⟨_, _, rfl⟩ := List.mem_map.mp he; rfl
  · rw [List.mem_singleton.mp he]; rfl

/-- The parent lookup returns a path only for a parent created before the child. -/
theorem getParent_created_before {a : ParentAnswers} {c : UInt64}
    (h : (getParentProcessImagePathIfStillRunning a c).1 ≠ "") : ∃ t₀, a.createTime = some t₀ ∧ t₀ < c := by
  rcases a with ⟨_ | _, _ | t₀, _⟩
  · exact (h rfl).elim
  · exact (h rfl).elim
  · exact (h rfl).elim
  · by_cases hc : t₀ < c
    · exact ⟨t₀, rfl, hc⟩
    · simp only [getParentProcessImagePathIfStillRunning, if_neg hc] at h; exact (h rfl).elim

/-- Over the enumeration, every record of the handle lookup stays one made for a qualifying
    process of `all`. -/
theorem foldl_records_from {all : List ProcessAnswers} : ∀ (ps : List ProcessAnswers) (s : Enum), ps ⊆ all →
    (∀ v ∈ values s.lookup, ∃ x ∈ all, Qualifies t now x ∧ v ∈ (zombieEntries x).map (·.2)) →
    ∀ v ∈ values (ps.foldl (processStep t now) s).lookup,
      ∃ x ∈ all, Qualifies t now x ∧ v ∈ (zombieEntries x).map (·.2)
  | [], _, _, h => h
  | p :: ps, s, hps, h => by
    refine foldl_records_from ps _ (fun x hx => hps (List.mem_cons_of_mem _ hx)) fun v hv => ?_
    have hp : p ∈ all := hps (List.mem_cons_self _ _)
    rw [(processStep_records t now s p).2.1] at hv
    by_cases hq : Qualifies t now p
    · rw [if_pos hq] at hv
      rcases mem_values_insert hv with rfl | hv
      · exact ⟨p, hp, hq, zombieRecord_mem_entries⟩
      · rcases acquireThreads_values_mem hv with hv | ⟨e, he, rfl⟩
        · exact h v hv
        · exact ⟨p, hp, hq, List.mem_map.mpr ⟨e, List.mem_append_left _ he, rfl⟩⟩
    · rw [if_neg hq] at hv; exact h v hv

end

/-- Every record discovery leaves, in either lookup, is one the loop made for a process that
    qualifies: the process's own (`TID = 0`) or one of its threads'. So a record shows a parent
    image path only when the process `OpenProcess` found under the parent PID was created before
    the zombie, never a later process that reused the PID. -/
theorem acquire_parent_created_before (t : UInt64) (a : DiscoveryAnswers) (zh : ZombieHandles) :
    let r := (acquireNewHandlesToExistingZombies t a zh).2
    ∀ v ∈ values r.lookup ++ values r.pidLookup, ∃ x ∈ a.processes, Qualifies t a.now x ∧
      v ∈ (zombieEntries x).map (·.2) ∧
      (v.sParentImagePath ≠ "" → ∃ t₀, x.parent.createTime = some t₀ ∧ t₀ < x.createTime) := by
  intro r v hv
  have hfrom : ∃ x ∈ a.processes, Qualifies t a.now x ∧ v ∈ (zombieEntries x).map (·.2) := by
    simp only [r, acquire_eq] at hv
    split at hv
    · rcases List.mem_append.mp hv with hv | hv
      · exact foldl_records_from _ _ (List.Subset.refl _) (fun v hv => by simp [values] at hv) v hv
      · obtain ⟨k, hk⟩ := mem_values.mp hv
        obtain ⟨x, hx, hq, -, rfl⟩ := (records_foldl t a zh.releaseAcquiredHandles.2).pid_record k v hk
        exact ⟨x, hx, hq, zombieRecord_mem_entries⟩
    · simp [values] at hv
  obtain ⟨x, hx, hq, hm⟩ := hfrom
  refine ⟨x, hx, hq, hm, fun hp => ?_⟩
  obtain ⟨e, he, rfl⟩ := List.mem_map.mp hm
  exact getParent_created_before (zombieEntries_parent he ▸ hp)

/-! ## Handles -/

section

variable {hQI : Handle} {info : ZombieProcessThreadInfo} {p : ProcessAnswers}

/-- The thread loop passes only open handles, keeps every thread handle open in the lookup, and
    adds no key that was already open. -/
theorem threadLoop_tracks (ts : List (Handle × Nat)) :
    ∀ {prev m X}, hQI ∈ X → (∀ h ∈ prev, h ∈ X) → (∀ k ∈ m, k ∈ X) →
      Fresh X (threadLoop hQI info prev ts m).2 →
      Disciplined X (threadLoop hQI info prev ts m).2 ∧
      (∀ k, k ∈ openAfter X (threadLoop hQI info prev ts m).2 ↔ k ∈ X ∨ k ∈ (threadLoop hQI info prev ts m).1) ∧
      ∀ k ∈ (threadLoop hQI info prev ts m).1, k ∈ m ∨ k ∉ X := by
  induction ts with
  | nil =>
    intro prev m X hq hp hm _
    refine ⟨⟨hq, disciplined_usedOpt hp⟩, fun k => ?_, fun k hk => .inl hk⟩
    simp only [threadLoop, openAfter_cons, apply_used, openAfter_usedOpt]
    exact ⟨.inl, fun h => h.elim id (hm k)⟩
  | cons e ts ih =>
    obtain ⟨h, tid⟩ := e
    intro prev m X hq hp hm hf
    simp only [threadLoop, Fresh, Disciplined, along_cons, along_append, openAfter_cons,
      openAfter_append, openAfter_usedOpt, apply_used, apply_opened, fresh_opened] at hf ⊢
    obtain ⟨-, hh, -, hf⟩ := hf
    have hkeys : ∀ k ∈ m.insert h { info with tid }, k ∈ insert h X := fun k hk =>
      ((AList.mem_insert _).mp hk).elim (fun e => e ▸ Finset.mem_insert_self _ _)
        (fun hk => Finset.mem_insert_of_mem (hm k hk))
    obtain ⟨hd, ho, hn⟩ := ih (Finset.mem_insert_of_mem hq) (by simp) hkeys hf
    have hmem := @threadLoop_mem hQI info h ts (some h) _ (mem_insert_self m h { info with tid })
    refine ⟨⟨⟨hq, disciplined_usedOpt hp⟩, trivial, Finset.mem_insert_self _ _, hd⟩, fun k => ?_, fun k hk => ?_⟩
    · rw [ho, Finset.mem_insert]
      constructor
      · rintro ((rfl | hk) | hk)
        exacts [.inr hmem, .inl hk, .inr hk]
      · rintro (hk | hk)
        exacts [.inl (.inr hk), .inr hk]
    · rcases hn k hk with hk | hk
      · rcases (AList.mem_insert _).mp hk with rfl | hk
        exacts [.inr hh, .inl hk]
      · exact .inr fun h' => hk (Finset.mem_insert_of_mem h')

theorem acquireThreads_tracks {m : ZombieHandleLookup} {X : Finset Handle} (hm : ∀ k ∈ m, k ∈ X)
    (hf : Fresh X (acquireThreads p info m).2) :
    Disciplined X (acquireThreads p info m).2 ∧
      (∀ k, k ∈ openAfter X (acquireThreads p info m).2 ↔ k ∈ X ∨ k ∈ (acquireThreads p info m).1) ∧
      ∀ k ∈ (acquireThreads p info m).1, k ∈ m ∨ k ∉ X := by
  unfold acquireThreads at hf ⊢
  cases hp : p.hProcessQI with
  | none =>
    simp only [hp]
    exact ⟨trivial, fun k => ⟨.inl, fun h => h.elim id (hm k)⟩, fun k hk => .inl hk⟩
  | some hQI =>
    simp only [hp, Fresh, Disciplined, along_cons, along_append, openAfter_cons, openAfter_append,
      apply_opened, apply_closed, fresh_opened, ok_opened, ok_closed, openAfter_nil, along_nil, and_true,
      true_and] at hf ⊢
    obtain ⟨⟨hq, hf⟩, -⟩ := hf
    obtain ⟨hd, ho, hn⟩ := threadLoop_tracks p.threads (Finset.mem_insert_self hQI X) (by simp)
      (fun k hk => Finset.mem_insert_of_mem (hm k hk)) hf
    have hq' : hQI ∉ (threadLoop hQI info none p.threads m).1 := fun h =>
      (hn _ h).elim (fun h => hq (hm _ h)) (fun h => h (Finset.mem_insert_self _ _))
    refine ⟨⟨hd, (ho hQI).mpr (.inl (Finset.mem_insert_self _ _))⟩, fun k => ?_, fun k hk => ?_⟩
    · rw [Finset.mem_erase, ho, Finset.mem_insert]
      constructor
      · rintro ⟨hne, (rfl | hk) | hk⟩
        exacts [absurd rfl hne, .inl hk, .inr hk]
      · rintro (hk | hk)
        exacts [⟨fun e => hq (e ▸ hk), .inl (.inr hk)⟩, ⟨fun e => hq' (e ▸ hk), .inr hk⟩]
    · rcases hn k hk with hk | hk
      exacts [.inl hk, .inr fun h => hk (Finset.mem_insert_of_mem h)]

end

/-- The parent lookup closes the parent's handle before it returns. -/
theorem parent_tracks {a : ParentAnswers} {c : UInt64} {X : Finset Handle}
    (hf : Fresh X (getParentProcessImagePathIfStillRunning a c).2) :
    Disciplined X (getParentProcessImagePathIfStillRunning a c).2 ∧
      openAfter X (getParentProcessImagePathIfStillRunning a c).2 = X := by
  unfold getParentProcessImagePathIfStillRunning at hf ⊢
  rcases a with ⟨_ | h, _ | t, _⟩ <;> dsimp only at hf ⊢
  · exact ⟨trivial, rfl⟩
  · exact ⟨trivial, rfl⟩
  · simp_all [Fresh, Disciplined]
  · by_cases hc : t < c
    · rw [if_pos hc] at hf ⊢; simp_all [Fresh, Disciplined]
    · rw [if_neg hc] at hf ⊢; simp_all [Fresh, Disciplined]

/-- Under a fresh kernel, recording a zombie: the parent lookup's events close what they open,
    and the thread loop's handles are fresh from those open before it. -/
theorem recordZombie_fresh {s : Enum} {p : ProcessAnswers} {X : Finset Handle}
    (hf : Fresh X (recordZombie { s with trace := s.trace ++ [.used p.hProcess] } p).trace) :
    Disciplined (openAfter X s.trace) (getParentProcessImagePathIfStillRunning p.parent p.createTime).2 ∧
      openAfter (openAfter X s.trace) (getParentProcessImagePathIfStillRunning p.parent p.createTime).2 =
        openAfter X s.trace ∧
      Fresh (openAfter X s.trace) (acquireThreads p (zombieInfo p) s.lookup).2 := by
  simp only [recordZombie, Fresh, along_append, along_cons, along_nil, openAfter_append, openAfter_cons,
    openAfter_nil, apply_used, fresh_used, true_and, and_true] at hf
  obtain ⟨⟨-, hpf⟩, htf⟩ := hf
  obtain ⟨hpd, hpo⟩ := parent_tracks hpf
  exact ⟨hpd, hpo, hpo ▸ htf⟩

/-- The open handles during the enumeration: `O` (those open before it, less the released ones),
    the lookup's keys, and the previous process's handle while the loop is to close it. -/
structure Tracks (o O : Finset Handle) (s : Enum) : Prop where
  disciplined : Disciplined o s.trace
  open_iff : ∀ k, k ∈ openAfter o s.trace ↔
    k ∈ O ∨ k ∈ s.lookup ∨ (s.bClosePrevProcess = true ∧ s.hPrevProcess = some k)
  disjoint : ∀ k ∈ s.lookup, k ∉ O
  prev_kept : ∀ h ∈ s.hPrevProcess, s.bClosePrevProcess = false → h ∈ s.lookup
  prev_closing : ∀ h ∈ s.hPrevProcess, s.bClosePrevProcess = true → h ∉ O ∧ h ∉ s.lookup

/-- `if (bClosePrevProcess) CloseHandle(hPrevProcess)` closes an open handle and leaves the rest. -/
theorem closePrev_tracks {Y : Finset Handle} {Z : Handle → Prop} {b : Bool} {prev : Option Handle}
    (hY : ∀ k, k ∈ Y ↔ Z k ∨ (b = true ∧ prev = some k)) (hprev : ∀ y ∈ prev, b = true → ¬Z y) :
    Disciplined Y (if b then prev.toList.map .closed else []) ∧
      ∀ k, k ∈ openAfter Y (if b then prev.toList.map .closed else []) ↔ Z k := by
  cases b with
  | false => exact ⟨trivial, by simpa using hY⟩
  | true =>
    cases prev with
    | none => exact ⟨trivial, by simpa using hY⟩
    | some y =>
      have hy := hprev y rfl rfl
      refine ⟨⟨(hY y).mpr (.inr ⟨rfl, rfl⟩), trivial⟩, fun k => ?_⟩
      simp only [if_true, Option.toList_some, List.map_cons, List.map_nil, openAfter_cons, apply_closed,
        openAfter_nil, Finset.mem_erase, hY, Option.some.injEq, true_and]
      constructor
      · rintro ⟨hne, hk | rfl⟩
        exacts [hk, absurd rfl hne]
      · exact fun hk => ⟨fun e => hy (e ▸ hk), .inl hk⟩

section

variable {o O : Finset Handle} {t now : UInt64} {s : Enum} {p : ProcessAnswers}

theorem Tracks.prev_open (h : Tracks o O s) : ∀ y ∈ s.hPrevProcess, y ∈ openAfter o s.trace := fun y hy => by
  rw [h.open_iff]
  cases hb : s.bClosePrevProcess
  · exact .inr (.inl (h.prev_kept y hy hb))
  · exact .inr (.inr ⟨rfl, hy⟩)

theorem enter_tracks {x : Handle} (h : Tracks o O s) (hf : Fresh o (enterProcess s x).trace) :
    Disciplined o (enterProcess s x).trace ∧
      (∀ k, k ∈ openAfter o (enterProcess s x).trace ↔ k ∈ O ∨ k ∈ s.lookup ∨ k = x) ∧
      x ∉ O ∧ x ∉ s.lookup := by
  simp only [enterProcess, Fresh, Disciplined, along_append, openAfter_append, along_cons,
    openAfter_cons, openAfter_usedOpt, fresh_opened, apply_opened, apply_used, along_nil, and_true,
    openAfter_nil, ok_opened, ok_used, true_and] at hf ⊢
  obtain ⟨⟨-, hx, -⟩, -⟩ := hf
  rw [h.open_iff] at hx
  simp only [not_or] at hx
  have hc := closePrev_tracks (Y := insert x (openAfter o s.trace)) (Z := fun k => k ∈ O ∨ k ∈ s.lookup ∨ k = x)
    (fun k => by
      rw [Finset.mem_insert, h.open_iff]
      constructor
      · rintro (rfl | hk | hk | hk)
        exacts [.inl (.inr (.inr rfl)), .inl (.inl hk), .inl (.inr (.inl hk)), .inr hk]
      · rintro ((hk | hk | rfl) | hk)
        exacts [.inr (.inl hk), .inr (.inr (.inl hk)), .inl rfl, .inr (.inr (.inr hk))])
    (fun y hy hb => by
      obtain ⟨h1, h2⟩ := h.prev_closing y hy hb
      rintro (h3 | h3 | rfl)
      exacts [h1 h3, h2 h3, hx.2.2 ⟨hb, hy⟩])
  exact ⟨⟨⟨⟨h.disciplined, disciplined_usedOpt h.prev_open⟩, hc.1⟩, (hc.2 x).mpr (.inr (.inr rfl))⟩, hc.2, hx.1, hx.2.1⟩

/-- From the basic-information query on, a process's handle stays open; a zombie's thread
    handles go into the lookup with it, and every other handle is closed. -/
theorem inspect_tracks (hd : Disciplined o s.trace)
    (ho : ∀ k, k ∈ openAfter o s.trace ↔ k ∈ O ∨ k ∈ s.lookup ∨ k = p.hProcess)
    (hxO : p.hProcess ∉ O) (hxL : p.hProcess ∉ s.lookup) (hdisj : ∀ k ∈ s.lookup, k ∉ O)
    (hb : s.bClosePrevProcess = true) (hf : Fresh o (inspectProcess t now s p).trace) :
    Tracks o O { inspectProcess t now s p with hPrevProcess := some p.hProcess } := by
  have hx : p.hProcess ∈ openAfter o s.trace := (ho _).mpr (.inr (.inr rfl))
  have plain : ∀ (tr : List HandleEvent) {es}, Disciplined (openAfter o s.trace) tr →
      openAfter (openAfter o s.trace) tr = openAfter o s.trace →
      Tracks o O { s with trace := s.trace ++ tr, hPrevProcess := some p.hProcess, processEnumErrors := es } :=
    fun _ {_} hd' ho' =>
    ⟨along_append.mpr ⟨hd, hd'⟩, fun k => by rw [openAfter_append, ho', ho, hb]; simp [eq_comm],
      hdisj, fun _ _ hb' => absurd hb' (by simp [hb]), fun _ e _ => Option.some.inj e ▸ ⟨hxO, hxL⟩⟩
  rcases inspectProcess_inv t now s p with he | he | he | he <;> rw [he] at hf ⊢
  · have hm : ∀ k ∈ s.lookup, k ∈ openAfter o s.trace := fun k hk => (ho k).mpr (.inr (.inl hk))
    obtain ⟨hpd, hpo, htf⟩ := recordZombie_fresh hf
    obtain ⟨htd, hto, htn⟩ := acquireThreads_tracks hm htf
    refine ⟨?_, fun k => ?_, fun k hk => ?_, fun _ e _ => Option.some.inj e ▸ mem_insert_self _ _ _,
      fun _ _ hb' => absurd hb' Bool.false_ne_true⟩
    · simp only [recordZombie, Disciplined, along_append, along_cons, along_nil, openAfter_append,
        openAfter_cons, openAfter_nil, apply_used, ok_used, hpo]
      exact ⟨⟨⟨hd, hx, trivial⟩, hpd⟩, hx, htd⟩
    · simp only [recordZombie, openAfter_append, openAfter_cons, openAfter_nil, apply_used, hpo, hto, ho,
        AList.mem_insert, Bool.false_eq_true, false_and, or_false]
      constructor
      · rintro ((hk | hk | rfl) | hk)
        exacts [.inl hk, .inr (.inr (acquireThreads_mem hk)), .inr (.inl rfl), .inr (.inr hk)]
      · rintro (hk | rfl | hk)
        exacts [.inl (.inl hk), .inl (.inr (.inr rfl)), .inr hk]
    · rcases (AList.mem_insert _).mp hk with rfl | hk
      · exact hxO
      · rcases htn k hk with hk | hk
        exacts [hdisj k hk, fun h => hk ((ho k).mpr (.inl h))]
  · simpa using plain [.used p.hProcess] ⟨hx, trivial⟩ rfl
  · simpa using plain [] trivial rfl
  · simpa using plain [] trivial rfl

theorem inspectProcess_trace_extends : s.trace <+: (inspectProcess t now s p).trace := by
  rcases inspectProcess_inv t now s p with he | he | he | he <;> rw [he] <;>
    simp [recordZombie, List.append_assoc]

theorem processStep_trace_extends : s.trace <+: (processStep t now s p).trace :=
  (by simp [enterProcess, List.append_assoc] : s.trace <+: (enterProcess s p.hProcess).trace).trans
    inspectProcess_trace_extends

theorem foldl_trace_extends : ∀ (qs : List ProcessAnswers) (s : Enum),
    s.trace <+: (qs.foldl (processStep t now) s).trace
  | [], _ => List.prefix_refl _
  | _ :: qs, _ => processStep_trace_extends.trans (foldl_trace_extends qs _)

theorem Tracks.step (h : Tracks o O s) (hf : Fresh o (processStep t now s p).trace) :
    Tracks o O (processStep t now s p) :=
  have ⟨hd, ho, hxO, hxL⟩ := enter_tracks h (hf.of_initial inspectProcess_trace_extends)
  inspect_tracks hd ho hxO hxL h.disjoint rfl hf

theorem Tracks.run : ∀ (qs : List ProcessAnswers) {s : Enum}, Tracks o O s →
    Fresh o (qs.foldl (processStep t now) s).trace → Tracks o O (qs.foldl (processStep t now) s)
  | [], _, h, _ => h
  | _ :: qs, _, h, hf => Tracks.run qs (h.step (hf.of_initial (foldl_trace_extends qs _))) hf

/-- After the loop the last process's handle is closed unless it was kept. -/
theorem finish_tracks {terminal : NTSTATUS} (h : Tracks o O s) :
    Disciplined o (finishEnum terminal s).trace ∧
      ∀ k, k ∈ openAfter o (finishEnum terminal s).trace ↔ k ∈ O ∨ k ∈ s.lookup := by
  have hc := closePrev_tracks (Y := openAfter o s.trace) (Z := fun k => k ∈ O ∨ k ∈ s.lookup)
    (fun k => by rw [h.open_iff, or_assoc])
    (fun y hy hb => by
      obtain ⟨h1, h2⟩ := h.prev_closing y hy hb
      rintro (h3 | h3)
      exacts [h1 h3, h2 h3])
  simp only [finishEnum, Disciplined, along_append, openAfter_append, openAfter_usedOpt]
  exact ⟨⟨⟨h.disciplined, disciplined_usedOpt h.prev_open⟩, hc.1⟩, hc.2⟩

/-- At the start of a call the handles of the previous one are released. -/
theorem tracks_init (zh : ZombieHandles) (hk : ∀ k ∈ zh.lookup, k ∈ o) :
    Tracks o (o \ zh.lookup.keys.toFinset) ⟨∅, 0, 0, ∅, [], none, false, zh.releaseAcquiredHandles.2⟩ := by
  obtain ⟨hd, ho⟩ := disciplined_close_all zh.lookup.keys_nodup fun k hk' => hk k (AList.mem_keys.mpr hk')
  refine ⟨hd, fun k => ?_, fun k hk => absurd hk (AList.not_mem_empty k), fun _ h => (nomatch h),
    fun _ h => (nomatch h)⟩
  simp [ZombieHandles.releaseAcquiredHandles, ho]

end

theorem acquire_tracks {o : Finset Handle} {t : UInt64} {a : DiscoveryAnswers} {zh : ZombieHandles}
    (hk : ∀ k ∈ zh.lookup, k ∈ o) (hf : Fresh o (acquireNewHandlesToExistingZombies t a zh).2.trace) :
    Disciplined o (acquireNewHandlesToExistingZombies t a zh).2.trace ∧
      (∀ k, k ∈ openAfter o (acquireNewHandlesToExistingZombies t a zh).2.trace ↔
        k ∈ o \ zh.lookup.keys.toFinset ∨ k ∈ (acquireNewHandlesToExistingZombies t a zh).2.lookup) ∧
      ∀ k ∈ (acquireNewHandlesToExistingZombies t a zh).2.lookup, k ∉ o \ zh.lookup.keys.toFinset := by
  have h0 := tracks_init zh hk
  rcases acquire_inv t a zh with he | he <;> rw [he] at hf ⊢
  · exact ⟨h0.disciplined, fun k => by simp [h0.open_iff], h0.disjoint⟩
  · have hr : Tracks o _ (a.processes.foldl (processStep t a.now) _) :=
      Tracks.run a.processes h0 (hf.of_initial ((List.prefix_append _ _).trans (List.prefix_append _ _)))
    exact ⟨(finish_tracks hr).1, (finish_tracks hr).2, hr.disjoint⟩

/-- The object's states, with the handles open in the process, from construction on: each
    `AcquireNewHandlesToExistingZombies` under a kernel that returns fresh handles, and each
    `ReleaseAcquiredHandles`. -/
inductive Reachable : ZombieHandles → Finset Handle → Prop
  | init (o : Finset Handle) : Reachable ZombieHandles.empty o
  | acquire {zh : ZombieHandles} {o : Finset Handle} (t : UInt64) (a : DiscoveryAnswers) : Reachable zh o →
      Fresh o (acquireNewHandlesToExistingZombies t a zh).2.trace →
      Reachable (acquireNewHandlesToExistingZombies t a zh).2.zombieHandles
        (openAfter o (acquireNewHandlesToExistingZombies t a zh).2.trace)
  | release {zh : ZombieHandles} {o : Finset Handle} : Reachable zh o →
      Reachable zh.releaseAcquiredHandles.1 (openAfter o zh.releaseAcquiredHandles.2)

/-- In every reachable state the lookup's handles are open. -/
theorem Reachable.keys_open {zh : ZombieHandles} {o : Finset Handle} (h : Reachable zh o) :
    ∀ k ∈ zh.lookup, k ∈ o := by
  induction h with
  | init => exact fun k hk => absurd hk (AList.not_mem_empty k)
  | acquire t a _ hf ih => exact fun k hk => ((acquire_tracks ih hf).2.1 k).mpr (.inr hk)
  | release _ _ => exact fun k hk => absurd hk (AList.not_mem_empty k)

/-- The handle discipline of a call from any reachable state, under a kernel that returns fresh
    handles: only open handles are passed and closed; afterwards the handles open are those open
    before, less the previous call's lookup, plus the new lookup's keys, which are all new; each
    opening is matched by exactly one close unless its handle is still open. `ReleaseAcquiredHandles`
    then closes each key exactly once and empties the lookup, so a further release closes nothing. -/
theorem acquire_handles {zh : ZombieHandles} {o : Finset Handle} (hr : Reachable zh o) (t : UInt64)
    (a : DiscoveryAnswers) (hf : Fresh o (acquireNewHandlesToExistingZombies t a zh).2.trace) :
    let s := (acquireNewHandlesToExistingZombies t a zh).2
    let rel := s.zombieHandles.releaseAcquiredHandles
    Disciplined o s.trace ∧
    openAfter o s.trace = o \ zh.lookup.keys.toFinset ∪ s.lookup.keys.toFinset ∧
    Disjoint (o \ zh.lookup.keys.toFinset) s.lookup.keys.toFinset ∧
    (∀ h, s.trace.count (.closed h) + (if h ∈ openAfter o s.trace then 1 else 0) =
      s.trace.count (.opened h) + (if h ∈ o then 1 else 0)) ∧
    Disciplined (openAfter o s.trace) rel.2 ∧
    openAfter (openAfter o s.trace) rel.2 = o \ zh.lookup.keys.toFinset ∧
    (∀ h, rel.2.count (.closed h) = if h ∈ s.lookup then 1 else 0) ∧
    rel.1.lookup = ∅ ∧ rel.1.releaseAcquiredHandles.2 = [] := by
  intro s rel
  have hd : Disciplined o s.trace := (acquire_tracks hr.keys_open hf).1
  have ho : ∀ k, k ∈ openAfter o s.trace ↔ k ∈ o \ zh.lookup.keys.toFinset ∨ k ∈ s.lookup :=
    (acquire_tracks hr.keys_open hf).2.1
  have hdisj : ∀ k ∈ s.lookup, k ∉ o \ zh.lookup.keys.toFinset := (acquire_tracks hr.keys_open hf).2.2
  have hrel : rel.2 = s.lookup.keys.map .closed := rfl
  have hopen : openAfter o s.trace = o \ zh.lookup.keys.toFinset ∪ s.lookup.keys.toFinset := by
    ext k; rw [ho, Finset.mem_union, List.mem_toFinset, ← AList.mem_keys]
  have disj : Disjoint (o \ zh.lookup.keys.toFinset) s.lookup.keys.toFinset :=
    Finset.disjoint_left.mpr fun k h1 h2 => hdisj k (AList.mem_keys.mpr (List.mem_toFinset.mp h2)) h1
  obtain ⟨hrd, hro⟩ := disciplined_close_all s.lookup.keys_nodup
    fun k hk => (ho k).mpr (.inr (AList.mem_keys.mpr hk))
  refine ⟨hd, hopen, disj, count_balance hd hf, hrel ▸ hrd, ?_, fun h => ?_, rfl, rfl⟩
  · rw [hrel, hro, hopen, Finset.union_sdiff_right, Finset.sdiff_eq_self_of_disjoint disj]
  · have inj : Function.Injective HandleEvent.closed := fun _ _ e => HandleEvent.closed.inj e
    rw [hrel, List.count_eq_of_nodup (s.lookup.keys_nodup.map inj)]
    simp [List.mem_map, inj.eq_iff, AList.mem_keys]

theorem acquire_handles_sample : Fresh ∅ (acquireNewHandlesToExistingZombies 0 sampleDiscovery .empty).2.trace ∧
    openAfter ∅ (acquireNewHandlesToExistingZombies 0 sampleDiscovery .empty).2.trace =
      ∅ \ ZombieHandles.empty.lookup.keys.toFinset ∪
        (acquireNewHandlesToExistingZombies 0 sampleDiscovery .empty).2.lookup.keys.toFinset :=
  have hf : Fresh ∅ (acquireNewHandlesToExistingZombies 0 sampleDiscovery .empty).2.trace := by decide
  ⟨hf, (acquire_handles (.init ∅) 0 sampleDiscovery (by exact hf)).2.1⟩


/-! ## A fresh kernel's handles are distinct -/

section

variable {hQI : Handle} {info : ZombieProcessThreadInfo} {p : ProcessAnswers}

/-- The thread handles a fresh kernel returns are distinct and were not open before the loop. -/
theorem threadLoop_fresh (ts : List (Handle × Nat)) : ∀ {prev m X}, Fresh X (threadLoop hQI info prev ts m).2 →
    (ts.map Prod.fst).Nodup ∧ ∀ h ∈ ts.map Prod.fst, h ∉ X := by
  induction ts with
  | nil => intros; exact ⟨List.nodup_nil, nofun⟩
  | cons e ts ih =>
    obtain ⟨h, tid⟩ := e
    intro prev m X hf
    simp only [threadLoop, Fresh, along_cons, along_append, openAfter_cons, openAfter_usedOpt, apply_used,
      apply_opened, fresh_opened, fresh_used, true_and] at hf
    obtain ⟨-, hh, hf⟩ := hf
    obtain ⟨hn, hx⟩ := ih hf
    exact ⟨List.nodup_cons.mpr ⟨fun hm => hx h hm (Finset.mem_insert_self _ _), hn⟩,
      List.forall_mem_cons.mpr ⟨hh, fun k hk hkX => hx k hk (Finset.mem_insert_of_mem hkX)⟩⟩

theorem acquireThreads_fresh {m : ZombieHandleLookup} {X : Finset Handle} (hf : Fresh X (acquireThreads p info m).2) :
    (threadHandles p).Nodup ∧ ∀ h ∈ threadHandles p, h ∉ X := by
  unfold acquireThreads at hf; unfold threadHandles
  cases hp : p.hProcessQI with
  | none => exact ⟨List.nodup_nil, nofun⟩
  | some hQI =>
    simp only [hp, Fresh, along_cons, along_append, apply_opened, fresh_opened] at hf
    exact (threadLoop_fresh p.threads hf.1.2).imp_right fun h k hk hkX => h k hk (Finset.mem_insert_of_mem hkX)

theorem inspectProcess_of_qualifies {t now : UInt64} {s : Enum} (hq : Qualifies t now p) :
    inspectProcess t now s p = recordZombie { s with trace := s.trace ++ [.used p.hProcess] } p := by
  obtain ⟨h1, h2, h3⟩ := qualifies_iff.mp hq
  rw [inspectProcess, if_pos h1, if_pos h2, if_pos h3]

/-- Under a fresh kernel, the handles a recorded zombie adds to the lookup are distinct and new to
    it. -/
theorem processStep_kept {o O : Finset Handle} {t now : UInt64} {s : Enum} (h : Tracks o O s)
    (hf : Fresh o (processStep t now s p).trace) (hq : Qualifies t now p) :
    (threadHandles p ++ [p.hProcess]).Nodup ∧ ∀ k ∈ threadHandles p ++ [p.hProcess], k ∉ s.lookup := by
  obtain ⟨-, ho, -, hxL⟩ := enter_tracks h (hf.of_initial inspectProcess_trace_extends)
  have hx : p.hProcess ∈ openAfter o (enterProcess s p.hProcess).trace := (ho _).mpr (.inr (.inr rfl))
  have hL : ∀ k ∈ s.lookup, k ∈ openAfter o (enterProcess s p.hProcess).trace :=
    fun k hk => (ho k).mpr (.inr (.inl hk))
  change Fresh o (inspectProcess t now (enterProcess s p.hProcess) p).trace at hf
  rw [inspectProcess_of_qualifies hq] at hf
  obtain ⟨hn, hX⟩ := acquireThreads_fresh (recordZombie_fresh hf).2.2
  exact ⟨List.nodup_append.mpr ⟨hn, List.nodup_singleton _, fun k hk hk' => hX k hk (List.mem_singleton.mp hk' ▸ hx)⟩,
    List.forall_mem_append.mpr ⟨fun k hk hm => hX k hk (hL k hm), List.forall_mem_singleton.mpr hxL⟩⟩

end

theorem foldl_kept {o O : Finset Handle} {t now : UInt64} : ∀ (ps : List ProcessAnswers) {s : Enum}, Tracks o O s →
    Fresh o (ps.foldl (processStep t now) s).trace →
    (keptHandles (ps.filter fun p => decide (Qualifies t now p))).Nodup ∧
      ∀ k ∈ keptHandles (ps.filter fun p => decide (Qualifies t now p)), k ∉ s.lookup
  | [], _, _, _ => ⟨List.nodup_nil, nofun⟩
  | p :: ps, s, h, hf => by
    have hf1 : Fresh o (processStep t now s p).trace := hf.of_initial (foldl_trace_extends ps _)
    obtain ⟨hn, hd⟩ := foldl_kept ps (h.step hf1) hf
    rw [filter_qualifies_cons]
    by_cases hq : Qualifies t now p
    · rw [if_pos hq, keptHandles_cons]
      obtain ⟨hpn, hpd⟩ := processStep_kept h hf1 hq
      have he := processStep_entries hq hpn hpd
      refine ⟨List.nodup_append.mpr ⟨hpn, hn, fun k hk hk' => hd k hk' ((mem_of_entries_eq he).mpr (.inl ?_))⟩,
        List.forall_mem_append.mpr ⟨hpd, fun k hk hm => hd k hk ((mem_of_entries_eq he).mpr (.inr hm))⟩⟩
      rwa [List.map_reverse, List.mem_reverse, zombieEntries_keys]
    · have hl : (processStep t now s p).lookup = s.lookup := by rw [(processStep_records t now s p).2.1, if_neg hq]
      rw [if_neg hq]
      exact ⟨hn, fun k hk => hl ▸ hd k hk⟩

/-- Under a kernel that returns only handles not already open, from any reachable state, the
    handles discovery keeps are distinct. -/
theorem acquire_kept_nodup {zh : ZombieHandles} {o : Finset Handle} (hr : Reachable zh o) (t : UInt64)
    (a : DiscoveryAnswers) (hf : Fresh o (acquireNewHandlesToExistingZombies t a zh).2.trace) :
    (keptHandles (recordedZombies t a)).Nodup := by
  unfold recordedZombies
  split
  · rename_i h
    rw [Bool.and_eq_true] at h
    rw [acquire_of_resolved h.1 h.2] at hf
    exact (foldl_kept a.processes (tracks_init zh hr.keys_open)
      (hf.of_initial ((List.prefix_append _ _).trans (List.prefix_append _ _)))).1
  · exact List.nodup_nil

end ZombieFinder

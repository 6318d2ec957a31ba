import ZombieFinder.Handles

/-
  ZombieFinder.FullThreadReport — the `-threads` mode (FullThreadReport.cpp): every process
  object on the system, whether it has exited, its active and exited threads, its handle count.

  The loop walks `NtGetNextProcess` like discovery does, closing each process's handle once the
  next one is returned and the last one after the loop. For each process whose basic-information
  query succeeds it prints a row; when `OpenProcess(PROCESS_QUERY_INFORMATION)` succeeds, it
  walks that process's threads with `NtGetNextThread`, asks `HasExited` of each
  (`WaitForSingleObject`; `none` when it fails) and closes each thread handle once the next one
  is returned. The kernel's answers are one `ReportProcessAnswers` per process.

  - `fullThreadReport_rows`: one row per process whose basic-information query succeeded, in
    enumeration order, whose thread columns count the threads `HasExited` found active and
    exited and all the threads returned (so active plus exited is at most the total); one error
    per failed query, then the terminal status; every process counted.
  - `fullThreadReport_releases`: under a kernel that returns fresh handles, the report passes and
    closes only open handles, closes every handle value as often as it opens it, and leaves open
    exactly what was open before.
-/

namespace ZombieFinder

/-- A thread `NtGetNextThread` returns, with `HasExited`'s answer (`none` when it fails). -/
structure ThreadAnswers where
  hThread : Handle
  hasExited : Option Bool
  deriving DecidableEq, Repr

/-- The kernel's answers while the report handles one process. `imageStatus` and
    `imageFileName` answer the `ProcessImageFileName` query; `handleCount` is what
    `GetProcessHandleCount` leaves in `dwHandleCount` (0 when it fails). -/
structure ReportProcessAnswers where
  hProcess : Handle
  basicStatus : NTSTATUS
  uniqueProcessId : Nat
  imageStatus : NTSTATUS
  imageFileName : String
  handleCount : Nat
  hasExited : Option Bool
  hProcessQI : Option Handle
  threads : List ThreadAnswers
  deriving DecidableEq, Repr

/-- ntdll's resolution and the enumeration: the processes `NtGetNextProcess` returns, then the
    status that ends the loop. -/
structure ThreadReportAnswers where
  ntdllModule : Bool
  ntdllExports : Bool
  processes : List ReportProcessAnswers
  terminal : NTSTATUS
  terminal_ne : terminal ≠ statusSuccess

/-- A row: PID, image path (or the failed query's status, printed by `SysErrorMessageWithCode`),
    exited, the thread columns (active, exited, total; `-` when the process cannot be opened for
    them), handle count. -/
structure ThreadReportRow where
  pid : Nat
  sExeImagePath : Except NTSTATUS String
  bProcessHasExited : Bool
  threadCounts : Option (Nat × Nat × Nat)
  dwHandleCount : Nat
  deriving Repr

/-- The report so far: rows, `std::wcerr` lines, `nTotalProcesses`, `hPrevProcess`, handle events. -/
structure ReportEnum where
  rows : List ThreadReportRow
  errors : List ProcessEnumError
  nTotalProcesses : Nat
  hPrevProcess : Option Handle
  trace : List HandleEvent

/-- `nTotalThreads++` and, when `HasExited` succeeds, `nExitedThreads++` or `nActiveThreads++`. -/
def countThread : Option Bool → Nat × Nat × Nat → Nat × Nat × Nat
  | some true, (nActive, nExited, nTotal) => (nActive, nExited + 1, nTotal + 1)
  | some false, (nActive, nExited, nTotal) => (nActive + 1, nExited, nTotal + 1)
  | none, (nActive, nExited, nTotal) => (nActive, nExited, nTotal + 1)

/-- The `NtGetNextThread(hProcessQI, hPrevThread, …)` loop: the counts (active, exited, total)
    and the handle events; the last call fails and the last thread's handle is closed. -/
def threadCountLoop (hQI : Handle) : Option Handle → List ThreadAnswers → Nat × Nat × Nat →
    (Nat × Nat × Nat) × List HandleEvent
  | prev, [], n => (n, .used hQI :: usedOpt prev ++ closeOpt prev)
  | prev, t :: ts, n =>
    let r := threadCountLoop hQI (some t.hThread) ts (countThread t.hasExited n)
    (r.1, .used hQI :: usedOpt prev ++ .opened t.hThread :: closeOpt prev ++ .used t.hThread :: r.2)

/-- `OpenProcess(PROCESS_QUERY_INFORMATION, …)` and, when it succeeds, the thread loop and
    `CloseHandle(hProcessQI)`. -/
def threadColumns (p : ReportProcessAnswers) : Option (Nat × Nat × Nat) × List HandleEvent :=
  match p.hProcessQI with
  | none => (none, [])
  | some q => (some (threadCountLoop q none p.threads (0, 0, 0)).1,
      .opened q :: (threadCountLoop q none p.threads (0, 0, 0)).2 ++ [.closed q])

/-- One iteration of the `NtGetNextProcess` loop: the call with `hPrevProcess`, its close, the
    basic-information query, and on success the image-name query, `GetProcessHandleCount`,
    `HasExited` and the thread columns. -/
def reportStep (s : ReportEnum) (p : ReportProcessAnswers) : ReportEnum :=
  let enter := usedOpt s.hPrevProcess ++ .opened p.hProcess :: closeOpt s.hPrevProcess ++ [.used p.hProcess]
  if p.basicStatus = statusSuccess then
    { s with
      rows := s.rows ++ [⟨p.uniqueProcessId,
        if p.imageStatus = statusSuccess then .ok p.imageFileName else .error p.imageStatus,
        p.hasExited.getD false, (threadColumns p).1, p.handleCount⟩]
      nTotalProcesses := s.nTotalProcesses + 1
      hPrevProcess := some p.hProcess
      trace := s.trace ++ enter ++ [.used p.hProcess, .used p.hProcess, .used p.hProcess] ++ (threadColumns p).2 }
  else
    { s with
      errors := s.errors ++ [.queryFailed (s.nTotalProcesses + 1) p.basicStatus]
      nTotalProcesses := s.nTotalProcesses + 1
      hPrevProcess := some p.hProcess
      trace := s.trace ++ enter }

/-- After the loop: the last call with `hPrevProcess`, its close, and the terminal status unless
    it is `STATUS_NO_MORE_ENTRIES`. -/
def reportFinish (terminal : NTSTATUS) (s : ReportEnum) : ReportEnum :=
  { s with
    trace := s.trace ++ usedOpt s.hPrevProcess ++ closeOpt s.hPrevProcess
    errors := s.errors ++
      (if terminal = statusNoMoreEntries then [] else [.enumerationFailed terminal s.nTotalProcesses]) }

/-- `FullThreadReport(pStream)`. -/
def fullThreadReport (a : ThreadReportAnswers) : Except ErrorInfo Unit × ReportEnum :=
  let s0 : ReportEnum := ⟨[], [], 0, none, []⟩
  if !a.ntdllModule then (.error couldntGetModuleNtdll, s0)
  else if !a.ntdllExports then (.error unableToLoadNtdllFunctions, s0)
  else (.ok (), reportFinish a.terminal (a.processes.foldl reportStep s0))

/-! ## The rows -/

/-- The thread columns the report should print for a process: how many of its threads
    `HasExited` found active and exited, and how many there are. -/
def threadCountsOf (ts : List ThreadAnswers) : Nat × Nat × Nat :=
  (ts.countP (·.hasExited == some false), ts.countP (·.hasExited == some true), ts.length)

/-- The row the report should print for a process whose basic-information query succeeded. -/
def reportRow (p : ReportProcessAnswers) : ThreadReportRow :=
  ⟨p.uniqueProcessId, if p.imageStatus = statusSuccess then .ok p.imageFileName else .error p.imageStatus,
    p.hasExited.getD false, p.hProcessQI.map fun _ => threadCountsOf p.threads, p.handleCount⟩

/-- The `during enumeration n` errors of a run over `ps` whose first process is number `n + 1`. -/
def reportQueryFailures : Nat → List ReportProcessAnswers → List ProcessEnumError
  | _, [] => []
  | n, p :: ps =>
    (if p.basicStatus = statusSuccess then [] else [.queryFailed (n + 1) p.basicStatus]) ++
      reportQueryFailures (n + 1) ps

theorem threadCountLoop_counts (hQI : Handle) : ∀ (ts : List ThreadAnswers) (prev : Option Handle)
    (nActive nExited nTotal : Nat), (threadCountLoop hQI prev ts (nActive, nExited, nTotal)).1 =
      (nActive + (threadCountsOf ts).1, nExited + (threadCountsOf ts).2.1, nTotal + (threadCountsOf ts).2.2)
  | [], _, _, _, _ => rfl
  | ⟨h, e⟩ :: ts, _, nActive, nExited, nTotal => by
    rcases e with _ | _ | _ <;>
      simp only [threadCountLoop, countThread, threadCountLoop_counts, threadCountsOf, List.countP_cons,
        List.length_cons, Prod.mk.injEq] <;> simp <;> omega

/-- The thread columns add up: active and exited threads are at most all threads. -/
theorem threadCountsOf_le (ts : List ThreadAnswers) :
    (threadCountsOf ts).1 + (threadCountsOf ts).2.1 ≤ (threadCountsOf ts).2.2 := by
  induction ts with
  | nil => exact Nat.le_refl 0
  | cons t ts ih =>
    obtain ⟨h, _ | _ | _⟩ := t <;> simp only [threadCountsOf, List.countP_cons, List.length_cons] at ih ⊢ <;>
      simp <;> omega

theorem threadColumns_fst (p : ReportProcessAnswers) :
    (threadColumns p).1 = p.hProcessQI.map fun _ => threadCountsOf p.threads := by
  unfold threadColumns
  cases p.hProcessQI with
  | none => rfl
  | some q => simp only [threadCountLoop_counts, Nat.zero_add, Option.map_some', Prod.mk.eta]

@[simp] theorem reportStep_rows (s : ReportEnum) (p : ReportProcessAnswers) :
    (reportStep s p).rows = s.rows ++ if p.basicStatus = statusSuccess then [reportRow p] else [] := by
  unfold reportStep reportRow
  split <;> simp_all [threadColumns_fst]

@[simp] theorem reportStep_errors (s : ReportEnum) (p : ReportProcessAnswers) :
    (reportStep s p).errors = s.errors ++
      if p.basicStatus = statusSuccess then [] else [.queryFailed (s.nTotalProcesses + 1) p.basicStatus] := by
  unfold reportStep
  split <;> simp_all

@[simp] theorem reportStep_nTotalProcesses (s : ReportEnum) (p : ReportProcessAnswers) :
    (reportStep s p).nTotalProcesses = s.nTotalProcesses + 1 := by
  unfold reportStep; split <;> rfl

@[simp] theorem reportStep_hPrevProcess (s : ReportEnum) (p : ReportProcessAnswers) :
    (reportStep s p).hPrevProcess = some p.hProcess := by
  unfold reportStep; split <;> rfl

theorem reportStep_run : ∀ (ps : List ReportProcessAnswers) (s : ReportEnum),
    (ps.foldl reportStep s).rows = s.rows ++ (ps.filter fun p => p.basicStatus = statusSuccess).map reportRow ∧
    (ps.foldl reportStep s).errors = s.errors ++ reportQueryFailures s.nTotalProcesses ps ∧
    (ps.foldl reportStep s).nTotalProcesses = s.nTotalProcesses + ps.length
  | [], s => by simp [reportQueryFailures]
  | p :: ps, s => by
    obtain ⟨hr, he, hn⟩ := reportStep_run ps (reportStep s p)
    rw [List.foldl_cons, hr, he, hn, reportStep_rows, reportStep_errors, reportStep_nTotalProcesses]
    refine ⟨?_, by simp only [reportQueryFailures, List.append_assoc], by rw [List.length_cons]; omega⟩
    by_cases hp : p.basicStatus = statusSuccess <;> simp [hp, List.filter_cons]

/-- Once ntdll resolves: one row per process whose basic-information query succeeded, in
    enumeration order, each with the thread counts of the threads returned for it (active plus
    exited at most the total); one error per failed query, numbered by enumeration, then the
    terminal status unless it is `STATUS_NO_MORE_ENTRIES`; and every process is counted. -/
theorem fullThreadReport_rows (a : ThreadReportAnswers) (hm : a.ntdllModule = true) (hx : a.ntdllExports = true) :
    (fullThreadReport a).1 = .ok () ∧
    (fullThreadReport a).2.rows = (a.processes.filter fun p => p.basicStatus = statusSuccess).map reportRow ∧
    (∀ row ∈ (fullThreadReport a).2.rows, ∀ c ∈ row.threadCounts, c.1 + c.2.1 ≤ c.2.2) ∧
    (fullThreadReport a).2.errors = reportQueryFailures 0 a.processes ++
      (if a.terminal = statusNoMoreEntries then [] else [.enumerationFailed a.terminal a.processes.length]) ∧
    (fullThreadReport a).2.nTotalProcesses = a.processes.length := by
  obtain ⟨hr, he, hn⟩ := reportStep_run a.processes ⟨[], [], 0, none, []⟩
  simp only [List.nil_append, Nat.zero_add] at hr he hn
  simp only [fullThreadReport, hm, hx, Bool.not_true, Bool.false_eq_true, if_false, reportFinish]
  refine ⟨trivial, hr, ?_, by rw [he, hn], hn⟩
  rw [hr]
  simp only [List.mem_map, List.mem_filter]
  rintro _ ⟨p, -, rfl⟩ c hc
  obtain ⟨_, -, rfl⟩ := Option.map_eq_some'.mp hc
  exact threadCountsOf_le p.threads

/-- A report over three processes: an exited one with three threads (one exited, one active,
    one whose `HasExited` fails), one whose basic-information query is denied, and a running one
    that cannot be opened for its threads and whose image-name query is denied. -/
def sampleThreadReport : ThreadReportAnswers where
  ntdllModule := true
  ntdllExports := true
  processes :=
    [⟨8, statusSuccess, 100, statusSuccess, "zombie.exe", 12, some true, some 12,
        [⟨16, some true⟩, ⟨20, some false⟩, ⟨24, none⟩]⟩,
     ⟨28, 0xC0000022, 0, statusSuccess, "", 0, none, none, []⟩,
     ⟨32, statusSuccess, 4, 0xC0000022, "", 300, some false, none, []⟩]
  terminal := statusNoMoreEntries
  terminal_ne := by decide

theorem fullThreadReport_rows_sample : sampleThreadReport.ntdllModule = true ∧ sampleThreadReport.ntdllExports = true ∧
    (fullThreadReport sampleThreadReport).2.rows.map (·.threadCounts) = [some (1, 1, 3), none] ∧
    (fullThreadReport sampleThreadReport).2.errors = [.queryFailed 2 0xC0000022] :=
  have h := fullThreadReport_rows sampleThreadReport rfl rfl
  ⟨rfl, rfl, by rw [h.2.1]; rfl, by rw [h.2.2.2.1]; rfl⟩

/-! ## Handles -/

/-- The thread loop on `hQI`, open with the rest of `o`: the loop passes and closes only open
    handles and leaves `o` open, its last thread's handle closed. -/
theorem threadCountLoop_moves (hQI : Handle) {o : Finset Handle} (hq : hQI ∈ o) :
    ∀ (ts : List ThreadAnswers) (prev : Option Handle) (n : Nat × Nat × Nat), (∀ y ∈ prev, y ∉ o) →
      Moves (withPrev prev o) o (threadCountLoop hQI prev ts n).2
  | [], _, _, hp => Moves.used (mem_withPrev hq) (moves_last hp)
  | t :: ts, prev, n, hp => by
    simp only [threadCountLoop, List.cons_append, List.append_assoc]
    exact Moves.used (mem_withPrev hq) (Moves.next hp fun hx => Moves.used (Finset.mem_insert_self _ _)
      (threadCountLoop_moves hQI hq ts (some t.hThread) _ fun _ e => Option.some_inj.mp e ▸ hx))

theorem restores_threadColumns (p : ReportProcessAnswers) : Restores (threadColumns p).2 := by
  unfold threadColumns
  split
  · exact restores_nil
  · intro o
    refine Moves.opened fun hq => Moves.append (threadCountLoop_moves _ (Finset.mem_insert_self _ o) _ none _
      nofun) (Moves.closed (Finset.mem_insert_self _ o) ?_)
    rw [Finset.erase_insert hq]
    exact moves_nil

theorem reportStep_trace (s : ReportEnum) (p : ReportProcessAnswers) :
    (reportStep s p).trace = s.trace ++ (usedOpt s.hPrevProcess ++ .opened p.hProcess ::
      (closeOpt s.hPrevProcess ++ .used p.hProcess :: if p.basicStatus = statusSuccess then
        .used p.hProcess :: .used p.hProcess :: .used p.hProcess :: (threadColumns p).2 else [])) := by
  unfold reportStep
  split <;> simp_all

/-- After a prefix of the report from the open set `o`: only open handles passed and closed, and
    open now are `o` and the process handle the loop holds. -/
structure ReportTracks (o : Finset Handle) (s : ReportEnum) : Prop where
  disciplined : Disciplined o s.trace
  openAfter_eq : openAfter o s.trace = withPrev s.hPrevProcess o
  prev_fresh : ∀ y ∈ s.hPrevProcess, y ∉ o

section

variable {o : Finset Handle} {s : ReportEnum} {p : ReportProcessAnswers}

theorem ReportTracks.step (h : ReportTracks o s) (hf : Fresh o (reportStep s p).trace) :
    ReportTracks o (reportStep s p) := by
  have hin := Finset.mem_insert_self p.hProcess o
  have hrest : Moves (insert p.hProcess o) (insert p.hProcess o) (if p.basicStatus = statusSuccess then
      .used p.hProcess :: .used p.hProcess :: .used p.hProcess :: (threadColumns p).2 else []) := by
    split
    · exact Moves.used hin (Moves.used hin (Moves.used hin (restores_threadColumns p _)))
    · exact moves_nil
  rw [reportStep_trace] at hf
  have hx : p.hProcess ∉ o := fun hx => fresh_next (along_append.mp hf).2 (h.openAfter_eq ▸ mem_withPrev hx)
  obtain ⟨hd, ho⟩ :=
    Moves.extend h.disciplined h.openAfter_eq (Moves.next h.prev_fresh fun _ => Moves.used hin hrest) hf
  refine ⟨by rw [reportStep_trace]; exact hd, by rw [reportStep_trace, ho, reportStep_hPrevProcess, withPrev_some], ?_⟩
  rw [reportStep_hPrevProcess]
  rintro _ ⟨⟩
  exact hx

theorem reportTracks_init : ReportTracks o ⟨[], [], 0, none, []⟩ := ⟨trivial, rfl, nofun⟩

theorem reportStep_foldl_trace : ∀ (ps : List ReportProcessAnswers) (s : ReportEnum),
    s.trace <+: (ps.foldl reportStep s).trace
  | [], _ => List.prefix_refl _
  | p :: ps, s => List.IsPrefix.trans ⟨_, (reportStep_trace s p).symm⟩ (reportStep_foldl_trace ps _)

theorem ReportTracks.run : ∀ (ps : List ReportProcessAnswers) {s : ReportEnum}, ReportTracks o s →
    Fresh o (ps.foldl reportStep s).trace → ReportTracks o (ps.foldl reportStep s)
  | [], _, h, _ => h
  | p :: ps, s, h, hf =>
    ReportTracks.run ps (h.step (Along.of_initial hf (reportStep_foldl_trace ps (reportStep s p)))) hf

theorem ReportTracks.finish {terminal : NTSTATUS} (h : ReportTracks o s) (hf : Fresh o (reportFinish terminal s).trace) :
    Disciplined o (reportFinish terminal s).trace ∧ openAfter o (reportFinish terminal s).trace = o := by
  simp only [reportFinish, List.append_assoc] at hf ⊢
  exact Moves.extend h.disciplined h.openAfter_eq (moves_last h.prev_fresh) hf

end

theorem restores_fullThreadReport (a : ThreadReportAnswers) : Restores (fullThreadReport a).2.trace := by
  unfold fullThreadReport
  split
  · exact restores_nil
  split
  · exact restores_nil
  intro o hf
  have hpre : (a.processes.foldl reportStep ⟨[], [], 0, none, []⟩).trace <+: (reportFinish a.terminal
      (a.processes.foldl reportStep ⟨[], [], 0, none, []⟩)).trace := ⟨_, (List.append_assoc ..).symm⟩
  exact (ReportTracks.run a.processes reportTracks_init (Along.of_initial hf hpre)).finish hf

/-- Under a kernel that returns fresh handles, from any open set: the report passes and closes
    only open handles (each process's, `hProcessQI`, each thread's), closes every handle value as
    often as it opens it, and leaves open exactly what was open before. -/
theorem fullThreadReport_releases (a : ThreadReportAnswers) (o : Finset Handle)
    (hf : Fresh o (fullThreadReport a).2.trace) :
    Disciplined o (fullThreadReport a).2.trace ∧ openAfter o (fullThreadReport a).2.trace = o ∧
      ∀ x, (fullThreadReport a).2.trace.count (.closed x) = (fullThreadReport a).2.trace.count (.opened x) :=
  ⟨(restores_fullThreadReport a o hf).1, (restores_fullThreadReport a o hf).2,
    count_closed_eq_opened (restores_fullThreadReport a) hf⟩

theorem fullThreadReport_releases_sample : Fresh ∅ (fullThreadReport sampleThreadReport).2.trace ∧
    openAfter ∅ (fullThreadReport sampleThreadReport).2.trace = ∅ :=
  have hf : Fresh ∅ (fullThreadReport sampleThreadReport).2.trace := by decide
  ⟨hf, (fullThreadReport_releases sampleThreadReport ∅ (by exact hf)).2.1⟩

end ZombieFinder

import ZombieFinder.Attribution
import ZombieFinder.Comparator
import ZombieFinder.AllHandlesSystemwide

/-
  ZombieFinder.ZombieOwners — `ZombieOwners::Update` and `ZombieOwners::Update_Impl`
  (ZombieOwners.h, ZombieOwners.cpp) with `EnablePrivilege` (SecurityUtils).

  `Update` impersonates itself, enables the Debug Programs privilege, runs `Update_Impl` and
  reverts. `Update_Impl` clears the object's collections and counts, runs discovery on a local
  `ZombieHandles`, takes a snapshot on a local `AllHandlesSystemwide`, runs both loops of
  `ZombieFinder.Attribution`, appends the owners to `m_ownersSorted` and sorts it, and lists
  what is left of the PID lookup as unexplained. The destructors of the two locals release
  discovery's handles and the snapshot's buffer on every return. Everything the system answers
  is one `UpdateEnv`; the snapshot loop runs with `fuel` passes, and a run past them is `none`.
  The diagnostic dump (`sDiagDirectory`) writes files and changes no member; it is left out.

  Proved for every run that returns true:
  - `owners_reference`: the owners collection is the reference of `Attribution` built from the
    snapshot the run read, the entries of its last `STATUS_SUCCESS` answer, and the lookup
    discovery filled.
  - `unexplained_partition`: the zombies some owner holds are discovered ones, and the
    unexplained list holds exactly one `TID = 0` record for each other discovered PID.
  - `ownersSorted_sorted`: on a fresh object, the sorted view is a permutation of the owners in
    comparator order, and the comparator is a strict weak order for every case folding.
  And two runs the code gets wrong:
  - `ownersSorted_accumulates`: `m_ownersSorted` is never cleared, so a second `Update` on one
    object keeps the first call's entries next to its own.
  - `update_without_revert`: when `EnablePrivilege` fails after `ImpersonateSelf` succeeded,
    `Update` returns without `RevertToSelf`: the thread is left impersonating.
  The rest of the cleanup holds on every return (`update_releases`): under a kernel that returns
  fresh handles, every handle opened is closed as often as it was opened, and once
  `GetProcessHeap` succeeds no snapshot buffer is left. On every return of `Update_Impl`, the
  counts are discovery's (`updateImpl_counts`).
  - `ownersSorted_unique`: on a fresh object the sorted view is the only comparator-ordered
    arrangement of the owners, and `std::sort` gives it from any order of them.
  - `update_heap_ledger`: on every return the snapshot's heap calls keep `HeapMem`'s ledger, and
    once `GetProcessHeap` succeeds every block obtained has been freed, once.
-/

namespace ZombieFinder

/-- The object's members. `m_ownersSorted` holds pointers into `m_owners`; each is modelled by
    the owner it pointed to when it was pushed. -/
structure ZombieOwners where
  owners : ZombieOwnersCollection
  ownersSorted : List ZombieOwner
  unexplained : List ZombieProcessThreadInfo
  processEnumErrors : List ProcessEnumError
  nZombieProcessesAndThreads : Nat
  nZombieProcesses : Nat
  nTotalProcesses : Nat

def ZombieOwners.empty : ZombieOwners := ⟨∅, [], [], [], 0, 0, 0⟩

/-- `ERROR_SUCCESS`. -/
def errorSuccess : Nat := 0

/-- What `EnablePrivilege` gets: the thread token `OpenThreadToken` returns (`none` on failure),
    and `LookupPrivilegeValueW` and `AdjustTokenPrivileges` with `GetLastError` after each. -/
structure PrivilegeAnswers where
  hToken : Option Handle
  lookupPrivilegeValue : Bool
  lookupLastError : Nat
  adjustTokenPrivileges : Bool
  adjustLastError : Nat

/-- `EnablePrivilege(SE_DEBUG_NAME, sPrivError)`: its result and handle events. -/
def enablePrivilege (a : PrivilegeAnswers) : Bool × List HandleEvent :=
  match a.hToken with
  | none => (false, [])
  | some hToken =>
    if a.lookupPrivilegeValue then
      (a.adjustTokenPrivileges && a.adjustLastError == errorSuccess, [.opened hToken, .used hToken, .closed hToken])
    else (false, [.opened hToken, .closed hToken])

/-- Everything one `Update` call gets from the system: `ImpersonateSelf`, the privilege calls,
    discovery's and the snapshot's kernel answers, the heap, `GetCurrentProcessId`, and the
    answers about holder processes. -/
structure UpdateEnv where
  impersonateSelf : Bool
  privilege : PrivilegeAnswers
  discovery : DiscoveryAnswers
  snapshot : SnapshotKernel
  heap : HeapApi
  currentProcessId : Nat
  owner : OwnerAnswers

/-- How `Update_Impl` returned: its result (with `sErrorInfo`), the object, the handle events,
    the heap calls, and `m_Mem` once the local `AllHandlesSystemwide` is destroyed. -/
structure ImplRun where
  ret : Except ErrorInfo Unit
  obj : ZombieOwners
  trace : List HandleEvent
  heapCalls : List HeapCall
  mem : HeapMem

/-- How `Update` returned: as `ImplRun`, and whether the thread still impersonates. -/
structure UpdateRun where
  ret : Except ErrorInfo Unit
  obj : ZombieOwners
  impersonating : Bool
  trace : List HandleEvent
  heapCalls : List HeapCall
  mem : HeapMem

/-- The entries the loops over `ix < NumberOfHandles()` read through `HandleInfo(ix)`. -/
def snapshotEntries (a : AllHandlesSystemwide) : List SystemHandleTableEntryInfoEx :=
  (List.range a.numberOfHandles).filterMap a.handleInfo

namespace ZombieOwners

/-- `Update_Impl`'s first lines: `m_owners`, `m_unexplained` and the counts cleared. -/
def reset (o : ZombieOwners) : ZombieOwners :=
  { o with owners := ∅, unexplained := [], nZombieProcessesAndThreads := 0, nZombieProcesses := 0,
           nTotalProcesses := 0 }

/-- After discovery: its errors (`m_processEnumErrors` is passed by reference and cleared there)
    and, when it succeeded, its counts. -/
def discovered (o : ZombieOwners) (d : Except ErrorInfo Unit × Enum) : ZombieOwners :=
  match d.1 with
  | .error _ => { o.reset with processEnumErrors := d.2.processEnumErrors }
  | .ok () =>
    { o.reset with
      processEnumErrors := d.2.processEnumErrors
      nZombieProcessesAndThreads := d.2.lookup.keys.length
      nZombieProcesses := d.2.nZombieProcesses
      nTotalProcesses := d.2.nTotalProcesses }

/-- After both loops: the owners, the sorted view (the owners pushed after what it held), and the
    unexplained zombies. -/
def correlated (o : ZombieOwners) (towlower : WChar → WChar) (st : Attribution) : ZombieOwners :=
  { o with
    owners := st.owners
    ownersSorted := stdSort towlower (o.ownersSorted ++ values st.owners)
    unexplained := values st.pidLookup }

/-- `ZombieOwners::Update_Impl(nAgeInSeconds, …)`. -/
def updateImpl (lib : Lib) (env : UpdateEnv) (nAgeInSeconds : UInt64) (fuel : Nat) (o : ZombieOwners) :
    Option ImplRun :=
  let d := acquireNewHandlesToExistingZombies nAgeInSeconds env.discovery ZombieHandles.empty
  let release := d.2.zombieHandles.releaseAcquiredHandles.2
  match d.1 with
  | .error e => some ⟨.error e, o.discovered d, d.2.trace ++ release, [], HeapMem.empty⟩
  | .ok () =>
    match update env.snapshot env.heap fuel AllHandlesSystemwide.empty [] with
    | .running _ => none
    | .returned ret s =>
      let fin := HeapMem.dealloc env.heap s.obj.mMem s.calls
      match ret with
      | .error e => some ⟨.error e, o.discovered d, d.2.trace ++ release, fin.calls, fin.mem⟩
      | .ok () =>
        let st := attributeHandles lib env.owner env.currentProcessId d.2.lookup (snapshotEntries s.obj)
          d.2.pidLookup
        some ⟨.ok (), (o.discovered d).correlated lib.towlower st, d.2.trace ++ st.trace ++ release,
          fin.calls, fin.mem⟩

/-- `ZombieOwners::Update(nAgeInSeconds, …)`. -/
def update (lib : Lib) (env : UpdateEnv) (nAgeInSeconds : UInt64) (fuel : Nat) (o : ZombieOwners) :
    Option UpdateRun :=
  if !env.impersonateSelf then some ⟨.error .impersonateSelfFailed, o, false, [], [], HeapMem.empty⟩
  else if !(enablePrivilege env.privilege).1 then
    some ⟨.error .cannotEnableDebugPrivilege, o, true, (enablePrivilege env.privilege).2, [], HeapMem.empty⟩
  else (updateImpl lib env nAgeInSeconds fuel o).map fun r =>
    ⟨r.ret, r.obj, false, (enablePrivilege env.privilege).2 ++ r.trace, r.heapCalls, r.mem⟩

/-! ## Runs that return true -/

section Runs

variable {lib : Lib} {env : UpdateEnv} {t : UInt64} {fuel : Nat} {o : ZombieOwners} {r : ImplRun}

@[simp] theorem correlated_owners (o : ZombieOwners) (f : WChar → WChar) (st : Attribution) :
    (o.correlated f st).owners = st.owners := rfl
@[simp] theorem correlated_ownersSorted (o : ZombieOwners) (f : WChar → WChar) (st : Attribution) :
    (o.correlated f st).ownersSorted = stdSort f (o.ownersSorted ++ values st.owners) := rfl
@[simp] theorem correlated_unexplained (o : ZombieOwners) (f : WChar → WChar) (st : Attribution) :
    (o.correlated f st).unexplained = values st.pidLookup := rfl
@[simp] theorem discovered_ownersSorted (o : ZombieOwners) (d : Except ErrorInfo Unit × Enum) :
    (o.discovered d).ownersSorted = o.ownersSorted := by
  unfold discovered; split <;> rfl

/-- How a run of `Update_Impl` that gets past the snapshot loop returns: discovery failed; or the
    snapshot failed; or both succeeded and the object is what both loops, the sort and the
    unexplained list make of them. The locals' destructors release discovery's handles and the
    snapshot's buffer on every path. -/
theorem updateImpl_inv (h : updateImpl lib env t fuel o = some r) :
    let d := acquireNewHandlesToExistingZombies t env.discovery ZombieHandles.empty
    let release := d.2.zombieHandles.releaseAcquiredHandles.2
    (∃ e, d.1 = .error e ∧ r = ⟨.error e, o.discovered d, d.2.trace ++ release, [], HeapMem.empty⟩) ∨
    ∃ s, d.1 = .ok () ∧
      let fin := HeapMem.dealloc env.heap s.obj.mMem s.calls
      let st := attributeHandles lib env.owner env.currentProcessId d.2.lookup (snapshotEntries s.obj) d.2.pidLookup
      ((∃ e, ZombieFinder.update env.snapshot env.heap fuel AllHandlesSystemwide.empty [] = .returned (.error e) s ∧
          r = ⟨.error e, o.discovered d, d.2.trace ++ release, fin.calls, fin.mem⟩) ∨
        (ZombieFinder.update env.snapshot env.heap fuel AllHandlesSystemwide.empty [] = .returned (.ok ()) s ∧
          r = ⟨.ok (), (o.discovered d).correlated lib.towlower st, d.2.trace ++ st.trace ++ release,
            fin.calls, fin.mem⟩)) := by
  unfold updateImpl at h
  cases hd : (acquireNewHandlesToExistingZombies t env.discovery ZombieHandles.empty).1 with
  | error e => simp only [hd] at h; cases h; exact .inl ⟨e, hd, rfl⟩
  | ok u =>
    simp only [hd] at h
    cases hs : ZombieFinder.update env.snapshot env.heap fuel AllHandlesSystemwide.empty [] with
    | running s => simp only [hs] at h; cases h
    | returned ret s =>
      simp only [hs] at h
      cases ret with
      | error e => cases h; exact .inr ⟨s, hd, .inl ⟨e, rfl, rfl⟩⟩
      | ok u' => cases h; exact .inr ⟨s, hd, .inr ⟨rfl, rfl⟩⟩

/-- A run of `Update_Impl` that returns true: discovery and the snapshot succeeded, and the object
    is what both loops, the sort and the unexplained list make of them. -/
theorem updateImpl_ok (h : updateImpl lib env t fuel o = some r) (hok : r.ret = .ok ()) :
    ∃ s, ZombieFinder.update env.snapshot env.heap fuel AllHandlesSystemwide.empty [] = .returned (.ok ()) s ∧
      (acquireNewHandlesToExistingZombies t env.discovery ZombieHandles.empty).1 = .ok () ∧
      r.obj = (o.discovered (acquireNewHandlesToExistingZombies t env.discovery ZombieHandles.empty)).correlated
        lib.towlower (attributeHandles lib env.owner env.currentProcessId
          (acquireNewHandlesToExistingZombies t env.discovery ZombieHandles.empty).2.lookup (snapshotEntries s.obj)
          (acquireNewHandlesToExistingZombies t env.discovery ZombieHandles.empty).2.pidLookup) := by
  obtain ⟨e, -, rfl⟩ | ⟨s, hd, ⟨e, -, rfl⟩ | ⟨hs, rfl⟩⟩ := updateImpl_inv h
  · cases hok
  · cases hok
  · exact ⟨s, hs, hd, rfl⟩

/-- Every return of `Update_Impl` leaves the counts discovery gives: when the handles discovery
    keeps are distinct, the zombie count is the number of recorded zombies, and the lookup's size,
    `ZombieProcessAndThreadCount()`, adds the `nThreads` of their records. -/
theorem updateImpl_counts (hd : (keptHandles (recordedZombies t env.discovery)).Nodup)
    (h : updateImpl lib env t fuel o = some r) :
    r.obj.nZombieProcesses = (recordedZombies t env.discovery).length ∧
    r.obj.nZombieProcessesAndThreads =
      r.obj.nZombieProcesses + ((recordedZombies t env.discovery).map fun z => (zombieRecord z).nThreads).sum := by
  have hc := acquire_lookup_counts t env.discovery ZombieHandles.empty hd
  have hdisc : (o.discovered (acquireNewHandlesToExistingZombies t env.discovery ZombieHandles.empty)).nZombieProcesses =
        (recordedZombies t env.discovery).length ∧
      (o.discovered (acquireNewHandlesToExistingZombies t env.discovery ZombieHandles.empty)).nZombieProcessesAndThreads =
        (o.discovered (acquireNewHandlesToExistingZombies t env.discovery ZombieHandles.empty)).nZombieProcesses +
          ((recordedZombies t env.discovery).map fun z => (zombieRecord z).nThreads).sum := by
    unfold discovered
    cases hr : (acquireNewHandlesToExistingZombies t env.discovery ZombieHandles.empty).1 with
    | error => rw [recordedZombies_of_error hr]; exact ⟨rfl, rfl⟩
    | ok => exact ⟨hc.1, hc.2.2.2⟩
  obtain ⟨e, -, rfl⟩ | ⟨s, -, ⟨e, -, rfl⟩ | ⟨-, rfl⟩⟩ := updateImpl_inv h <;> exact hdisc

/-- The owners collection a run of `Update_Impl` that returns true leaves is the reference built
    from the snapshot entries `S` the run read (the entries of the last data query's
    `STATUS_SUCCESS` answer), the handle lookup `L` discovery filled and the current process `c`:
    its keys are the owning PIDs of the attributed entries, and each record holds its PID, the
    answers about its process, and its attributed entries in snapshot order; no record is empty,
    and none holds one of discovery's own handles. -/
theorem owners_reference (h : updateImpl lib env t fuel o = some r) (hok : r.ret = .ok ()) :
    ∃ s, ZombieFinder.update env.snapshot env.heap fuel AllHandlesSystemwide.empty [] = .returned (.ok ()) s ∧
      (∃ x, s.attempts.getLast? = some x ∧ x.answer.status = statusSuccess ∧
        snapshotEntries s.obj = x.answer.handles) ∧
      let S := snapshotEntries s.obj
      let L := (acquireNewHandlesToExistingZombies t env.discovery ZombieHandles.empty).2.lookup
      let c := env.currentProcessId
      (∀ p, p ∈ r.obj.owners ↔ ∃ e ∈ S, Attributed S L c e ∧ e.uniqueProcessId = p) ∧
      ∀ p ow, r.obj.owners.lookup p = some ow →
        ow.pid = p ∧ ow.zombieOwningInfo = refInfos S L c p ∧ ow.zombieOwningInfo ≠ [] ∧
        (∀ oi ∈ ow.zombieOwningInfo, ¬(p = c ∧ oi.handleValue ∈ L)) ∧
        ow.sProcessImagePath = (env.owner.imagePathFromPid p).sProcessImagePath ∧
        ow.sExeName = lib.getFileNameFromFilePath (env.owner.imagePathFromPid p).sProcessImagePath ∧
        ow.pServiceList = env.owner.servicesByPid p := by
  obtain ⟨s, hs, -, hobj⟩ := updateImpl_ok h hok
  refine ⟨s, hs, update_ok_table _ _ hs, ?_⟩
  intro S L c
  have spec := attributeHandles_spec lib env.owner c L S
    (acquireNewHandlesToExistingZombies t env.discovery ZombieHandles.empty).2.pidLookup
  rw [hobj, correlated_owners]
  refine ⟨spec.owners_mem, fun p ow hp => ?_⟩
  have hmem : p ∈ (attributeHandles lib env.owner c L S _).owners := AList.lookup_isSome.mp (by rw [hp]; rfl)
  obtain rfl := spec.owners_record p ow hp
  refine ⟨rfl, rfl, infosOf_ne_nil ((spec.owners_mem p).mp hmem), fun oi hoi => ?_, rfl, rfl, rfl⟩
  simp only [infosOf, List.mem_filterMap, List.mem_filter, decide_eq_true_eq] at hoi
  obtain ⟨e, ⟨-, ha, rfl⟩, hm⟩ := hoi
  obtain ⟨z, -, rfl⟩ := Option.map_eq_some'.mp hm
  exact ha.2

/-- How `Update` returns: `ImpersonateSelf` failed; `EnablePrivilege` failed, the thread still
    impersonating; or `Update_Impl` ran and the thread reverted. -/
theorem update_inv {u : UpdateRun} (h : update lib env t fuel o = some u) :
    u = ⟨.error .impersonateSelfFailed, o, false, [], [], HeapMem.empty⟩ ∨
    u = ⟨.error .cannotEnableDebugPrivilege, o, true, (enablePrivilege env.privilege).2, [], HeapMem.empty⟩ ∨
    ∃ r, updateImpl lib env t fuel o = some r ∧
      u = ⟨r.ret, r.obj, false, (enablePrivilege env.privilege).2 ++ r.trace, r.heapCalls, r.mem⟩ := by
  unfold update at h
  split at h
  · cases h; exact .inl rfl
  split at h
  · cases h; exact .inr (.inl rfl)
  · obtain ⟨r, hr, rfl⟩ := Option.map_eq_some'.mp h
    exact .inr (.inr ⟨r, hr, rfl⟩)

/-- A call of `Update` that returns true ran `Update_Impl` to a true result and keeps its object. -/
theorem update_ok {u : UpdateRun} (h : update lib env t fuel o = some u) (hok : u.ret = .ok ()) :
    ∃ r, updateImpl lib env t fuel o = some r ∧ r.ret = .ok () ∧ u.obj = r.obj := by
  obtain rfl | rfl | ⟨r, hr, rfl⟩ := update_inv h
  · cases hok
  · cases hok
  · exact ⟨r, hr, hok, rfl⟩

/-- On a fresh object, every zombie record a run that returns true leaves, in the sorted view or in
    the unexplained list, carries the PID and exit time of a process discovery found qualifying. -/
theorem updateImpl_recordOf (h : updateImpl lib env t fuel ZombieOwners.empty = some r)
    (hok : r.ret = .ok ()) :
    (∀ ow ∈ r.obj.ownersSorted, ∀ oi ∈ ow.zombieOwningInfo,
      RecordOf t env.discovery.now env.discovery.processes oi.zombieInfo) ∧
    ∀ v ∈ r.obj.unexplained, RecordOf t env.discovery.now env.discovery.processes v := by
  obtain ⟨s, -, -, hobj⟩ := updateImpl_ok h hok
  obtain ⟨hL, hD⟩ := acquire_recordOf t env.discovery ZombieHandles.empty
  obtain ⟨ho, hu⟩ := attributeHandles_records lib env.owner env.currentProcessId
    (acquireNewHandlesToExistingZombies t env.discovery ZombieHandles.empty).2.lookup (snapshotEntries s.obj)
    (acquireNewHandlesToExistingZombies t env.discovery ZombieHandles.empty).2.pidLookup
  rw [hobj]
  simp only [correlated_ownersSorted, correlated_unexplained, discovered_ownersSorted]
  exact ⟨fun ow how oi hoi => hL _ (ho ow ((stdSort_perm _ _).mem_iff.mp how) oi hoi),
    fun v hv => hD v (hu v hv)⟩

/-- On a fresh object, every zombie record a run that returns true leaves, in the sorted view or in
    the unexplained list, is one of discovery's, from its handle lookup or its PID lookup. -/
theorem updateImpl_records_discovered (h : updateImpl lib env t fuel ZombieOwners.empty = some r)
    (hok : r.ret = .ok ()) :
    let d := (acquireNewHandlesToExistingZombies t env.discovery ZombieHandles.empty).2
    (∀ ow ∈ r.obj.ownersSorted, ∀ oi ∈ ow.zombieOwningInfo, oi.zombieInfo ∈ values d.lookup ++ values d.pidLookup) ∧
    ∀ v ∈ r.obj.unexplained, v ∈ values d.lookup ++ values d.pidLookup := by
  intro d
  obtain ⟨s, -, -, hobj⟩ := updateImpl_ok h hok
  obtain ⟨ho, hu⟩ := attributeHandles_records lib env.owner env.currentProcessId d.lookup (snapshotEntries s.obj)
    d.pidLookup
  rw [hobj]
  simp only [correlated_ownersSorted, correlated_unexplained, discovered_ownersSorted]
  exact ⟨fun ow how oi hoi => List.mem_append_left _ (ho ow ((stdSort_perm _ _).mem_iff.mp how) oi hoi),
    fun v hv => List.mem_append_right _ (hu v hv)⟩

/-- After a run of `Update_Impl` that returns true, the zombies some owner holds are among those
    discovery placed in its PID lookup `D`, and the unexplained list holds exactly one record,
    with `TID = 0`, for each PID of `D` no owner holds, and none for any other PID. -/
theorem unexplained_partition (h : updateImpl lib env t fuel o = some r) (hok : r.ret = .ok ()) :
    let D := (acquireNewHandlesToExistingZombies t env.discovery ZombieHandles.empty).2.pidLookup
    let P := fun k => ∃ ow ∈ values r.obj.owners, ∃ oi ∈ ow.zombieOwningInfo, oi.zombieInfo.pid = k
    (∀ k, P k → k ∈ D) ∧
    (∀ k ∈ D, ¬P k → (r.obj.unexplained.map (·.pid)).count k = 1) ∧
    (∀ k, P k ∨ k ∉ D → (r.obj.unexplained.map (·.pid)).count k = 0) ∧
    ∀ v ∈ r.obj.unexplained, v.tid = 0 := by
  obtain ⟨s, -, -, hobj⟩ := updateImpl_ok h hok
  obtain ⟨hsub, hcount, htid⟩ := attributeHandles_unexplained lib env.owner env.currentProcessId
    (acquireNewHandlesToExistingZombies t env.discovery ZombieHandles.empty).2.lookup (snapshotEntries s.obj)
    (acquireNewHandlesToExistingZombies t env.discovery ZombieHandles.empty).2.pidLookup
    (acquire_discovered t env.discovery ZombieHandles.empty)
  rw [hobj]
  simp only [correlated_owners, correlated_unexplained, owned_pid_iff]
  refine ⟨hsub, fun k hk hp => ?_, fun k hk => ?_, htid⟩
  · rw [hcount, if_pos ⟨hk, hp⟩]
  · rw [hcount, if_neg fun h' => hk.elim h'.2 (absurd h'.1)]

/-- On a fresh object, the sorted view a run that returns true leaves is `std::sort` of the owners:
    a permutation of them with every adjacent pair in comparator order. -/
theorem ownersSorted_fresh (h : updateImpl lib env t fuel ZombieOwners.empty = some r) (hok : r.ret = .ok ()) :
    r.obj.ownersSorted.Perm (values r.obj.owners) ∧
    r.obj.ownersSorted.Chain' fun A B => zombieOwnerComparator lib.towlower A B = true := by
  obtain ⟨s, -, -, hobj⟩ := updateImpl_ok h hok
  have spec := attributeHandles_spec lib env.owner env.currentProcessId
    (acquireNewHandlesToExistingZombies t env.discovery ZombieHandles.empty).2.lookup (snapshotEntries s.obj)
    (acquireNewHandlesToExistingZombies t env.discovery ZombieHandles.empty).2.pidLookup
  have hnd := values_map_eq_keys (f := ZombieOwner.pid) fun k ow hk => by rw [spec.owners_record k ow hk]; rfl
  rw [hobj]
  simp only [correlated_owners, correlated_ownersSorted, discovered_ownersSorted]
  refine ⟨stdSort_perm _ _, stdSort_chain _ ?_⟩
  rw [ZombieOwners.empty, List.nil_append, hnd]
  exact AList.keys_nodup _

/-- On a freshly constructed object, a run of `Update_Impl` that returns true leaves a sorted
    view holding each owner once and nothing else, with every adjacent pair in comparator order;
    the comparator is a strict weak order for every case folding, total on distinct PIDs. -/
theorem ownersSorted_sorted (h : updateImpl lib env t fuel ZombieOwners.empty = some r) (hok : r.ret = .ok ()) :
    r.obj.ownersSorted.Perm (values r.obj.owners) ∧
    r.obj.ownersSorted.Chain' (fun A B =>
      A.zombieOwningInfo.length > B.zombieOwningInfo.length ∨
      (A.zombieOwningInfo.length = B.zombieOwningInfo.length ∧
        wcsicmp lib.towlower (wideChars A.sExeName) (wideChars B.sExeName) = .lt) ∨
      (A.zombieOwningInfo.length = B.zombieOwningInfo.length ∧
        wcsicmp lib.towlower (wideChars A.sExeName) (wideChars B.sExeName) = .eq ∧ A.pid < B.pid)) ∧
    ∀ towlower : WChar → WChar,
      (∀ a, zombieOwnerComparator towlower a a = false) ∧
      (∀ a b c, zombieOwnerComparator towlower a b = true → zombieOwnerComparator towlower b c = true →
        zombieOwnerComparator towlower a c = true) ∧
      (∀ a b c, zombieOwnerComparator towlower a b = false ∧ zombieOwnerComparator towlower b a = false →
        zombieOwnerComparator towlower b c = false ∧ zombieOwnerComparator towlower c b = false →
        zombieOwnerComparator towlower a c = false ∧ zombieOwnerComparator towlower c a = false) ∧
      (∀ a b, a.pid ≠ b.pid →
        zombieOwnerComparator towlower a b = true ∨ zombieOwnerComparator towlower b a = true) := by
  obtain ⟨hp, hc⟩ := ownersSorted_fresh h hok
  exact ⟨hp, hc.imp fun a b hab => (comparator_eq_true_iff _ a b).mp hab,
    fun f => ⟨comparator_irrefl f, fun _ _ _ => comparator_trans f, fun _ _ _ => comparator_incomparable_trans f,
      fun _ _ => comparator_total f⟩⟩

/-- A run that returns true keys each owner by its PID, so the owners' PIDs are distinct. -/
theorem owners_pid_nodup (h : updateImpl lib env t fuel o = some r) (hok : r.ret = .ok ()) :
    ((values r.obj.owners).map (·.pid)).Nodup := by
  obtain ⟨s, -, -, hobj⟩ := updateImpl_ok h hok
  have spec := attributeHandles_spec lib env.owner env.currentProcessId
    (acquireNewHandlesToExistingZombies t env.discovery ZombieHandles.empty).2.lookup (snapshotEntries s.obj)
    (acquireNewHandlesToExistingZombies t env.discovery ZombieHandles.empty).2.pidLookup
  rw [hobj, correlated_owners, values_map_eq_keys fun k ow hk => by rw [spec.owners_record k ow hk]; rfl]
  exact AList.keys_nodup _

/-- On a fresh object, the sorted view is fixed by the owners alone. `m_owners` is a hash map,
    iterated in an order the code does not control: sorting its owners in any order gives the
    same view, and so does any algorithm that leaves every adjacent pair in comparator order. -/
theorem ownersSorted_unique (h : updateImpl lib env t fuel ZombieOwners.empty = some r) (hok : r.ret = .ok ())
    (l : List ZombieOwner) (hp : l.Perm (values r.obj.owners)) :
    stdSort lib.towlower l = r.obj.ownersSorted ∧
    (l.Chain' (fun A B => zombieOwnerComparator lib.towlower A B = true) → l = r.obj.ownersSorted) := by
  obtain ⟨hperm, hchain⟩ := ownersSorted_fresh h hok
  have hl : l.Perm r.obj.ownersSorted := hp.trans hperm.symm
  refine ⟨eq_of_perm_of_chain _ ((stdSort_perm _ l).trans hl) (stdSort_chain _ ?_) hchain,
    fun hc => eq_of_perm_of_chain _ hl hc hchain⟩
  exact (hp.map _).nodup_iff.mpr (owners_pid_nodup h hok)

/-- Apart from the sorted view, what `Update_Impl` leaves does not depend on the object's members
    before the call. -/
theorem correlated_discovered_eq (o o' : ZombieOwners) (d : Except ErrorInfo Unit × Enum)
    (f : WChar → WChar) (st : Attribution) :
    { (o.discovered d).correlated f st with ownersSorted := [] } =
      { (o'.discovered d).correlated f st with ownersSorted := [] } := by
  unfold discovered; split <;> rfl

/-- `m_ownersSorted` is never cleared: after a run of `Update_Impl` that returns true, every
    member but the sorted view is what the same run on a freshly constructed object leaves, and
    the sorted view holds the fresh run's entries together with every entry the object held
    before the call. -/
theorem ownersSorted_accumulates {r₀ : ImplRun} (h : updateImpl lib env t fuel o = some r)
    (h₀ : updateImpl lib env t fuel ZombieOwners.empty = some r₀) (hok : r.ret = .ok ()) :
    r₀.ret = .ok () ∧
    { r.obj with ownersSorted := [] } = { r₀.obj with ownersSorted := [] } ∧
    r.obj.ownersSorted.Perm (o.ownersSorted ++ r₀.obj.ownersSorted) := by
  obtain ⟨s, hs, hd, hobj⟩ := updateImpl_ok h hok
  obtain ⟨e, hd₀, rfl⟩ | ⟨s₀, -, ⟨e, hs₀, rfl⟩ | ⟨hs₀, rfl⟩⟩ := updateImpl_inv h₀
  · rw [hd] at hd₀; cases hd₀
  · rw [hs] at hs₀; cases hs₀
  obtain rfl : s₀ = s := by
    rw [hs] at hs₀; cases hs₀; rfl
  refine ⟨rfl, by rw [hobj]; exact correlated_discovered_eq _ _ _ _ _, ?_⟩
  rw [hobj]
  simp only [correlated_ownersSorted, discovered_ownersSorted]
  exact (stdSort_perm _ _).trans (List.Perm.append_left _ (stdSort_perm _ _).symm)

/-- Every run of `Update_Impl` starts with discovery's handle events. -/
theorem discovery_trace_prefix (h : updateImpl lib env t fuel o = some r) :
    (acquireNewHandlesToExistingZombies t env.discovery ZombieHandles.empty).2.trace <+: r.trace := by
  obtain ⟨e, -, rfl⟩ | ⟨s, -, ⟨e, -, rfl⟩ | ⟨-, rfl⟩⟩ := updateImpl_inv h
  · exact List.prefix_append _ _
  · exact List.prefix_append _ _
  · exact (List.prefix_append _ _).trans (List.prefix_append _ _)

end Runs

/-! ## A sample run

  Discovery finds one zombie (PID 100, process handle 8, one thread); the snapshot's probe asks
  for 80 bytes and the query then returns two entries for its object `0xA`: the current
  process's own handle 8, and handle `0x44` held by PID 300. -/

/-- The CRT's `towlower` in the "C" locale: the ASCII capitals to lowercase. -/
def asciiTowlower (u : WChar) : WChar := if 65 ≤ u ∧ u ≤ 90 then u + 32 else u

def sampleLib : Lib := ⟨id, asciiTowlower⟩

def sampleSnapshot : SnapshotKernel :=
  ⟨true, true, fun i _ => if i = 0 then ⟨statusInfoLengthMismatch, 80, []⟩
    else ⟨statusSuccess, 0, [⟨0xA, 7, 8, 7⟩, ⟨0xA, 300, 0x44, 7⟩]⟩⟩

def sampleEnv : UpdateEnv :=
  ⟨true, ⟨some 4, true, 0, true, 0⟩, sampleDiscovery, sampleSnapshot, healthyHeap, 7,
    ⟨fun _ => ⟨none, "holder.exe"⟩, fun _ => none⟩⟩

/-! ## A run with several owners

  Discovery finds three zombies, created at 30 and exited at 10000000 (`now` is 50000000):
  PID 100, whose parent PID 40 is a process created at 20, before it; PID 102, whose parent PID
  41 a process created at 35, after it, has reused; and PID 104. The current process's handles
  8, 20 and 28 to them name the objects `0xA`, `0xB` and `0xC`; `0xA` is also held by PIDs 301
  and 302, `0xB` by PIDs 302 and 300, and `0xC` by no other process. PIDs 300 and 301 run
  `A.EXE` and `a.exe`, which `_wcsicmp` does not tell apart, and PID 302 runs `B.exe`. -/

def heldDiscovery : DiscoveryAnswers where
  ntdllModule := true
  ntdllExports := true
  now := 50000000
  processes :=
    [⟨8, statusSuccess, true, 100, 40, 30, 10000000, ⟨some 60, some 20, some "parent.exe"⟩, statusSuccess,
        "z1.exe", some 12, [(16, 200)]⟩,
     ⟨20, statusSuccess, true, 102, 41, 30, 10000000, ⟨some 64, some 35, some "reused.exe"⟩, statusSuccess,
        "z2.exe", none, []⟩,
     ⟨28, statusSuccess, true, 104, 4, 30, 10000000, ⟨none, none, none⟩, statusSuccess, "z3.exe", none, []⟩]
  terminal := statusNoMoreEntries
  terminal_ne := by decide

def heldSnapshot : SnapshotKernel :=
  ⟨true, true, fun i _ => if i = 0 then ⟨statusInfoLengthMismatch, 400, []⟩
    else ⟨statusSuccess, 0, [⟨0xA, 7, 8, 7⟩, ⟨0xB, 7, 20, 7⟩, ⟨0xC, 7, 28, 7⟩, ⟨0xA, 301, 0x48, 7⟩,
      ⟨0xA, 302, 0x40, 7⟩, ⟨0xB, 302, 0x44, 7⟩, ⟨0xB, 300, 0x4C, 7⟩]⟩⟩

def heldEnv : UpdateEnv :=
  ⟨true, ⟨some 4, true, 0, true, 0⟩, heldDiscovery, heldSnapshot, healthyHeap, 7,
    ⟨fun pid => ⟨none, if pid = 300 then "A.EXE" else if pid = 301 then "a.exe" else "B.exe"⟩, fun _ => none⟩⟩

theorem owners_reference_sample :
    ∃ r, updateImpl sampleLib sampleEnv 0 1 ZombieOwners.empty = some r ∧ r.ret = .ok () ∧
      ∃ s, ZombieFinder.update sampleSnapshot healthyHeap 1 AllHandlesSystemwide.empty [] = .returned (.ok ()) s ∧
        (∃ x, s.attempts.getLast? = some x ∧ x.answer.status = statusSuccess ∧
          snapshotEntries s.obj = x.answer.handles) ∧
        ∀ p, p ∈ r.obj.owners ↔ ∃ e ∈ snapshotEntries s.obj,
          Attributed (snapshotEntries s.obj) (acquireNewHandlesToExistingZombies 0 sampleDiscovery
            ZombieHandles.empty).2.lookup 7 e ∧ e.uniqueProcessId = p :=
  ⟨_, rfl, rfl, let ⟨s, hs, hx, hmem, _⟩ := @owners_reference sampleLib sampleEnv 0 1 ZombieOwners.empty _ rfl rfl
    ⟨s, hs, hx, hmem⟩⟩

/-- PIDs 100 and 102 are held and PID 104 is not: only 104 is unexplained, once, as its
    `TID = 0` record. -/
theorem unexplained_partition_sample :
    ∃ r, updateImpl sampleLib heldEnv 0 1 ZombieOwners.empty = some r ∧ r.ret = .ok () ∧
      (r.obj.unexplained.map (·.pid)).count 100 = 0 ∧ (r.obj.unexplained.map (·.pid)).count 102 = 0 ∧
      (r.obj.unexplained.map (·.pid)).count 104 = 1 ∧ ∀ v ∈ r.obj.unexplained, v.tid = 0 :=
  let ⟨_, hfree, hheld, htid⟩ := @unexplained_partition sampleLib heldEnv 0 1 ZombieOwners.empty _ rfl rfl
  ⟨_, rfl, rfl, hheld 100 (.inl (by decide)), hheld 102 (.inl (by decide)), hfree 104 (by decide) (by decide),
    htid⟩

/-- The hash map yields PIDs 300, 302, 301; the sorted view puts PID 302 (two handles) first,
    then PIDs 300 and 301 (one handle each, names equal up to case) by PID. -/
theorem ownersSorted_sorted_sample :
    ∃ r, updateImpl sampleLib heldEnv 0 1 ZombieOwners.empty = some r ∧ r.ret = .ok () ∧
      wcsicmp sampleLib.towlower (wideChars "A.EXE") (wideChars "a.exe") = .eq ∧
      (values r.obj.owners).map (·.pid) = [300, 302, 301] ∧ r.obj.ownersSorted.map (·.pid) = [302, 300, 301] ∧
      r.obj.ownersSorted.Perm (values r.obj.owners) ∧
      r.obj.ownersSorted.Chain' (fun A B =>
        A.zombieOwningInfo.length > B.zombieOwningInfo.length ∨
        (A.zombieOwningInfo.length = B.zombieOwningInfo.length ∧
          wcsicmp sampleLib.towlower (wideChars A.sExeName) (wideChars B.sExeName) = .lt) ∨
        (A.zombieOwningInfo.length = B.zombieOwningInfo.length ∧
          wcsicmp sampleLib.towlower (wideChars A.sExeName) (wideChars B.sExeName) = .eq ∧ A.pid < B.pid)) :=
  let ⟨hperm, hchain, _⟩ := @ownersSorted_sorted sampleLib heldEnv 0 1 _ rfl rfl
  ⟨_, rfl, rfl, by decide, rfl, rfl, hperm, hchain⟩

/-- Sorting the owners in the reverse of the hash map's order gives the same view. -/
theorem ownersSorted_unique_sample :
    ∃ r, updateImpl sampleLib heldEnv 0 1 ZombieOwners.empty = some r ∧ r.ret = .ok () ∧
      (values r.obj.owners).reverse.map (·.pid) = [301, 302, 300] ∧
      (values r.obj.owners).reverse.Perm (values r.obj.owners) ∧
      stdSort sampleLib.towlower (values r.obj.owners).reverse = r.obj.ownersSorted ∧
      ((values r.obj.owners).reverse.Chain' (fun A B => zombieOwnerComparator sampleLib.towlower A B = true) →
        (values r.obj.owners).reverse = r.obj.ownersSorted) ∧
      r.obj.ownersSorted.map (·.pid) = [302, 300, 301] :=
  let ⟨hsort, hchain⟩ := @ownersSorted_unique sampleLib heldEnv 0 1 _ rfl rfl _ (List.reverse_perm _)
  ⟨_, rfl, rfl, rfl, List.reverse_perm _, hsort, hchain, rfl⟩

/-- Two calls on one object: the second leaves two entries in the sorted view for its one owner. -/
theorem ownersSorted_accumulates_twice :
    ∃ r₁ r₂, updateImpl sampleLib sampleEnv 0 1 ZombieOwners.empty = some r₁ ∧
      updateImpl sampleLib sampleEnv 0 1 r₁.obj = some r₂ ∧ r₂.ret = .ok () ∧
      r₂.obj.owners.entries.length = 1 ∧ r₂.obj.ownersSorted.length = 2 ∧
      r₂.obj.ownersSorted.Perm (r₁.obj.ownersSorted ++ r₁.obj.ownersSorted) :=
  ⟨_, _, rfl, rfl, rfl, rfl, rfl,
    (@ownersSorted_accumulates sampleLib sampleEnv 0 1 _ _ _ rfl rfl rfl).2.2⟩

/-! ## Leaving the thread impersonating -/

theorem enablePrivilege_eq_false_iff (a : PrivilegeAnswers) :
    (enablePrivilege a).1 = false ↔ a.hToken = none ∨ a.lookupPrivilegeValue = false ∨
      a.adjustTokenPrivileges = false ∨ a.adjustLastError ≠ errorSuccess := by
  unfold enablePrivilege
  cases a.hToken <;> cases a.lookupPrivilegeValue <;> cases a.adjustTokenPrivileges <;> simp

/-- When `ImpersonateSelf` succeeded and `EnablePrivilege` fails, by any of its failure paths,
    `Update` returns false on its early exit: `RevertToSelf` is never called and the thread is
    left impersonating. -/
theorem update_without_revert (lib : Lib) (env : UpdateEnv) (t : UInt64) (fuel : Nat) (o : ZombieOwners)
    (hi : env.impersonateSelf = true)
    (hp : env.privilege.hToken = none ∨ env.privilege.lookupPrivilegeValue = false ∨
      env.privilege.adjustTokenPrivileges = false ∨ env.privilege.adjustLastError ≠ errorSuccess) :
    update lib env t fuel o =
      some ⟨.error .cannotEnableDebugPrivilege, o, true, (enablePrivilege env.privilege).2, [], HeapMem.empty⟩ := by
  rw [← enablePrivilege_eq_false_iff] at hp
  simp only [update, hi, hp, Bool.not_true, Bool.not_false, Bool.false_eq_true, if_true, if_false]

theorem update_without_revert_sample :
    update sampleLib { sampleEnv with privilege := ⟨some 4, true, 0, true, 1300⟩ } 0 1 ZombieOwners.empty =
      some ⟨.error .cannotEnableDebugPrivilege, ZombieOwners.empty, true, [.opened 4, .used 4, .closed 4], [],
        HeapMem.empty⟩ :=
  update_without_revert _ _ _ _ _ rfl (.inr (.inr (.inr (by decide))))

/-! ## Handles and the snapshot buffer -/

theorem restores_enablePrivilege (a : PrivilegeAnswers) : Restores (enablePrivilege a).2 := by
  unfold enablePrivilege
  split
  · exact restores_nil
  · split
    · exact restores_opened_used_closed _
    · exact restores_opened_closed _

/-- Discovery on the local `ZombieHandles`, any call `x` that closes what it opens, and the
    destructor's `ReleaseAcquiredHandles`: together they close every handle they open. -/
theorem restores_discovery (t : UInt64) (a : DiscoveryAnswers) {x : List HandleEvent} (hx : Restores x) :
    Restores ((acquireNewHandlesToExistingZombies t a ZombieHandles.empty).2.trace ++ x ++
      (acquireNewHandlesToExistingZombies t a ZombieHandles.empty).2.zombieHandles.releaseAcquiredHandles.2) := by
  intro O hf
  obtain ⟨hf', -⟩ := along_append.mp hf
  obtain ⟨hfd, hfx⟩ := along_append.mp hf'
  obtain ⟨hd, hopen, -, -, hrd, hro, -⟩ := acquire_handles (Reachable.init O) t a hfd
  obtain ⟨hdx, hox⟩ := hx _ hfx
  have hempty : O \ ZombieHandles.empty.lookup.keys.toFinset = O := Finset.sdiff_empty
  rw [hempty] at hro
  refine ⟨along_append.mpr ⟨along_append.mpr ⟨hd, hdx⟩, ?_⟩, ?_⟩
  · rw [openAfter_append, hox]; exact hrd
  · rw [openAfter_append, openAfter_append, hox, hro]

theorem restores_updateImpl {lib : Lib} {env : UpdateEnv} {t : UInt64} {fuel : Nat} {o : ZombieOwners}
    {r : ImplRun} (h : updateImpl lib env t fuel o = some r) : Restores r.trace := by
  have hd := restores_discovery t env.discovery restores_nil
  rw [List.append_nil] at hd
  obtain ⟨e, -, rfl⟩ | ⟨s, -, ⟨e, -, rfl⟩ | ⟨-, rfl⟩⟩ := updateImpl_inv h
  · exact hd
  · exact hd
  · exact restores_discovery t env.discovery (restores_attributeHandles _ _ _ _)

/-- Once `GetProcessHeap` succeeds, no snapshot buffer is left when `Update_Impl` returns: the
    destructor of the local `AllHandlesSystemwide` released it. -/
theorem updateImpl_pMem {lib : Lib} {env : UpdateEnv} {t : UInt64} {fuel : Nat} {o : ZombieOwners}
    {r : ImplRun} (h : updateImpl lib env t fuel o = some r) (hheap : ∀ i, env.heap.getProcessHeap i = true) :
    r.mem.pMem = none := by
  obtain ⟨e, -, rfl⟩ | ⟨s, -, ⟨e, -, rfl⟩ | ⟨-, rfl⟩⟩ := updateImpl_inv h
  · rfl
  · exact HeapMem.dealloc_pMem _ (hheap _)
  · exact HeapMem.dealloc_pMem _ (hheap _)

/-- On every return of `Update`, true or false, under a kernel that returns fresh handles: only
    open handles were passed and closed, every handle value opened during the call was closed as
    often as it was opened, and the handles open are those open before the call. Once
    `GetProcessHeap` succeeds, no snapshot buffer is left either. -/
theorem update_releases (lib : Lib) (env : UpdateEnv) (t : UInt64) (fuel : Nat) (o : ZombieOwners)
    {u : UpdateRun} (h : update lib env t fuel o = some u) (O : Finset Handle) (hf : Fresh O u.trace) :
    Disciplined O u.trace ∧ openAfter O u.trace = O ∧
    (∀ x, u.trace.count (.closed x) = u.trace.count (.opened x)) ∧
    ((∀ i, env.heap.getProcessHeap i = true) → u.mem.pMem = none) := by
  have hr : Restores u.trace ∧ ((∀ i, env.heap.getProcessHeap i = true) → u.mem.pMem = none) := by
    obtain rfl | rfl | ⟨r, hr, rfl⟩ := update_inv h
    · exact ⟨restores_nil, fun _ => rfl⟩
    · exact ⟨restores_enablePrivilege _, fun _ => rfl⟩
    · exact ⟨(restores_enablePrivilege _).append (restores_updateImpl hr), updateImpl_pMem hr⟩
  exact ⟨(hr.1 O hf).1, (hr.1 O hf).2, count_closed_eq_opened hr.1 hf, hr.2⟩

/-- At every return of `Update_Impl`, once the local `AllHandlesSystemwide` is destroyed, its
    `m_Mem` holds against the heap calls the snapshot made. -/
theorem updateImpl_holds (h : updateImpl lib env t fuel o = some r) : Holds r.mem r.heapCalls := by
  have hu : Holds (ZombieFinder.update env.snapshot env.heap fuel .empty []).state.obj.mMem
      (ZombieFinder.update env.snapshot env.heap fuel .empty []).state.calls := update_holds fuel Holds.empty
  obtain ⟨e, -, rfl⟩ | ⟨s, -, ⟨e, hs, rfl⟩ | ⟨hs, rfl⟩⟩ := updateImpl_inv h
  · exact Holds.empty
  · rw [hs] at hu; exact hu.dealloc
  · rw [hs] at hu; exact hu.dealloc

/-- The snapshot's heap calls over every return of `Update`, whatever `GetProcessHeap`, `HeapAlloc`
    and `HeapFree` answer: `HeapFree` has only been passed the block `m_Mem` held, once per block
    obtained, each before the next `HeapAlloc`; and when `GetProcessHeap` never fails, every block
    `HeapAlloc` returned across the retries was passed to `HeapFree` exactly once. -/
theorem update_heap_ledger (lib : Lib) (env : UpdateEnv) (t : UInt64) (fuel : Nat) (o : ZombieOwners)
    {u : UpdateRun} (h : update lib env t fuel o = some u) :
    Holds u.mem u.heapCalls ∧
    ((∀ i, env.heap.getProcessHeap i = true) →
      ∃ bs : List (Nat × Block), blockEvents u.heapCalls = bs.flatMap allocFree) := by
  obtain rfl | rfl | ⟨r, hr, rfl⟩ := update_inv h
  · exact ⟨Holds.empty, fun _ => ⟨[], rfl⟩⟩
  · exact ⟨Holds.empty, fun _ => ⟨[], rfl⟩⟩
  · refine ⟨updateImpl_holds hr, fun hg => ?_⟩
    obtain ⟨-, bs, hb⟩ := updateImpl_holds hr
    rw [updateImpl_pMem hr hg, Option.toList_none, List.map_nil, List.append_nil] at hb
    exact ⟨bs, hb⟩

theorem update_heap_ledger_sample :
    ∃ u, update sampleLib sampleEnv 0 1 ZombieOwners.empty = some u ∧
      blockEvents u.heapCalls = [.obtained 100 1, .freed 1] ∧
      ∃ bs : List (Nat × Block), blockEvents u.heapCalls = bs.flatMap allocFree :=
  ⟨_, rfl, rfl, (update_heap_ledger sampleLib sampleEnv 0 1 ZombieOwners.empty rfl).2 fun _ => rfl⟩

theorem update_releases_sample :
    ∃ u, update sampleLib sampleEnv 0 1 ZombieOwners.empty = some u ∧ Fresh ∅ u.trace ∧
      u.trace.count (.closed 8) = 1 ∧ openAfter ∅ u.trace = ∅ :=
  ⟨_, rfl, by decide, by decide,
    (update_releases sampleLib sampleEnv 0 1 ZombieOwners.empty rfl ∅ (by decide)).2.1⟩

end ZombieOwners

end ZombieFinder

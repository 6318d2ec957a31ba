import ZombieFinder.Handles

/-
  ZombieFinder.ServiceLookup — the process-wide PID-to-services lookup (ServiceLookupByPID.cpp).

  `LookupServicesByPID` fills the file's static `ServiceLookupByPID` map on its first call
  (`InitializeServiceLookup`, guarded by `bInitialized`): `OpenSCManagerW`, a sizing call of
  `EnumServicesStatusExW` that must report `ERROR_MORE_DATA`, a second call with half as much
  room again, then one `ServiceNames_t` per service appended to its PID's list. Any failure
  jumps to the cleanup and leaves the map empty; `bInitialized` is set first, so it is never
  retried. Every call then answers from the map. The SCM's answers for a call are one
  `ScmAnswers`; the statics are threaded through the calls a process makes.

  - `lookupCalls_once`: over any sequence of calls, whatever the SCM answers at each one, every
    call returns the services of its PID that the first call's enumeration returned, in
    enumeration order (`nullptr` for a PID hosting none), and the SCM handle is closed on every
    path. So the lookup is one function of the first call's answers, which is how the owners'
    model reads it (`OwnerAnswers.servicesByPid`).
-/

namespace ZombieFinder

/-- `ERROR_MORE_DATA`. -/
def errorMoreData : Nat := 234

/-- One `ENUM_SERVICE_STATUS_PROCESSW` the second call returns. -/
structure EnumServiceStatusProcess where
  lpServiceName : String
  lpDisplayName : String
  dwProcessId : Nat
  deriving DecidableEq, Repr

/-- The SCM's answers to `InitializeServiceLookup`'s calls: `OpenSCManagerW`'s handle,
    `GetLastError` after the sizing call and the `cbBytesNeeded` it reports, and the second call
    for a buffer of the given size (`none` when it fails). -/
structure ScmAnswers where
  hSCM : Option Handle
  firstCallLastError : Nat
  cbBytesNeeded : UInt32
  secondCall : UInt32 → Option (List EnumServiceStatusProcess)

/-- `ServiceLookupByPID_t`. -/
abbrev ServiceLookupByPID := AList fun _ : Nat => ServiceList

/-- The file's statics, and the SCM handle events so far. -/
structure ServiceLookupStatics where
  serviceLookupByPID : ServiceLookupByPID
  bInitialized : Bool
  trace : List HandleEvent

/-- The statics before the first call. -/
def ServiceLookupStatics.init : ServiceLookupStatics := ⟨∅, false, []⟩

/-- One iteration of the loop over the returned services. -/
def addService (m : ServiceLookupByPID) (svc : EnumServiceStatusProcess) : ServiceLookupByPID :=
  let names : ServiceNames := ⟨svc.lpServiceName, svc.lpDisplayName⟩
  match m.lookup svc.dwProcessId with
  | none => m.insert svc.dwProcessId [names]
  | some list => m.insert svc.dwProcessId (list ++ [names])

/-- The two `EnumServicesStatusExW` calls on `hSCM`: the services, or `none` for `goto cleanup`. -/
def enumServicesStatus (a : ScmAnswers) (hSCM : Handle) : Option (List EnumServiceStatusProcess) × List HandleEvent :=
  if a.firstCallLastError ≠ errorMoreData then (none, [.used hSCM])
  else (a.secondCall (a.cbBytesNeeded + a.cbBytesNeeded / 2), [.used hSCM, .used hSCM])

/-- `InitializeServiceLookup()`. A failed second call runs the loop over no services. -/
def initializeServiceLookup (a : ScmAnswers) (s : ServiceLookupStatics) : ServiceLookupStatics :=
  if s.bInitialized then s
  else match a.hSCM with
    | none => { s with bInitialized := true }
    | some h =>
      { serviceLookupByPID := ((enumServicesStatus a h).1.getD []).foldl addService s.serviceLookupByPID
        bInitialized := true
        trace := s.trace ++ .opened h :: (enumServicesStatus a h).2 ++ [.closed h] }

/-- `LookupServicesByPID(pid, &pServiceList)`: the list, `none` for `false` and `nullptr`. -/
def lookupServicesByPID (a : ScmAnswers) (pid : Nat) (s : ServiceLookupStatics) :
    Option ServiceList × ServiceLookupStatics :=
  ((initializeServiceLookup a s).serviceLookupByPID.lookup pid, initializeServiceLookup a s)

/-- Calls one after the other in one process, each with the SCM's answers at its time: what each
    returns, and the statics after the last. -/
def lookupCalls : List (ScmAnswers × Nat) → ServiceLookupStatics → List (Option ServiceList) × ServiceLookupStatics
  | [], s => ([], s)
  | (a, pid) :: cs, s =>
    ((lookupServicesByPID a pid s).1 :: (lookupCalls cs (lookupServicesByPID a pid s).2).1,
      (lookupCalls cs (lookupServicesByPID a pid s).2).2)

/-! ## What the lookup holds -/

/-- The services an initialization with the answers `a` enumerates: none when a call fails. -/
def enumerated (a : ScmAnswers) : List EnumServiceStatusProcess :=
  match a.hSCM with
  | none => []
  | some h => (enumServicesStatus a h).1.getD []

/-- The services among `svcs` hosted by `pid`, in `svcs`' order. -/
def servicesOf (svcs : List EnumServiceStatusProcess) (pid : Nat) : ServiceList :=
  (svcs.filter (·.dwProcessId = pid)).map fun svc => ⟨svc.lpServiceName, svc.lpDisplayName⟩

/-- What the lookup should answer for `pid` after enumerating `svcs`: `nullptr` when `pid` hosts
    none of them. -/
def hostedServices (svcs : List EnumServiceStatusProcess) (pid : Nat) : Option ServiceList :=
  if servicesOf svcs pid = [] then none else some (servicesOf svcs pid)

theorem addService_lookup (m : ServiceLookupByPID) (svc : EnumServiceStatusProcess) (pid : Nat) :
    (addService m svc).lookup pid = if svc.dwProcessId = pid then
      some ((m.lookup pid).getD [] ++ [⟨svc.lpServiceName, svc.lpDisplayName⟩]) else m.lookup pid := by
  unfold addService
  by_cases h : svc.dwProcessId = pid
  · subst h; split <;> simp_all [AList.lookup_insert]
  · simp only [h, if_false]
    split <;> exact AList.lookup_insert_ne (Ne.symm h)

/-- The loop appends each PID's services to what the map held for it. -/
theorem foldl_addService_lookup (pid : Nat) : ∀ (svcs : List EnumServiceStatusProcess) (m : ServiceLookupByPID),
    (svcs.foldl addService m).lookup pid = match m.lookup pid with
      | none => hostedServices svcs pid
      | some l => some (l ++ servicesOf svcs pid)
  | [], m => by rw [List.foldl_nil]; cases m.lookup pid <;> simp [hostedServices, servicesOf]
  | svc :: svcs, m => by
    rw [List.foldl_cons, foldl_addService_lookup pid svcs, addService_lookup]
    by_cases h : svc.dwProcessId = pid
    · cases m.lookup pid <;> simp [h, hostedServices, servicesOf, List.filter_cons]
    · simp only [h, if_false]
      cases m.lookup pid <;> simp [h, hostedServices, servicesOf, List.filter_cons]

theorem lookup_foldl_addService (svcs : List EnumServiceStatusProcess) (pid : Nat) :
    (svcs.foldl addService ∅).lookup pid = hostedServices svcs pid :=
  foldl_addService_lookup pid svcs ∅

/-! ## Once per process -/

section

variable {a : ScmAnswers} {s : ServiceLookupStatics}

theorem initializeServiceLookup_of_initialized (h : s.bInitialized = true) : initializeServiceLookup a s = s := by
  simp only [initializeServiceLookup, h, if_true]

theorem initializeServiceLookup_bInitialized : (initializeServiceLookup a s).bInitialized = true := by
  unfold initializeServiceLookup
  split
  · assumption
  · split <;> rfl

/-- The first initialization builds the map from what it enumerates. -/
theorem initializeServiceLookup_init :
    (initializeServiceLookup a .init).serviceLookupByPID = (enumerated a).foldl addService ∅ := by
  unfold initializeServiceLookup enumerated
  cases a.hSCM <;> rfl

/-- An initialization's SCM handle events: the handle is opened, passed, and closed. -/
theorem initializeServiceLookup_trace : ∃ e, (initializeServiceLookup a s).trace = s.trace ++ e ∧ Restores e := by
  unfold initializeServiceLookup
  split
  · exact ⟨[], (List.append_nil _).symm, restores_nil⟩
  split
  · exact ⟨[], (List.append_nil _).symm, restores_nil⟩
  rename_i h _
  refine ⟨_, List.append_assoc .., ?_⟩
  unfold enumServicesStatus
  split
  · exact restores_opened_usedN_closed h 1
  · exact restores_opened_usedN_closed h 2

end

/-- Once initialized, every call answers from the map and changes nothing. -/
theorem lookupCalls_of_initialized : ∀ (cs : List (ScmAnswers × Nat)) (s : ServiceLookupStatics),
    s.bInitialized = true → lookupCalls cs s = (cs.map fun c => s.serviceLookupByPID.lookup c.2, s)
  | [], _, _ => rfl
  | (a, pid) :: cs, s, h => by
    simp only [lookupCalls, lookupServicesByPID, initializeServiceLookup_of_initialized h,
      lookupCalls_of_initialized cs s h, List.map_cons]

/-- Over any calls in one process, whatever the SCM answers at each: every call returns the
    services of its PID that the first call enumerated, in enumeration order (`nullptr` when it
    hosts none, or when a call of the first initialization failed); later answers are never
    read; and every SCM handle opened is closed. -/
theorem lookupCalls_once (a : ScmAnswers) (pid : Nat) (cs : List (ScmAnswers × Nat)) :
    (lookupCalls ((a, pid) :: cs) .init).1 = (pid :: cs.map Prod.snd).map (hostedServices (enumerated a)) ∧
    Restores (lookupCalls ((a, pid) :: cs) .init).2.trace := by
  obtain ⟨e, he, hr⟩ := initializeServiceLookup_trace (a := a) (s := .init)
  simp only [lookupCalls, lookupServicesByPID,
    lookupCalls_of_initialized cs _ initializeServiceLookup_bInitialized, initializeServiceLookup_init,
    lookup_foldl_addService, List.map_cons, List.map_map]
  exact ⟨rfl, by rw [he]; exact hr⟩

/-- A first call whose `OpenSCManagerW` fails leaves the lookup empty for the whole process, even
    when a later call's SCM would answer. -/
example : (lookupCalls [(⟨none, 0, 0, fun _ => none⟩, 5),
    (⟨some 40, errorMoreData, 100, fun _ => some [⟨"svc", "Service", 5⟩]⟩, 5)] .init).1 = [none, none] := by
  decide

end ZombieFinder

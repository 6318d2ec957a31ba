import ZombieFinder.HeapMem
import Mathlib.Data.List.Chain

/-
  ZombieFinder.AllHandlesSystemwide — the system handle snapshot (AllHandlesSystemwide.h,
  `AllHandlesSystemwide::Update` and its accessors).

  `Update` probes `NtQuerySystemInformation(SystemExtendedHandleInformation)` with a minimal
  buffer for the required length, then loops: release the buffer, size a new one at
  `returnLength + returnLength / 4` in 32-bit arithmetic, give up on a wrapped sum, allocate,
  query again. The kernel answers each query by its index and the length passed
  (`SnapshotKernel`); a pass that gets `STATUS_INFO_LENGTH_MISMATCH` goes round again, so
  `update` runs at most `fuel` passes and reports `running` past them.

  Every data query is recorded (`Attempt`): the requirement it was sized from, the length
  passed, `m_Mem` at the call and the heap call made just before.
  - `add_quarter_lt_iff`: the check `sysInfoLength < returnLength` catches the 32-bit sum
    exactly when `r + r / 4 ≥ 2^32`.
  - `update_attempts_sized`: every data query of every run is issued on the block the
    preceding `HeapAlloc` returned, of `r + r / 4` bytes, `m_Mem.Size()` and the length passed
    both equal to it, for the requirement most recently reported (`update_attempts_sized`).
  - `retryPass_overflow`: a pass stops with the overflow error exactly when the sum wraps,
    after `Clear()` and before any allocation or query.
  - `update_ok_after_success`: `Update` returns true only right after a `STATUS_SUCCESS`, and
    `NumberOfHandles()` and `HandleInfo(ix)` then read exactly that answer's entries
    (`update_ok_table`).
  - `update_returns_of_growing`: when every mismatch answer reports more than the length it was given,
    the requirement grows at every pass and the loop returns within `2^32` passes.
  - `update_failed_state`: a failed data query returns false with `m_Mem` still holding the block
    it was given, which `NumberOfHandles()` and `HandleInfo(ix)` go on reading
    (`update_failure_keeps_block`); every other failure leaves no block once `GetProcessHeap`
    never fails.
  - `update_holds`: every run keeps `HeapMem`'s ledger (`Holds`): `HeapFree` is only ever
    passed the block `m_Mem` held, once per block obtained.
-/

namespace ZombieFinder

/-- What `NtQuerySystemInformation` leaves: its status, `*ReturnLength`, and the handle table
    in the buffer. -/
structure QueryAnswer where
  status : NTSTATUS
  returnLength : UInt32
  handles : List SystemHandleTableEntryInfoEx
  deriving DecidableEq, Repr

/-- `GetModuleHandleW(L"ntdll.dll")`, `GetProcAddress(ntdll, "NtQuerySystemInformation")`, and
    the answer to each `NtQuerySystemInformation` call by its index in the run and the length
    passed. -/
structure SnapshotKernel where
  ntdllModule : Bool
  ntQuerySystemInformationExport : Bool
  ntQuerySystemInformation : Nat → UInt32 → QueryAnswer

/-- `sizeof(SYSTEM_HANDLE_INFORMATION_EX)` on x64: two `ULONG_PTR`s and one 40-byte entry. -/
def sizeofSystemHandleInformationEx : UInt32 := 56

/-- `m_Mem`, and the handle table its block holds as the kernel last wrote it. -/
structure AllHandlesSystemwide where
  mMem : HeapMem
  handles : List SystemHandleTableEntryInfoEx
  deriving DecidableEq, Repr

namespace AllHandlesSystemwide

def empty : AllHandlesSystemwide := ⟨⟨none, 0⟩, []⟩

/-- `NumberOfHandles()`: 0 without a buffer, else the count at the head of the buffer. -/
def numberOfHandles (a : AllHandlesSystemwide) : Nat :=
  match a.mMem.pMem with
  | none => 0
  | some _ => a.handles.length

/-- `HandleInfo(ix)`: `nullptr` without a buffer or out of range. -/
def handleInfo (a : AllHandlesSystemwide) (ix : Nat) : Option SystemHandleTableEntryInfoEx :=
  match a.mMem.pMem with
  | none => none
  | some _ => a.handles[ix]?

theorem filterMap_getElem?_range {α : Type} (l : List α) : (List.range l.length).filterMap (l[·]?) = l := by
  induction l with
  | nil => rfl
  | cons x xs ih =>
    rw [List.length_cons, List.range_succ_eq_map, List.filterMap_cons, List.filterMap_map]
    simpa [Function.comp_def] using ih

/-- A loop over `ix < NumberOfHandles()` reading `HandleInfo(ix)` sees the table in order. -/
theorem range_filterMap_handleInfo (a : AllHandlesSystemwide) :
    (List.range a.numberOfHandles).filterMap a.handleInfo = (a.mMem.pMem.map fun _ => a.handles).getD [] := by
  unfold numberOfHandles handleInfo
  cases a.mMem.pMem with
  | none => simp
  | some _ => exact filterMap_getElem?_range a.handles

end AllHandlesSystemwide

/-- One data query of the retry loop. -/
structure Attempt where
  /-- The requirement the pass sized its buffer from. -/
  returnLength : UInt32
  /-- The length passed. -/
  sysInfoLength : UInt32
  /-- `m_Mem` at the call; `m_Mem.Get()` is the buffer passed. -/
  mMem : HeapMem
  /-- The heap call made just before the query. -/
  lastHeapCall : Option HeapCall
  answer : QueryAnswer

/-- The retry loop's state: the object, the heap calls and queries made so far, `returnLength`,
    and the data queries issued. -/
structure Retry where
  obj : AllHandlesSystemwide
  calls : List HeapCall
  queries : Nat
  returnLength : UInt32
  attempts : List Attempt

/-- The loop state with `m_Mem` and the heap calls a `HeapMem` method left. -/
def Retry.withMem (s : Retry) (r : HeapRes) : Retry :=
  { s with obj := { s.obj with mMem := r.mem }, calls := r.calls }

inductive Pass where
  | again (s : Retry)
  | done (ret : Except ErrorInfo Unit) (s : Retry)

def Pass.state : Pass → Retry
  | .again s => s
  | .done _ s => s

/-- How far a run got: returned, or still in the loop after the passes it was given. -/
inductive Outcome where
  | returned (ret : Except ErrorInfo Unit) (s : Retry)
  | running (s : Retry)

def Outcome.state : Outcome → Retry
  | .returned _ s => s
  | .running s => s

variable (k : SnapshotKernel) (api : HeapApi)

/-- The data query of a pass, on the buffer `Alloc` left in `m`. -/
def query (s : Retry) (len : UInt32) (m : HeapMem) (calls : List HeapCall) : Pass :=
  let a := k.ntQuerySystemInformation s.queries len
  let s' : Retry := ⟨⟨m, a.handles⟩, calls, s.queries + 1, a.returnLength,
    s.attempts ++ [⟨s.returnLength, len, m, calls.getLast?, a⟩]⟩
  if a.status = statusSuccess then .done (.ok ()) s'
  else if a.status = statusInfoLengthMismatch then .again s'
  else .done (.error (.secondCallFailed a.status a.returnLength len)) s'

/-- One pass of `while (STATUS_INFO_LENGTH_MISMATCH == ntStat)`: `Clear()`, size, check,
    `Alloc`, query. -/
def retryPass (s : Retry) : Pass :=
  let c := HeapMem.dealloc api s.obj.mMem s.calls
  let len := s.returnLength + s.returnLength / 4
  if len < s.returnLength then .done (.error integerOverflow) (s.withMem c)
  else
    let r := HeapMem.alloc api len.toNat c.mem c.calls
    match r.ret with
    | .error e => .done (.error e) (s.withMem r)
    | .ok _ => query k s len r.mem r.calls

def retryLoop : Nat → Retry → Outcome
  | 0, s => .running s
  | n + 1, s =>
    match retryPass k api s with
    | .again s' => retryLoop n s'
    | .done ret s' => .returned ret s'

/-- `AllHandlesSystemwide::Update`, with at most `fuel` passes of the retry loop. -/
def update (fuel : Nat) (a : AllHandlesSystemwide) (calls : List HeapCall) : Outcome :=
  let c := HeapMem.dealloc api a.mMem calls
  let s : Retry := ⟨⟨c.mem, a.handles⟩, c.calls, 0, 0, []⟩
  if !k.ntdllModule then .returned (.error couldntGetModuleNtdll) s
  else if !k.ntQuerySystemInformationExport then .returned (.error couldntGetNtQuerySystemInformation) s
  else
    let probe := k.ntQuerySystemInformation 0 sizeofSystemHandleInformationEx
    let s := { s with queries := 1, returnLength := probe.returnLength }
    if probe.status = statusInfoLengthMismatch then retryLoop k api fuel s
    else .returned (.error (.firstCallFailed probe.status)) s

/-! ## Sizing the buffer -/

theorem toNat_add_quarter (r : UInt32) : (r + r / 4).toNat = (r.toNat + r.toNat / 4) % 2 ^ 32 := by
  show (r.toBitVec + (r / 4).toBitVec).toNat = _
  rw [BitVec.toNat_add]
  exact congrArg (· % 2 ^ 32) (congrArg (r.toNat + ·) (UInt32.toNat_div r 4))

/-- The 32-bit sum `returnLength + returnLength / 4` wraps below `returnLength` exactly when
    the true sum reaches `2^32`: a wrapped sum is always caught. -/
theorem add_quarter_lt_iff (r : UInt32) : r + r / 4 < r ↔ 2 ^ 32 ≤ r.toNat + r.toNat / 4 := by
  have := r.toNat_lt_size
  rw [UInt32.lt_def, BitVec.lt_def]
  change (r + r / 4).toNat < r.toNat ↔ _
  rw [toNat_add_quarter]
  simp only [UInt32.size] at this
  omega

theorem toNat_add_quarter_of_not_lt {r : UInt32} (h : ¬ r + r / 4 < r) :
    (r + r / 4).toNat = r.toNat + r.toNat / 4 := by
  rw [add_quarter_lt_iff] at h
  rw [toNat_add_quarter]
  omega

/-- A data query issued on the block the preceding `HeapAlloc` returned, of exactly
    `returnLength + returnLength / 4` bytes, with `m_Mem.Size()` and the length passed equal
    to it. -/
def Attempt.Sized (x : Attempt) : Prop :=
  ∃ b, x.lastHeapCall = some (.heapAlloc x.sysInfoLength.toNat (some b)) ∧
    x.mMem = ⟨some b, x.sysInfoLength.toNat⟩ ∧
    x.sysInfoLength.toNat = x.returnLength.toNat + x.returnLength.toNat / 4

/-- Each query was sized from the requirement reported just before it: the probe's for the
    first (`r0`), the previous query's after that; `returnLength` is the last one reported. -/
def Linked (r0 : UInt32) (s : Retry) : Prop :=
  (∀ x ∈ s.attempts, x.Sized) ∧ (∀ x ∈ s.attempts.head?, x.returnLength = r0) ∧
    s.attempts.Chain' (fun x y => y.returnLength = x.answer.returnLength) ∧
    s.returnLength = (s.attempts.getLast?.map (·.answer.returnLength)).getD r0

theorem Linked.attempts {r0 : UInt32} {s : Retry} (h : Linked r0 s) :
    (∀ x ∈ s.attempts, x.Sized) ∧ (∀ x ∈ s.attempts.head?, x.returnLength = r0) ∧
      s.attempts.Chain' (fun x y => y.returnLength = x.answer.returnLength) :=
  ⟨h.1, h.2.1, h.2.2.1⟩

section

variable {k api} {s s' : Retry} {r0 : UInt32}

/-- The three ways a data query ends, each recording the attempt: `STATUS_SUCCESS` returns
    true, `STATUS_INFO_LENGTH_MISMATCH` goes round again, any other status returns false. -/
theorem query_inv (s : Retry) (len : UInt32) (m : HeapMem) (calls : List HeapCall) :
    let a := k.ntQuerySystemInformation s.queries len
    let s' : Retry := ⟨⟨m, a.handles⟩, calls, s.queries + 1, a.returnLength,
      s.attempts ++ [⟨s.returnLength, len, m, calls.getLast?, a⟩]⟩
    (a.status = statusSuccess ∧ query k s len m calls = .done (.ok ()) s') ∨
    (a.status ≠ statusSuccess ∧ a.status = statusInfoLengthMismatch ∧ query k s len m calls = .again s') ∨
    (a.status ≠ statusSuccess ∧ a.status ≠ statusInfoLengthMismatch ∧
      query k s len m calls = .done (.error (.secondCallFailed a.status a.returnLength len)) s') := by
  unfold query; dsimp only
  split
  · exact .inl ⟨‹_›, rfl⟩
  split
  · exact .inr (.inl ⟨‹_›, ‹_›, rfl⟩)
  · exact .inr (.inr ⟨‹_›, ‹_›, rfl⟩)

theorem query_state (s : Retry) (len : UInt32) (m : HeapMem) (calls : List HeapCall) :
    (query k s len m calls).state =
      ⟨⟨m, (k.ntQuerySystemInformation s.queries len).handles⟩, calls, s.queries + 1,
        (k.ntQuerySystemInformation s.queries len).returnLength,
        s.attempts ++ [⟨s.returnLength, len, m, calls.getLast?, k.ntQuerySystemInformation s.queries len⟩]⟩ := by
  rcases query_inv s len m calls with ⟨-, he⟩ | ⟨-, -, he⟩ | ⟨-, -, he⟩ <;> rw [he] <;> rfl

theorem linked_query {len : UInt32} (h : Linked r0 s) (hlen : ¬ len < s.returnLength)
    (hl : len = s.returnLength + s.returnLength / 4)
    (ha : (HeapMem.alloc api len.toNat (HeapMem.dealloc api s.obj.mMem s.calls).mem
      (HeapMem.dealloc api s.obj.mMem s.calls).calls).ret = .ok ()) :
    Linked r0 (query k s len (HeapMem.alloc api len.toNat (HeapMem.dealloc api s.obj.mMem s.calls).mem
      (HeapMem.dealloc api s.obj.mMem s.calls).calls).mem
      (HeapMem.alloc api len.toNat (HeapMem.dealloc api s.obj.mMem s.calls).mem
      (HeapMem.dealloc api s.obj.mMem s.calls).calls).calls).state := by
  obtain ⟨hs, hh, hc, hr⟩ := h
  obtain ⟨b, hm, hc'⟩ := HeapMem.alloc_ok api ha
  subst hl
  rw [query_state]
  refine ⟨?_, ?_, ?_, by simp⟩
  · intro x hx
    rcases List.mem_append.mp hx with hx | hx
    · exact hs x hx
    · rw [List.mem_singleton.mp hx]
      exact ⟨b, hc', hm, toNat_add_quarter_of_not_lt hlen⟩
  · cases e : s.attempts with
    | nil => simp_all
    | cons y ys => simpa [e] using hh
  · refine List.Chain'.append hc (List.chain'_singleton _) ?_
    intro x hx y hy
    simp only [List.head?_cons, Option.mem_def, Option.some.injEq] at hy
    subst hy
    simp_all

/-- Every pass keeps the queries sized and linked. -/
theorem linked_retryPass (h : Linked r0 s) : Linked r0 (retryPass k api s).state := by
  unfold retryPass; dsimp only
  split
  · exact h
  · split
    · exact h
    · exact linked_query h ‹_› rfl ‹_›

theorem linked_retryLoop (n : Nat) (h : Linked r0 s) : Linked r0 (retryLoop k api n s).state := by
  induction n generalizing s with
  | zero => exact h
  | succ n ih =>
    have hp : Linked r0 (retryPass k api s).state := linked_retryPass h
    unfold retryLoop
    split <;> simp_all [Pass.state, Outcome.state]

end

/-- Every data query of every run, returned or still looping after `fuel` passes, is issued
    on the block the preceding `HeapAlloc` returned, of exactly `r + r / 4` bytes, with
    `m_Mem.Size()` and the length passed equal to it, where `r` is the requirement most recently
    reported: the probe's for the first query, the previous query's after that. -/
theorem update_attempts_sized (fuel : Nat) (a : AllHandlesSystemwide) (calls : List HeapCall) :
    let s := (update k api fuel a calls).state
    (∀ x ∈ s.attempts, x.Sized) ∧
    (∀ x ∈ s.attempts.head?,
      x.returnLength = (k.ntQuerySystemInformation 0 sizeofSystemHandleInformationEx).returnLength) ∧
    s.attempts.Chain' (fun x y => y.returnLength = x.answer.returnLength) := by
  unfold update; dsimp only
  split
  · simp [Outcome.state]
  split
  · simp [Outcome.state]
  split
  · exact (linked_retryLoop fuel ⟨by simp, by simp, by simp, rfl⟩).attempts
  · simp [Outcome.state]

/-! ## How a pass ends -/

section

variable {k api} {s s' : Retry}

theorem query_ne_overflow {len : UInt32} {m : HeapMem} {calls : List HeapCall} :
    query k s len m calls ≠ .done (.error integerOverflow) s' := by
  rcases query_inv s len m calls with ⟨-, he⟩ | ⟨-, -, he⟩ | ⟨-, -, he⟩ <;> rw [he] <;> simp [integerOverflow]

/-- A pass stops with the overflow error exactly when `r + r / 4` reaches `2^32`, and then it
    has made only `Clear()`'s heap calls: no allocation, no query. -/
theorem retryPass_overflow (s : Retry) :
    ((∃ s', retryPass k api s = .done (.error integerOverflow) s') ↔
      2 ^ 32 ≤ s.returnLength.toNat + s.returnLength.toNat / 4) ∧
    ∀ s', retryPass k api s = .done (.error integerOverflow) s' →
      s' = s.withMem (HeapMem.dealloc api s.obj.mMem s.calls) := by
  rw [← add_quarter_lt_iff]
  unfold retryPass; dsimp only
  split
  · exact ⟨iff_of_true ⟨_, rfl⟩ ‹_›, fun _ h => by cases h; rfl⟩
  · split
    · rename_i e he
      have : e ≠ integerOverflow := by
        rcases HeapMem.alloc_error api he with rfl | rfl | rfl <;> simp [integerOverflow]
      refine ⟨iff_of_false ?_ ‹_›, fun _ h => ?_⟩
      · rintro ⟨_, h⟩; cases h; exact this rfl
      · cases h; exact absurd rfl this
    · exact ⟨iff_of_false (fun ⟨_, h⟩ => query_ne_overflow h) ‹_›, fun _ h => absurd h query_ne_overflow⟩

/-- A pass that returns true has just had `STATUS_SUCCESS` for its query; the object holds that
    query's block and table. -/
theorem retryPass_ok (h : retryPass k api s = .done (.ok ()) s') :
    ∃ x, s'.attempts.getLast? = some x ∧ x.answer.status = statusSuccess ∧ s'.obj = ⟨x.mMem, x.answer.handles⟩ := by
  unfold retryPass at h; dsimp only at h
  split at h
  · cases h
  · split at h
    · cases h
    · rcases query_inv s _ _ _ with ⟨hs, he⟩ | ⟨-, -, he⟩ | ⟨-, -, he⟩ <;> rw [he] at h <;> cases h
      exact ⟨_, List.getLast?_concat .., hs, rfl⟩

theorem retryLoop_ok {n : Nat} (h : retryLoop k api n s = .returned (.ok ()) s') :
    ∃ x, s'.attempts.getLast? = some x ∧ x.answer.status = statusSuccess ∧ s'.obj = ⟨x.mMem, x.answer.handles⟩ := by
  induction n generalizing s with
  | zero => cases h
  | succ n ih =>
    unfold retryLoop at h
    split at h
    · exact ih h
    · cases h; exact retryPass_ok ‹_›

end

/-- `Update` returns true only right after a `STATUS_SUCCESS` answer to a data query, and the
    object then holds that query's block and table. -/
theorem update_ok_obj {fuel : Nat} {a : AllHandlesSystemwide} {calls : List HeapCall} {s : Retry}
    (h : update k api fuel a calls = .returned (.ok ()) s) :
    ∃ x, s.attempts.getLast? = some x ∧ x.answer.status = statusSuccess ∧ s.obj = ⟨x.mMem, x.answer.handles⟩ := by
  unfold update at h; dsimp only at h
  split at h
  · cases h
  split at h
  · cases h
  split at h
  · exact retryLoop_ok h
  · cases h

/-- `Update` returns true only right after a `STATUS_SUCCESS` answer to a data query, and the
    table it then exposes is that answer's. -/
theorem update_ok_after_success {fuel : Nat} {a : AllHandlesSystemwide} {calls : List HeapCall} {s : Retry}
    (h : update k api fuel a calls = .returned (.ok ()) s) :
    ∃ x, s.attempts.getLast? = some x ∧ x.answer.status = statusSuccess ∧ s.obj.handles = x.answer.handles :=
  let ⟨x, hx, hs, ho⟩ := update_ok_obj k api h
  ⟨x, hx, hs, by rw [ho]⟩

/-! ## The snapshot's heap calls -/

section

variable {k api} {s : Retry}

/-- A pass calls only `m_Mem`'s `Dealloc` and `Alloc`, so the buffer keeps `Holds` against the
    heap calls made. -/
theorem retryPass_holds (h : Holds s.obj.mMem s.calls) :
    Holds (retryPass k api s).state.obj.mMem (retryPass k api s).state.calls := by
  unfold retryPass; dsimp only
  split
  · exact h.dealloc
  · split
    · exact h.dealloc.alloc
    · rw [query_state]; exact h.dealloc.alloc

theorem retryLoop_holds (n : Nat) (h : Holds s.obj.mMem s.calls) :
    Holds (retryLoop k api n s).state.obj.mMem (retryLoop k api n s).state.calls := by
  induction n generalizing s with
  | zero => exact h
  | succ n ih =>
    have hp : Holds (retryPass k api s).state.obj.mMem (retryPass k api s).state.calls := retryPass_holds h
    unfold retryLoop
    split <;> rename_i heq <;> rw [heq] at hp
    · exact ih hp
    · exact hp

/-- Whatever the kernel and the heap answer, `Update` leaves `m_Mem` holding against the heap
    calls made. -/
theorem update_holds (fuel : Nat) {a : AllHandlesSystemwide} {calls : List HeapCall} (h : Holds a.mMem calls) :
    Holds (update k api fuel a calls).state.obj.mMem (update k api fuel a calls).state.calls := by
  unfold update; dsimp only
  split
  · exact h.dealloc
  split
  · exact h.dealloc
  split
  · exact retryLoop_holds fuel h.dealloc
  · exact h.dealloc

end

/-! ## Termination -/

section

variable {k api} {s s' : Retry}

/-- The kernel reports, on every mismatch inside the loop, more than the length it was given. -/
def Growing (k : SnapshotKernel) : Prop :=
  ∀ i L, 1 ≤ i → (k.ntQuerySystemInformation i L).status = statusInfoLengthMismatch →
    L < (k.ntQuerySystemInformation i L).returnLength

theorem retryPass_again (hk : Growing k) (hq : 1 ≤ s.queries) (h : retryPass k api s = .again s') :
    s.returnLength < s'.returnLength ∧ 1 ≤ s'.queries := by
  unfold retryPass at h; dsimp only at h
  split at h
  · cases h
  · rename_i hlen
    split at h
    · cases h
    · rcases query_inv s _ _ _ with ⟨-, he⟩ | ⟨-, h2, he⟩ | ⟨-, -, he⟩ <;> rw [he] at h <;> cases h
      refine ⟨?_, Nat.le_add_left 1 _⟩
      have := hk _ _ hq h2
      rw [uint32_lt_iff] at hlen this ⊢
      dsimp only
      omega

theorem retryLoop_returns_of_lt (hk : Growing k) :
    ∀ n s, 1 ≤ s.queries → 2 ^ 32 - s.returnLength.toNat < n → ∃ ret s', retryLoop k api n s = .returned ret s'
  | 0, _, _, hn => absurd hn (Nat.not_lt_zero _)
  | n + 1, s, hq, hn => by
    unfold retryLoop
    split
    · rename_i s' h
      obtain ⟨hlt, hq'⟩ := retryPass_again hk hq h
      have : s'.returnLength.toNat < 2 ^ 32 := s'.returnLength.toNat_lt_size
      rw [uint32_lt_iff] at hlt
      exact retryLoop_returns_of_lt hk n s' hq' (by omega)
    · exact ⟨_, _, rfl⟩

end

/-- When every `STATUS_INFO_LENGTH_MISMATCH` answer inside the loop reports more than the length
    it was given, the requirement strictly grows from pass to pass, and `Update` returns within
    `2^32 + 1` passes: by success, another failure status, an allocation failure, or the
    overflow check. -/
theorem update_returns_of_growing (hk : Growing k) :
    (∀ s s' : Retry, 1 ≤ s.queries → retryPass k api s = .again s' → s.returnLength < s'.returnLength) ∧
    ∀ a calls, ∃ ret s, update k api (2 ^ 32 + 1) a calls = .returned ret s := by
  refine ⟨fun s s' hq h => (retryPass_again hk hq h).1, fun a calls => ?_⟩
  unfold update; dsimp only
  split
  · exact ⟨_, _, rfl⟩
  split
  · exact ⟨_, _, rfl⟩
  split
  · exact retryLoop_returns_of_lt hk _ _ le_rfl (by have := UInt32.toNat_lt_size; omega)
  · exact ⟨_, _, rfl⟩

/-- A kernel that asks for 1000 bytes until it is given them. -/
def growingKernel : SnapshotKernel :=
  ⟨true, true, fun _ L => if L < 1000 then ⟨statusInfoLengthMismatch, 1000, []⟩ else ⟨statusSuccess, 0, []⟩⟩

theorem growingKernel_growing : Growing growingKernel := by
  intro i L _ h
  simp only [growingKernel] at h ⊢
  split at h <;> simp_all [statusSuccess, statusInfoLengthMismatch]

/-- A heap that always succeeds. -/
def healthyHeap : HeapApi := ⟨fun _ => true, fun _ _ => some 1, fun _ _ => true⟩

theorem update_returns_growingKernel : Growing growingKernel ∧
    ((∀ s s' : Retry, 1 ≤ s.queries → retryPass growingKernel healthyHeap s = .again s' →
      s.returnLength < s'.returnLength) ∧
    ∀ a calls, ∃ ret s, update growingKernel healthyHeap (2 ^ 32 + 1) a calls = .returned ret s) :=
  ⟨growingKernel_growing, update_returns_of_growing growingKernel healthyHeap growingKernel_growing⟩

/-- The snapshot's buffer, over every run: the wrap check is exact; every data query is issued on
    a freshly allocated block of `r + r / 4` bytes (`m_Mem.Size()` and the length passed equal
    to it) for the requirement `r` most recently reported; a wrapped sum ends the pass with the
    overflow error before any allocation; and `Update` returns true only right after
    `STATUS_SUCCESS`. -/
theorem update_buffer_sized :
    (∀ r : UInt32, r + r / 4 < r ↔ 2 ^ 32 ≤ r.toNat + r.toNat / 4) ∧
    (∀ fuel a calls, let s := (update k api fuel a calls).state
      (∀ x ∈ s.attempts, x.Sized) ∧
      (∀ x ∈ s.attempts.head?,
        x.returnLength = (k.ntQuerySystemInformation 0 sizeofSystemHandleInformationEx).returnLength) ∧
      s.attempts.Chain' (fun x y => y.returnLength = x.answer.returnLength)) ∧
    (∀ s : Retry,
      ((∃ s', retryPass k api s = .done (.error integerOverflow) s') ↔
        2 ^ 32 ≤ s.returnLength.toNat + s.returnLength.toNat / 4) ∧
      ∀ s', retryPass k api s = .done (.error integerOverflow) s' →
        s' = s.withMem (HeapMem.dealloc api s.obj.mMem s.calls)) ∧
    (∀ fuel a calls s, update k api fuel a calls = .returned (.ok ()) s →
      ∃ x, s.attempts.getLast? = some x ∧ x.answer.status = statusSuccess ∧ s.obj.handles = x.answer.handles) :=
  ⟨add_quarter_lt_iff, update_attempts_sized k api, retryPass_overflow, fun _ _ _ _ => update_ok_after_success k api⟩

/-- The last data query of a run was issued on a freshly allocated block. -/
theorem update_last_sized {fuel : Nat} {a : AllHandlesSystemwide} {calls : List HeapCall} {x : Attempt}
    (hx : (update k api fuel a calls).state.attempts.getLast? = some x) : x.Sized :=
  (update_attempts_sized k api fuel a calls).1 x (List.mem_of_getLast?_eq_some hx)

/-- After `Update` returns true, the loops over `ix < NumberOfHandles()` read through
    `HandleInfo(ix)` exactly the entries of the last query's `STATUS_SUCCESS` answer. -/
theorem update_ok_table {fuel : Nat} {a : AllHandlesSystemwide} {calls : List HeapCall} {s : Retry}
    (h : update k api fuel a calls = .returned (.ok ()) s) :
    ∃ x, s.attempts.getLast? = some x ∧ x.answer.status = statusSuccess ∧
      (List.range s.obj.numberOfHandles).filterMap s.obj.handleInfo = x.answer.handles := by
  obtain ⟨x, hx, hs, ho⟩ := update_ok_obj k api h
  obtain ⟨b, -, hb, -⟩ := update_last_sized k api (by rw [h]; exact hx)
  refine ⟨x, hx, hs, ?_⟩
  rw [AllHandlesSystemwide.range_filterMap_handleInfo, ho, hb]
  rfl

/-! ## What a failed `Update` leaves -/

/-- How a failed `Update` leaves the object: after a data query answered with neither
    `STATUS_SUCCESS` nor `STATUS_INFO_LENGTH_MISMATCH`, with the block that query was given and the
    table the kernel left in it; after any other failure, with no block once `GetProcessHeap` never
    fails. -/
def FailedState (api : HeapApi) (e : ErrorInfo) (s : Retry) : Prop :=
  (∃ x, s.attempts.getLast? = some x ∧ x.answer.status ≠ statusSuccess ∧
    x.answer.status ≠ statusInfoLengthMismatch ∧
    e = .secondCallFailed x.answer.status x.answer.returnLength x.sysInfoLength ∧
    s.obj = ⟨x.mMem, x.answer.handles⟩) ∨
  ((∀ st rl len, e ≠ .secondCallFailed st rl len) ∧
    ((∀ i, api.getProcessHeap i = true) → s.obj.mMem.pMem = none))

section

variable {k api} {s s' : Retry} {e : ErrorInfo}

/-- A pass that returns false: the overflow check after `Clear()`, a failed `Alloc`, or a data
    query's failure status. -/
theorem retryPass_error (h : retryPass k api s = .done (.error e) s') : FailedState api e s' := by
  unfold retryPass at h; dsimp only at h
  split at h
  · cases h
    exact .inr ⟨fun _ _ _ => by simp [integerOverflow], fun hg => HeapMem.dealloc_pMem api (hg _)⟩
  · split at h
    · rename_i he
      cases h
      refine .inr ⟨fun _ _ _ h' => ?_, fun hg => HeapMem.alloc_error_pMem api hg he⟩
      rcases HeapMem.alloc_error api he with rfl | rfl | rfl <;> cases h'
    · rcases query_inv s _ _ _ with ⟨-, he⟩ | ⟨-, -, he⟩ | ⟨hs, hm, he⟩ <;> rw [he] at h <;> cases h
      exact .inl ⟨_, List.getLast?_concat .., hs, hm, rfl, rfl⟩

theorem retryLoop_error {n : Nat} (h : retryLoop k api n s = .returned (.error e) s') : FailedState api e s' := by
  induction n generalizing s with
  | zero => cases h
  | succ n ih =>
    unfold retryLoop at h
    split at h
    · exact ih h
    · cases h; exact retryPass_error ‹_›

end

theorem update_error {fuel : Nat} {a : AllHandlesSystemwide} {calls : List HeapCall} {e : ErrorInfo} {s : Retry}
    (h : update k api fuel a calls = .returned (.error e) s) : FailedState api e s := by
  have clear : (∀ st rl len, e ≠ .secondCallFailed st rl len) →
      FailedState api e ⟨⟨(HeapMem.dealloc api a.mMem calls).mem, a.handles⟩,
        (HeapMem.dealloc api a.mMem calls).calls, 0, 0, []⟩ :=
    fun hne => .inr ⟨hne, fun hg => HeapMem.dealloc_pMem api (hg _)⟩
  unfold update at h; dsimp only at h
  split at h
  · cases h; exact clear fun _ _ _ => by simp [couldntGetModuleNtdll]
  split at h
  · cases h; exact clear fun _ _ _ => by simp [couldntGetNtQuerySystemInformation]
  split at h
  · exact retryLoop_error h
  · cases h; exact clear fun _ _ _ => by simp

/-- When `Update` returns false after a data query answered with neither `STATUS_SUCCESS` nor
    `STATUS_INFO_LENGTH_MISMATCH`, `m_Mem` still holds the block `HeapAlloc` returned for that
    query, of `r + r / 4` bytes, and `NumberOfHandles()` and `HandleInfo(ix)` read the table the
    kernel left in it. On every other return of false, when `GetProcessHeap` never fails, the
    object holds no block: `NumberOfHandles()` is 0 and `HandleInfo(ix)` is `nullptr`. -/
theorem update_failed_state (fuel : Nat) (a : AllHandlesSystemwide) (calls : List HeapCall) {e : ErrorInfo}
    {s : Retry} (h : update k api fuel a calls = .returned (.error e) s) :
    (∃ x, s.attempts.getLast? = some x ∧ x.answer.status ≠ statusSuccess ∧
      x.answer.status ≠ statusInfoLengthMismatch ∧
      e = .secondCallFailed x.answer.status x.answer.returnLength x.sysInfoLength ∧
      x.Sized ∧ s.obj.mMem = x.mMem ∧ s.obj.mMem.pMem ≠ none ∧
      s.obj.numberOfHandles = x.answer.handles.length ∧ ∀ ix, s.obj.handleInfo ix = x.answer.handles[ix]?) ∨
    ((∀ st rl len, e ≠ .secondCallFailed st rl len) ∧
      ((∀ i, api.getProcessHeap i = true) →
        s.obj.mMem.pMem = none ∧ s.obj.numberOfHandles = 0 ∧ ∀ ix, s.obj.handleInfo ix = none)) := by
  rcases update_error k api h with ⟨x, hx, hs, hm, he, ho⟩ | ⟨hne, hn⟩
  · have hsized : x.Sized := update_last_sized k api (by rw [h]; exact hx)
    obtain ⟨b, -, hb, -⟩ := id hsized
    refine .inl ⟨x, hx, hs, hm, he, hsized, by rw [ho], ?_, ?_, fun ix => ?_⟩ <;>
      simp [ho, hb, AllHandlesSystemwide.numberOfHandles, AllHandlesSystemwide.handleInfo]
  · refine .inr ⟨hne, fun hg => ?_⟩
    have hp := hn hg
    simp [hp, AllHandlesSystemwide.numberOfHandles, AllHandlesSystemwide.handleInfo]

/-- A kernel that asks for 100 bytes, then denies the retry query (`STATUS_ACCESS_DENIED`) after
    writing one row. -/
def deniedKernel : SnapshotKernel :=
  ⟨true, true, fun i _ => if i = 0 then ⟨statusInfoLengthMismatch, 100, []⟩ else ⟨0xC0000022, 100, [⟨0xA, 300, 0x44, 7⟩]⟩⟩

theorem update_failed_state_denied :
    ∃ e s, update deniedKernel healthyHeap 2 .empty [] = .returned (.error e) s ∧
      ((∃ x, s.attempts.getLast? = some x ∧ x.answer.status ≠ statusSuccess ∧
        x.answer.status ≠ statusInfoLengthMismatch ∧
        e = .secondCallFailed x.answer.status x.answer.returnLength x.sysInfoLength ∧
        x.Sized ∧ s.obj.mMem = x.mMem ∧ s.obj.mMem.pMem ≠ none ∧
        s.obj.numberOfHandles = x.answer.handles.length ∧ ∀ ix, s.obj.handleInfo ix = x.answer.handles[ix]?) ∨
      ((∀ st rl len, e ≠ .secondCallFailed st rl len) ∧
        ((∀ i, healthyHeap.getProcessHeap i = true) →
          s.obj.mMem.pMem = none ∧ s.obj.numberOfHandles = 0 ∧ ∀ ix, s.obj.handleInfo ix = none))) :=
  ⟨_, _, by rfl, update_failed_state deniedKernel healthyHeap 2 .empty [] (by rfl)⟩

/-- `Update` returns false on the denied retry query with `m_Mem` still holding its block, and
    `NumberOfHandles()` and `HandleInfo(0)` read the row the kernel wrote. -/
theorem update_failure_keeps_block :
    ∃ e s, update deniedKernel healthyHeap 2 .empty [] = .returned (.error e) s ∧
      s.obj.mMem.pMem = some 1 ∧ s.obj.numberOfHandles = 1 ∧ s.obj.handleInfo 0 = some ⟨0xA, 300, 0x44, 7⟩ :=
  ⟨_, _, by rfl, by rfl, by rfl, by rfl⟩

end ZombieFinder

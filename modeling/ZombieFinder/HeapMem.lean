import ZombieFinder.Basic

/-
  ZombieFinder.HeapMem — `HeapMem` (HeapMem.h, HeapMem.cpp): one block from the process heap,
  released before the next one is taken and by the destructor.

  The heap API is the environment: `HeapApi` gives the answer of each call by its index among
  the heap calls made so far, and every method returns the calls it made (`HeapCall`) after
  those already made. `alloc_ok` is the method's contract as `AllHandlesSystemwide::Update`
  relies on it: after a successful `Alloc(n)` the object holds the block the last call,
  `HeapAlloc(n)`, returned, and its size is `n`.

  Over the object's whole life (`runOps`, `lifetime`), the heap calls are read as a ledger of the
  blocks `HeapAlloc` returned and `HeapFree` was passed (`blockEvents`):
  - `heapMem_ledger`: after any sequence of `Alloc` and `Dealloc` calls, and after the destructor,
    whatever the heap answers, the object `Holds` against the calls made: every block was freed
    right after it was obtained and before the next was, except the one the object holds, which
    was obtained last by a `HeapAlloc` of `Size()` bytes; without a block `Size()` is 0. When
    `GetProcessHeap` never fails, the destructor leaves every block obtained freed exactly once.
-/

namespace ZombieFinder

abbrev Block := Nat

/-- `m_pMem` (`none` for NULL) and `m_nSize`. -/
structure HeapMem where
  pMem : Option Block
  nSize : Nat
  deriving DecidableEq, Repr

/-- A heap API call and its answer. -/
inductive HeapCall where
  | getProcessHeap (ok : Bool)
  | heapAlloc (nBytes : Nat) (result : Option Block)
  | heapFree (block : Block) (ok : Bool)
  deriving DecidableEq, Repr

/-- The heap API's answer to each call, by the number of heap calls made before it. -/
structure HeapApi where
  getProcessHeap : Nat → Bool
  heapAlloc : Nat → Nat → Option Block
  heapFree : Nat → Block → Bool

/-- A method's return value (with `sErrorInfo`), the object after it, and the heap calls so far. -/
structure HeapRes where
  ret : Except ErrorInfo Unit
  mem : HeapMem
  calls : List HeapCall

/-- A call on the object: `Alloc(nBytes, …)` or `Dealloc(…)`. -/
inductive HeapOp where
  | alloc (nBytes : Nat)
  | dealloc
  deriving DecidableEq, Repr

namespace HeapMem

def empty : HeapMem := ⟨none, 0⟩

variable (api : HeapApi)

/-- `HeapMem::Dealloc`; `ProcessHeap()` is the `GetProcessHeap` call before `HeapFree`. -/
def dealloc (m : HeapMem) (calls : List HeapCall) : HeapRes :=
  match m.pMem with
  | none => ⟨.ok (), m, calls⟩
  | some b =>
    if api.getProcessHeap calls.length then
      ⟨if api.heapFree (calls.length + 1) b then .ok () else .error .heapFreeFailed, ⟨none, 0⟩,
        calls ++ [.getProcessHeap true, .heapFree b (api.heapFree (calls.length + 1) b)]⟩
    else ⟨.error .getProcessHeapFailed, m, calls ++ [.getProcessHeap false]⟩

/-- The rest of `HeapMem::Alloc(nBytes)` once the old block is released. -/
def allocAfterDealloc (nBytes : Nat) (m : HeapMem) (calls : List HeapCall) : HeapRes :=
  if api.getProcessHeap calls.length then
    match api.heapAlloc (calls.length + 1) nBytes with
    | some b => ⟨.ok (), ⟨some b, nBytes⟩, calls ++ [.getProcessHeap true, .heapAlloc nBytes (some b)]⟩
    | none => ⟨.error (.heapAllocFailed nBytes), ⟨none, m.nSize⟩, calls ++ [.getProcessHeap true, .heapAlloc nBytes none]⟩
  else ⟨.error .getProcessHeapFailed, m, calls ++ [.getProcessHeap false]⟩

/-- `HeapMem::Alloc(nBytes)`. -/
def alloc (nBytes : Nat) (m : HeapMem) (calls : List HeapCall) : HeapRes :=
  let r := dealloc api m calls
  match r.ret with
  | .error e => ⟨.error e, r.mem, r.calls⟩
  | .ok _ => allocAfterDealloc api nBytes r.mem r.calls

/-- A successful `Alloc(n)` ends with `HeapAlloc(n)` returning the block the object now holds,
    and `Size()` is `n`. -/
theorem alloc_ok {n : Nat} {m : HeapMem} {calls : List HeapCall} (h : (alloc api n m calls).ret = .ok ()) :
    ∃ b, (alloc api n m calls).mem = ⟨some b, n⟩ ∧
      (alloc api n m calls).calls.getLast? = some (.heapAlloc n (some b)) := by
  simp only [alloc, allocAfterDealloc] at h ⊢
  split at h
  · cases h
  · split at h
    · split at h
      · simp_all
      · cases h
    · cases h

/-- `Dealloc` and `Alloc` fail only with their heap messages. -/
theorem dealloc_error {m : HeapMem} {calls : List HeapCall} {e : ErrorInfo}
    (h : (dealloc api m calls).ret = .error e) : e = .heapFreeFailed ∨ e = .getProcessHeapFailed := by
  unfold dealloc at h
  split at h
  · cases h
  · split at h
    · split at h <;> simp_all
    · simp_all

/-- `Dealloc` leaves no block once `GetProcessHeap` succeeds, whatever `HeapFree` answers. -/
theorem dealloc_pMem {m : HeapMem} {calls : List HeapCall} (h : api.getProcessHeap calls.length = true) :
    (dealloc api m calls).mem.pMem = none := by
  unfold dealloc
  split
  · assumption
  · rw [if_pos h]

theorem alloc_error {n : Nat} {m : HeapMem} {calls : List HeapCall} {e : ErrorInfo}
    (h : (alloc api n m calls).ret = .error e) :
    e = .heapAllocFailed n ∨ e = .heapFreeFailed ∨ e = .getProcessHeapFailed := by
  simp only [alloc, allocAfterDealloc] at h
  split at h
  · rename_i hd
    cases h
    exact .inr (dealloc_error api hd)
  · split at h
    · split at h <;> simp_all
    · simp_all

/-- A `Dealloc` that returns true leaves no block. -/
theorem dealloc_ok_pMem {m : HeapMem} {calls : List HeapCall} (h : (dealloc api m calls).ret = .ok ()) :
    (dealloc api m calls).mem.pMem = none := by
  rcases m with ⟨_ | b, n⟩
  · rfl
  · dsimp only [dealloc] at h ⊢
    split at h <;> rename_i hg
    · rw [if_pos hg]
    · cases h

/-- When `GetProcessHeap` never fails, an `Alloc` that returns false leaves no block. -/
theorem alloc_error_pMem {n : Nat} {m : HeapMem} {calls : List HeapCall} {e : ErrorInfo}
    (hg : ∀ i, api.getProcessHeap i = true) (h : (alloc api n m calls).ret = .error e) :
    (alloc api n m calls).mem.pMem = none := by
  dsimp only [alloc] at h ⊢
  cases hd : (dealloc api m calls).ret with
  | error => exact dealloc_pMem api (hg _)
  | ok =>
    simp only [hd, allocAfterDealloc, hg, if_true] at h ⊢
    split at h
    · cases h
    · rfl

/-! ## Over the object's life -/

/-- Calls one after the other on the object `m`: the object and the heap calls after the last. -/
def runOps : List HeapOp → HeapMem → List HeapCall → HeapMem × List HeapCall
  | [], m, calls => (m, calls)
  | .alloc n :: ops, m, calls => runOps ops (alloc api n m calls).mem (alloc api n m calls).calls
  | .dealloc :: ops, m, calls => runOps ops (dealloc api m calls).mem (dealloc api m calls).calls

/-- The heap calls of an object's life: constructed empty, the calls `ops`, then the destructor's
    `Dealloc()`. -/
def lifetime (ops : List HeapOp) : List HeapCall :=
  (dealloc api (runOps api ops empty []).1 (runOps api ops empty []).2).calls

end HeapMem

/-- What a heap call does to a block: `HeapAlloc(nBytes)` returned it, or `HeapFree` was passed it. -/
inductive BlockEvent where
  | obtained (nBytes : Nat) (b : Block)
  | freed (b : Block)
  deriving DecidableEq, Repr

/-- The block a heap call obtained or released, if any. -/
def HeapCall.blockEvents : HeapCall → List BlockEvent
  | .getProcessHeap _ => []
  | .heapAlloc nBytes result => result.toList.map (.obtained nBytes)
  | .heapFree b _ => [.freed b]

/-- The block events of the heap calls, in order. -/
def blockEvents (calls : List HeapCall) : List BlockEvent := calls.flatMap HeapCall.blockEvents

/-- A block obtained by `HeapAlloc(nBytes)` and then passed to `HeapFree`. -/
def allocFree (nb : Nat × Block) : List BlockEvent := [.obtained nb.1 nb.2, .freed nb.2]

/-- The object against the heap calls made so far. The block events are blocks each obtained and
    then freed before the next is obtained, followed by the block the object holds, obtained last
    by a `HeapAlloc` of `Size()` bytes; without a block, `Size()` is 0. So `HeapFree` has only
    ever been passed the block the object held, once per block obtained. -/
structure Holds (m : HeapMem) (calls : List HeapCall) : Prop where
  nSize_eq_zero : m.pMem = none → m.nSize = 0
  ledger : ∃ bs : List (Nat × Block), blockEvents calls = bs.flatMap allocFree ++ m.pMem.toList.map (.obtained m.nSize)

@[simp] theorem blockEvents_nil : blockEvents [] = [] := rfl

@[simp] theorem blockEvents_append (cs ds : List HeapCall) :
    blockEvents (cs ++ ds) = blockEvents cs ++ blockEvents ds := List.flatMap_append ..

@[simp] theorem blockEvents_cons (c : HeapCall) (cs : List HeapCall) :
    blockEvents (c :: cs) = c.blockEvents ++ blockEvents cs := rfl

namespace Holds

variable {api : HeapApi} {m : HeapMem} {calls : List HeapCall} {n : Nat}

theorem empty : Holds HeapMem.empty [] := ⟨fun _ => rfl, [], rfl⟩

theorem dealloc (h : Holds m calls) : Holds (HeapMem.dealloc api m calls).mem (HeapMem.dealloc api m calls).calls := by
  obtain ⟨hz, bs, hb⟩ := h
  rcases m with ⟨_ | b, n⟩
  · exact ⟨hz, bs, hb⟩
  · dsimp only [HeapMem.dealloc]
    split
    · refine ⟨fun _ => rfl, bs ++ [(n, b)], ?_⟩
      simp [hb, allocFree, HeapCall.blockEvents]
    · exact ⟨hz, bs, by simp [hb, HeapCall.blockEvents]⟩

theorem allocAfterDealloc (h : Holds m calls) (hm : m.pMem = none) :
    Holds (HeapMem.allocAfterDealloc api n m calls).mem (HeapMem.allocAfterDealloc api n m calls).calls := by
  obtain ⟨hz, bs, hb⟩ := h
  unfold HeapMem.allocAfterDealloc
  split
  · split
    · exact ⟨nofun, bs, by simp [hb, hm, HeapCall.blockEvents]⟩
    · exact ⟨fun _ => hz hm, bs, by simp [hb, hm, HeapCall.blockEvents]⟩
  · exact ⟨hz, bs, by simp [hb, HeapCall.blockEvents]⟩

theorem alloc (h : Holds m calls) : Holds (HeapMem.alloc api n m calls).mem (HeapMem.alloc api n m calls).calls := by
  dsimp only [HeapMem.alloc]
  split
  · exact h.dealloc
  · exact h.dealloc.allocAfterDealloc (HeapMem.dealloc_ok_pMem api ‹_›)

theorem runOps : ∀ (ops : List HeapOp) {m calls}, Holds m calls →
    Holds (HeapMem.runOps api ops m calls).1 (HeapMem.runOps api ops m calls).2
  | [], _, _, h => h
  | .alloc _ :: ops, _, _, h => runOps ops h.alloc
  | .dealloc :: ops, _, _, h => runOps ops h.dealloc

end Holds

/-- Over every sequence of `Alloc` and `Dealloc` calls on a `HeapMem` and its destruction, whatever
    `GetProcessHeap`, `HeapAlloc` and `HeapFree` answer: between calls and after the destructor, the
    object `Holds` against the heap calls made (`HeapFree` only ever passed the block the object
    held, once per block obtained; no block and size 0, or the block with the size of the `Alloc`
    that obtained it); and when `GetProcessHeap` never fails, every block `HeapAlloc` returned was
    passed to `HeapFree` exactly once, right after it was obtained and before the next. -/
theorem heapMem_ledger (api : HeapApi) (ops : List HeapOp) :
    let s := HeapMem.runOps api ops .empty []
    Holds s.1 s.2 ∧ Holds (HeapMem.dealloc api s.1 s.2).mem (HeapMem.lifetime api ops) ∧
    ((∀ i, api.getProcessHeap i = true) →
      ∃ bs : List (Nat × Block), blockEvents (HeapMem.lifetime api ops) = bs.flatMap allocFree) := by
  intro s
  have hs : Holds s.1 s.2 := Holds.runOps ops .empty
  refine ⟨hs, hs.dealloc, fun hg => ?_⟩
  obtain ⟨-, bs, hb⟩ : Holds (HeapMem.dealloc api s.1 s.2).mem (HeapMem.dealloc api s.1 s.2).calls := hs.dealloc
  rw [HeapMem.dealloc_pMem api (hg _)] at hb
  exact ⟨bs, by rw [HeapMem.lifetime, hb, Option.toList_none, List.map_nil, List.append_nil]⟩

end ZombieFinder

import Mathlib.Data.List.AList
import Mathlib.Data.Finset.Basic
import Mathlib.Algebra.Order.Ring.Nat

/-
  ZombieFinder.Basic — the records the three components exchange (ZombieProcessThreadInfo.h,
  NtInternal.h, ZombieOwners.h) and the lookups built from them.

  Handles, process ids and kernel-object addresses are `Nat`. A `HANDLE` variable that may hold
  `nullptr` is an `Option Handle`: a handle the kernel returns on success is never NULL. Times
  are the code's `ULONGLONG` view of a `FILETIME` (`UInt64`). The `std::unordered_map` lookups
  are `AList`s: a key maps to one value, `operator[]=` is `insert`; iteration order is
  unspecified in the code, and no result below depends on it.

  Counters (`size_t`, and `ULONG nThreads`) are `Nat`: no enumeration reaches 2^32 processes
  or threads. Names are Lean strings; a `std::wstring` holds their UTF-16 code units
  (`wideChars`), which is what `_wcsicmp` compares.
-/

namespace ZombieFinder

abbrev Handle := Nat

/-- An `NTSTATUS` value; the code only compares them for equality. -/
abbrev NTSTATUS := Nat

/-- `STATUS_SUCCESS`. -/
def statusSuccess : NTSTATUS := 0

/-- `STATUS_INFO_LENGTH_MISMATCH`. -/
def statusInfoLengthMismatch : NTSTATUS := 0xC0000004

/-- `STATUS_NO_MORE_ENTRIES`. -/
def statusNoMoreEntries : NTSTATUS := 0x8000001A

/-- A `wchar_t`: on Windows, a UTF-16 code unit. -/
abbrev WChar := UInt16

/-- The UTF-16 code units of a character: its scalar value below U+10000, else a surrogate
    pair. -/
def utf16Units (c : Char) : List WChar :=
  if c.val < 0x10000 then [c.val.toUInt16]
  else [(0xD800 + (c.val - 0x10000) / 0x400).toUInt16, (0xDC00 + (c.val - 0x10000) % 0x400).toUInt16]

/-- The `wchar_t`s of the `std::wstring` holding a name. The model's names are Lean strings,
    sequences of Unicode scalar values; the code reads their UTF-16 code units. -/
def wideChars (s : String) : List WChar := s.toList.flatMap utf16Units

example : wideChars (String.singleton (Char.ofNat 0x10000)) = [0xD800, 0xDC00] := by decide

/-- Information collected about a zombie process (`tid = 0`) or one of its threads. -/
structure ZombieProcessThreadInfo where
  pid : Nat
  tid : Nat
  sImagePath : String
  createTime : UInt64
  exitTime : UInt64
  nThreads : Nat
  parentPid : Nat
  sParentImagePath : String
  deriving DecidableEq, Repr

/-- `ZombieProcessThreadInfo zombieInfo = { 0 }`. -/
def ZombieProcessThreadInfo.zero : ZombieProcessThreadInfo := ⟨0, 0, "", 0, 0, 0, 0, ""⟩

/-- One row of the system handle table (`SYSTEM_HANDLE_TABLE_ENTRY_INFO_EX`); the access mask,
    back-trace index and attributes are read by no modelled function. -/
structure SystemHandleTableEntryInfoEx where
  object : Nat
  uniqueProcessId : Nat
  handleValue : Nat
  objectTypeIndex : Nat
  deriving DecidableEq, Repr

/-- A handle value and the zombie process or thread it refers to. -/
structure ZombieOwningInfo where
  handleValue : Nat
  zombieInfo : ZombieProcessThreadInfo
  deriving DecidableEq, Repr

structure ServiceNames where
  sServiceName : String
  sDisplayName : String
  deriving DecidableEq, Repr

abbrev ServiceList := List ServiceNames

/-- A running process holding handles to zombies (`ZombieOwner_t`); `pServiceList` is the
    process-wide service lookup's entry for it, `none` for `nullptr`. -/
structure ZombieOwner where
  pid : Nat
  sProcessImagePath : String
  sExeName : String
  pServiceList : Option ServiceList
  zombieOwningInfo : List ZombieOwningInfo
  deriving DecidableEq, Repr

abbrev ZombieHandleLookup := AList fun _ : Handle => ZombieProcessThreadInfo
abbrev ZombieObjectAddrLookup := AList fun _ : Nat => ZombieProcessThreadInfo
abbrev ZombiePidLookup := AList fun _ : Nat => ZombieProcessThreadInfo
abbrev ZombieOwnersCollection := AList fun _ : Nat => ZombieOwner

/-- The values of a lookup, in its iteration order. -/
def values {α β : Type} (m : AList fun _ : α => β) : List β := m.entries.map (·.2)

/-- An entry of `processEnumErrors`. -/
inductive ProcessEnumError where
  /-- "NtQueryInformationProcess failed during enumeration `n`: `status`". -/
  | queryFailed (n : Nat) (status : NTSTATUS)
  /-- "Process enumeration failed: NtGetNextProcess returned `status` after `n` iterations". -/
  | enumerationFailed (status : NTSTATUS) (n : Nat)
  deriving DecidableEq, Repr

/-- What a failing call leaves in `sErrorInfo`. Win32 `GetLastError` codes, rendered by
    `SysErrorMessageWithCode`, are not modelled; `NTSTATUS` values and sizes are. -/
inductive ErrorInfo where
  /-- A message the code writes literally; `text ""` is the cleared string. -/
  | text (s : String)
  /-- "ImpersonateSelf failed: …" -/
  | impersonateSelfFailed
  /-- "Cannot enable Debug Programs privilege. This program must be executed with
      administrative privileges." and `EnablePrivilege`'s own error. -/
  | cannotEnableDebugPrivilege
  /-- "NtQuerySystemInformation first call failed: `status`" -/
  | firstCallFailed (status : NTSTATUS)
  /-- "NtQuerySystemInformation second call failed: `status` returnLength = … had allocated …" -/
  | secondCallFailed (status : NTSTATUS) (returnLength sysInfoLength : UInt32)
  /-- "HeapAlloc failed to allocate `nBytes` bytes" -/
  | heapAllocFailed (nBytes : Nat)
  /-- "HeapFree failed: …" -/
  | heapFreeFailed
  /-- "GetProcessHeap failed: …" -/
  | getProcessHeapFailed
  deriving DecidableEq, Repr

def couldntGetModuleNtdll : ErrorInfo := .text "Couldn't get module ntdll.dll"
def unableToLoadNtdllFunctions : ErrorInfo := .text "ERROR: Unable to load functions from ntdll.dll"
def couldntGetNtQuerySystemInformation : ErrorInfo := .text "Couldn't get function NtQuerySystemInformation"
def integerOverflow : ErrorInfo := .text "Unable to allocate memory: integer overflow"

theorem uint32_lt_iff {a b : UInt32} : a < b ↔ a.toNat < b.toNat := by
  rw [UInt32.lt_def, BitVec.lt_def]; rfl

theorem uint64_lt_iff {a b : UInt64} : a < b ↔ a.toNat < b.toNat := by
  rw [UInt64.lt_def, BitVec.lt_def]; rfl

theorem uint64_le_iff {a b : UInt64} : a ≤ b ↔ a.toNat ≤ b.toNat := by
  rw [UInt64.le_def, BitVec.le_def]; rfl

theorem exists_mem_concat {α : Type} {l : List α} {a : α} {P : α → Prop} :
    (∃ x ∈ l ++ [a], P x) ↔ (∃ x ∈ l, P x) ∨ P a := by
  simp [or_and_right, exists_or]

/-! ## Lookups -/

theorem mem_values {α β : Type} [DecidableEq α] {m : AList fun _ : α => β} {v : β} :
    v ∈ values m ↔ ∃ k, m.lookup k = some v := by
  simp only [values, List.mem_map]
  constructor
  · rintro ⟨⟨k, w⟩, hm, rfl⟩
    exact ⟨k, AList.mem_lookup_iff.mpr hm⟩
  · rintro ⟨k, hk⟩
    exact ⟨⟨k, v⟩, AList.mem_lookup_iff.mp hk, rfl⟩

theorem mem_values_insert {α β : Type} [DecidableEq α] {m : AList fun _ : α => β} {k : α} {v x : β}
    (h : x ∈ values (m.insert k v)) : x = v ∨ x ∈ values m := by
  obtain ⟨k', hk'⟩ := mem_values.mp h
  by_cases e : k' = k
  · subst e; rw [AList.lookup_insert] at hk'; exact .inl (Option.some.inj hk').symm
  · rw [AList.lookup_insert_ne e] at hk'; exact .inr (mem_values.mpr ⟨k', hk'⟩)

theorem mem_insert_of_mem {α β : Type} [DecidableEq α] {m : AList fun _ : α => β} {k k' : α} {v : β}
    (h : k' ∈ m) : k' ∈ m.insert k v :=
  (AList.mem_insert m).mpr (.inr h)

theorem mem_insert_self {α β : Type} [DecidableEq α] (m : AList fun _ : α => β) (k : α) (v : β) :
    k ∈ m.insert k v :=
  (AList.mem_insert m).mpr (.inl rfl)

theorem values_map_eq {α β γ : Type} [DecidableEq α] {m : AList fun _ : α => β} {f : β → γ} {g : α → γ}
    (h : ∀ k v, m.lookup k = some v → f v = g k) : (values m).map f = m.keys.map g := by
  simp only [values, AList.keys, List.keys, List.map_map]
  exact List.map_congr_left fun x hx => h x.1 x.2 (AList.mem_lookup_iff.mpr hx)

theorem values_map_eq_keys {α β : Type} [DecidableEq α] {m : AList fun _ : α => β} {f : β → α}
    (h : ∀ k v, m.lookup k = some v → f v = k) : (values m).map f = m.keys := by
  rw [values_map_eq (g := id) h, List.map_id]

theorem count_map_values {α β : Type} [DecidableEq α] {m : AList fun _ : α => β} {f : β → α}
    (h : ∀ k v, m.lookup k = some v → f v = k) (k : α) :
    ((values m).map f).count k = if k ∈ m then 1 else 0 := by
  rw [values_map_eq_keys h, List.count_eq_of_nodup m.keys_nodup]
  simp [AList.mem_keys]

end ZombieFinder

import ZombieFinder.ZombieHandles
import Mathlib.Algebra.BigOperators.Group.List

/-
  ZombieFinder.Attribution — the two snapshot passes of `ZombieOwners::Update_Impl`
  (ZombieOwners.cpp).

  Pass 1 reads the snapshot entries of the current process whose handle value is a key of
  discovery's handle lookup `L`, and maps each one's kernel-object address to the zombie's
  record (`zombieObjectAddrLookup`; a later entry overwrites an earlier one). Pass 2 takes every
  entry whose object address is mapped, unless it is one of discovery's own handles, creates
  the owning process's record on its first such entry, appends the handle to it, and erases the
  zombie's PID from the PID lookup.

  The reference the passes are compared with is written from the intended behaviour, not from
  the loops: the record an object address maps to is that of the last entry of the current
  process naming it through a discovery handle (`refAddr`); an entry is `Attributed` when its
  address is mapped and it is not discovery's own handle; an owner's list is its attributed
  entries in snapshot order (`refInfos`).
  - `addrLookup_lookup`: pass 1 builds exactly `refAddr`.
  - `attributeHandles_spec`: pass 2's owners are exactly the owning PIDs of attributed entries, each
    record filled in from its process's answers with its attributed entries in snapshot order,
    and the PID lookup loses exactly the PIDs of the attributed zombies.
  - `attributeHandles_unexplained`: given discovery's invariant (`Discovered`), the attributed
    zombies are discovered ones and the PID lookup left holds one `TID = 0` record for each
    discovered PID no owner holds (`owned_pid_iff`).
-/

namespace ZombieFinder

/-- What `GetImagePathFromPID(pid, …)` gets: the handle `OpenProcess` returns, and what it leaves
    in `sProcessImagePath` (the path, or the text of the error). -/
structure ImagePathAnswers where
  hProcess : Option Handle
  sProcessImagePath : String

/-- The answers about a process holding zombie handles, by PID: `GetImagePathFromPID` and the
    process-wide service lookup (`LookupServicesByPID`). -/
structure OwnerAnswers where
  imagePathFromPid : Nat → ImagePathAnswers
  servicesByPid : Nat → Option ServiceList

/-- `GetFileNameFromFilePath` and the CRT's `towlower` on a `wchar_t`, whose code is not in the
    repository: every result holds for any such functions. -/
structure Lib where
  getFileNameFromFilePath : String → String
  towlower : WChar → WChar

/-- `GetImagePathFromPID(pid, sProcessImagePath)`: the string, and the handle events of
    `OpenProcess`, `QueryFullProcessImageNameW` and `CloseHandle`. -/
def getImagePathFromPID (a : ImagePathAnswers) : String × List HandleEvent :=
  (a.sProcessImagePath, match a.hProcess with
    | none => []
    | some h => [.opened h, .used h, .closed h])

/-- A default-constructed `ZombieOwner_t`, which `m_owners[pid]` creates for a missing key. -/
def ZombieOwner.default : ZombieOwner := ⟨0, "", "", none, []⟩

/-- `ZombieOwner_t owner = { 0 }` filled in for `pid`, before any handle is added. -/
def newOwner (lib : Lib) (oa : OwnerAnswers) (pid : Nat) : ZombieOwner :=
  { pid
    sProcessImagePath := (getImagePathFromPID (oa.imagePathFromPid pid)).1
    sExeName := lib.getFileNameFromFilePath (getImagePathFromPID (oa.imagePathFromPid pid)).1
    pServiceList := oa.servicesByPid pid
    zombieOwningInfo := [] }

/-! ## Pass 1 -/

/-- One iteration of the first loop. -/
def mapEntry (dwCurrPID : Nat) (L : ZombieHandleLookup) (A : ZombieObjectAddrLookup)
    (e : SystemHandleTableEntryInfoEx) : ZombieObjectAddrLookup :=
  if e.uniqueProcessId = dwCurrPID then
    match L.lookup e.handleValue with
    | some z => A.insert e.object z
    | none => A
  else A

/-- `zombieObjectAddrLookup` after the first loop over the entries `S`. -/
def addrLookup (dwCurrPID : Nat) (L : ZombieHandleLookup) (S : List SystemHandleTableEntryInfoEx) :
    ZombieObjectAddrLookup :=
  S.foldl (mapEntry dwCurrPID L) ∅

/-! ## Pass 2 -/

/-- The second loop's state: `m_owners`, `zombiePidLookup`, and the handle events of the
    `GetImagePathFromPID` calls. -/
structure Attribution where
  owners : ZombieOwnersCollection
  pidLookup : ZombiePidLookup
  trace : List HandleEvent

/-- `if (m_owners.end() == m_owners.find(pid))`: create the owner's record. -/
def ensureOwner (lib : Lib) (oa : OwnerAnswers) (st : Attribution) (pid : Nat) : Attribution :=
  if pid ∈ st.owners then st
  else { st with
    owners := st.owners.insert pid (newOwner lib oa pid)
    trace := st.trace ++ (getImagePathFromPID (oa.imagePathFromPid pid)).2 }

/-- `m_owners[pid].zombieOwningInfo.push_back(owningInfo)`. -/
def pushOwningInfo (owners : ZombieOwnersCollection) (pid : Nat) (info : ZombieOwningInfo) :
    ZombieOwnersCollection :=
  owners.insert pid { (owners.lookup pid).getD ZombieOwner.default with
    zombieOwningInfo := ((owners.lookup pid).getD ZombieOwner.default).zombieOwningInfo ++ [info] }

/-- `if (zombiePidLookup.end() != zombiePidLookup.find(pid)) zombiePidLookup.erase(pid)`. -/
def erasePid (m : ZombiePidLookup) (pid : Nat) : ZombiePidLookup :=
  if pid ∈ m then m.erase pid else m

/-- One iteration of the second loop, with the address lookup `A` of the first. -/
def attributeEntry (lib : Lib) (oa : OwnerAnswers) (dwCurrPID : Nat) (L : ZombieHandleLookup)
    (A : ZombieObjectAddrLookup) (st : Attribution) (e : SystemHandleTableEntryInfoEx) : Attribution :=
  match A.lookup e.object with
  | none => st
  | some z =>
    if e.uniqueProcessId ≠ dwCurrPID ∨ e.handleValue ∉ L then
      { ensureOwner lib oa st e.uniqueProcessId with
        owners := pushOwningInfo (ensureOwner lib oa st e.uniqueProcessId).owners e.uniqueProcessId
          ⟨e.handleValue, z⟩
        pidLookup := erasePid st.pidLookup z.pid }
    else st

/-- Both loops over the entries `S`, from the PID lookup `D` discovery filled. -/
def attributeHandles (lib : Lib) (oa : OwnerAnswers) (dwCurrPID : Nat) (L : ZombieHandleLookup)
    (S : List SystemHandleTableEntryInfoEx) (D : ZombiePidLookup) : Attribution :=
  S.foldl (attributeEntry lib oa dwCurrPID L (addrLookup dwCurrPID L S)) ⟨∅, D, []⟩

/-! ## The reference -/

/-- The record the object `obj` maps to: that of the last entry of process `c` naming it
    through a handle of `L`. -/
def refAddr (S : List SystemHandleTableEntryInfoEx) (L : ZombieHandleLookup) (c obj : Nat) :
    Option ZombieProcessThreadInfo :=
  (S.filter fun e => e.uniqueProcessId = c ∧ e.object = obj ∧ e.handleValue ∈ L).getLast?.bind
    fun e => L.lookup e.handleValue

/-- An entry names a mapped object and is not one of discovery's own handles. -/
def Attr (addr : Nat → Option ZombieProcessThreadInfo) (c : Nat) (L : ZombieHandleLookup)
    (e : SystemHandleTableEntryInfoEx) : Prop :=
  (addr e.object).isSome ∧ ¬(e.uniqueProcessId = c ∧ e.handleValue ∈ L)

instance (addr : Nat → Option ZombieProcessThreadInfo) (c : Nat) (L : ZombieHandleLookup) :
    DecidablePred (Attr addr c L) :=
  fun _ => inferInstanceAs (Decidable (_ ∧ _))

/-- The handles of the entries `es` attributed to `p`, in order, each with its zombie's record. -/
def infosOf (addr : Nat → Option ZombieProcessThreadInfo) (c : Nat) (L : ZombieHandleLookup)
    (es : List SystemHandleTableEntryInfoEx) (p : Nat) : List ZombieOwningInfo :=
  (es.filter fun e => Attr addr c L e ∧ e.uniqueProcessId = p).filterMap fun e =>
    (addr e.object).map fun z => ⟨e.handleValue, z⟩

/-- Some entry of `es` attributes a zombie with PID `k`. -/
def Claims (addr : Nat → Option ZombieProcessThreadInfo) (c : Nat) (L : ZombieHandleLookup)
    (es : List SystemHandleTableEntryInfoEx) (k : Nat) : Prop :=
  ∃ e ∈ es, Attr addr c L e ∧ (addr e.object).map (·.pid) = some k

instance (addr : Nat → Option ZombieProcessThreadInfo) (c : Nat) (L : ZombieHandleLookup)
    (es : List SystemHandleTableEntryInfoEx) (k : Nat) : Decidable (Claims addr c L es k) :=
  inferInstanceAs (Decidable (∃ e ∈ es, _))

def Attributed (S : List SystemHandleTableEntryInfoEx) (L : ZombieHandleLookup) (c : Nat) :
    SystemHandleTableEntryInfoEx → Prop :=
  Attr (refAddr S L c) c L

instance (S : List SystemHandleTableEntryInfoEx) (L : ZombieHandleLookup) (c : Nat) :
    DecidablePred (Attributed S L c) :=
  inferInstanceAs (DecidablePred (Attr (refAddr S L c) c L))

def refInfos (S : List SystemHandleTableEntryInfoEx) (L : ZombieHandleLookup) (c p : Nat) :
    List ZombieOwningInfo :=
  infosOf (refAddr S L c) c L S p

/-! ## Pass 1 builds the reference -/

theorem refAddr_concat (S : List SystemHandleTableEntryInfoEx) (L : ZombieHandleLookup) (c obj : Nat)
    (e : SystemHandleTableEntryInfoEx) :
    refAddr (S ++ [e]) L c obj =
      if e.uniqueProcessId = c ∧ e.object = obj ∧ e.handleValue ∈ L then L.lookup e.handleValue
      else refAddr S L c obj := by
  unfold refAddr
  rw [List.filter_append]
  split_ifs with h
  · simp [h]
  · simp [h]

/-- The first loop maps exactly the objects `refAddr` maps, each to the same record. -/
theorem addrLookup_lookup (dwCurrPID : Nat) (L : ZombieHandleLookup) (S : List SystemHandleTableEntryInfoEx)
    (obj : Nat) : (addrLookup dwCurrPID L S).lookup obj = refAddr S L dwCurrPID obj := by
  induction S using List.reverseRecOn with
  | nil => rfl
  | append_singleton S e ih =>
    rw [addrLookup, List.foldl_append, List.foldl_cons, List.foldl_nil, ← addrLookup, refAddr_concat]
    unfold mapEntry
    by_cases hc : e.uniqueProcessId = dwCurrPID
    · cases hz : L.lookup e.handleValue with
      | none =>
        simp [hc, ih, AList.lookup_eq_none.mp hz]
      | some z =>
        have : e.handleValue ∈ L := AList.lookup_isSome.mp (by rw [hz]; rfl)
        by_cases ho : e.object = obj
        · simp [hc, ho, this]
        · simp [hc, ho, ih, AList.lookup_insert_ne (Ne.symm ho)]
    · simp [hc, ih]

theorem erasePid_lookup (m : ZombiePidLookup) (x k : Nat) :
    (erasePid m x).lookup k = if k = x then none else m.lookup k := by
  unfold erasePid
  by_cases hk : k = x
  · subst hk
    rw [if_pos rfl]
    split_ifs with hm
    · exact AList.lookup_erase _ _
    · exact AList.lookup_eq_none.mpr hm
  · rw [if_neg hk]
    split_ifs
    · exact AList.lookup_erase_ne hk
    · rfl

theorem pushOwningInfo_lookup (owners : ZombieOwnersCollection) (q p : Nat) (info : ZombieOwningInfo) :
    (pushOwningInfo owners q info).lookup p =
      if p = q then some { (owners.lookup q).getD ZombieOwner.default with
        zombieOwningInfo := ((owners.lookup q).getD ZombieOwner.default).zombieOwningInfo ++ [info] }
      else owners.lookup p := by
  unfold pushOwningInfo
  split_ifs with h
  · subst h; exact AList.lookup_insert _
  · exact AList.lookup_insert_ne h

/-! ## Pass 2 attributes exactly the reference's entries -/

section

variable {lib : Lib} {oa : OwnerAnswers} {st : Attribution} {pid : Nat}

@[simp] theorem ensureOwner_pidLookup : (ensureOwner lib oa st pid).pidLookup = st.pidLookup := by
  unfold ensureOwner; split_ifs <;> rfl

theorem ensureOwner_mem {k : Nat} : k ∈ (ensureOwner lib oa st pid).owners ↔ k = pid ∨ k ∈ st.owners := by
  unfold ensureOwner
  split_ifs with h
  · exact ⟨.inr, fun h' => h'.elim (fun e => e ▸ h) id⟩
  · exact AList.mem_insert _

theorem ensureOwner_lookup_ne {k : Nat} (hk : k ≠ pid) :
    (ensureOwner lib oa st pid).owners.lookup k = st.owners.lookup k := by
  unfold ensureOwner
  split_ifs
  · rfl
  · exact AList.lookup_insert_ne hk

theorem restores_getImagePathFromPID (a : ImagePathAnswers) : Restores (getImagePathFromPID a).2 := by
  unfold getImagePathFromPID
  split
  · exact restores_nil
  · exact restores_opened_used_closed _

/-- Each iteration of the second loop closes every handle it opens (`GetImagePathFromPID`'s). -/
theorem restores_attributeEntry {c : Nat} {L : ZombieHandleLookup} {A : ZombieObjectAddrLookup}
    {e : SystemHandleTableEntryInfoEx} (h : Restores st.trace) :
    Restores (attributeEntry lib oa c L A st e).trace := by
  unfold attributeEntry
  split
  · exact h
  · split_ifs
    · show Restores (ensureOwner lib oa st e.uniqueProcessId).trace
      unfold ensureOwner
      split_ifs
      · exact h
      · exact h.append (restores_getImagePathFromPID _)
    · exact h

theorem restores_foldl_attributeEntry {c : Nat} {L : ZombieHandleLookup} {A : ZombieObjectAddrLookup} :
    ∀ (qs : List SystemHandleTableEntryInfoEx) {st : Attribution}, Restores st.trace →
      Restores (qs.foldl (attributeEntry lib oa c L A) st).trace
  | [], _, h => h
  | _ :: qs, _, h => restores_foldl_attributeEntry qs (restores_attributeEntry h)

/-- Both loops together close every handle they open. -/
theorem restores_attributeHandles (c : Nat) (L : ZombieHandleLookup) (S : List SystemHandleTableEntryInfoEx)
    (D : ZombiePidLookup) : Restores (attributeHandles lib oa c L S D).trace :=
  restores_foldl_attributeEntry S (show Restores (⟨∅, D, []⟩ : Attribution).trace from restores_nil)

end

section

variable (lib : Lib) (oa : OwnerAnswers) (c : Nat) (L : ZombieHandleLookup)
  (addr : Nat → Option ZombieProcessThreadInfo) (D : ZombiePidLookup)

/-- What the second loop has built after the entries `pre`. -/
structure Attributes (pre : List SystemHandleTableEntryInfoEx) (st : Attribution) : Prop where
  owners_mem : ∀ p, p ∈ st.owners ↔ ∃ e ∈ pre, Attr addr c L e ∧ e.uniqueProcessId = p
  owners_record : ∀ p o, st.owners.lookup p = some o →
    o = { newOwner lib oa p with zombieOwningInfo := infosOf addr c L pre p }
  pid_lookup : ∀ k v, st.pidLookup.lookup k = some v ↔ D.lookup k = some v ∧ ¬Claims addr c L pre k

variable {lib oa c L addr D}

theorem infosOf_concat (pre : List SystemHandleTableEntryInfoEx) (e : SystemHandleTableEntryInfoEx) (p : Nat) :
    infosOf addr c L (pre ++ [e]) p = infosOf addr c L pre p ++
      if Attr addr c L e ∧ e.uniqueProcessId = p then ((addr e.object).map fun z => ⟨e.handleValue, z⟩).toList
      else [] := by
  unfold infosOf
  rw [List.filter_append, List.filterMap_append]
  split_ifs with h
  · rw [List.filter_singleton, decide_eq_true h, cond_true, List.filterMap_cons, List.filterMap_nil]
    cases addr e.object <;> rfl
  · simp [h]

theorem claims_concat {pre : List SystemHandleTableEntryInfoEx} {e : SystemHandleTableEntryInfoEx} {k : Nat} :
    Claims addr c L (pre ++ [e]) k ↔ Claims addr c L pre k ∨ (Attr addr c L e ∧ (addr e.object).map (·.pid) = some k) :=
  exists_mem_concat

theorem Attributes.skip {pre : List SystemHandleTableEntryInfoEx} {st : Attribution} {e : SystemHandleTableEntryInfoEx}
    (h : Attributes lib oa c L addr D pre st) (hn : ¬Attr addr c L e) :
    Attributes lib oa c L addr D (pre ++ [e]) st := by
  refine ⟨fun p => ?_, fun p o ho => ?_, fun k v => ?_⟩
  · rw [h.owners_mem, exists_mem_concat]; simp [hn]
  · rw [infosOf_concat, if_neg (fun h' => hn h'.1), List.append_nil]; exact h.owners_record p o ho
  · rw [h.pid_lookup, claims_concat]; simp [hn]

theorem infosOf_eq_nil {pre : List SystemHandleTableEntryInfoEx} {p : Nat}
    (h : ¬∃ e ∈ pre, Attr addr c L e ∧ e.uniqueProcessId = p) : infosOf addr c L pre p = [] := by
  unfold infosOf
  rw [List.filter_eq_nil_iff.mpr fun x hx => by simpa using fun ha hu => h ⟨x, hx, ha, hu⟩]
  rfl

/-- Attributing an entry `Attr` accepts, whose object is the zombie `z`: the entry's process
    becomes an owner holding the handle, and `z`'s PID leaves the PID lookup. -/
theorem Attributes.attribute {pre : List SystemHandleTableEntryInfoEx} {st : Attribution}
    {e : SystemHandleTableEntryInfoEx} {z : ZombieProcessThreadInfo} (h : Attributes lib oa c L addr D pre st)
    (ha : Attr addr c L e) (hz : addr e.object = some z) :
    Attributes lib oa c L addr D (pre ++ [e])
      { ensureOwner lib oa st e.uniqueProcessId with
        owners := pushOwningInfo (ensureOwner lib oa st e.uniqueProcessId).owners e.uniqueProcessId ⟨e.handleValue, z⟩
        pidLookup := erasePid st.pidLookup z.pid } := by
  refine ⟨fun p => ?_, fun p o ho => ?_, fun k v => ?_⟩
  · simp only [pushOwningInfo, AList.mem_insert, ensureOwner_mem, h.owners_mem, exists_mem_concat, ha, true_and]
    constructor
    · rintro (rfl | rfl | hp)
      exacts [.inr rfl, .inr rfl, .inl hp]
    · rintro (hp | rfl)
      exacts [.inr (.inr hp), .inl rfl]
  · dsimp only at ho
    rw [pushOwningInfo_lookup] at ho
    split_ifs at ho with hp
    · subst hp
      cases Option.some.inj ho
      rw [infosOf_concat, if_pos ⟨ha, rfl⟩, hz]
      by_cases hq : e.uniqueProcessId ∈ st.owners
      · obtain ⟨o1, h1⟩ := Option.isSome_iff_exists.mp (AList.lookup_isSome.mpr hq)
        simp [ensureOwner, hq, h1, h.owners_record _ o1 h1]
      · simp [ensureOwner, hq, infosOf_eq_nil ((h.owners_mem _).not.mp hq), newOwner]
    · rw [ensureOwner_lookup_ne hp] at ho
      rw [infosOf_concat, if_neg (fun h' => hp h'.2.symm), List.append_nil]
      exact h.owners_record p o ho
  · dsimp only
    rw [erasePid_lookup, claims_concat, hz]
    split_ifs with hk
    · subst hk; simp [ha]
    · rw [h.pid_lookup]; simp [Ne.symm hk]

/-- One iteration of the second loop, with the address lookup `A` the first loop built. -/
theorem Attributes.step {pre : List SystemHandleTableEntryInfoEx} {st : Attribution} {e : SystemHandleTableEntryInfoEx}
    (h : Attributes lib oa c L addr D pre st) {A : ZombieObjectAddrLookup} (hA : ∀ obj, A.lookup obj = addr obj) :
    Attributes lib oa c L addr D (pre ++ [e]) (attributeEntry lib oa c L A st e) := by
  unfold attributeEntry
  rw [hA]
  cases hz : addr e.object with
  | none => exact h.skip (by simp [Attr, hz])
  | some z =>
    dsimp only
    by_cases hx : e.uniqueProcessId ≠ c ∨ e.handleValue ∉ L
    · rw [if_pos hx]
      exact h.attribute ⟨by simp [hz], not_and_or.mpr hx⟩ hz
    · rw [if_neg hx]
      exact h.skip fun ha => hx (not_and_or.mp ha.2)

theorem Attributes.run {A : ZombieObjectAddrLookup} (hA : ∀ obj, A.lookup obj = addr obj) :
    ∀ (qs : List SystemHandleTableEntryInfoEx) {pre : List SystemHandleTableEntryInfoEx} {st : Attribution},
      Attributes lib oa c L addr D pre st →
      Attributes lib oa c L addr D (pre ++ qs) (qs.foldl (attributeEntry lib oa c L A) st)
  | [], _, _, h => by rw [List.append_nil]; exact h
  | _ :: qs, _, _, h => by
    rw [List.foldl_cons, ← List.singleton_append, ← List.append_assoc]; exact Attributes.run hA qs (h.step hA)

theorem attributes_nil : Attributes lib oa c L addr D [] ⟨∅, D, []⟩ :=
  ⟨fun p => by simp, fun p o h => by simp at h, fun k v => by simp [Claims]⟩

theorem infosOf_ne_nil {es : List SystemHandleTableEntryInfoEx} {p : Nat}
    (h : ∃ e ∈ es, Attr addr c L e ∧ e.uniqueProcessId = p) : infosOf addr c L es p ≠ [] := by
  obtain ⟨e, he, ha, hp⟩ := h
  unfold infosOf
  rw [Ne, List.filterMap_eq_nil_iff]
  intro hall
  have := hall e (List.mem_filter.mpr ⟨he, by simp [ha, hp]⟩)
  rw [Option.map_eq_none'] at this
  simp [this, Attr] at ha

end

/-- Both loops: the owners are exactly the owning PIDs of the attributed entries, each record as
    `newOwner` filled it with its attributed entries in snapshot order, and the PID lookup keeps
    exactly the PIDs no attributed entry names. -/
theorem attributeHandles_spec (lib : Lib) (oa : OwnerAnswers) (c : Nat) (L : ZombieHandleLookup)
    (S : List SystemHandleTableEntryInfoEx) (D : ZombiePidLookup) :
    Attributes lib oa c L (refAddr S L c) D S (attributeHandles lib oa c L S D) := by
  have : Attributes lib oa c L (refAddr S L c) D ([] ++ S)
      (S.foldl (attributeEntry lib oa c L (addrLookup c L S)) ⟨∅, D, []⟩) :=
    Attributes.run (addrLookup_lookup c L S) S attributes_nil
  rwa [List.nil_append] at this

/-! ## The PID lookup after both loops -/

section

variable (lib : Lib) (oa : OwnerAnswers) (c : Nat) (L : ZombieHandleLookup)
  (S : List SystemHandleTableEntryInfoEx) (D : ZombiePidLookup)

/-- A zombie PID is named by some owner's handle exactly when an attributed entry names it. -/
theorem owned_pid_iff (k : Nat) :
    (∃ ow ∈ values (attributeHandles lib oa c L S D).owners, ∃ oi ∈ ow.zombieOwningInfo, oi.zombieInfo.pid = k) ↔
      Claims (refAddr S L c) c L S k := by
  have h := attributeHandles_spec lib oa c L S D
  constructor
  · rintro ⟨ow, how, oi, hoi, rfl⟩
    obtain ⟨p, hp⟩ := mem_values.mp how
    rw [h.owners_record p ow hp] at hoi
    simp only [infosOf, List.mem_filterMap, List.mem_filter, Option.map_eq_some'] at hoi
    obtain ⟨e, ⟨he, hae⟩, z, hz, rfl⟩ := hoi
    exact ⟨e, he, (of_decide_eq_true hae).1, by simp [hz]⟩
  · rintro ⟨e, he, ha, hk⟩
    obtain ⟨z, hz, rfl⟩ := Option.map_eq_some'.mp hk
    obtain ⟨ow, how⟩ := Option.isSome_iff_exists.mp
      (AList.lookup_isSome.mpr ((h.owners_mem _).mpr ⟨e, he, ha, rfl⟩))
    refine ⟨ow, mem_values.mpr ⟨_, how⟩, ⟨e.handleValue, z⟩, ?_, rfl⟩
    rw [h.owners_record _ ow how]
    simp only [infosOf, List.mem_filterMap, List.mem_filter, Option.map_eq_some']
    exact ⟨e, ⟨he, decide_eq_true ⟨ha, rfl⟩⟩, z, hz, rfl⟩

theorem sum_map_ite_eq_count (K : List Nat) (a : Nat) :
    (K.map fun k => if a = k then 1 else 0).sum = K.count a := by
  induction K with
  | nil => rfl
  | cons k K ih =>
    by_cases h : a = k
    · subst h; simp [ih, Nat.add_comm]
    · simp [ih, h, Ne.symm h]

/-- Counting the elements that satisfy `P` key by key, over distinct keys that cover them. -/
theorem sum_countP_fibers {α : Type} (P : α → Bool) (key : α → Nat) {K : List Nat} (hK : K.Nodup) :
    ∀ es : List α, (∀ e ∈ es, P e = true → key e ∈ K) →
      (K.map fun k => es.countP fun e => P e && decide (key e = k)).sum = es.countP P
  | [], _ => by simp
  | e :: es, hes => by
    simp only [List.countP_cons, List.sum_map_add]
    rw [sum_countP_fibers P key hK es fun x hx => hes x (List.mem_cons_of_mem _ hx)]
    congr 1
    cases hp : P e
    · simp
    · simp only [Bool.true_and, decide_eq_true_eq, sum_map_ite_eq_count]
      exact List.count_eq_one_of_mem hK (hes e (List.mem_cons_self _ _) hp)

omit lib oa S D in
theorem infosOf_length (addr : Nat → Option ZombieProcessThreadInfo) (es : List SystemHandleTableEntryInfoEx)
    (p : Nat) :
    (infosOf addr c L es p).length = es.countP fun e => decide (Attr addr c L e) && decide (e.uniqueProcessId = p) := by
  unfold infosOf
  rw [List.length_filterMap_eq_countP, List.countP_filter]
  congr 1
  funext e
  by_cases ha : Attr addr c L e
  · simp [ha, ha.1]
  · simp [ha]

/-- Each attributed entry is in exactly one owner's list: the lists' lengths add up to the number
    of attributed entries of the snapshot. -/
theorem attributeHandles_count :
    ((values (attributeHandles lib oa c L S D).owners).map fun ow => ow.zombieOwningInfo.length).sum =
      S.countP fun e => decide (Attributed S L c e) := by
  have h := attributeHandles_spec lib oa c L S D
  rw [values_map_eq (g := fun p => (infosOf (refAddr S L c) c L S p).length)
    fun k v hk => by rw [h.owners_record k v hk]]
  simp only [infosOf_length]
  exact sum_countP_fibers _ _ (attributeHandles lib oa c L S D).owners.keys_nodup S fun e he ha =>
    AList.mem_keys.mpr ((h.owners_mem _).mpr ⟨e, he, of_decide_eq_true ha, rfl⟩)

/-- No owner's list is empty. -/
theorem attributeHandles_ne_nil :
    ∀ ow ∈ values (attributeHandles lib oa c L S D).owners, ow.zombieOwningInfo ≠ [] := by
  have h := attributeHandles_spec lib oa c L S D
  intro ow how
  obtain ⟨p, hp⟩ := mem_values.mp how
  rw [h.owners_record p ow hp]
  exact infosOf_ne_nil ((h.owners_mem p).mp (AList.lookup_isSome.mp (by rw [hp]; rfl)))

/-- The PID lookup the loops leave has one record for each discovered PID no attributed entry
    names. -/
theorem attributeHandles_unexplained_length :
    (values (attributeHandles lib oa c L S D).pidLookup).length =
      (D.keys.filter fun k => ¬Claims (refAddr S L c) c L S k).length := by
  have h := attributeHandles_spec lib oa c L S D
  rw [values, List.length_map]
  refine (List.length_map _ Sigma.fst).symm.trans <| List.Perm.length_eq ((List.perm_ext_iff_of_nodup (attributeHandles lib oa c L S D).pidLookup.keys_nodup
    (D.keys_nodup.filter _)).mpr fun k => ?_)
  simp only [AList.keys, List.keys, List.mem_map, List.mem_filter, decide_eq_true_eq]
  constructor
  · rintro ⟨⟨k', v⟩, hkv, rfl⟩
    obtain ⟨hd, hc⟩ := (h.pid_lookup k' v).mp (AList.mem_lookup_iff.mpr hkv)
    exact ⟨⟨⟨k', v⟩, AList.mem_lookup_iff.mp hd, rfl⟩, hc⟩
  · rintro ⟨⟨⟨k', v⟩, hkv, rfl⟩, hc⟩
    exact ⟨⟨k', v⟩, AList.mem_lookup_iff.mp ((h.pid_lookup k' v).mpr ⟨AList.mem_lookup_iff.mpr hkv, hc⟩), rfl⟩

omit lib oa D in
theorem refAddr_mem_values {obj : Nat} {z : ZombieProcessThreadInfo} (h : refAddr S L c obj = some z) :
    z ∈ values L := by
  obtain ⟨e, -, he⟩ := Option.bind_eq_some.mp h
  exact mem_values.mpr ⟨_, he⟩

/-- Given discovery's invariant, the attributed zombies are discovered ones, and the PID lookup
    the loops leave holds one `TID = 0` record for every other discovered PID. -/
theorem attributeHandles_unexplained (hd : Discovered L D) :
    (∀ k, Claims (refAddr S L c) c L S k → k ∈ D) ∧
    (∀ k, ((values (attributeHandles lib oa c L S D).pidLookup).map (·.pid)).count k =
      if k ∈ D ∧ ¬Claims (refAddr S L c) c L S k then 1 else 0) ∧
    ∀ v ∈ values (attributeHandles lib oa c L S D).pidLookup, v.tid = 0 := by
  have h := attributeHandles_spec lib oa c L S D
  refine ⟨fun k ⟨e, _, _, hk⟩ => ?_, fun k => ?_, fun v hv => ?_⟩
  · obtain ⟨z, hz, rfl⟩ := Option.map_eq_some'.mp hk
    exact hd.lookup_pid z (refAddr_mem_values c L S hz)
  · rw [count_map_values fun k v hv => (hd.pid_record k v ((h.pid_lookup k v).mp hv).1).1]
    have hmem : k ∈ (attributeHandles lib oa c L S D).pidLookup ↔ k ∈ D ∧ ¬Claims (refAddr S L c) c L S k := by
      simp only [← AList.lookup_isSome, Option.isSome_iff_exists, h.pid_lookup]
      exact ⟨fun ⟨v, hv, hc⟩ => ⟨⟨v, hv⟩, hc⟩, fun ⟨⟨v, hv⟩, hc⟩ => ⟨v, hv, hc⟩⟩
    simp only [hmem]
  · obtain ⟨k, hk⟩ := mem_values.mp hv
    exact (hd.pid_record k v ((h.pid_lookup k v).mp hk).1).2

/-- Every zombie record the loops leave, in an owner's list or in the PID lookup, is one that
    discovery made. -/
theorem attributeHandles_records :
    (∀ ow ∈ values (attributeHandles lib oa c L S D).owners, ∀ oi ∈ ow.zombieOwningInfo,
      oi.zombieInfo ∈ values L) ∧
    ∀ v ∈ values (attributeHandles lib oa c L S D).pidLookup, v ∈ values D := by
  have h := attributeHandles_spec lib oa c L S D
  refine ⟨fun ow how oi hoi => ?_, fun v hv => ?_⟩
  · obtain ⟨p, hp⟩ := mem_values.mp how
    rw [h.owners_record p ow hp] at hoi
    obtain ⟨e, -, he⟩ := List.mem_filterMap.mp hoi
    obtain ⟨z, hz, rfl⟩ := Option.map_eq_some'.mp he
    exact refAddr_mem_values c L S hz
  · obtain ⟨k, hk⟩ := mem_values.mp hv
    exact mem_values.mpr ⟨k, ((h.pid_lookup k v).mp hk).1⟩

end

end ZombieFinder
